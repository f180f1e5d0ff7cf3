import UriTemplate.Proofs.OctetEncoding
import UriTemplate.Proofs.Pieces
import UriTemplate.Proofs.Rendering
import UriTemplate.Proofs.RoundTrip

namespace UriTemplate.Percent

inductive UriText : Text → Prop
  | nil : UriText []
  | char {c : CodePoint} {t : Text} : isUnreserved c ∨ isReserved c → UriText t → UriText (c :: t)
  | triplet {a b : CodePoint} {t : Text} : Text.isHexDigit a → Text.isHexDigit b → UriText t →
      UriText (.char '%' :: a :: b :: t)

theorem isUnreserved_of_isWordChar {c : CodePoint} (h : Parser.isWordChar c) : isUnreserved c := by
  rw [Parser.isWordChar, Bool.or_eq_true] at h
  obtain h | h := h
  · simp [isUnreserved, h]
  · rw [of_decide_eq_true h]
    rfl

theorem isUnreserved_of_isHexDigit {c : CodePoint} (h : Text.isHexDigit c) : isUnreserved c :=
  isUnreserved_of_isWordChar (Parser.isWordChar_of_isHexDigit h)

namespace UriText

theorem mem {t : Text} (h : UriText t) {c : CodePoint} (hc : c ∈ t) :
    isUnreserved c ∨ isReserved c ∨ c = .char '%' := by
  induction h with
  | nil => contradiction
  | char hd _ ih =>
      obtain rfl | hc := List.mem_cons.1 hc
      · exact hd.imp_right .inl
      · exact ih hc
  | triplet ha hb _ ih =>
      simp only [List.mem_cons] at hc
      obtain rfl | rfl | rfl | hc := hc
      · exact .inr (.inr rfl)
      · exact .inl (isUnreserved_of_isHexDigit ha)
      · exact .inl (isUnreserved_of_isHexDigit hb)
      · exact ih hc

theorem hexDigits_of_percent {t u r : Text} (h : UriText t) (ht : t = u ++ .char '%' :: r) :
    ∃ a b w, r = a :: b :: w ∧ Text.isHexDigit a ∧ Text.isHexDigit b := by
  -- A percent sign is neither a character of its own nor a digit, so it begins a triplet.
  induction h generalizing u with
  | nil => exact absurd ht.symm (by simp)
  | char hc _ ih =>
      cases u with
      | nil =>
          obtain rfl := (List.cons.inj ht).1
          rcases hc with hc | hc <;> contradiction
      | cons d u => exact ih (List.cons.inj ht).2
  | triplet ha hb _ ih =>
      rcases u with _ | ⟨x, _ | ⟨y, _ | ⟨z, u⟩⟩⟩
      · cases ht
        exact ⟨_, _, _, rfl, ha, hb⟩
      · cases ht
        contradiction
      · cases ht
        contradiction
      · cases ht
        exact ih rfl

theorem of_hexDigits {t : Text} (hmem : ∀ c ∈ t, isUnreserved c ∨ isReserved c ∨ c = .char '%')
    (hpercent : ∀ u r, t = u ++ .char '%' :: r →
      ∃ a b w, r = a :: b :: w ∧ Text.isHexDigit a ∧ Text.isHexDigit b) : UriText t := by
  -- Behind a percent sign the induction goes on with what comes after the digits.
  induction hn : t.length using Nat.strongRecOn generalizing t with
  | ind n ih =>
      cases t with
      | nil => exact .nil
      | cons c t =>
          obtain ⟨hc, ht⟩ := List.forall_mem_cons.1 hmem
          rw [List.length_cons] at hn
          by_cases hp : c = .char '%'
          · subst hp
            obtain ⟨a, b, w, rfl, ha, hb⟩ := hpercent [] t rfl
            have hw : ∀ d ∈ w, isUnreserved d ∨ isReserved d ∨ d = .char '%' :=
              fun d hd => ht d (List.mem_cons_of_mem _ (List.mem_cons_of_mem _ hd))
            refine .triplet ha hb (ih w.length ?_ hw (fun u r hu => ?_) rfl)
            · simp only [List.length_cons] at hn
              omega
            · exact hpercent (.char '%' :: a :: b :: u) r (by rw [hu]; rfl)
          · rw [← or_assoc] at hc
            refine .char (hc.resolve_right hp) (ih t.length ?_ ht (fun u r hu => ?_) rfl)
            · omega
            · exact hpercent (c :: u) r (by rw [hu]; rfl)

/-- Text of a URI, said of its characters and of what stands behind a percent sign. -/
theorem iff_hexDigits {t : Text} :
    UriText t ↔ (∀ c ∈ t, isUnreserved c ∨ isReserved c ∨ c = .char '%') ∧
      ∀ u r, t = u ++ .char '%' :: r →
        ∃ a b w, r = a :: b :: w ∧ Text.isHexDigit a ∧ Text.isHexDigit b :=
  ⟨fun h => ⟨fun _ => h.mem, fun _ _ => h.hexDigits_of_percent⟩, fun h => of_hexDigits h.1 h.2⟩

theorem notMem_brace {t : Text} (h : UriText t) : .char '{' ∉ t := by
  intro hc
  have hb := h.mem hc
  revert hb
  decide

theorem append {s t : Text} (hs : UriText s) (ht : UriText t) : UriText (s ++ t) := by
  induction hs with
  | nil => exact ht
  | char hc _ ih => exact .char hc ih
  | triplet ha hb _ ih => exact .triplet ha hb ih

theorem joined {c : CodePoint} (hc : isUnreserved c ∨ isReserved c) {ts : List Text}
    (h : ∀ t ∈ ts, UriText t) : UriText (Text.joined c ts) := by
  induction ts with
  | nil => exact .nil
  | cons t ts ih =>
      obtain ⟨ht, hts⟩ := List.forall_mem_cons.1 h
      cases ts with
      | nil => simpa using ht
      | cons u us =>
          rw [Text.joined_cons_cons]
          exact ht.append (.char hc (ih hts))

end UriText

theorem isHexDigit_of_isUpperHexDigit {c : CodePoint} (h : isUpperHexDigit c) :
    Text.isHexDigit c := by
  obtain ⟨d, rfl, hd⟩ := CodePoint.satisfies_iff.1 h
  refine CodePoint.satisfies_iff.2 ⟨d, rfl, ?_⟩
  simp only [Bool.or_eq_true] at hd ⊢
  exact hd.imp_left .inl

theorem Encoded.uriText {keep : CodePoint → Bool} (hk : ∀ c, keep c → isUnreserved c ∨ isReserved c)
    {t : Text} (h : Encoded keep t) : UriText t := by
  induction h with
  | nil => exact .nil
  | char hc _ ih => exact .char (hk _ hc) ih
  | triplet ha hb _ ih =>
      exact .triplet (isHexDigit_of_isUpperHexDigit ha) (isHexDigit_of_isUpperHexDigit hb) ih

theorem uriText_encode {keep : CodePoint → Bool} (hk : ∀ c, keep c → isUnreserved c ∨ isReserved c)
    (cs : List Char) : UriText (encode keep cs) :=
  (encoded_encode keep cs).uriText hk

theorem uriText_component (cs : List Char) : UriText (component cs) :=
  uriText_encode (fun _ => .inl) cs

theorem uriText_withReserved (cs : List Char) : UriText (withReserved cs) :=
  uriText_encode (fun _ hc => by simpa using hc) cs

theorem uriText_nameUnit {u : Text} (h : Grammar.NameUnit u) : UriText u := by
  cases h with
  | word hc => exact .char (.inl (isUnreserved_of_isWordChar hc)) .nil
  | triplet ha hb => exact .triplet ha hb .nil

theorem uriText_name {n : Text} (h : Grammar.Name n) : UriText n := by
  induction h with
  | unit hu => exact uriText_nameUnit hu
  | next hu _ ih => exact (uriText_nameUnit hu).append ih
  | dotted hu _ ih => exact (uriText_nameUnit hu).append (.char (.inl rfl) ih)

end UriTemplate.Percent

namespace UriTemplate.Expansion

open Percent

variable {o : Operator} {v : Variable} {vars : Lookup}

theorem uriText_label (hv : v.IsNormal) {t : Text} (ht : UriText t) : UriText (label o v t) := by
  rw [label]
  split
  · exact (uriText_name hv.1).append (.char (.inr rfl) ht)
  · exact ht

theorem uriText_spell (o : Operator) (cs : List Char) : UriText (spell o cs) := by
  rw [spell]
  split
  · exact uriText_withReserved cs
  · exact uriText_component cs

theorem uriText_joined_component (o : Operator) (explode : Bool) (ts : List (List Char)) :
    UriText (Text.joined (if explode then o.itemSeparator else .char ',') (ts.map component)) := by
  apply UriText.joined
  · cases explode with
    | true => cases o <;> decide
    | false => exact .inr rfl
  · intro u hu
    obtain ⟨t, -, rfl⟩ := List.mem_map.1 hu
    exact uriText_component t

theorem uriText_renderVariable (hv : v.IsNormal) {t : Option Text}
    (ht : renderVariable o v vars = .ok t) : ∀ u ∈ t, UriText u := by
  intro u hu
  obtain rfl := Option.mem_def.1 hu
  cases hg : vars.gist v.name with
  | nothing =>
      rw [renderVariable_of_nothing hg] at ht
      cases ht
  | other x =>
      obtain ⟨_, cs, -, -, hw⟩ := (renderVariable_of_other hg).1 ht
      obtain rfl := Option.some.inj hw
      exact uriText_label hv (uriText_spell o cs)
  | items xs =>
      obtain ⟨ts, -, -, hw⟩ := (renderVariable_of_items hg).1 ht
      obtain rfl := Option.some.inj hw
      exact uriText_label hv (uriText_joined_component o v.explode ts)

theorem uriText_renderVariables {vs : List Variable} (hv : ∀ v ∈ vs, v.IsNormal) {ts : List Text}
    (ht : renderVariables o vars vs = .ok ts) : ∀ t ∈ ts, UriText t := by
  induction vs generalizing ts with
  | nil =>
      cases ht
      nofun
  | cons v vs ih =>
      obtain ⟨hv, hvs⟩ := List.forall_mem_cons.1 hv
      obtain ⟨u, us, hu, hus, rfl⟩ := renderVariables_cons_eq_ok_iff.1 ht
      intro t hm
      obtain hm | hm := List.mem_append.1 hm
      · exact uriText_renderVariable hv hu t (Option.mem_toList.1 hm)
      · exact ih hvs hus t hm

theorem uriText_assemble (o : Operator) {ts : List Text} (h : ∀ t ∈ ts, UriText t) :
    UriText (assemble o ts) := by
  cases ts with
  | nil => exact .nil
  | cons t ts =>
      have hopening : UriText o.opening := by
        cases o with
        | simple | reserved => exact .nil
        | label => exact .char (.inl rfl) .nil
        | _ => exact .char (.inr rfl) .nil
      have hseparator : isUnreserved o.separator ∨ isReserved o.separator := by
        cases o <;> decide
      exact hopening.append (.joined hseparator h)

theorem uriText_renderExpression {e : Expression} (he : e.IsNormal) {t : Text}
    (ht : renderExpression e vars = .ok t) : UriText t := by
  obtain ⟨ts, hts, rfl⟩ := Outcome.map_eq_ok_iff.1 ht
  exact uriText_assemble e.operator (uriText_renderVariables he.2 hts)

theorem notMem_brace_render {ps : List Part} (hn : ∀ p ∈ ps, p.IsNormal) {t : Text}
    (ht : render vars ps = .ok t) : .char '{' ∉ t := by
  induction ps generalizing t with
  | nil =>
      cases ht
      nofun
  | cons p ps ih =>
      obtain ⟨hp, hps⟩ := List.forall_mem_cons.1 hn
      obtain ⟨u, w, hu, hw, rfl⟩ := render_cons_eq_ok_iff.1 ht
      have hbrace : .char '{' ∉ u := by
        cases p with
        | literal t =>
            cases hu
            exact hp.2
        | expression e => exact (uriText_renderExpression hp hu).notMem_brace
        | foreign => exact hp.elim
      intro hm
      obtain hm | hm := List.mem_append.1 hm
      · exact hbrace hm
      · exact ih hps hw hm

end UriTemplate.Expansion

namespace UriTemplate

/-- Without an opening brace all is one literal. -/
theorem parse_of_notMem_brace {s : Text} (h : .char '{' ∉ s) :
    parse s = .ok (if s = [] then [] else [.literal s]) := by
  apply parse_eq_ok_iff.2
  split
  next hs =>
    subst hs
    exact .nil
  next hs => simpa using Grammar.Template.literal hs h nofun .nil

/-- Values cannot bring expressions into an expansion. It is read as one literal, or as nothing
where it is empty, and whatever it is expanded with it stays as it is. -/
theorem expand_expand {template s : Text} {vars : Lookup} (h : expand template vars = .ok s) :
    let ps := if s = [] then [] else [Part.literal s]
    parse s = .ok ps ∧ Part.variableNames ps = [] ∧ ∀ other, expand s other = .ok s := by
  intro ps
  have hb : .char '{' ∉ s := by
    rw [expand] at h
    cases hp : parse template with
    | error e => simp [hp] at h
    | ok qs =>
        rw [hp] at h
        exact Expansion.notMem_brace_render (allNormal_of_template (parse_eq_ok_iff.1 hp)).1 h
  have hs : parse s = .ok ps := parse_of_notMem_brace hb
  refine ⟨hs, ?_, fun other => ?_⟩
  · by_cases hne : s = [] <;> simp [ps, hne, Part.variableNames, Part.names]
  · rw [expand, hs, Outcome.ok_bind]
    by_cases hne : s = [] <;>
      simp [ps, hne, Expansion.render, Expansion.renderPart, pure, Except.pure]

theorem expand_expand_braces :
    let vars : Lookup := fun _ => some (.string (Text.of "{admin}"))
    let other : Lookup := fun _ => some (.dict [])
    expand (Text.of "{+x}\x7d") vars = .ok (Text.of "%7Badmin%7D\x7d") ∧
    parse (Text.of "%7Badmin%7D\x7d") = .ok [.literal (Text.of "%7Badmin%7D\x7d")] ∧
    expand (Text.of "%7Badmin%7D\x7d") other = .ok (Text.of "%7Badmin%7D\x7d") := by
  intro vars other
  have hx : Grammar.Spec [.char 'x'] ⟨[.char 'x'], none, false⟩ := .bare (.unit (.word rfl))
  have hp : parse (Text.of "{+x}\x7d") =
      .ok [.expression ⟨.reserved, [⟨[.char 'x'], none, false⟩]⟩, .literal [.char '}']] :=
    parse_eq_ok_iff.2 (.expression (.mk .reserved (.one hx))
      (.literal (t := [.char '}']) (by decide) (by decide) nofun .nil))
  have ht : expand (Text.of "{+x}\x7d") vars = .ok (Text.of "%7Badmin%7D\x7d") := by
    rw [expand, hp]
    rfl
  have h := expand_expand ht
  exact ⟨ht, h.1, h.2.2 other⟩

end UriTemplate
