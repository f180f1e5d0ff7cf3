import UriTemplate.Proofs.Pieces
import UriTemplate.Proofs.Rendering
import UriTemplate.Proofs.RoundTrip

namespace UriTemplate.Reference

def IsTextual : Value → Prop
  | .null | .scalar (.string _) => True
  | .list items => ∀ x ∈ items, x = .null ∨ ∃ t, x = .string t
  | _ => False

/-- What a defined variable may hold for its operator to write it as the RFC does: texts without
surrogates, up to the length asked for, that the operator encodes in the same way. -/
def Agrees (o : Operator) (v : Variable) : Content → Prop
  | .string t => (∃ cs, v.cut t = Text.ofChars cs) ∧ match o with
      | .simple | .query | .continuation => True
      | .reserved | .fragment => .char '%' ∉ v.cut t
      | .label | .path => ∀ c ∈ v.cut t, Percent.isReserved c = false
      | .pathParameter => v.cut t ≠ [] ∧ ∀ c ∈ v.cut t, Percent.isReserved c = false
  | .list ts => (∀ t ∈ ts, ∃ cs, t = .ofChars cs) ∧ match o with
      | .simple | .label | .path => True
      | .query | .continuation => v.explode → ts.length = 1
      | .reserved | .fragment => (v.explode → ts.length = 1) ∧
          ∀ t ∈ ts, ∀ c ∈ t, c ≠ .char '%' ∧ Percent.isReserved c = false
      | .pathParameter => (v.explode → ts.length = 1) ∧ ts ≠ [[]]

theorem itemTexts_of_strings (name : Text) {items : List Value}
    (h : ∀ x ∈ items, x = .null ∨ ∃ t, x = .string t) {css : List (List Char)}
    (hs : strings items = css.map .ofChars) : Expansion.itemTexts name items = .ok css := by
  induction items generalizing css with
  | nil =>
      obtain rfl := List.map_eq_nil_iff.1 hs.symm
      rfl
  | cons x items ih =>
      obtain ⟨hx, hitems⟩ := List.forall_mem_cons.1 h
      obtain rfl | ⟨t, rfl⟩ := hx
      · exact ih hitems hs
      · cases css with
        | nil => contradiction
        | cons cs css =>
            obtain ⟨rfl, htail⟩ := List.cons.inj hs
            have ht : Expansion.itemText (.string (.ofChars cs)) = .ok cs :=
              Expansion.itemText_eq_ok_iff.2 rfl
            rw [Value.string, Expansion.itemTexts, ht, ih hitems htail]
            rfl

theorem joined_component_ne_nil {css : List (List Char)} (hne : css ≠ [])
    (h : css.map Text.ofChars ≠ [[]]) :
    Text.joined (.char ',') (css.map Percent.component) ≠ [] := by
  cases css with
  | nil => contradiction
  | cons cs css =>
      cases css with
      | nil =>
          rw [List.map_singleton, Text.joined_singleton]
          apply Percent.encode_ne_nil
          rintro rfl
          exact h rfl
      | cons u css => simp

theorem labelled_query {o : Operator} (ho : o = .query ∨ o = .continuation) (name t : Text) :
    (column o).labelled name t = name ++ .char '=' :: t := by
  obtain rfl | rfl := ho <;> cases t <;> rfl

theorem labelled_pathParameter (name : Text) {t : Text} (ht : t ≠ []) :
    (column .pathParameter).labelled name t = name ++ .char '=' :: t := by
  cases t with
  | nil => contradiction
  | cons c t => rfl

theorem label_string {o : Operator} {v : Variable} {t : Text} (h : Agrees o v (.string t))
    {cs : List Char} (hcs : v.cut t = Text.ofChars cs) :
    Expansion.label o v (Expansion.spell o cs) = (column o).expand v (.string t) := by
  rw [Column.expand, hcs, Column.encode, Text.characters_ofChars]
  obtain ⟨-, h⟩ := h
  simp only [hcs] at h
  cases o with
  | simple => rfl
  | query => exact (labelled_query (.inl rfl) _ _).symm
  | continuation => exact (labelled_query (.inr rfl) _ _).symm
  | reserved | fragment =>
      exact (encodeAround_eq fun hm => h (Text.mem_ofChars.2 hm)).symm
  | label | path =>
      exact Percent.withReserved_eq_component fun c hc => h _ (Text.mem_ofChars.2 hc)
  | pathParameter =>
      obtain ⟨hne, hr⟩ := h
      have hnil : Percent.component cs ≠ [] :=
        Percent.encode_ne_nil _ fun hcs => hne (congrArg Text.ofChars hcs)
      have hsame : Percent.withReserved cs = Percent.component cs :=
        Percent.withReserved_eq_component fun c hc => hr _ (Text.mem_ofChars.2 hc)
      exact (congrArg (v.name ++ .char '=' :: ·) hsame).trans
        (labelled_pathParameter v.name hnil).symm

theorem expand_list {o : Operator} {v : Variable} {ts : List Text}
    (h : v.explode → ts.length = 1) :
    (column o).expand v (.list ts) =
      (column o).labelled v.name (Text.joined (.char ',') (ts.map (column o).encode)) := by
  rw [Column.expand]
  split
  next he =>
    obtain ⟨t, rfl⟩ := List.length_eq_one_iff.1 (h he)
    simp
  next => rfl

theorem map_encode_ofChars (o : Operator) (css : List (List Char)) :
    (css.map Text.ofChars).map (column o).encode =
      css.map (if (column o).keepsReserved then encodeAround else Percent.component) := by
  rw [List.map_map]
  apply List.map_congr_left
  intro cs _
  rw [Function.comp_apply, Column.encode, Text.characters_ofChars]
  split <;> rfl

theorem expand_list_of_unnamed {o : Operator} (hn : (column o).named = false)
    (hk : (column o).keepsReserved = false) (v : Variable) (css : List (List Char)) :
    (column o).expand v (.list (css.map .ofChars)) =
      Text.joined (if v.explode then (column o).separator else .char ',')
        (css.map Percent.component) := by
  have hlabelled (t : Text) : (column o).labelled v.name t = t := by
    rw [Column.labelled, hn]
    rfl
  have hmap := map_encode_ofChars o css
  rw [hk] at hmap
  simp only [Column.expand, hlabelled]
  rw [hmap]
  cases v.explode <;> rfl

/-- What the items of a list are written as, with `css` for their characters. -/
theorem label_list {o : Operator} {v : Variable} {css : List (List Char)} (hne : css ≠ [])
    (h : Agrees o v (.list (css.map .ofChars))) :
    Expansion.label o v (Text.joined (if v.explode then o.itemSeparator else .char ',')
      (css.map Percent.component)) = (column o).expand v (.list (css.map .ofChars)) := by
  obtain ⟨-, h⟩ := h
  have hone (hx : v.explode → (css.map Text.ofChars).length = 1) :
      Text.joined (if v.explode then o.itemSeparator else .char ',') (css.map Percent.component) =
        Text.joined (.char ',') (css.map Percent.component) :=
    Text.joined_of_explode (by simpa using hx)
  cases o with
  | simple => exact (expand_list_of_unnamed (o := .simple) rfl rfl v css).symm
  | label => exact (expand_list_of_unnamed (o := .label) rfl rfl v css).symm
  | path => exact (expand_list_of_unnamed (o := .path) rfl rfl v css).symm
  | query | continuation =>
      rw [hone h, expand_list h, labelled_query (by simp), map_encode_ofChars]
      rfl
  | reserved | fragment =>
      obtain ⟨hx, hts⟩ := h
      rw [hone hx, expand_list hx, map_encode_ofChars]
      apply congrArg (Text.joined (.char ','))
      apply List.map_congr_left
      intro cs hcs
      have hmem (c : Char) (hc : c ∈ cs) :=
        hts _ (List.mem_map_of_mem hcs) _ (Text.mem_ofChars.2 hc)
      have hp : '%' ∉ cs := fun hm => (hmem _ hm).1 rfl
      have hr : ∀ c ∈ cs, Percent.isReserved (.char c) = false := fun c hc => (hmem c hc).2
      change Percent.component cs = encodeAround cs
      rw [encodeAround_eq hp, Percent.withReserved_eq_component hr]
  | pathParameter =>
      obtain ⟨hx, hts⟩ := h
      rw [hone hx, expand_list hx, map_encode_ofChars]
      exact (labelled_pathParameter v.name (joined_component_ne_nil hne hts)).symm

theorem renderVariable_textual {o : Operator} {v : Variable} {vars : Lookup} {x : Value}
    (hx : vars v.name = some x) (ht : IsTextual x) (h : ∀ c, content? x = some c → Agrees o v c) :
    Expansion.renderVariable o v vars = .ok ((content? x).map ((column o).expand v)) := by
  have hr : Expansion.resolve o v vars = Expansion.resolveValue o v x := by
    rw [Expansion.resolve, hx]
  cases x with
  | null =>
      rw [Expansion.renderVariable, hr]
      rfl
  | scalar s =>
      cases s with
      | string t =>
          obtain ⟨⟨cs, hcs⟩, -⟩ := h _ rfl
          refine (Expansion.renderVariable_of_plain hr).2 ⟨cs, hcs, ?_⟩
          exact congrArg some (label_string (h _ rfl) hcs)
      | _ => exact ht.elim
  | list items =>
      have hr : Expansion.resolve o v vars =
          (Expansion.itemTexts v.name items).map (Expansion.joinItems o v.explode) := hr
      by_cases hnil : strings items = []
      · have hi : Expansion.itemTexts v.name items = .ok [] := itemTexts_of_strings v.name ht hnil
        rw [Expansion.renderVariable, hr, hi, content?, if_pos hnil]
        rfl
      · have hc : content? (.list items) = some (.list (strings items)) := if_neg hnil
        have ha := h _ hc
        obtain ⟨css, hcss⟩ := Text.exists_eq_map ha.1
        have hne : css ≠ [] := fun he => hnil (hcss.trans (congrArg _ he))
        have hi := itemTexts_of_strings v.name ht hcss
        rw [hcss] at ha
        rw [Expansion.renderVariable, hr, hi, Outcome.map_ok,
          Expansion.joinItems_of_ne_nil o v.explode hne, hc, hcss, Option.map_some,
          ← label_list hne ha]
        rfl
  | _ => exact ht.elim

def AllAgree (vars : Lookup) (e : Expression) : Prop :=
  ∀ v ∈ e.vars, ∀ c, (vars v.name).bind content? = some c → Agrees e.operator v c

theorem renderVariables_eq {o : Operator} {vars : Lookup} (hv : ∀ n, ∀ x ∈ vars n, IsTextual x)
    {vs : List Variable}
    (h : ∀ v ∈ vs, ∀ c, (vars v.name).bind content? = some c → Agrees o v c) :
    Expansion.renderVariables o vars vs = .ok
      (vs.filterMap fun v => ((vars v.name).bind content?).map ((column o).expand v)) := by
  induction vs with
  | nil => rfl
  | cons v vs ih =>
      obtain ⟨hw, hvs⟩ := List.forall_mem_cons.1 h
      have hone : Expansion.renderVariable o v vars =
          .ok (((vars v.name).bind content?).map ((column o).expand v)) := by
        cases hx : vars v.name with
        | none =>
            rw [Expansion.renderVariable, Expansion.resolve, hx]
            rfl
        | some x =>
            rw [hx] at hw
            exact renderVariable_textual hx (hv _ _ hx) hw
      rw [Expansion.renderVariables, hone, ih hvs, Outcome.ok_bind, Outcome.ok_bind]
      cases hc : (vars v.name).bind content? with
      | none =>
          rw [List.filterMap_cons, hc]
          rfl
      | some c =>
          rw [List.filterMap_cons, hc]
          rfl

theorem renderExpression_eq {vars : Lookup} (hv : ∀ n, ∀ x ∈ vars n, IsTextual x)
    {e : Expression} (h : AllAgree vars e) :
    Expansion.renderExpression e vars = .ok (expandExpression e vars) := by
  rw [Expansion.renderExpression, renderVariables_eq hv h, Outcome.map_ok, expandExpression]
  generalize (e.vars.filterMap fun v => _) = ts
  cases ts with
  | nil => rfl
  | cons t ts => cases e.operator <;> rfl

theorem render_eq {vars : Lookup} (hv : ∀ n, ∀ x ∈ vars n, IsTextual x) {ps : List Part}
    (hp : ∀ p ∈ ps, p.IsNormal) (h : ∀ e, .expression e ∈ ps → AllAgree vars e) :
    Expansion.render vars ps = .ok (expand ps vars) := by
  induction ps with
  | nil => rfl
  | cons p ps ih =>
      obtain ⟨hn, hps⟩ := List.forall_mem_cons.1 hp
      have hr := ih hps fun e he => h e (List.mem_cons_of_mem _ he)
      cases p with
      | literal t =>
          rw [Expansion.render, hr]
          rfl
      | expression e =>
          rw [Expansion.render, Expansion.renderPart,
            renderExpression_eq hv (h e List.mem_cons_self), hr]
          rfl
      | foreign => exact hn.elim

end UriTemplate.Reference

namespace UriTemplate

open Reference

/-- With texts and lists of texts, a template is expanded as the RFC says wherever every defined
variable holds what its operator writes in the same way. -/
theorem expand_eq_reference {template : Text} {ps : List Part} {vars : Lookup}
    (hp : parse template = .ok ps) (hv : ∀ n, ∀ x ∈ vars n, IsTextual x)
    (h : ∀ e, .expression e ∈ ps → AllAgree vars e) :
    expand template vars = .ok (Reference.expand ps vars) := by
  rw [expand, hp, Outcome.ok_bind]
  exact render_eq hv (allNormal_of_template (parse_eq_ok_iff.1 hp)).1 h

theorem expand_eq_reference_path :
    let vars : Lookup := fun n =>
      if n = [.char 'x'] then some (.list [.string (Text.of "a/b"), .null, .string [.char 'c']])
      else if n = [.char 'y'] then some (.string [.char 'd']) else none
    let e : Expression := ⟨.path, [⟨[.char 'x'], none, true⟩, ⟨[.char 'y'], none, false⟩]⟩
    parse (Text.of "{/x*,y}") = .ok [.expression e] ∧ (∀ n, ∀ x ∈ vars n, IsTextual x) ∧
      AllAgree vars e ∧ expand (Text.of "{/x*,y}") vars = .ok (Text.of "/a%2Fb/c/d") := by
  intro vars e
  have hx : Grammar.Spec (Text.of "x*") ⟨[.char 'x'], none, true⟩ := .exploded (.unit (.word rfl))
  have hy : Grammar.Spec [.char 'y'] ⟨[.char 'y'], none, false⟩ := .bare (.unit (.word rfl))
  have hp : parse (Text.of "{/x*,y}") = .ok [.expression e] :=
    parse_eq_ok_iff.2 (.expression (.mk .path (.more hx (.one hy))) .nil)
  have hv : ∀ n, ∀ x ∈ vars n, IsTextual x := by
    intro n x hm
    simp only [vars] at hm
    split at hm
    · obtain rfl := Option.some.inj hm
      simp [IsTextual, Value.string]
    · split at hm
      · obtain rfl := Option.some.inj hm
        trivial
      · contradiction
  have ha : AllAgree vars e := by
    intro v hm c hc
    simp only [e, List.mem_cons, List.not_mem_nil, or_false] at hm
    obtain rfl | rfl := hm <;> obtain rfl := Option.some.inj hc
    · refine ⟨fun t ht => ?_, trivial⟩
      have ht : t ∈ [Text.of "a/b", Text.of "c"] := ht
      simp only [List.mem_cons, List.not_mem_nil, or_false] at ht
      obtain rfl | rfl := ht <;> exact ⟨_, rfl⟩
    · refine ⟨⟨['d'], rfl⟩, fun c hc => ?_⟩
      obtain rfl := List.mem_singleton.1 hc
      rfl
  refine ⟨hp, hv, ha, ?_⟩
  rw [expand_eq_reference hp hv (by simpa using ha)]
  rfl

/-- Behind a dot reserved characters stay, which the RFC encodes there. A surrogate is not expanded
at all. -/
theorem expand_label_ne_reference :
    let vars : Lookup := fun n => if n = [.char 'x'] then some (.string (Text.of "a/b")) else none
    let lone : Lookup := fun _ => some (.string [.surrogate 0])
    let ps := [Part.expression ⟨.label, [⟨[.char 'x'], none, false⟩]⟩]
    parse (Text.of "{.x}") = .ok ps ∧ expand (Text.of "{.x}") vars = .ok (Text.of ".a/b") ∧
      Reference.expand ps vars = Text.of ".a%2Fb" ∧
      expand (Text.of "{.x}") lone = .error (.unencodable [.surrogate 0]) := by
  intro vars lone ps
  have hx : Grammar.Spec [.char 'x'] ⟨[.char 'x'], none, false⟩ := .bare (.unit (.word rfl))
  have hp : parse (Text.of "{.x}") = .ok ps :=
    parse_eq_ok_iff.2 (.expression (.mk .label (.one hx)) .nil)
  refine ⟨hp, ?_, rfl, ?_⟩
  · rw [expand, hp]
    rfl
  · rw [expand, hp]
    rfl

end UriTemplate
