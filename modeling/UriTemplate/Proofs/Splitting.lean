import UriTemplate.Proofs.Pieces
import UriTemplate.Proofs.Rendering

namespace UriTemplate

theorem Text.joined_append (c : CodePoint) {ts us : List Text} (ht : ts ≠ []) (hu : us ≠ []) :
    joined c (ts ++ us) = joined c ts ++ c :: joined c us := by
  induction ts with
  | nil => contradiction
  | cons t ts ih =>
      cases ts with
      | nil =>
          cases us with
          | nil => contradiction
          | cons u us => simp
      | cons s ts =>
          have h := ih (List.cons_ne_nil s ts)
          rw [List.cons_append] at h
          rw [List.cons_append, List.cons_append, joined_cons_cons, h, joined_cons_cons,
            List.append_assoc, List.cons_append]

namespace Expansion

variable {o o' : Operator} {v : Variable} {xs ys vs : List Variable} {vars : Lookup}

def inTurn (glue : Text) (r q : Except Error Text) : Except Error Text := do
  let t ← r
  let u ← q
  return t ++ glue ++ u

theorem renderVariables_append (o : Operator) (vars : Lookup) (xs ys : List Variable) :
    renderVariables o vars (xs ++ ys) =
      (do
        let ts ← renderVariables o vars xs
        let us ← renderVariables o vars ys
        return ts ++ us) := by
  induction xs with
  | nil =>
      rw [List.nil_append, renderVariables, Outcome.ok_bind]
      cases renderVariables o vars ys <;> rfl
  | cons x xs ih =>
      rw [List.cons_append, renderVariables, renderVariables, ih]
      cases renderVariable o x vars with
      | error e => rfl
      | ok t =>
          cases renderVariables o vars xs with
          | error e => rfl
          | ok ts =>
              cases renderVariables o vars ys with
              | error e => rfl
              | ok us =>
                  show Except.ok (t.toList ++ (ts ++ us)) = Except.ok (t.toList ++ ts ++ us)
                  rw [List.append_assoc]

theorem renderVariables_of_undefined (h : ∀ v ∈ vs, vars.isDefined v.name = false) :
    renderVariables o vars vs = .ok [] := by
  induction vs with
  | nil => rfl
  | cons v vs ih =>
      obtain ⟨hv, hvs⟩ := List.forall_mem_cons.1 h
      rw [renderVariables, renderVariable_of_nothing (Lookup.isDefined_eq_false_iff.1 hv), ih hvs]
      rfl

theorem ne_none_of_isDefined (hd : vars.isDefined v.name) {t : Option Text}
    (ht : renderVariable o v vars = .ok t) : t ≠ none := by
  cases hg : vars.gist v.name with
  | nothing => simp [Lookup.isDefined_eq_false_iff.2 hg] at hd
  | other x =>
      obtain ⟨_, _, -, -, rfl⟩ := (renderVariable_of_other hg).1 ht
      exact Option.some_ne_none _
  | items xs =>
      obtain ⟨ts, -, -, rfl⟩ := (renderVariable_of_items hg).1 ht
      exact Option.some_ne_none _

theorem ne_nil_of_isDefined (hd : ∃ v ∈ vs, vars.isDefined v.name) {ts : List Text}
    (ht : renderVariables o vars vs = .ok ts) : ts ≠ [] := by
  induction vs generalizing ts with
  | nil =>
      obtain ⟨v, hv, -⟩ := hd
      contradiction
  | cons w vs ih =>
      obtain ⟨t, us, hw, hus, rfl⟩ := renderVariables_cons_eq_ok_iff.1 ht
      obtain ⟨v, hv, hdv⟩ := hd
      rw [ne_eq, List.append_eq_nil_iff, Decidable.not_and_iff_not_or_not]
      obtain rfl | hv := List.mem_cons.1 hv
      · left
        rw [Option.toList_eq_nil_iff]
        exact ne_none_of_isDefined hdv hw
      · right
        exact ih ⟨v, hv, hdv⟩ hus

theorem length_itemTexts {name : Text} {items : List Value} {ts : List (List Char)}
    (h : itemTexts name items = .ok ts) : ts.length ≤ items.length := by
  induction items generalizing ts with
  | nil =>
      cases h
      exact Nat.le_refl _
  | cons x items ih =>
      cases x with
      | null => exact Nat.le_succ_of_le (ih h)
      | scalar s =>
          obtain ⟨t, us, -, hus, rfl⟩ := Outcome.bind_bind_eq_ok_iff.1 h
          exact Nat.succ_le_succ (ih hus)
      | _ => contradiction

/-- No exploded variable holds a list of several items, which is where an operator's own character
would stand between them. -/
def NoneLong (vars : Lookup) (vs : List Variable) : Prop :=
  ∀ v ∈ vs, v.explode → ∀ items, vars.gist v.name = .items items → items.length < 2

theorem joinItems_congr {explode : Bool} {ts : List (List Char)} (h : explode → ts.length < 2) :
    joinItems o explode ts = joinItems o' explode ts := by
  by_cases hne : ts = []
  · rw [hne]
    rfl
  · have hone : explode → (ts.map Percent.component).length = 1 := by
      intro he
      have hlt := h he
      have hpos := List.length_pos_iff.2 hne
      rw [List.length_map]
      omega
    rw [joinItems_of_ne_nil o explode hne, joinItems_of_ne_nil o' explode hne,
      Text.joined_of_explode hone, Text.joined_of_explode hone]

/-- Operators with one form and one encoding differ only between the items of a list. -/
theorem renderVariable_congr_operator (hn : o.isNamed = o'.isNamed)
    (hk : o.keepsReserved = o'.keepsReserved)
    (h : v.explode → ∀ items, vars.gist v.name = .items items → items.length < 2) :
    renderVariable o v vars = renderVariable o' v vars := by
  have hwrite : write o v = write o' v := by
    funext r
    have hencode : encode o r = encode o' r := by
      cases r with
      | encoded t => rfl
      | plain t => rw [encode, encode, hk]
    have hlabel : label o v = label o' v := by
      funext t
      rw [label, label, hn]
    rw [write, write, hlabel, hencode]
  have hresolve : resolve o v vars = resolve o' v vars := by
    rw [resolve_eq_resolveGist, resolve_eq_resolveGist]
    cases hg : vars.gist v.name with
    | nothing => rfl
    | other x => cases x <;> rfl
    | items items =>
        rw [resolveGist, resolveGist]
        cases ht : itemTexts v.name items with
        | error e => rfl
        | ok ts =>
            apply congrArg Except.ok
            apply joinItems_congr
            intro he
            exact Nat.lt_of_le_of_lt (length_itemTexts ht) (h he items hg)
  rw [renderVariable, renderVariable, hwrite, hresolve]

theorem renderVariables_congr_operator (hn : o.isNamed = o'.isNamed)
    (hk : o.keepsReserved = o'.keepsReserved) (h : NoneLong vars vs) :
    renderVariables o vars vs = renderVariables o' vars vs := by
  induction vs with
  | nil => rfl
  | cons v vs ih =>
      obtain ⟨hv, hvs⟩ := List.forall_mem_cons.1 h
      rw [renderVariables, renderVariables, renderVariable_congr_operator hn hk hv, ih hvs]

/-- The second half brings its own opening. Together with the glue this is the separator. -/
theorem assemble_append {glue : Text} (hg : glue ++ o'.opening = [o.separator])
    (hs : o'.separator = o.separator) {ts us : List Text} (ht : ts ≠ [])
    (hu : us ≠ [] ∨ glue = []) :
    assemble o (ts ++ us) = assemble o ts ++ glue ++ assemble o' us := by
  by_cases hnil : us = []
  · obtain rfl := hu.resolve_left (not_not_intro hnil)
    simp [hnil, assemble]
  · calc assemble o (ts ++ us)
      _ = o.opening ++
          (Text.joined o.separator ts ++ [o.separator] ++ Text.joined o.separator us) := by
        rw [assemble_of_ne_nil o (List.append_ne_nil_of_left_ne_nil ht us),
          Text.joined_append _ ht hnil, List.append_assoc, List.singleton_append]
      _ = assemble o ts ++ glue ++ (o'.opening ++ Text.joined o.separator us) := by
        rw [assemble_of_ne_nil o ht, ← hg]
        simp only [List.append_assoc]
      _ = assemble o ts ++ glue ++ assemble o' us := by
        rw [assemble_of_ne_nil o' hnil, hs]

/-- The texts of both halves decide how the expression is put together. The second half may stand
under another operator that writes its variables alike. -/
theorem renderExpression_append {glue : Text}
    (hys : renderVariables o vars ys = renderVariables o' vars ys)
    (h : ∀ ts us, renderVariables o vars xs = .ok ts → renderVariables o vars ys = .ok us →
      assemble o (ts ++ us) = assemble o ts ++ glue ++ assemble o' us) :
    renderExpression ⟨o, xs ++ ys⟩ vars =
      inTurn glue (renderExpression ⟨o, xs⟩ vars) (renderExpression ⟨o', ys⟩ vars) := by
  rw [renderExpression, renderExpression, renderExpression, renderVariables_append, ← hys]
  cases hts : renderVariables o vars xs with
  | error e => rfl
  | ok ts =>
      cases hus : renderVariables o vars ys with
      | error e => rfl
      | ok us => exact congrArg Except.ok (h ts us hts hus)

/-- Where an expression is cut decides what stands between the halves. Under `.`, `/`, `;` and `&`
the halves follow each other. A query goes on with `&`, and begins only with a defined variable. A
list of values goes on behind a comma, and a fragment then goes on without its sign. -/
theorem renderExpression_split (xs ys : List Variable) (vars : Lookup) :
    (∀ o ∈ [Operator.label, .path, .pathParameter, .continuation],
      renderExpression ⟨o, xs ++ ys⟩ vars =
        inTurn [] (renderExpression ⟨o, xs⟩ vars) (renderExpression ⟨o, ys⟩ vars)) ∧
    ((∀ v ∈ xs, vars.isDefined v.name = false) →
      renderExpression ⟨.query, xs ++ ys⟩ vars = renderExpression ⟨.query, ys⟩ vars) ∧
    ((∃ v ∈ xs, vars.isDefined v.name) → NoneLong vars ys →
      renderExpression ⟨.query, xs ++ ys⟩ vars =
        inTurn [] (renderExpression ⟨.query, xs⟩ vars)
          (renderExpression ⟨.continuation, ys⟩ vars)) ∧
    ((∃ v ∈ xs, vars.isDefined v.name) → (∃ v ∈ ys, vars.isDefined v.name) →
      (∀ o ∈ [Operator.simple, .reserved],
        renderExpression ⟨o, xs ++ ys⟩ vars =
          inTurn [.char ','] (renderExpression ⟨o, xs⟩ vars) (renderExpression ⟨o, ys⟩ vars)) ∧
      (NoneLong vars ys →
        renderExpression ⟨.fragment, xs ++ ys⟩ vars =
          inTurn [.char ','] (renderExpression ⟨.fragment, xs⟩ vars)
            (renderExpression ⟨.reserved, ys⟩ vars))) := by
  refine ⟨fun o ho => ?_, fun hxs => ?_, fun hxs hys => ?_, fun hxs hys => ⟨fun o ho => ?_, ?_⟩⟩
  · have hopening : [] ++ o.opening = [o.separator] := by
      revert o
      decide
    apply renderExpression_append rfl
    intro ts us _ _
    cases ts with
    | nil => rfl
    | cons t ts => exact assemble_append hopening rfl (List.cons_ne_nil t ts) (.inr rfl)
  · rw [renderExpression, renderVariables_append, renderVariables_of_undefined hxs,
      Outcome.ok_bind, renderExpression]
    cases renderVariables .query vars ys <;> rfl
  · have hwritten : renderVariables .query vars ys = renderVariables .continuation vars ys :=
      renderVariables_congr_operator rfl rfl hys
    have hopening : [] ++ Operator.continuation.opening = [Operator.query.separator] := rfl
    apply renderExpression_append hwritten
    intro ts us hts _
    exact assemble_append hopening rfl (ne_nil_of_isDefined hxs hts) (.inr rfl)
  · have hopening : [.char ','] ++ o.opening = [o.separator] := by
      revert o
      decide
    apply renderExpression_append rfl
    intro ts us hts hus
    exact assemble_append hopening rfl (ne_nil_of_isDefined hxs hts)
      (.inl (ne_nil_of_isDefined hys hus))
  · intro hlong
    have hwritten : renderVariables .fragment vars ys = renderVariables .reserved vars ys :=
      renderVariables_congr_operator rfl rfl hlong
    have hopening : [.char ','] ++ Operator.reserved.opening = [Operator.fragment.separator] := rfl
    apply renderExpression_append hwritten
    intro ts us hts hus
    exact assemble_append hopening rfl (ne_nil_of_isDefined hxs hts)
      (.inl (ne_nil_of_isDefined hys hus))

/-- The first half holds a long list and the second a list of one item. -/
theorem renderExpression_split_query :
    let vars : Lookup := fun n =>
      if n = [.char 'x'] then some (.list [.string [.char 'a'], .string [.char 'b']])
      else if n = [.char 'z'] then some (.list [.null, .string (Text.of "c/")]) else none
    let xs : List Variable := [⟨[.char 'x'], none, true⟩]
    let ys : List Variable := [⟨[.char 'y'], none, true⟩, ⟨[.char 'z'], none, true⟩]
    NoneLong vars ys ∧
      renderExpression ⟨.query, xs ++ ys⟩ vars =
        inTurn [] (renderExpression ⟨.query, xs⟩ vars)
          (renderExpression ⟨.continuation, ys⟩ vars) ∧
      renderExpression ⟨.query, xs⟩ vars = .ok (Text.of "?x=a?b") ∧
      renderExpression ⟨.continuation, ys⟩ vars = .ok (Text.of "&z=c%2F") := by
  intro vars xs ys
  have hys : NoneLong vars ys := by
    intro v hv _ items hg
    obtain rfl | hv := List.mem_cons.1 hv
    · contradiction
    · obtain rfl := List.mem_singleton.1 hv
      obtain rfl := Value.Gist.items.inj hg
      decide
  exact ⟨hys, (renderExpression_split xs ys vars).2.2.1 ⟨_, List.mem_cons_self, rfl⟩ hys, rfl, rfl⟩

end Expansion

end UriTemplate
