import UriTemplate.Proofs.Influence

namespace UriTemplate

namespace Value

inductive Absent : Option Value → Prop
  | missing : Absent none
  | null : Absent (some .null)
  | sequence {x : Value} {items : List Value} : x.items? = some items →
      (∀ y ∈ items, y = .null) → Absent (some x)

/-- The same is given twice, or nothing is. Of sequences this asks for the same items, whatever the
sort of the sequence and wherever it holds `null`. -/
inductive SameGiven : Option Value → Option Value → Prop
  | value (x : Option Value) : SameGiven x x
  | absent {x y : Option Value} : Absent x → Absent y → SameGiven x y
  | sequences {x y : Value} {xs ys : List Value} : x.items? = some xs → y.items? = some ys →
      (xs.filter fun z => !z.isNull) = (ys.filter fun z => !z.isNull) →
      SameGiven (some x) (some y)

theorem gist_of_items? {x : Value} {items : List Value} (h : x.items? = some items) :
    x.gist = .ofItems items := by
  cases x with
  | list | tuple | range =>
      obtain rfl := Option.some.inj h
      rfl
  | _ => contradiction

theorem eq_null_of_isNull {x : Value} (h : x.isNull) : x = .null := by
  cases x with
  | null => rfl
  | _ => contradiction

theorem Gist.ofItems_of_null {items : List Value} (h : ∀ y ∈ items, y = .null) :
    ofItems items = .nothing := by
  have hnil : (items.filter fun z => !z.isNull) = [] := by
    rw [List.filter_eq_nil_iff]
    intro y hy
    simp [h y hy, isNull]
  rw [ofItems, hnil]

theorem Gist.null_of_ofItems {items : List Value} (h : ofItems items = .nothing) :
    ∀ y ∈ items, y = .null := by
  rw [ofItems] at h
  split at h
  next hnil =>
    intro y hy
    apply eq_null_of_isNull
    simpa using List.filter_eq_nil_iff.1 hnil y hy
  next => contradiction

theorem Gist.ofItems_congr {xs ys : List Value}
    (h : (xs.filter fun z => !z.isNull) = ys.filter fun z => !z.isNull) :
    ofItems xs = ofItems ys := by
  rw [ofItems, ofItems, h]

end Value

namespace Lookup

variable {vars other : Lookup} {n : Text}

theorem gist_of_absent (h : Value.Absent (vars n)) : vars.gist n = .nothing := by
  rw [gist]
  generalize vars n = x at h
  cases h with
  | missing | null => rfl
  | sequence hx hnull => exact (Value.gist_of_items? hx).trans (Value.Gist.ofItems_of_null hnull)

theorem absent_of_gist (h : vars.gist n = .nothing) : Value.Absent (vars n) := by
  rw [gist] at h
  cases hx : vars n with
  | none => exact .missing
  | some x =>
      rw [hx] at h
      cases x with
      | null => exact .null
      | list | tuple | range => exact .sequence rfl (Value.Gist.null_of_ofItems h)
      | _ => contradiction

theorem isDefined_eq_false_iff_absent : vars.isDefined n = false ↔ Value.Absent (vars n) := by
  rw [isDefined_eq_false_iff]
  exact ⟨absent_of_gist, gist_of_absent⟩

theorem gist_of_sameGiven (h : Value.SameGiven (vars n) (other n)) :
    vars.gist n = other.gist n := by
  generalize hx : vars n = x at h
  generalize hy : other n = y at h
  cases h with
  | value => rw [gist, gist, hx, hy]
  | absent hax hay => rw [gist_of_absent (hx ▸ hax), gist_of_absent (hy ▸ hay)]
  | sequences hxs hys hitems =>
      rw [gist, gist, hx, hy, Option.elim_some, Option.elim_some, Value.gist_of_items? hxs,
        Value.gist_of_items? hys, Value.Gist.ofItems_congr hitems]

end Lookup

namespace Expansion

theorem renderVariables_filter {o : Operator} {vars : Lookup} {keep : Variable → Bool}
    {vs : List Variable} (h : ∀ v ∈ vs, keep v = false → Value.Absent (vars v.name)) :
    renderVariables o vars (vs.filter keep) = renderVariables o vars vs := by
  induction vs with
  | nil => rfl
  | cons v vs ih =>
      obtain ⟨hv, hvs⟩ := List.forall_mem_cons.1 h
      by_cases hk : keep v
      · rw [List.filter_cons_of_pos hk, renderVariables, renderVariables, ih hvs]
      · have hnothing := Lookup.gist_of_absent (hv (Bool.eq_false_iff.2 hk))
        rw [List.filter_cons_of_neg hk, ih hvs, renderVariables, renderVariable_of_nothing hnothing]
        cases renderVariables o vars vs <;> rfl

end Expansion

/-- A template is expanded alike, or fails alike, for values that give the same. Variables without a
value can be left out of an expression. -/
theorem expand_eq_of_sameGiven :
    (∀ (template : Text) (ps : List Part) (vars other : Lookup), parse template = .ok ps →
      (∀ n ∈ Part.variableNames ps, Value.SameGiven (vars n) (other n)) →
      expand template vars = expand template other) ∧
    ∀ (e : Expression) (vars : Lookup) (keep : Variable → Bool),
      (∀ v ∈ e.vars, keep v = false → Value.Absent (vars v.name)) →
      Expansion.renderExpression ⟨e.operator, e.vars.filter keep⟩ vars =
        Expansion.renderExpression e vars := by
  constructor
  · intro template ps vars other hp h
    rw [expand_of_parse hp, expand_of_parse hp]
    apply Expansion.render_congr_gist
    intro n hn
    exact Lookup.gist_of_sameGiven (h n hn)
  · intro e vars keep h
    rw [Expansion.renderExpression, Expansion.renderVariables_filter h]
    rfl

/-- Items in a list and in a tuple, with `null` at other places, and two ways of no value. -/
theorem expand_eq_of_sameGiven_tuple :
    let vars : Lookup := fun n =>
      if n = [.char 'y'] then some (.list [.string [.char 'a'], .null, .string [.char 'b']])
      else none
    let other : Lookup := fun n =>
      if n = [.char 'y'] then some (.tuple [.null, .string [.char 'a'], .string [.char 'b'], .null])
      else some (.list [.null])
    let e : Expression := ⟨.query, [⟨[.char 'x'], some 2, false⟩, ⟨[.char 'y'], none, false⟩]⟩
    parse (Text.of "{?x:2,y}") = .ok [.expression e] ∧
    expand (Text.of "{?x:2,y}") vars = expand (Text.of "{?x:2,y}") other ∧
    Expansion.renderExpression ⟨.query, [⟨[.char 'y'], none, false⟩]⟩ other =
      Expansion.renderExpression e other := by
  intro vars other e
  have hp : parse (Text.of "{?x:2,y}") = .ok [.expression e] := by decide +kernel
  refine ⟨hp, ?_, ?_⟩
  · apply expand_eq_of_sameGiven.1 _ _ vars other hp
    intro n _
    by_cases hn : n = [.char 'y']
    · simp only [vars, other, if_pos hn]
      exact .sequences rfl rfl rfl
    · simp only [vars, other, if_neg hn]
      exact .absent .missing (.sequence rfl fun y hy => List.mem_singleton.1 hy)
  · apply expand_eq_of_sameGiven.2 e other fun v => v.name = [.char 'y']
    intro v hv hk
    have hn : v.name ≠ [.char 'y'] := of_decide_eq_false hk
    simp only [other, if_neg hn]
    exact .sequence rfl fun y hy => List.mem_singleton.1 hy

end UriTemplate
