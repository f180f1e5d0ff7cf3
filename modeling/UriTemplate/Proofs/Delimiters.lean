import UriTemplate.Proofs.Derivation
import UriTemplate.Proofs.Encoding
import UriTemplate.Proofs.Pieces
import UriTemplate.Proofs.Rendering

namespace UriTemplate

inductive Value.Gist.SameShape : Value.Gist → Value.Gist → Prop
  | nothing : SameShape .nothing .nothing
  | scalar (s s' : Scalar) : SameShape (.other (.scalar s)) (.other (.scalar s'))
  | items {xs ys : List Value} : xs.length = ys.length → SameShape (.items xs) (.items ys)

namespace Expansion

variable {o : Operator} {v : Variable} {vars vars' : Lookup} {p : CodePoint → Bool}

theorem filter_component (cs : List Char) :
    (Percent.component cs).filter Percent.isReserved = [] := by
  rw [List.filter_eq_nil_iff]
  intro c hc
  simp [Percent.not_isReserved_of_mem_component hc]

theorem filter_joined_component (c : CodePoint) (ts : List (List Char)) :
    (Text.joined c (ts.map Percent.component)).filter Percent.isReserved =
      ([c].filter Percent.isReserved).intercalate (List.replicate ts.length []) := by
  have hts : (ts.map Percent.component).map (List.filter Percent.isReserved) =
      List.replicate ts.length [] := by
    rw [List.map_map, ← List.map_const']
    exact List.map_congr_left fun t _ => filter_component t
  rw [Text.filter_joined, hts]

theorem filter_label_congr {t u : Text} (h : t.filter p = u.filter p) :
    (label o v t).filter p = (label o v u).filter p := by
  rw [label, label]
  split
  · rw [List.filter_append, List.filter_append, List.filter_cons, List.filter_cons, h]
  · exact h

theorem filter_assemble_congr {ts us : List Text}
    (h : ts.map (List.filter p) = us.map (List.filter p)) :
    (assemble o ts).filter p = (assemble o us).filter p := by
  cases ts with
  | nil =>
      cases us with
      | nil => rfl
      | cons => contradiction
  | cons t ts =>
      cases us with
      | nil => contradiction
      | cons u us =>
          rw [assemble_of_ne_nil o (List.cons_ne_nil t ts),
            assemble_of_ne_nil o (List.cons_ne_nil u us), List.filter_append, List.filter_append,
            Text.filter_joined, Text.filter_joined, h]

/-- One variable with two values of one shape. A single value may not stand where its reserved
characters would stay. -/
theorem filter_renderVariable (hs : (vars.gist v.name).SameShape (vars'.gist v.name))
    (ho : ∀ s, vars.gist v.name = .other (.scalar s) → o.keepsReserved = false)
    {t t' : Option Text} (ht : renderVariable o v vars = .ok t)
    (ht' : renderVariable o v vars' = .ok t') :
    t.map (List.filter Percent.isReserved) = t'.map (List.filter Percent.isReserved) := by
  generalize hg : vars.gist v.name = g at hs ho
  generalize hg' : vars'.gist v.name = g' at hs
  cases hs with
  | nothing =>
      rw [renderVariable_of_nothing hg] at ht
      rw [renderVariable_of_nothing hg'] at ht'
      cases ht
      cases ht'
      rfl
  | scalar s s' =>
      obtain ⟨_, cs, -, -, rfl⟩ := (renderVariable_of_other hg).1 ht
      obtain ⟨_, cs', -, -, rfl⟩ := (renderVariable_of_other hg').1 ht'
      have hk := ho s rfl
      apply congrArg some
      apply filter_label_congr
      simp [spell, hk, filter_component]
  | @items xs ys hlen =>
      obtain ⟨ts, -, hts, rfl⟩ := (renderVariable_of_items hg).1 ht
      obtain ⟨us, -, hus, rfl⟩ := (renderVariable_of_items hg').1 ht'
      have hx : xs.length = ts.length := by simpa using congrArg List.length hts
      have hy : ys.length = us.length := by simpa using congrArg List.length hus
      apply congrArg some
      apply filter_label_congr
      rw [filter_joined_component, filter_joined_component, ← hx, ← hy, hlen]

theorem filter_renderVariables {vs : List Variable}
    (hs : ∀ v ∈ vs, (vars.gist v.name).SameShape (vars'.gist v.name))
    (ho : ∀ v ∈ vs, ∀ s, vars.gist v.name = .other (.scalar s) → o.keepsReserved = false)
    {ts ts' : List Text} (ht : renderVariables o vars vs = .ok ts)
    (ht' : renderVariables o vars' vs = .ok ts') :
    ts.map (List.filter Percent.isReserved) = ts'.map (List.filter Percent.isReserved) := by
  induction vs generalizing ts ts' with
  | nil =>
      cases ht
      cases ht'
      rfl
  | cons v vs ih =>
      obtain ⟨hv, hvs⟩ := List.forall_mem_cons.1 hs
      obtain ⟨hov, hovs⟩ := List.forall_mem_cons.1 ho
      obtain ⟨t, us, hu, hus, rfl⟩ := renderVariables_cons_eq_ok_iff.1 ht
      obtain ⟨t', us', hu', hus', rfl⟩ := renderVariables_cons_eq_ok_iff.1 ht'
      have htt := filter_renderVariable hv hov hu hu'
      rw [List.map_append, List.map_append, ih hvs hovs hus hus', ← Option.toList_map, htt,
        Option.toList_map]

theorem filter_renderPart {q : Part}
    (hs : ∀ n ∈ q.names, (vars.gist n).SameShape (vars'.gist n))
    (ho : ∀ e, q = .expression e → ∀ v ∈ e.vars, ∀ s, vars.gist v.name = .other (.scalar s) →
      e.operator.keepsReserved = false)
    {t t' : Text} (ht : renderPart vars q = .ok t) (ht' : renderPart vars' q = .ok t') :
    t.filter Percent.isReserved = t'.filter Percent.isReserved := by
  cases q with
  | literal u =>
      cases ht
      cases ht'
      rfl
  | foreign => contradiction
  | expression e =>
      obtain ⟨ts, hts, rfl⟩ := Outcome.map_eq_ok_iff.1 ht
      obtain ⟨us, hus, rfl⟩ := Outcome.map_eq_ok_iff.1 ht'
      have hv : ∀ v ∈ e.vars, (vars.gist v.name).SameShape (vars'.gist v.name) :=
        fun v hv => hs v.name (List.mem_map_of_mem hv)
      exact filter_assemble_congr (filter_renderVariables hv (ho e rfl) hts hus)

theorem filter_render {ps : List Part}
    (hs : ∀ q ∈ ps, ∀ n ∈ q.names, (vars.gist n).SameShape (vars'.gist n))
    (ho : ∀ e, .expression e ∈ ps → ∀ v ∈ e.vars, ∀ s, vars.gist v.name = .other (.scalar s) →
      e.operator.keepsReserved = false)
    {t t' : Text} (ht : render vars ps = .ok t) (ht' : render vars' ps = .ok t') :
    t.filter Percent.isReserved = t'.filter Percent.isReserved := by
  induction ps generalizing t t' with
  | nil =>
      cases ht
      cases ht'
      rfl
  | cons q ps ih =>
      obtain ⟨hq, hps⟩ := List.forall_mem_cons.1 hs
      obtain ⟨u, w, hu, hw, rfl⟩ := render_cons_eq_ok_iff.1 ht
      obtain ⟨u', w', hu', hw', rfl⟩ := render_cons_eq_ok_iff.1 ht'
      have hoq : ∀ e, q = .expression e → ∀ v ∈ e.vars, ∀ s,
          vars.gist v.name = .other (.scalar s) → e.operator.keepsReserved = false := by
        rintro e rfl
        exact ho e List.mem_cons_self
      have hops := ih hps (fun e he => ho e (List.mem_cons_of_mem _ he)) hw hw'
      rw [List.filter_append, List.filter_append, filter_renderPart hq hoq hu hu', hops]

end Expansion

/-- Values of the same shapes give the same reserved characters in the same order, whatever stands
in them, as long as single values stand only where their reserved characters are encoded. -/
theorem delimiters_expand {template : Text} {ps : List Part} {vars vars' : Lookup} {t t' : Text}
    (hp : parse template = .ok ps)
    (hs : ∀ n ∈ Part.variableNames ps, (vars.gist n).SameShape (vars'.gist n))
    (ho : ∀ e, .expression e ∈ ps → ∀ v ∈ e.vars, (∃ s, vars v.name = some (.scalar s)) →
      e.operator = .simple ∨ e.operator = .query ∨ e.operator = .continuation)
    (ht : expand template vars = .ok t) (ht' : expand template vars' = .ok t') :
    t.filter Percent.isReserved = t'.filter Percent.isReserved := by
  rw [expand, hp, Outcome.ok_bind] at ht ht'
  refine Expansion.filter_render (fun q hq n hn => ?_) (fun e he v hv s hg => ?_) ht ht'
  · exact hs n (List.mem_eraseDups.2 (List.mem_flatMap.2 ⟨q, hq, hn⟩))
  · obtain h | h | h := ho e he v hv ⟨s, Lookup.of_gist_other hg⟩ <;> rw [h] <;> rfl

theorem delimiters_expand_exploded :
    let vars : Lookup := fun n =>
      if n = [.char 'x'] then some (.string (Text.of "/&"))
      else some (.list [.string (Text.of "a,b"), .null, .string [.char 'c']])
    let vars' : Lookup := fun n =>
      if n = [.char 'x'] then some (.string [])
      else some (.tuple [.string [.char '?'], .string [.char '=']])
    expand (Text.of "{x}{+y*}") vars = .ok (Text.of "%2F%26a%2Cb+c") ∧
    expand (Text.of "{x}{+y*}") vars' = .ok (Text.of "%3F+%3D") ∧
    (Text.of "%2F%26a%2Cb+c").filter Percent.isReserved =
      (Text.of "%3F+%3D").filter Percent.isReserved := by
  intro vars vars'
  have hx : Grammar.Spec [.char 'x'] ⟨[.char 'x'], none, false⟩ := .bare (.unit (.word rfl))
  have hy : Grammar.Spec (Text.of "y*") ⟨[.char 'y'], none, true⟩ := .exploded (.unit (.word rfl))
  have hp : parse (Text.of "{x}{+y*}") = .ok [.expression ⟨.simple, [⟨[.char 'x'], none, false⟩]⟩,
      .expression ⟨.reserved, [⟨[.char 'y'], none, true⟩]⟩] :=
    parse_eq_ok_iff.2 (.expression (.mk .simple (.one hx))
      (.expression (.mk .reserved (.one hy)) .nil))
  have ht : expand (Text.of "{x}{+y*}") vars = .ok (Text.of "%2F%26a%2Cb+c") := by
    rw [expand, hp]
    rfl
  have ht' : expand (Text.of "{x}{+y*}") vars' = .ok (Text.of "%3F+%3D") := by
    rw [expand, hp]
    rfl
  refine ⟨ht, ht', delimiters_expand hp (fun n hn => ?_) (fun e he v hv hs => ?_) ht ht'⟩
  · have hn : n = [.char 'x'] ∨ n = [.char 'y'] := by
      simpa [Part.variableNames, Part.names, Expression.names] using hn
    obtain rfl | rfl := hn
    · exact .scalar _ _
    · exact .items rfl
  · simp only [List.mem_cons, List.not_mem_nil, or_false, Part.expression.injEq] at he
    obtain rfl | rfl := he
    · exact .inl rfl
    · obtain rfl := List.mem_singleton.1 hv
      obtain ⟨s, hs⟩ := hs
      simp [vars] at hs

end UriTemplate
