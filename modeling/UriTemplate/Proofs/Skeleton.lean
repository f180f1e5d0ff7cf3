import UriTemplate.Proofs.Absence
import UriTemplate.Proofs.Reading.Lookahead
import UriTemplate.Proofs.Splitting
import UriTemplate.Proofs.UriText

namespace UriTemplate

namespace Part

def literalText : Part → Text
  | literal t => t
  | expression _ | foreign _ => []

theorem skeleton_outside {t : Text} (h : .char '{' ∉ t) (rest : Text) :
    skeleton false (t ++ rest) = t ++ skeleton false rest := by
  induction t with
  | nil => rfl
  | cons c t ih =>
      rw [List.mem_cons, not_or] at h
      rw [List.cons_append, skeleton, if_neg (Ne.symm h.1), ih h.2, List.cons_append]

theorem skeleton_inside {t : Text} (h : .char '}' ∉ t) (rest : Text) :
    skeleton true (t ++ .char '}' :: rest) = skeleton false rest := by
  induction t with
  | nil => rfl
  | cons c t ih =>
      rw [List.mem_cons, not_or] at h
      rw [List.cons_append, skeleton, decide_eq_true (Ne.symm h.1), ih h.2]

theorem notMem_specs {t : Text} {vs : List Variable} (h : Grammar.Specs t vs) : .char '}' ∉ t := by
  have hspec {u : Text} {v : Variable} (hv : Grammar.Spec u v) : .char '}' ∉ u :=
    Parser.notMem_spec hv rfl (by decide)
  induction h with
  | one hv => exact hspec hv
  | more hv _ ih => simpa using ⟨hspec hv, ih⟩

/-- The first closing brace of an expression is its last character. -/
theorem skeleton_braced {t : Text} {e : Expression} (h : Grammar.Braced t e) (rest : Text) :
    skeleton false (t ++ rest) = skeleton false rest := by
  cases h with
  | @mk u vs o hs =>
      have hbody : .char '}' ∉ o.text ++ u := by
        rw [List.mem_append, not_or]
        refine ⟨?_, notMem_specs hs⟩
        cases o <;> decide
      have h := skeleton_inside hbody rest
      simpa [skeleton] using h

theorem skeleton_template {s : Text} {ps : List Part} (h : Grammar.Template s ps) :
    skeleton false s = ps.flatMap literalText := by
  induction h with
  | nil => rfl
  | literal _ hb _ _ ih =>
      rw [skeleton_outside hb, ih]
      rfl
  | expression he _ ih =>
      rw [skeleton_braced he, ih]
      rfl

end Part

namespace Expansion

variable {vars : Lookup}

theorem renderVariables_of_absent {o : Operator} {vs : List Variable}
    (h : ∀ v ∈ vs, Value.Absent (vars v.name)) : renderVariables o vars vs = .ok [] := by
  apply renderVariables_of_undefined
  intro v hv
  exact Lookup.isDefined_eq_false_iff_absent.2 (h v hv)

theorem renderExpression_of_absent {e : Expression}
    (h : ∀ v ∈ e.vars, Value.Absent (vars v.name)) : renderExpression e vars = .ok [] := by
  rw [renderExpression, renderVariables_of_absent h]
  rfl

/-- Without values each expression is expanded to nothing. -/
theorem render_of_absent {ps : List Part} (hn : ∀ p ∈ ps, p.IsNormal)
    (h : ∀ n ∈ Part.variableNames ps, Value.Absent (vars n)) :
    render vars ps = .ok (ps.flatMap Part.literalText) := by
  simp only [Part.mem_variableNames] at h
  induction ps with
  | nil => rfl
  | cons p ps ih =>
      obtain ⟨hp, hps⟩ := List.forall_mem_cons.1 hn
      have hrest := ih hps fun n ⟨e, he, hv⟩ => h n ⟨e, List.mem_cons_of_mem _ he, hv⟩
      cases p with
      | literal t =>
          rw [render, hrest]
          rfl
      | expression e =>
          have he : ∀ v ∈ e.vars, Value.Absent (vars v.name) :=
            fun v hv => h v.name ⟨e, List.mem_cons_self, v, hv, rfl⟩
          rw [render, renderPart, renderExpression_of_absent he, hrest]
          rfl
      | foreign => exact hp.elim

end Expansion

theorem expand_of_absent {template : Text} {ps : List Part} {vars : Lookup}
    (hp : parse template = .ok ps) (h : ∀ n ∈ Part.variableNames ps, Value.Absent (vars n)) :
    expand template vars = .ok (Part.skeleton false template) := by
  have ht := parse_eq_ok_iff.1 hp
  rw [expand_of_parse hp, Part.skeleton_template ht]
  exact Expansion.render_of_absent (allNormal_of_template ht).1 h

theorem expand_of_notMem_brace {s : Text} (h : .char '{' ∉ s) (vars : Lookup) :
    expand s vars = .ok s := by
  have hnames : ∀ n ∈ Part.variableNames (if s = [] then [] else [.literal s]),
      Value.Absent (vars n) := by
    intro n hn
    obtain ⟨e, he, -⟩ := Part.mem_variableNames.1 hn
    by_cases hs : s = [] <;> simp [hs] at he
  have hs := Part.skeleton_outside h []
  rw [expand_of_absent (parse_of_notMem_brace h) hnames]
  simpa [Part.skeleton] using hs

/-- Where none of its variables has a value, a template is expanded to what a scan leaves of it that
deletes from each opening brace to the next closing one. That is the text of its literals. A text
without an opening brace is expanded to itself, whatever the values. -/
theorem expand_eq_skeleton :
    (∀ (template : Text) (ps : List Part) (vars : Lookup), parse template = .ok ps →
      (∀ n ∈ Part.variableNames ps, Value.Absent (vars n)) →
      expand template vars = .ok (Part.skeleton false template) ∧
        Part.skeleton false template = ps.flatMap Part.literalText) ∧
    ∀ template : Text, .char '{' ∉ template → ∀ vars, expand template vars = .ok template := by
  refine ⟨fun template ps vars hp h => ⟨expand_of_absent hp h, ?_⟩, ?_⟩
  · exact Part.skeleton_template (parse_eq_ok_iff.1 hp)
  · intro template hb vars
    exact expand_of_notMem_brace hb vars

/-- Three ways of no value, and a closing brace that closes nothing. -/
theorem expand_eq_skeleton_braces :
    let vars : Lookup := fun n =>
      if n = [.char 'x'] then some (.list [.null, .null])
      else if n = [.char 'y'] then some .null
      else none
    let ps : List Part :=
      [.expression ⟨.query, [⟨[.char 'x'], none, true⟩, ⟨[.char 'y'], some 3, false⟩]⟩,
      .literal (Text.of "a\x7db"), .expression ⟨.label, [⟨[.char 'z'], none, false⟩]⟩]
    parse (Text.of "{?x*,y:3}a\x7db{.z}") = .ok ps ∧
    expand (Text.of "{?x*,y:3}a\x7db{.z}") vars = .ok (Text.of "a\x7db") ∧
    ps.flatMap Part.literalText = Text.of "a\x7db" ∧
    expand (Text.of "a\x7db") vars = .ok (Text.of "a\x7db") := by
  intro vars ps
  have hp : parse (Text.of "{?x*,y:3}a\x7db{.z}") = .ok ps := by decide +kernel
  have habsent : ∀ n ∈ Part.variableNames ps, Value.Absent (vars n) := by
    intro n _
    by_cases hx : n = [.char 'x']
    · simp only [vars, if_pos hx]
      exact .sequence rfl (by simp)
    · by_cases hy : n = [.char 'y']
      · simp only [vars, if_neg hx, if_pos hy]
        exact .null
      · simp only [vars, if_neg hx, if_neg hy]
        exact .missing
  obtain ⟨hexpand, hliterals⟩ := expand_eq_skeleton.1 _ _ vars hp habsent
  have hplain : CodePoint.char '{' ∉ Text.of "a\x7db" := by decide
  exact ⟨hp, hexpand, hliterals.symm, expand_eq_skeleton.2 _ hplain vars⟩

end UriTemplate
