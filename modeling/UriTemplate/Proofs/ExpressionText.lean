import UriTemplate.Proofs.Skeleton
import UriTemplate.Proofs.UriText

namespace UriTemplate

open Percent

theorem Operator.opening_of_symbol {o : Operator} {c : CodePoint} (hc : o.symbol? = some c)
    (hplus : c ≠ .char '+') : o.opening = [c] := by
  cases o with
  | simple => contradiction
  | reserved => exact absurd (Option.some.inj hc).symm hplus
  | _ =>
      obtain rfl := Option.some.inj hc
      rfl

namespace Expansion

variable {o : Operator} {vars : Lookup}

theorem renderVariables_eq_nil_iff {vs : List Variable} {ts : List Text}
    (ht : renderVariables o vars vs = .ok ts) :
    ts = [] ↔ ∀ v ∈ vs, Value.Absent (vars v.name) := by
  constructor
  · intro hnil v hv
    rw [← Lookup.isDefined_eq_false_iff_absent, ← Bool.not_eq_true]
    intro hd
    exact ne_nil_of_isDefined ⟨v, hv, hd⟩ ht hnil
  · intro h
    rw [renderVariables_of_absent h] at ht
    exact (Except.ok.inj ht).symm

theorem head?_assemble {c : CodePoint} (hc : o.symbol? = some c) (hplus : c ≠ .char '+')
    {ts : List Text}
    (hne : ts ≠ []) : (assemble o ts).head? = some c := by
  rw [assemble_of_ne_nil o hne, Operator.opening_of_symbol hc hplus]
  rfl

theorem assemble_eq_nil_iff {c : CodePoint} (hc : o.symbol? = some c) (hplus : c ≠ .char '+')
    {ts : List Text} : assemble o ts = [] ↔ ts = [] := by
  constructor
  · intro hnil
    by_contra hne
    have hhead := head?_assemble hc hplus hne
    rw [hnil] at hhead
    contradiction
  · rintro rfl
    rfl

end Expansion

/-- An expression of a template is expanded to unreserved characters, reserved ones and percent
signs, each in front of two digits. With an operator other than `+` the text is empty just when
no variable has a value, and else it begins with the operator's character. -/
theorem renderExpression_uriText {template : Text} {ps : List Part} {e : Expression}
    {vars : Lookup} {t : Text} (hp : parse template = .ok ps) (he : .expression e ∈ ps)
    (ht : Expansion.renderExpression e vars = .ok t) :
    (∀ c ∈ t, isUnreserved c ∨ isReserved c ∨ c = .char '%') ∧
    (∀ u r, t = u ++ .char '%' :: r →
      ∃ a b w, r = a :: b :: w ∧ Text.isHexDigit a ∧ Text.isHexDigit b) ∧
    ∀ c, e.operator.symbol? = some c → c ≠ .char '+' →
      (t = [] ↔ ∀ v ∈ e.vars, Value.Absent (vars v.name)) ∧ (t ≠ [] → t.head? = some c) := by
  have hn : e.IsNormal := (allNormal_of_template (parse_eq_ok_iff.1 hp)).1 _ he
  have huri := Expansion.uriText_renderExpression hn ht
  obtain ⟨hmem, hpercent⟩ := UriText.iff_hexDigits.1 huri
  refine ⟨hmem, hpercent, fun c hc hplus => ?_⟩
  obtain ⟨ts, hts, rfl⟩ := Outcome.map_eq_ok_iff.1 ht
  rw [← Expansion.renderVariables_eq_nil_iff hts, ne_eq,
    Expansion.assemble_eq_nil_iff hc hplus]
  exact ⟨Iff.rfl, Expansion.head?_assemble hc hplus⟩

/-- A name that has a triplet of its own, and an undefined variable beside the defined ones. -/
theorem renderExpression_uriText_triplets :
    let vars : Lookup := fun n =>
      if n = Text.of "a%2f" then some (.string (Text.of "é/"))
      else if n = [.char 'b'] then some (.list [.string (Text.of "%"), .string []]) else none
    let e : Expression :=
      ⟨.pathParameter, [⟨Text.of "a%2f", none, false⟩, ⟨[.char 'c'], some 1, false⟩,
        ⟨[.char 'b'], none, true⟩]⟩
    let t : Text := Text.of ";a%2f=%C3%A9/;b=%25;"
    parse (Text.of "{;a%2f,c:1,b*}") = .ok [.expression e] ∧
    Expansion.renderExpression e vars = .ok t ∧
    (∀ c ∈ t, isUnreserved c ∨ isReserved c ∨ c = .char '%') ∧
    (∀ u r, t = u ++ .char '%' :: r →
      ∃ a b w, r = a :: b :: w ∧ Text.isHexDigit a ∧ Text.isHexDigit b) ∧
    t.head? = some (.char ';') := by
  intro vars e t
  have hp : parse (Text.of "{;a%2f,c:1,b*}") = .ok [.expression e] := by decide +kernel
  have ht : Expansion.renderExpression e vars = .ok t := rfl
  obtain ⟨hchars, hpercent, hhead⟩ := renderExpression_uriText hp List.mem_cons_self ht
  refine ⟨hp, ht, hchars, hpercent, (hhead (.char ';') rfl ?_).2 ?_⟩
  · decide
  · decide

end UriTemplate
