import UriTemplate.Proofs.Reading.Lookahead
import UriTemplate.Proofs.RoundTrip

namespace UriTemplate

open Grammar

def Part.meld : List Part → List Part → List Part
  | [.literal t], .literal u :: qs => .literal (t ++ u) :: qs
  | [], qs => qs
  | p :: ps, qs => p :: meld ps qs

namespace Part

@[simp] theorem meld_nil (qs : List Part) : meld [] qs = qs := by
  cases qs <;> rfl

@[simp] theorem meld_expression (e : Expression) (ps qs : List Part) :
    meld (.expression e :: ps) qs = .expression e :: meld ps qs := by
  cases qs <;> rfl

@[simp] theorem meld_foreign (k : Value.Kind) (ps qs : List Part) :
    meld (.foreign k :: ps) qs = .foreign k :: meld ps qs := by
  cases qs <;> rfl

@[simp] theorem meld_literal_cons (t : Text) (p : Part) (ps qs : List Part) :
    meld (.literal t :: p :: ps) qs = .literal t :: meld (p :: ps) qs := by
  cases qs <;> rfl

@[simp] theorem meld_literal_literal (t u : Text) (qs : List Part) :
    meld [.literal t] (.literal u :: qs) = .literal (t ++ u) :: qs := rfl

theorem meld_literal (t : Text) {qs : List Part} (h : ∀ q ∈ qs.head?, q.isLiteral = false) :
    meld [.literal t] qs = .literal t :: qs := by
  cases qs with
  | nil => rfl
  | cons q qs =>
      cases q with
      | literal => exact absurd (h _ rfl) nofun
      | expression | foreign => rfl

theorem names_meld (ps qs : List Part) :
    (meld ps qs).flatMap names = ps.flatMap names ++ qs.flatMap names := by
  fun_induction meld ps qs <;> simp_all [names]

theorem eraseDups_filter (p : Text → Bool) (ns : List Text) :
    (ns.filter p).eraseDups = ns.eraseDups.filter p := by
  -- Duplicates are erased in a tail without the copies of its head, which is shorter but not
  -- the tail itself.
  induction hn : ns.length using Nat.strongRecOn generalizing ns with
  | ind n ih =>
      cases ns with
      | nil => rfl
      | cons m ns =>
          have hlt : (ns.filter fun k => !k == m).length < n := by
            have := List.length_filter_le (fun k => !k == m) ns
            simp only [List.length_cons] at hn
            omega
          have hms := ih _ hlt (ns.filter fun k => !k == m) rfl
          rw [List.filter_filter] at hms
          by_cases hm : p m
          · rw [List.filter_cons_of_pos hm, List.eraseDups_cons, List.eraseDups_cons,
              List.filter_cons_of_pos hm, List.filter_filter, ← hms]
            simp [Bool.and_comm]
          · rw [List.filter_cons_of_neg hm, List.eraseDups_cons, List.filter_cons_of_neg hm,
              ← hms]
            apply congrArg
            apply List.filter_congr
            intro k _
            by_cases hk : k = m <;> simp_all

theorem variableNames_meld (ps qs : List Part) :
    variableNames (meld ps qs) =
      variableNames ps ++ (variableNames qs).filter (· ∉ variableNames ps) := by
  rw [variableNames, names_meld, List.eraseDups_append, List.removeAll, eraseDups_filter]
  apply congrArg
  apply List.filter_congr
  intro n _
  rw [List.elem_eq_contains, List.contains_eq_mem, decide_not, variableNames]
  simp only [List.mem_eraseDups]

end Part

namespace Expansion

theorem render_meld (vars : Lookup) (ps qs : List Part) :
    render vars (Part.meld ps qs) = do
      let t ← render vars ps
      let u ← render vars qs
      return t ++ u := by
  fun_induction Part.meld ps qs with
  | case1 t u qs =>
      simp only [render, renderPart, Outcome.ok_bind]
      cases render vars qs <;> simp [pure, Except.pure]
  | case2 qs => simp [render]
  | case3 p ps qs _ ih =>
      simp only [render, ih, bind_assoc]
      cases renderPart vars p with
      | error e => rfl
      | ok t =>
          cases render vars ps with
          | error e => rfl
          | ok u => cases render vars qs <;> simp [pure, Except.pure]

end Expansion

namespace Parser

theorem readParts_literal_append {t : Text} (ht : t ≠ []) (hb : .char '{' ∉ t) (s : Text) :
    readParts (t ++ s) = (readParts s).map (Part.meld [.literal t]) := by
  -- The literal `u` that `s` starts with is empty where `s` starts with an expression.
  have hs := List.takeWhile_append_dropWhile (p := (· ≠ .char '{')) (l := s)
  have hend := literalEnds_dropWhile s
  generalize hu : s.takeWhile (· ≠ .char '{') = u at hs
  generalize s.dropWhile (· ≠ .char '{') = rest at hs hend
  have hub : .char '{' ∉ u := hu ▸ notMem_takeWhile s
  subst hs
  by_cases hne : u = []
  · subst hne
    rw [List.nil_append, readParts_literal ht hb hend]
    cases hr : readParts rest with
    | error f => rfl
    | ok ps =>
        have hp := isLiteral_of_literalEnds hend (readParts_eq_ok_iff.1 hr)
        simp [Part.meld_literal t hp]
  · have htu : .char '{' ∉ t ++ u := by simpa using ⟨hb, hub⟩
    rw [readParts_literal hne hub hend, ← List.append_assoc,
      readParts_literal (by simp [ht]) htu hend]
    cases readParts rest <;> rfl

theorem ne_nil_of_template {s : Text} {p : Part} {ps : List Part} (h : Template s (p :: ps)) :
    s ≠ [] := by
  cases h with
  | literal ht => simp [ht]
  | expression he =>
      cases he
      simp

theorem LiteralEnds.append {s : Text} (h : LiteralEnds s) (hne : s ≠ []) (b : Text) :
    LiteralEnds (s ++ b) := by
  cases s with
  | nil => contradiction
  | cons c s => exact h

/-- What is read does not depend on what was read before it. -/
theorem readParts_append {a : Text} {ps : List Part} (ha : Template a ps) (b : Text) :
    readParts (a ++ b) = (readParts b).map (Part.meld ps) := by
  induction ha with
  | nil => cases h : readParts b <;> simp [h]
  | @literal t rest ps ht hb hr h ih =>
      cases ps with
      | nil =>
          cases h
          simpa using readParts_literal_append ht hb b
      | cons p ps =>
          have hne := ne_nil_of_template h
          rw [List.append_assoc,
            readParts_literal ht hb ((literalEnds_iff.2 hr).append hne b), ih]
          cases readParts b <;> simp
  | @expression t rest e ps he _ ih =>
      cases he with
      | mk o hs =>
          simp only [List.append_assoc, List.cons_append, List.nil_append]
          rw [readParts_brace, ← List.append_assoc, readExpression_append hs]
          simp only [ih]
          cases readParts b <;> simp

end Parser

theorem Part.parse_append {a b : Text} {ps qs : List Part} (ha : Part.parse a = .ok ps)
    (hb : Part.parse b = .ok qs) : Part.parse (a ++ b) = .ok (Part.meld ps qs) := by
  rw [Part.parse_eq_ok_iff, ← Parser.readParts_eq_ok_iff] at hb ⊢
  rw [Parser.readParts_append (Part.parse_eq_ok_iff.1 ha), hb, Outcome.map_ok]

theorem Part.parse_append_error {a b : Text} {ps : List Part} {p : Nat} {r : Reason}
    (ha : Part.parse a = .ok ps) (hb : Part.parse b = .error ⟨p, r⟩) :
    Part.parse (a ++ b) = .error ⟨a.length + p, r⟩ := by
  rw [Part.parse] at hb
  cases hr : Parser.readParts b with
  | ok qs => simp [hr] at hb
  | error g =>
      -- Positions count from the start, and what is unread is an end of `b`.
      have hle := (Parser.unread_readParts hr).length_le
      simp only [hr, Except.error.injEq, ParseError.mk.injEq] at hb
      obtain ⟨rfl, rfl⟩ := hb
      rw [Part.parse, Parser.readParts_append (Part.parse_eq_ok_iff.1 ha), hr, Outcome.map_error]
      simp only [List.length_append, Except.error.injEq, ParseError.mk.injEq, and_true]
      omega

/-- Expanding a template behind one that can be read. If the second cannot be read, then neither
can both together, for the same reason and as much further on; else parts, names and outcomes
are those of the first followed by those of the second. -/
theorem expand_append {a : Text} {ps : List Part} (ha : Part.parse a = .ok ps) (b : Text) :
    match Part.parse b with
    | .error ⟨p, r⟩ => ∀ vars,
        expand (a ++ b) vars = .error (.invalidTemplate (a ++ b) ⟨a.length + p, r⟩)
    | .ok qs =>
        Part.parse (a ++ b) = .ok (Part.meld ps qs) ∧
        Part.variableNames (Part.meld ps qs) = Part.variableNames ps ++
          (Part.variableNames qs).filter (· ∉ Part.variableNames ps) ∧
        ∀ vars, expand (a ++ b) vars = do
          let t ← expand a vars
          let u ← expand b vars
          return t ++ u := by
  split
  next p r hb =>
    intro vars
    rw [expand, parse, Part.parse_append_error ha hb]
    rfl
  next qs hb =>
    have hab := Part.parse_append ha hb
    refine ⟨hab, Part.variableNames_meld ps qs, fun vars => ?_⟩
    rw [expand, parse, hab, expand, parse, ha, expand, parse, hb]
    exact Expansion.render_meld vars ps qs

/-- Literals on both sides of the cut become one, the texts of both templates follow each other, and
a value that cannot be rendered fails them together. -/
theorem expand_append_within_literal :
    let x : Part := .expression ⟨.simple, [⟨[.char 'x'], none, false⟩]⟩
    let vars (v : Value) : Lookup := fun _ => some v
    Part.parse (Text.of "{x}a") = .ok [x, .literal [.char 'a']] ∧
    Part.parse (Text.of "{x}ab") = .ok [x, .literal (Text.of "ab")] ∧
    expand (Text.of "{x}ab") (vars (.string (Text.of "1/2"))) = .ok (Text.of "1%2F2ab") ∧
    expand (Text.of "{x}ab") (vars (.dict [])) =
      .error (.unsupportedValue [.char 'x'] .dict) := by
  intro x vars
  have hx : Spec [.char 'x'] ⟨[.char 'x'], none, false⟩ := .bare (.unit (.word rfl))
  have ha : Part.parse (Text.of "{x}a") = .ok [x, .literal [.char 'a']] :=
    Part.parse_eq_ok_iff.2 (.expression (.mk .simple (.one hx))
      (.literal (t := [.char 'a']) (by decide) (by decide) nofun .nil))
  have hb : Part.parse [.char 'b'] = .ok [.literal [.char 'b']] :=
    Part.parse_eq_ok_iff.2 (.literal (t := [.char 'b']) (by decide) (by decide) nofun .nil)
  have h := expand_append ha [.char 'b']
  rw [hb] at h
  obtain ⟨hab, -, hexpand⟩ := h
  refine ⟨ha, hab, ?_, ?_⟩
  · refine (hexpand _).trans ?_
    rw [expand, parse, ha, expand, parse, hb]
    rfl
  · refine (hexpand _).trans ?_
    rw [expand, parse, ha]
    rfl

end UriTemplate
