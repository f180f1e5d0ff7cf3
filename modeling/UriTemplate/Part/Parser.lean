import UriTemplate.Part

namespace UriTemplate

inductive Reason where
  | unterminated
  | unexpected (c : CodePoint)
  | missingName
  | trailingDot
  | malformedPercent
  | secondModifier (name : Text)
  | missingLength
  | lengthTooLong
  | lengthNotPositive
  deriving DecidableEq, Repr

namespace Parser

structure Fault where
  reason : Reason
  unread : Text
  deriving DecidableEq, Repr

abbrev Reader (α : Type) := Text → Except Fault (α × Text)

def isWordChar (c : CodePoint) : Bool := c.isAlphanum || c = .char '_'

def extend (front : Text) : Except Fault (Text × Text) → Except Fault (Text × Text)
  | .ok (name, rest) => .ok (front ++ name, rest)
  | .error f => .error f

theorem extend_eq_ok_iff {front name rest : Text} {r : Except Fault (Text × Text)} :
    extend front r = .ok (name, rest) ↔ ∃ n, name = front ++ n ∧ r = .ok (n, rest) := by
  rcases r with f | ⟨n, s⟩
  · simp [extend]
  · simp only [extend, Except.ok.injEq, Prod.mk.injEq]
    constructor
    · rintro ⟨rfl, rfl⟩
      exact ⟨n, rfl, rfl, rfl⟩
    · rintro ⟨m, rfl, rfl, rfl⟩
      exact ⟨rfl, rfl⟩

/-- Reads a name to its end. `owed` is the reason to refuse if no unit of the name follows: at
the start and after a dot there has to be one. -/
def readName (owed : Option Reason) : Reader Text
  | [] => match owed with
      | some reason => .error ⟨reason, []⟩
      | none => .ok ([], [])
  | .char '%' :: hi :: lo :: rest =>
      if Text.isHexDigit hi && Text.isHexDigit lo then
        extend [.char '%', hi, lo] (readName none rest)
      else .error ⟨.malformedPercent, .char '%' :: hi :: lo :: rest⟩
  | c :: rest =>
      if c = .char '%' then .error ⟨.malformedPercent, c :: rest⟩
      else if isWordChar c then extend [c] (readName none rest)
      else match owed with
        | some reason => .error ⟨reason, c :: rest⟩
        | none =>
            if c = .char '.' then extend [c] (readName (some .trailingDot) rest)
            else .ok ([], c :: rest)

def readLength : Reader Int := fun s =>
  let digits := s.takeWhile CodePoint.isDigit
  let rest := s.dropWhile CodePoint.isDigit
  if digits = [] then .error ⟨.missingLength, rest⟩
  else if 4 < digits.length then .error ⟨.lengthTooLong, rest⟩
  else if Text.digitsValue digits = 0 then .error ⟨.lengthNotPositive, rest⟩
  else .ok (Text.digitsValue digits, rest)

def closeModifier (v : Variable) : Reader Variable
  | c :: rest =>
      if c = .char '*' ∨ c = .char ':' then .error ⟨.secondModifier v.name, c :: rest⟩
      else .ok (v, c :: rest)
  | [] => .ok (v, [])

def readModifier (name : Text) : Reader Variable
  | .char '*' :: rest => closeModifier ⟨name, none, true⟩ rest
  | .char ':' :: rest => match readLength rest with
      | .ok (n, rest) => closeModifier ⟨name, some n, false⟩ rest
      | .error f => .error f
  | s => .ok (⟨name, none, false⟩, s)

def readVariable : Reader Variable := fun s =>
  match readName (some .missingName) s with
  | .ok (name, rest) => readModifier name rest
  | .error f => .error f

/-- A name is cut off the front, and where one is owed it is not empty. -/
theorem eq_append_of_readName {owed : Option Reason} {s name rest : Text}
    (h : readName owed s = .ok (name, rest)) :
    s = name ++ rest ∧ (owed ≠ none → name ≠ []) := by
  fun_induction readName owed s generalizing name rest with
  | case2 | case9 =>
      cases h
      exact ⟨rfl, fun hn => absurd rfl hn⟩
  | case3 _ _ _ _ _ ih | case6 _ _ _ _ _ _ ih | case8 _ _ _ _ ih =>
      obtain ⟨n, rfl, hn⟩ := extend_eq_ok_iff.1 h
      obtain ⟨rfl, -⟩ := ih hn
      exact ⟨rfl, fun _ => List.cons_ne_nil _ _⟩
  | _ => contradiction

theorem eq_of_closeModifier {v w : Variable} {s rest : Text}
    (h : closeModifier v s = .ok (w, rest)) : v = w ∧ s = rest := by
  cases s with
  | nil =>
      cases h
      exact ⟨rfl, rfl⟩
  | cons c s =>
      rw [closeModifier] at h
      split at h
      · contradiction
      · cases h
        exact ⟨rfl, rfl⟩

theorem suffix_of_readModifier {name s rest : Text} {v : Variable}
    (h : readModifier name s = .ok (v, rest)) : rest <:+ s := by
  fun_cases readModifier name s with
  | case1 s =>
      simp only [readModifier] at h
      exact (eq_of_closeModifier h).2 ▸ List.suffix_cons ..
  | case2 s n r hr =>
      simp only [readModifier, hr] at h
      obtain rfl : r = rest := (eq_of_closeModifier h).2
      simp only [readLength] at hr
      split at hr <;> try contradiction
      split at hr <;> try contradiction
      split at hr <;> try contradiction
      simp only [Except.ok.injEq, Prod.mk.injEq] at hr
      exact (hr.2 ▸ List.dropWhile_suffix _).trans (List.suffix_cons ..)
  | case3 s f hf => simp [readModifier, hf] at h
  | case4 h1 h2 => simp_all [readModifier]

theorem length_readVariable {s rest : Text} {v : Variable}
    (h : readVariable s = .ok (v, rest)) : rest.length < s.length := by
  simp only [readVariable] at h
  split at h
  · next name r hn =>
      have ⟨hs, hne⟩ := eq_append_of_readName hn
      have := (suffix_of_readModifier h).length_le
      have := List.length_pos_iff.2 (hne (by simp))
      simp [hs]
      omega
  · contradiction

def readVariables (s : Text) : Except Fault (List Variable × Text) :=
  match h : readVariable s with
  | .error f => .error f
  | .ok (v, .char ',' :: rest) =>
      have := length_readVariable h
      match readVariables rest with
      | .ok (vs, rest) => .ok (v :: vs, rest)
      | .error f => .error f
  | .ok (v, .char '}' :: rest) => .ok ([v], rest)
  | .ok (_, []) => .error ⟨.unterminated, []⟩
  | .ok (_, c :: rest) => .error ⟨.unexpected c, c :: rest⟩
termination_by s.length
decreasing_by simp at this; omega

def readOperator : Text → Operator × Text
  | [] => (.simple, [])
  | c :: rest => match Operator.ofSymbol? c with
      | some o => (o, rest)
      | none => (.simple, c :: rest)

def readExpression (s : Text) : Except Fault (Expression × Text) :=
  if s = [] then .error ⟨.unterminated, []⟩
  else match readVariables (readOperator s).2 with
    | .ok (vs, rest) => .ok (⟨(readOperator s).1, vs⟩, rest)
    | .error f => .error f

theorem suffix_readOperator (s : Text) : (readOperator s).2 <:+ s := by
  unfold readOperator
  split
  · simp
  · split <;> simp

theorem length_readVariables {s rest : Text} {vs : List Variable}
    (h : readVariables s = .ok (vs, rest)) : rest.length < s.length := by
  fun_induction readVariables s generalizing vs rest <;> simp only [Except.ok.injEq,
    Prod.mk.injEq, reduceCtorEq] at h
  case case2 hv _ _ _ hvs ih =>
      have := length_readVariable hv
      have := ih hvs
      simp_all
      omega
  case case4 hv =>
      have := length_readVariable hv
      simp_all
      omega

theorem length_readExpression {s rest : Text} {e : Expression}
    (h : readExpression s = .ok (e, rest)) : rest.length < s.length := by
  unfold readExpression at h
  split at h
  · contradiction
  · split at h
    · next hvs =>
        simp only [Except.ok.injEq, Prod.mk.injEq] at h
        exact h.2 ▸ Nat.lt_of_lt_of_le (length_readVariables hvs) (suffix_readOperator s).length_le
    · contradiction

def readParts (s : Text) : Except Fault (List Part) :=
  match s with
  | [] => .ok []
  | .char '{' :: rest =>
      match h : readExpression rest with
      | .error f => .error f
      | .ok (e, rest) =>
          have := length_readExpression h
          (readParts rest).map (.expression e :: ·)
  | c :: rest =>
      (readParts (rest.dropWhile (· ≠ .char '{'))).map
        (.literal (c :: rest.takeWhile (· ≠ .char '{')) :: ·)
termination_by s.length
decreasing_by
  · simp
    omega
  · exact Nat.lt_succ_of_le (List.dropWhile_suffix _).length_le

end Parser

structure ParseError where
  position : Nat
  reason : Reason
  deriving DecidableEq, Repr

def Part.parse (s : Text) : Except ParseError (List Part) :=
  match Parser.readParts s with
  | .ok parts => .ok parts
  | .error f => .error ⟨s.length - f.unread.length, f.reason⟩

end UriTemplate
