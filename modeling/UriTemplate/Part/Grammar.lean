import UriTemplate.Part.Parser

namespace UriTemplate

namespace Grammar

inductive NameUnit : Text → Prop where
  | word {c : CodePoint} : Parser.isWordChar c → NameUnit [c]
  | triplet {a b : CodePoint} : Text.isHexDigit a → Text.isHexDigit b → NameUnit [.char '%', a, b]

inductive Name : Text → Prop where
  | unit {u : Text} : NameUnit u → Name u
  | next {u n : Text} : NameUnit u → Name n → Name (u ++ n)
  | dotted {u n : Text} : NameUnit u → Name n → Name (u ++ .char '.' :: n)

structure Length (digits : Text) : Prop where
  nonempty : digits ≠ []
  short : digits.length ≤ 4
  decimal : ∀ c ∈ digits, c.isDigit
  positive : 0 < Text.digitsValue digits

inductive Spec : Text → Variable → Prop where
  | bare {n : Text} : Name n → Spec n ⟨n, none, false⟩
  | exploded {n : Text} : Name n → Spec (n ++ [.char '*']) ⟨n, none, true⟩
  | measured {n ds : Text} : Name n → Length ds →
      Spec (n ++ .char ':' :: ds) ⟨n, some (Text.digitsValue ds), false⟩

inductive Specs : Text → List Variable → Prop where
  | one {t : Text} {v : Variable} : Spec t v → Specs t [v]
  | more {t ts : Text} {v : Variable} {vs : List Variable} : Spec t v → Specs ts vs →
      Specs (t ++ .char ',' :: ts) (v :: vs)

inductive Braced : Text → Expression → Prop where
  | mk {t : Text} {vs : List Variable} (o : Operator) : Specs t vs →
      Braced (.char '{' :: o.text ++ t ++ [.char '}']) ⟨o, vs⟩

/-- A literal is as long as it can be: the end or an expression follows it. -/
inductive Template : Text → List Part → Prop where
  | nil : Template [] []
  | literal {t rest : Text} {ps : List Part} : t ≠ [] → .char '{' ∉ t →
      (rest ≠ [] → rest.head? = some (.char '{')) → Template rest ps →
      Template (t ++ rest) (.literal t :: ps)
  | expression {t rest : Text} {e : Expression} {ps : List Part} : Braced t e →
      Template rest ps → Template (t ++ rest) (.expression e :: ps)

end Grammar

def Variable.IsNormal (v : Variable) : Prop :=
  Grammar.Name v.name ∧ ∀ n ∈ v.maxLength, 1 ≤ n ∧ n ≤ 9999 ∧ v.explode = false

theorem Variable.cut_of_pos {v : Variable} {n : Nat} (hm : v.maxLength = some (n : Int))
    (hn : 1 ≤ n) {α : Type} (t : List α) : v.cut t = t.take n := by
  rw [cut, hm]
  cases n with
  | zero => contradiction
  | succ n => rfl

theorem Variable.cut_eq_take {v : Variable} (hv : v.IsNormal) {α : Type} (t : List α) :
    v.cut t = v.maxLength.elim t fun n => t.take n.toNat := by
  cases hm : v.maxLength with
  | none =>
      rw [cut, hm]
      rfl
  | some n =>
      obtain ⟨hpos, -, -⟩ := hv.2 n hm
      obtain ⟨m, rfl⟩ := Int.eq_ofNat_of_zero_le (by omega : 0 ≤ n)
      exact cut_of_pos hm (by omega) t

def Expression.IsNormal (e : Expression) : Prop := e.vars ≠ [] ∧ ∀ v ∈ e.vars, v.IsNormal

namespace Part

def IsNormal : Part → Prop
  | literal t => t ≠ [] ∧ .char '{' ∉ t
  | expression e => e.IsNormal
  | foreign _ => False

def isLiteral : Part → Bool
  | literal _ => true
  | _ => false

def Separated : List Part → Prop
  | p :: q :: ps => (p.isLiteral → q.isLiteral = false) ∧ Separated (q :: ps)
  | _ => True

def AllNormal (ps : List Part) : Prop := (∀ p ∈ ps, p.IsNormal) ∧ Separated ps

inductive Scan where
  | outside
  | inside
  | atLength

def trimLengths : Scan → Text → Text
  | _, [] => []
  | .outside, c :: s => c :: trimLengths (if c = .char '{' then .inside else .outside) s
  | .inside, c :: s =>
      c :: trimLengths
        (if c = .char '}' then .outside else if c = .char ':' then .atLength else .inside) s
  | .atLength, c :: s =>
      if c = .char '0' then trimLengths .atLength s
      else c :: trimLengths (if c = .char '}' then .outside else .inside) s

/-- The template without its expressions. Blocks run from a brace to the next closing one. -/
def skeleton : (inside : Bool) → Text → Text
  | _, [] => []
  | false, c :: s => if c = .char '{' then skeleton true s else c :: skeleton false s
  | true, c :: s => skeleton (c ≠ .char '}') s

end Part

end UriTemplate
