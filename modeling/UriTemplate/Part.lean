import UriTemplate.Operator
import UriTemplate.Value

namespace UriTemplate

/-- One variable of an expression. A modifier is either a length or `explode`; when both are
present the length still cuts a single value. -/
structure Variable where
  name : Text
  maxLength : Option Int
  explode : Bool
  deriving DecidableEq, Repr

namespace Variable

def text (v : Variable) : Text :=
  if v.explode then v.name ++ [.char '*']
  else match v.maxLength with
    | some n => v.name ++ .char ':' :: Text.ofInt n
    | none => v.name

/-- Keeps the first `maxLength` characters. Zero keeps all, and a negative length drops that
many from the end. -/
def cut {α : Type} (v : Variable) (t : List α) : List α :=
  match v.maxLength with
  | none => t
  | some (.ofNat 0) => t
  | some (.ofNat n) => t.take n
  | some (.negSucc n) => t.take (t.length - (n + 1))

end Variable

theorem Variable.cut_ofChars (v : Variable) (cs : List Char) :
    v.cut (Text.ofChars cs) = Text.ofChars (v.cut cs) := by
  rw [cut, cut]
  split <;> simp [Text.ofChars]

structure Expression where
  operator : Operator
  vars : List Variable
  deriving DecidableEq, Repr

namespace Expression

def text (e : Expression) : Text :=
  .char '{' :: e.operator.text ++ Text.joined (.char ',') (e.vars.map Variable.text) ++ [.char '}']

def names (e : Expression) : List Text := e.vars.map Variable.name

end Expression

/-- `foreign` marks an object that is no part of a template, which no expansion accepts. -/
inductive Part where
  | literal (text : Text)
  | expression (e : Expression)
  | foreign (kind : Value.Kind)
  deriving DecidableEq, Repr

namespace Part

def expression? : Part → Option Expression
  | expression e => some e
  | _ => none

theorem expression?_eq_some_iff {p : Part} {e : Expression} :
    p.expression? = some e ↔ p = .expression e := by
  cases p <;> simp [expression?]

def names : Part → List Text
  | expression e => e.names
  | _ => []

def text : Part → Text
  | literal t => t
  | expression e => e.text
  | foreign _ => []

def variableNames (parts : List Part) : List Text := (parts.flatMap names).eraseDups

/-- The template that the parts were read from, up to leading zeros of lengths. -/
def unparse (parts : List Part) : Text := parts.flatMap text

end Part

end UriTemplate
