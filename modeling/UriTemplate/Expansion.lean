import UriTemplate.Error
import UriTemplate.Percent
import UriTemplate.Value

namespace UriTemplate

/-- What the variables of a template stand for. A name without a value is undefined, and so is
one whose value is `null`. -/
abbrev Lookup := Text → Option Value

/-- A value's text before an operator writes it. The text of a list is encoded item by item. -/
inductive Resolved where
  | plain (t : Text)
  | encoded (t : Text)
  deriving DecidableEq, Repr

namespace Expansion

def scalarText (s : Scalar) : Except Error Text :=
  match s.text? with
  | some t => .ok t
  | none => .error .tooManyDigits

def itemText (s : Scalar) : Except Error (List Char) := do (← scalarText s).encodable

def itemTexts (name : Text) : List Value → Except Error (List (List Char))
  | [] => .ok []
  | .null :: rest => itemTexts name rest
  | .scalar s :: rest => do
      let t ← itemText s
      let ts ← itemTexts name rest
      return t :: ts
  | item :: _ => .error (.unsupportedValue name item.kind)

def joinItems (o : Operator) (explode : Bool) : List (List Char) → Option Resolved
  | [] => none
  | ts =>
      some (.encoded (Text.joined (if explode then o.itemSeparator else .char ',')
        (ts.map Percent.component)))

def resolveValue (o : Operator) (v : Variable) : Value → Except Error (Option Resolved)
  | .null => .ok none
  | .scalar s => (scalarText s).map fun t => some (.plain (v.cut t))
  | x => match x.items? with
      | some items => (itemTexts v.name items).map (joinItems o v.explode)
      | none => .error (.unsupportedValue v.name x.kind)

def resolve (o : Operator) (v : Variable) (vars : Lookup) : Except Error (Option Resolved) :=
  match vars v.name with
  | some x => resolveValue o v x
  | none => .ok none

def encode (o : Operator) : Resolved → Except Error Text
  | .encoded t => .ok t
  | .plain t => if o.keepsReserved then Percent.encodeReserved t else Percent.encodeComponent t

def label (o : Operator) (v : Variable) (t : Text) : Text :=
  if o.isNamed then v.name ++ .char '=' :: t else t

def write (o : Operator) (v : Variable) (r : Resolved) : Except Error Text :=
  (encode o r).map (label o v)

def renderVariable (o : Operator) (v : Variable) (vars : Lookup) : Except Error (Option Text) := do
  match ← resolve o v vars with
  | some r => (write o v r).map some
  | none => .ok none

def renderVariables (o : Operator) (vars : Lookup) : List Variable → Except Error (List Text)
  | [] => .ok []
  | v :: vs => do
      let t ← renderVariable o v vars
      let ts ← renderVariables o vars vs
      return t.toList ++ ts

def assemble (o : Operator) : List Text → Text
  | [] => []
  | ts => o.opening ++ Text.joined o.separator ts

def renderExpression (e : Expression) (vars : Lookup) : Except Error Text :=
  (renderVariables e.operator vars e.vars).map (assemble e.operator)

def renderPart (vars : Lookup) : Part → Except Error Text
  | .literal t => .ok t
  | .expression e => renderExpression e vars
  | .foreign kind => .error (.foreignPart kind)

def render (vars : Lookup) : List Part → Except Error Text
  | [] => .ok []
  | p :: ps => do
      let t ← renderPart vars p
      let ts ← render vars ps
      return t ++ ts

end Expansion

def parse (template : Text) : Except Error (List Part) :=
  (Part.parse template).mapError (.invalidTemplate template)

def expand (template : Text) (vars : Lookup) : Except Error Text := do
  Expansion.render vars (← parse template)

end UriTemplate
