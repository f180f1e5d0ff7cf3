import UriTemplate.Command.Outcome
import UriTemplate.Expansion

namespace UriTemplate.Command.Inspect

structure Row where
  index : Nat
  kind : Text
  operator : Text
  content : Text
  deriving DecidableEq, Repr

namespace Row

def ofPart? (index : Nat) : Part → Option Row
  | .literal t => some ⟨index, Text.of "literal", [], Text.quoted t⟩
  | .expression e =>
      some ⟨index, Text.of "expression", e.operator.text,
        Text.listed (e.vars.map Variable.text)⟩
  | .foreign _ => none

def cells (r : Row) : List Text := [Text.ofNat r.index, r.kind, r.operator, r.content]

end Row

def rowsFrom (index : Nat) : List Part → List Row
  | [] => []
  | p :: ps => (Row.ofPart? index p).toList ++ rowsFrom (index + 1) ps

def rows (parts : List Part) : List Row := rowsFrom 0 parts

def header : List Text := ["#", "Kind", "Operator", "Content"].map Text.of

def namesLine (parts : List Part) : Text :=
  let names := Part.variableNames parts
  Text.of "Variables: " ++
    if names = [] then Text.of "(none)" else Text.listed names

def listing (w : World) (parts : List Part) : Text :=
  w.draw ⟨header, (rows parts).map Row.cells⟩ (namesLine parts)

def run (w : World) (template : Text) : Outcome :=
  match parse template with
  | .ok parts => w.print (listing w parts)
  | .error e => .ofError e

end UriTemplate.Command.Inspect
