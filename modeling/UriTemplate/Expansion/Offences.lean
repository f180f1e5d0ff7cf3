import UriTemplate.Expansion

namespace UriTemplate

namespace Value

/-- What of a value can matter to an expansion. Sequences of one kind or another are alike, and
`null` items are as good as absent. -/
inductive Gist where
  | nothing
  | items (xs : List Value)
  | other (x : Value)

def Gist.isNothing : Gist → Bool
  | nothing => true
  | _ => false

def isNull : Value → Bool
  | null => true
  | _ => false

def Gist.ofItems (items : List Value) : Gist :=
  match items.filter fun x => !x.isNull with
  | [] => .nothing
  | xs => .items xs

def gist : Value → Gist
  | null => .nothing
  | x => match x.items? with
      | some items => .ofItems items
      | none => .other x

end Value

namespace Lookup

def gist (vars : Lookup) (name : Text) : Value.Gist := (vars name).elim .nothing Value.gist

def isDefined (vars : Lookup) (name : Text) : Bool := !(vars.gist name).isNothing

end Lookup

namespace Expansion

def textOffences (t : Text) : List Error :=
  if t.characters? = none then [.unencodable t] else []

def scalarOffences (cut : Text → Text) (s : Scalar) : List Error :=
  s.text?.elim [.tooManyDigits] fun t => textOffences (cut t)

def singleOffences (name : Text) (cut : Text → Text) : Value → List Error
  | .null => []
  | .scalar s => scalarOffences cut s
  | x => [.unsupportedValue name x.kind]

def cutOf (v : Variable) (x : Value) : Text → Text := if x.items?.isSome then id else v.cut

def valueOffences (v : Variable) (x : Value) : List Error :=
  (x.items?.getD [x]).flatMap (singleOffences v.name (cutOf v x))

def variableOffences (vars : Lookup) (v : Variable) : List Error :=
  (vars v.name).elim [] (valueOffences v)

def partOffences (vars : Lookup) : Part → List Error
  | .literal _ => []
  | .expression e => e.vars.flatMap (variableOffences vars)
  | .foreign kind => [.foreignPart kind]

/-- All that is wrong with the parts and with the values they mention, in reading order. -/
def offences (vars : Lookup) (parts : List Part) : List Error :=
  parts.flatMap (partOffences vars)

end Expansion

end UriTemplate
