import UriTemplate.Expansion

namespace UriTemplate.Reference

structure Column where
  first : Text
  separator : CodePoint
  named : Bool
  ifEmpty : Text
  keepsReserved : Bool

/-- The table of RFC 6570, appendix A, by which the algorithm of its section 3.2.1 goes. -/
def column : Operator → Column
  | .simple => ⟨[], .char ',', false, [], false⟩
  | .reserved => ⟨[], .char ',', false, [], true⟩
  | .fragment => ⟨[.char '#'], .char ',', false, [], true⟩
  | .label => ⟨[.char '.'], .char '.', false, [], false⟩
  | .path => ⟨[.char '/'], .char '/', false, [], false⟩
  | .pathParameter => ⟨[.char ';'], .char ';', true, [], false⟩
  | .query => ⟨[.char '?'], .char '&', true, [.char '='], false⟩
  | .continuation => ⟨[.char '&'], .char '&', true, [.char '='], false⟩

def encodeAround : List Char → Text
  | '%' :: a :: b :: rest =>
      if Text.isHexDigit (.char a) && Text.isHexDigit (.char b) then
        .char '%' :: .char a :: .char b :: encodeAround rest
      else Percent.withReserved ['%'] ++ encodeAround (a :: b :: rest)
  | c :: rest => Percent.withReserved [c] ++ encodeAround rest
  | [] => []

def Column.encode (k : Column) (t : Text) : Text :=
  if k.keepsReserved then encodeAround t.characters else Percent.component t.characters

inductive Content where
  | string (t : Text)
  | list (ts : List Text)
  deriving DecidableEq, Repr

def string? : Value → Option Text
  | .scalar (.string t) => some t
  | _ => none

def strings (items : List Value) : List Text := items.filterMap string?

def content? : Value → Option Content
  | .list items => if strings items = [] then none else some (.list (strings items))
  | x => (string? x).map .string

def Column.labelled (k : Column) (name t : Text) : Text :=
  if k.named then name ++ (if t = [] then k.ifEmpty else .char '=' :: t) else t

def Column.expand (k : Column) (v : Variable) : Content → Text
  | .string t => k.labelled v.name (k.encode (v.cut t))
  | .list ts =>
      if v.explode then
        Text.joined k.separator (ts.map fun t => k.labelled v.name (k.encode t))
      else k.labelled v.name (Text.joined (.char ',') (ts.map k.encode))

def expandExpression (e : Expression) (vars : Lookup) : Text :=
  let k := column e.operator
  match e.vars.filterMap fun v => ((vars v.name).bind content?).map (k.expand v) with
  | [] => []
  | ts => k.first ++ Text.joined k.separator ts

def expandPart (vars : Lookup) : Part → Text
  | .literal t => t
  | .expression e => expandExpression e vars
  | .foreign _ => []

def expand (parts : List Part) (vars : Lookup) : Text := parts.flatMap (expandPart vars)

end UriTemplate.Reference
