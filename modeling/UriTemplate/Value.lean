import UriTemplate.Calendar
import UriTemplate.Decimal
import UriTemplate.Decimal.Binary64

namespace UriTemplate

inductive Value.Kind where
  | null
  | string
  | integer
  | boolean
  | float
  | date
  | dateTime
  | time
  | list
  | tuple
  | range
  | set
  | dict
  | bytes
  | byteArray
  | decimal
  | complex
  | object
  deriving DecidableEq, Repr

def Value.Kind.label : Value.Kind → String
  | null => "NoneType"
  | string => "str"
  | integer => "int"
  | boolean => "bool"
  | float => "float"
  | date => "date"
  | dateTime => "datetime"
  | time => "time"
  | list => "list"
  | tuple => "tuple"
  | range => "range"
  | set => "set"
  | dict => "dict"
  | bytes => "bytes"
  | byteArray => "bytearray"
  | decimal => "Decimal"
  | complex => "complex"
  | object => "object"

inductive Scalar where
  | string (t : Text)
  | integer (n : Int)
  | boolean (b : Bool)
  | float (x : Binary64)
  | date (d : Date)
  | dateTime (t : DateTime)
  deriving DecidableEq, Repr

inductive Value where
  | null
  | scalar (s : Scalar)
  | list (items : List Value)
  | tuple (items : List Value)
  | range (start stop step : Int)
  | dict (entries : List (Value × Value))
  | bytes (octets : List UInt8)
  | byteArray (octets : List UInt8)
  | set (members : List Value)
  | time (hour minute : Nat)
  | decimal (d : Decimal)
  | complex (re im : Binary64)
  | object

namespace Scalar

def kind : Scalar → Value.Kind
  | string _ => .string
  | integer _ => .integer
  | boolean _ => .boolean
  | float _ => .float
  | date _ => .date
  | dateTime _ => .dateTime

def digitLimit : Nat := 4300

def text? : Scalar → Option Text
  | string t => some t
  | integer n => if n.natAbs < Nat.pow 10 digitLimit then some (Text.ofInt n) else none
  | boolean b => some (Text.of (if b then "True" else "False"))
  | float x => some x.text
  | date d => some d.text
  | dateTime t => some t.text

end Scalar

namespace Value

def string (t : Text) : Value := .scalar (.string t)

def integer (n : Int) : Value := .scalar (.integer n)

def kind : Value → Kind
  | null => .null
  | scalar s => s.kind
  | list _ => .list
  | tuple _ => .tuple
  | range .. => .range
  | dict _ => .dict
  | bytes _ => .bytes
  | byteArray _ => .byteArray
  | set _ => .set
  | time .. => .time
  | decimal _ => .decimal
  | complex .. => .complex
  | object => .object

def rangeLength (start stop step : Int) : Nat :=
  if 0 < step then ((stop - start + step - 1) / step).toNat
  else if step < 0 then ((start - stop - step - 1) / -step).toNat
  else 0

def rangeItems (start stop step : Int) : List Int :=
  (List.range (rangeLength start stop step)).map fun i : Nat => start + i * step

/-- The items of a sequence, which neither a dictionary nor a set nor octets are. -/
def items? : Value → Option (List Value)
  | list xs | tuple xs => some xs
  | range start stop step => some ((rangeItems start stop step).map integer)
  | _ => none

end Value

end UriTemplate
