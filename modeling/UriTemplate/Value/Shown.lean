import UriTemplate.Error

namespace UriTemplate

def Text.call (function : String) (arguments : List Text) : Text :=
  Text.of function ++ .char '(' :: listed arguments ++ [.char ')']

/-- Octets between quotes. Those beyond ASCII take their hexadecimal form. Where single quotes are
`guarded` they are escaped between double ones too. -/
def Text.quotedOctets (guarded : Bool) (bs : List UInt8) : Text :=
  let chars := bs.map fun b => CodePoint.ofNat b.toNat
  let mark := quoteMark chars
  let escape := fun c : CodePoint =>
    if c.toNat < 0x7f then escaped (if guarded then .char '\x27' else mark) c
    else .char '\\' :: .char 'x' :: hexDigits 2 c.toNat
  .char 'b' :: mark :: chars.flatMap escape ++ [mark]

namespace Calendar

def shownOffset (offset : Int) : Text :=
  let days := offset.fdiv 86400
  let seconds := offset.fmod 86400
  let spans := (if days = 0 then [] else [Text.of "days=" ++ Text.ofInt days]) ++
    if seconds = 0 then [] else [Text.of "seconds=" ++ Text.ofInt seconds]
  if offset = 0 then Text.of "datetime.timezone.utc"
  else Text.call "datetime.timezone" [Text.call "datetime.timedelta" spans]

def dateNumbers (d : Date) : List Text := [d.year, d.month, d.day].map Text.ofNat

def clockNumbers (t : DateTime) : List Text :=
  ([t.hour, t.minute] ++
    if t.microsecond ≠ 0 then [t.second, t.microsecond]
    else if t.second ≠ 0 then [t.second] else []).map Text.ofNat

def shownDateTime (t : DateTime) : Text :=
  Text.call "datetime.datetime" (dateNumbers t.date ++ clockNumbers t ++
    (t.offset.map fun o => Text.of "tzinfo=" ++ shownOffset o).toList)

end Calendar

def Scalar.shown? : Scalar → Option Text
  | string t => some (Text.quoted t)
  | date d => some (Text.call "datetime.date" (Calendar.dateNumbers d))
  | dateTime t => some (Calendar.shownDateTime t)
  | s => s.text?

namespace Value

def shownComplex (re im : Binary64) : Text :=
  let imaginary := Binary64.Layout.bare.write im ++ [.char 'j']
  if re = .zero false then imaginary
  else .char '(' :: Binary64.Layout.bare.write re ++
    (if imaginary.head? = some (.char '-') then imaginary else .char '+' :: imaginary) ++
      [.char ')']

def shownRange (start stop step : Int) : Text :=
  Text.call "range" (([start, stop] ++ if step = 1 then [] else [step]).map Text.ofInt)

def shownTuple : List Text → Text
  | [t] => .char '(' :: t ++ Text.of ",)"
  | ts => .char '(' :: Text.listed ts ++ [.char ')']

def shownSet : List Text → Text
  | [] => Text.of "set()"
  | ts => .char '{' :: Text.listed ts ++ [.char '}']

mutual

def shown? : Value → Option Text
  | null => some (Text.of "None")
  | scalar s => s.shown?
  | list xs => (shownItems? xs).map fun ts => .char '[' :: Text.listed ts ++ [.char ']']
  | tuple xs => (shownItems? xs).map shownTuple
  | range start stop step => some (shownRange start stop step)
  | dict xs => (shownEntries? xs).map fun ts => .char '{' :: Text.listed ts ++ [.char '}']
  | bytes bs => some (Text.quotedOctets false bs)
  | byteArray bs => some (Text.call "bytearray" [Text.quotedOctets true bs])
  | set xs => (shownItems? xs).map shownSet
  | time h m => some (Text.call "datetime.time" [Text.ofNat h, Text.ofNat m])
  | decimal d => some (Text.call "Decimal" [Text.quoted d.text])
  | complex re im => some (shownComplex re im)
  | object => some (Text.of "<object object>")

def shownItems? : List Value → Option (List Text)
  | [] => some []
  | x :: xs => do return (← shown? x) :: (← shownItems? xs)

def shownEntries? : List (Value × Value) → Option (List Text)
  | [] => some []
  | (k, v) :: xs => do
      return ((← shown? k) ++ .char ':' :: .char ' ' :: (← shown? v)) :: (← shownEntries? xs)

end

/-- A value that stands on its own: texts without quotes, calendar values in their own notation. -/
def plain? : Value → Option Text
  | scalar (.dateTime t) => some (t.textWith (.char ' '))
  | scalar s => s.text?
  | time h m => some (Text.padded 2 h ++ .char ':' :: Text.padded 2 m ++ Text.of ":00")
  | decimal d => some d.text
  | x => x.shown?

end Value

def Operator.ofValue : Value → Except Error Operator
  | .scalar (.string t) => match Operator.ofText? t with
      | some o => .ok o
      | none => .error (.unknownOperator (Text.quoted t))
  | x => match x.shown? with
      | some t => .error (.unknownOperator t)
      | none => .error .tooManyDigits

end UriTemplate
