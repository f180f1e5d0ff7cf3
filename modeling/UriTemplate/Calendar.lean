import UriTemplate.Text

namespace UriTemplate

structure Date where
  year : Nat
  month : Nat
  day : Nat
  deriving DecidableEq, Repr

/-- `offset` counts seconds east of UTC. Without one the time is a local time. -/
structure DateTime where
  date : Date
  hour : Nat
  minute : Nat
  second : Nat
  microsecond : Nat
  offset : Option Int
  deriving DecidableEq, Repr

namespace Calendar

def isLeap (year : Nat) : Bool := year % 4 = 0 && (year % 100 ≠ 0 || year % 400 = 0)

def daysIn (year month : Nat) : Nat :=
  if month = 2 then if isLeap year then 29 else 28
  else if month ∈ [4, 6, 9, 11] then 30 else 31

def dayNumber (d : Date) : Nat :=
  let y := d.year - 1
  365 * y + y / 4 - y / 100 + y / 400 +
    (List.range (d.month - 1)).foldl (fun n m => n + daysIn d.year (m + 1)) 0 + d.day

end Calendar

def Date.text (d : Date) : Text :=
  Text.padded 4 d.year ++ .char '-' :: Text.padded 2 d.month ++ .char '-' :: Text.padded 2 d.day

namespace DateTime

def offsetText (offset : Int) : Text :=
  let n := offset.natAbs
  (if offset < 0 then .char '-' else .char '+') :: Text.padded 2 (n / 3600) ++
    .char ':' :: Text.padded 2 (n / 60 % 60) ++
    if n % 60 = 0 then [] else .char ':' :: Text.padded 2 (n % 60)

def seconds (t : DateTime) : Int :=
  ((Calendar.dayNumber t.date * 24 + t.hour) * 60 + t.minute) * 60 + t.second - t.offset.getD 0

def isSameMoment (a b : DateTime) : Bool :=
  -- A local time is never the same as one with an offset.
  a.offset.isSome = b.offset.isSome && a.seconds = b.seconds && a.microsecond = b.microsecond

def textWith (mark : CodePoint) (t : DateTime) : Text :=
  t.date.text ++ mark :: Text.padded 2 t.hour ++ .char ':' :: Text.padded 2 t.minute ++
    .char ':' :: Text.padded 2 t.second ++
    (if t.microsecond = 0 then [] else .char '.' :: Text.padded 6 t.microsecond) ++
    (t.offset.map offsetText).getD []

def text : DateTime → Text := textWith (.char 'T')

end DateTime

end UriTemplate
