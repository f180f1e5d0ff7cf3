import UriTemplate.Value
import UriTemplate.Yaml.Token

namespace UriTemplate.Yaml

abbrev Meaning (α : Type) := Option (Except Fault α)

namespace Plain

def sign : Text → Bool × Text
  | .char '-' :: s => (true, s)
  | .char '+' :: s => (false, s)
  | s => (false, s)

def signed (negative : Bool) (n : Nat) : Int := if negative then -n else n

def isDigitOrGap (c : CodePoint) : Bool := c.isDigit || c = .char '_'

def withoutGaps (s : Text) : Text := s.filter (· ≠ .char '_')

def anyCase (word : String) : List Text :=
  [word.toLower, word.capitalize, word.toUpper].map Text.of

def boolean? (s : Text) : Option Bool :=
  if (["yes", "true", "on"].flatMap anyCase).any (· = s) then some true
  else if (["no", "false", "off"].flatMap anyCase).any (· = s) then some false
  else none

def isExponent : Text → Bool
  | [] => true
  | e :: s :: digits =>
      (e = .char 'e' || e = .char 'E') && (s = .char '+' || s = .char '-') && digits ≠ [] &&
        digits.all CodePoint.isDigit
  | _ => false

def isSexagesimalTail : Text → Bool
  | .char ':' :: a :: b :: rest =>
      if a.isDigit && b.isDigit then a.toNat ≤ 53 && (rest = [] || isSexagesimalTail rest)
      else a.isDigit && b = .char ':' && isSexagesimalTail (b :: rest)
  | [.char ':', a] => a.isDigit
  | _ => false

def isFloat (s : Text) : Bool :=
  let (_, t) := sign s
  let whole := t.takeWhile isDigitOrGap
  match whole, t.dropWhile isDigitOrGap with
  | c :: _, .char '.' :: places => c.isDigit && isExponent (places.dropWhile isDigitOrGap)
  | [], .char '.' :: c :: places => s = t && c.isDigit && isExponent (places.dropWhile isDigitOrGap)
  | _, _ => false

def sexagesimal (s : Text) : Nat :=
  let (whole, part) := s.foldl (fun (whole, part) c =>
    if c = .char ':' then (60 * whole + part, 0) else (whole, 10 * part + (c.toNat - 48))) (0, 0)
  60 * whole + part

def sexagesimalSum (power : Nat) (sum : Binary64) : List Binary64 → Except Fault Binary64
  | [] => .ok sum
  | x :: xs => match Binary64.ofScaled power 0 with
      | .infinite _ => .error .tooLarge
      -- Each power, product and sum is rounded on its own.
      | p => sexagesimalSum (60 * power) (sum.plus (x.times p)) xs

def sexagesimalFloat? (s : Text) : Meaning Binary64 :=
  let (negative, t) := sign s
  match t, t.dropWhile (· ≠ .char '.') with
  | c :: _, _ :: places =>
      if c.isDigit && isSexagesimalTail ((t.takeWhile (· ≠ .char '.')).dropWhile isDigitOrGap) &&
          places.all isDigitOrGap then
        let parts := (Text.pieces (.char ':') (withoutGaps t)).filterMap Binary64.ofText?
        some ((sexagesimalSum 1 (.zero false) parts.reverse).map fun sum =>
          if negative then sum.negate else sum)
      else none
  | _, _ => none

def float? (s : Text) : Meaning Binary64 :=
  let (negative, t) := sign s
  if [".inf", ".Inf", ".INF"].any (Text.of · = t) then some (.ok (.infinite negative))
  else if [".nan", ".NaN", ".NAN"].any (Text.of · = s) then some (.ok .nan)
  else if isFloat s then (Binary64.ofText? (withoutGaps s)).map .ok
  else sexagesimalFloat? s

def limitMessage (digits : Nat) : Text :=
  Text.of "Exceeds the limit (4300 digits) for integer string conversion: value has " ++
    Text.ofNat digits ++
    Text.of " digits; use sys.set_int_max_str_digits() to increase the limit"

def decimal (digits : Text) : Except Fault Nat :=
  if Scalar.digitLimit < digits.length then .error (.impossible (limitMessage digits.length))
  else .ok (Text.digitsValue digits)

def inBase (base : Nat) (digits : Text) : Except Fault Nat :=
  if digits = [] then
    .error (.impossible (Text.of "invalid literal for int() with base " ++ Text.ofNat base ++
      Text.of ": ''"))
  else .ok (digits.foldl (fun n c => base * n + Text.hexDigitValue c) 0)

def integer? (s : Text) : Meaning Int :=
  let (negative, t) := sign s
  let found (n : Except Fault Nat) : Meaning Int := some (n.map (signed negative))
  match t with
  | .char '0' :: .char 'b' :: digits =>
      if digits ≠ [] && digits.all (· ∈ Text.of "01_") then found (inBase 2 (withoutGaps digits))
      else none
  | .char '0' :: .char 'x' :: digits =>
      if digits ≠ [] && digits.all (fun c => Text.isHexDigit c || c = .char '_') then
        found (inBase 16 (withoutGaps digits))
      else none
  | .char '0' :: digits =>
      if digits.all fun c => (c.isDigit && c.toNat ≤ 55) || c = .char '_' then
        found (inBase 8 (.char '0' :: withoutGaps digits))
      else none
  | c :: _ =>
      if !c.isDigit then none
      else match t.dropWhile isDigitOrGap with
        | [] => found (decimal (withoutGaps t))
        | rest =>
            if isSexagesimalTail rest then
              found ((decimal (withoutGaps (t.takeWhile isDigitOrGap))).map fun _ =>
                sexagesimal (withoutGaps t))
            else none
  | [] => none

def digits? (least most : Nat) (s : Text) : Option (Nat × Text) :=
  let digits := (s.take most).takeWhile CodePoint.isDigit
  if digits.length < least then none else some (Text.digitsValue digits, s.drop digits.length)

def after? (c : CodePoint) : Text → Option Text
  | x :: rest => if x = c then some rest else none
  | [] => none

structure Stamp where
  date : Date
  time : Option (Nat × Nat × Nat)
  microsecond : Nat
  offset : Option Int

def zone? (s : Text) : Option (Option Int) :=
  if s = [] then some none
  else match s.dropWhile isBlank with
    | [.char 'Z'] => some (some 0)
    | c :: s =>
        if c = .char '+' || c = .char '-' then do
          let (h, s) ← digits? 1 2 s
          let m ← match s with
            | [] => some 0
            | .char ':' :: s => match digits? 2 2 s with
                | some (m, []) => some m
                | _ => none
            | _ => none
          return some (signed (c = .char '-') (3600 * h + 60 * m))
        else none
    | [] => none

/-- A date has all its digits. With a time of day, month and day may be short. -/
def stamp? (s : Text) : Option Stamp := do
  let (year, rest) ← digits? 4 4 s
  let (month, rest) ← digits? 1 2 (← after? (.char '-') rest)
  let (day, rest) ← digits? 1 2 (← after? (.char '-') rest)
  let date : Date := ⟨year, month, day⟩
  match rest with
  -- Only in front of a time of day may month and day be short.
  | [] => if s.length = 10 then some ⟨date, none, 0, none⟩ else none
  | c :: rest =>
      let rest ← if c = .char 'T' || c = .char 't' then some rest
        else if isBlank c then some (rest.dropWhile isBlank) else none
      let (hour, rest) ← digits? 1 2 rest
      let (minute, rest) ← digits? 2 2 (← after? (.char ':') rest)
      let (second, rest) ← digits? 2 2 (← after? (.char ':') rest)
      let (places, rest) := match rest with
        | .char '.' :: rest => (rest.takeWhile CodePoint.isDigit, rest.dropWhile CodePoint.isDigit)
        | rest => ([], rest)
      let microsecond := Text.digitsValue ((places.take 6).rightpad 6 (.char '0'))
      return ⟨date, some (hour, minute, second), microsecond, ← zone? rest⟩

def refuse (why : String) : Except Fault Unit := .error (.impossible (Text.of why))

def spanText (seconds : Int) : Text :=
  let days := seconds / 86400
  let rest := seconds % 86400
  Text.of "datetime.timedelta(days=" ++ Text.ofInt days ++
    (if rest = 0 then [] else Text.of ", seconds=" ++ Text.ofInt rest) ++ [.char ')']

def checkDate (d : Date) : Except Fault Unit :=
  if d.year = 0 then refuse "year 0 is out of range"
  else if d.month = 0 || 12 < d.month then refuse "month must be in 1..12"
  else if d.day = 0 || Calendar.daysIn d.year d.month < d.day then
    refuse "day is out of range for month"
  else .ok ()

def checkOffset (offset : Int) : Except Fault Unit :=
  if offset.natAbs < 86400 then .ok ()
  else .error (.impossible (Text.of "offset must be a timedelta strictly between " ++
    Text.of "-timedelta(hours=24) and timedelta(hours=24), not " ++ spanText offset ++ [.char '.']))

def Stamp.scalar (s : Stamp) : Except Fault Scalar :=
  match s.time with
  | none => (checkDate s.date).map fun _ => .date s.date
  | some (hour, minute, second) => do
      checkOffset (s.offset.getD 0)
      checkDate s.date
      if 23 < hour then refuse "hour must be in 0..23"
      if 59 < minute then refuse "minute must be in 0..59"
      if 59 < second then refuse "second must be in 0..59"
      return .dateTime ⟨s.date, hour, minute, second, s.microsecond, s.offset⟩

end Plain

open Plain

def isNull (s : Text) : Bool := ["", "~", "null", "Null", "NULL"].any (Text.of · = s)

/-- The value of a plain scalar. `<<` and `=` have a reserved meaning and no value. -/
def plainValue (s : Text) : Except Fault Value :=
  match boolean? s, float? s, integer? s, stamp? s with
  | some b, _, _, _ => .ok (.scalar (.boolean b))
  | none, some x, _, _ => x.map fun x => .scalar (.float x)
  | none, none, some n, _ => n.map .integer
  | none, none, none, stamp =>
      if isNull s then .ok .null
      else match stamp with
        | some t => t.scalar.map .scalar
        | none => if s = Text.of "<<" || s = [.char '='] then .error .malformed else .ok (.string s)

end UriTemplate.Yaml
