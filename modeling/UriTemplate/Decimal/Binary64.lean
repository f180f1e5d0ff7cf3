import UriTemplate.Text

namespace UriTemplate

/-- A binary64 number. A finite one is `significand * 2 ^ exponent`; `ofRatio` makes it with a
significand of 53 bits, or of fewer at the least exponent. -/
inductive Binary64 where
  | nan
  | infinite (negative : Bool)
  | finite (negative : Bool) (significand : Nat) (exponent : Int)
  deriving DecidableEq, Repr

namespace Binary64

def leastExponent : Int := -1074

def greatestExponent : Int := 971

def zero (negative : Bool) : Binary64 := .finite negative 0 leastExponent

def roundDiv (num den : Nat) : Nat :=
  let q := num / den
  let r := 2 * (num % den)
  -- A half goes to the even number.
  if r < den || (r = den && q % 2 = 0) then q else q + 1

def scaled (num den : Nat) (e : Int) : Nat × Nat :=
  (num * Nat.pow 2 (-e).toNat, den * Nat.pow 2 e.toNat)

def ofRatio (negative : Bool) (num den : Nat) : Binary64 :=
  if num = 0 then zero negative
  else
    let guess : Int := (num.log2 : Int) - den.log2 - 52
    let (n, d) := scaled num den guess
    let e := max (if n / d < Nat.pow 2 52 then guess - 1 else guess) leastExponent
    let (n, d) := scaled num den e
    let m := roundDiv n d
    let (m, e) := if m = Nat.pow 2 53 then (Nat.pow 2 52, e + 1) else (m, e)
    if greatestExponent < e then .infinite negative else .finite negative m e

/-- Numbers past every binary64 number need not be computed to be rounded. -/
def ofDecimal (negative : Bool) (digits : Nat) (exponent : Int) : Binary64 :=
  let magnitude := exponent + (Text.ofNat digits).length
  if digits = 0 || magnitude < -400 then zero negative
  else if 400 < magnitude then .infinite negative
  else ofRatio negative (digits * Nat.pow 10 exponent.toNat) (Nat.pow 10 (-exponent).toNat)

def ofScaled (n : Nat) (e : Int) : Binary64 :=
  ofRatio false (n * Nat.pow 2 e.toNat) (Nat.pow 2 (-e).toNat)

def times : Binary64 → Binary64 → Binary64
  | finite false m e, finite false n f => ofScaled (m * n) (e + f)
  | x, _ => x

def plus : Binary64 → Binary64 → Binary64
  | finite false m e, finite false n f =>
      ofScaled (m * Nat.pow 2 (e - min e f).toNat + n * Nat.pow 2 (f - min e f).toNat) (min e f)
  | infinite false, _ => infinite false
  | _, y => y

def negate : Binary64 → Binary64
  | nan => nan
  | infinite s => infinite (!s)
  | finite s m e => finite (!s) m e

private def signed : Text → Bool × Text
  | .char '-' :: s => (true, s)
  | .char '+' :: s => (false, s)
  | s => (false, s)

private def exponent? : Text → Option Int
  | [] => some 0
  | c :: s =>
      if c = .char 'e' || c = .char 'E' then
        let (negative, digits) := signed s
        if digits ≠ [] && digits.all CodePoint.isDigit then
          some (if negative then -(Text.digitsValue digits : Int) else Text.digitsValue digits)
        else none
      else none

def ofText? (t : Text) : Option Binary64 :=
  let (negative, s) := signed t
  if s = Text.of "inf" then some (.infinite negative)
  else if s = Text.of "nan" then some .nan
  else
    let whole := s.takeWhile CodePoint.isDigit
    let s := s.dropWhile CodePoint.isDigit
    let (places, s) := match s with
      | .char '.' :: s => (s.takeWhile CodePoint.isDigit, s.dropWhile CodePoint.isDigit)
      | s => ([], s)
    if whole ++ places = [] then none
    else (exponent? s).map fun e =>
      ofDecimal negative (Text.digitsValue (whole ++ places)) (e - places.length)

def decimalLe (a : Nat) (p : Int) (b : Nat) (e : Int) : Bool :=
  a * Nat.pow 10 p.toNat * Nat.pow 2 (-e).toNat ≤ b * Nat.pow 2 e.toNat * Nat.pow 10 (-p).toNat

def binaryLe (b : Nat) (e : Int) (a : Nat) (p : Int) : Bool :=
  b * Nat.pow 2 e.toNat * Nat.pow 10 (-p).toNat ≤ a * Nat.pow 10 p.toNat * Nat.pow 2 (-e).toNat

/-- Whether `a * 10 ^ p` rounds to `m * 2 ^ e`: no farther off than half a step to either
neighbour, where the half itself counts for an even significand only. The step below a power
of two is half as wide. -/
def readsBack (m : Nat) (e : Int) (a : Nat) (p : Int) : Bool :=
  let low := 4 * m - if m = Nat.pow 2 52 && leastExponent < e then 1 else 2
  let high := 4 * m + 2
  if m % 2 = 0 then binaryLe low (e - 2) a p && decimalLe a p high (e - 2)
  else !decimalLe a p low (e - 2) && !binaryLe high (e - 2) a p

/-- Of the multiples of `10 ^ p` beside `m * 2 ^ e` the one that reads back; of two the nearer,
and of two as near the even one. -/
def neighbour? (m : Nat) (e : Int) (p : Int) : Option Nat :=
  let below := (m * Nat.pow 2 e.toNat * Nat.pow 10 (-p).toNat) /
    (Nat.pow 2 (-e).toNat * Nat.pow 10 p.toNat)
  let above := below + 1
  match readsBack m e below p, readsBack m e above p with
  | false, false => none
  | true, false => some below
  | false, true => some above
  | true, true =>
      let middle := below + above
      if !decimalLe middle p (2 * m) e then some below
      else if !binaryLe (2 * m) e middle p then some above
      else if below % 2 = 0 then some below else some above

def shortestFrom (m : Nat) (e : Int) : Nat → Int → Nat × Int
  | 0, p => (m, p)
  | fuel + 1, p => match neighbour? m e p with
      | some a => (a, p)
      | none => shortestFrom m e fuel (p - 1)

/-- Digits and power of ten of the shortest decimal that reads back as `m * 2 ^ e`. The first
grid is coarser than the number, and seventeen digits always suffice. -/
def shortest (m : Nat) (e : Int) : Nat × Int :=
  shortestFrom m e 24 ((m.log2 + e) * 30103 / 100000 + 2)

structure Layout where
  positional : Int → Bool
  exponentDigits : Nat
  keepsPoint : Bool

def Layout.plain : Layout := ⟨fun place => -4 < place && place ≤ 16, 2, true⟩

def Layout.bare : Layout := ⟨Layout.plain.positional, 2, false⟩

namespace Layout

def withPoint (keepsPoint : Bool) (digits : Text) (place : Int) : Text :=
  if place ≤ 0 then .char '0' :: .char '.' :: List.replicate (-place).toNat (.char '0') ++ digits
  else if digits.length ≤ place.toNat then
    digits ++ List.replicate (place.toNat - digits.length) (.char '0') ++
      if keepsPoint then Text.of ".0" else []
  else digits.take place.toNat ++ .char '.' :: digits.drop place.toNat

def withPower (width : Nat) (digits : Text) (place : Int) : Text :=
  let power := place - 1
  digits.take 1 ++ (if digits.length = 1 then [] else .char '.' :: digits.drop 1) ++
    .char 'e' :: (if power < 0 then .char '-' else .char '+') :: Text.padded width power.natAbs

def write (l : Layout) : Binary64 → Text
  | .nan => Text.of "nan"
  | .infinite negative => Text.of (if negative then "-inf" else "inf")
  | .finite negative m e =>
      (if negative then [.char '-'] else []) ++
        if m = 0 then Text.of (if l.keepsPoint then "0.0" else "0")
        else
          let (a, p) := shortest m e
          let digits := Text.ofNat a
          let place := digits.length + p
          if l.positional place then withPoint l.keepsPoint digits place
          else withPower l.exponentDigits digits place

end Layout

def text (x : Binary64) : Text := Layout.plain.write x

end Binary64

end UriTemplate
