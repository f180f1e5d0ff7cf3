import UriTemplate.Text

namespace UriTemplate

/-- A decimal number with all its places, `coefficient * 10 ^ exponent` if it is finite. Diagnostic
digits tell one of the values that are no number from another. -/
inductive Decimal where
  | finite (negative : Bool) (coefficient : Nat) (exponent : Int)
  | infinite (negative : Bool)
  | nan (negative signaling : Bool) (diagnostic : Text)
  deriving DecidableEq, Repr

namespace Decimal

def takeSign : Text → Bool × Text
  | .char '-' :: s => (true, s)
  | .char '+' :: s => (false, s)
  | s => (false, s)

def power? : Text → Option Int
  | [] => some 0
  | c :: s =>
      let (negative, digits) := takeSign s
      if c = .char 'e' && digits ≠ [] && digits.all CodePoint.isDigit then
        some (if negative then -(Text.digitsValue digits : Int) else Text.digitsValue digits)
      else none

def diagnostic? (digits : Text) : Option Text :=
  if digits.all CodePoint.isDigit then some (digits.dropWhile (· = .char '0')) else none

def ofUnsigned? (negative : Bool) (s : Text) : Option Decimal :=
  match s with
  | .char 's' :: .char 'n' :: .char 'a' :: .char 'n' :: rest =>
      (diagnostic? rest).map (nan negative true)
  | .char 'n' :: .char 'a' :: .char 'n' :: rest => (diagnostic? rest).map (nan negative false)
  | _ =>
      if s ∈ ["inf", "infinity"].map Text.of then some (infinite negative)
      else
        let whole := s.takeWhile CodePoint.isDigit
        let s := s.dropWhile CodePoint.isDigit
        let (places, s) := match s with
          | .char '.' :: s => (s.takeWhile CodePoint.isDigit, s.dropWhile CodePoint.isDigit)
          | s => ([], s)
        if whole ++ places = [] then none
        else (power? s).map fun p =>
          finite negative (Text.digitsValue (whole ++ places)) (p - places.length)

def ofText? (t : Text) : Option Decimal :=
  let t := (t.dropWhile (· = .char ' ')).reverse.dropWhile (· = .char ' ')
  let (negative, s) := takeSign ((t.reverse.filter (· ≠ .char '_')).map CodePoint.toLower)
  ofUnsigned? negative s

def finiteText (coefficient : Nat) (exponent : Int) : Text :=
  let digits := Text.ofNat coefficient
  let place := exponent + digits.length
  -- At most six zeros stand between the point and the digits.
  if exponent ≤ 0 && -6 < place then
    if exponent = 0 then digits
    else if place ≤ 0 then
      .char '0' :: .char '.' :: List.replicate (-place).toNat (.char '0') ++ digits
    else digits.take place.toNat ++ .char '.' :: digits.drop place.toNat
  else
    let power := place - 1
    digits.take 1 ++ (if digits.length = 1 then [] else .char '.' :: digits.drop 1) ++
      .char 'E' :: (if power < 0 then .char '-' else .char '+') :: Text.ofNat power.natAbs

def text (d : Decimal) : Text :=
  let signed (negative : Bool) (t : Text) : Text := if negative then .char '-' :: t else t
  match d with
  | finite negative c e => signed negative (finiteText c e)
  | infinite negative => signed negative (Text.of "Infinity")
  | nan negative signaling digits =>
      signed negative (Text.of (if signaling then "sNaN" else "NaN") ++ digits)

end Decimal

end UriTemplate
