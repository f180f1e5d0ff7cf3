import UriTemplate.Error

namespace UriTemplate.Percent

def isUnreserved (c : CodePoint) : Bool := c.isAlphanum || c ∈ Text.of "-._~"

def reservedChars : Text := Text.of ":/?#[]@!$&'()*+,;="

def isReserved (c : CodePoint) : Bool := c ∈ reservedChars

def hexDigit (n : Nat) : CodePoint := .char (Char.ofNat (if n < 10 then 48 + n else 55 + n))

def triplet (b : UInt8) : Text := [.char '%', hexDigit (b.toNat / 16), hexDigit (b.toNat % 16)]

def encode (keep : CodePoint → Bool) (cs : List Char) : Text :=
  cs.flatMap fun c =>
    if keep (.char c) then [.char c] else (String.utf8EncodeChar c).flatMap triplet

def component : List Char → Text := encode isUnreserved

def withReserved : List Char → Text := encode fun c => isUnreserved c || isReserved c

def encodeComponent (t : Text) : Except Error Text := t.encodable.map component

def encodeReserved (t : Text) : Except Error Text := t.encodable.map withReserved

/-- The octets that an encoded text denotes. A percent sign without two digits stands for itself. -/
def octets? : Text → Option (List UInt8)
  | [] => some []
  | .char '%' :: hi :: lo :: rest =>
      if Text.isHexDigit hi && Text.isHexDigit lo then
        (octets? rest).map (UInt8.ofNat (16 * Text.hexDigitValue hi + Text.hexDigitValue lo) :: ·)
      else (octets? (hi :: lo :: rest)).map (String.utf8EncodeChar '%' ++ ·)
  | .char c :: rest => (octets? rest).map (String.utf8EncodeChar c ++ ·)
  | .surrogate _ :: _ => none

def ofOctets? (bs : List UInt8) : Option Text :=
  (ByteArray.mk bs.toArray).utf8Decode?.map fun cs => Text.ofChars cs.toList

def decode? (t : Text) : Option Text := (octets? t).bind ofOctets?

theorem encode_append (keep : CodePoint → Bool) (s t : List Char) :
    encode keep (s ++ t) = encode keep s ++ encode keep t := by
  simp [encode]

end UriTemplate.Percent
