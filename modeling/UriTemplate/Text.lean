namespace UriTemplate

/-- A string may hold surrogates that form no pair, and these stand for no character. -/
inductive CodePoint where
  | char (c : Char)
  | surrogate (i : Fin 2048)
  deriving DecidableEq, Repr

namespace CodePoint

def toNat : CodePoint → Nat
  | char c => c.toNat
  | surrogate i => 0xd800 + i

def ofNat (n : Nat) : CodePoint :=
  if h : 0xd800 ≤ n ∧ n < 0xe000 then surrogate ⟨n - 0xd800, by omega⟩ else char (Char.ofNat n)

def char? : CodePoint → Option Char
  | char c => some c
  | surrogate _ => none

def satisfies (p : Char → Bool) : CodePoint → Bool
  | char c => p c
  | surrogate _ => false

def isDigit : CodePoint → Bool := satisfies Char.isDigit

def isAlpha : CodePoint → Bool := satisfies Char.isAlpha

def isAlphanum : CodePoint → Bool := satisfies Char.isAlphanum

@[simp] theorem isDigit_char (c : Char) : (char c).isDigit = c.isDigit := rfl

@[simp] theorem isAlpha_char (c : Char) : (char c).isAlpha = c.isAlpha := rfl

@[simp] theorem isAlphanum_char (c : Char) : (char c).isAlphanum = c.isAlphanum := rfl

def toLower : CodePoint → CodePoint
  | char c => char c.toLower
  | c => c

/-- The octets of a character in UTF-8. A surrogate of a path is an octet that could not be read. -/
def octetCount : CodePoint → Nat
  | char c => c.utf8Size
  | surrogate _ => 1

theorem satisfies_iff {p : Char → Bool} {c : CodePoint} :
    c.satisfies p ↔ ∃ d, c = char d ∧ p d := by
  cases c <;> simp [satisfies]

theorem toNat_lt (c : CodePoint) : c.toNat < Nat.pow 16 8 := by
  cases c with
  | char c => exact c.val.toNat_lt
  | surrogate i => exact Nat.lt_trans (Nat.add_lt_add_left i.isLt 0xd800) (by decide)

theorem ofNat_toNat (c : CodePoint) : ofNat c.toNat = c := by
  cases c with
  | char c =>
      have hvalid : c.toNat < 0xd800 ∨ 0xdfff < c.toNat ∧ c.toNat < 0x110000 := c.valid
      rw [toNat, ofNat, dif_neg (by omega), Char.ofNat_toNat]
  | surrogate i =>
      have hlt := i.isLt
      rw [toNat, ofNat, dif_pos (by omega)]
      simp

end CodePoint

/-- Code points in reading order. Every length and position counts these. -/
abbrev Text := List CodePoint

abbrev CharRanges := List (Nat × Nat)

def CharRanges.covers (ranges : CharRanges) (c : CodePoint) : Bool :=
  -- Only the first range that does not lie wholly below the code point can hold it.
  match ranges.find? fun r => c.toNat ≤ r.2 with
  | some r => r.1 ≤ c.toNat
  | none => false

namespace Text

def ofChars (cs : List Char) : Text := cs.map .char

def of (s : String) : Text := ofChars s.toList

def characters (t : Text) : List Char := t.filterMap CodePoint.char?

@[simp] theorem characters_ofChars (cs : List Char) : (ofChars cs).characters = cs := by
  simp [characters, ofChars, List.filterMap_map, Function.comp_def, CodePoint.char?]

def characters? : Text → Option (List Char)
  | [] => some []
  | .char c :: t => (characters? t).map (c :: ·)
  | .surrogate _ :: _ => none

theorem characters?_eq_some_iff {t : Text} {cs : List Char} :
    characters? t = some cs ↔ t = ofChars cs := by
  induction t generalizing cs with
  | nil => cases cs <;> simp [characters?, ofChars]
  | cons c t ih =>
      cases c with
      | char c =>
          cases cs with
          | nil => simp [characters?, ofChars]
          | cons d cs =>
              simp only [characters?, Option.map_eq_some_iff, ih, List.cons.injEq, ofChars,
                List.map_cons, CodePoint.char.injEq]
              constructor
              · rintro ⟨_, rfl, rfl, rfl⟩
                exact ⟨rfl, rfl⟩
              · rintro ⟨rfl, rfl⟩
                exact ⟨_, rfl, rfl, rfl⟩
      | surrogate i => cases cs <;> simp [characters?, ofChars]

@[simp] theorem characters?_ofChars (cs : List Char) : characters? (ofChars cs) = some cs :=
  characters?_eq_some_iff.2 rfl

theorem exists_eq_map {α β : Type} {f : α → β} {bs : List β} (h : ∀ b ∈ bs, ∃ a, b = f a) :
    ∃ as : List α, bs = as.map f := by
  induction bs with
  | nil => exact ⟨[], rfl⟩
  | cons b bs ih =>
      obtain ⟨⟨a, rfl⟩, hbs⟩ := List.forall_mem_cons.1 h
      obtain ⟨as, rfl⟩ := ih hbs
      exact ⟨a :: as, rfl⟩

theorem exists_ofChars {t : Text} (h : ∀ c ∈ t, ∃ d, c = .char d) : ∃ cs, t = ofChars cs :=
  exists_eq_map h

theorem mem_ofChars {c : Char} {cs : List Char} : .char c ∈ ofChars cs ↔ c ∈ cs := by
  simp [ofChars]

theorem ofChars_append (cs ds : List Char) : ofChars (cs ++ ds) = ofChars cs ++ ofChars ds :=
  List.map_append

theorem ofChars_injective {cs ds : List Char} (h : ofChars cs = ofChars ds) : cs = ds := by
  have hchars := characters?_ofChars cs
  rw [h, characters?_ofChars] at hchars
  exact (Option.some.inj hchars).symm

def ofNat (n : Nat) : Text := ofChars (Nat.toDigits 10 n)

def ofInt : Int → Text
  | .ofNat n => ofNat n
  | .negSucc n => .char '-' :: ofNat (n + 1)

def padded (width n : Nat) : Text := (ofNat n).leftpad width (.char '0')

def digitsValue (t : Text) : Nat := Nat.ofDigitChars 10 t.characters 0

@[simp] theorem digitsValue_ofChars (cs : List Char) :
    digitsValue (ofChars cs) = Nat.ofDigitChars 10 cs 0 := by
  rw [digitsValue, characters_ofChars]

theorem digitsValue_ofNat (n : Nat) : digitsValue (ofNat n) = n := by
  rw [ofNat, digitsValue_ofChars]
  exact Nat.ofDigitChars_toDigits (by decide) (by decide)

def isHexDigit : CodePoint → Bool :=
  CodePoint.satisfies fun c => c.isDigit || ('a' ≤ c && c ≤ 'f') || ('A' ≤ c && c ≤ 'F')

def hexDigitValue (c : CodePoint) : Nat :=
  if c.isDigit then c.toNat - 48
  else if 97 ≤ c.toNat then c.toNat - 87
  else c.toNat - 55

def joined (separator : CodePoint) (pieces : List Text) : Text := [separator].intercalate pieces

@[simp] theorem joined_nil (c : CodePoint) : joined c [] = [] := rfl

@[simp] theorem joined_singleton (c : CodePoint) (t : Text) : joined c [t] = t := by
  simp [joined, List.intercalate]

@[simp] theorem joined_cons_cons (c : CodePoint) (t u : Text) (ts : List Text) :
    joined c (t :: u :: ts) = t ++ c :: joined c (u :: ts) := by
  simp [joined, List.intercalate]

def pieces (separator : CodePoint) : Text → List Text
  | [] => [[]]
  | c :: rest =>
      if c = separator then [] :: pieces separator rest
      else match pieces separator rest with
        | p :: ps => (c :: p) :: ps
        | [] => [[c]]

def octetCount (t : Text) : Nat := t.foldr (fun c n => c.octetCount + n) 0

def listed (pieces : List Text) : Text := (of ", ").intercalate pieces

end Text

end UriTemplate
