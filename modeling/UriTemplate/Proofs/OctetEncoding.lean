import Mathlib.Data.List.Basic
import UriTemplate.Proofs.Decoding

namespace UriTemplate.Percent

def encodeOctet (keep : CodePoint → Bool) (b : UInt8) : Text :=
  if b.toNat < 128 && keep (CodePoint.ofNat b.toNat) then [CodePoint.ofNat b.toNat] else triplet b

def isUpperHexDigit : CodePoint → Bool :=
  CodePoint.satisfies fun c => c.isDigit || ('A' ≤ c && c ≤ 'F')

inductive Encoded (keep : CodePoint → Bool) : Text → Prop
  | nil : Encoded keep []
  | char {c : CodePoint} {t : Text} : keep c → Encoded keep t → Encoded keep (c :: t)
  | triplet {a b : CodePoint} {t : Text} : isUpperHexDigit a → isUpperHexDigit b → Encoded keep t →
      Encoded keep (.char '%' :: a :: b :: t)

structure Encodes (keep : CodePoint → Bool) (f : List Char → Text) : Prop where
  octetwise : ∀ cs, f cs = (cs.flatMap String.utf8EncodeChar).flatMap (encodeOctet keep)
  append : ∀ s t, f (s ++ t) = f s ++ f t
  octets_eq : ∀ cs, octets? (f cs) = some (cs.flatMap String.utf8EncodeChar)
  injective : Function.Injective f
  percent : f ['%'] = [.char '%', .char '2', .char '5']
  encoded : ∀ cs, Encoded keep (f cs)

theorem utf8EncodeChar_of_lt {c : Char} (h : c.toNat < 128) :
    String.utf8EncodeChar c = [UInt8.ofNat c.toNat] :=
  if_pos (Nat.le_of_lt_succ h)

theorem le_of_mem_utf8EncodeChar {c : Char} (h : 128 ≤ c.toNat) {b : UInt8}
    (hb : b ∈ String.utf8EncodeChar c) : 128 ≤ b.toNat := by
  have hc : ¬ c.val.toNat ≤ 127 := Nat.not_le.2 h
  simp only [String.utf8EncodeChar, if_neg hc] at hb
  split at hb
  · simp only [List.mem_cons, List.not_mem_nil, or_false] at hb
    obtain rfl | rfl := hb <;> rw [UInt8.toNat_ofNat'] <;> omega
  split at hb
  · simp only [List.mem_cons, List.not_mem_nil, or_false] at hb
    obtain rfl | rfl | rfl := hb <;> rw [UInt8.toNat_ofNat'] <;> omega
  · simp only [List.mem_cons, List.not_mem_nil, or_false] at hb
    obtain rfl | rfl | rfl | rfl := hb <;> rw [UInt8.toNat_ofNat'] <;> omega

theorem flatMap_encodeOctet {keep : CodePoint → Bool} {c : Char}
    (hk : keep (.char c) → c.toNat < 128) :
    (String.utf8EncodeChar c).flatMap (encodeOctet keep) =
      if keep (.char c) then [.char c] else (String.utf8EncodeChar c).flatMap triplet := by
  by_cases hc : c.toNat < 128
  · have hn : (UInt8.ofNat c.toNat).toNat = c.toNat := by
      rw [UInt8.toNat_ofNat']
      omega
    have hchar : CodePoint.ofNat c.toNat = .char c := CodePoint.ofNat_toNat (.char c)
    simp only [utf8EncodeChar_of_lt hc, List.flatMap_singleton, encodeOctet, hn, hchar, hc,
      decide_true, Bool.true_and]
  · rw [if_neg fun h => hc (hk h)]
    apply List.flatMap_congr
    intro b hb
    have hle := le_of_mem_utf8EncodeChar (Nat.not_lt.1 hc) hb
    simp [encodeOctet, Nat.not_lt.2 hle]

/-- As long as only characters of one octet stand for themselves, encoding the characters is
encoding the octets. -/
theorem encode_eq_octetwise {keep : CodePoint → Bool} (hk : ∀ c, keep c → c.toNat < 128)
    (cs : List Char) :
    encode keep cs = (cs.flatMap String.utf8EncodeChar).flatMap (encodeOctet keep) := by
  rw [encode, List.flatMap_assoc]
  exact List.flatMap_congr fun c _ => (flatMap_encodeOctet (hk (.char c))).symm

theorem encode_injective {keep : CodePoint → Bool} (hk : keep (.char '%') = false) :
    Function.Injective (encode keep) := by
  intro s t h
  have hs := decode?_encode hk s
  rw [h, decode?_encode hk t] at hs
  exact (Text.ofChars_injective (Option.some.inj hs)).symm

theorem isUpperHexDigit_hexDigit {n : Nat} (h : n < 16) : isUpperHexDigit (hexDigit n) := by
  revert n
  decide

theorem Encoded.append {keep : CodePoint → Bool} {s t : Text} (hs : Encoded keep s)
    (ht : Encoded keep t) : Encoded keep (s ++ t) := by
  induction hs with
  | nil => exact ht
  | char hc _ ih => exact .char hc ih
  | triplet ha hb _ ih => exact .triplet ha hb ih

theorem encoded_triplets (keep : CodePoint → Bool) (bs : List UInt8) :
    Encoded keep (bs.flatMap triplet) := by
  induction bs with
  | nil => exact .nil
  | cons b bs ih =>
      have hb := b.toNat_lt
      exact .triplet (isUpperHexDigit_hexDigit (by omega)) (isUpperHexDigit_hexDigit (by omega)) ih

theorem encoded_encode (keep : CodePoint → Bool) (cs : List Char) :
    Encoded keep (encode keep cs) := by
  induction cs with
  | nil => exact .nil
  | cons c cs ih =>
      rw [encode_cons]
      apply Encoded.append _ ih
      cases hc : keep (.char c) with
      | true => simpa [encode, hc] using Encoded.char hc .nil
      | false => simpa [encode, hc] using encoded_triplets keep _

theorem encode_percent {keep : CodePoint → Bool} (hk : keep (.char '%') = false) :
    encode keep ['%'] = [.char '%', .char '2', .char '5'] := by
  simp only [encode, List.flatMap_singleton, hk, Bool.false_eq_true, if_false]
  decide

theorem encodes_encode {keep : CodePoint → Bool} (hk : ∀ c, keep c → c.toNat < 128)
    (hp : keep (.char '%') = false) : Encodes keep (encode keep) where
  octetwise := encode_eq_octetwise hk
  append := encode_append keep
  octets_eq := octets?_encode_eq hp
  injective := encode_injective hp
  percent := encode_percent hp
  encoded := encoded_encode keep

theorem lt_of_isAlphanum {c : Char} (h : c.isAlphanum) : c.toNat < 128 := by
  have hlt (d : Char) (hd : d.toNat < 128) (hc : c.val ≤ d.val) : c.toNat < 128 :=
    Nat.lt_of_le_of_lt (UInt32.le_iff_toNat_le.1 hc) hd
  obtain h | h := Bool.or_eq_true_iff.1 h
  · obtain h | h := Bool.or_eq_true_iff.1 h
    · exact hlt 'Z' (by decide) (of_decide_eq_true h).2
    · exact hlt 'z' (by decide) (of_decide_eq_true (Bool.and_eq_true_iff.1 h).2)
  · exact hlt '9' (by decide) (of_decide_eq_true (Bool.and_eq_true_iff.1 h).2)

theorem lt_of_isUnreserved {c : CodePoint} (h : isUnreserved c) : c.toNat < 128 := by
  obtain h | h := Bool.or_eq_true_iff.1 h
  · obtain ⟨d, rfl, hd⟩ := CodePoint.satisfies_iff.1 h
    exact lt_of_isAlphanum hd
  · have hall : (Text.of "-._~").all fun d => d.toNat < 128 := by decide
    exact of_decide_eq_true (List.all_eq_true.1 hall c (of_decide_eq_true h))

theorem lt_of_isReserved {c : CodePoint} (h : isReserved c) : c.toNat < 128 := by
  have hall : reservedChars.all fun d => d.toNat < 128 := by decide
  exact of_decide_eq_true (List.all_eq_true.1 hall c (of_decide_eq_true h))

theorem not_isUnreserved_of_isReserved {c : CodePoint} (h : isReserved c) :
    isUnreserved c = false := by
  cases hu : isUnreserved c with
  | false => rfl
  | true => simp [not_isReserved_of_isUnreserved hu] at h

theorem mem_triplets {bs : List UInt8} {c : CodePoint} (h : c ∈ bs.flatMap triplet) :
    c = .char '%' ∨ isUnreserved c := by
  obtain ⟨b, -, hb⟩ := List.mem_flatMap.1 h
  exact mem_triplet hb

theorem exists_ofChars_encode (keep : CodePoint → Bool) (cs : List Char) :
    ∃ ds, encode keep cs = Text.ofChars ds := by
  apply Text.exists_ofChars
  intro c hc
  obtain ⟨d, -, hc⟩ := List.mem_flatMap.1 hc
  split at hc
  · exact ⟨d, List.mem_singleton.1 hc⟩
  · obtain ⟨b, -, hb⟩ := List.mem_flatMap.1 hc
    simp only [triplet, List.mem_cons, List.not_mem_nil, or_false] at hb
    obtain hb | hb | hb := hb <;> exact ⟨_, hb⟩

theorem encode_eq_self {keep : CodePoint → Bool} {cs : List Char} (h : ∀ c ∈ cs, keep (.char c)) :
    encode keep cs = Text.ofChars cs := by
  induction cs with
  | nil => rfl
  | cons c cs ih =>
      obtain ⟨hc, hcs⟩ := List.forall_mem_cons.1 h
      rw [encode_cons, ih hcs]
      simp [encode, hc, Text.ofChars]

/-- A second encoding that leaves the triplets of the first encodes what the first one left. -/
theorem encode_encode {keep keep' : CodePoint → Bool} (hp : keep (.char '%'))
    (hu : ∀ c, isUnreserved c → keep c) (cs : List Char) {ds : List Char}
    (hd : encode keep' cs = Text.ofChars ds) :
    encode keep ds = encode (fun c => keep' c && keep c) cs := by
  induction cs generalizing ds with
  | nil =>
      cases ds with
      | nil => rfl
      | cons => contradiction
  | cons c cs ih =>
      obtain ⟨es, hes⟩ := exists_ofChars_encode keep' [c]
      obtain ⟨fs, hfs⟩ := exists_ofChars_encode keep' cs
      obtain rfl : es ++ fs = ds := by
        apply Text.ofChars_injective
        rw [← hd, encode_cons, hes, hfs, Text.ofChars_append]
      rw [encode_append, ih hfs, encode_cons _ c cs]
      congr 1
      cases hc : keep' (.char c) with
      | true =>
          have hone : Text.ofChars [c] = Text.ofChars es := by
            rw [← hes]
            simp [encode, hc, Text.ofChars]
          obtain rfl := Text.ofChars_injective hone
          simp [encode, hc]
      | false =>
          have hes' : (String.utf8EncodeChar c).flatMap triplet = Text.ofChars es := by
            simpa [encode, hc] using hes
          have hs : ∀ d ∈ es, keep (.char d) := by
            intro d hd
            have hmem : CodePoint.char d ∈ Text.ofChars es := List.mem_map_of_mem hd
            obtain hd | hd := mem_triplets (hes' ▸ hmem)
            · rw [hd]
              exact hp
            · exact hu _ hd
          rw [encode_eq_self hs, ← hes']
          simp [encode, hc]

/-- Characters that stand for themselves and in no triplet are those of the text, in its order. -/
theorem filter_encode {keep p : CodePoint → Bool} (hk : ∀ c, p c → keep c)
    (hp : p (.char '%') = false) (hu : ∀ c, isUnreserved c → p c = false) (cs : List Char) :
    (encode keep cs).filter p = (Text.ofChars cs).filter p := by
  have hnil (bs : List UInt8) : (bs.flatMap triplet).filter p = [] := by
    rw [List.filter_eq_nil_iff]
    intro d hd
    obtain rfl | hd := mem_triplets hd
    · simp [hp]
    · simp [hu d hd]
  induction cs with
  | nil => rfl
  | cons c cs ih =>
      have hone : (encode keep [c]).filter p = [CodePoint.char c].filter p := by
        cases hc : keep (.char c) with
        | true => simp [encode, hc]
        | false =>
            have hpc : ¬ p (.char c) := fun h => by simp [hk _ h] at hc
            simp [encode, hc, hpc, hnil]
      rw [encode_cons, List.filter_append, ih, hone, ← List.filter_append]
      rfl

theorem encodes_component : Encodes isUnreserved component :=
  encodes_encode (fun _ => lt_of_isUnreserved) rfl

theorem encodes_withReserved : Encodes (fun c => isUnreserved c || isReserved c) withReserved := by
  refine encodes_encode (fun c hc => ?_) rfl
  obtain hc | hc := Bool.or_eq_true_iff.1 hc
  · exact lt_of_isUnreserved hc
  · exact lt_of_isReserved hc

theorem filter_withReserved (cs : List Char) :
    (withReserved cs).filter isReserved = (Text.ofChars cs).filter isReserved := by
  refine filter_encode (fun c hc => ?_) rfl (fun c => not_isReserved_of_isUnreserved) cs
  rw [hc, Bool.or_true]

theorem encode_of_withReserved {cs ds : List Char} (hd : withReserved cs = Text.ofChars ds) :
    encode (fun c => !isReserved c) ds = component cs := by
  have hu (c : CodePoint) (hc : isUnreserved c) : (!isReserved c) = true := by
    rw [not_isReserved_of_isUnreserved hc, Bool.not_false]
  rw [encode_encode rfl hu cs hd]
  refine encode_congr fun c _ => ?_
  cases hr : isReserved (.char c) with
  | false => simp
  | true => simp [not_isUnreserved_of_isReserved hr]

/-- Texts of characters are encoded, and no others. Both encodings write octets as triplets and are
undone by reading these. One leaves the reserved characters, in their order, and encoding just these
gives the other. -/
theorem encodes_component_reserved :
    (∀ cs, encodeComponent (.ofChars cs) = .ok (component cs) ∧
      encodeReserved (.ofChars cs) = .ok (withReserved cs)) ∧
    Encodes isUnreserved component ∧
    Encodes (fun c => isUnreserved c || isReserved c) withReserved ∧
    (∀ cs, (withReserved cs).filter isReserved = (Text.ofChars cs).filter isReserved) ∧
    (∀ cs, ∃ ds, withReserved cs = .ofChars ds ∧
      encode (fun c => !isReserved c) ds = component cs) ∧
    ∀ t : Text, t.characters? = none →
      encodeComponent t = .error (.unencodable t) ∧ encodeReserved t = .error (.unencodable t) := by
  refine ⟨fun cs => ⟨?_, ?_⟩, encodes_component, encodes_withReserved, filter_withReserved,
    fun cs => ?_, fun t ht => ?_⟩
  · exact encodeComponent_eq_ok_iff.2 ⟨cs, rfl, rfl⟩
  · exact encodeReserved_eq_ok_iff.2 ⟨cs, rfl, rfl⟩
  · obtain ⟨ds, hd⟩ := exists_ofChars_encode (fun c => isUnreserved c || isReserved c) cs
    exact ⟨ds, hd, encode_of_withReserved hd⟩
  · rw [encodeComponent, encodeReserved, Text.encodable_of_none ht]
    exact ⟨rfl, rfl⟩

end UriTemplate.Percent
