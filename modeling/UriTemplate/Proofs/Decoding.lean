import UriTemplate.Proofs.Encoding
import UriTemplate.Proofs.Pieces

namespace UriTemplate.Percent

theorem isHexDigit_hexDigit {n : Nat} (h : n < 16) : Text.isHexDigit (hexDigit n) := by
  revert n
  decide

theorem hexDigitValue_hexDigit {n : Nat} (h : n < 16) : Text.hexDigitValue (hexDigit n) = n := by
  revert n
  decide

theorem octets?_triplet (b : UInt8) (rest : Text) :
    octets? (triplet b ++ rest) = (octets? rest).map (b :: ·) := by
  have hb := b.toNat_lt
  have hhi : b.toNat / 16 < 16 := by omega
  have hlo : b.toNat % 16 < 16 := by omega
  simp only [triplet, List.cons_append, List.nil_append, octets?, isHexDigit_hexDigit hhi,
    isHexDigit_hexDigit hlo, hexDigitValue_hexDigit hhi, hexDigitValue_hexDigit hlo,
    Bool.and_self, if_true, Nat.div_add_mod, UInt8.ofNat_toNat]

theorem octets?_triplets (bs : List UInt8) (rest : Text) :
    octets? (bs.flatMap triplet ++ rest) = (octets? rest).map (bs ++ ·) := by
  induction bs with
  | nil => simp
  | cons b bs ih =>
      rw [List.flatMap_cons, List.append_assoc, octets?_triplet, ih, Option.map_map]
      rfl

theorem octets?_cons {c : Char} (h : c ≠ '%') (rest : Text) :
    octets? (.char c :: rest) = (octets? rest).map (String.utf8EncodeChar c ++ ·) := by
  rw [octets?]
  rintro hi lo rest - rfl
  contradiction

theorem octets?_encode {keep : CodePoint → Bool} (hk : keep (.char '%') = false) (cs : List Char)
    (rest : Text) :
    octets? (encode keep cs ++ rest) =
      (octets? rest).map (cs.flatMap String.utf8EncodeChar ++ ·) := by
  induction cs with
  | nil => simp [encode]
  | cons c cs ih =>
      have hmap : (octets? rest).map ((c :: cs).flatMap String.utf8EncodeChar ++ ·) =
          (octets? (encode keep cs ++ rest)).map (String.utf8EncodeChar c ++ ·) := by
        rw [ih, Option.map_map]
        simp [Function.comp_def]
      rw [encode_cons, List.append_assoc, hmap]
      simp only [encode, List.flatMap_cons, List.flatMap_nil, List.append_nil]
      split
      next hc =>
        have hne : c ≠ '%' := by
          rintro rfl
          simp [hk] at hc
        exact octets?_cons hne _
      next => exact octets?_triplets _ _

theorem octets?_encode_eq {keep : CodePoint → Bool} (hk : keep (.char '%') = false)
    (cs : List Char) : octets? (encode keep cs) = some (cs.flatMap String.utf8EncodeChar) := by
  simpa [octets?] using octets?_encode hk cs []

theorem ofOctets?_flatMap_utf8EncodeChar (cs : List Char) :
    ofOctets? (cs.flatMap String.utf8EncodeChar) = some (.ofChars cs) := by
  have hb : ByteArray.mk (cs.flatMap String.utf8EncodeChar).toArray = cs.utf8Encode :=
    ByteArray.ext List.data_toByteArray.symm
  rw [ofOctets?, hb, List.utf8Decode?_utf8Encode]
  rfl

theorem decode?_encode {keep : CodePoint → Bool} (hk : keep (.char '%') = false)
    (cs : List Char) : decode? (encode keep cs) = some (.ofChars cs) := by
  rw [decode?, octets?_encode_eq hk, Option.bind_some, ofOctets?_flatMap_utf8EncodeChar]

theorem decode?_component (cs : List Char) : decode? (component cs) = some (.ofChars cs) :=
  decode?_encode rfl cs

theorem map_decode?_component (ts : List (List Char)) :
    (ts.map component).map decode? = ts.map fun cs => some (.ofChars cs) := by
  rw [List.map_map]
  exact List.map_congr_left fun t _ => decode?_component t

/-- Encoded texts that were joined are read back unless the separator stands in one of them. -/
theorem map_decode?_pieces_iff {ts : List (List Char)} (hne : ts ≠ []) (c : CodePoint) :
    (Text.pieces c (Text.joined c (ts.map component))).map decode? =
        (ts.map fun cs => some (.ofChars cs)) ↔
      ∀ u ∈ ts, c ∉ component u := by
  have hne' : ts.map component ≠ [] := by simpa using hne
  constructor
  · intro h
    have hlen : (Text.pieces c (Text.joined c (ts.map component))).length =
        (ts.map component).length := by
      simpa using congrArg List.length h
    rw [Text.length_pieces_joined_iff hne'] at hlen
    intro u hu
    exact hlen _ (List.mem_map_of_mem hu)
  · intro h
    rw [Text.pieces_joined hne' (List.forall_mem_map.2 h), map_decode?_component]

end UriTemplate.Percent
