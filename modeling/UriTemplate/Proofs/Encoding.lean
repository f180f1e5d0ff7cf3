import UriTemplate.Expansion.Reference
import UriTemplate.Proofs.Outcome

namespace UriTemplate.Percent

theorem encode_cons (keep : CodePoint → Bool) (c : Char) (cs : List Char) :
    encode keep (c :: cs) = encode keep [c] ++ encode keep cs :=
  encode_append keep [c] cs

theorem encode_congr {keep keep' : CodePoint → Bool} {cs : List Char}
    (h : ∀ c ∈ cs, keep (.char c) = keep' (.char c)) : encode keep cs = encode keep' cs := by
  induction cs with
  | nil => rfl
  | cons c cs ih =>
      obtain ⟨hc, hcs⟩ := List.forall_mem_cons.1 h
      rw [encode_cons, encode_cons keep', ih hcs]
      simp [encode, hc]

theorem encode_ne_nil (keep : CodePoint → Bool) {cs : List Char} (h : cs ≠ []) :
    encode keep cs ≠ [] := by
  cases cs with
  | nil => contradiction
  | cons c cs =>
      rw [encode_cons]
      cases hk : keep (.char c) with
      | true => simp [encode, hk]
      | false =>
          have hc : String.utf8EncodeChar c ≠ [] := String.utf8EncodeChar_ne_nil
          obtain ⟨b, bs, hb⟩ := List.exists_cons_of_ne_nil hc
          simp [encode, hk, hb, triplet]

theorem isUnreserved_hexDigit {n : Nat} (h : n < 16) : isUnreserved (hexDigit n) := by
  revert n
  decide

theorem mem_triplet {b : UInt8} {c : CodePoint} (h : c ∈ triplet b) :
    c = .char '%' ∨ isUnreserved c := by
  have hb := b.toNat_lt
  simp only [triplet, List.mem_cons, List.not_mem_nil, or_false] at h
  obtain rfl | rfl | rfl := h
  · exact .inl rfl
  · exact .inr (isUnreserved_hexDigit (by omega))
  · exact .inr (isUnreserved_hexDigit (by omega))

theorem mem_encode {keep : CodePoint → Bool} {cs : List Char} {c : CodePoint}
    (h : c ∈ encode keep cs) : keep c ∨ c = .char '%' ∨ isUnreserved c := by
  obtain ⟨d, -, hc⟩ := List.mem_flatMap.1 h
  split at hc
  next hk =>
    obtain rfl := List.mem_singleton.1 hc
    exact .inl hk
  next =>
    obtain ⟨b, -, hb⟩ := List.mem_flatMap.1 hc
    exact .inr (mem_triplet hb)

/-- A character that stands for itself and in no triplet is as good as not encoded. -/
theorem mem_encode_iff {keep : CodePoint → Bool} {c : CodePoint} (hk : keep c)
    (hc : ∀ b, c ∉ triplet b) {cs : List Char} : c ∈ encode keep cs ↔ c ∈ Text.ofChars cs := by
  rw [encode, List.mem_flatMap, Text.ofChars, List.mem_map]
  constructor
  · rintro ⟨d, hd, h⟩
    split at h
    · exact ⟨d, hd, (List.mem_singleton.1 h).symm⟩
    · obtain ⟨b, -, hb⟩ := List.mem_flatMap.1 h
      exact absurd hb (hc b)
  · rintro ⟨d, hd, rfl⟩
    refine ⟨d, hd, ?_⟩
    rw [if_pos hk]
    exact List.mem_singleton_self _

theorem hexDigit_ne_dot {n : Nat} (h : n < 16) : hexDigit n ≠ .char '.' := by
  revert n
  decide

theorem dot_mem_component_iff {cs : List Char} :
    .char '.' ∈ component cs ↔ '.' ∈ cs := by
  rw [← Text.mem_ofChars]
  apply mem_encode_iff rfl
  intro b h
  have hb := b.toNat_lt
  simp only [triplet, List.mem_cons, List.not_mem_nil, or_false] at h
  obtain h | h | h := h
  · contradiction
  · exact hexDigit_ne_dot (by omega) h.symm
  · exact hexDigit_ne_dot (by omega) h.symm

theorem not_isReserved_of_isUnreserved {c : CodePoint} (h : isUnreserved c) :
    isReserved c = false := by
  have hall : reservedChars.all fun d => !isUnreserved d := by decide
  cases hr : isReserved c with
  | false => rfl
  | true =>
      have hc : c ∈ reservedChars := by simpa [isReserved] using hr
      have hc' := List.all_eq_true.1 hall c hc
      simp [h] at hc'

theorem not_isReserved_of_mem_component {cs : List Char} {c : CodePoint} (h : c ∈ component cs) :
    isReserved c = false := by
  obtain h | rfl | h := mem_encode h
  · exact not_isReserved_of_isUnreserved h
  · rfl
  · exact not_isReserved_of_isUnreserved h

theorem notMem_component {c : CodePoint} (hc : isReserved c) (cs : List Char) :
    c ∉ component cs := by
  intro h
  simp [not_isReserved_of_mem_component h] at hc

theorem mem_withReserved_iff {c : CodePoint} (hc : isReserved c) {cs : List Char} :
    c ∈ withReserved cs ↔ c ∈ Text.ofChars cs := by
  apply mem_encode_iff
  · rw [hc, Bool.or_true]
  · intro b hb
    rcases mem_triplet hb with rfl | hu
    · contradiction
    · simp [not_isReserved_of_isUnreserved hu] at hc

theorem withReserved_eq_component {cs : List Char} (h : ∀ c ∈ cs, isReserved (.char c) = false) :
    withReserved cs = component cs :=
  encode_congr fun c hc => by rw [h c hc, Bool.or_false]

/-- The encoders differ on every text with a reserved character. -/
theorem withReserved_eq_component_iff {cs : List Char} :
    withReserved cs = component cs ↔ ∀ c ∈ cs, isReserved (.char c) = false := by
  constructor
  · intro h c hc
    rw [← Bool.not_eq_true]
    intro hr
    apply notMem_component hr cs
    rw [← h]
    exact (mem_withReserved_iff hr).2 (List.mem_map_of_mem hc)
  · exact withReserved_eq_component

theorem characters_map_eq_ok_iff {f : List Char → Text} {t u : Text} :
    t.encodable.map f = .ok u ↔ ∃ cs, t = Text.ofChars cs ∧ f cs = u := by
  simp only [Outcome.map_eq_ok_iff, Text.encodable_eq_ok_iff]

theorem encodeComponent_eq_ok_iff {t u : Text} :
    encodeComponent t = .ok u ↔ ∃ cs, t = Text.ofChars cs ∧ component cs = u :=
  characters_map_eq_ok_iff

theorem encodeReserved_eq_ok_iff {t u : Text} :
    encodeReserved t = .ok u ↔ ∃ cs, t = Text.ofChars cs ∧ withReserved cs = u :=
  characters_map_eq_ok_iff

end UriTemplate.Percent

namespace UriTemplate.Reference

theorem encodeAround_eq {cs : List Char} (h : '%' ∉ cs) :
    encodeAround cs = Percent.withReserved cs := by
  fun_induction encodeAround cs with
  | case1 => exact absurd List.mem_cons_self h
  | case2 => exact absurd List.mem_cons_self h
  | case3 c cs _ ih =>
      rw [ih fun hm => h (List.mem_cons_of_mem _ hm)]
      exact (Percent.encode_cons _ c cs).symm
  | case4 => rfl

end UriTemplate.Reference
