import UriTemplate.Part.Grammar

namespace UriTemplate.Parser

open Grammar

theorem ne_percent_of_isWordChar {c : CodePoint} (h : isWordChar c) : c ≠ .char '%' := by
  rintro rfl
  revert h
  decide

theorem isWordChar_of_isAlphanum {c : Char} (h : c.isAlphanum) : isWordChar (.char c) :=
  Bool.or_eq_true_iff.2 (.inl h)

theorem isWordChar_of_isDigit {c : CodePoint} (h : c.isDigit) : isWordChar c := by
  obtain ⟨d, rfl, hd⟩ := CodePoint.satisfies_iff.1 h
  exact isWordChar_of_isAlphanum (Bool.or_eq_true_iff.2 (.inr hd))

theorem isWordChar_of_isHexDigit {c : CodePoint} (h : Text.isHexDigit c) : isWordChar c := by
  obtain ⟨d, rfl, hd⟩ := CodePoint.satisfies_iff.1 h
  apply isWordChar_of_isAlphanum
  simp only [Bool.or_eq_true, Bool.and_eq_true, decide_eq_true_eq] at hd
  obtain (hd | ⟨ha, hf⟩) | ⟨ha, hf⟩ := hd
  · exact Bool.or_eq_true_iff.2 (.inr hd)
  · have hz : d ≤ 'z' := Char.le_trans hf (by decide)
    have hl : d.isLower := Bool.and_eq_true_iff.2 ⟨decide_eq_true ha, decide_eq_true hz⟩
    exact Bool.or_eq_true_iff.2 (.inl (Bool.or_eq_true_iff.2 (.inr hl)))
  · have hz : d ≤ 'Z' := Char.le_trans hf (by decide)
    have hu : d.isUpper := decide_eq_true ⟨ha, hz⟩
    exact Bool.or_eq_true_iff.2 (.inl (Bool.or_eq_true_iff.2 (.inl hu)))

theorem mem_nameUnit {u : Text} (h : NameUnit u) {c : CodePoint} (hc : c ∈ u) :
    isWordChar c ∨ c = .char '%' := by
  cases h with
  | word hw => exact .inl (List.mem_singleton.1 hc ▸ hw)
  | triplet ha hb =>
      simp only [List.mem_cons, List.not_mem_nil, or_false] at hc
      obtain rfl | rfl | rfl := hc
      · exact .inr rfl
      · exact .inl (isWordChar_of_isHexDigit ha)
      · exact .inl (isWordChar_of_isHexDigit hb)

theorem mem_name {n : Text} (h : Name n) {c : CodePoint} (hc : c ∈ n) :
    isWordChar c ∨ c = .char '%' ∨ c = .char '.' := by
  induction h with
  | unit hu => exact (mem_nameUnit hu hc).imp_right .inl
  | next hu _ ih =>
      obtain hc | hc := List.mem_append.1 hc
      · exact (mem_nameUnit hu hc).imp_right .inl
      · exact ih hc
  | dotted hu _ ih =>
      obtain hc | hc := List.mem_append.1 hc
      · exact (mem_nameUnit hu hc).imp_right .inl
      · obtain rfl | hc := List.mem_cons.1 hc
        · exact .inr (.inr rfl)
        · exact ih hc

theorem notMem_name {n : Text} (h : Name n) {c : CodePoint} (hc : isWordChar c = false)
    (hp : c ≠ .char '%') (hd : c ≠ .char '.') : c ∉ n := by
  intro hm
  obtain hw | hw | hw := mem_name h hm
  · simp [hc] at hw
  · exact hp hw
  · exact hd hw

def StartsName (s : Text) : Prop := ∃ c ∈ s.head?, isWordChar c ∨ c = .char '%'

theorem StartsName.append {s : Text} (h : StartsName s) (t : Text) : StartsName (s ++ t) := by
  obtain ⟨c, hc, h⟩ := h
  cases s with
  | nil => contradiction
  | cons d s => exact ⟨c, hc, h⟩

theorem startsName_of_nameUnit {u : Text} (h : NameUnit u) : StartsName u := by
  cases h with
  | word hc => exact ⟨_, rfl, .inl hc⟩
  | triplet => exact ⟨_, rfl, .inr rfl⟩

theorem startsName_of_name {n : Text} (h : Name n) : StartsName n := by
  cases h with
  | unit hu => exact startsName_of_nameUnit hu
  | next hu _ | dotted hu _ => exact (startsName_of_nameUnit hu).append _

end UriTemplate.Parser
