import UriTemplate.Text

namespace UriTemplate.Text

theorem exists_digitChar {c : Char} (h : c.isDigit) : ∃ d, d < 10 ∧ c = d.digitChar := by
  obtain ⟨hl, hu⟩ := Char.isDigit_iff_toNat.1 h
  have h0 : '0'.toNat = 48 := rfl
  have h9 : '9'.toNat = 57 := rfl
  have hd : c.toNat - 48 < 10 := by omega
  refine ⟨c.toNat - 48, hd, ?_⟩
  rw [← Char.toNat_inj, Nat.toNat_digitChar_of_lt_ten hd]
  omega

theorem exists_ofChars_of_isDigit {t : Text} (h : ∀ c ∈ t, c.isDigit) :
    ∃ cs, t = ofChars cs ∧ ∀ c ∈ cs, c.isDigit := by
  obtain ⟨cs, rfl⟩ := exists_ofChars fun c hc => (CodePoint.satisfies_iff.1 (h c hc)).imp
    fun d hd => hd.1
  exact ⟨cs, rfl, fun c hc => h (.char c) (List.mem_map_of_mem hc)⟩

/-- Digits behind a number that is not zero are written on as they stand. -/
theorem toDigits_ofDigitChars {ds : List Char} (hd : ∀ c ∈ ds, c.isDigit) {n : Nat} (hn : 0 < n) :
    Nat.toDigits 10 (Nat.ofDigitChars 10 ds n) = Nat.toDigits 10 n ++ ds := by
  induction ds generalizing n with
  | nil => simp
  | cons c ds ih =>
      obtain ⟨d, hlt, rfl⟩ := exists_digitChar (hd c List.mem_cons_self)
      rw [Nat.ofDigitChars_cons_digitChar_of_lt_ten hlt,
        ih (fun c hc => hd c (List.mem_cons_of_mem _ hc)) (by omega),
        ← Nat.toDigits_append_toDigits (by decide) hn hlt, Nat.toDigits_of_lt_base hlt,
        List.append_assoc, List.singleton_append]

theorem toDigits_value {ds : List Char} (hd : ∀ c ∈ ds, c.isDigit)
    (hpos : 0 < Nat.ofDigitChars 10 ds 0) :
    Nat.toDigits 10 (Nat.ofDigitChars 10 ds 0) = ds.dropWhile (· = '0') := by
  induction ds with
  | nil => exact absurd hpos (Nat.lt_irrefl 0)
  | cons c ds ih =>
      have hds : ∀ c ∈ ds, c.isDigit := fun c hc => hd c (List.mem_cons_of_mem _ hc)
      obtain ⟨d, hlt, rfl⟩ := exists_digitChar (hd c List.mem_cons_self)
      rw [Nat.ofDigitChars_cons_digitChar_of_lt_ten hlt] at hpos ⊢
      cases d with
      | zero => exact ih hds hpos
      | succ d =>
          rw [toDigits_ofDigitChars hds (by omega), Nat.mul_zero, Nat.zero_add,
            Nat.toDigits_of_lt_base hlt, List.singleton_append, List.dropWhile_cons_of_neg]
          simp

theorem ofNat_digitsValue {ds : Text} (hd : ∀ c ∈ ds, c.isDigit) (hpos : 0 < digitsValue ds) :
    ofNat (digitsValue ds) = ds.dropWhile (· = .char '0') := by
  obtain ⟨cs, rfl, hcs⟩ := exists_ofChars_of_isDigit hd
  rw [digitsValue_ofChars] at hpos ⊢
  rw [ofNat, toDigits_value hcs hpos, ofChars, ofChars, List.dropWhile_map]
  simp [Function.comp_def]

/-- Only zeros have no value. -/
theorem eq_replicate_of_value {ds : List Char} (hd : ∀ c ∈ ds, c.isDigit)
    (h : Nat.ofDigitChars 10 ds 0 = 0) : ds = List.replicate ds.length '0' := by
  induction ds with
  | nil => rfl
  | cons c ds ih =>
      have hds : ∀ c ∈ ds, c.isDigit := fun c hc => hd c (List.mem_cons_of_mem _ hc)
      obtain ⟨d, hlt, rfl⟩ := exists_digitChar (hd c List.mem_cons_self)
      rw [Nat.ofDigitChars_cons_digitChar_of_lt_ten hlt,
        Nat.ofDigitChars_eq_ofDigitChars_zero] at h
      obtain ⟨hhead, htail⟩ := Nat.add_eq_zero_iff.1 h
      have hpow : 0 < 10 ^ ds.length := Nat.pow_pos (by decide)
      obtain rfl : d = 0 := by
        obtain hz | hz := Nat.mul_eq_zero.1 hhead <;> omega
      rw [List.length_cons, List.replicate_succ, ← ih hds htail]
      rfl

theorem eq_replicate_of_digitsValue {ds : Text} (hd : ∀ c ∈ ds, c.isDigit)
    (h : digitsValue ds = 0) : ds = List.replicate ds.length (.char '0') := by
  obtain ⟨cs, rfl, hcs⟩ := exists_ofChars_of_isDigit hd
  rw [digitsValue_ofChars] at h
  have hzeros := congrArg ofChars (eq_replicate_of_value hcs h)
  simpa [ofChars] using hzeros

theorem ofNat_ne_nil (n : Nat) : ofNat n ≠ [] := by
  rw [ofNat, ofChars, ne_eq, List.map_eq_nil_iff]
  exact Nat.toDigits_ne_nil

theorem length_ofNat_le_iff {n k : Nat} (hk : 0 < k) :
    (ofNat n).length ≤ k ↔ n < Nat.pow 10 k := by
  rw [ofNat, ofChars, List.length_map]
  exact Nat.length_toDigits_le_iff (by decide) hk

theorem isDigit_of_mem_ofNat {n : Nat} {c : CodePoint} (h : c ∈ ofNat n) : c.isDigit := by
  obtain ⟨d, hd, rfl⟩ := List.mem_map.1 h
  exact Nat.isDigit_of_mem_toDigits (by decide) (by decide) hd

end UriTemplate.Text
