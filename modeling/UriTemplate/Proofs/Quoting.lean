import UriTemplate.Text.Quoted

namespace UriTemplate.Text

theorem hexDigitValue_digitChar {d : Nat} (h : d < 16) :
    hexDigitValue (.char d.digitChar) = d := by
  revert d
  decide

theorem hexValue_concat (ds : Text) (c : CodePoint) :
    hexValue (ds ++ [c]) = 16 * hexValue ds + hexDigitValue c := by
  rw [hexValue, List.foldl_append]
  rfl

theorem hexValue_toDigits (n : Nat) : hexValue (ofChars (Nat.toDigits 16 n)) = n := by
  induction n using Nat.base_induction 16 (by decide) with
  | single d hd =>
      rw [Nat.toDigits_of_lt_base hd]
      exact (hexValue_concat [] _).trans (by simp [hexValue, hexDigitValue_digitChar hd])
  | digit n d hd hn ih =>
      rw [← Nat.toDigits_append_toDigits (by decide) hn hd, Nat.toDigits_of_lt_base hd,
        ofChars_append]
      exact (hexValue_concat _ _).trans (by rw [ih, hexDigitValue_digitChar hd])

/-- Zeros in front do not count. -/
theorem hexValue_hexDigits (width n : Nat) : hexValue (hexDigits width n) = n := by
  have hzeros (k : Nat) : hexValue (List.replicate k (.char '0')) = 0 := by
    induction k with
    | zero => rfl
    | succ k ih =>
        rw [List.replicate_succ', hexValue_concat, ih]
        rfl
  rw [hexDigits, List.leftpad, hexValue, List.foldl_append]
  rw [← hexValue, hzeros]
  exact hexValue_toDigits n

theorem length_hexDigits {width n : Nat} (h : (Nat.toDigits 16 n).length ≤ width) :
    (hexDigits width n).length = width := by
  rw [hexDigits, List.length_leftpad, ofChars, List.length_map]
  exact Nat.max_eq_left h

/-- The letters that announce a number, and how many digits it has. -/
theorem unescape_number {letter : CodePoint} {ds : Text}
    (h : (letter, ds.length) ∈ [(.char 'x', 2), (.char 'u', 4), (.char 'U', 8)])
    (mark : CodePoint) (s : Text) :
    unescape mark (.char '\\' :: letter :: (ds ++ s)) =
      (unescape mark s).map (CodePoint.ofNat (hexValue ds) :: ·) := by
  simp only [List.mem_cons, List.not_mem_nil, or_false, Prod.mk.injEq] at h
  obtain ⟨rfl, hlen⟩ | ⟨rfl, hlen⟩ | ⟨rfl, hlen⟩ := h
  · match ds, hlen with
    | [_, _], _ => rfl
  · match ds, hlen with
    | [_, _, _, _], _ => rfl
  · match ds, hlen with
    | [_, _, _, _, _, _, _, _], _ => rfl

theorem unescape_hexDigits {letter : CodePoint} {width : Nat} {c : CodePoint}
    (h : (letter, width) ∈ [(.char 'x', 2), (.char 'u', 4), (.char 'U', 8)])
    (hc : (Nat.toDigits 16 c.toNat).length ≤ width) (mark : CodePoint) (s : Text) :
    unescape mark (.char '\\' :: letter :: (hexDigits width c.toNat ++ s)) =
      (unescape mark s).map (c :: ·) := by
  rw [unescape_number (by rwa [length_hexDigits hc]), hexValue_hexDigits, CodePoint.ofNat_toNat]

/-- A character that stands for itself is not the last one, for the closing mark follows. -/
theorem unescape_plain {mark c : CodePoint} (hc : c ≠ .char '\\') {s : Text} (hs : s ≠ []) :
    unescape mark (c :: s) = (unescape mark s).map (c :: ·) := by
  cases s with
  | nil => contradiction
  | cons d s => rw [unescape] <;> simp [hc]

theorem unescape_escaped {mark : CodePoint} (hm : mark = .char '\x27' ∨ mark = .char '"')
    (c : CodePoint) {s : Text} (hs : s ≠ []) :
    unescape mark (escaped mark c ++ s) = (unescape mark s).map (c :: ·) := by
  rw [escaped]
  split
  next h =>
    obtain rfl | rfl := h
    · obtain rfl | rfl := hm <;> rfl
    · rfl
  next hplain =>
    rw [not_or] at hplain
    split
    next h => subst h; rfl
    split
    next h => subst h; rfl
    split
    next h => subst h; rfl
    split
    · exact unescape_plain hplain.2 hs
    -- Each form has room for all the digits that the character's number needs.
    have hwidth {k : Nat} (hk : 0 < k) :=
      (Nat.length_toDigits_le_iff (b := 16) (n := c.toNat) (by decide) hk).2
    split
    next h => exact unescape_hexDigits (by simp) (hwidth (by decide) h) mark s
    split
    next h => exact unescape_hexDigits (by simp) (hwidth (by decide) h) mark s
    · exact unescape_hexDigits (by simp) (hwidth (by decide) c.toNat_lt) mark s

theorem unescape_flatMap {mark : CodePoint} (hm : mark = .char '\x27' ∨ mark = .char '"')
    (t : Text) :
    unescape mark (t.flatMap (escaped mark) ++ [mark]) = some t := by
  induction t with
  | nil =>
      obtain rfl | rfl := hm <;> rfl
  | cons c t ih =>
      have hne : t.flatMap (escaped mark) ++ [mark] ≠ [] := by simp
      rw [List.flatMap_cons, List.append_assoc, unescape_escaped hm c hne, ih, Option.map_some]

theorem quoteMark_eq (t : Text) : quoteMark t = .char '\x27' ∨ quoteMark t = .char '"' := by
  rw [quoteMark]
  split
  · exact .inr rfl
  · exact .inl rfl

theorem unquote?_quoted (t : Text) : unquote? (quoted t) = some t := by
  rw [quoted, List.cons_append, unquote?]
  exact unescape_flatMap (quoteMark_eq t) t

end UriTemplate.Text
