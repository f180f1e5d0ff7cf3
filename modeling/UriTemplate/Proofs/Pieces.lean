import UriTemplate.Text

namespace UriTemplate.Text

theorem pieces_eq_splitOn (c : CodePoint) (t : Text) : pieces c t = List.splitOn c t := by
  induction t with
  | nil => simp [pieces]
  | cons d t ih =>
      rw [List.splitOn_eq_splitOnP] at ih ⊢
      rw [pieces, ih, List.splitOnP_cons_eq_if_modifyHead]
      by_cases h : d = c
      · simp [h]
      · cases hs : List.splitOnP (· == c) t with
        | nil => exact absurd hs (List.splitOnP_ne_nil _ t)
        | cons p ps => simp [h]

theorem pieces_joined {c : CodePoint} {ts : List Text} (hne : ts ≠ []) (h : ∀ t ∈ ts, c ∉ t) :
    pieces c (joined c ts) = ts := by
  rw [pieces_eq_splitOn]
  exact List.splitOn_intercalate c h hne

theorem length_pieces (c : CodePoint) (t : Text) : (pieces c t).length = t.count c + 1 := by
  induction t with
  | nil => rfl
  | cons d t ih =>
      rw [pieces, List.count_cons]
      by_cases h : d = c
      · simp [h, ih]
      · cases hp : pieces c t with
        | nil => simp [hp] at ih
        | cons p ps => simpa [h, hp] using ih

theorem count_joined {c : CodePoint} {ts : List Text} (hne : ts ≠ []) :
    (joined c ts).count c + 1 = ts.length + ts.flatten.count c := by
  induction ts with
  | nil => contradiction
  | cons t ts ih =>
      cases ts with
      | nil => simp [Nat.add_comm]
      | cons u ts =>
          have h := ih (List.cons_ne_nil u ts)
          rw [joined_cons_cons, List.count_append, List.count_cons_self, List.flatten_cons,
            List.count_append, List.length_cons]
          omega

/-- A separator that stands in a piece makes more pieces of it. -/
theorem length_pieces_joined_iff {c : CodePoint} {ts : List Text} (hne : ts ≠ []) :
    (pieces c (joined c ts)).length = ts.length ↔ ∀ t ∈ ts, c ∉ t := by
  have hflat : ts.flatten.count c = 0 ↔ ∀ t ∈ ts, c ∉ t := by
    rw [List.count_eq_zero, List.mem_flatten, not_exists]
    simp only [not_and]
  rw [length_pieces, count_joined hne, ← hflat]
  omega

theorem mem_joined {c d : CodePoint} {ts : List Text} (h : d ∈ joined c ts) :
    d = c ∨ ∃ t ∈ ts, d ∈ t := by
  induction ts with
  | nil => contradiction
  | cons t ts ih =>
      cases ts with
      | nil => simp_all
      | cons u ts =>
          rw [joined_cons_cons, List.mem_append, List.mem_cons] at h
          obtain h | h | h := h
          · exact .inr ⟨t, List.mem_cons_self, h⟩
          · exact .inl h
          · exact (ih h).imp_right fun ⟨w, hw, hd⟩ => ⟨w, List.mem_cons_of_mem _ hw, hd⟩

theorem filter_joined (p : CodePoint → Bool) (c : CodePoint) (ts : List Text) :
    (joined c ts).filter p = ([c].filter p).intercalate (ts.map (List.filter p)) := by
  induction ts with
  | nil => rfl
  | cons t ts ih =>
      cases ts with
      | nil => simp [List.intercalate]
      | cons u ts =>
          rw [joined_cons_cons, List.filter_append, ← List.singleton_append, List.filter_append, ih]
          simp [List.intercalate]

theorem joined_of_explode {c d : CodePoint} {explode : Bool} {ts : List Text}
    (h : explode → ts.length = 1) :
    joined (if explode then c else d) ts = joined d ts := by
  cases explode with
  | false => rfl
  | true =>
      obtain ⟨t, rfl⟩ := List.length_eq_one_iff.1 (h rfl)
      simp

end UriTemplate.Text
