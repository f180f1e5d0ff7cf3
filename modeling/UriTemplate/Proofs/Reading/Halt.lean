import Mathlib.Data.List.Basic
import UriTemplate.Proofs.Numeral
import UriTemplate.Proofs.Reading.Template

namespace UriTemplate.Parser

open Grammar

variable {α β : Type}

/-- How many unread characters a refusal rests on. A percent sign is judged by what follows it. -/
def reach : Reason → Nat
  | .malformedPercent => 3
  | _ => 1

def Alike (r : Reason) (u w : Text) : Prop :=
  reach r ≤ u.length ∧ w.take (reach r) = u.take (reach r)

def Spent (r : Reason) (front : Text) : Prop :=
  r = .lengthTooLong ∨ r = .lengthNotPositive ∧ List.replicate 4 (.char '0') <:+ front

/-- A refusal behind `front`. It is the same whatever follows, as far as its reason does not reach.
Unless a length has used up its digits there, `front` is the start of a phrase. -/
structure Halts (read : Reader α) (phrase : Text → α → Prop) (front : Text) (f : Fault) : Prop where
  notMem : .char '{' ∉ front
  again : ∀ w, Alike f.reason f.unread w → read (front ++ w) = .error ⟨f.reason, w⟩
  stuck : Spent f.reason front → front ≠ [] ∧ ∀ w, ∃ g, read (front ++ w) = .error g
  goesOn : ¬ Spent f.reason front → ∃ w x, phrase (front ++ w) x

theorem Alike.exists_cons {r : Reason} {u w : Text} (h : Alike r u w) :
    ∃ c u' w', u = c :: u' ∧ w = c :: w' := by
  obtain ⟨hlen, htake⟩ := h
  have hpos : 0 < reach r := by cases r <;> exact Nat.succ_pos _
  obtain ⟨k, hk⟩ := Nat.exists_eq_succ_of_ne_zero (Nat.ne_of_gt hpos)
  rw [hk] at hlen htake
  cases u with
  | nil => contradiction
  | cons c u =>
      cases w with
      | nil => contradiction
      | cons d w =>
          obtain rfl : d = c := (List.cons.inj htake).1
          exact ⟨d, u, w, rfl, rfl⟩

theorem Alike.head?_eq {r : Reason} {u w : Text} (h : Alike r u w) : w.head? = u.head? := by
  obtain ⟨c, u', w', rfl, rfl⟩ := h.exists_cons
  rfl

theorem Alike.exists_percent {a b c : CodePoint} {u w : Text}
    (h : Alike .malformedPercent (a :: b :: c :: u) w) : ∃ w', w = a :: b :: c :: w' := by
  refine ⟨w.drop 3, ?_⟩
  have htake : w.take 3 = [a, b, c] := h.2
  rw [← List.take_append_drop 3 w, htake]
  simp

theorem Spent.append {r : Reason} {front : Text} (h : Spent r front) (a : Text) :
    Spent r (a ++ front) :=
  h.imp_right fun ⟨hr, hs⟩ => ⟨hr, hs.trans (List.suffix_append a front)⟩

/-- A run of digits does not reach back over another character. -/
theorem Spent.of_append_cons {r : Reason} {a front : Text} {c : CodePoint} (hc : c ≠ .char '0')
    (h : Spent r (a ++ c :: front)) : Spent r front := by
  refine h.imp_right fun ⟨hr, hs⟩ => ⟨hr, ?_⟩
  have hmem : c ∉ List.replicate 4 (.char '0') := fun hm => hc (List.eq_of_mem_replicate hm)
  obtain hs | hs := List.suffix_or_suffix_of_suffix hs (List.suffix_append a (c :: front))
  · obtain he | hs := List.suffix_cons_iff.1 hs
    · exact absurd (he ▸ List.mem_cons_self) hmem
    · exact hs
  · exact absurd (hs.subset List.mem_cons_self) hmem

/-- What is read before the phrase of one reader may be read before it by another. -/
theorem Halts.prepend {read : Reader α} {read' : Reader β} {phrase : Text → α → Prop}
    {phrase' : Text → β → Prop} {front : Text} {f : Fault} (h : Halts read phrase front f)
    {a : Text} (ha : .char '{' ∉ a)
    (hread : ∀ w g, (front ++ w).head? = (front ++ f.unread).head? →
      read (front ++ w) = .error g → read' (a ++ (front ++ w)) = .error g)
    (hphrase : ∀ t x, phrase t x → ∃ y, phrase' (a ++ t) y)
    (hspent : Spent f.reason (a ++ front) → Spent f.reason front) :
    Halts read' phrase' (a ++ front) f where
  notMem := by
    intro hm
    obtain hm | hm := List.mem_append.1 hm
    · exact ha hm
    · exact h.notMem hm
  again := by
    intro w hw
    rw [List.append_assoc]
    refine hread w _ ?_ (h.again w hw)
    rw [List.head?_append, List.head?_append, hw.head?_eq]
  stuck := by
    intro hs
    obtain ⟨hne, hstuck⟩ := h.stuck (hspent hs)
    refine ⟨List.append_ne_nil_of_right_ne_nil a hne, fun w => ?_⟩
    obtain ⟨g, hg⟩ := hstuck w
    refine ⟨g, ?_⟩
    rw [List.append_assoc]
    refine hread w g ?_ hg
    rw [List.head?_append_of_ne_nil _ hne, List.head?_append_of_ne_nil _ hne]
  goesOn := by
    intro hs
    obtain ⟨w, x, hx⟩ := h.goesOn fun hf => hs (hf.append a)
    obtain ⟨y, hy⟩ := hphrase _ x hx
    refine ⟨w, y, ?_⟩
    rwa [List.append_assoc]

theorem halts_nil {read : Reader α} {phrase : Text → α → Prop} {f : Fault}
    (hs : ∀ front, ¬ Spent f.reason front)
    (hread : ∀ w, Alike f.reason f.unread w → read w = .error ⟨f.reason, w⟩)
    (hphrase : ∃ w x, phrase w x) : Halts read phrase [] f where
  notMem := List.not_mem_nil
  again := hread
  stuck := fun h => absurd h (hs [])
  goesOn := fun _ => hphrase

theorem extend_eq_error_iff {front : Text} {r : Except Fault (Text × Text)} {f : Fault} :
    extend front r = .error f ↔ r = .error f := by
  cases r <;> simp [extend]

def Owed (owed : Option Reason) : Prop := ∀ r ∈ owed, r = .missingName ∨ r = .trailingDot

theorem owed_none : Owed none := by
  simp [Owed]

theorem owed_dot : Owed (some .trailingDot) := by
  simp [Owed]

theorem not_spent_of_owed {r : Reason} (h : Owed (some r)) (front : Text) : ¬ Spent r front := by
  obtain rfl | rfl := h r rfl <;> simp [Spent]

theorem not_spent_of_readName {owed : Option Reason} {s : Text} {f : Fault} (ho : Owed owed)
    (h : readName owed s = .error f) (front : Text) : ¬ Spent f.reason front := by
  fun_induction readName owed s with
  | case1 | case7 =>
      cases h
      exact not_spent_of_owed ho front
  | case4 | case5 =>
      cases h
      simp [Spent]
  | case3 _ _ _ _ _ ih | case6 _ _ _ _ _ _ ih => exact ih owed_none (extend_eq_error_iff.1 h)
  | case8 _ _ _ _ ih => exact ih owed_dot (extend_eq_error_iff.1 h)
  | case2 | case9 => contradiction

theorem name_letter : Name [.char 'a'] := .unit (.word rfl)

/-- A letter goes on wherever a name may stand. -/
theorem exists_nameRest (owed : Option Reason) : ∃ (w _ : Text), NameRest owed w :=
  ⟨[.char 'a'], [], .of_name name_letter owed⟩

theorem readName_percent {owed : Option Reason} {hi lo : CodePoint} {w : Text}
    (h : ¬ (Text.isHexDigit hi && Text.isHexDigit lo) = true) :
    readName owed (.char '%' :: hi :: lo :: w) =
      .error ⟨.malformedPercent, .char '%' :: hi :: lo :: w⟩ := by
  rw [readName, if_neg h]

theorem readName_owed {r : Reason} {c : CodePoint} {w : Text} (hp : c ≠ .char '%')
    (hw : ¬ isWordChar c) :
    readName (some r) (c :: w) = .error ⟨r, c :: w⟩ := by
  simp [readName, hp, hw]

theorem notMem_nameUnit {u : Text} (h : NameUnit u) : .char '{' ∉ u := by
  intro hm
  obtain hw | hw := mem_nameUnit h hm
  · revert hw
    decide
  · contradiction

/-- What halts behind a unit halts behind it whether or not a name is owed in front. -/
theorem Halts.unit {u front : Text} {f : Fault} (hu : NameUnit u) (owed : Option Reason)
    (hh : Halts (readName none) (fun t _ => NameRest none t) front f)
    (hspent : ∀ front, ¬ Spent f.reason front) :
    Halts (readName owed) (fun t _ => NameRest owed t) (u ++ front) f := by
  refine hh.prepend (notMem_nameUnit hu) (fun w g _ hg => ?_) (fun t x ht => ⟨x, ?_⟩)
    fun hs => absurd hs (hspent _)
  · rw [readName_unit hu, hg]
    rfl
  · exact .of_name (name_append hu ht) owed

theorem halts_readName {owed : Option Reason} {s : Text} {f : Fault} (ho : Owed owed)
    (h : readName owed s = .error f) :
    ∃ front, s = front ++ f.unread ∧
      Halts (readName owed) (fun t _ => NameRest owed t) front f := by
  have hspent := not_spent_of_readName ho h
  -- A unit or a dot stands before what halts behind it.
  fun_induction readName owed s with
  | case1 r =>
      cases h
      refine ⟨[], rfl, halts_nil hspent (fun w hw => ?_) (exists_nameRest _)⟩
      obtain ⟨c, u, w, hu, rfl⟩ := hw.exists_cons
      contradiction
  | case3 owed hi lo s hx ih =>
      have h := extend_eq_error_iff.1 h
      obtain ⟨front, rfl, hh⟩ := ih owed_none h
      simp only [Bool.and_eq_true] at hx
      have hu : NameUnit [.char '%', hi, lo] := .triplet hx.1 hx.2
      exact ⟨[.char '%', hi, lo] ++ front, rfl, hh.unit hu owed hspent⟩
  | case4 owed hi lo s hx =>
      cases h
      refine ⟨[], rfl, halts_nil hspent (fun w hw => ?_) (exists_nameRest _)⟩
      obtain ⟨w, rfl⟩ := hw.exists_percent
      exact readName_percent hx
  | case5 owed s hs =>
      cases h
      refine ⟨[], rfl, halts_nil hspent (fun w hw => ?_) (exists_nameRest _)⟩
      have hlen := hw.1
      obtain _ | ⟨hi, _ | ⟨lo, s⟩⟩ := s
      · contradiction
      · contradiction
      · exact absurd rfl (hs hi lo s rfl)
  | case6 owed c s _ _ hw ih =>
      have h := extend_eq_error_iff.1 h
      obtain ⟨front, rfl, hh⟩ := ih owed_none h
      exact ⟨[c] ++ front, rfl, hh.unit (.word hw) owed hspent⟩
  | case7 c s _ hp hw r =>
      cases h
      refine ⟨[], rfl, halts_nil hspent (fun w hw' => ?_) (exists_nameRest _)⟩
      obtain ⟨c, u, w, hu, rfl⟩ := hw'.exists_cons
      obtain ⟨rfl, rfl⟩ := List.cons.inj hu
      exact readName_owed hp hw
  | case8 s _ _ _ ih =>
      have h := extend_eq_error_iff.1 h
      obtain ⟨front, rfl, hh⟩ := ih owed_dot h
      refine ⟨[.char '.'] ++ front, rfl, hh.prepend (by decide) (fun w g _ hg => ?_)
        (fun t x ht => ⟨x, .inr (.inr ⟨t, rfl, ht⟩)⟩) fun hs => absurd hs (hspent _)⟩
      rw [List.singleton_append, readName_dot, hg]
      rfl
  | case2 | case9 => contradiction

theorem NoDigit.of_alike {r : Reason} {u w : Text} (h : NoDigit u) (hw : Alike r u w) :
    NoDigit w := by
  rw [NoDigit, hw.head?_eq]
  exact h

/-- More than four digits are too many, whatever follows. -/
theorem exists_readLength_error {ds : Text} (hd : ∀ c ∈ ds, c.isDigit) (hlen : 4 < ds.length)
    (w : Text) : ∃ g, readLength (ds ++ w) = .error g := by
  obtain ⟨es, rest, rfl, he, hr⟩ := exists_digits w
  have hde : ∀ c ∈ ds ++ es, c.isDigit := fun c hc => (List.mem_append.1 hc).elim (hd c) (he c)
  have hne : ds ++ es ≠ [] := by
    rintro hnil
    simp [(List.append_eq_nil_iff.1 hnil).1] at hlen
  have hlong : 4 < (ds ++ es).length := by
    rw [List.length_append]
    omega
  rw [← List.append_assoc, readLength_eq hde hr, if_neg hne, if_pos hlong]
  exact ⟨_, rfl⟩

theorem isDigit_of_mem_zeros {n : Nat} :
    ∀ c ∈ List.replicate n (CodePoint.char '0'), c.isDigit := by
  intro c hc
  rw [List.eq_of_mem_replicate hc]
  rfl

theorem exists_readLength_zeros (w : Text) :
    ∃ g, readLength (List.replicate 4 (.char '0') ++ w) = .error g := by
  obtain ⟨es, rest, rfl, he, hr⟩ := exists_digits w
  cases es with
  | nil =>
      rw [List.nil_append, readLength_eq isDigit_of_mem_zeros hr]
      exact ⟨_, rfl⟩
  | cons c es =>
      have hde : ∀ d ∈ List.replicate 4 (.char '0') ++ [c], d.isDigit := by
        intro d hd
        obtain hd | hd := List.mem_append.1 hd
        · exact isDigit_of_mem_zeros d hd
        · exact he d (List.mem_singleton.1 hd ▸ List.mem_cons_self)
      exact exists_readLength_error hde (by simp) (es ++ rest)

theorem length_zeros {n : Nat} (h : n < 4) :
    Length (List.replicate n (.char '0') ++ [.char '1']) where
  nonempty := by simp
  short := by
    rw [List.length_append, List.length_replicate]
    exact h
  decimal := by
    intro c hc
    obtain hc | hc := List.mem_append.1 hc
    · exact isDigit_of_mem_zeros c hc
    · rw [List.mem_singleton.1 hc]
      rfl
  positive := by
    have hchars : List.replicate n (.char '0') ++ [.char '1'] =
        Text.ofChars (List.replicate n '0' ++ ['1']) := by
      simp [Text.ofChars]
    rw [hchars, Text.digitsValue_ofChars, Nat.ofDigitChars_append]
    exact Nat.succ_pos _

theorem notMem_digits {ds : Text} (h : ∀ c ∈ ds, c.isDigit) : .char '{' ∉ ds :=
  fun hm => absurd (h _ hm) (by decide)

theorem halts_of_long {ds rest : Text} (hd : ∀ c ∈ ds, c.isDigit) (hr : NoDigit rest)
    (hlen : 4 < ds.length) :
    Halts readLength (fun t (_ : Int) => Length t) ds ⟨.lengthTooLong, rest⟩ := by
  have hne : ds ≠ [] := List.ne_nil_of_length_pos (by omega)
  refine ⟨notMem_digits hd, fun w hw => ?_, fun _ => ⟨hne, exists_readLength_error hd hlen⟩,
    fun hs => absurd (.inl rfl) hs⟩
  rw [readLength_eq hd (hr.of_alike hw), if_neg hne, if_pos hlen]

/-- Up to three zeros can be gone on with, four cannot. -/
theorem halts_of_zeros {ds rest : Text} (hd : ∀ c ∈ ds, c.isDigit) (hr : NoDigit rest)
    (hne : ds ≠ []) (hlen : ¬ 4 < ds.length) (hzero : Text.digitsValue ds = 0) :
    Halts readLength (fun t (_ : Int) => Length t) ds ⟨.lengthNotPositive, rest⟩ := by
  have hds := Text.eq_replicate_of_digitsValue hd hzero
  refine ⟨notMem_digits hd, fun w hw => ?_, fun hs => ⟨hne, ?_⟩, fun hs => ?_⟩
  · rw [readLength_eq hd (hr.of_alike hw), if_neg hne, if_neg hlen, if_pos hzero]
  · obtain hs | ⟨-, hs⟩ := hs
    · contradiction
    · have hfour : ds = List.replicate 4 (.char '0') :=
        (hs.eq_of_length_le (by simpa using hlen)).symm
      rw [hfour]
      exact exists_readLength_zeros
  · have hlt : ds.length < 4 := by
      by_contra hge
      have hfour : ds.length = 4 := by omega
      rw [hds, hfour] at hs
      exact hs (.inr ⟨rfl, List.suffix_rfl⟩)
    refine ⟨[.char '1'], 0, ?_⟩
    rw [hds]
    exact length_zeros hlt

theorem halts_readLength {s : Text} {f : Fault} (h : readLength s = .error f) :
    ∃ front, s = front ++ f.unread ∧
      Halts readLength (fun t (_ : Int) => Length t) front f := by
  obtain ⟨ds, rest, rfl, hd, hr⟩ := exists_digits s
  rw [readLength_eq hd hr] at h
  split at h
  next hnil =>
    cases h
    subst hnil
    have hone : Length [.char '1'] := length_zeros (Nat.succ_pos 3)
    refine ⟨[], rfl, halts_nil (by simp [Spent]) (fun w hw => ?_) ⟨[.char '1'], 0, hone⟩⟩
    exact readLength_eq hd (hr.of_alike hw)
  next hne =>
    split at h
    next hlen =>
      cases h
      exact ⟨ds, rfl, halts_of_long hd hr hlen⟩
    next hlen =>
      split at h
      next hzero =>
        cases h
        exact ⟨ds, rfl, halts_of_zeros hd hr hne hlen hzero⟩
      next => contradiction

end UriTemplate.Parser
