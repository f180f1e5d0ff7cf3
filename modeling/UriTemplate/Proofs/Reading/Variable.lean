import UriTemplate.Proofs.Name

namespace UriTemplate.Parser

open Grammar

def NameEnds (rest : Text) : Prop :=
  ∀ c ∈ rest.head?, isWordChar c = false ∧ c ≠ .char '%' ∧ c ≠ .char '.'

/-- What a name may still hold: a whole name where one is owed, else also nothing or a dot in
front of one. -/
def NameRest : Option Reason → Text → Prop
  | some _, n => Name n
  | none, n => n = [] ∨ Name n ∨ ∃ m, n = .char '.' :: m ∧ Name m

theorem NameRest.of_name {n : Text} (h : Name n) : ∀ owed, NameRest owed n
  | some _ => h
  | none => .inr (.inl h)

theorem name_append {u n : Text} (hu : NameUnit u) (hn : NameRest none n) : Name (u ++ n) := by
  obtain rfl | hn | ⟨m, rfl, hm⟩ := hn
  · simpa using Name.unit hu
  · exact .next hu hn
  · exact .dotted hu hm

theorem readName_unit {u : Text} (hu : NameUnit u) (owed : Option Reason) (s : Text) :
    readName owed (u ++ s) = extend u (readName none s) := by
  cases hu with
  | word hc =>
      have hp := ne_percent_of_isWordChar hc
      cases owed <;> simp [readName, hp, hc]
  | triplet ha hb => simp [readName, ha, hb]

theorem readName_dot (s : Text) :
    readName none (.char '.' :: s) = extend [.char '.'] (readName (some .trailingDot) s) := by
  have hw : isWordChar (.char '.') = false := rfl
  simp [readName, hw]

theorem readName_stop {rest : Text} (h : NameEnds rest) : readName none rest = .ok ([], rest) := by
  cases rest with
  | nil => rfl
  | cons c rest =>
      obtain ⟨hw, hp, hd⟩ := h c rfl
      simp [readName, hw, hp, hd]

theorem readName_append {n rest : Text} (hn : Name n) (hr : NameEnds rest)
    (owed : Option Reason) : readName owed (n ++ rest) = .ok (n, rest) := by
  induction hn generalizing owed with
  | unit hu => rw [readName_unit hu, readName_stop hr]; simp [extend]
  | next hu _ ih => rw [List.append_assoc, readName_unit hu, ih]; rfl
  | dotted hu _ ih =>
      rw [List.append_assoc, readName_unit hu, List.cons_append, readName_dot, ih]
      rfl

theorem readName_sound {owed : Option Reason} {s n rest : Text}
    (h : readName owed s = .ok (n, rest)) :
    s = n ++ rest ∧ NameRest owed n ∧ NameEnds rest := by
  -- Units go on with nothing owed, a dot with a name owed. Cases not named here refuse.
  fun_induction readName owed s generalizing n rest with
  | case1 reason => contradiction
  | case2 =>
      simp only [Except.ok.injEq, Prod.mk.injEq] at h
      obtain ⟨rfl, rfl⟩ := h
      exact ⟨rfl, .inl rfl, by simp [NameEnds]⟩
  | case3 owed hi lo s hx ih =>
      obtain ⟨m, rfl, hm⟩ := extend_eq_ok_iff.1 h
      obtain ⟨rfl, hn, he⟩ := ih hm
      simp only [Bool.and_eq_true] at hx
      exact ⟨rfl, .of_name (name_append (.triplet hx.1 hx.2) hn) _, he⟩
  | case6 owed c s _ _ hw ih =>
      obtain ⟨m, rfl, hm⟩ := extend_eq_ok_iff.1 h
      obtain ⟨rfl, hn, he⟩ := ih hm
      exact ⟨rfl, .of_name (name_append (.word hw) hn) _, he⟩
  | case8 s _ _ _ ih =>
      obtain ⟨m, rfl, hm⟩ := extend_eq_ok_iff.1 h
      obtain ⟨rfl, hn, he⟩ := ih hm
      exact ⟨rfl, .inr (.inr ⟨m, rfl, hn⟩), he⟩
  | case9 c s _ hp hw hd =>
      simp only [Except.ok.injEq, Prod.mk.injEq] at h
      obtain ⟨rfl, rfl⟩ := h
      exact ⟨rfl, .inl rfl, by simpa [NameEnds] using ⟨by simpa using hw, hp, hd⟩⟩
  | _ => contradiction

theorem takeWhile_append {p : CodePoint → Bool} {t rest : Text} (ht : ∀ c ∈ t, p c = true)
    (hr : ∀ c ∈ rest.head?, p c = false) : (t ++ rest).takeWhile p = t := by
  rw [List.takeWhile_append_of_pos ht]
  cases rest with
  | nil => simp
  | cons c rest => simp [hr c rfl]

theorem dropWhile_append {p : CodePoint → Bool} {t rest : Text} (ht : ∀ c ∈ t, p c = true)
    (hr : ∀ c ∈ rest.head?, p c = false) : (t ++ rest).dropWhile p = rest := by
  rw [List.dropWhile_append_of_pos ht]
  cases rest with
  | nil => simp
  | cons c rest => simp [hr c rfl]

def NoDigit (rest : Text) : Prop := ∀ c ∈ rest.head?, c.isDigit = false

theorem exists_digits (s : Text) :
    ∃ ds rest, s = ds ++ rest ∧ (∀ c ∈ ds, c.isDigit) ∧ NoDigit rest := by
  refine ⟨s.takeWhile CodePoint.isDigit, s.dropWhile CodePoint.isDigit,
    List.takeWhile_append_dropWhile.symm, ?_, ?_⟩
  · exact List.all_eq_true.1 List.all_takeWhile
  · intro c hc
    have hall := List.head?_dropWhile_not CodePoint.isDigit s
    rw [Option.mem_def.1 hc] at hall
    simpa using hall

/-- Reading a length is judging the run of digits in front. -/
theorem readLength_eq {ds rest : Text} (hd : ∀ c ∈ ds, c.isDigit) (hr : NoDigit rest) :
    readLength (ds ++ rest) =
      if ds = [] then .error ⟨.missingLength, rest⟩
      else if 4 < ds.length then .error ⟨.lengthTooLong, rest⟩
      else if Text.digitsValue ds = 0 then .error ⟨.lengthNotPositive, rest⟩
      else .ok (Text.digitsValue ds, rest) := by
  simp only [readLength, takeWhile_append hd hr, dropWhile_append hd hr]

theorem readLength_append {ds rest : Text} (h : Length ds) (hr : NoDigit rest) :
    readLength (ds ++ rest) = .ok (Text.digitsValue ds, rest) := by
  have hlen : ¬ 4 < ds.length := Nat.not_lt.2 h.short
  have hpos : Text.digitsValue ds ≠ 0 := Nat.ne_of_gt h.positive
  rw [readLength_eq h.decimal hr, if_neg h.nonempty, if_neg hlen, if_neg hpos]

theorem readLength_sound {s rest : Text} {n : Int} (h : readLength s = .ok (n, rest)) :
    ∃ ds, s = ds ++ rest ∧ Length ds ∧ NoDigit rest ∧ n = Text.digitsValue ds := by
  obtain ⟨ds, r, rfl, hd, hr⟩ := exists_digits s
  rw [readLength_eq hd hr] at h
  split at h
  · contradiction
  next hne =>
    split at h
    · contradiction
    next hlen =>
      split at h
      · contradiction
      next hpos =>
        cases h
        exact ⟨ds, rfl, ⟨hne, by omega, hd, by omega⟩, hr, rfl⟩

def Closes (rest : Text) : Prop := ∀ c ∈ rest.head?, c = .char ',' ∨ c = .char '}'

theorem Closes.nameEnds {rest : Text} (h : Closes rest) : NameEnds rest := by
  intro c hc
  obtain rfl | rfl := h c hc <;> decide

theorem Closes.noDigit {rest : Text} (h : Closes rest) : NoDigit rest := by
  intro c hc
  obtain rfl | rfl := h c hc <;> decide

theorem nameEnds_cons {c : CodePoint} (rest : Text) (h : c = .char '*' ∨ c = .char ':') :
    NameEnds (c :: rest) := by
  intro d hd
  obtain rfl : c = d := by simpa using hd
  obtain rfl | rfl := h <;> decide

theorem closeModifier_of_closes {rest : Text} (h : Closes rest) (v : Variable) :
    closeModifier v rest = .ok (v, rest) := by
  cases rest with
  | nil => rfl
  | cons c rest => obtain rfl | rfl := h c rfl <;> rfl

theorem readModifier_of_closes {rest : Text} (h : Closes rest) (name : Text) :
    readModifier name rest = .ok (⟨name, none, false⟩, rest) := by
  cases rest with
  | nil => rfl
  | cons c rest => obtain rfl | rfl := h c rfl <;> rfl

theorem readVariable_append {t rest : Text} {v : Variable} (h : Spec t v) (hr : Closes rest) :
    readVariable (t ++ rest) = .ok (v, rest) := by
  cases h with
  | bare hn =>
      rw [readVariable, readName_append hn hr.nameEnds]
      exact readModifier_of_closes hr _
  | exploded hn =>
      rw [List.append_assoc, List.singleton_append, readVariable,
        readName_append hn (nameEnds_cons _ (.inl rfl))]
      exact closeModifier_of_closes hr _
  | @measured n ds hn hd =>
      rw [List.append_assoc, List.cons_append, readVariable,
        readName_append hn (nameEnds_cons _ (.inr rfl))]
      simp only [readModifier, readLength_append hd hr.noDigit]
      exact closeModifier_of_closes hr _

theorem closeModifier_of_head {v v' : Variable} {s rest w : Text}
    (h : closeModifier v s = .ok (v', rest)) (hw : w.head? = s.head?) :
    closeModifier v w = .ok (v, w) := by
  cases w with
  | nil => rfl
  | cons c w =>
      cases s with
      | nil => contradiction
      | cons d s =>
          obtain rfl : c = d := Option.some.inj hw
          rw [closeModifier] at h ⊢
          split at h
          · contradiction
          next hc => rw [if_neg hc]

theorem readModifier_of_bare {name s w : Text} (h1 : ∀ r, s ≠ .char '*' :: r)
    (h2 : ∀ r, s ≠ .char ':' :: r)
    (hw : w.head? = s.head?) : readModifier name w = .ok (⟨name, none, false⟩, w) := by
  cases w with
  | nil => rfl
  | cons c w =>
      cases s with
      | nil => contradiction
      | cons d s =>
          obtain rfl : c = d := Option.some.inj hw
          rw [readModifier]
          · rintro r hr
            exact h1 s (by rw [(List.cons.inj hr).1])
          · rintro r hr
            exact h2 s (by rw [(List.cons.inj hr).1])

/-- A modifier is read alike before every text with the same first character. -/
theorem readModifier_of_head {name s rest : Text} {v : Variable} (hn : Name name) (hs : NameEnds s)
    (h : readModifier name s = .ok (v, rest)) :
    ∃ m, s = m ++ rest ∧ Spec (name ++ m) v ∧ ∀ w, w.head? = rest.head? →
      NameEnds (m ++ w) ∧ readModifier name (m ++ w) = .ok (v, w) := by
  fun_cases readModifier name s with
  | case1 s =>
      rw [readModifier] at h
      obtain ⟨rfl, rfl⟩ := eq_of_closeModifier h
      refine ⟨[.char '*'], rfl, .exploded hn, fun w hw => ⟨nameEnds_cons w (.inl rfl), ?_⟩⟩
      exact closeModifier_of_head h hw
  | case2 s n r hr =>
      simp only [readModifier, hr] at h
      obtain ⟨rfl, rfl⟩ := eq_of_closeModifier h
      obtain ⟨ds, rfl, hd, hend, rfl⟩ := readLength_sound hr
      refine ⟨.char ':' :: ds, rfl, .measured hn hd, fun w hw => ⟨nameEnds_cons _ (.inr rfl), ?_⟩⟩
      have hw' : NoDigit w := by
        rw [NoDigit, hw]
        exact hend
      rw [List.cons_append, readModifier, readLength_append hd hw']
      exact closeModifier_of_head h hw
  | case3 s f hf =>
      simp only [readModifier, hf] at h
      contradiction
  | case4 s h1 h2 =>
      simp only [readModifier, Except.ok.injEq, Prod.mk.injEq] at h
      obtain ⟨rfl, rfl⟩ := h
      refine ⟨[], rfl, by simpa using .bare hn, fun w hw => ⟨?_, readModifier_of_bare h1 h2 hw⟩⟩
      rw [NameEnds, List.nil_append, hw]
      exact hs

/-- Which variable is read depends on its text and on the character behind it. -/
theorem readVariable_of_head {s rest : Text} {v : Variable} (h : readVariable s = .ok (v, rest)) :
    ∃ t, s = t ++ rest ∧ Spec t v ∧
      ∀ w, w.head? = rest.head? → readVariable (t ++ w) = .ok (v, w) := by
  rw [readVariable] at h
  split at h
  next name r hr =>
    obtain ⟨rfl, hn, hend⟩ := readName_sound hr
    obtain ⟨m, rfl, ht, hread⟩ := readModifier_of_head hn hend h
    refine ⟨name ++ m, (List.append_assoc ..).symm, ht, fun w hw => ?_⟩
    obtain ⟨hend', hm⟩ := hread w hw
    rw [List.append_assoc, readVariable, readName_append hn hend']
    exact hm
  next => contradiction

theorem readVariable_sound {s rest : Text} {v : Variable} (h : readVariable s = .ok (v, rest)) :
    ∃ t, s = t ++ rest ∧ Spec t v := by
  obtain ⟨t, hs, ht, -⟩ := readVariable_of_head h
  exact ⟨t, hs, ht⟩

end UriTemplate.Parser
