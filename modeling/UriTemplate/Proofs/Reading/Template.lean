import UriTemplate.Proofs.Outcome
import UriTemplate.Proofs.Reading.Variable

namespace UriTemplate.Parser

open Grammar

/-- The variables up to the closing brace, said without the reason why their reading ends. -/
theorem readVariables_eq (s : Text) :
    readVariables s = match readVariable s with
      | .error f => .error f
      | .ok (v, .char ',' :: rest) => (readVariables rest).map fun x => (v :: x.1, x.2)
      | .ok (v, .char '}' :: rest) => .ok ([v], rest)
      | .ok (_, []) => .error ⟨.unterminated, []⟩
      | .ok (_, c :: rest) => .error ⟨.unexpected c, c :: rest⟩ := by
  rw [readVariables]
  split <;> simp_all
  cases readVariables _ <;> rfl

theorem readParts_brace (s : Text) :
    readParts (.char '{' :: s) = match readExpression s with
      | .error f => .error f
      | .ok (e, rest) => (readParts rest).map (.expression e :: ·) := by
  rw [readParts]
  split <;> simp_all

theorem readVariables_append {t : Text} {vs : List Variable} (h : Specs t vs) (rest : Text) :
    readVariables (t ++ .char '}' :: rest) = .ok (vs, rest) := by
  induction h with
  | one hv =>
      rw [readVariables_eq, readVariable_append hv (by simp [Closes])]
      rfl
  | more hv _ ih =>
      rw [List.append_assoc, List.cons_append, readVariables_eq,
        readVariable_append hv (by simp [Closes])]
      simp [ih]

theorem readVariables_sound {s rest : Text} {vs : List Variable}
    (h : readVariables s = .ok (vs, rest)) : ∃ t, s = t ++ .char '}' :: rest ∧ Specs t vs := by
  fun_induction readVariables s generalizing vs rest with
  | case2 s v r hv _ ws r' hr ih =>
      simp only [Except.ok.injEq, Prod.mk.injEq] at h
      obtain ⟨rfl, rfl⟩ := h
      obtain ⟨t, rfl, ht⟩ := readVariable_sound hv
      obtain ⟨ts, rfl, hts⟩ := ih hr
      exact ⟨t ++ .char ',' :: ts, by simp, .more ht hts⟩
  | case4 s v r hv =>
      simp only [Except.ok.injEq, Prod.mk.injEq] at h
      obtain ⟨rfl, rfl⟩ := h
      obtain ⟨t, rfl, ht⟩ := readVariable_sound hv
      exact ⟨t, rfl, .one ht⟩
  | _ => contradiction

theorem startsName_of_spec {t : Text} {v : Variable} (h : Spec t v) : StartsName t := by
  cases h with
  | bare hn => exact startsName_of_name hn
  | exploded hn | measured hn _ => exact (startsName_of_name hn).append _

theorem startsName_of_specs {t : Text} {vs : List Variable} (h : Specs t vs) : StartsName t := by
  cases h with
  | one hv => exact startsName_of_spec hv
  | more hv _ => exact (startsName_of_spec hv).append _

theorem symbol?_ne_of_startsName {s : Text} (h : StartsName s) (o : Operator) :
    o.symbol? ≠ s.head? := by
  obtain ⟨c, hc, hw⟩ := h
  rw [Option.mem_def.1 hc]
  rintro ho
  revert hw
  cases o <;> simp only [Operator.symbol?, Option.some.injEq, reduceCtorEq] at ho <;> subst ho <;>
    decide

theorem readOperator_append {s : Text} (hs : StartsName s) (o : Operator) :
    readOperator (o.text ++ s) = (o, s) := by
  cases o with
  | simple =>
      cases s with
      | nil => simp [StartsName] at hs
      | cons d s =>
          cases ho : Operator.ofSymbol? d with
          | none => simp [Operator.text, Operator.symbol?, readOperator, ho]
          | some o =>
              exact absurd (Operator.ofSymbol?_eq_some_iff.1 ho) (symbol?_ne_of_startsName hs o)
  | _ => rfl

theorem eq_text_append_readOperator (s : Text) :
    s = (readOperator s).1.text ++ (readOperator s).2 := by
  cases s with
  | nil => rfl
  | cons c s =>
      cases ho : Operator.ofSymbol? c with
      | none => simp [readOperator, ho, Operator.text, Operator.symbol?]
      | some o =>
          have hs := Operator.ofSymbol?_eq_some_iff.1 ho
          simp [readOperator, ho, Operator.text, hs]

theorem readExpression_append {o : Operator} {t : Text} {vs : List Variable} (h : Specs t vs)
    (rest : Text) : readExpression (o.text ++ t ++ .char '}' :: rest) = .ok (⟨o, vs⟩, rest) := by
  have hs : StartsName (t ++ .char '}' :: rest) := (startsName_of_specs h).append _
  have hne : o.text ++ (t ++ .char '}' :: rest) ≠ [] := by simp
  rw [List.append_assoc, readExpression, if_neg hne, readOperator_append hs]
  simp only [readVariables_append h]

theorem readExpression_sound {s rest : Text} {e : Expression}
    (h : readExpression s = .ok (e, rest)) :
    ∃ t, s = e.operator.text ++ t ++ .char '}' :: rest ∧ Specs t e.vars := by
  rw [readExpression] at h
  split at h
  · contradiction
  · split at h
    next vs r hvs =>
      simp only [Except.ok.injEq, Prod.mk.injEq] at h
      obtain ⟨rfl, rfl⟩ := h
      obtain ⟨t, ht, hs⟩ := readVariables_sound hvs
      refine ⟨t, ?_, hs⟩
      rw [List.append_assoc, ← ht]
      exact eq_text_append_readOperator s
    next => contradiction

def LiteralEnds (rest : Text) : Prop := ∀ c ∈ rest.head?, c = .char '{'

theorem literalEnds_iff {rest : Text} :
    LiteralEnds rest ↔ (rest ≠ [] → rest.head? = some (.char '{')) := by
  cases rest <;> simp [LiteralEnds]

theorem literalEnds_dropWhile (s : Text) : LiteralEnds (s.dropWhile (· ≠ .char '{')) := by
  induction s with
  | nil => simp [LiteralEnds]
  | cons c s ih =>
      by_cases hc : c = .char '{'
      · simp [LiteralEnds, hc]
      · simpa [hc] using ih

theorem notMem_takeWhile (s : Text) : .char '{' ∉ s.takeWhile (· ≠ .char '{') := by
  intro h
  have hall : (s.takeWhile (· ≠ .char '{')).all (· ≠ .char '{') := List.all_takeWhile
  simpa using List.all_eq_true.1 hall _ h

theorem notMem_literal {c : CodePoint} (hc : c ≠ .char '{') (s : Text) :
    .char '{' ∉ c :: s.takeWhile (· ≠ .char '{') := by
  intro h
  obtain he | h := List.mem_cons.1 h
  · exact hc he.symm
  · exact notMem_takeWhile s h

theorem takeWhile_literal {t rest : Text} (hb : .char '{' ∉ t) (hr : LiteralEnds rest) :
    (t ++ rest).takeWhile (· ≠ .char '{') = t := by
  apply takeWhile_append
  · intro c hc
    have hne : c ≠ .char '{' := fun he => hb (he ▸ hc)
    simpa using hne
  · intro c hc
    simpa using hr c hc

theorem dropWhile_literal {t rest : Text} (hb : .char '{' ∉ t) (hr : LiteralEnds rest) :
    (t ++ rest).dropWhile (· ≠ .char '{') = rest := by
  have h := List.takeWhile_append_dropWhile (p := (· ≠ .char '{')) (l := t ++ rest)
  rw [takeWhile_literal hb hr] at h
  exact List.append_cancel_left h

theorem readParts_literal {t rest : Text} (ht : t ≠ []) (hb : .char '{' ∉ t)
    (hr : LiteralEnds rest) :
    readParts (t ++ rest) = (readParts rest).map (.literal t :: ·) := by
  cases t with
  | nil => contradiction
  | cons c t =>
      obtain ⟨hc, hb⟩ := not_or.1 (fun h => hb (List.mem_cons.2 h))
      rw [List.cons_append, readParts, takeWhile_literal hb hr, dropWhile_literal hb hr]
      exact Ne.symm hc

/-- A text is read as a list of parts exactly if the grammar derives it so. -/
theorem readParts_eq_ok_iff {s : Text} {ps : List Part} :
    readParts s = .ok ps ↔ Template s ps := by
  constructor
  · intro h
    fun_induction readParts s generalizing ps with
    | case1 =>
        cases h
        exact .nil
    | case2 => contradiction
    | case3 s e rest he _ ih =>
        obtain ⟨qs, hqs, rfl⟩ := Outcome.map_eq_ok_iff.1 h
        obtain ⟨t, rfl, ht⟩ := readExpression_sound he
        simpa using Template.expression (.mk e.operator ht) (ih hqs)
    | case4 c s hc ih =>
        obtain ⟨qs, hqs, rfl⟩ := Outcome.map_eq_ok_iff.1 h
        have hs := Template.literal (by simp) (notMem_literal hc s)
          (literalEnds_iff.1 (literalEnds_dropWhile s)) (ih hqs)
        rwa [List.cons_append, List.takeWhile_append_dropWhile] at hs
  · intro h
    induction h with
    | nil => rw [readParts]
    | literal ht hb hr _ ih =>
        rw [readParts_literal ht hb (literalEnds_iff.2 hr), ih]
        rfl
    | expression he _ ih =>
        cases he with
        | mk o hs =>
          rw [List.append_assoc, List.cons_append, List.cons_append, List.singleton_append,
            readParts_brace, readExpression_append hs]
          simp [ih]

end UriTemplate.Parser
