import UriTemplate.Proofs.Reading.Halt

namespace UriTemplate.Parser

open Grammar

theorem closeModifier_of_modifier {c : CodePoint} (hc : c = .char '*' ∨ c = .char ':')
    (v : Variable) (s : Text) :
    closeModifier v (c :: s) = .error ⟨.secondModifier v.name, c :: s⟩ := by
  rw [closeModifier, if_pos hc]

theorem of_closeModifier_eq_error {v : Variable} {s : Text} {f : Fault}
    (h : closeModifier v s = .error f) :
    ∃ c r, (c = .char '*' ∨ c = .char ':') ∧ s = c :: r ∧ f = ⟨.secondModifier v.name, c :: r⟩ := by
  cases s with
  | nil => contradiction
  | cons c r =>
      rw [closeModifier] at h
      split at h
      next hc =>
        cases h
        exact ⟨c, r, hc, rfl, rfl⟩
      next => contradiction

theorem halts_readModifier {name s : Text} {f : Fault} (hn : Name name)
    (h : readModifier name s = .error f) :
    ∃ c front, c ≠ .char '0' ∧ s = c :: front ++ f.unread ∧
      Halts (readModifier name) (fun t v => Spec (name ++ t) v) (c :: front) f := by
  fun_cases readModifier name s with
  | case1 s =>
      rw [readModifier] at h
      obtain ⟨c, r, hc, rfl, rfl⟩ := of_closeModifier_eq_error h
      refine ⟨.char '*', [], by decide, rfl, by decide, fun w hw => ?_, by simp [Spent],
        fun _ => ⟨[], _, .exploded hn⟩⟩
      obtain ⟨d, u, w, hu, rfl⟩ := hw.exists_cons
      obtain rfl := (List.cons.inj hu).1
      exact closeModifier_of_modifier hc _ w
  | case2 s n r hr =>
      simp only [readModifier, hr] at h
      obtain ⟨c, r, hc, rfl, rfl⟩ := of_closeModifier_eq_error h
      obtain ⟨ds, rfl, hd, -, rfl⟩ := readLength_sound hr
      have hbrace : .char '{' ∉ .char ':' :: ds := by simpa using notMem_digits hd.decimal
      refine ⟨.char ':', ds, by decide, rfl, hbrace, fun w hw => ?_, by simp [Spent],
        fun _ => ⟨[], _, by simpa using .measured hn hd⟩⟩
      obtain ⟨d, u, w, hu, rfl⟩ := hw.exists_cons
      obtain rfl := (List.cons.inj hu).1
      have hdigit : NoDigit (c :: w) := by
        rintro d hd
        obtain rfl : c = d := by simpa using hd
        obtain rfl | rfl := hc <;> decide
      rw [List.cons_append, readModifier, readLength_append hd hdigit]
      exact closeModifier_of_modifier hc _ w
  | case3 s g hg =>
      simp only [readModifier, hg] at h
      cases h
      obtain ⟨front, rfl, hh⟩ := halts_readLength hg
      have hcolon : CodePoint.char '{' ∉ [.char ':'] := by decide
      have hzero : CodePoint.char ':' ≠ .char '0' := by decide
      refine ⟨.char ':', front, hzero, rfl, hh.prepend hcolon (fun w g _ hg => ?_)
        (fun t _ ht => ⟨_, .measured hn ht⟩) (Spent.of_append_cons (a := []) hzero)⟩
      rw [List.singleton_append, readModifier, hg]
  | case4 =>
      simp only [readModifier] at h
      contradiction

theorem halts_readVariable {s : Text} {f : Fault} (h : readVariable s = .error f) :
    ∃ front, s = front ++ f.unread ∧ Halts readVariable Spec front f := by
  rw [readVariable] at h
  split at h
  next name r hr =>
    obtain ⟨rfl, hn, hend⟩ := readName_sound hr
    obtain ⟨c, front, hc, rfl, hh⟩ := halts_readModifier hn h
    have hbrace : .char '{' ∉ name := notMem_name hn rfl (by decide) (by decide)
    refine ⟨name ++ c :: front, by simp, hh.prepend hbrace (fun w g hw hg => ?_)
      (fun t v ht => ⟨v, ht⟩) fun hs => (hs.of_append_cons hc).append [c]⟩
    have hend' : NameEnds (c :: front ++ w) := by
      rw [NameEnds, hw]
      exact hend
    rw [readVariable, readName_append hn hend']
    exact hg
  next hr =>
    cases h
    obtain ⟨front, rfl, hh⟩ := halts_readName (by simp [Owed]) hr
    refine ⟨front, rfl, hh.prepend List.not_mem_nil (fun w g _ hg => ?_)
      (fun t _ ht => ⟨_, .bare ht⟩) id⟩
    rw [List.nil_append, readVariable, hg]

/-- Variables are written with the characters of names and modifiers. -/
theorem notMem_spec {t : Text} {v : Variable} (h : Spec t v) {c : CodePoint}
    (hw : isWordChar c = false)
    (hc : c ∉ [.char '%', .char '.', .char '*', .char ':']) : c ∉ t := by
  simp only [List.mem_cons, List.not_mem_nil, or_false, not_or] at hc
  obtain ⟨hpercent, hdot, hstar, hcolon⟩ := hc
  have hname {n : Text} (hn : Name n) : c ∉ n := notMem_name hn hw hpercent hdot
  cases h with
  | bare hn => exact hname hn
  | exploded hn => simpa using ⟨hname hn, hstar⟩
  | @measured n ds hn hd =>
      have hdigits : c ∉ ds := by
        intro hm
        simp [isWordChar_of_isDigit (hd.decimal c hm)] at hw
      simpa using ⟨hname hn, hcolon, hdigits⟩

theorem halts_readVariables {s : Text} {f : Fault} (h : readVariables s = .error f) :
    ∃ front, s = front ++ f.unread ∧ Halts readVariables Specs front f := by
  fun_induction readVariables s with
  | case1 s g hv =>
      cases h
      obtain ⟨front, rfl, hh⟩ := halts_readVariable hv
      refine ⟨front, rfl, hh.prepend List.not_mem_nil (fun w g _ hg => ?_)
        (fun t _ ht => ⟨_, .one ht⟩) id⟩
      rw [List.nil_append, readVariables_eq, hg]
  | case2 => contradiction
  | case3 s v rest hv _ g hg ih =>
      cases h
      obtain ⟨t, rfl, ht⟩ := readVariable_sound hv
      obtain ⟨front, rfl, hh⟩ := ih hg
      have hbrace : .char '{' ∉ t ++ [.char ','] := by simpa using notMem_spec ht rfl (by decide)
      refine ⟨t ++ [.char ','] ++ front, by simp, hh.prepend hbrace (fun w g _ hg => ?_)
        (fun ts vs hts => ⟨v :: vs, by simpa using .more ht hts⟩) fun hs => ?_⟩
      · rw [List.append_assoc, List.singleton_append, readVariables_eq,
          readVariable_append ht (by simp [Closes])]
        simp only [hg]
        rfl
      · rw [List.append_assoc] at hs
        exact hs.of_append_cons (by decide)
  | case4 => contradiction
  | case5 s v hv =>
      cases h
      obtain ⟨t, rfl, ht⟩ := readVariable_sound hv
      rw [List.append_nil]
      refine ⟨t, by simp, notMem_spec ht rfl (by decide), fun w hw => ?_, by simp [Spent],
        fun _ => ⟨[], [v], by simpa using .one ht⟩⟩
      obtain ⟨c, u, w, hu, rfl⟩ := hw.exists_cons
      contradiction
  | case6 s v c rest hcomma hbrace hv =>
      cases h
      obtain ⟨t, rfl, ht, hread⟩ := readVariable_of_head hv
      refine ⟨t, rfl, notMem_spec ht rfl (by decide), fun w hw => ?_, by simp [Spent],
        fun _ => ⟨[], [v], by simpa using .one ht⟩⟩
      obtain ⟨d, u, w, hu, rfl⟩ := hw.exists_cons
      obtain rfl := (List.cons.inj hu).1
      rw [readVariables_eq, hread (c :: w) rfl]
      split <;> simp_all

theorem readOperator_of_head {s w : Text} (hw : w.head? = (readOperator s).2.head?) :
    readOperator ((readOperator s).1.text ++ w) = ((readOperator s).1, w) := by
  cases s with
  | nil =>
      obtain rfl : w = [] := List.head?_eq_none_iff.1 hw
      rfl
  | cons c s =>
      cases ho : Operator.ofSymbol? c with
      | none =>
          simp only [readOperator, ho] at hw ⊢
          cases w with
          | nil => contradiction
          | cons d w =>
              obtain rfl : d = c := Option.some.inj hw
              simp [ho, Operator.text, Operator.symbol?]
      | some o =>
          have hs := Operator.ofSymbol?_eq_some_iff.1 ho
          simp [readOperator, ho, Operator.text, hs]

theorem notMem_operator (o : Operator) : .char '{' ∉ o.text := by cases o <;> decide

theorem Spent.of_operator {r : Reason} {o : Operator} {front : Text}
    (h : Spent r (o.text ++ front)) : Spent r front := by
  cases o with
  | simple => exact h
  | _ => exact h.of_append_cons (a := []) (by decide)

/-- Expressions halt where their variables do, and at once if nothing follows the brace. -/
theorem halts_readExpression {s : Text} {f : Fault} (h : readExpression s = .error f) :
    ∃ front, s = front ++ f.unread ∧
      Halts readExpression (fun t e => Braced (.char '{' :: t ++ [.char '}']) e) front f := by
  rw [readExpression] at h
  split at h
  next hnil =>
    cases h
    have hone : Specs [.char 'a'] [⟨[.char 'a'], none, false⟩] := .one (.bare name_letter)
    refine ⟨[], hnil, halts_nil (by simp [Spent]) (fun w hw => ?_)
      ⟨[.char 'a'], _, .mk .simple hone⟩⟩
    obtain ⟨c, u, w, hu, rfl⟩ := hw.exists_cons
    contradiction
  next hne =>
    split at h
    · contradiction
    next hv =>
      cases h
      have hs := eq_text_append_readOperator s
      have hop {w : Text} := readOperator_of_head (s := s) (w := w)
      obtain ⟨front, hfront, hh⟩ := halts_readVariables hv
      generalize (readOperator s).1 = o at hs hop
      rw [hfront] at hs hop
      refine ⟨o.text ++ front, by simpa using hs, hh.prepend (notMem_operator o)
        (fun w g hw hg => ?_) (fun t vs hts => ⟨⟨o, vs⟩, .mk o hts⟩)
        Spent.of_operator⟩
      have hne' : o.text ++ (front ++ w) ≠ [] := by
        intro hnil
        obtain ⟨ho, hw'⟩ := List.append_eq_nil_iff.1 hnil
        rw [hw'] at hw
        rw [ho, List.head?_eq_none_iff.1 hw.symm] at hs
        exact hne hs
      rw [readExpression, if_neg hne', hop hw]
      simp only [hg]

/-- What cannot be read is a template up to the brace of an expression that cannot be read. -/
theorem exists_readExpression_error {s : Text} {f : Fault} (h : readParts s = .error f) :
    ∃ a ps rest, s = a ++ .char '{' :: rest ∧ Template a ps ∧ readExpression rest = .error f := by
  fun_induction readParts s with
  | case1 => contradiction
  | case2 s g he =>
      cases h
      exact ⟨[], [], s, rfl, .nil, he⟩
  | case3 s e r he _ ih =>
      obtain ⟨t, rfl, ht⟩ := readExpression_sound he
      obtain ⟨a, ps, rest, rfl, ha, hf⟩ := ih (Outcome.map_eq_error_iff.1 h)
      exact ⟨_, _, rest, by simp, .expression (.mk e.operator ht) ha, hf⟩
  | case4 c s hc ih =>
      obtain ⟨a, ps, rest, hs, ha, hf⟩ := ih (Outcome.map_eq_error_iff.1 h)
      have hend := literalEnds_dropWhile s
      rw [hs] at hend
      have hrest : a ≠ [] → a.head? = some (.char '{') := by
        intro hne
        obtain ⟨d, a, rfl⟩ := List.exists_cons_of_ne_nil hne
        rw [hend d rfl]
        rfl
      refine ⟨_, _, rest, ?_, .literal (by simp) (notMem_literal hc s) hrest ha, hf⟩
      rw [List.append_assoc, ← hs, List.cons_append, List.takeWhile_append_dropWhile]

/-- Where a text is refused, it leaves an end of it unread. -/
theorem unread_readParts {s : Text} {f : Fault} (h : readParts s = .error f) : f.unread <:+ s := by
  obtain ⟨a, ps, rest, rfl, -, he⟩ := exists_readExpression_error h
  obtain ⟨front, rfl, -⟩ := halts_readExpression he
  exact ⟨a ++ .char '{' :: front, by simp⟩

end UriTemplate.Parser
