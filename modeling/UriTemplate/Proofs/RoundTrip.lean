import UriTemplate.Part.Grammar
import UriTemplate.Proofs.Derivation
import UriTemplate.Proofs.Numeral

namespace UriTemplate

open Grammar

theorem digitsValue_le {ds : Text} (h : Length ds) : Text.digitsValue ds ≤ 9999 := by
  have hlen : (Text.ofNat (Text.digitsValue ds)).length ≤ 4 := by
    rw [Text.ofNat_digitsValue h.decimal h.positive]
    exact Nat.le_trans (List.dropWhile_suffix _).length_le h.short
  exact Nat.le_of_lt_succ ((Text.length_ofNat_le_iff (by decide)).1 hlen)

theorem length_ofNat {n : Nat} (hpos : 0 < n) (hle : n ≤ 9999) : Length (Text.ofNat n) where
  nonempty := Text.ofNat_ne_nil n
  short := (Text.length_ofNat_le_iff (by decide)).2 (Nat.lt_succ_of_le hle)
  decimal := fun _ hc => Text.isDigit_of_mem_ofNat hc
  positive := by rwa [Text.digitsValue_ofNat]

theorem isNormal_of_spec {t : Text} {v : Variable} (h : Spec t v) : v.IsNormal := by
  cases h with
  | bare hn => exact ⟨hn, nofun⟩
  | exploded hn => exact ⟨hn, nofun⟩
  | measured hn hd =>
      refine ⟨hn, fun n he => ?_⟩
      obtain rfl : _ = n := Option.some.inj he
      have hpos := hd.positive
      have hle := digitsValue_le hd
      exact ⟨by omega, by omega, rfl⟩

theorem isNormal_of_specs {t : Text} {vs : List Variable} (h : Specs t vs) :
    vs ≠ [] ∧ ∀ v ∈ vs, v.IsNormal := by
  induction h with
  | one hv => exact ⟨by simp, by simpa using isNormal_of_spec hv⟩
  | more hv _ ih => exact ⟨by simp, List.forall_mem_cons.2 ⟨isNormal_of_spec hv, ih.2⟩⟩

theorem isNormal_of_braced {t : Text} {e : Expression} (h : Braced t e) : e.IsNormal := by
  cases h with
  | mk o hs => exact isNormal_of_specs hs

/-- Where no literal may stand, none is read. -/
theorem isLiteral_of_literalEnds {s : Text} {ps : List Part} (hs : Parser.LiteralEnds s)
    (h : Template s ps) : ∀ p ∈ ps.head?, p.isLiteral = false := by
  cases h with
  | nil => nofun
  | @literal t _ _ ht hb =>
      cases t with
      | nil => contradiction
      | cons c t =>
          have hc : c = .char '{' := hs c rfl
          subst hc
          exact absurd List.mem_cons_self hb
  | expression =>
      rintro p hp
      obtain rfl := Option.some.inj hp
      rfl

theorem separated_literal {t rest : Text} {ps : List Part} (hr : Parser.LiteralEnds rest)
    (h : Template rest ps) (hs : Part.Separated ps) : Part.Separated (.literal t :: ps) := by
  have hp := isLiteral_of_literalEnds hr h
  cases ps with
  | nil => trivial
  | cons p ps => exact ⟨fun _ => hp p rfl, hs⟩

theorem separated_expression {e : Expression} {ps : List Part} (hs : Part.Separated ps) :
    Part.Separated (.expression e :: ps) := by
  cases ps with
  | nil => trivial
  | cons p ps => exact ⟨nofun, hs⟩

theorem allNormal_of_template {s : Text} {ps : List Part} (h : Template s ps) :
    Part.AllNormal ps := by
  induction h with
  | nil => exact ⟨by simp, trivial⟩
  | literal ht hb hr h ih =>
      exact ⟨List.forall_mem_cons.2 ⟨⟨ht, hb⟩, ih.1⟩,
        separated_literal (Parser.literalEnds_iff.2 hr) h ih.2⟩
  | expression he _ ih =>
      exact ⟨List.forall_mem_cons.2 ⟨isNormal_of_braced he, ih.1⟩, separated_expression ih.2⟩

theorem spec_text {v : Variable} (h : v.IsNormal) : Spec v.text v := by
  rcases v with ⟨name, len, explode⟩
  obtain ⟨hn, hl⟩ := h
  cases len with
  | none =>
      cases explode with
      | true => exact .exploded hn
      | false => exact .bare hn
  | some n =>
      obtain ⟨hpos, hle, he⟩ := hl n rfl
      obtain rfl : explode = false := he
      obtain ⟨m, rfl⟩ := Int.eq_ofNat_of_zero_le (by omega : 0 ≤ n)
      have hd : Length (Text.ofNat m) := length_ofNat (by omega) (by omega)
      simpa [Variable.text, Text.ofInt, Text.digitsValue_ofNat] using Spec.measured hn hd

theorem specs_text {vs : List Variable} (hne : vs ≠ []) (h : ∀ v ∈ vs, v.IsNormal) :
    Specs (Text.joined (.char ',') (vs.map Variable.text)) vs := by
  induction vs with
  | nil => contradiction
  | cons v vs ih =>
      obtain ⟨hv, hvs⟩ := List.forall_mem_cons.1 h
      cases vs with
      | nil => simpa using Specs.one (spec_text hv)
      | cons w ws => simpa using Specs.more (spec_text hv) (ih (by simp) hvs)

theorem braced_text {e : Expression} (h : e.IsNormal) : Braced e.text e :=
  .mk e.operator (specs_text h.1 h.2)

theorem literalEnds_unparse {t : Text} {ps : List Part} (h : Part.AllNormal (.literal t :: ps)) :
    Parser.LiteralEnds (Part.unparse ps) := by
  obtain ⟨hn, hs⟩ := h
  cases ps with
  | nil => simp [Parser.LiteralEnds, Part.unparse]
  | cons p ps =>
      cases p with
      | literal => exact absurd (hs.1 rfl).symm Bool.false_ne_true
      | expression e =>
          simp [Parser.LiteralEnds, Part.unparse, Part.text, Expression.text]
      | foreign kind => exact (hn (.foreign kind) (by simp)).elim

theorem AllNormal.tail {p : Part} {ps : List Part} (h : Part.AllNormal (p :: ps)) :
    Part.AllNormal ps := by
  refine ⟨fun q hq => h.1 q (List.mem_cons_of_mem _ hq), ?_⟩
  cases ps with
  | nil => trivial
  | cons q ps => exact h.2.2

/-- Normal parts are what the grammar reads off the template that they are written as. -/
theorem template_unparse {ps : List Part} (h : Part.AllNormal ps) :
    Template (Part.unparse ps) ps := by
  induction ps with
  | nil => exact .nil
  | cons p ps ih =>
      have hp := h.1 p List.mem_cons_self
      have hps := ih (AllNormal.tail h)
      cases p with
      | literal t =>
          exact .literal hp.1 hp.2 (Parser.literalEnds_iff.1 (literalEnds_unparse h)) hps
      | expression e => exact .expression (braced_text hp) hps
      | foreign => exact hp.elim

namespace Part

theorem trimLengths_outside {t : Text} (h : .char '{' ∉ t) (rest : Text) :
    trimLengths .outside (t ++ rest) = t ++ trimLengths .outside rest := by
  induction t with
  | nil => rfl
  | cons c t ih =>
      obtain ⟨hc, ht⟩ := not_or.1 fun hm => h (List.mem_cons.2 hm)
      rw [List.cons_append, trimLengths, if_neg (Ne.symm hc), ih ht, List.cons_append]

theorem trimLengths_inside {t : Text} (h : ∀ c ∈ t, c ≠ .char '}' ∧ c ≠ .char ':') (rest : Text) :
    trimLengths .inside (t ++ rest) = t ++ trimLengths .inside rest := by
  induction t with
  | nil => rfl
  | cons c t ih =>
      obtain ⟨⟨hb, hc⟩, ht⟩ := List.forall_mem_cons.1 h
      rw [List.cons_append, trimLengths, if_neg hb, if_neg hc, ih ht, List.cons_append]

theorem trimLengths_atLength {ds : Text} (hd : ∀ c ∈ ds, c.isDigit)
    (hne : ds.dropWhile (· = .char '0') ≠ []) (rest : Text) :
    trimLengths .atLength (ds ++ rest) =
      ds.dropWhile (· = .char '0') ++ trimLengths .inside rest := by
  induction ds with
  | nil => exact absurd rfl hne
  | cons c ds ih =>
      obtain ⟨hc, hds⟩ := List.forall_mem_cons.1 hd
      by_cases h0 : c = .char '0'
      · subst h0
        rw [List.dropWhile_cons_of_pos (by simp)] at hne ⊢
        exact ih hds hne
      · have hb : c ≠ .char '}' := by
          rintro rfl
          contradiction
        have hin : ∀ d ∈ ds, d ≠ .char '}' ∧ d ≠ .char ':' := by
          intro d hm
          have := hds d hm
          constructor <;> rintro rfl <;> contradiction
        rw [List.dropWhile_cons_of_neg (by simpa using h0), List.cons_append, trimLengths,
          if_neg h0, if_neg hb, trimLengths_inside hin, List.cons_append]

theorem ne_of_mem_name {n : Text} (h : Name n) : ∀ c ∈ n, c ≠ .char '}' ∧ c ≠ .char ':' := by
  intro c hc
  have hclose : .char '}' ∉ n := Parser.notMem_name h rfl (by decide) (by decide)
  have hcolon : .char ':' ∉ n := Parser.notMem_name h rfl (by decide) (by decide)
  exact ⟨ne_of_mem_of_not_mem hc hclose, ne_of_mem_of_not_mem hc hcolon⟩

theorem trimLengths_spec {t : Text} {v : Variable} (h : Spec t v) (rest : Text) :
    trimLengths .inside (t ++ rest) = v.text ++ trimLengths .inside rest := by
  cases h with
  | bare hn => exact trimLengths_inside (ne_of_mem_name hn) rest
  | exploded hn =>
      rw [List.append_assoc, trimLengths_inside (ne_of_mem_name hn)]
      simp [trimLengths, Variable.text]
  | @measured n ds hn hd =>
      have hw := Text.ofNat_digitsValue hd.decimal hd.positive
      have hne : ds.dropWhile (· = .char '0') ≠ [] := by
        rw [← hw]
        exact Text.ofNat_ne_nil _
      rw [List.append_assoc, trimLengths_inside (ne_of_mem_name hn), List.cons_append]
      simp [trimLengths, trimLengths_atLength hd.decimal hne, Variable.text, Text.ofInt, hw]

theorem trimLengths_specs {t : Text} {vs : List Variable} (h : Specs t vs) (rest : Text) :
    trimLengths .inside (t ++ .char '}' :: rest) =
      Text.joined (.char ',') (vs.map Variable.text) ++ .char '}' :: trimLengths .outside rest := by
  induction h with
  | one hv => simp [trimLengths_spec hv, trimLengths]
  | more hv hs ih =>
      rw [List.append_assoc, trimLengths_spec hv, List.cons_append]
      cases hs <;> simp_all [trimLengths]

theorem trimLengths_braced {t : Text} {e : Expression} (h : Braced t e) (rest : Text) :
    trimLengths .outside (t ++ rest) = e.text ++ trimLengths .outside rest := by
  cases h with
  | mk o hs =>
      have ho : ∀ c ∈ o.text, c ≠ .char '}' ∧ c ≠ .char ':' := by
        cases o <;> simp [Operator.text, Operator.symbol?]
      simp only [List.append_assoc, List.cons_append, List.nil_append, Expression.text]
      rw [trimLengths, if_pos rfl, trimLengths_inside ho, trimLengths_specs hs]

theorem trimLengths_eq_unparse {s : Text} {ps : List Part} (h : Template s ps) :
    trimLengths .outside s = unparse ps := by
  induction h with
  | nil => rfl
  | literal _ hb _ _ ih => rw [trimLengths_outside hb, ih]; rfl
  | expression he _ ih => rw [trimLengths_braced he, ih]; rfl

end Part

/-- Reading and writing undo each other on normal parts. A template that is read and written
again has lost the zeros in front of its lengths and nothing else, so that two templates have the
same parts exactly if they differ in such zeros only. -/
theorem parse_unparse :
    (∀ s ps, parse s = .ok ps → Part.AllNormal ps ∧
      Part.unparse ps = Part.trimLengths .outside s ∧ parse (Part.unparse ps) = .ok ps) ∧
    (∀ ps, Part.AllNormal ps → parse (Part.unparse ps) = .ok ps) ∧
    (∀ s t ps qs, parse s = .ok ps → parse t = .ok qs →
      (ps = qs ↔ Part.trimLengths .outside s = Part.trimLengths .outside t)) := by
  have hback (ps : List Part) (h : Part.AllNormal ps) : parse (Part.unparse ps) = .ok ps :=
    parse_eq_ok_iff.2 (template_unparse h)
  have hread (s : Text) (ps : List Part) (h : parse s = .ok ps) :
      Part.AllNormal ps ∧ Part.unparse ps = Part.trimLengths .outside s :=
    ⟨allNormal_of_template (parse_eq_ok_iff.1 h),
      (Part.trimLengths_eq_unparse (parse_eq_ok_iff.1 h)).symm⟩
  refine ⟨fun s ps h => ?_, hback, fun s t ps qs hs ht => ?_⟩
  · obtain ⟨hn, hu⟩ := hread s ps h
    exact ⟨hn, hu, hback ps hn⟩
  · obtain ⟨hp, hps⟩ := hread s ps hs
    obtain ⟨hq, hqs⟩ := hread t qs ht
    rw [← hps, ← hqs]
    constructor
    · rintro rfl
      rfl
    · intro he
      have hb := hback ps hp
      rw [he, hback qs hq] at hb
      exact (Except.ok.inj hb).symm

theorem parse_unparse_zeros :
    parse (Text.of "{x:007}") = .ok [.expression ⟨.simple, [⟨[.char 'x'], some 7, false⟩]⟩] ∧
    parse (Text.of "{x:7}") = .ok [.expression ⟨.simple, [⟨[.char 'x'], some 7, false⟩]⟩] := by
  have hd : Length [.char '0', .char '0', .char '7'] := ⟨by decide, by decide, by simp, by decide⟩
  have hx : Spec (Text.of "x:007") ⟨[.char 'x'], some 7, false⟩ := .measured (.unit (.word rfl)) hd
  have h := parse_eq_ok_iff.2 (.expression (.mk .simple (.one hx)) .nil)
  exact ⟨h, (parse_unparse.1 _ _ h).2.2⟩

end UriTemplate
