import UriTemplate.Expansion
import UriTemplate.Proofs.Reading.Template

namespace UriTemplate.Derivation

inductive NameUnit where
  | word (c : CodePoint) (hc : Parser.isWordChar c)
  | triplet (a b : CodePoint) (ha : Text.isHexDigit a) (hb : Text.isHexDigit b)

inductive Name where
  | unit (u : NameUnit)
  | next (u : NameUnit) (n : Name)
  | dotted (u : NameUnit) (n : Name)

inductive Spec where
  | bare (n : Name)
  | exploded (n : Name)
  | measured (n : Name) (ds : Text) (hd : Grammar.Length ds)

inductive Specs where
  | one (s : Spec)
  | more (s : Spec) (ss : Specs)

structure Braced where
  operator : Operator
  specs : Specs

/-- Whole templates. Literals are as long as they can be: `free` says whether one may come first,
which it may not behind another. -/
inductive Template : (free : Bool) → Type where
  | nil {free : Bool} : Template free
  | literal (t : Text) (ht : t ≠ []) (hb : .char '{' ∉ t) (rest : Template false) : Template true
  | expression {free : Bool} (e : Braced) (rest : Template true) : Template free

def NameUnit.text : NameUnit → Text
  | word c _ => [c]
  | triplet a b _ _ => [.char '%', a, b]

def Name.text : Name → Text
  | unit u => u.text
  | next u n => u.text ++ n.text
  | dotted u n => u.text ++ .char '.' :: n.text

def Spec.text : Spec → Text
  | bare n => n.text
  | exploded n => n.text ++ [.char '*']
  | measured n ds _ => n.text ++ .char ':' :: ds

def Spec.var : Spec → Variable
  | bare n => ⟨n.text, none, false⟩
  | exploded n => ⟨n.text, none, true⟩
  | measured n ds _ => ⟨n.text, some (Text.digitsValue ds), false⟩

def Specs.text : Specs → Text
  | one s => s.text
  | more s ss => s.text ++ .char ',' :: ss.text

def Specs.vars : Specs → List Variable
  | one s => [s.var]
  | more s ss => s.var :: ss.vars

def Braced.text (e : Braced) : Text := .char '{' :: e.operator.text ++ e.specs.text ++ [.char '}']

def Braced.expression (e : Braced) : Expression := ⟨e.operator, e.specs.vars⟩

def Template.text {free : Bool} : Template free → Text
  | nil => []
  | literal t _ _ rest => t ++ rest.text
  | expression e rest => e.text ++ rest.text

def Template.parts {free : Bool} : Template free → List Part
  | nil => []
  | literal t _ _ rest => .literal t :: rest.parts
  | expression e rest => .expression e.expression :: rest.parts

theorem NameUnit.derives (u : NameUnit) : Grammar.NameUnit u.text := by
  cases u with
  | word c hc => exact .word hc
  | triplet a b ha hb => exact .triplet ha hb

theorem Name.derives (n : Name) : Grammar.Name n.text := by
  induction n with
  | unit u => exact .unit u.derives
  | next u n ih => exact .next u.derives ih
  | dotted u n ih => exact .dotted u.derives ih

theorem Spec.derives (s : Spec) : Grammar.Spec s.text s.var := by
  cases s with
  | bare n => exact .bare n.derives
  | exploded n => exact .exploded n.derives
  | measured n ds hd => exact .measured n.derives hd

theorem Specs.derives (ss : Specs) : Grammar.Specs ss.text ss.vars := by
  induction ss with
  | one s => exact .one s.derives
  | more s ss ih => exact .more s.derives ih

theorem Braced.derives (e : Braced) : Grammar.Braced e.text e.expression := .mk _ e.specs.derives

theorem literalEnds_text (d : Template false) : Parser.LiteralEnds d.text := by
  cases d with
  | nil => simp [Parser.LiteralEnds, Template.text]
  | expression e rest => simp [Parser.LiteralEnds, Template.text, Braced.text]

theorem Template.derives {free : Bool} (d : Template free) :
    Grammar.Template d.text d.parts := by
  induction d with
  | nil => exact .nil
  | literal t ht hb rest ih =>
      exact .literal ht hb (Parser.literalEnds_iff.1 (literalEnds_text rest)) ih
  | expression e rest ih => exact .expression e.derives ih

theorem exists_nameUnit {t : Text} (h : Grammar.NameUnit t) : ∃ u : NameUnit, u.text = t := by
  cases h with
  | word hc => exact ⟨.word _ hc, rfl⟩
  | triplet ha hb => exact ⟨.triplet _ _ ha hb, rfl⟩

theorem exists_name {t : Text} (h : Grammar.Name t) : ∃ n : Name, n.text = t := by
  induction h with
  | unit hu =>
      obtain ⟨u, rfl⟩ := exists_nameUnit hu
      exact ⟨.unit u, rfl⟩
  | next hu _ ih =>
      obtain ⟨u, rfl⟩ := exists_nameUnit hu
      obtain ⟨n, rfl⟩ := ih
      exact ⟨.next u n, rfl⟩
  | dotted hu _ ih =>
      obtain ⟨u, rfl⟩ := exists_nameUnit hu
      obtain ⟨n, rfl⟩ := ih
      exact ⟨.dotted u n, rfl⟩

theorem exists_spec {t : Text} {v : Variable} (h : Grammar.Spec t v) :
    ∃ s : Spec, s.text = t ∧ s.var = v := by
  cases h with
  | bare hn =>
      obtain ⟨n, rfl⟩ := exists_name hn
      exact ⟨.bare n, rfl, rfl⟩
  | exploded hn =>
      obtain ⟨n, rfl⟩ := exists_name hn
      exact ⟨.exploded n, rfl, rfl⟩
  | measured hn hd =>
      obtain ⟨n, rfl⟩ := exists_name hn
      exact ⟨.measured n _ hd, rfl, rfl⟩

theorem exists_specs {t : Text} {vs : List Variable} (h : Grammar.Specs t vs) :
    ∃ ss : Specs, ss.text = t ∧ ss.vars = vs := by
  induction h with
  | one hv =>
      obtain ⟨s, rfl, rfl⟩ := exists_spec hv
      exact ⟨.one s, rfl, rfl⟩
  | more hv _ ih =>
      obtain ⟨s, rfl, rfl⟩ := exists_spec hv
      obtain ⟨ss, rfl, rfl⟩ := ih
      exact ⟨.more s ss, rfl, rfl⟩

theorem exists_braced {t : Text} {e : Expression} (h : Grammar.Braced t e) :
    ∃ b : Braced, b.text = t ∧ b.expression = e := by
  cases h with
  | mk o hs =>
      obtain ⟨ss, rfl, rfl⟩ := exists_specs hs
      exact ⟨⟨o, ss⟩, rfl, rfl⟩

/-- A text that no literal starts has a tree that may stand behind a literal. -/
theorem exists_template {s : Text} {ps : List Part} (h : Grammar.Template s ps) :
    ∀ free, (free = false → Parser.LiteralEnds s) →
      ∃ d : Template free, d.text = s ∧ d.parts = ps := by
  induction h with
  | nil => exact fun _ _ => ⟨.nil, rfl, rfl⟩
  | @literal t rest ps ht hb hr _ ih =>
      intro free hf
      obtain ⟨d, rfl, rfl⟩ := ih false fun _ => Parser.literalEnds_iff.2 hr
      cases free with
      | true => exact ⟨.literal t ht hb d, rfl, rfl⟩
      | false =>
          cases t with
          | nil => contradiction
          | cons c t =>
              have hc : c = .char '{' := hf rfl c rfl
              subst hc
              exact absurd List.mem_cons_self hb
  | expression he _ ih =>
      intro free _
      obtain ⟨b, rfl, rfl⟩ := exists_braced he
      obtain ⟨d, rfl, rfl⟩ := ih true nofun
      exact ⟨.expression b d, rfl, rfl⟩

theorem NameUnit.text_prefix {u w : NameUnit} {s t : Text} (h : u.text ++ s = w.text ++ t) :
    u = w ∧ s = t := by
  cases u with
  | word c hc =>
      cases w with
      | word d hd =>
          obtain ⟨rfl, rfl⟩ := List.cons_eq_cons.1 h
          exact ⟨rfl, rfl⟩
      | triplet => exact absurd (List.cons_eq_cons.1 h).1 (Parser.ne_percent_of_isWordChar hc)
  | triplet a b =>
      cases w with
      | word d hd =>
          exact absurd (List.cons_eq_cons.1 h).1.symm (Parser.ne_percent_of_isWordChar hd)
      | triplet =>
          simp only [text, List.cons_append, List.nil_append, List.cons.injEq, true_and] at h
          obtain ⟨rfl, rfl, rfl⟩ := h
          exact ⟨rfl, rfl⟩

theorem Name.text_ne_nil (n : Name) : n.text ≠ [] := by
  obtain ⟨c, hc, -⟩ := Parser.startsName_of_name n.derives
  rintro h
  simp [h] at hc

theorem Name.text_ne_dot (n : Name) (s : Text) : n.text ≠ .char '.' :: s := by
  obtain ⟨c, hc, hw⟩ := Parser.startsName_of_name n.derives
  rintro h
  obtain rfl : .char '.' = c := by simpa [h] using hc
  revert hw
  decide

theorem Name.text_injective {n m : Name} (h : n.text = m.text) : n = m := by
  induction n generalizing m with
  | unit u =>
      rw [text, ← List.append_nil u.text] at h
      cases m with
      | unit w =>
          rw [text, ← List.append_nil w.text] at h
          rw [(NameUnit.text_prefix h).1]
      | next w m =>
          have he := (NameUnit.text_prefix h).2
          exact absurd he.symm m.text_ne_nil
      | dotted w m =>
          have he := (NameUnit.text_prefix h).2
          exact absurd he.symm (List.cons_ne_nil _ _)
  | next u n ih =>
      cases m with
      | unit w =>
          rw [text, text, ← List.append_nil w.text] at h
          have he := (NameUnit.text_prefix h).2
          exact absurd he n.text_ne_nil
      | next w m =>
          obtain ⟨rfl, ht⟩ := NameUnit.text_prefix h
          rw [ih ht]
      | dotted w m =>
          have he := (NameUnit.text_prefix h).2
          exact absurd he (n.text_ne_dot _)
  | dotted u n ih =>
      cases m with
      | unit w =>
          rw [text, text, ← List.append_nil w.text] at h
          have he := (NameUnit.text_prefix h).2
          exact absurd he (List.cons_ne_nil _ _)
      | next w m =>
          have he := (NameUnit.text_prefix h).2
          exact absurd he.symm (m.text_ne_dot _)
      | dotted w m =>
          obtain ⟨rfl, ht⟩ := NameUnit.text_prefix h
          rw [ih (List.cons_eq_cons.1 ht).2]

theorem Spec.var_of_text {s t : Spec} {r q : Text} (hr : Parser.Closes r)
    (hq : Parser.Closes q) (h : s.text ++ r = t.text ++ q) : s.var = t.var ∧ r = q := by
  have hs := Parser.readVariable_append s.derives hr
  rw [h, Parser.readVariable_append t.derives hq] at hs
  simp only [Except.ok.injEq, Prod.mk.injEq] at hs
  exact ⟨hs.1.symm, hs.2.symm⟩

theorem Spec.text_prefix {s t : Spec} {r q : Text} (hr : Parser.Closes r) (hq : Parser.Closes q)
    (h : s.text ++ r = t.text ++ q) : s = t ∧ r = q := by
  obtain ⟨hv, rfl⟩ := var_of_text hr hq h
  have ht := List.append_cancel_right h
  refine ⟨?_, rfl⟩
  cases s <;> cases t <;> simp only [var, Variable.mk.injEq, reduceCtorEq, and_false,
    false_and] at hv
  case bare n m => rw [Name.text_injective hv.1]
  case exploded n m => rw [Name.text_injective hv.1]
  case measured n ds hd m es he =>
      obtain rfl := Name.text_injective hv.1
      obtain rfl : ds = es := by simpa [text] using ht
      rfl

theorem Specs.text_injective {ss ts : Specs} (h : ss.text = ts.text) : ss = ts := by
  have hnil : Parser.Closes [] := by simp [Parser.Closes]
  have hcons (s : Text) : Parser.Closes (.char ',' :: s) := by simp [Parser.Closes]
  induction ss generalizing ts with
  | one s =>
      rw [text, ← List.append_nil s.text] at h
      cases ts with
      | one t =>
          rw [text, ← List.append_nil t.text] at h
          rw [(Spec.text_prefix hnil hnil h).1]
      | more t ts =>
          have hc := (Spec.text_prefix hnil (hcons _) h).2
          exact absurd hc.symm (List.cons_ne_nil _ _)
  | more s ss ih =>
      cases ts with
      | one t =>
          rw [text, text, ← List.append_nil t.text] at h
          have hc := (Spec.text_prefix (hcons _) hnil h).2
          exact absurd hc (List.cons_ne_nil _ _)
      | more t ts =>
          obtain ⟨rfl, ht⟩ := Spec.text_prefix (hcons _) (hcons _) h
          rw [ih (List.cons_eq_cons.1 ht).2]

theorem Braced.text_prefix {e f : Braced} {r q : Text} (h : e.text ++ r = f.text ++ q) :
    e = f ∧ r = q := by
  have hs := Parser.readExpression_append (o := e.operator) e.specs.derives r
  have ht := Parser.readExpression_append (o := f.operator) f.specs.derives q
  have hc : e.operator.text ++ e.specs.text ++ .char '}' :: r =
      f.operator.text ++ f.specs.text ++ .char '}' :: q := by
    simpa [text] using h
  rw [hc, ht] at hs
  simp only [Except.ok.injEq, Prod.mk.injEq, Expression.mk.injEq] at hs
  obtain ⟨⟨ho, -⟩, rfl⟩ := hs
  refine ⟨?_, rfl⟩
  rcases e with ⟨o, ss⟩
  rcases f with ⟨o', ts⟩
  obtain rfl : o' = o := ho
  obtain rfl : ss = ts := Specs.text_injective (by simpa using hc)
  rfl

theorem append_ne_brace {t : Text} (ht : t ≠ []) (hb : .char '{' ∉ t) (r s : Text) :
    t ++ r ≠ .char '{' :: s := by
  cases t with
  | nil => contradiction
  | cons c t =>
      intro h
      have hc : c = .char '{' := (List.cons_eq_cons.1 h).1
      subst hc
      exact hb List.mem_cons_self

theorem literal_prefix {t s r q : Text} (ht : .char '{' ∉ t) (hs : .char '{' ∉ s)
    (hr : Parser.LiteralEnds r) (hq : Parser.LiteralEnds q) (h : t ++ r = s ++ q) :
    t = s ∧ r = q := by
  have hts : t = s := by
    rw [← Parser.takeWhile_literal ht hr, h, Parser.takeWhile_literal hs hq]
  subst hts
  exact ⟨rfl, List.append_cancel_left h⟩

/-- The grammar is unambiguous. -/
theorem Template.text_injective {free : Bool} {d e : Template free} (h : d.text = e.text) :
    d = e := by
  induction d with
  | nil =>
      cases e with
      | nil => rfl
      | literal t ht => exact absurd (List.append_eq_nil_iff.1 h.symm).1 ht
      | expression f e => simp [text, Braced.text] at h
  | literal t ht hb rest ih =>
      cases e with
      | nil => exact absurd (List.append_eq_nil_iff.1 h).1 ht
      | literal s hs hb' e =>
          obtain ⟨rfl, hr⟩ := literal_prefix hb hb' (literalEnds_text rest) (literalEnds_text e) h
          rw [ih hr]
      | expression f e => exact absurd h (append_ne_brace ht hb _ _)
  | expression f rest ih =>
      cases e with
      | nil => simp [text, Braced.text] at h
      | literal t ht hb e => exact absurd h.symm (append_ne_brace ht hb _ _)
      | expression g e =>
          obtain ⟨rfl, ht⟩ := Braced.text_prefix h
          rw [ih ht]

end UriTemplate.Derivation

namespace UriTemplate

theorem Part.parse_eq_ok_iff {s : Text} {ps : List Part} :
    Part.parse s = .ok ps ↔ Grammar.Template s ps := by
  rw [← Parser.readParts_eq_ok_iff, Part.parse]
  cases Parser.readParts s <;> simp

theorem parse_eq_ok_iff {s : Text} {ps : List Part} :
    parse s = .ok ps ↔ Grammar.Template s ps := by
  rw [← Part.parse_eq_ok_iff, parse]
  cases Part.parse s <;> simp

theorem parse_of_parts {s : Text} {ps : List Part} (h : Part.parse s = .ok ps) :
    parse s = .ok ps := by
  rw [parse, h, Outcome.mapError_ok]

/-- A letter in braces is a template of one variable. -/
theorem parse_letter {c : CodePoint} (h : Parser.isWordChar c) :
    parse [.char '{', c, .char '}'] = .ok [.expression ⟨.simple, [⟨[c], none, false⟩]⟩] := by
  have hc : Grammar.Spec [c] ⟨[c], none, false⟩ := .bare (.unit (.word h))
  exact parse_eq_ok_iff.2 (.expression (.mk .simple (.one hc)) .nil)

theorem parse_ok_or_error (s : Text) :
    (∃ ps, parse s = .ok ps) ∨ ∃ fault, parse s = .error (.invalidTemplate s fault) := by
  rw [parse]
  cases Part.parse s with
  | ok ps => exact .inl ⟨ps, rfl⟩
  | error fault => exact .inr ⟨fault, rfl⟩

/-- A text is read exactly if the grammar derives it, and then as what its only derivation reads
off. Every other text is refused. -/
theorem parse_decides_grammar (s : Text) :
    (∀ ps, parse s = .ok ps ↔ Grammar.Template s ps) ∧
    (∀ ps, Grammar.Template s ps ↔
      ∃ d : Derivation.Template true, d.text = s ∧ d.parts = ps) ∧
    (∀ d e : Derivation.Template true, d.text = s → e.text = s → d = e) ∧
    ((¬ ∃ ps, Grammar.Template s ps) →
      ∃ fault, parse s = .error (.invalidTemplate s fault)) := by
  refine ⟨fun ps => parse_eq_ok_iff, fun ps => ⟨fun h => ?_, ?_⟩, ?_, fun h => ?_⟩
  · exact Derivation.exists_template h true nofun
  · rintro ⟨d, rfl, rfl⟩
    exact d.derives
  · rintro d e rfl he
    exact Derivation.Template.text_injective he.symm
  · obtain ⟨ps, hps⟩ | hf := parse_ok_or_error s
    · exact absurd ⟨ps, parse_eq_ok_iff.1 hps⟩ h
    · exact hf

theorem parse_decides_grammar_dotted :
    parse (Text.of "{/a.b}") = .ok [.expression ⟨.path, [⟨Text.of "a.b", none, false⟩]⟩] := by
  have hn : Grammar.Name (Text.of "a.b") := .dotted (.word (c := .char 'a') rfl) (.unit (.word rfl))
  exact ((parse_decides_grammar _).1 _).2 (.expression (.mk .path (.one (.bare hn))) .nil)

end UriTemplate
