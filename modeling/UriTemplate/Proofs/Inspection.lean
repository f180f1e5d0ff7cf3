import UriTemplate.Command.Inspect
import UriTemplate.Proofs.Pieces
import UriTemplate.Proofs.Quoting
import UriTemplate.Proofs.Reading.Lookahead
import UriTemplate.Proofs.RoundTrip

namespace UriTemplate

namespace Text

def closeUp : Text → Text
  | .char ',' :: .char ' ' :: s => .char ',' :: closeUp s
  | c :: s => c :: closeUp s
  | [] => []

theorem closeUp_append {t : Text} (h : .char ',' ∉ t) (s : Text) :
    closeUp (t ++ s) = t ++ closeUp s := by
  induction t with
  | nil => rfl
  | cons c t ih =>
      obtain ⟨hc, ht⟩ := not_or.1 fun hm => h (List.mem_cons.2 hm)
      rw [List.cons_append, closeUp, ih ht, List.cons_append]
      rintro _ rfl
      exact absurd rfl hc

theorem closeUp_listed {ts : List Text} (h : ∀ t ∈ ts, .char ',' ∉ t) :
    closeUp (listed ts) = joined (.char ',') ts := by
  induction ts with
  | nil => rfl
  | cons t ts ih =>
      obtain ⟨ht, hts⟩ := List.forall_mem_cons.1 h
      cases ts with
      | nil =>
          have hend := closeUp_append ht []
          rw [List.append_nil, closeUp, List.append_nil] at hend
          simpa [listed, List.intercalate] using hend
      | cons u ts =>
          have hcons : listed (t :: u :: ts) = t ++ .char ',' :: .char ' ' :: listed (u :: ts) := by
            simp [listed, List.intercalate, of, ofChars]
          rw [hcons, closeUp_append ht, closeUp, ih hts, joined_cons_cons]

end Text

namespace Variable

variable {v : Variable}

theorem comma_notMem_text (h : v.IsNormal) : .char ',' ∉ v.text :=
  Parser.notMem_spec (spec_text h) (by decide) (by decide)

theorem exists_text (v : Variable) :
    ∃ modifier, v.text = v.name ++ modifier ∧
      ∀ c ∈ modifier.head?, c = .char '*' ∨ c = .char ':' := by
  rcases v with ⟨name, length, explode⟩
  cases explode with
  | true => exact ⟨[.char '*'], rfl, by simp⟩
  | false =>
      cases length with
      | some n => exact ⟨.char ':' :: Text.ofInt n, rfl, by simp⟩
      | none => exact ⟨[], (List.append_nil name).symm, nofun⟩

/-- A name ends at its modifier. -/
theorem takeWhile_text (h : v.IsNormal) :
    v.text.takeWhile (fun c => c ≠ .char '*' ∧ c ≠ .char ':') = v.name := by
  have hname : ∀ c ∈ v.name, decide (c ≠ .char '*' ∧ c ≠ .char ':') = true := by
    intro c hc
    have hstar : .char '*' ∉ v.name := Parser.notMem_name h.1 (by decide) (by decide) (by decide)
    have hcolon : .char ':' ∉ v.name := Parser.notMem_name h.1 (by decide) (by decide) (by decide)
    exact decide_eq_true ⟨ne_of_mem_of_not_mem hc hstar, ne_of_mem_of_not_mem hc hcolon⟩
  obtain ⟨modifier, htext, hhead⟩ := exists_text v
  rw [htext]
  apply Parser.takeWhile_append hname
  intro c hc
  rw [decide_eq_false_iff_not, not_and_or, not_not, not_not]
  exact hhead c hc

end Variable

namespace Command

theorem World.eq_of_print {w : World} {t out : Text} (h : w.print t = .printed out) : t = out := by
  rw [print] at h
  split at h
  · exact Outcome.printed.inj h
  · contradiction

namespace Inspect

namespace Row

def isExpression (r : Row) : Bool := r.kind = Text.of "expression"

def template (r : Row) : Text := .char '{' :: r.operator ++ Text.closeUp r.content ++ [.char '}']

def names (r : Row) : List Text :=
  if r.isExpression then
    (Text.pieces (.char ',') (Text.closeUp r.content)).map fun t =>
      t.takeWhile fun c => c ≠ .char '*' ∧ c ≠ .char ':'
  else []

inductive Tells (i : Nat) (r : Row) : Part → Prop
  | literal {t : Text} : r.index = i → r.kind = Text.of "literal" → r.operator = [] →
      r.content = Text.quoted t → Text.unquote? r.content = some t → Tells i r (.literal t)
  | expression {e : Expression} : r.index = i → r.kind = Text.of "expression" →
      r.operator = e.operator.text → parse r.template = .ok [.expression e] →
      Tells i r (.expression e)

/-- A row tells of no other part. -/
theorem Tells.unique {i : Nat} {r : Row} {p q : Part} (hp : r.Tells i p) (hq : r.Tells i q) :
    p = q := by
  have hkinds : Text.of "literal" ≠ Text.of "expression" := by decide
  cases hp with
  | literal _ hkind _ _ ht =>
      cases hq with
      | literal _ _ _ _ hu => rw [Option.some.inj (ht.symm.trans hu)]
      | expression _ hkind' => exact absurd (hkind.symm.trans hkind') hkinds
  | expression _ hkind _ he =>
      cases hq with
      | literal _ hkind' => exact absurd (hkind'.symm.trans hkind) hkinds
      | expression _ _ _ hf => exact (List.cons.inj (Except.ok.inj (he.symm.trans hf))).1

theorem closeUp_content {e : Expression} (h : e.IsNormal) :
    Text.closeUp (Text.listed (e.vars.map Variable.text)) =
      Text.joined (.char ',') (e.vars.map Variable.text) := by
  apply Text.closeUp_listed
  intro t ht
  obtain ⟨v, hv, rfl⟩ := List.mem_map.1 ht
  exact Variable.comma_notMem_text (h.2 v hv)

theorem exists_ofPart? {p : Part} (h : p.IsNormal) (i : Nat) :
    ∃ r, ofPart? i p = some r ∧ Tells i r p ∧ r.names = p.names ∧
      (r.isExpression ↔ p.names ≠ []) := by
  cases p with
  | literal t =>
      refine ⟨_, rfl, .literal rfl rfl rfl rfl (Text.unquote?_quoted t), rfl, ?_⟩
      simp only [isExpression, Part.names, decide_eq_true_eq, ne_eq, not_true_eq_false, iff_false]
      decide
  | expression e =>
      have he : e.IsNormal := h
      have hparse : parse e.text = .ok [.expression e] := by
        have hnormal : Part.AllNormal [.expression e] := ⟨by simpa using h, trivial⟩
        simpa [Part.unparse, Part.text] using parse_eq_ok_iff.2 (template_unparse hnormal)
      refine ⟨_, rfl, .expression rfl rfl rfl ?_, ?_, ?_⟩
      · rw [template, closeUp_content he]
        exact hparse
      · have hexpression : isExpression ⟨i, Text.of "expression", e.operator.text,
            Text.listed (e.vars.map Variable.text)⟩ = true := rfl
        rw [names, if_pos hexpression, closeUp_content he, Text.pieces_joined, List.map_map]
        · exact List.map_congr_left fun v hv => Variable.takeWhile_text (he.2 v hv)
        · simpa using he.1
        · intro t ht
          obtain ⟨v, hv, rfl⟩ := List.mem_map.1 ht
          exact Variable.comma_notMem_text (he.2 v hv)
      · simpa [isExpression, Part.names, Expression.names] using he.1
  | foreign => exact h.elim

theorem cells_injective : Function.Injective cells := by
  rintro ⟨i, kind, operator, content⟩ ⟨j, kind', operator', content'⟩ h
  simp only [cells, List.cons.injEq, and_true] at h
  obtain ⟨hindex, rfl, rfl, rfl⟩ := h
  have hij := congrArg Text.digitsValue hindex
  rw [Text.digitsValue_ofNat, Text.digitsValue_ofNat] at hij
  rw [hij]

end Row

/-- A row for each part, in their order. -/
theorem rowsFrom_spec {ps : List Part} (h : ∀ p ∈ ps, p.IsNormal) (k : Nat) :
    (rowsFrom k ps).length = ps.length ∧
    (∀ (i : Nat) (p : Part), ps[i]? = some p →
      ∃ r : Row, (rowsFrom k ps)[i]? = some r ∧ r.Tells (k + i) p) ∧
    (rowsFrom k ps).flatMap Row.names = ps.flatMap Part.names ∧
    ((∀ r ∈ rowsFrom k ps, ¬ r.isExpression) ↔ ps.flatMap Part.names = []) := by
  induction ps generalizing k with
  | nil => exact ⟨rfl, nofun, rfl, by simp [rowsFrom]⟩
  | cons p ps ih =>
      obtain ⟨hp, hps⟩ := List.forall_mem_cons.1 h
      obtain ⟨r, hr, htells, hnames, hexpression⟩ := Row.exists_ofPart? hp k
      obtain ⟨hlength, hrows, hall, hnone⟩ := ih hps (k + 1)
      have hcons : rowsFrom k (p :: ps) = r :: rowsFrom (k + 1) ps := by
        rw [rowsFrom, hr]
        rfl
      rw [hcons]
      refine ⟨by rw [List.length_cons, hlength, List.length_cons], ?_, ?_, ?_⟩
      · intro i q hq
        cases i with
        | zero =>
            obtain rfl := Option.some.inj hq
            exact ⟨r, rfl, htells⟩
        | succ i =>
            obtain ⟨r', hr', htells'⟩ := hrows i q hq
            exact ⟨r', hr', by rwa [Nat.add_right_comm, Nat.add_assoc] at htells'⟩
      · rw [List.flatMap_cons, List.flatMap_cons, hnames, hall]
      · rw [List.forall_mem_cons, hnone, hexpression, not_not, List.flatMap_cons,
          List.append_eq_nil_iff]

theorem eq_of_rows_eq {ps qs : List Part} (hp : ∀ p ∈ ps, p.IsNormal) (hq : ∀ q ∈ qs, q.IsNormal)
    (h : rows ps = rows qs) : ps = qs := by
  obtain ⟨hlength, hrows, -⟩ := rowsFrom_spec hp 0
  obtain ⟨hlength', hrows', -⟩ := rowsFrom_spec hq 0
  have hsame : ps.length = qs.length := by
    rw [← hlength, ← hlength']
    exact congrArg List.length h
  apply List.ext_getElem hsame
  intro i hi hi'
  obtain ⟨r, hr, htells⟩ := hrows i _ (List.getElem?_eq_getElem hi)
  obtain ⟨r', hr', htells'⟩ := hrows' i _ (List.getElem?_eq_getElem hi')
  have hrr : r = r' := Option.some.inj (by rw [← hr, ← hr']; exact congrArg (·[i]?) h)
  exact htells.unique (hrr ▸ htells')

theorem namesLine_eq {ps : List Part} (h : ∀ p ∈ ps, p.IsNormal) :
    namesLine ps = Text.of "Variables: " ++
      if ∀ r ∈ rows ps, ¬ r.isExpression then Text.of "(none)"
      else Text.listed ((rows ps).flatMap Row.names).eraseDups := by
  obtain ⟨-, -, hnames, hnone⟩ := rowsFrom_spec h 0
  have hempty : Part.variableNames ps = [] ↔ ∀ r ∈ rows ps, ¬ r.isExpression := by
    rw [rows, hnone, Part.variableNames]
    constructor
    · intro hnil
      by_contra hne
      obtain ⟨n, hn⟩ := List.exists_mem_of_ne_nil _ hne
      exact List.not_mem_nil (hnil ▸ List.mem_eraseDups.2 hn)
    · intro hnil
      rw [hnil]
      rfl
  rw [rows, hnames, ← rows, ← Part.variableNames]
  exact congrArg (Text.of "Variables: " ++ ·) (if_congr hempty rfl rfl)

/-- Each cell of a table stands in the drawing as it is, and so does the line below. -/
def Shows (drawing : Text) (rows : List Row) (below : Text) : Prop :=
  (∀ r ∈ rows, ∀ c ∈ r.cells, c <:+: drawing) ∧ below <:+: drawing

/-- What is listed of a template is all of it but the zeros of its lengths. The rows of two
templates are the same just if their parts are, and each row tells of its part: a literal in
quotes, an expression so that it can be read again. The names are those of the rows. -/
theorem rows_tell_parts :
    (∀ s t ps qs, parse s = .ok ps → parse t = .ok qs →
      (rows ps = rows qs ↔ ps = qs) ∧
      ((rows ps).map Row.cells = (rows qs).map Row.cells ↔ ps = qs)) ∧
    ∀ s ps, parse s = .ok ps →
      (∀ w : World, run w s = w.print (w.draw ⟨header, (rows ps).map Row.cells⟩ (namesLine ps)) ∧
        (Shows (w.draw ⟨header, (rows ps).map Row.cells⟩ (namesLine ps)) (rows ps) (namesLine ps) →
          ∀ out, run w s = .printed out → Shows out (rows ps) (namesLine ps))) ∧
      (rows ps).length = ps.length ∧
      (∀ i p, ps[i]? = some p → ∃ r, (rows ps)[i]? = some r ∧ Row.Tells i r p) ∧
      namesLine ps = Text.of "Variables: " ++
        if ∀ r ∈ rows ps, ¬ r.isExpression then Text.of "(none)"
        else Text.listed ((rows ps).flatMap Row.names).eraseDups := by
  have hnormal {s : Text} {ps : List Part} (h : parse s = .ok ps) : ∀ p ∈ ps, p.IsNormal :=
    (allNormal_of_template (parse_eq_ok_iff.1 h)).1
  constructor
  · intro s t ps qs hs ht
    have hrows : rows ps = rows qs ↔ ps = qs :=
      ⟨eq_of_rows_eq (hnormal hs) (hnormal ht), congrArg rows⟩
    exact ⟨hrows, (List.map_injective_iff.2 Row.cells_injective).eq_iff.trans hrows⟩
  · intro s ps hs
    obtain ⟨hlength, htells, -⟩ := rowsFrom_spec (hnormal hs) 0
    have hrun (w : World) :
        run w s = w.print (w.draw ⟨header, (rows ps).map Row.cells⟩ (namesLine ps)) := by
      rw [run, hs]
      rfl
    refine ⟨fun w => ⟨hrun w, fun hshows out hout => ?_⟩, hlength, ?_, namesLine_eq (hnormal hs)⟩
    · rw [hrun] at hout
      rwa [← World.eq_of_print hout]
    · intro i p hp
      obtain ⟨r, hr, h⟩ := htells i p hp
      exact ⟨r, hr, by rwa [Nat.zero_add] at h⟩

/-- Quotes in a literal, zeros in a length, and a name that comes again. -/
theorem rows_tell_parts_quotes :
    let e : Expression := ⟨.query, [⟨[.char 'x'], some 3, false⟩, ⟨Text.of "y.z", none, true⟩]⟩
    let ps : List Part := [.literal (Text.of "it's "), .expression e,
      .expression ⟨.simple, [⟨[.char 'x'], none, false⟩]⟩]
    parse (Text.of "it's {?x:003,y.z*}{x}") = .ok ps ∧
    parse (Text.of "it's {?x:3,y.z*}{x}") = .ok ps ∧
    (∃ r, (rows ps)[1]? = some r ∧ r.content = Text.of "x:3, y.z*" ∧
      Row.Tells 1 r (.expression e)) ∧
    namesLine ps = Text.of "Variables: x, y.z" ∧
    ∀ t qs, parse t = .ok qs → rows qs = rows ps → qs = ps := by
  intro e ps
  have hp : parse (Text.of "it's {?x:003,y.z*}{x}") = .ok ps := by decide +kernel
  have hq : parse (Text.of "it's {?x:3,y.z*}{x}") = .ok ps := by decide +kernel
  obtain ⟨-, -, htells, hnames⟩ := rows_tell_parts.2 _ _ hp
  obtain ⟨r, hr, ht⟩ := htells 1 (.expression e) rfl
  refine ⟨hp, hq, ⟨r, hr, ?_, ht⟩, hnames, fun t qs h hrows => ?_⟩
  · obtain rfl := Option.some.inj hr
    rfl
  · exact (rows_tell_parts.1 t _ qs ps h hp).1.1 hrows

end Inspect

end Command

end UriTemplate
