import Mathlib.Data.List.Induction
import UriTemplate.Bindings
import UriTemplate.Proofs.Encoding
import UriTemplate.Proofs.Pieces
import UriTemplate.Proofs.Rendering
import UriTemplate.Proofs.RoundTrip

namespace UriTemplate

namespace Part

theorem eraseDups_concat (ns : List Text) (n : Text) :
    (ns ++ [n]).eraseDups = if n ∈ ns then ns.eraseDups else ns.eraseDups ++ [n] := by
  rw [List.eraseDups_append]
  by_cases h : n ∈ ns <;> simp [List.removeAll, List.eraseDups_cons, h]

/-- Names stand in the order in which each of them comes first. -/
theorem pairwise_idxOf_eraseDups (ns : List Text) :
    ns.eraseDups.Pairwise fun m n => ns.idxOf m < ns.idxOf n := by
  -- Names are added at the end, where they change no earlier place.
  induction ns using List.reverseRecOn with
  | nil => exact .nil
  | append_singleton ns n ih =>
      have hold {k : Text} (hk : k ∈ ns.eraseDups) : (ns ++ [n]).idxOf k = ns.idxOf k := by
        rw [List.idxOf_append, if_pos (List.mem_eraseDups.1 hk)]
      have hkeep : ns.eraseDups.Pairwise fun k l => (ns ++ [n]).idxOf k < (ns ++ [n]).idxOf l := by
        apply ih.imp_of_mem
        intro k l hk hl hlt
        rwa [hold hk, hold hl]
      rw [eraseDups_concat]
      split
      · exact hkeep
      next hn =>
        refine List.pairwise_append.2 ⟨hkeep, List.pairwise_singleton _ _, ?_⟩
        intro k hk l hl
        obtain rfl := List.mem_singleton.1 hl
        have hlt := List.idxOf_lt_length_of_mem (List.mem_eraseDups.1 hk)
        rw [hold hk, List.idxOf_append, if_neg hn]
        omega

end Part

namespace Expansion

variable {o : Operator} {v : Variable} {vars : Lookup}

theorem spell_ne_nil (o : Operator) {cs : List Char} (h : cs ≠ []) : spell o cs ≠ [] := by
  rw [spell]
  split
  · exact Percent.encode_ne_nil _ h
  · exact Percent.encode_ne_nil _ h

theorem label_ne_nil {t : Text} (h : t ≠ []) : label o v t ≠ [] := by
  rw [label]
  split
  · simp
  · exact h

theorem cut_ne_nil (hv : v.IsNormal) {cs : List Char} (h : cs ≠ []) : v.cut cs ≠ [] := by
  rw [Variable.cut_eq_take hv]
  cases hm : v.maxLength with
  | none => exact h
  | some n =>
      have hpos := (hv.2 n hm).1
      simp only [Option.elim_some, ne_eq, List.take_eq_nil_iff, not_or]
      exact ⟨by omega, h⟩

theorem assemble_ne_nil (o : Operator) {ts : List Text} (hne : ts ≠ []) (h : ∀ t ∈ ts, t ≠ []) :
    assemble o ts ≠ [] := by
  rw [assemble_of_ne_nil o hne]
  cases ts with
  | nil => contradiction
  | cons t ts =>
      have ht := h t List.mem_cons_self
      cases ts <;> simp [ht]

def IsTextOrNothing (vars : Lookup) (n : Text) : Prop :=
  vars n = none ∨ ∃ cs, cs ≠ [] ∧ vars n = some (.string (.ofChars cs))

theorem exists_renderVariables {vs : List Variable} (hv : ∀ v ∈ vs, v.IsNormal)
    (h : ∀ v ∈ vs, IsTextOrNothing vars v.name) :
    ∃ ts, renderVariables o vars vs = .ok ts ∧ (∀ t ∈ ts, t ≠ []) ∧
      (ts = [] ↔ ∀ v ∈ vs, vars v.name = none) := by
  induction vs with
  | nil => exact ⟨[], rfl, nofun, by simp⟩
  | cons v vs ih =>
      obtain ⟨hn, hns⟩ := List.forall_mem_cons.1 hv
      obtain ⟨hd, hds⟩ := List.forall_mem_cons.1 h
      obtain ⟨ts, hts, hne, hnil⟩ := ih hns hds
      obtain hd | ⟨cs, hcs, hd⟩ := hd
      · have hg : vars.gist v.name = .nothing := by
          rw [Lookup.gist, hd]
          rfl
        refine ⟨ts, ?_, hne, ?_⟩
        · exact renderVariables_cons_eq_ok_iff.2
            ⟨none, ts, renderVariable_of_nothing hg, hts, rfl⟩
        · rw [hnil, List.forall_mem_cons]
          exact (and_iff_right hd).symm
      · have hg : vars.gist v.name = .other (.string (.ofChars cs)) := by
          rw [Lookup.gist, hd]
          rfl
        refine ⟨label o v (spell o (v.cut cs)) :: ts, ?_, ?_, ?_⟩
        · exact renderVariables_cons_eq_ok_iff.2 ⟨_, ts, (renderVariable_of_other hg).2
            ⟨_, _, rfl, Variable.cut_ofChars v cs, rfl⟩, hts, rfl⟩
        · exact List.forall_mem_cons.2
            ⟨label_ne_nil (spell_ne_nil o (cut_ne_nil hn hcs)), hne⟩
        · simp [hd]

theorem exists_renderExpression {e : Expression} (he : e.IsNormal)
    (h : ∀ v ∈ e.vars, IsTextOrNothing vars v.name) :
    ∃ t, renderExpression e vars = .ok t ∧ (t = [] ↔ ∀ v ∈ e.vars, vars v.name = none) := by
  obtain ⟨ts, hts, hne, hnil⟩ := exists_renderVariables (o := e.operator) he.2 h
  refine ⟨assemble e.operator ts, Outcome.map_eq_ok_iff.2 ⟨ts, hts, rfl⟩, ?_⟩
  rw [← hnil]
  constructor
  · intro ht
    by_contra hts
    exact assemble_ne_nil e.operator hts hne ht
  · rintro rfl
    rfl

/-- Giving a text to one of many names without a value makes the expansion longer if the name is
mentioned. -/
theorem exists_render_longer {ps : List Part} (hp : ∀ p ∈ ps, p.IsNormal) (n : Text)
    {cs : List Char} (hcs : cs ≠ []) :
    ∃ t u, render (Bindings.empty.get?) ps = .ok t ∧
      render (Bindings.empty.insert n (Value.string (.ofChars cs))).get? ps = .ok u ∧
      t.length ≤ u.length ∧ (n ∈ ps.flatMap Part.names → t.length < u.length) := by
  induction ps with
  | nil => exact ⟨[], [], rfl, rfl, Nat.le_refl 0, nofun⟩
  | cons p ps ih =>
      obtain ⟨hp, hps⟩ := List.forall_mem_cons.1 hp
      obtain ⟨t, u, ht, hu, hle, hlt⟩ := ih hps
      cases p with
      | literal w =>
          refine ⟨w ++ t, w ++ u, render_cons_eq_ok_iff.2 ⟨w, t, rfl, ht, rfl⟩,
            render_cons_eq_ok_iff.2 ⟨w, u, rfl, hu, rfl⟩, ?_, fun hn => ?_⟩
          · simpa using hle
          · simpa using hlt hn
      | expression e =>
          have hempty : ∀ v ∈ e.vars, IsTextOrNothing Bindings.empty.get? v.name :=
            fun v _ => .inl rfl
          have hgiven : ∀ v ∈ e.vars,
              IsTextOrNothing (Bindings.empty.insert n (Value.string (.ofChars cs))).get?
                v.name := by
            intro v _
            by_cases hv : v.name = n
            · exact .inr ⟨cs, hcs, by simp [hv]⟩
            · exact .inl (by simp [hv])
          obtain ⟨a, ha, hanil⟩ := exists_renderExpression hp hempty
          obtain ⟨b, hb, hbnil⟩ := exists_renderExpression hp hgiven
          obtain rfl : a = [] := hanil.2 fun v _ => rfl
          refine ⟨t, b ++ u, render_cons_eq_ok_iff.2 ⟨[], t, ha, ht, rfl⟩,
            render_cons_eq_ok_iff.2 ⟨b, u, hb, hu, rfl⟩, ?_, fun hn => ?_⟩
          · rw [List.length_append]
            omega
          · rw [List.flatMap_cons, List.mem_append] at hn
            rw [List.length_append]
            obtain hn | hn := hn
            · have hbne : b ≠ [] := by
                intro hnil
                obtain ⟨v, hv, rfl⟩ := List.mem_map.1 hn
                simpa using hbnil.1 hnil v hv
              have := List.length_pos_iff.2 hbne
              omega
            · have := hlt hn
              omega
      | foreign => exact hp.elim

end Expansion

variable {template : Text} {ps : List Part}

theorem expand_of_parse (hp : parse template = .ok ps) (vars : Lookup) :
    expand template vars = Expansion.render vars ps := by
  rw [expand, hp, Outcome.ok_bind]

theorem expand_of_fault {fault : ParseError}
    (h : Part.parse template = .error fault) (vars : Lookup) :
    expand template vars = .error (.invalidTemplate template fault) := by
  rw [expand, parse, h]
  rfl

theorem expand_congr (hp : parse template = .ok ps) {vars other : Lookup}
    (h : ∀ n ∈ Part.variableNames ps, other n = vars n) :
    expand template other = expand template vars := by
  rw [expand_of_parse hp, expand_of_parse hp]
  exact Expansion.render_congr h

theorem exists_expand_ne (hp : parse template = .ok ps) {n : Text}
    (hn : n ∈ Part.variableNames ps) :
    ∃ (m : Bindings Value) (x : Value) (t u : Text), expand template m.get? = .ok t ∧
      expand template (m.insert n x).get? = .ok u ∧ t ≠ u := by
  have hnormal := (allNormal_of_template (parse_eq_ok_iff.1 hp)).1
  obtain ⟨t, u, ht, hu, -, hlt⟩ :=
    Expansion.exists_render_longer hnormal n (List.cons_ne_nil 'a' [])
  refine ⟨.empty, .string (.ofChars ['a']), t, u, ?_, ?_, ?_⟩
  · rw [expand_of_parse hp, ht]
  · rw [expand_of_parse hp, hu]
  · rintro rfl
    exact Nat.lt_irrefl _ (hlt (List.mem_eraseDups.1 hn))

/-- The names of a template are those of its variables, each once and in the order of their first
mention. They are the names that matter: values of other names make no difference, and for each of
these there is a value that does, even without any error. -/
theorem mem_variableNames_iff_matters (hp : parse template = .ok ps) :
    (∀ n, n ∈ Part.variableNames ps ↔ ∃ e, .expression e ∈ ps ∧ ∃ v ∈ e.vars, v.name = n) ∧
    (Part.variableNames ps).Nodup ∧
    (Part.variableNames ps).Pairwise (fun m n =>
      (ps.flatMap Part.names).idxOf m < (ps.flatMap Part.names).idxOf n) ∧
    (∀ vars other : Lookup, (∀ n ∈ Part.variableNames ps, other n = vars n) →
      expand template other = expand template vars) ∧
    (∀ n, n ∈ Part.variableNames ps ↔ ∃ (m : Bindings Value) (x : Value),
      expand template (m.insert n x).get? ≠ expand template m.get?) ∧
    ∀ n ∈ Part.variableNames ps, ∃ (m : Bindings Value) (x : Value) (t u : Text),
      expand template m.get? = .ok t ∧ expand template (m.insert n x).get? = .ok u ∧ t ≠ u := by
  have horder := Part.pairwise_idxOf_eraseDups (ps.flatMap Part.names)
  refine ⟨fun n => Part.mem_variableNames, ?_, horder, fun vars other => expand_congr hp,
    fun n => ⟨fun hn => ?_, ?_⟩, fun n => exists_expand_ne hp⟩
  · apply horder.imp
    rintro m _ hlt rfl
    exact Nat.lt_irrefl _ hlt
  · obtain ⟨m, x, t, u, ht, hu, hne⟩ := exists_expand_ne hp hn
    refine ⟨m, x, ?_⟩
    rw [ht, hu]
    intro h
    exact hne (Except.ok.inj h).symm
  · rintro ⟨m, x, hne⟩
    by_contra hn
    apply hne
    apply expand_congr hp
    intro k hk
    rw [Bindings.get?_insert, if_neg]
    rintro rfl
    exact hn hk

theorem mem_variableNames_iff_matters_repeated :
    parse (Text.of "{x,y}{?x:2}") = .ok [
      .expression ⟨.simple, [⟨[.char 'x'], none, false⟩, ⟨[.char 'y'], none, false⟩]⟩,
      .expression ⟨.query, [⟨[.char 'x'], some 2, false⟩]⟩] ∧
    ∃ (m : Bindings Value) (x : Value) (t u : Text),
      expand (Text.of "{x,y}{?x:2}") m.get? = .ok t ∧
      expand (Text.of "{x,y}{?x:2}") (m.insert [.char 'y'] x).get? = .ok u ∧ t ≠ u := by
  have hx : Grammar.Spec [.char 'x'] ⟨[.char 'x'], none, false⟩ := .bare (.unit (.word rfl))
  have hy : Grammar.Spec [.char 'y'] ⟨[.char 'y'], none, false⟩ := .bare (.unit (.word rfl))
  have hx' : Grammar.Spec [.char 'x', .char ':', .char '2'] ⟨[.char 'x'], some 2, false⟩ :=
    .measured (.unit (.word rfl)) ⟨by decide, by decide, by simp, by decide⟩
  have hp := parse_eq_ok_iff.2 (.expression (.mk .simple (.more hx (.one hy)))
    (.expression (.mk .query (.one hx')) .nil))
  exact ⟨hp, (mem_variableNames_iff_matters hp).2.2.2.2.2 [.char 'y'] (by decide)⟩

end UriTemplate
