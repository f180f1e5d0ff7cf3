import Mathlib.Data.List.Forall2
import UriTemplate.Proofs.Decoding
import UriTemplate.Proofs.Rendering
import UriTemplate.Proofs.RoundTrip

namespace UriTemplate

/-- The text of a single value up to the length asked for, or the texts of all items. -/
def ReadsBack (vars : Lookup) (v : Variable) (value : Text) : Prop :=
  match vars.gist v.name with
  | .nothing => False
  | .other x => ∃ t, x.text? = some t ∧
      Percent.decode? value = some (v.maxLength.elim t fun n => t.take n.toNat)
  | .items xs => ∃ ts : List Text, xs.map Value.text? = ts.map some ∧
      (Text.pieces (.char ',') value).map Percent.decode? = ts.map some

def IsPiece (vars : Lookup) (v : Variable) (piece : Text) : Prop :=
  ∃ value, piece.takeWhile (· ≠ .char '=') = v.name ∧
    piece.dropWhile (· ≠ .char '=') = .char '=' :: value ∧
    ReadsBack vars v value

theorem isPiece_of_readsBack {vars : Lookup} {v : Variable} (hv : Grammar.Name v.name)
    {value : Text} (h : ReadsBack vars v value) :
    IsPiece vars v (v.name ++ .char '=' :: value) := by
  have hequals : .char '=' ∉ v.name := Parser.notMem_name hv rfl (by decide) (by decide)
  have hn : ∀ c ∈ v.name, decide (c ≠ .char '=') = true :=
    fun c hc => decide_eq_true (ne_of_mem_of_not_mem hc hequals)
  have hs : ∀ c ∈ (.char '=' :: value).head?, decide (c ≠ .char '=') = false := by simp
  exact ⟨value, Parser.takeWhile_append hn hs, Parser.dropWhile_append hn hs, h⟩

theorem readsBack_text {vars : Lookup} {v : Variable} {x : Value} {t : Text}
    (hv : v.IsNormal) (hg : vars.gist v.name = .other x) (ht : x.text? = some t)
    {cs : List Char} (hcs : v.cut t = Text.ofChars cs) :
    ReadsBack vars v (Percent.component cs) := by
  rw [ReadsBack, hg]
  refine ⟨t, ht, ?_⟩
  rw [Percent.decode?_component, ← hcs, Variable.cut_eq_take hv]

theorem readsBack_items {vars : Lookup} {v : Variable} {xs : List Value} {ts : List (List Char)}
    (hg : vars.gist v.name = .items xs)
    (hts : xs.map Value.text? = ts.map fun cs => some (.ofChars cs)) (hne : ts ≠ []) :
    ReadsBack vars v (Text.joined (.char ',') (ts.map Percent.component)) := by
  have hpieces := (Percent.map_decode?_pieces_iff hne (.char ',')).2 fun u _ =>
    Percent.notMem_component rfl u
  rw [ReadsBack, hg]
  refine ⟨ts.map Text.ofChars, ?_, ?_⟩
  · rw [hts, List.map_map, Function.comp_def]
  · rw [hpieces, List.map_map, Function.comp_def]

namespace Expansion

variable {o : Operator} {v : Variable} {vars : Lookup}

theorem label_query (ho : o = .query ∨ o = .continuation) (t : Text) :
    label o v t = v.name ++ .char '=' :: t := by
  obtain rfl | rfl := ho <;> rfl

theorem spell_query (ho : o = .query ∨ o = .continuation) (cs : List Char) :
    spell o cs = Percent.component cs := by
  obtain rfl | rfl := ho <;> rfl

/-- What a defined variable is written as. A list of one item has no separator. -/
theorem exists_value (ho : o = .query ∨ o = .continuation) (hv : v.IsNormal)
    (hx : v.explode → ∀ xs, vars.gist v.name = .items xs → xs.length < 2)
    (hd : vars.isDefined v.name) {t : Option Text} (ht : renderVariable o v vars = .ok t) :
    ∃ value, t = some (v.name ++ .char '=' :: value) ∧ .char '&' ∉ value ∧
      ReadsBack vars v value := by
  cases hg : vars.gist v.name with
  | nothing => simp [Lookup.isDefined_eq_false_iff.2 hg] at hd
  | other x =>
      obtain ⟨u, cs, hu, hcs, rfl⟩ := (renderVariable_of_other hg).1 ht
      refine ⟨Percent.component cs, ?_, Percent.notMem_component rfl _,
        readsBack_text hv hg hu hcs⟩
      rw [label_query ho, spell_query ho]
  | items xs =>
      obtain ⟨ts, hne, hts, rfl⟩ := (renderVariable_of_items hg).1 ht
      have hone : v.explode → (ts.map Percent.component).length = 1 := by
        intro he
        have hlt := hx he xs hg
        have hpos := List.length_pos_iff.2 hne
        have hlen : xs.length = ts.length := by simpa using congrArg List.length hts
        rw [List.length_map]
        omega
      refine ⟨Text.joined (.char ',') (ts.map Percent.component), ?_, fun hm => ?_,
        readsBack_items hg hts hne⟩
      · rw [Text.joined_of_explode hone, label_query ho]
      · obtain h | ⟨u, hu, hm⟩ := Text.mem_joined hm
        · contradiction
        · obtain ⟨t, -, rfl⟩ := List.mem_map.1 hu
          exact Percent.notMem_component rfl t hm

theorem forall₂_renderVariables (ho : o = .query ∨ o = .continuation) {vs : List Variable}
    (hv : ∀ v ∈ vs, v.IsNormal)
    (hx : ∀ v ∈ vs, v.explode → ∀ xs, vars.gist v.name = .items xs → xs.length < 2)
    {ts : List Text} (ht : renderVariables o vars vs = .ok ts) :
    List.Forall₂ (IsPiece vars) (vs.filter fun v => vars.isDefined v.name) ts ∧
      ∀ t ∈ ts, .char '&' ∉ t := by
  induction vs generalizing ts with
  | nil =>
      cases ht
      exact ⟨.nil, nofun⟩
  | cons v vs ih =>
      obtain ⟨hn, hns⟩ := List.forall_mem_cons.1 hv
      obtain ⟨hxv, hxs⟩ := List.forall_mem_cons.1 hx
      obtain ⟨t, us, hu, hus, rfl⟩ := renderVariables_cons_eq_ok_iff.1 ht
      obtain ⟨hpieces, hamps⟩ := ih hns hxs hus
      -- An undefined variable leaves both sides as they are, a defined one adds to both.
      cases hd : vars.isDefined v.name with
      | false =>
          rw [renderVariable_of_nothing (Lookup.isDefined_eq_false_iff.1 hd)] at hu
          cases hu
          rw [List.filter_cons_of_neg (by simp [hd])]
          exact ⟨hpieces, hamps⟩
      | true =>
          obtain ⟨value, rfl, hamp, hb⟩ := exists_value ho hn hxv hd hu
          have hname : .char '&' ∉ v.name := Parser.notMem_name hn.1 rfl (by decide) (by decide)
          have hnot : .char '&' ∉ v.name ++ .char '=' :: value := by simp [hname, hamp]
          rw [List.filter_cons, if_pos hd]
          exact ⟨.cons (isPiece_of_readsBack hn.1 hb) hpieces,
            List.forall_mem_cons.2 ⟨hnot, hamps⟩⟩

end Expansion

/-- An expression with `?` or `&` is expanded to the operator and pieces between ampersands, one for
each defined variable in order. Each piece is cut at its first equals sign into the name and an
encoded value, from which the value's text or texts can be read. -/
theorem query_reads_back {template : Text} {ps : List Part} {e : Expression} {vars : Lookup}
    {t : Text} (hp : parse template = .ok ps) (he : .expression e ∈ ps)
    (ho : e.operator = .query ∨ e.operator = .continuation)
    (ht : Expansion.renderExpression e vars = .ok t) (hd : ∃ v ∈ e.vars, vars.isDefined v.name)
    (hx : ∀ v ∈ e.vars, v.explode → ∀ xs, vars.gist v.name = .items xs → xs.length < 2) :
    ∃ body, t = e.operator.text ++ body ∧
      List.Forall₂ (IsPiece vars) (e.vars.filter fun v => vars.isDefined v.name)
        (Text.pieces (.char '&') body) := by
  have hn : e.IsNormal := (allNormal_of_template (parse_eq_ok_iff.1 hp)).1 _ he
  obtain ⟨ts, hts, rfl⟩ := Outcome.map_eq_ok_iff.1 ht
  obtain ⟨hpieces, hamps⟩ := Expansion.forall₂_renderVariables ho hn.2 hx hts
  have hne : ts ≠ [] := by
    rintro rfl
    obtain ⟨v, hv, hdv⟩ := hd
    have hnil := List.forall₂_nil_right_iff.1 hpieces
    exact List.not_mem_nil (hnil ▸ List.mem_filter.2 ⟨hv, hdv⟩)
  refine ⟨Text.joined (.char '&') ts, ?_, ?_⟩
  · rw [Expansion.assemble_of_ne_nil _ hne]
    obtain ho | ho := ho <;> rw [ho] <;> rfl
  · rw [Text.pieces_joined hne hamps]
    exact hpieces

theorem query_reads_back_cut :
    let vars : Lookup := fun n =>
      if n = [.char 'x'] then some (.string (Text.of "é&z"))
      else if n = [.char 'y'] then some (.list [.string (Text.of "a,b"), .null, .string []])
      else none
    let e : Expression :=
      ⟨.query, [⟨[.char 'x'], some 2, false⟩, ⟨[.char 'z'], none, false⟩,
        ⟨[.char 'y'], none, false⟩]⟩
    parse (Text.of "{?x:2,z,y}") = .ok [.expression e] ∧
      Expansion.renderExpression e vars = .ok (Text.of "?x=%C3%A9%26&y=a%2Cb,") ∧
      List.Forall₂ (IsPiece vars) (e.vars.filter fun v => vars.isDefined v.name)
        (Text.pieces (.char '&') (Text.of "x=%C3%A9%26&y=a%2Cb,")) := by
  intro vars e
  have hx : Grammar.Spec [.char 'x', .char ':', .char '2'] ⟨[.char 'x'], some 2, false⟩ :=
    .measured (.unit (.word rfl)) ⟨by decide, by decide, by simp, by decide⟩
  have hz : Grammar.Spec [.char 'z'] ⟨[.char 'z'], none, false⟩ := .bare (.unit (.word rfl))
  have hy : Grammar.Spec [.char 'y'] ⟨[.char 'y'], none, false⟩ := .bare (.unit (.word rfl))
  have hp : parse (Text.of "{?x:2,z,y}") = .ok [.expression e] :=
    parse_eq_ok_iff.2 (.expression (.mk .query (.more hx (.more hz (.one hy)))) .nil)
  have ht : Expansion.renderExpression e vars = .ok (Text.of "?x=%C3%A9%26&y=a%2Cb,") := rfl
  have hplain : ∀ v ∈ e.vars, v.explode = false := by simp [e]
  obtain ⟨body, hbody, hpieces⟩ := query_reads_back hp List.mem_cons_self (.inl rfl) ht
    ⟨_, List.mem_cons_self, rfl⟩ fun v hv he => by simp [hplain v hv] at he
  obtain rfl := (List.cons.inj hbody).2
  exact ⟨hp, ht, hpieces⟩

end UriTemplate
