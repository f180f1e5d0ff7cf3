import UriTemplate.Expansion.Offences
import UriTemplate.Proofs.Encoding

namespace UriTemplate

def Value.text? : Value → Option Text
  | .scalar s => s.text?
  | _ => none

theorem Value.Gist.of_ofItems {items xs : List Value} (h : ofItems items = .items xs) :
    xs ≠ [] ∧ ∀ x ∈ xs, x.isNull = false := by
  rw [ofItems] at h
  split at h
  · contradiction
  next hne =>
    obtain rfl := Gist.items.inj h
    exact ⟨hne, fun x hx => by simpa using (List.mem_filter.1 hx).2⟩

theorem Lookup.of_gist_items {vars : Lookup} {n : Text} {xs : List Value}
    (h : vars.gist n = .items xs) : xs ≠ [] ∧ ∀ x ∈ xs, x.isNull = false := by
  rw [gist] at h
  cases hx : vars n with
  | none => simp [hx] at h
  | some x =>
      rw [hx] at h
      cases x with
      | list | tuple | range => exact Value.Gist.of_ofItems h
      | _ => contradiction

theorem Value.Gist.ofItems_ne_other (items : List Value) (x : Value) :
    ofItems items ≠ .other x := by
  rw [ofItems]
  split <;> nofun

theorem Lookup.of_gist_other {vars : Lookup} {n : Text} {x : Value} (h : vars.gist n = .other x) :
    vars n = some x := by
  rw [gist] at h
  cases hy : vars n with
  | none => simp [hy] at h
  | some y =>
      rw [hy] at h
      cases y with
      | null => contradiction
      | list | tuple | range => exact absurd h (Value.Gist.ofItems_ne_other _ x)
      | _ => exact congrArg some (Value.Gist.other.inj h)

theorem Lookup.isDefined_eq_false_iff {vars : Lookup} {n : Text} :
    vars.isDefined n = false ↔ vars.gist n = .nothing := by
  rw [isDefined]
  cases vars.gist n <;> simp [Value.Gist.isNothing]

theorem Part.mem_variableNames {ps : List Part} {n : Text} :
    n ∈ variableNames ps ↔ ∃ e, .expression e ∈ ps ∧ ∃ v ∈ e.vars, v.name = n := by
  rw [variableNames, List.mem_eraseDups, List.mem_flatMap]
  constructor
  · rintro ⟨p, hp, hn⟩
    cases p with
    | expression e => exact ⟨e, hp, List.mem_map.1 hn⟩
    | literal | foreign => contradiction
  · rintro ⟨e, he, hn⟩
    exact ⟨.expression e, he, List.mem_map.2 hn⟩

namespace Expansion

variable {o : Operator} {v : Variable} {vars other : Lookup}

theorem renderVariables_cons_eq_ok_iff {vs : List Variable} {ts : List Text} :
    renderVariables o vars (v :: vs) = .ok ts ↔ ∃ t us, renderVariable o v vars = .ok t ∧
      renderVariables o vars vs = .ok us ∧ t.toList ++ us = ts :=
  Outcome.bind_bind_eq_ok_iff

theorem render_cons_eq_ok_iff {p : Part} {ps : List Part} {t : Text} :
    render vars (p :: ps) = .ok t ↔
      ∃ u w, renderPart vars p = .ok u ∧ render vars ps = .ok w ∧ u ++ w = t :=
  Outcome.bind_bind_eq_ok_iff

theorem scalarText_eq_ok_iff {s : Scalar} {t : Text} : scalarText s = .ok t ↔ s.text? = some t := by
  rw [scalarText]
  cases s.text? <;> simp

theorem itemTexts_filter (name : Text) (items : List Value) :
    itemTexts name (items.filter fun x => !x.isNull) = itemTexts name items := by
  induction items with
  | nil => rfl
  | cons x items ih =>
      cases x with
      | null => exact ih
      | scalar s =>
          rw [List.filter_cons_of_pos rfl, itemTexts, itemTexts, ih]
      | _ => rfl

theorem itemText_eq_ok_iff {s : Scalar} {cs : List Char} :
    itemText s = .ok cs ↔ s.text? = some (Text.ofChars cs) := by
  rw [itemText, Outcome.bind_eq_ok_iff]
  simp only [scalarText_eq_ok_iff, Text.encodable_eq_ok_iff]
  constructor
  · rintro ⟨t, ht, rfl⟩
    exact ht
  · intro ht
    exact ⟨_, ht, rfl⟩

theorem itemTexts_eq_ok_iff {name : Text} {xs : List Value} (h : ∀ x ∈ xs, x.isNull = false)
    {ts : List (List Char)} :
    itemTexts name xs = .ok ts ↔ xs.map Value.text? = ts.map fun cs => some (.ofChars cs) := by
  induction xs generalizing ts with
  | nil => cases ts <;> simp [itemTexts]
  | cons x xs ih =>
      obtain ⟨hx, hxs⟩ := List.forall_mem_cons.1 h
      cases x with
      | null => contradiction
      | scalar s =>
          rw [itemTexts, Outcome.bind_bind_eq_ok_iff]
          cases ts with
          | nil => simp
          | cons t ts =>
              simp only [itemText_eq_ok_iff, ih hxs, List.cons.injEq, List.map_cons, Value.text?]
              grind
      | _ => cases ts <;> simp [itemTexts, Value.text?]

theorem joinItems_of_ne_nil (o : Operator) (explode : Bool) {ts : List (List Char)} (h : ts ≠ []) :
    joinItems o explode ts =
      some (.encoded (Text.joined (if explode then o.itemSeparator else .char ',')
        (ts.map Percent.component))) := by
  cases ts with
  | nil => contradiction
  | cons t ts => rfl

def spell (o : Operator) : List Char → Text :=
  if o.keepsReserved then Percent.withReserved else Percent.component

theorem encode_plain_eq_ok_iff {t u : Text} :
    encode o (.plain t) = .ok u ↔ ∃ cs, t = Text.ofChars cs ∧ spell o cs = u := by
  rw [encode, spell]
  split
  · exact Percent.encodeReserved_eq_ok_iff
  · exact Percent.encodeComponent_eq_ok_iff

theorem write_plain_eq_ok_iff {t u : Text} :
    write o v (.plain t) = .ok u ↔
      ∃ cs, t = Text.ofChars cs ∧ label o v (spell o cs) = u := by
  rw [write, Outcome.map_eq_ok_iff]
  simp only [encode_plain_eq_ok_iff]
  constructor
  · rintro ⟨_, ⟨cs, hcs, rfl⟩, rfl⟩
    exact ⟨cs, hcs, rfl⟩
  · rintro ⟨cs, hcs, rfl⟩
    exact ⟨_, ⟨cs, hcs, rfl⟩, rfl⟩

theorem assemble_of_ne_nil (o : Operator) {ts : List Text} (h : ts ≠ []) :
    assemble o ts = o.opening ++ Text.joined o.separator ts := by
  cases ts with
  | nil => contradiction
  | cons t ts => rfl

def resolveGist (o : Operator) (v : Variable) : Value.Gist → Except Error (Option Resolved)
  | .nothing => .ok none
  | .items xs => (itemTexts v.name xs).map (joinItems o v.explode)
  | .other (.scalar s) => (scalarText s).map fun t => some (.plain (v.cut t))
  | .other x => .error (.unsupportedValue v.name x.kind)

theorem resolveGist_ofItems (o : Operator) (v : Variable) (items : List Value) :
    resolveGist o v (.ofItems items) = (itemTexts v.name items).map (joinItems o v.explode) := by
  rw [← itemTexts_filter, Value.Gist.ofItems]
  split
  next h => rw [h]; rfl
  next => rfl

theorem resolve_eq_resolveGist (o : Operator) (v : Variable) (vars : Lookup) :
    resolve o v vars = resolveGist o v (vars.gist v.name) := by
  rw [resolve, Lookup.gist]
  cases vars v.name with
  | none => rfl
  | some x =>
      cases x with
      | list items | tuple items => exact (resolveGist_ofItems o v items).symm
      | range start stop step => exact (resolveGist_ofItems o v _).symm
      | _ => rfl

theorem renderVariables_congr {vs : List Variable}
    (h : ∀ v ∈ vs, other.gist v.name = vars.gist v.name) :
    renderVariables o other vs = renderVariables o vars vs := by
  induction vs with
  | nil => rfl
  | cons v vs ih =>
      obtain ⟨hv, hvs⟩ := List.forall_mem_cons.1 h
      rw [renderVariables, renderVariables, ih hvs, renderVariable, renderVariable,
        resolve_eq_resolveGist, resolve_eq_resolveGist, hv]

theorem render_congr_gist {ps : List Part}
    (h : ∀ n ∈ Part.variableNames ps, other.gist n = vars.gist n) :
    render other ps = render vars ps := by
  simp only [Part.mem_variableNames] at h
  induction ps with
  | nil => rfl
  | cons p ps ih =>
      have hps := ih fun n ⟨e, he, hn⟩ => h n ⟨e, List.mem_cons_of_mem _ he, hn⟩
      rw [render, render, hps]
      cases p with
      | expression e =>
          have he : ∀ v ∈ e.vars, other.gist v.name = vars.gist v.name :=
            fun v hv => h v.name ⟨e, List.mem_cons_self, v, hv, rfl⟩
          rw [renderPart, renderPart, renderExpression, renderExpression,
            renderVariables_congr he]
      | literal | foreign => rfl

/-- Values of other names do not matter. -/
theorem render_congr {ps : List Part} (h : ∀ n ∈ Part.variableNames ps, other n = vars n) :
    render other ps = render vars ps := by
  apply render_congr_gist
  intro n hn
  rw [Lookup.gist, Lookup.gist, h n hn]

/-- Without a value a variable is left out. -/
theorem renderVariable_of_nothing (h : vars.gist v.name = .nothing) :
    renderVariable o v vars = .ok none := by
  rw [renderVariable, resolve_eq_resolveGist, h]
  rfl

theorem renderVariable_of_plain {u : Text} (h : resolve o v vars = .ok (some (.plain u)))
    {t : Option Text} :
    renderVariable o v vars = .ok t ↔
      ∃ cs, u = Text.ofChars cs ∧ some (label o v (spell o cs)) = t := by
  rw [renderVariable, h, Outcome.ok_bind, Outcome.map_eq_ok_iff]
  simp only [write_plain_eq_ok_iff]
  constructor
  · rintro ⟨_, ⟨cs, hcs, rfl⟩, rfl⟩
    exact ⟨cs, hcs, rfl⟩
  · rintro ⟨cs, hcs, rfl⟩
    exact ⟨_, ⟨cs, hcs, rfl⟩, rfl⟩

theorem renderVariable_of_other {x : Value} (h : vars.gist v.name = .other x) {t : Option Text} :
    renderVariable o v vars = .ok t ↔
      ∃ u cs, x.text? = some u ∧ v.cut u = Text.ofChars cs ∧
        some (label o v (spell o cs)) = t := by
  cases x with
  | scalar s =>
      have hr : resolve o v vars = (scalarText s).map fun t => some (.plain (v.cut t)) := by
        rw [resolve_eq_resolveGist, h, resolveGist]
      cases hs : s.text? with
      | none =>
          rw [scalarText, hs, Outcome.map_error] at hr
          simp [renderVariable, hr, Value.text?, hs]
      | some u =>
          rw [scalarText, hs, Outcome.map_ok] at hr
          rw [renderVariable_of_plain hr]
          simp [Value.text?, hs]
  | _ => simp [renderVariable, resolve_eq_resolveGist, h, resolveGist, Value.text?]

theorem renderVariable_of_items {xs : List Value} (h : vars.gist v.name = .items xs)
    {t : Option Text} :
    renderVariable o v vars = .ok t ↔ ∃ ts : List (List Char), ts ≠ [] ∧
      (xs.map Value.text? = ts.map fun cs => some (.ofChars cs)) ∧
      some (label o v (Text.joined (if v.explode then o.itemSeparator else .char ',')
        (ts.map Percent.component))) = t := by
  obtain ⟨hne, hnull⟩ := Lookup.of_gist_items h
  have hts {ts : List (List Char)}
      (hm : xs.map Value.text? = ts.map fun cs => some (.ofChars cs)) : ts ≠ [] := by
    rintro rfl
    exact hne (List.map_eq_nil_iff.1 hm)
  have hr : resolve o v vars = (itemTexts v.name xs).map (joinItems o v.explode) := by
    rw [resolve_eq_resolveGist, h, resolveGist]
  rw [renderVariable, hr]
  constructor
  · intro ht
    cases hi : itemTexts v.name xs with
    | error e => simp [hi] at ht
    | ok ts =>
        have hm := (itemTexts_eq_ok_iff hnull).1 hi
        rw [hi, Outcome.map_ok, joinItems_of_ne_nil o v.explode (hts hm)] at ht
        exact ⟨ts, hts hm, hm, Except.ok.inj ht⟩
  · rintro ⟨ts, hnil, hm, rfl⟩
    rw [(itemTexts_eq_ok_iff hnull).2 hm, Outcome.map_ok, joinItems_of_ne_nil o v.explode hnil]
    rfl

end Expansion

end UriTemplate
