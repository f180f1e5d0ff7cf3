import UriTemplate.Proofs.Numeral
import UriTemplate.Proofs.Rendering

namespace UriTemplate

theorem Scalar.text?_eq_none_iff {s : Scalar} :
    s.text? = none ↔ ∃ n, s = .integer n ∧ 4300 < (Text.ofNat n.natAbs).length := by
  cases s with
  | integer n =>
      have hlim : (Text.ofNat n.natAbs).length ≤ digitLimit ↔ n.natAbs < Nat.pow 10 digitLimit :=
        Text.length_ofNat_le_iff (by decide)
      rw [text?]
      split
      next h =>
        refine iff_of_false (Option.some_ne_none _) ?_
        rintro ⟨m, hm, hlt⟩
        obtain rfl := integer.inj hm
        exact Nat.not_lt.2 (hlim.2 h) hlt
      next h => exact iff_of_true rfl ⟨n, rfl, Nat.lt_of_not_le fun hle => h (hlim.1 hle)⟩
  | _ => simp [text?]

namespace Expansion

variable {α β γ : Type} {vars : Lookup} {es fs : List Error}

def DecidedBy (r : Except Error α) : List Error → Prop
  | [] => ∃ a, r = .ok a
  | e :: _ => r = .error e

theorem DecidedBy.error_iff {r : Except Error α} (h : DecidedBy r es) (e : Error) :
    r = .error e ↔ es.head? = some e := by
  cases es with
  | nil =>
      obtain ⟨a, rfl⟩ := h
      simp
  | cons f fs =>
      obtain rfl : r = .error f := h
      simp

theorem DecidedBy.ok_iff {r : Except Error α} (h : DecidedBy r es) :
    (∃ a, r = .ok a) ↔ es = [] := by
  cases es with
  | nil => exact iff_of_true h rfl
  | cons f fs =>
      obtain rfl : r = .error f := h
      simp

theorem DecidedBy.map {r : Except Error α} (h : DecidedBy r es) (f : α → β) :
    DecidedBy (r.map f) es := by
  cases es with
  | nil =>
      obtain ⟨a, rfl⟩ := h
      exact ⟨f a, rfl⟩
  | cons e es =>
      obtain rfl : r = .error e := h
      rfl

-- Of two steps the errors of the first come first, which is why all lists stand in reading order.
theorem DecidedBy.bind {r : Except Error α} {f : α → Except Error β} (hr : DecidedBy r es)
    (hf : ∀ a, r = .ok a → DecidedBy (f a) fs) : DecidedBy (r >>= f) (es ++ fs) := by
  cases es with
  | nil =>
      obtain ⟨a, rfl⟩ := hr
      exact hf a rfl
  | cons e es =>
      obtain rfl : r = .error e := hr
      rfl

theorem DecidedBy.bind_bind {r : Except Error α} {q : Except Error β} (hr : DecidedBy r es)
    (hq : DecidedBy q fs) (f : α → β → γ) :
    DecidedBy (do let a ← r; let b ← q; return f a b) (es ++ fs) := by
  apply hr.bind
  intro a _
  have hb : DecidedBy (q >>= fun b => .ok (f a b)) (fs ++ []) := hq.bind fun b _ => ⟨f a b, rfl⟩
  rwa [List.append_nil] at hb

theorem decidedBy_encodable (t : Text) : DecidedBy t.encodable (textOffences t) := by
  rw [textOffences]
  split
  next h => exact Text.encodable_of_none h
  next h =>
    obtain ⟨cs, hcs⟩ := Option.ne_none_iff_exists'.1 h
    exact ⟨cs, Text.encodable_eq_ok_iff.2 (Text.characters?_eq_some_iff.1 hcs)⟩

theorem decidedBy_itemText (s : Scalar) : DecidedBy (itemText s) (scalarOffences id s) := by
  rw [itemText, scalarText, scalarOffences]
  cases s.text? with
  | none => rfl
  | some t => exact decidedBy_encodable t

theorem decidedBy_itemTexts (name : Text) (items : List Value) :
    DecidedBy (itemTexts name items) (items.flatMap (singleOffences name id)) := by
  induction items with
  | nil => exact ⟨[], rfl⟩
  | cons x items ih =>
      rw [List.flatMap_cons]
      cases x with
      | null => exact ih
      | scalar s => exact (decidedBy_itemText s).bind_bind ih _
      | _ => rfl

theorem decidedBy_encode_plain (o : Operator) (t : Text) :
    DecidedBy (encode o (.plain t)) (textOffences t) := by
  rw [encode]
  split
  · exact (decidedBy_encodable t).map _
  · exact (decidedBy_encodable t).map _

theorem renderVariable_of_value {o : Operator} {v : Variable} {x : Value}
    (hx : vars v.name = some x) :
    renderVariable o v vars = (resolveValue o v x >>= fun
      | some r => (write o v r).map some
      | none => .ok none) := by
  have hr : resolve o v vars = resolveValue o v x := by rw [resolve, hx]
  exact congrArg (· >>= _) hr

theorem decidedBy_renderItems {o : Operator} {v : Variable} {x : Value} {items : List Value}
    (hx : vars v.name = some x) (hi : x.items? = some items)
    (hr : resolveValue o v x = (itemTexts v.name items).map (joinItems o v.explode)) :
    DecidedBy (renderVariable o v vars) (valueOffences v x) := by
  have hitems : DecidedBy (resolveValue o v x) (valueOffences v x) := by
    rw [hr, valueOffences, cutOf, hi]
    exact (decidedBy_itemTexts v.name items).map _
  rw [renderVariable_of_value hx, ← List.append_nil (valueOffences v x)]
  apply hitems.bind
  intro r hok
  rw [hr] at hok
  obtain ⟨ts, -, rfl⟩ := Outcome.map_eq_ok_iff.1 hok
  cases ts <;> exact ⟨_, rfl⟩

theorem decidedBy_renderVariable (o : Operator) (v : Variable) (vars : Lookup) :
    DecidedBy (renderVariable o v vars) (variableOffences vars v) := by
  rw [variableOffences]
  cases hx : vars v.name with
  | none =>
      rw [renderVariable, resolve, hx]
      exact ⟨none, rfl⟩
  | some x =>
      cases x with
      | null =>
          rw [renderVariable_of_value hx]
          exact ⟨none, rfl⟩
      | scalar s =>
          have hsingle : valueOffences v (.scalar s) = scalarOffences v.cut s :=
            List.append_nil _
          rw [renderVariable_of_value hx, Option.elim_some, hsingle, scalarOffences,
            resolveValue, scalarText]
          cases s.text? with
          | none => rfl
          | some t => exact ((decidedBy_encode_plain o (v.cut t)).map _).map _
      | list | tuple | range => exact decidedBy_renderItems hx rfl rfl
      | _ =>
          rw [renderVariable_of_value hx]
          rfl

theorem decidedBy_renderVariables (o : Operator) (vars : Lookup) (vs : List Variable) :
    DecidedBy (renderVariables o vars vs) (vs.flatMap (variableOffences vars)) := by
  induction vs with
  | nil => exact ⟨[], rfl⟩
  | cons v vs ih => exact (decidedBy_renderVariable o v vars).bind_bind ih _

theorem decidedBy_renderPart (vars : Lookup) (p : Part) :
    DecidedBy (renderPart vars p) (partOffences vars p) := by
  cases p with
  | literal t => exact ⟨t, rfl⟩
  | expression e => exact (decidedBy_renderVariables e.operator vars e.vars).map _
  | foreign kind => rfl

theorem decidedBy_render (vars : Lookup) (ps : List Part) :
    DecidedBy (render vars ps) (offences vars ps) := by
  induction ps with
  | nil => exact ⟨[], rfl⟩
  | cons p ps ih => exact (decidedBy_renderPart vars p).bind_bind ih _

/-- What is wrong with parts and values, without its order. Of a sequence the items are looked at,
of any other value the value itself, and of its text what is left when it is cut. -/
inductive Offends (vars : Lookup) (ps : List Part) : Error → Prop
  | part {kind : Value.Kind} : .foreign kind ∈ ps → Offends vars ps (.foreignPart kind)
  | value {name : Text} {x y : Value} : name ∈ Part.variableNames ps → vars name = some x →
      y ∈ x.items?.getD [x] → y.isNull = false → (∀ s, y ≠ .scalar s) →
      Offends vars ps (.unsupportedValue name y.kind)
  | digits {name : Text} {x : Value} {n : Int} : name ∈ Part.variableNames ps →
      vars name = some x → .integer n ∈ x.items?.getD [x] →
      4300 < (Text.ofNat n.natAbs).length → Offends vars ps .tooManyDigits
  | surrogate {e : Expression} {v : Variable} {x : Value} {s : Scalar} {t : Text} :
      .expression e ∈ ps → v ∈ e.vars → vars v.name = some x → .scalar s ∈ x.items?.getD [x] →
      s.text? = some t → (cutOf v x t).characters? = none →
      Offends vars ps (.unencodable (cutOf v x t))

theorem mem_scalarOffences {cut : Text → Text} {s : Scalar} {e : Error} :
    e ∈ scalarOffences cut s ↔ (s.text? = none ∧ e = .tooManyDigits) ∨
      ∃ t, s.text? = some t ∧ (cut t).characters? = none ∧ e = .unencodable (cut t) := by
  rw [scalarOffences]
  cases s.text? with
  | none => simp
  | some t =>
      rw [Option.elim_some, textOffences]
      split <;> simp_all

theorem mem_singleOffences {name : Text} {cut : Text → Text} {y : Value} {e : Error} :
    e ∈ singleOffences name cut y ↔
      (y.isNull = false ∧ (∀ s, y ≠ .scalar s) ∧ e = .unsupportedValue name y.kind) ∨
      ((∃ n, y = .integer n ∧ 4300 < (Text.ofNat n.natAbs).length) ∧ e = .tooManyDigits) ∨
      ∃ s t, y = .scalar s ∧ s.text? = some t ∧ (cut t).characters? = none ∧
        e = .unencodable (cut t) := by
  cases y with
  | null => simp [singleOffences, Value.isNull, Value.integer]
  | scalar s =>
      simp [singleOffences, mem_scalarOffences, Scalar.text?_eq_none_iff, Value.integer]
  | _ => simp [singleOffences, Value.isNull, Value.integer]

theorem mem_variableOffences {v : Variable} {e : Error} :
    e ∈ variableOffences vars v ↔ ∃ x, vars v.name = some x ∧
      ∃ y ∈ x.items?.getD [x], e ∈ singleOffences v.name (cutOf v x) y := by
  rw [variableOffences]
  cases vars v.name with
  | none => simp
  | some x => simp [valueOffences]

theorem mem_offences_of_variable {ps : List Part} {f : Expression} {v : Variable} {x y : Value}
    {e : Error} (hf : .expression f ∈ ps) (hv : v ∈ f.vars) (hx : vars v.name = some x)
    (hy : y ∈ x.items?.getD [x]) (he : e ∈ singleOffences v.name (cutOf v x) y) :
    e ∈ offences vars ps :=
  List.mem_flatMap.2
    ⟨_, hf, List.mem_flatMap.2 ⟨v, hv, mem_variableOffences.2 ⟨x, hx, y, hy, he⟩⟩⟩

theorem offends_of_mem {ps : List Part} {e : Error} (h : e ∈ offences vars ps) :
    Offends vars ps e := by
  obtain ⟨p, hp, he⟩ := List.mem_flatMap.1 h
  cases p with
  | literal => contradiction
  | foreign kind =>
      obtain rfl := List.mem_singleton.1 he
      exact .part hp
  | expression f =>
      obtain ⟨v, hv, he⟩ := List.mem_flatMap.1 he
      obtain ⟨x, hx, y, hy, he⟩ := mem_variableOffences.1 he
      have hn : v.name ∈ Part.variableNames ps := Part.mem_variableNames.2 ⟨f, hp, v, hv, rfl⟩
      obtain ⟨hnull, hs, rfl⟩ | ⟨⟨n, rfl, hlen⟩, rfl⟩ | ⟨s, t, rfl, ht, hc, rfl⟩ :=
        mem_singleOffences.1 he
      · exact .value hn hx hy hnull hs
      · exact .digits hn hx hy hlen
      · exact .surrogate hp hv hx hy ht hc

theorem mem_offences_iff {ps : List Part} {e : Error} :
    e ∈ offences vars ps ↔ Offends vars ps e := by
  refine ⟨offends_of_mem, fun h => ?_⟩
  cases h with
  | part hp => exact List.mem_flatMap.2 ⟨_, hp, List.mem_singleton.2 rfl⟩
  | value hn hx hy hnull hs =>
      obtain ⟨f, hf, v, hv, rfl⟩ := Part.mem_variableNames.1 hn
      exact mem_offences_of_variable hf hv hx hy (mem_singleOffences.2 (.inl ⟨hnull, hs, rfl⟩))
  | digits hn hx hy hlen =>
      obtain ⟨f, hf, v, hv, rfl⟩ := Part.mem_variableNames.1 hn
      exact mem_offences_of_variable hf hv hx hy
        (mem_singleOffences.2 (.inr (.inl ⟨⟨_, rfl, hlen⟩, rfl⟩)))
  | surrogate hf hv hx hy ht hc =>
      exact mem_offences_of_variable hf hv hx hy
        (mem_singleOffences.2 (.inr (.inr ⟨_, _, rfl, ht, hc, rfl⟩)))

/-- The first offence in reading order is the outcome. Without one there is a text, and values that
no part mentions are not looked at. -/
theorem render_decided_by_first_offence (vars : Lookup) (ps : List Part) :
    (∀ e, render vars ps = .error e ↔ (offences vars ps).head? = some e) ∧
    (∀ e, e ∈ offences vars ps ↔ Offends vars ps e) ∧
    ((∃ t, render vars ps = .ok t) ↔ ∀ e, ¬ Offends vars ps e) ∧
    ∀ other : Lookup, (∀ n ∈ Part.variableNames ps, other n = vars n) →
      render other ps = render vars ps := by
  have hd := decidedBy_render vars ps
  refine ⟨hd.error_iff, fun e => mem_offences_iff, ?_, fun other h => render_congr h⟩
  rw [hd.ok_iff, List.eq_nil_iff_forall_not_mem]
  exact forall_congr' fun e => not_congr mem_offences_iff

theorem render_decided_by_first_offence_item :
    let vars : Lookup := fun n =>
      if n = [.char 'x'] then some (.list [.null, .string [.char 'a'], .bytes []])
      else some (.dict [])
    let ps := [Part.expression
        ⟨.simple, [⟨[.char 'x'], some 1, false⟩, ⟨[.char 'y'], none, false⟩]⟩, .foreign .string]
    offences vars ps = [.unsupportedValue [.char 'x'] .bytes, .unsupportedValue [.char 'y'] .dict,
      .foreignPart .string] ∧
    render vars ps = .error (.unsupportedValue [.char 'x'] .bytes) :=
  ⟨rfl, ((render_decided_by_first_offence _ _).1 _).2 rfl⟩

/-- A string is supported, and still there is none where it has a surrogate. A length that cuts the
surrogate off saves it. -/
theorem render_surrogate_fails :
    let vars : Lookup := fun _ => some (.string [.char 'a', .surrogate 0])
    let ps (m : Option Int) := [Part.expression ⟨.simple, [⟨[.char 'x'], m, false⟩]⟩]
    (∀ e, Offends vars (ps none) e → e = .unencodable [.char 'a', .surrogate 0]) ∧
      render vars (ps none) = .error (.unencodable [.char 'a', .surrogate 0]) ∧
      render vars (ps (some 1)) = .ok [.char 'a'] := by
  intro vars ps
  have hoffences : offences vars (ps none) = [.unencodable [.char 'a', .surrogate 0]] := rfl
  refine ⟨fun e he => ?_, rfl, rfl⟩
  have hmem := mem_offences_iff.2 he
  rwa [hoffences, List.mem_singleton] at hmem

end Expansion

end UriTemplate
