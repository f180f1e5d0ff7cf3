import UriTemplate.Proofs.ListValues
import UriTemplate.Proofs.UriText

namespace UriTemplate

theorem Variable.cut_of_length_le {v : Variable} {t : Text}
    (h : ∀ n ∈ v.maxLength, (t.length : Int) ≤ n) : v.cut t = t := by
  rw [cut]
  split
  next => rfl
  next => rfl
  next n hm =>
    apply List.take_of_length_le
    exact Int.ofNat_le.1 (h _ hm)
  next n hm =>
    have hle := h _ hm
    omega

/-- The front of an encodable text is encodable. -/
theorem Text.take_eq_ofChars {t : Text} {cs : List Char} {n m : Nat}
    (h : t.take n = ofChars cs) (hm : m ≤ n) : t.take m = ofChars (cs.take m) := by
  rw [ofChars, List.map_take, ← ofChars, ← h, List.take_take, Nat.min_eq_left hm]

def Operator.keeps (o : Operator) (c : CodePoint) : Bool :=
  Percent.isUnreserved c || o.keepsReserved && Percent.isReserved c

theorem Operator.keepsReserved_eq_false_iff {o : Operator} :
    o.keepsReserved = false ↔ o = .simple ∨ o = .query ∨ o = .continuation := by
  cases o <;> simp [keepsReserved]

namespace Expansion

variable {o : Operator} {v : Variable} {vars other : Lookup} {s : Scalar} {t : Text}

theorem spell_eq_encode (o : Operator) (cs : List Char) :
    spell o cs = Percent.encode o.keeps cs := by
  rw [spell]
  by_cases hk : o.keepsReserved
  · rw [if_pos hk]
    apply Percent.encode_congr
    intro c _
    rw [Operator.keeps, hk, Bool.true_and]
  · rw [if_neg hk]
    apply Percent.encode_congr
    intro c _
    rw [Operator.keeps, Bool.eq_false_iff.2 hk, Bool.false_and, Bool.or_false]

theorem decode?_spell (o : Operator) (cs : List Char) :
    Percent.decode? (spell o cs) = some (.ofChars cs) := by
  rw [spell_eq_encode]
  apply Percent.decode?_encode
  cases o <;> rfl

/-- What more of a text is written as comes after what less of it is written as. -/
theorem exists_spell_take (o : Operator) (cs : List Char) (n : Nat) :
    ∃ rest, Percent.UriText rest ∧ spell o cs = spell o (cs.take n) ++ rest := by
  refine ⟨spell o (cs.drop n), uriText_spell o _, ?_⟩
  rw [spell_eq_encode, spell_eq_encode, spell_eq_encode, ← Percent.encode_append,
    List.take_append_drop]

theorem resolve_of_scalar (hs : vars v.name = some (.scalar s)) (ht : s.text? = some t) :
    resolve o v vars = .ok (some (.plain (v.cut t))) := by
  rw [resolve, hs]
  simp [resolveValue, scalarText, ht]

theorem renderVariable_of_scalar (hs : vars v.name = some (.scalar s)) (ht : s.text? = some t) :
    renderVariable o v vars =
      (encode o (.plain (v.cut t))).map fun u => some (label o v u) := by
  rw [renderVariable, resolve_of_scalar hs ht, Outcome.ok_bind]
  cases h : encode o (.plain (v.cut t)) <;> simp [write, h]

theorem renderVariable_eq_of_items? {x : Value} {items : List Value} (hx : vars v.name = some x)
    (hi : x.items? = some items) (m : Option Int) :
    renderVariable o ⟨v.name, m, v.explode⟩ vars = renderVariable o v vars := by
  rw [renderVariable, renderVariable, resolve_of_items? hx hi,
    resolve_of_items? (v := ⟨v.name, m, v.explode⟩) hx hi]
  rfl

/-- A length cuts the text of a single value before it is encoded, and only what is left has to be
encodable. What is written ends with a whole character or triplet, with greater lengths it only goes
on, and it decodes to the start of the text. A length that the text does not exceed is as good as
none, and to a sequence every length is. -/
theorem length_cuts_text (o : Operator) (name : Text) (explode : Bool) (vars : Lookup) :
    (∀ s t, vars name = some (.scalar s) → s.text? = some t →
      ∃ value : Option Nat → Except Error Text,
        (∀ m : Option Nat, renderVariable o ⟨name, m.map Int.ofNat, explode⟩ vars =
          (value m).map fun u => some (if o.isNamed then name ++ .char '=' :: u else u)) ∧
        (∀ n cs, 1 ≤ n → t.take n = Text.ofChars cs → ∃ u, value (some n) = .ok u) ∧
        (∀ cs, t = .ofChars cs → ∃ u, value none = .ok u) ∧
        (∀ n m w, 1 ≤ n → n ≤ m → value (some m) = .ok w →
          ∃ u rest, value (some n) = .ok u ∧ Percent.UriText u ∧ Percent.UriText rest ∧
            w = u ++ rest ∧ Percent.decode? u = some (t.take n)) ∧
        ∀ n, 1 ≤ n → t.length ≤ n → value (some n) = value none) ∧
    ∀ x items, vars name = some x → x.items? = some items → ∀ m : Option Int,
      renderVariable o ⟨name, m, explode⟩ vars = renderVariable o ⟨name, none, explode⟩ vars := by
  constructor
  · intro s t hs ht
    have hcut {k : Nat} (hk : 1 ≤ k) :
        Variable.cut ⟨name, (some k).map Int.ofNat, explode⟩ t = t.take k :=
      Variable.cut_of_pos rfl hk t
    refine ⟨fun m => encode o (.plain (Variable.cut ⟨name, m.map Int.ofNat, explode⟩ t)),
      fun m => renderVariable_of_scalar (v := ⟨name, m.map Int.ofNat, explode⟩) hs ht,
      fun n cs hn hcs => ?_, fun cs hcs => ?_, fun n m w hn hm hw => ?_, fun n hn hle => ?_⟩
    · simp only [hcut hn]
      exact ⟨_, encode_plain_eq_ok_iff.2 ⟨cs, hcs, rfl⟩⟩
    · exact ⟨_, encode_plain_eq_ok_iff.2 ⟨cs, hcs, rfl⟩⟩
    · simp only [hcut hn, hcut (Nat.le_trans hn hm)] at hw ⊢
      obtain ⟨cs, hcs, rfl⟩ := encode_plain_eq_ok_iff.1 hw
      have htake := Text.take_eq_ofChars hcs hm
      obtain ⟨rest, hrest, hspell⟩ := exists_spell_take o cs n
      rw [htake]
      exact ⟨_, rest, encode_plain_eq_ok_iff.2 ⟨_, rfl, rfl⟩, uriText_spell o _, hrest, hspell,
        decode?_spell o _⟩
    · simp only [hcut hn]
      rw [List.take_of_length_le hle]
      rfl
  · intro x items hx hi m
    exact renderVariable_eq_of_items? (v := ⟨name, none, explode⟩) hx hi m

/-- The first character takes two triplets, and the second is a percent sign. Of a list the length
cuts no item. -/
theorem length_cuts_text_percent :
    let vars : Lookup := fun n =>
      if n = [.char 'x'] then some (.string (Text.of "é%/"))
      else some (.list [.string (Text.of "é%/")])
    renderVariable .pathParameter ⟨[.char 'x'], some 1, false⟩ vars =
      .ok (some (Text.of "x=%C3%A9")) ∧
    renderVariable .pathParameter ⟨[.char 'x'], some 2, false⟩ vars =
      .ok (some (Text.of "x=%C3%A9%25")) ∧
    Percent.UriText (Text.of "%C3%A9") ∧
    (∃ rest, Percent.UriText rest ∧ Text.of "%C3%A9%25" = Text.of "%C3%A9" ++ rest) ∧
    Percent.decode? (Text.of "%C3%A9") = some [.char 'é'] ∧
    renderVariable .path ⟨[.char 'y'], some 1, true⟩ vars =
      renderVariable .path ⟨[.char 'y'], none, true⟩ vars := by
  intro vars
  obtain ⟨value, hvalue, -, -, hlength, -⟩ :=
    (length_cuts_text .pathParameter [.char 'x'] false vars).1 (.string (Text.of "é%/"))
      (Text.of "é%/") rfl rfl
  have hread {m : Option Nat} {u : Text}
      (h : renderVariable .pathParameter ⟨[.char 'x'], m.map Int.ofNat, false⟩ vars =
        .ok (some (.char 'x' :: .char '=' :: u))) : value m = .ok u := by
    rw [hvalue, Outcome.map_eq_ok_iff] at h
    obtain ⟨w, hw, h⟩ := h
    obtain rfl : w = u := by simpa [Operator.isNamed] using h
    exact hw
  have hone : value (some 1) = .ok (Text.of "%C3%A9") := hread rfl
  have htwo : value (some 2) = .ok (Text.of "%C3%A9%25") := hread rfl
  obtain ⟨u, rest, hu, htext, hrest, happend, hdecode⟩ :=
    hlength 1 2 _ (Nat.le_refl 1) (Nat.le_succ 1) htwo
  obtain rfl := Except.ok.inj (hone.symm.trans hu)
  refine ⟨rfl, rfl, htext, ⟨rest, hrest, happend⟩, hdecode, ?_⟩
  exact (length_cuts_text .path [.char 'y'] true vars).2 _ [.string (Text.of "é%/")] rfl rfl
    (some 1)

theorem label_inj {u w : Text} : label o v u = label o v w ↔ u = w := by
  rw [label, label]
  split
  · rw [List.append_cancel_left_eq, List.cons_inj_right]
  · rfl

theorem spell_eq_component_iff {cs : List Char} :
    spell o cs = Percent.component cs ↔
      (o = .simple ∨ o = .query ∨ o = .continuation) ∨
        ∀ c ∈ cs, Percent.isReserved (.char c) = false := by
  rw [spell, ← Operator.keepsReserved_eq_false_iff]
  cases o.keepsReserved with
  | false => simp
  | true => simpa using Percent.withReserved_eq_component_iff

theorem renderVariable_of_singleton {x : Value} (hx : vars v.name = some x)
    (hi : x.items? = some [.scalar s]) (ht : s.text? = some t) :
    renderVariable o v vars =
      t.encodable.map fun cs => some (label o v (Percent.component cs)) := by
  have htexts : itemTexts v.name [.scalar s] = t.encodable.map fun cs => [cs] := by
    rw [itemTexts, itemText, scalarText, ht, Outcome.ok_bind]
    cases t.encodable <;> rfl
  rw [renderVariable, resolve_of_items? hx hi, htexts]
  cases t.encodable with
  | error e => rfl
  | ok cs => simp [joinItems, write, encode]

/-- A single value that no length cuts, against a sequence of it alone. If its text is encodable
both are written, and alike unless the operator keeps reserved characters and the text has one. -/
theorem renderVariable_eq_singleton_iff {x : Value} (ht : s.text? = some t)
    (hm : ∀ n ∈ v.maxLength, (t.length : Int) ≤ n) (hs : vars v.name = some (.scalar s))
    (hx : other v.name = some x) (hi : x.items? = some [.scalar s]) :
    (∀ cs, t = .ofChars cs →
      ∃ a b, renderVariable o v vars = .ok (some a) ∧ renderVariable o v other = .ok (some b) ∧
        (a = b ↔ (o = .simple ∨ o = .query ∨ o = .continuation) ∨
          ∀ c ∈ t, Percent.isReserved c = false)) ∧
    (t.characters? = none → renderVariable o v vars = .error (.unencodable t) ∧
      renderVariable o v other = .error (.unencodable t)) := by
  rw [renderVariable_of_scalar hs ht, renderVariable_of_singleton hx hi ht,
    Variable.cut_of_length_le hm]
  constructor
  · rintro cs rfl
    have hencode : encode o (.plain (.ofChars cs)) = .ok (spell o cs) :=
      encode_plain_eq_ok_iff.2 ⟨cs, rfl, rfl⟩
    rw [hencode, Text.encodable_ofChars]
    refine ⟨_, _, rfl, rfl, ?_⟩
    rw [label_inj, spell_eq_component_iff]
    simp [Text.ofChars]
  · intro hnone
    have hencode : encode o (.plain t) = .error (.unencodable t) := by
      rw [encode]
      split
      · rw [Percent.encodeReserved, Text.encodable_of_none hnone]
        rfl
      · rw [Percent.encodeComponent, Text.encodable_of_none hnone]
        rfl
    rw [hencode, Text.encodable_of_none hnone]
    exact ⟨rfl, rfl⟩

/-- A slash stays behind a dot and is encoded in a query. -/
theorem renderVariable_eq_singleton_iff_slash :
    let v : Variable := ⟨[.char 'x'], some 3, true⟩
    let vars : Lookup := fun _ => some (.string (Text.of "a/b"))
    let other : Lookup := fun _ => some (.tuple [.string (Text.of "a/b")])
    renderVariable .label v vars ≠ renderVariable .label v other ∧
      renderVariable .query v vars = renderVariable .query v other := by
  intro v vars other
  have hm : ∀ n ∈ v.maxLength, ((Text.of "a/b").length : Int) ≤ n := by
    intro n hn
    obtain rfl := Option.some.inj hn
    exact Int.le_refl 3
  have hiff (o : Operator) : ∃ a b, renderVariable o v vars = .ok (some a) ∧
      renderVariable o v other = .ok (some b) ∧
      (a = b ↔ (o = .simple ∨ o = .query ∨ o = .continuation) ∨
        ∀ c ∈ Text.of "a/b", Percent.isReserved c = false) :=
    (renderVariable_eq_singleton_iff (s := .string (Text.of "a/b")) rfl hm rfl rfl rfl).1 _ rfl
  constructor
  · obtain ⟨a, b, ha, hb, hab⟩ := hiff .label
    intro h
    rw [ha, hb] at h
    rcases hab.1 (Option.some.inj (Except.ok.inj h)) with ho | ht
    · simp at ho
    · exact absurd (ht (.char '/') (by decide)) (by decide)
  · obtain ⟨a, b, ha, hb, hab⟩ := hiff .query
    rw [ha, hb, hab.2 (.inl (.inr (.inl rfl)))]

end Expansion

end UriTemplate
