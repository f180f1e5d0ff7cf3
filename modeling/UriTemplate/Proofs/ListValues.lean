import UriTemplate.Proofs.Decoding
import UriTemplate.Proofs.Rendering

namespace UriTemplate

theorem Operator.isReserved_itemSeparator {o : Operator} (h : o ≠ .label) :
    Percent.isReserved o.itemSeparator := by
  cases o with
  | label => contradiction
  | _ => decide

namespace Expansion

variable {o : Operator} {v : Variable} {vars : Lookup} {x : Value} {items : List Value}

theorem resolve_of_items? (hx : vars v.name = some x) (hi : x.items? = some items) :
    resolve o v vars = (itemTexts v.name items).map (joinItems o v.explode) := by
  rw [resolve, hx]
  cases x with
  | list | tuple | range =>
      obtain rfl := Option.some.inj hi
      rfl
  | _ => contradiction

theorem exists_itemTexts (hne : ∃ y ∈ items, y ≠ .null) {ts : List (List Char)}
    (h : itemTexts v.name items = .ok ts) :
    ts ≠ [] ∧ (items.filter fun y => !y.isNull).map Value.text? =
      ts.map fun cs => some (.ofChars cs) := by
  have hnull : ∀ y ∈ items.filter fun y => !y.isNull, y.isNull = false :=
    fun y hy => by simpa using (List.mem_filter.1 hy).2
  have hts := (itemTexts_eq_ok_iff hnull).1 ((itemTexts_filter v.name items).trans h)
  refine ⟨?_, hts⟩
  rintro rfl
  obtain ⟨y, hy, hyn⟩ := hne
  have hnil : (items.filter fun y => !y.isNull) = [] := List.map_eq_nil_iff.1 hts
  have hkept : y.isNull := by simpa using List.filter_eq_nil_iff.1 hnil y hy
  cases y <;> contradiction

/-- Encoded items have no separator but the dot. -/
theorem notMem_component_iff (o : Operator) (explode : Bool) (ts : List (List Char)) :
    (∀ u ∈ ts, (if explode then o.itemSeparator else .char ',') ∉ Percent.component u) ↔
      (explode → o = .label → ∀ u ∈ ts, '.' ∉ u) := by
  by_cases h : explode ∧ o = .label
  · obtain ⟨rfl, rfl⟩ := h
    have hdot (u : List Char) : .char '.' ∉ Percent.component u ↔ '.' ∉ u :=
      not_congr Percent.dot_mem_component_iff
    simp only [hdot, forall_const, if_true, Operator.itemSeparator, Operator.symbol?,
      Option.getD_some]
  · have hreserved : Percent.isReserved (if explode then o.itemSeparator else .char ',') := by
      split
      next he => exact Operator.isReserved_itemSeparator fun ho => h ⟨he, ho⟩
      next => rfl
    refine iff_of_true (fun u _ => Percent.notMem_component hreserved u) ?_
    intro he ho
    exact absurd ⟨he, ho⟩ h

/-- The text of a list with at least one item joins what its items are encoded to. It is cut at its
separators into encoded texts, one for each item and in their order, except where the separator is a
dot that stands in an item as well. It is written as it is, behind the name if the operator wants
one, and no length cuts it. -/
theorem list_reads_back {r : Option Resolved} (hx : vars v.name = some x)
    (hi : x.items? = some items) (hne : ∃ y ∈ items, y ≠ .null) (hr : resolve o v vars = .ok r) :
    ∃ (t : Text) (ts : List (List Char)), r = some (.encoded t) ∧
      ((items.filter fun y => !y.isNull).map Value.text? = ts.map fun cs => some (.ofChars cs)) ∧
      t = Text.joined (if v.explode then o.itemSeparator else .char ',')
        (ts.map Percent.component) ∧
      ((Text.pieces (if v.explode then o.itemSeparator else .char ',') t).map Percent.decode? =
          (ts.map fun cs => some (.ofChars cs)) ↔
        (v.explode → o = .label → ∀ u ∈ ts, '.' ∉ u)) ∧
      renderVariable o v vars = .ok (some (if o.isNamed then v.name ++ .char '=' :: t else t)) ∧
      ∀ m, resolve o ⟨v.name, m, v.explode⟩ vars = .ok r ∧
        renderVariable o ⟨v.name, m, v.explode⟩ vars = renderVariable o v vars := by
  rw [resolve_of_items? hx hi, Outcome.map_eq_ok_iff] at hr
  obtain ⟨ts, ht, rfl⟩ := hr
  obtain ⟨hts, htexts⟩ := exists_itemTexts hne ht
  have hres (m : Option Int) :
      resolve o ⟨v.name, m, v.explode⟩ vars = .ok (joinItems o v.explode ts) := by
    rw [resolve_of_items? (v := ⟨v.name, m, v.explode⟩) hx hi, ht]
    rfl
  rw [joinItems_of_ne_nil o v.explode hts] at hres ⊢
  have hwrite (m : Option Int) : renderVariable o ⟨v.name, m, v.explode⟩ vars =
      .ok (some (label o v (Text.joined (if v.explode then o.itemSeparator else .char ',')
        (ts.map Percent.component)))) := by
    rw [renderVariable, hres]
    rfl
  refine ⟨_, ts, rfl, htexts, rfl, ?_, hwrite v.maxLength, fun m => ⟨hres m, ?_⟩⟩
  · rw [Percent.map_decode?_pieces_iff hts, notMem_component_iff]
  · exact (hwrite m).trans (hwrite v.maxLength).symm

/-- Between question marks every item reads back, the empty one too. Between dots an item with a dot
does not. -/
theorem list_reads_back_query_label :
    let items : List Value := [.string (Text.of "a.b&"), .null, .string [], .string (Text.of "é")]
    let vars : Lookup := fun _ => some (.tuple items)
    let v : Variable := ⟨[.char 'k'], some 2, true⟩
    let ts : List (List Char) := ["a.b&", "", "é"].map String.toList
    let query : Text := Text.of "a.b%26??%C3%A9"
    let label : Text := Text.of "a.b%26..%C3%A9"
    (resolve .query v vars = .ok (some (.encoded query)) ∧
      (Text.pieces (.char '?') query).map Percent.decode? =
        (ts.map fun cs => some (.ofChars cs)) ∧
      renderVariable .query v vars = .ok (some (Text.of "k=" ++ query)) ∧
      resolve .query ⟨[.char 'k'], none, true⟩ vars = .ok (some (.encoded query))) ∧
    resolve .label v vars = .ok (some (.encoded label)) ∧
    (Text.pieces (.char '.') label).map Percent.decode? ≠
      ts.map fun cs => some (.ofChars cs) := by
  intro items vars v ts query label
  have hitems : ∃ y ∈ items, y ≠ .null := ⟨.string [], by simp [items], nofun⟩
  have hquery : resolve .query v vars = .ok (some (.encoded query)) := by rfl
  have hlabel : resolve .label v vars = .ok (some (.encoded label)) := by rfl
  have htexts (us : List (List Char)) (h : (items.filter fun y => !y.isNull).map Value.text? =
      us.map fun cs => some (.ofChars cs)) : us = ts :=
    (List.map_inj_right fun _ _ hcs => Text.ofChars_injective (Option.some.inj hcs)).1
      (h.symm.trans rfl)
  constructor
  · obtain ⟨t, us, ht, hus, -, hpieces, hwrite, hlength⟩ := list_reads_back rfl rfl hitems hquery
    obtain rfl := htexts us hus
    obtain rfl := Resolved.encoded.inj (Option.some.inj ht)
    exact ⟨hquery, hpieces.2 nofun, hwrite, (hlength none).1⟩
  · obtain ⟨t, us, ht, hus, -, hpieces, -, -⟩ := list_reads_back rfl rfl hitems hlabel
    obtain rfl := htexts us hus
    obtain rfl := Resolved.encoded.inj (Option.some.inj ht)
    refine ⟨hlabel, fun h => ?_⟩
    exact hpieces.1 h rfl rfl "a.b&".toList (by simp [ts]) (by decide)

end Expansion

end UriTemplate
