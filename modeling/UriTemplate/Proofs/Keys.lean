import UriTemplate.Expansion
import UriTemplate.Value.Dict

namespace UriTemplate

namespace Value

theorem sameKey_string (n : Text) (k : Value) :
    sameKey (.string n) k = (!k.number?.isSome && sameOther (.string n) k) := by
  rw [sameKey]
  · cases k.number? <;> rfl
  · simp [string]
  · simp [string]

theorem sameKey_string_comm (n : Text) (k : Value) :
    sameKey k (.string n) = sameKey (.string n) k := by
  have hother : sameOther k (.string n) = sameOther (.string n) k := by
    cases k with
    | scalar s =>
        cases s with
        | string t => exact decide_eq_decide.2 eq_comm
        | _ => rfl
    | _ => rfl
  rw [sameKey_string, sameKey, ← hother]
  · cases k.number? <;> rfl
  · simp [string]
  · simp [string]

/-- A name is the same key as nothing but itself. -/
theorem sameKey_string_iff {n : Text} {k : Value} : sameKey (.string n) k ↔ k = .string n := by
  rw [sameKey_string]
  constructor
  · intro h
    cases k with
    | scalar s =>
        cases s with
        | string t =>
            obtain rfl := of_decide_eq_true (Bool.and_eq_true_iff.1 h).2
            rfl
        | _ => simp [sameOther, string, sameScalar] at h
    | _ => simp [sameOther, string] at h
  · rintro rfl
    simp [number?, Scalar.number?, sameOther, string, sameScalar]

theorem string_inj {m n : Text} : Value.string m = .string n ↔ m = n := by
  simp [string]

end Value

namespace Dict

theorem get?_cons (x : Value × Value) (d : Dict) (n : Text) :
    Dict.get? (x :: d) n =
      (Dict.get? d n).or (if Value.sameKey (.string n) x.1 then some x.2 else none) := by
  rw [get?, get?, List.reverse_cons, List.find?_append]
  cases d.reverse.find? _ with
  | some y => rfl
  | none => by_cases h : Value.sameKey (.string n) x.1 <;> simp [h]

def Shows (d : Dict) (l : Lookup) : Prop :=
  ∀ n, d.filter (fun x => Value.sameKey (.string n) x.1) =
    (l n).toList.map fun v => (.string n, v)

variable {d : Dict} {l : Lookup}

theorem Shows.get?_eq (h : d.Shows l) (n : Text) : d.get? n = l n := by
  rw [get?, ← List.head?_filter, List.filter_reverse, h n]
  cases l n <;> rfl

theorem filter_insert (key value : Value) (d : Dict) (n : Text) :
    (insert Value.sameKey key value d).filter (fun x => Value.sameKey (.string n) x.1) =
      if Value.sameKey (.string n) key then
        match d.filter (fun x => Value.sameKey (.string n) x.1) with
        | [] => [(key, value)]
        | x :: rest => (x.1, value) :: rest
      else d.filter fun x => Value.sameKey (.string n) x.1 := by
  induction d with
  | nil => by_cases h : Value.sameKey (.string n) key <;> simp [insert, h]
  | cons x d ih =>
      rcases x with ⟨k, v⟩
      by_cases hkey : Value.sameKey (.string n) key
      · obtain rfl := Value.sameKey_string_iff.1 hkey
        rw [if_pos hkey] at ih ⊢
        by_cases hk : Value.sameKey (.string n) k
        · simp [insert, Value.sameKey_string_comm, hk]
        · simp [insert, Value.sameKey_string_comm, hk, ih]
      · rw [if_neg hkey] at ih ⊢
        by_cases hk : Value.sameKey (.string n) k
        · obtain rfl := Value.sameKey_string_iff.1 hk
          simp [insert, hkey, hk, ih]
        · by_cases hsame : Value.sameKey k key <;> simp [insert, hsame, hk, ih]

theorem Shows.insert (h : d.Shows l) (key value : Value) :
    (Dict.insert Value.sameKey key value d).Shows
      fun n => if Value.sameKey (.string n) key then some value else l n := by
  intro n
  rw [filter_insert, h n]
  by_cases hkey : Value.sameKey (.string n) key
  · obtain rfl := Value.sameKey_string_iff.1 hkey
    simp only [if_pos hkey]
    cases l n <;> rfl
  · simp only [if_neg hkey]

theorem Shows.merge (h : d.Shows l) (newer : Dict) :
    (d.merge newer).Shows fun n => (newer.get? n).or (l n) := by
  induction newer generalizing d l with
  | nil => exact h
  | cons x newer ih =>
      intro n
      rw [Dict.merge, List.foldl_cons, ← Dict.merge, ih (h.insert x.1 x.2) n]
      by_cases hk : Value.sameKey (.string n) x.1 <;> simp [get?_cons, hk]

theorem shows_ofBindings (m : Bindings Value) : (ofBindings m).Shows m.get? := by
  rcases m with ⟨xs, hd⟩
  intro n
  rw [ofBindings, Bindings.get?]
  induction xs with
  | nil => rfl
  | cons x xs ih =>
      rcases x with ⟨k, v⟩
      obtain ⟨hk, hxs⟩ := List.nodup_cons.1 hd
      rw [List.map_cons, List.filter_cons, ih hxs, List.lookup_cons]
      by_cases hn : n = k
      · subst hn
        rw [if_pos (Value.sameKey_string_iff.2 rfl), Bindings.lookup_eq_none_iff.2 hk]
        simp
      · have hs : ¬ Value.sameKey (.string n) (.string k) = true := by
          rw [Value.sameKey_string_iff, Value.string_inj]
          exact Ne.symm hn
        simp [hs, beq_eq_false_iff_ne.2 hn]

end Dict

end UriTemplate
