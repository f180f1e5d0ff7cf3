import UriTemplate.Text

namespace UriTemplate

structure Bindings (α : Type) where
  entries : List (Text × α)
  distinct : (entries.map Prod.fst).Nodup

namespace Bindings

variable {α β : Type}

def put (name : Text) (a : α) : List (Text × α) → List (Text × α)
  | [] => [(name, a)]
  | (n, b) :: rest => if n = name then (n, a) :: rest else (n, b) :: put name a rest

theorem keys_put (name : Text) (a : α) (xs : List (Text × α)) :
    (put name a xs).map Prod.fst =
      if name ∈ xs.map Prod.fst then xs.map Prod.fst else xs.map Prod.fst ++ [name] := by
  induction xs with
  | nil => simp [put]
  | cons x xs ih =>
      rcases x with ⟨n, b⟩
      by_cases h : n = name
      · simp [put, h]
      · simp only [put, h, if_false, List.map_cons, ih, List.mem_cons, Ne.symm h, false_or]
        split <;> simp

theorem nodup_put (name : Text) (a : α) {xs : List (Text × α)}
    (h : (xs.map Prod.fst).Nodup) : ((put name a xs).map Prod.fst).Nodup := by
  rw [keys_put]
  split
  · exact h
  · next hn => exact List.nodup_append.2 ⟨h, by simp, by grind⟩

def empty : Bindings α := ⟨[], .nil⟩

instance : Inhabited (Bindings α) := ⟨empty⟩

def keys (m : Bindings α) : List Text := m.entries.map Prod.fst

def get? (m : Bindings α) (name : Text) : Option α := m.entries.lookup name

def insert (m : Bindings α) (name : Text) (a : α) : Bindings α :=
  ⟨put name a m.entries, nodup_put name a m.distinct⟩

def ofList (xs : List (Text × α)) : Bindings α :=
  xs.foldl (fun m x => m.insert x.1 x.2) empty

def merge (m newer : Bindings α) : Bindings α :=
  newer.entries.foldl (fun m x => m.insert x.1 x.2) m

def map (f : α → β) (m : Bindings α) : Bindings β :=
  ⟨m.entries.map fun x => (x.1, f x.2), by simpa [Function.comp_def] using m.distinct⟩

theorem lookup_eq_none_iff {xs : List (Text × α)} {n : Text} :
    xs.lookup n = none ↔ n ∉ xs.map Prod.fst := by
  rw [List.lookup_eq_none_iff, List.mem_map]
  constructor
  · rintro h ⟨x, hx, rfl⟩
    simpa using h x hx
  · intro h x hx
    rw [bne_iff_ne]
    rintro rfl
    exact h ⟨x, hx, rfl⟩

theorem get?_eq_none_iff {m : Bindings α} {n : Text} : m.get? n = none ↔ n ∉ m.keys :=
  lookup_eq_none_iff

theorem lookup_put (name n : Text) (a : α) (xs : List (Text × α)) :
    (put name a xs).lookup n = if n = name then some a else xs.lookup n := by
  have hb (k : Text) : (n == k) = decide (n = k) := by by_cases h : n = k <;> simp [h]
  induction xs with
  | nil => by_cases h : n = name <;> simp [put, h, List.lookup_cons, hb]
  | cons x xs ih =>
      rcases x with ⟨k, b⟩
      by_cases h : k = name
      · subst h
        by_cases hn : n = k <;> simp [put, List.lookup_cons, hb, hn]
      · by_cases hn : n = k
        · simp [put, h, hn]
        · simp [put, List.lookup_cons, h, hb, hn, ih]

@[simp] theorem get?_insert (m : Bindings α) (name n : Text) (a : α) :
    (m.insert name a).get? n = if n = name then some a else m.get? n :=
  lookup_put name n a m.entries

@[simp] theorem get?_empty (n : Text) : (empty : Bindings α).get? n = none := rfl

/-- The last insertion counts, and without repeated names that is the first as well. -/
theorem get?_foldl_insert (m : Bindings α) {xs : List (Text × α)}
    (h : (xs.map Prod.fst).Nodup) (n : Text) :
    (xs.foldl (fun m x => m.insert x.1 x.2) m).get? n = (xs.lookup n).or (m.get? n) := by
  induction xs generalizing m with
  | nil => rfl
  | cons x xs ih =>
      rcases x with ⟨k, a⟩
      obtain ⟨hk, hxs⟩ := List.nodup_cons.1 h
      rw [List.foldl_cons, ih _ hxs, get?_insert, List.lookup_cons]
      by_cases hn : n = k
      · subst hn
        simp [lookup_eq_none_iff.2 hk]
      · simp [hn, beq_eq_false_iff_ne.2 hn]

@[simp] theorem get?_merge (m newer : Bindings α) (n : Text) :
    (m.merge newer).get? n = (newer.get? n).or (m.get? n) :=
  get?_foldl_insert m newer.distinct n

end Bindings

end UriTemplate
