import UriTemplate.Assignment
import UriTemplate.Proofs.Outcome
import UriTemplate.Proofs.Reading.Variable

namespace UriTemplate

namespace Bindings

variable {α β : Type}

theorem lookup_map (f : α → β) (n : Text) (xs : List (Text × α)) :
    (xs.map fun x => (x.1, f x.2)).lookup n = (xs.lookup n).map f := by
  induction xs with
  | nil => rfl
  | cons x xs ih =>
      rw [List.map_cons, List.lookup_cons, List.lookup_cons, ih]
      cases n == x.1 <;> rfl

@[simp] theorem get?_map (f : α → β) (m : Bindings α) (n : Text) :
    (m.map f).get? n = (m.get? n).map f :=
  lookup_map f n m.entries

end Bindings

namespace Assignment

def IsAssignment (option : Text) : Prop := .char '=' ∈ option ∧ option.head? ≠ some (.char '=')

instance : DecidablePred IsAssignment := fun option =>
  inferInstanceAs (Decidable (.char '=' ∈ option ∧ option.head? ≠ some (.char '=')))

theorem split_append {name value : Text} (hn : name ≠ []) (he : .char '=' ∉ name) :
    split (name ++ .char '=' :: value) = .ok (name, value) := by
  have hname : ∀ c ∈ name, decide (c ≠ .char '=') = true :=
    fun c hc => decide_eq_true (ne_of_mem_of_not_mem hc he)
  have hvalue : ∀ c ∈ (.char '=' :: value).head?, decide (c ≠ .char '=') = false := by simp
  rw [split, Parser.takeWhile_append hname hvalue, Parser.dropWhile_append hname hvalue]
  cases name with
  | nil => contradiction
  | cons c name => rfl

theorem IsAssignment.exists_append {option : Text} (h : IsAssignment option) :
    ∃ name value, option = name ++ .char '=' :: value ∧ name ≠ [] ∧ .char '=' ∉ name := by
  obtain ⟨name, value, rfl, he⟩ := List.eq_append_cons_of_mem h.1
  refine ⟨name, value, rfl, ?_, he⟩
  rintro rfl
  exact h.2 rfl

theorem split_of_not_isAssignment {option : Text} (h : ¬ IsAssignment option) :
    split option = .error ⟨option⟩ := by
  by_cases he : .char '=' ∈ option
  · cases option with
    | nil => contradiction
    | cons c option =>
        have hc : c = .char '=' := Decidable.byContradiction fun hc => h ⟨he, by simpa using hc⟩
        simp [split, hc]
  · have hall : ∀ c ∈ option, decide (c ≠ .char '=') = true :=
      fun c hc => decide_eq_true (ne_of_mem_of_not_mem hc he)
    have hdrop : option.dropWhile (· ≠ .char '=') = [] := by
      rw [← List.append_nil option, List.dropWhile_append_of_pos hall, List.dropWhile_nil]
    rw [split, hdrop]
    cases option.takeWhile (· ≠ .char '=') <;> rfl

def valuesOf (name : Text) (options : List Text) : List Text :=
  options.filterMap fun option => match split option with
    | .ok (n, value) => if n = name then some value else none
    | .error _ => none

def Given.ofTexts? : List Text → Option Given
  | [] => none
  | [t] => some (.once t)
  | ts => some (.repeated ts)

theorem Given.ofTexts?_concat (ts : List Text) (t : Text) :
    ofTexts? (ts ++ [t]) = some ((ofTexts? ts).elim (.once t) fun g => g.add t) := by
  cases ts with
  | nil => rfl
  | cons u ts => cases ts <;> rfl

theorem get?_add (m : Bindings Given) (name value n : Text) :
    (add m name value).get? n =
      if n = name then some ((m.get? name).elim (.once value) fun g => g.add value)
      else m.get? n := by
  rw [add, Bindings.get?_insert]
  cases m.get? name <;> rfl

/-- The map holds what the options read so far give, and at the end what all of them give. The first
option of another form ends the reading. -/
theorem groupInto_spec {m : Bindings Given} {before : Text → List Text}
    (hm : ∀ n, m.get? n = Given.ofTexts? (before n)) (options : List Text) :
    (∀ m', groupInto m options = .ok m' →
      ∀ n, m'.get? n = Given.ofTexts? (before n ++ valuesOf n options)) ∧
    match options.find? fun option => ¬ IsAssignment option with
    | some option => groupInto m options = .error ⟨option⟩
    | none => ∃ m', groupInto m options = .ok m' := by
  induction options generalizing m before with
  | nil =>
      refine ⟨?_, m, rfl⟩
      rintro m' h n
      cases h
      rw [hm, valuesOf, List.filterMap_nil, List.append_nil]
  | cons option options ih =>
      by_cases ho : IsAssignment option
      · obtain ⟨name, value, rfl, hn, he⟩ := ho.exists_append
        have hstep : ∀ n, (add m name value).get? n =
            Given.ofTexts? (before n ++ if name = n then [value] else []) := by
          intro n
          rw [get?_add]
          by_cases h : n = name
          · subst h
            rw [if_pos rfl, if_pos rfl, Given.ofTexts?_concat, hm]
          · rw [if_neg h, if_neg (Ne.symm h), List.append_nil, hm]
        have hvalues (n : Text) : valuesOf n ((name ++ .char '=' :: value) :: options) =
            (if name = n then [value] else []) ++ valuesOf n options := by
          rw [valuesOf, List.filterMap_cons, split_append hn he]
          by_cases h : name = n <;> simp [h, valuesOf]
        obtain ⟨hok, herror⟩ := ih hstep
        rw [List.find?_cons_of_neg (by simpa using ho), groupInto, split_append hn he]
        refine ⟨fun m' h n => ?_, herror⟩
        rw [hok m' h n, hvalues, List.append_assoc]
      · rw [List.find?_cons_of_pos (by simpa using ho), groupInto, split_of_not_isAssignment ho]
        exact ⟨nofun, rfl⟩

def Gives (options : List Text) (vars : Text → Option Value) : Prop :=
  ∀ n, vars n = (Given.ofTexts? (valuesOf n options)).map Given.value

theorem group_spec (options : List Text) :
    (∀ m, group options = .ok m → ∀ n, m.get? n = Given.ofTexts? (valuesOf n options)) ∧
    match options.find? fun option => ¬ IsAssignment option with
    | some option => group options = .error ⟨option⟩
    | none => ∃ m, group options = .ok m := by
  have hstart (n : Text) : (Bindings.empty : Bindings Given).get? n = Given.ofTexts? [] := rfl
  exact groupInto_spec hstart options

theorem values_of_find? {options : List Text} {option : Text}
    (h : options.find? (fun option => ¬ IsAssignment option) = some option) :
    values options = .error ⟨option⟩ := by
  have hgroup := (group_spec options).2
  rw [h] at hgroup
  rw [values, hgroup, Outcome.map_error]

theorem exists_values {options : List Text} (h : ∀ option ∈ options, IsAssignment option) :
    ∃ vars, values options = .ok vars := by
  have hnone : options.find? (fun option => ¬ IsAssignment option) = none := by
    simpa using h
  have hgroup := (group_spec options).2
  rw [hnone] at hgroup
  obtain ⟨m, hm⟩ := hgroup
  exact ⟨m.map Given.value, Outcome.map_eq_ok_iff.2 ⟨m, hm, rfl⟩⟩

theorem gives_of_values {options : List Text} {vars : Bindings Value}
    (h : values options = .ok vars) : Gives options vars.get? := by
  obtain ⟨m, hm, rfl⟩ := Outcome.map_eq_ok_iff.1 h
  intro n
  rw [Bindings.get?_map, (group_spec options).1 m hm]

/-- An option names the value that it gives. -/
theorem Gives.exists_eq_some {options : List Text} {vars : Text → Option Value}
    (h : Gives options vars) {n value : Text} (hn : n ≠ []) (he : .char '=' ∉ n)
    (hmem : n ++ .char '=' :: value ∈ options) : ∃ x, vars n = some x := by
  have hvalue : value ∈ valuesOf n options := by
    apply List.mem_filterMap.2
    exact ⟨_, hmem, by simp [split_append hn he]⟩
  rw [h]
  match hts : valuesOf n options with
  | [] => exact absurd hvalue (hts ▸ List.not_mem_nil)
  | [t] => exact ⟨_, rfl⟩
  | t :: u :: ts => exact ⟨_, rfl⟩

end Assignment

end UriTemplate
