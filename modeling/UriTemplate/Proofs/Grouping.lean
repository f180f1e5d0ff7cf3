import UriTemplate.Proofs.Influence
import UriTemplate.Proofs.Options

namespace UriTemplate.Assignment

def nameOf (option : Text) : Text := option.takeWhile (· ≠ .char '=')

def valueOf (option : Text) : Text := (option.dropWhile (· ≠ .char '=')).tail

def named (name : Text) (options : List Text) : List Text :=
  options.filter fun option => nameOf option = name

variable {option name value : Text} {options : List Text}

theorem nameOf_append (he : .char '=' ∉ name) (value : Text) :
    nameOf (name ++ .char '=' :: value) = name ∧ valueOf (name ++ .char '=' :: value) = value := by
  have hname : ∀ c ∈ name, decide (c ≠ .char '=') = true :=
    fun c hc => decide_eq_true (ne_of_mem_of_not_mem hc he)
  have hvalue : ∀ c ∈ (.char '=' :: value).head?, decide (c ≠ .char '=') = false := by simp
  rw [nameOf, valueOf, Parser.takeWhile_append hname hvalue, Parser.dropWhile_append hname hvalue]
  exact ⟨rfl, rfl⟩

/-- An assignment is read as its name and its value, and they are all that it says. -/
theorem IsAssignment.split_eq (h : IsAssignment option) :
    split option = .ok (nameOf option, valueOf option) ∧
      option = nameOf option ++ .char '=' :: valueOf option := by
  obtain ⟨name, value, rfl, hn, he⟩ := h.exists_append
  obtain ⟨hname, hvalue⟩ := nameOf_append he value
  rw [hname, hvalue]
  exact ⟨split_append hn he, rfl⟩

theorem valuesOf_eq (h : ∀ option ∈ options, IsAssignment option) (n : Text) :
    valuesOf n options = (named n options).map valueOf := by
  induction options with
  | nil => rfl
  | cons option options ih =>
      obtain ⟨ho, hos⟩ := List.forall_mem_cons.1 h
      rw [valuesOf, List.filterMap_cons, ho.split_eq.1, ← valuesOf, ih hos, named, named,
        List.filter_cons]
      by_cases hn : nameOf option = n <;> simp [hn]

theorem eq_map_named (h : ∀ option ∈ options, IsAssignment option) (n : Text) :
    named n options = ((named n options).map valueOf).map fun value => n ++ .char '=' :: value := by
  rw [List.map_map]
  refine (List.map_id' _).symm.trans (List.map_congr_left fun option ho => ?_)
  obtain ⟨hmem, hn⟩ := List.mem_filter.1 ho
  obtain rfl : nameOf option = n := of_decide_eq_true hn
  exact (h option hmem).split_eq.2

theorem keys_add (m : Bindings Given) (name value : Text) :
    (add m name value).keys = if name ∈ m.keys then m.keys else m.keys ++ [name] :=
  Bindings.keys_put _ _ _

/-- A name takes its place when it first comes. -/
theorem keys_groupInto {m m' : Bindings Given} {names : List Text} (hm : m.keys = names.eraseDups)
    (h : ∀ option ∈ options, IsAssignment option) (hg : groupInto m options = .ok m') :
    m'.keys = (names ++ options.map nameOf).eraseDups := by
  induction options generalizing m names with
  | nil =>
      obtain rfl := Except.ok.inj hg
      rw [hm, List.map_nil, List.append_nil]
  | cons option options ih =>
      obtain ⟨ho, hos⟩ := List.forall_mem_cons.1 h
      have hstep : (add m (nameOf option) (valueOf option)).keys =
          (names ++ [nameOf option]).eraseDups := by
        rw [keys_add, hm, Part.eraseDups_concat]
        simp only [List.mem_eraseDups]
      rw [groupInto, ho.split_eq.1] at hg
      rw [ih hstep hos hg, List.map_cons, List.append_assoc, List.singleton_append]

theorem keys_values {vars : Bindings Value} (h : ∀ option ∈ options, IsAssignment option)
    (hv : values options = .ok vars) : vars.keys = (options.map nameOf).eraseDups := by
  obtain ⟨m, hm, rfl⟩ := Outcome.map_eq_ok_iff.1 hv
  rw [← List.nil_append (options.map nameOf), ← keys_groupInto (m := .empty) rfl h hm]
  show ((m.entries.map fun x => (x.1, x.2.value)).map Prod.fst) = m.entries.map Prod.fst
  rw [List.map_map]
  rfl

inductive Collects : List Text → Value → Prop
  | one (t : Text) : Collects [t] (.string t)
  | several {ts : List Text} : 2 ≤ ts.length → Collects ts (.list (ts.map .string))

theorem exists_collects {ts : List Text} (hne : ts ≠ []) :
    ∃ x, (Given.ofTexts? ts).map Given.value = some x ∧ Collects ts x := by
  match ts with
  | [] => contradiction
  | [t] => exact ⟨_, rfl, .one t⟩
  | t :: u :: ts => exact ⟨_, rfl, .several (by simp)⟩

theorem exists_error_iff :
    (∃ m, values options = .error m) ↔ ∃ option ∈ options, ¬ IsAssignment option := by
  constructor
  · rintro ⟨m, hm⟩
    by_contra hnone
    have hall : ∀ option ∈ options, IsAssignment option :=
      fun option hmem => Decidable.byContradiction fun ho => hnone ⟨option, hmem, ho⟩
    obtain ⟨vars, hvars⟩ := exists_values hall
    rw [hvars] at hm
    contradiction
  · rintro ⟨option, hmem, ho⟩
    have hsome : (options.find? fun option => ¬ IsAssignment option).isSome :=
      List.find?_isSome.2 ⟨option, hmem, decide_eq_true ho⟩
    obtain ⟨first, hfirst⟩ := Option.isSome_iff_exists.1 hsome
    exact ⟨_, values_of_find? hfirst⟩

/-- Refused is a list with an option that has no name or no `=`, and the first one is told.
Otherwise each name stands at its first mention, and with it the values of its options in their
order, from which the options can be written again. -/
theorem values_collect (options : List Text) :
    ((∃ m, values options = .error m) ↔
      ∃ option ∈ options, .char '=' ∉ option ∨ option.head? = some (.char '=')) ∧
    (∀ before option after, options = before ++ option :: after →
      (∀ o ∈ before, IsAssignment o) → ¬ IsAssignment option →
      values options = .error ⟨option⟩) ∧
    ((∀ option ∈ options, IsAssignment option) → ∃ vars, values options = .ok vars ∧
      vars.keys = (options.map nameOf).eraseDups ∧
      ∀ n ∈ vars.keys, ∃ x ts, vars.get? n = some x ∧ Collects ts x ∧
        (named n options).map valueOf = ts ∧
        named n options = ts.map fun value => n ++ .char '=' :: value) := by
  refine ⟨?_, ?_, ?_⟩
  · have hmalformed (option : Text) :
        (.char '=' ∉ option ∨ option.head? = some (.char '=')) ↔ ¬ IsAssignment option := by
      rw [IsAssignment, not_and_or, not_not]
    simp only [hmalformed]
    exact exists_error_iff
  · rintro before option after rfl hbefore ho
    apply values_of_find?
    have hnone : before.find? (fun option => ¬ IsAssignment option) = none := by
      simpa using hbefore
    rw [List.find?_append, hnone, Option.none_or]
    exact List.find?_cons_of_pos (decide_eq_true ho)
  · intro h
    obtain ⟨vars, hvars⟩ := exists_values h
    have hkeys := keys_values h hvars
    refine ⟨vars, hvars, hkeys, fun n hn => ?_⟩
    rw [hkeys, List.mem_eraseDups, List.mem_map] at hn
    obtain ⟨option, hmem, hname⟩ := hn
    have hne : (named n options).map valueOf ≠ [] := by
      have hoption : option ∈ named n options :=
        List.mem_filter.2 ⟨hmem, decide_eq_true hname⟩
      exact List.ne_nil_of_mem (List.mem_map_of_mem hoption)
    obtain ⟨x, hx, hcollects⟩ := exists_collects hne
    refine ⟨x, _, ?_, hcollects, rfl, eq_map_named h n⟩
    rw [gives_of_values hvars, valuesOf_eq h, hx]

/-- A name comes again between others and without a value, and values hold `=`. -/
theorem values_collect_again :
    let options := [Text.of "a=1", Text.of "b=x=y", Text.of "a=", Text.of "a=3"]
    (∀ option ∈ options, IsAssignment option) ∧
    (∃ vars, values options = .ok vars ∧ vars.keys = [[.char 'a'], [.char 'b']] ∧
      ∃ x ts, vars.get? [.char 'a'] = some x ∧ Collects ts x ∧ ts = [[.char '1'], [], [.char '3']] ∧
        named [.char 'a'] options = ts.map fun value => [.char 'a'] ++ .char '=' :: value) ∧
    ¬ IsAssignment (Text.of "=x") ∧
    values (options ++ Text.of "=x" :: [Text.of "c"]) = .error ⟨Text.of "=x"⟩ := by
  intro options
  have hall : ∀ option ∈ options, IsAssignment option := by decide
  have hx : ¬ IsAssignment (Text.of "=x") := by decide
  obtain ⟨vars, hvars, hkeys, hvalues⟩ := (values_collect options).2.2 hall
  have hab : vars.keys = [[.char 'a'], [.char 'b']] := hkeys
  obtain ⟨x, ts, hget, hcollects, hts, hnamed⟩ := hvalues [.char 'a'] (by simp [hab])
  refine ⟨hall, ⟨vars, hvars, hab, x, ts, hget, hcollects, hts.symm, hnamed⟩, hx, ?_⟩
  exact (values_collect (options ++ Text.of "=x" :: [Text.of "c"])).2.1 options _ _ rfl hall hx

end UriTemplate.Assignment
