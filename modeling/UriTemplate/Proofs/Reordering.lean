import UriTemplate.Proofs.Grouping
import UriTemplate.Proofs.NamedTemplates

namespace UriTemplate

namespace Assignment

def expansion (template : Text) (options : List Text) : Except Malformed (Except Error Text) :=
  (values options).map fun vars => expand template vars.get?

/-- A permutation in which the options for one name keep their order. -/
structure Reordered (options others : List Text) : Prop where
  perm : others.Perm options
  order : ∀ n, named n others = named n options

/-- Options for different names can swap places. -/
theorem reordered_swap {a b : Text} (h : nameOf a ≠ nameOf b) (options : List Text) :
    Reordered (a :: b :: options) (b :: a :: options) := by
  refine ⟨.swap a b options, fun n => ?_⟩
  by_cases ha : nameOf a = n
  · have hb : nameOf b ≠ n := ha ▸ Ne.symm h
    simp [named, ha, hb]
  · simp [named, List.filter_cons, ha]

def mentioned (names : List Text) (options : List Text) : List Text :=
  options.filter fun option => names.contains (nameOf option)

variable {template : Text} {options others names : List Text}

theorem named_mentioned {n : Text} (hn : n ∈ names) :
    named n (mentioned names options) = named n options := by
  rw [named, mentioned, List.filter_filter, named]
  apply List.filter_congr
  intro option _
  by_cases h : nameOf option = n <;> simp [h, hn]

theorem Gives.congr {vars other : Lookup} (hv : Gives options vars) (ho : Gives others other)
    (h : ∀ option ∈ options, IsAssignment option) (h' : ∀ option ∈ others, IsAssignment option)
    {n : Text} (hn : named n others = named n options) : other n = vars n := by
  rw [ho, hv, valuesOf_eq h', valuesOf_eq h, hn]

theorem expansion_congr (h : ∀ option ∈ options, IsAssignment option)
    (h' : ∀ option ∈ others, IsAssignment option)
    (hsame : ∀ ps, parse template = .ok ps → ∀ n ∈ Part.variableNames ps,
      named n others = named n options) :
    expansion template others = expansion template options := by
  obtain ⟨vars, hvars⟩ := exists_values h
  obtain ⟨other, hother⟩ := exists_values h'
  have hexpand : expand template other.get? = expand template vars.get? := by
    cases hp : Part.parse template with
    | error fault => rw [expand_of_fault hp, expand_of_fault hp]
    | ok ps =>
        have hparse := parse_of_parts hp
        apply expand_congr hparse
        intro n hn
        exact (gives_of_values hvars).congr (gives_of_values hother) h h' (hsame ps hparse n hn)
  rw [expansion, expansion, hvars, hother, Outcome.map_ok, Outcome.map_ok, hexpand]

/-- What an expansion with assignments fails with: the text is no template, or the first text with a
surrogate among those that they contribute has no encoding. -/
inductive Fails (template : Text) (options : List Text) : Error → Prop
  | unread {fault : ParseError} : Part.parse template = .error fault →
      Fails template options (.invalidTemplate template fault)
  | surrogate {ps : List Part} {t : Text} : parse template = .ok ps →
      (writtenTexts ps options).find? (fun t => t.characters? = none) = some t →
      Fails template options (.unencodable t)

theorem exists_expansion (h : ∀ option ∈ options, IsAssignment option) (template : Text) :
    ∃ r, expansion template options = .ok r ∧
      ∀ e, r = .error e ↔ Fails template options e := by
  obtain ⟨vars, hvars⟩ := exists_values h
  refine ⟨expand template vars.get?, by rw [expansion, hvars, Outcome.map_ok], fun e => ?_⟩
  cases hp : Part.parse template with
  | error fault =>
      rw [expand_of_fault hp]
      constructor
      · intro he
        obtain rfl := Except.error.inj he
        exact .unread hp
      · rintro (hfault | hparse)
        · rw [Except.error.inj (hp.symm.trans hfault)]
        · rw [parse, hp] at hparse
          contradiction
  | ok ps =>
      have hparse := parse_of_parts hp
      rw [(gives_of_values hvars).expand_eq_error_iff hparse]
      constructor
      · rintro ⟨t, ht, rfl⟩
        exact .surrogate hparse ht
      · rintro (hfault | ⟨hps, ht⟩)
        · rw [hp] at hfault
          contradiction
        · obtain rfl := Except.ok.inj (hparse.symm.trans hps)
          exact ⟨_, ht, rfl⟩

theorem mem_writtenTexts {ps : List Part} {t : Text} (h : t ∈ writtenTexts ps options) :
    ∃ v : Variable, v.name ∈ Part.variableNames ps ∧ t ∈ written v (valuesOf v.name options) := by
  obtain ⟨e, he, h⟩ := List.mem_flatMap.1 h
  obtain ⟨v, hv, h⟩ := List.mem_flatMap.1 h
  obtain ⟨p, hp, he⟩ := List.mem_filterMap.1 he
  obtain rfl := Part.expression?_eq_some_iff.1 he
  exact ⟨v, Part.mem_variableNames.2 ⟨e, hp, v, hv, rfl⟩, h⟩

/-- What is cut off texts of characters are texts of characters. -/
theorem characters?_of_mem_written {v : Variable} {ts : List Text}
    (hts : ∀ t ∈ ts, t.characters? ≠ none) {t : Text} (h : t ∈ written v ts) :
    t.characters? ≠ none := by
  match ts with
  | [] => contradiction
  | [u] =>
      obtain rfl := List.mem_singleton.1 h
      obtain ⟨cs, hcs⟩ := Option.ne_none_iff_exists'.1 (hts u (List.mem_singleton_self u))
      rw [Text.characters?_eq_some_iff.1 hcs, Variable.cut_ofChars, Text.characters?_ofChars]
      exact Option.some_ne_none _
  | _ :: _ :: _ => exact hts t h

theorem find?_writtenTexts {ps : List Part}
    (h : ∀ n ∈ Part.variableNames ps, ∀ t ∈ valuesOf n options, t.characters? ≠ none) :
    (writtenTexts ps options).find? (fun t => t.characters? = none) = none := by
  rw [List.find?_eq_none]
  intro t ht
  obtain ⟨v, hv, ht⟩ := mem_writtenTexts ht
  rw [decide_eq_true_eq]
  exact characters?_of_mem_written (h v.name hv) ht

/-- With values of characters only the template decides whether an expansion fails. -/
theorem not_fails_of_parse {ps : List Part} (hp : parse template = .ok ps)
    (h : ∀ n ∈ Part.variableNames ps, ∀ t ∈ valuesOf n options, t.characters? ≠ none) (e : Error) :
    ¬ Fails template options e := by
  rintro (hfault | ⟨hps, ht⟩)
  · rw [parse, hfault] at hp
    contradiction
  · obtain rfl := Except.ok.inj (hp.symm.trans hps)
    rw [find?_writtenTexts h] at ht
    contradiction

end Assignment

theorem Command.expand_congr {template : Text} {options others : List Text}
    (h : Assignment.expansion template others = Assignment.expansion template options)
    (w : World) : expand w template others = expand w template options := by
  have houtcome (options : List Text) : expand w template options =
      match Assignment.expansion template options with
      | .error m => .misused (.badAssignment m)
      | .ok r => w.conclude r := by
    rw [expand, Assignment.expansion]
    cases Assignment.values options <;> rfl
  rw [houtcome, houtcome, h]

namespace Assignment

/-- With assignments for options an expansion fails just when the text is no template or a surrogate
would have to be written. Neither their order, as long as each name keeps its values in turn, nor
options for names that the template does not mention make any difference. -/
theorem expansion_of_assignments {template : Text} {options : List Text}
    (h : ∀ option ∈ options, IsAssignment option) :
    (∃ r, expansion template options = .ok r ∧ ∀ e, r = .error e ↔ Fails template options e) ∧
    (∀ ps, parse template = .ok ps →
      (∀ n ∈ Part.variableNames ps, ∀ t ∈ valuesOf n options, t.characters? ≠ none) →
      ∀ e, ¬ Fails template options e) ∧
    (∀ others, Reordered options others →
      expansion template others = expansion template options ∧
      ∀ w, Command.expand w template others = Command.expand w template options) ∧
    ∀ others, (∀ option ∈ others, IsAssignment option) →
      (∀ ps, parse template = .ok ps →
        mentioned (Part.variableNames ps) others = mentioned (Part.variableNames ps) options) →
      expansion template others = expansion template options ∧
      ∀ w, Command.expand w template others = Command.expand w template options := by
  refine ⟨exists_expansion h template, fun _ => not_fails_of_parse, ?_, ?_⟩
  · intro others hothers
    have h' : ∀ option ∈ others, IsAssignment option :=
      fun option hmem => h option (hothers.perm.mem_iff.1 hmem)
    have hsame : expansion template others = expansion template options :=
      expansion_congr h h' fun _ _ n _ => hothers.order n
    exact ⟨hsame, Command.expand_congr hsame⟩
  · intro others h' hmentioned
    have hsame : expansion template others = expansion template options := by
      apply expansion_congr h h'
      intro ps hp n hn
      rw [← named_mentioned hn, hmentioned ps hp, named_mentioned hn]
    exact ⟨hsame, Command.expand_congr hsame⟩

/-- Two names swap places, and an option for a third name comes between them. -/
theorem expansion_of_assignments_swapped :
    let options := [Text.of "x=1", Text.of "y=a", Text.of "x=2"]
    let others := [Text.of "y=a", Text.of "x=1", Text.of "x=2"]
    let more := [Text.of "x=1", Text.of "z=", Text.of "y=a", Text.of "x=2"]
    (∀ option ∈ options, IsAssignment option) ∧ Reordered options others ∧
    expansion (Text.of "{?x,y}") others = expansion (Text.of "{?x,y}") options ∧
    expansion (Text.of "{?x,y}") more = expansion (Text.of "{?x,y}") options ∧
    expansion (Text.of "{?x,y}") options = .ok (.ok (Text.of "?x=1,2&y=a")) := by
  intro options others more
  have hall : ∀ option ∈ options, IsAssignment option := by decide
  have hmore : ∀ option ∈ more, IsAssignment option := by decide
  have horder : Reordered options others := by
    apply reordered_swap
    decide
  have hp : parse (Text.of "{?x,y}") =
      .ok [.expression ⟨.query, [⟨[.char 'x'], none, false⟩, ⟨[.char 'y'], none, false⟩]⟩] := by
    decide +kernel
  obtain ⟨-, -, hreordered, hmentioned⟩ := @expansion_of_assignments (Text.of "{?x,y}") _ hall
  refine ⟨hall, horder, (hreordered others horder).1, (hmentioned more hmore ?_).1, ?_⟩
  · intro ps hps
    obtain rfl := Except.ok.inj (hp.symm.trans hps)
    rfl
  · have hvalues : values options =
        .ok (.ofList [([.char 'x'], .list [.string [.char '1'], .string [.char '2']]),
          ([.char 'y'], .string [.char 'a'])]) := rfl
    rw [expansion, hvalues, Outcome.map_ok, expand_of_parse hp]
    rfl

/-- A template that is read and an option of the right form do not make an expansion. -/
theorem expansion_surrogate_fails :
    let options := [[.char 'x', .char '=', .surrogate 0x4ff]]
    (∀ option ∈ options, IsAssignment option) ∧ (∃ ps, parse (Text.of "{x}") = .ok ps) ∧
    expansion (Text.of "{x}") options = .ok (.error (.unencodable [.surrogate 0x4ff])) := by
  intro options
  have hall : ∀ option ∈ options, IsAssignment option := by decide
  have hp : parse (Text.of "{x}") = .ok [.expression ⟨.simple, [⟨[.char 'x'], none, false⟩]⟩] :=
    parse_letter rfl
  have hvalues : values options =
      .ok (.ofList [([.char 'x'], .string [.surrogate 0x4ff])]) := rfl
  refine ⟨hall, ⟨_, hp⟩, ?_⟩
  rw [expansion, hvalues, Outcome.map_ok, expand_of_parse hp]
  rfl

end Assignment

end UriTemplate
