import UriTemplate.Proofs.NamedTemplates

namespace UriTemplate

/-- Of all errors of an expansion only two are not reported, each for a value that is named. -/
theorem offences_of_expand {template : Text} {vars : Lookup} {x : Error}
    (h : expand template vars = .error x) (hx : x.isReported = false) :
    ∃ ps, parse template = .ok ps ∧ (Expansion.offences vars ps).head? = some x ∧
      (x = .tooManyDigits ∨ ∃ t, x = .unencodable t) := by
  cases hparse : Part.parse template with
  | error fault =>
      rw [expand, parse, hparse] at h
      obtain rfl := Except.error.inj h
      contradiction
  | ok ps =>
      have hp := parse_of_parts hparse
      rw [expand_of_parse hp] at h
      have hhead := ((Expansion.decidedBy_render vars ps).error_iff x).1 h
      refine ⟨ps, hp, hhead, ?_⟩
      cases Expansion.mem_offences_iff.1 (List.mem_of_mem_head? hhead) with
      | part | value => contradiction
      | digits => exact .inl rfl
      | surrogate => exact .inr ⟨_, rfl⟩

namespace Command

theorem ofError_of_isReported {x : Error} (h : x.isReported = true) :
    Outcome.ofError x = .failed (.library x) := by
  cases x <;> first | rfl | contradiction

namespace Render

variable {w : World} {name : Text} {options : List Text} {file : Option Text}

/-- The expansion is printed on a line and the exit code is 0, or a line tells of an error and the
exit code is 1. -/
inductive EndsCleanly (w : World) (name : Text) (options : List Text) (file : Option Text) :
    Outcome → Prop
  | printed {c : Config} {vars : Bindings Value} {t : Text} : Loads w file c →
      Assignment.values options = .ok vars → c.expand name (.ofBindings vars) = .ok t →
      (line t).all w.writes = true → Outcome.exitCode (.printed (line t)) = 0 →
      EndsCleanly w name options file (.printed (line t))
  | failed {f : Failure} {rest : Text} : Outcome.exitCode (.failed f) = 1 →
      reportLine true f.message = Text.of "Error: " ++ rest →
      EndsCleanly w name options file (.failed f)

theorem endsCleanly_failed (f : Failure) : EndsCleanly w name options file (.failed f) := by
  apply EndsCleanly.failed rfl
  show Text.dropSequences [] (Text.of "Error: " ++ f.message) ++ [.char '\n'] = _
  rfl

theorem not_endsCleanly_escaped (a : Accident) : ¬ EndsCleanly w name options file (.escaped a) :=
  nofun

def FirstOffence (w : World) (name : Text) (options : List Text) (file : Option Text)
    (x : Error) : Prop :=
  ∃ c e ps vars, Loads w file c ∧ c.templates.get? name = some e ∧ parse e.template = .ok ps ∧
    Assignment.values options = .ok vars ∧
    (Expansion.offences (.layered [vars.get?, e.vars.get?, c.vars.get?]) ps).head? = some x

/-- What no report foresees: a path that cannot be looked at, a file that cannot be opened, decoded
or read as a value, an integer too long to be written, and text that has no encoding. -/
inductive Stumbles (w : World) (name : Text) (options : List Text) (file : Option Text) :
    Accident → Prop
  | unseen {t : Text} {e : OsError} : file = some t →
      w.exists? (Path.Written.ofText t).text = .error e → Stumbles w name options file (.system e)
  | search {e : OsError} : file = none →
      (w.directory >>= Path.findConfig fun p => w.exists? p.text) = .error e →
      Stumbles w name options file (.system e)
  | load {path : Text} {a : Accident} : locate w file = .ok path →
      w.load path = .error (.accident a) → Stumbles w name options file a
  | digits : FirstOffence w name options file .tooManyDigits →
      Stumbles w name options file (.badValue Error.tooManyDigits.message)
  | surrogate {t : Text} : FirstOffence w name options file (.unencodable t) →
      Stumbles w name options file (.unencodable t)
  | unwritten {c : Config} {vars : Bindings Value} {t : Text} : Loads w file c →
      Assignment.values options = .ok vars → c.expand name (.ofBindings vars) = .ok t →
      (line t).all w.writes = false → Stumbles w name options file (.unencodable (line t))

/-- A file that holds a configuration: its options and the template decide. -/
theorem cases_of_loads {c : Config}
    (hoptions : ∀ option ∈ options, Assignment.IsAssignment option) (hloads : Loads w file c) :
    EndsCleanly w name options file (ofConfig w c name options) ∨
      ∃ a, Stumbles w name options file a ∧ ofConfig w c name options = .escaped a := by
  cases he : c.templates.get? name with
  | none =>
      left
      rw [ofConfig, Config.entry, he]
      exact endsCleanly_failed _
  | some e =>
      obtain ⟨vars, hvars⟩ := Assignment.exists_values hoptions
      rw [ofConfig_of_values he hvars]
      cases hresult : c.expand name (.ofBindings vars) with
      | ok t =>
          rw [World.conclude, World.print]
          split
          next hwrites => exact .inl (.printed hloads hvars hresult hwrites rfl)
          next hwrites =>
            exact .inr ⟨_, .unwritten hloads hvars hresult (Bool.eq_false_iff.2 hwrites), rfl⟩
      | error x =>
          rw [World.conclude]
          cases hx : x.isReported with
          | true =>
              left
              rw [ofError_of_isReported hx]
              exact endsCleanly_failed _
          | false =>
              right
              rw [Config.expand_ofBindings he] at hresult
              obtain ⟨ps, hp, hhead, rfl | ⟨t, rfl⟩⟩ := offences_of_expand hresult hx
              · exact ⟨_, .digits ⟨c, e, ps, vars, hloads, he, hp, hvars, hhead⟩, rfl⟩
              · exact ⟨_, .surrogate ⟨c, e, ps, vars, hloads, he, hp, hvars, hhead⟩, rfl⟩

theorem cases_of_locate_eq_error {o : Outcome} (h : locate w file = .error o) :
    EndsCleanly w name options file o ∨
      ∃ a, Stumbles w name options file a ∧ o = .escaped a := by
  cases file with
  | none =>
      simp only [locate] at h
      split at h
      · contradiction
      · obtain rfl := Except.error.inj h
        exact .inl (endsCleanly_failed _)
      next e hsearch =>
        obtain rfl := Except.error.inj h
        exact .inr ⟨_, .search rfl hsearch, rfl⟩
  | some t =>
      simp only [locate] at h
      split at h
      · contradiction
      · obtain rfl := Except.error.inj h
        exact .inl (endsCleanly_failed _)
      next e hunseen =>
        obtain rfl := Except.error.inj h
        exact .inr ⟨_, .unseen rfl hunseen, rfl⟩

theorem cases_of_locate {path : Text}
    (hoptions : ∀ option ∈ options, Assignment.IsAssignment option)
    (hlocate : locate w file = .ok path) :
    EndsCleanly w name options file (ofLoaded w path name options (w.load path)) ∨
      ∃ a, Stumbles w name options file a ∧
        ofLoaded w path name options (w.load path) = .escaped a := by
  cases hload : w.load path with
  | error fault =>
      cases fault with
      | malformed => exact .inl (endsCleanly_failed _)
      | accident a => exact .inr ⟨a, .load hlocate hload, rfl⟩
  | ok v =>
      rw [ofLoaded]
      cases hconfig : Config.ofLoaded (.ok v) with
      | ok c => exact cases_of_loads hoptions ⟨path, hlocate, hload ▸ hconfig⟩
      | error fault =>
          cases fault with
          | rejected problems => exact .inl (endsCleanly_failed _)
          | unread fault =>
              rw [Config.ofLoaded] at hconfig
              split at hconfig
              · contradiction
              · exact absurd hconfig (by cases Config.Check.config v <;> simp [Except.mapError])

theorem exists_entry {c : Config} {overrides : Dict} {t : Text}
    (h : c.expand name overrides = .ok t) : ∃ e, c.templates.get? name = some e := by
  cases he : c.templates.get? name with
  | some e => exact ⟨e, rfl⟩
  | none =>
      rw [Config.expand, Config.entry, he] at h
      contradiction

theorem render_of_firstOffence {x : Error} (h : FirstOffence w name options file x) :
    render w name options file = .ofError x := by
  obtain ⟨c, e, ps, vars, hloads, he, hp, hvars, hhead⟩ := h
  have hresult := ((Expansion.decidedBy_render _ _).error_iff _).2 hhead
  rw [render_of_loads hloads, ofConfig_of_values he hvars, Config.expand_ofBindings he,
    expand_of_parse hp, hresult, World.conclude]

theorem render_of_stumbles {a : Accident} (h : Stumbles w name options file a) :
    render w name options file = .escaped a := by
  cases h with
  | unseen hfile hunseen =>
      rw [hfile, render, locate]
      simp only [hunseen]
  | search hfile hsearch =>
      rw [hfile, render, locate]
      simp only [hsearch]
  | load hlocate hload => rw [render_of_locate hlocate, hload, ofLoaded, Config.ofLoaded]
  | digits h => exact render_of_firstOffence h
  | surrogate h => exact render_of_firstOffence h
  | unwritten hloads hvars hresult hwrites =>
      obtain ⟨e, he⟩ := exists_entry hresult
      rw [render_of_loads hloads, ofConfig_of_values he hvars, hresult, World.conclude,
        World.print, hwrites]
      rfl

end Render

variable {options : List Text}

theorem render_cases (w : World) (name : Text) (file : Option Text)
    (hoptions : ∀ option ∈ options, Assignment.IsAssignment option) :
    Render.EndsCleanly w name options file (render w name options file) ∨
      ∃ a, Render.Stumbles w name options file a ∧ render w name options file = .escaped a := by
  cases hlocate : Render.locate w file with
  | ok path =>
      rw [Render.render_of_locate hlocate]
      exact Render.cases_of_locate hoptions hlocate
  | error o =>
      rw [render, hlocate]
      exact Render.cases_of_locate_eq_error hlocate

/-- With options of the right form a command that expands a configured template ends with a line for
its user, but for the accidents of `Stumbles`, each of which escapes. -/
theorem render_escapes_iff (w : World) (name : Text) (file : Option Text)
    (hoptions : ∀ option ∈ options, Assignment.IsAssignment option) :
    (∀ a, render w name options file = .escaped a ↔ Render.Stumbles w name options file a) ∧
    (Render.EndsCleanly w name options file (render w name options file) ↔
      ∀ a, ¬ Render.Stumbles w name options file a) := by
  constructor
  · intro a
    refine ⟨fun h => ?_, Render.render_of_stumbles⟩
    obtain hclean | ⟨b, hb, hescaped⟩ := render_cases w name file hoptions
    · rw [h] at hclean
      exact absurd hclean (Render.not_endsCleanly_escaped a)
    · rw [hescaped] at h
      obtain rfl := Outcome.escaped.inj h
      exact hb
  · constructor
    · intro hclean a ha
      rw [Render.render_of_stumbles ha] at hclean
      exact Render.not_endsCleanly_escaped a hclean
    · intro hnone
      obtain hclean | ⟨b, hb, -⟩ := render_cases w name file hoptions
      · exact hclean
      · exact absurd hb (hnone b)

theorem render_escapes_iff_longName :
    let w := (FileTree.mk []).world []
    let options := [Text.of "x=o"]
    let t := List.replicate 256 (.char 'a')
    (∀ option ∈ options, Assignment.IsAssignment option) ∧
    render w [.char 't'] options (some t) = .escaped (.system .nameTooLong) := by
  intro w options t
  have hoptions : ∀ option ∈ options, Assignment.IsAssignment option := by decide
  have hunseen : w.exists? (Path.Written.ofText t).text = .error .nameTooLong := by
    set_option maxRecDepth 4000 in rfl
  exact ⟨hoptions, ((render_escapes_iff w [.char 't'] (some t) hoptions).1 _).2
    (.unseen rfl hunseen)⟩

/-- A directory with the name of a configuration ends the search for one. -/
theorem render_directory_escapes :
    let w := (FileTree.mk [([Path.configName], .directory)]).world []
    render w [.char 'a'] [] none = .escaped (.system .isDirectory) ∧
    ¬ Render.EndsCleanly w [.char 'a'] [] none (render w [.char 'a'] [] none) := by
  intro w
  have hescapes : render w [.char 'a'] [] none = .escaped (.system .isDirectory) := by
    decide +kernel
  refine ⟨hescapes, ?_⟩
  rw [hescapes]
  exact Render.not_endsCleanly_escaped _

end Command

end UriTemplate
