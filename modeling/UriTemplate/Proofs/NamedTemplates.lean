import UriTemplate.FileTree
import UriTemplate.Command.Run
import UriTemplate.Proofs.FirstOffence
import UriTemplate.Proofs.Influence
import UriTemplate.Proofs.Layers
import UriTemplate.Proofs.NearestConfig
import UriTemplate.Proofs.Options

namespace UriTemplate

namespace Assignment

/-- What a variable writes of the values that options give to its name. Only one that stands alone
is cut. -/
def written (v : Variable) : List Text → List Text
  | [t] => [v.cut t]
  | ts => ts

def writtenTexts (ps : List Part) (options : List Text) : List Text :=
  (ps.filterMap Part.expression?).flatMap fun e =>
    e.vars.flatMap fun v => written v (valuesOf v.name options)

variable {options : List Text} {vars : Lookup}

theorem Given.ofTexts?_eq_none_iff {ts : List Text} : ofTexts? ts = none ↔ ts = [] := by
  match ts with
  | [] => exact iff_of_true rfl rfl
  | [_] | _ :: _ :: _ => exact iff_of_false nofun nofun

theorem Given.valueOffences_value (v : Variable) {ts : List Text} {g : Given}
    (h : ofTexts? ts = some g) :
    Expansion.valueOffences v g.value = (written v ts).flatMap Expansion.textOffences := by
  match ts with
  | [] => contradiction
  | [t] =>
      obtain rfl := Option.some.inj h
      rw [written, List.flatMap_singleton]
      exact List.append_nil _
  | t :: u :: ts =>
      obtain rfl := Option.some.inj h
      rw [value, Expansion.valueOffences, Value.items?, Option.getD_some, List.flatMap_map]
      rfl

theorem Gives.variableOffences_eq (hv : Gives options vars) (v : Variable) :
    Expansion.variableOffences vars v =
      (written v (valuesOf v.name options)).flatMap Expansion.textOffences := by
  rw [Expansion.variableOffences, hv]
  cases h : Given.ofTexts? (valuesOf v.name options) with
  | none => rw [Given.ofTexts?_eq_none_iff.1 h, Option.map_none, Option.elim_none]; rfl
  | some g => exact Given.valueOffences_value v h

/-- Of values that options give only texts with surrogates cannot be written. -/
theorem Gives.offences_eq (hv : Gives options vars) {ps : List Part}
    (hp : ∀ p ∈ ps, p.IsNormal) :
    Expansion.offences vars ps = (writtenTexts ps options).flatMap Expansion.textOffences := by
  induction ps with
  | nil => rfl
  | cons p ps ih =>
      have ih := ih fun q hq => hp q (List.mem_cons_of_mem _ hq)
      rw [Expansion.offences, List.flatMap_cons, ← Expansion.offences, ih]
      cases p with
      | literal => rfl
      | foreign => exact (hp _ List.mem_cons_self).elim
      | expression e =>
          rw [Expansion.partOffences, funext hv.variableOffences_eq, ← List.flatMap_assoc,
            ← List.flatMap_append]
          rfl

theorem head?_textOffences (ts : List Text) :
    (ts.flatMap Expansion.textOffences).head? =
      (ts.find? fun t => t.characters? = none).map Error.unencodable := by
  induction ts with
  | nil => rfl
  | cons t ts ih =>
      rw [List.flatMap_cons, Expansion.textOffences]
      by_cases h : t.characters? = none <;> simp [h, ih]

/-- An expansion with the values of options fails on the first text that has a surrogate. -/
theorem Gives.expand_eq_error_iff (hv : Gives options vars) {template : Text} {ps : List Part}
    (hp : parse template = .ok ps) {e : Error} :
    expand template vars = .error e ↔
      ∃ t, (writtenTexts ps options).find? (fun t => t.characters? = none) = some t ∧
        e = .unencodable t := by
  have hnormal := (allNormal_of_template (parse_eq_ok_iff.1 hp)).1
  rw [expand_of_parse hp, (Expansion.decidedBy_render vars ps).error_iff, hv.offences_eq hnormal,
    head?_textOffences, Option.map_eq_some_iff]
  simp only [eq_comm]

end Assignment

theorem Config.expand_ofBindings {c : Config} {name : Text} {e : Entry}
    (he : c.templates.get? name = some e) (vars : Bindings Value) :
    c.expand name (.ofBindings vars) =
      UriTemplate.expand e.template (.layered [vars.get?, e.vars.get?, c.vars.get?]) := by
  rw [expand_of_get? he, funext (Dict.shows_ofBindings vars).get?_eq]

namespace Command

variable {w : World} {c : Config} {name : Text} {e : Config.Entry} {options : List Text}

theorem expand_of_values {vars : Bindings Value} (h : Assignment.values options = .ok vars)
    (template : Text) :
    expand w template options = w.conclude (UriTemplate.expand template vars.get?) := by
  rw [expand, h]

theorem expand_of_malformed {m : Assignment.Malformed}
    (h : Assignment.values options = .error m) (template : Text) :
    expand w template options = .misused (.badAssignment m) := by
  rw [expand, h]

namespace Render

theorem ofConfig_of_values (he : c.templates.get? name = some e) {vars : Bindings Value}
    (h : Assignment.values options = .ok vars) :
    ofConfig w c name options = w.conclude (c.expand name (.ofBindings vars)) := by
  rw [ofConfig, Config.entry_of_get? he, h]

theorem ofConfig_of_malformed (he : c.templates.get? name = some e)
    {m : Assignment.Malformed} (h : Assignment.values options = .error m) :
    ofConfig w c name options = .misused (.badAssignment m) := by
  rw [ofConfig, Config.entry_of_get? he, h]

def Loads (w : World) (file : Option Text) (c : Config) : Prop :=
  ∃ path, locate w file = .ok path ∧ Config.ofLoaded (w.load path) = .ok c

theorem exists_of_locate {file : Option Text} {path : Text} (h : locate w file = .ok path) :
    w.exists? path = .ok true := by
  cases file with
  | some t =>
      simp only [locate] at h
      split at h
      next hthere =>
        obtain rfl := Except.ok.inj h
        exact hthere
      · contradiction
      · contradiction
  | none =>
      simp only [locate] at h
      split at h
      next p hfind =>
        obtain rfl := Except.ok.inj h
        obtain ⟨start, -, hstart⟩ := Outcome.bind_eq_ok_iff.1 hfind
        cases Path.findConfig_eq_iff.1 hstart with
        | nearest _ hthere => exact hthere
      · contradiction
      · contradiction

theorem render_of_locate {file : Option Text} {path : Text} (h : locate w file = .ok path) :
    render w name options file = ofLoaded w path name options (w.load path) := by
  rw [render, h]
  show ofFile w path name options = _
  rw [ofFile, exists_of_locate h]

theorem render_of_loads {file : Option Text} (h : Loads w file c) :
    render w name options file = ofConfig w c name options := by
  obtain ⟨path, hlocate, hload⟩ := h
  rw [render_of_locate hlocate, ofLoaded, hload]

end Render

/-- How a template can end that is expanded with options: the first option of another form is
refused, or the template is, or a text is printed. A surrogate in what options contribute, or what
else the output does not take, ends it with an error that nothing reports. -/
inductive Ending (w : World) (template : Text) (options : List Text) : Outcome → Prop
  | misused {option : Text} :
      options.find? (fun option => ¬ Assignment.IsAssignment option) = some option →
      Ending w template options (.misused (.badAssignment ⟨option⟩))
  | failed {fault : ParseError} : (∀ option ∈ options, Assignment.IsAssignment option) →
      Part.parse template = .error fault →
      Ending w template options (.failed (.library (.invalidTemplate template fault)))
  | surrogate {ps : List Part} {t : Text} :
      (∀ option ∈ options, Assignment.IsAssignment option) → parse template = .ok ps →
      (Assignment.writtenTexts ps options).find? (fun t => t.characters? = none) = some t →
      Ending w template options (.escaped (.unencodable t))
  | printed {vars : Bindings Value} {t : Text} : Assignment.values options = .ok vars →
      UriTemplate.expand template vars.get? = .ok t → (line t).all w.writes = true →
      Ending w template options (.printed (line t))
  | unwritten {vars : Bindings Value} {t : Text} : Assignment.values options = .ok vars →
      UriTemplate.expand template vars.get? = .ok t → (line t).all w.writes = false →
      Ending w template options (.escaped (.unencodable (line t)))

theorem ending_of_values {vars : Bindings Value} {template : Text}
    (hall : ∀ option ∈ options, Assignment.IsAssignment option)
    (hvars : Assignment.values options = .ok vars) :
    Ending w template options (w.conclude (UriTemplate.expand template vars.get?)) := by
  cases hresult : UriTemplate.expand template vars.get? with
  | ok t =>
      rw [World.conclude, World.print]
      split
      next hwrites => exact .printed hvars hresult hwrites
      next hwrites => exact .unwritten hvars hresult (Bool.eq_false_iff.2 hwrites)
  | error x =>
      cases hp : Part.parse template with
      | error fault =>
          rw [expand_of_fault hp] at hresult
          obtain rfl := Except.error.inj hresult
          exact .failed hall hp
      | ok ps =>
          have hparse := parse_of_parts hp
          have hgives := Assignment.gives_of_values hvars
          obtain ⟨t, ht, rfl⟩ := (hgives.expand_eq_error_iff hparse).1 hresult
          exact .surrogate hall hparse ht

theorem ending_expand (w : World) (template : Text) (options : List Text) :
    Ending w template options (expand w template options) := by
  cases hfind : options.find? fun option => ¬ Assignment.IsAssignment option with
  | some option =>
      rw [expand_of_malformed (Assignment.values_of_find? hfind)]
      exact .misused hfind
  | none =>
      have hall : ∀ option ∈ options, Assignment.IsAssignment option := by
        simpa using List.find?_eq_none.1 hfind
      obtain ⟨vars, hvars⟩ := Assignment.exists_values hall
      rw [expand_of_values hvars]
      exact ending_of_values hall hvars

/-- Defaults make no difference where an option gives a value to each name that has one. -/
theorem expand_of_gives {vars : Bindings Value} (he : c.templates.get? name = some e)
    (hv : Assignment.Gives options vars.get?)
    (hgiven : ∀ ps, parse e.template = .ok ps → ∀ n ∈ Part.variableNames ps,
      n ∈ c.vars.keys ∨ n ∈ e.vars.keys → ∃ value, n ++ .char '=' :: value ∈ options) :
    c.expand name (.ofBindings vars) = UriTemplate.expand e.template vars.get? := by
  rw [Config.expand_ofBindings he]
  cases hp : parse e.template with
  | error x => rw [UriTemplate.expand, UriTemplate.expand, hp]; rfl
  | ok ps =>
      apply expand_congr hp
      intro n hn
      rw [Lookup.layered_three]
      by_cases hd : n ∈ c.vars.keys ∨ n ∈ e.vars.keys
      · obtain ⟨f, hf, v, hvar, rfl⟩ := Part.mem_variableNames.1 hn
        have hname : Grammar.Name v.name :=
          (((allNormal_of_template (parse_eq_ok_iff.1 hp)).1 _ hf).2 v hvar).1
        have hequals : .char '=' ∉ v.name :=
          Parser.notMem_name hname rfl (by decide) (by decide)
        have hne : v.name ≠ [] := by
          obtain ⟨d, hd, -⟩ := Parser.startsName_of_name hname
          exact List.ne_nil_of_mem (List.mem_of_mem_head? hd)
        obtain ⟨value, hmem⟩ := hgiven ps hp v.name hn hd
        obtain ⟨x, hx⟩ := hv.exists_eq_some hne hequals hmem
        rw [hx, Option.some_or]
      · rw [not_or] at hd
        rw [Bindings.get?_eq_none_iff.2 hd.1, Bindings.get?_eq_none_iff.2 hd.2, Option.or_none,
          Option.or_none]

/-- Under its name and with options for all its names that have defaults, a template ends as it does
when it is given as a text. -/
theorem render_eq_expand (w : World) (he : c.templates.get? name = some e)
    (hgiven : ∀ ps, parse e.template = .ok ps → ∀ n ∈ Part.variableNames ps,
      n ∈ c.vars.keys ∨ n ∈ e.vars.keys → ∃ value, n ++ .char '=' :: value ∈ options) :
    Render.ofConfig w c name options = expand w e.template options ∧
    Ending w e.template options (expand w e.template options) ∧
    ∀ file, Render.Loads w file c →
      render w name options file = expand w e.template options := by
  have hsame : Render.ofConfig w c name options = expand w e.template options := by
    cases hvars : Assignment.values options with
    | error m => rw [Render.ofConfig_of_malformed he hvars, expand_of_malformed hvars]
    | ok vars =>
        rw [Render.ofConfig_of_values he hvars, expand_of_values hvars,
          expand_of_gives he (Assignment.gives_of_values hvars) hgiven]
  exact ⟨hsame, ending_expand w e.template options,
    fun _ hloads => (Render.render_of_loads hloads).trans hsame⟩

/-- The options hide a default, and one of them is not mentioned. -/
theorem render_eq_expand_hidden :
    let w := (FileTree.mk []).world []
    let e : Config.Entry :=
      ⟨Text.of "{x}", .ofList [([.char 'x'], .string [.char 'd'])], none⟩
    let c : Config := ⟨none, .ofList [([.char 'x'], .null)], .ofList [([.char 't'], e)]⟩
    let options := [Text.of "x=o", Text.of "y=1", Text.of "x=p"]
    (∀ ps, parse e.template = .ok ps → ∀ n ∈ Part.variableNames ps,
      n ∈ c.vars.keys ∨ n ∈ e.vars.keys → ∃ value, n ++ .char '=' :: value ∈ options) ∧
    Render.ofConfig w c [.char 't'] options = expand w e.template options ∧
    expand w e.template options = .printed (Text.of "o,p\n") := by
  intro w e c options
  have hp : parse e.template = .ok [.expression ⟨.simple, [⟨[.char 'x'], none, false⟩]⟩] :=
    parse_letter rfl
  have hgiven : ∀ ps, parse e.template = .ok ps → ∀ n ∈ Part.variableNames ps,
      n ∈ c.vars.keys ∨ n ∈ e.vars.keys → ∃ value, n ++ .char '=' :: value ∈ options := by
    intro ps hps n hn _
    obtain rfl := Except.ok.inj (hp.symm.trans hps)
    obtain rfl := List.mem_singleton.1 hn
    exact ⟨[.char 'o'], .head _⟩
  have hvalues : Assignment.values options =
      .ok (.ofList [([.char 'x'], .list [.string [.char 'o'], .string [.char 'p']]),
        ([.char 'y'], .string [.char '1'])]) := rfl
  refine ⟨hgiven, (render_eq_expand w rfl hgiven).1, ?_⟩
  rw [expand_of_values hvalues, expand_of_parse hp]
  rfl

/-- A surrogate in an option is neither refused nor reported nor printed, in neither command. -/
theorem render_surrogate_escapes :
    let w := (FileTree.mk []).world []
    let e : Config.Entry := ⟨Text.of "{x}", .empty, none⟩
    let c : Config := ⟨none, .empty, .ofList [([.char 't'], e)]⟩
    let options := [[.char 'x', .char '=', .surrogate 0x4ff]]
    Render.ofConfig w c [.char 't'] options = .escaped (.unencodable [.surrogate 0x4ff]) ∧
    expand w e.template options = .escaped (.unencodable [.surrogate 0x4ff]) ∧
    ¬ ((∃ m, expand w e.template options = .misused m) ∨
      (∃ f, expand w e.template options = .failed f) ∨
      ∃ t, expand w e.template options = .printed t) := by
  intro w e c options
  have hp : parse e.template = .ok [.expression ⟨.simple, [⟨[.char 'x'], none, false⟩]⟩] :=
    parse_letter rfl
  have hvalues : Assignment.values options =
      .ok (.ofList [([.char 'x'], .string [.surrogate 0x4ff])]) := rfl
  have hexpand : expand w e.template options = .escaped (.unencodable [.surrogate 0x4ff]) := by
    rw [expand_of_values hvalues, expand_of_parse hp]
    rfl
  have hrender : Render.ofConfig w c [.char 't'] options =
      .escaped (.unencodable [.surrogate 0x4ff]) := by
    rw [Render.ofConfig_of_values rfl hvalues, Config.expand_ofBindings rfl, expand_of_parse hp]
    rfl
  refine ⟨hrender, hexpand, ?_⟩
  rw [hexpand]
  rintro (⟨m, h⟩ | ⟨f, h⟩ | ⟨t, h⟩) <;> contradiction

end Command

end UriTemplate
