import UriTemplate.Config.Heap
import UriTemplate.Proofs.Keys
import UriTemplate.Proofs.Rendering
import UriTemplate.Proofs.Statelessness

namespace UriTemplate

/-- The first layer that binds a name counts, even if it binds it to `null`. -/
def Lookup.layered (layers : List Lookup) : Lookup := fun n => layers.findSome? fun l => l n

def Lookup.withoutNull (l : Lookup) : Lookup := fun n => (l n).filter fun x => !x.isNull

theorem Lookup.layered_three (a b c : Lookup) (n : Text) :
    layered [a, b, c] n = (a n).or ((b n).or (c n)) := by
  cases ha : a n <;> cases hb : b n <;> cases hc : c n <;> simp [layered, ha, hb, hc]

theorem Lookup.gist_withoutNull (l : Lookup) (n : Text) : l.withoutNull.gist n = l.gist n := by
  rw [gist, gist, withoutNull]
  cases l n with
  | none => rfl
  | some x => cases x <;> rfl

theorem expand_withoutNull (template : Text) (vars : Lookup) :
    expand template vars.withoutNull = expand template vars := by
  rw [expand, expand]
  apply congrArg
  funext ps
  exact Expansion.render_congr_gist fun n _ => vars.gist_withoutNull n

namespace Dict

theorem ofBindings_insert (m : Bindings Value) (n : Text) (v : Value) :
    ofBindings (m.insert n v) = insert Value.sameKey (.string n) v (ofBindings m) := by
  rcases m with ⟨xs, hd⟩
  show (Bindings.put n v xs).map _ = insert _ _ _ (xs.map _)
  clear hd
  induction xs with
  | nil => rfl
  | cons x xs ih =>
      rcases x with ⟨k, w⟩
      by_cases hk : k = n
      · subst hk
        simp [Bindings.put, insert, Value.sameKey_string_iff]
      · have hs : ¬ Value.sameKey (.string k) (.string n) = true := by
          rw [Value.sameKey_string_iff, Value.string_inj]
          exact Ne.symm hk
        simp only [Bindings.put, if_neg hk, List.map_cons, insert, if_neg hs, ih]

theorem ofBindings_merge (m newer : Bindings Value) :
    ofBindings (m.merge newer) = (ofBindings m).merge (ofBindings newer) := by
  rw [Bindings.merge, merge, ofBindings.eq_1 newer]
  generalize newer.entries = xs
  induction xs generalizing m with
  | nil => rfl
  | cons x xs ih => rw [List.foldl_cons, ih, List.map_cons, List.foldl_cons, ofBindings_insert]

end Dict

namespace Config

variable {c : Config} {h : Heap} {name : Text} {overrides : Dict}

theorem entry_of_get? {e : Entry} (he : c.templates.get? name = some e) : c.entry name = .ok e := by
  rw [entry, he]

theorem entry_eq_error_iff {x : Error} :
    c.entry name = .error x ↔ name ∉ c.templates.keys ∧ x = .unknownTemplate name := by
  rw [entry, ← Bindings.get?_eq_none_iff]
  cases c.templates.get? name with
  | none => simp [eq_comm]
  | some e => simp

theorem resolve_eq_error_iff {x : Error} :
    c.resolve name overrides = .error x ↔ name ∉ c.templates.keys ∧ x = .unknownTemplate name := by
  rw [resolve, Outcome.map_eq_error_iff, entry_eq_error_iff]

/-- Overrides are looked at first and the defaults of all templates last. -/
theorem expand_of_get? {e : Entry} (he : c.templates.get? name = some e) (overrides : Dict) :
    c.expand name overrides =
      UriTemplate.expand e.template (.layered [overrides.get?, e.vars.get?, c.vars.get?]) := by
  have hlookup : ((Dict.ofBindings (c.vars.merge e.vars)).merge overrides).get? =
      Lookup.layered [overrides.get?, e.vars.get?, c.vars.get?] := by
    funext n
    rw [((Dict.shows_ofBindings _).merge overrides).get?_eq, Bindings.get?_merge,
      Lookup.layered_three]
  rw [← hlookup, expand, resolve, entry_of_get? he]
  rfl

namespace Heap

theorem dict_layer (h : Heap) (name : Text) (overrides : Dict) :
    (h.layer name overrides).2.dict (h.layer name overrides).1 =
      ((h.dict .vars).merge (h.dict (.entryVars name))).merge overrides := by
  simp [layer, copy, update, put]

theorem layer_frame (h : Heap) (name : Text) (overrides : Dict) {a : Address}
    (ha : ∀ n, a ≠ .made n) : (h.layer name overrides).2.dict a = h.dict a := by
  simp [layer, copy, update, put, ha]

def Keeps (h : Heap) (c : Config) : Prop :=
  ∀ a, (∀ n, a ≠ .made n) → h.dict a = (ofConfig c).dict a

theorem keeps_after (hk : h.Keeps c) (call : Call) : (h.after c call).Keeps c := by
  intro a ha
  cases call with
  | template => exact hk a ha
  | resolve name overrides | expand name overrides =>
      rw [after, resolve]
      cases c.entry name with
      | error => exact hk a ha
      | ok e => exact (h.layer_frame name overrides ha).trans (hk a ha)

theorem keeps_foldl_after (hk : h.Keeps c) (calls : List Call) :
    (calls.foldl (after c) h).Keeps c := by
  induction calls generalizing h with
  | nil => exact hk
  | cons call calls ih => exact ih (keeps_after hk call)

theorem dict_layer_of_keeps (hk : h.Keeps c) {e : Entry} (he : c.templates.get? name = some e)
    (overrides : Dict) :
    (h.layer name overrides).2.dict (h.layer name overrides).1 =
      (Dict.ofBindings (c.vars.merge e.vars)).merge overrides := by
  have hentry : (ofConfig c).dict (.entryVars name) = .ofBindings e.vars := by simp [ofConfig, he]
  rw [dict_layer, hk .vars nofun, hk (.entryVars name) nofun, hentry, Dict.ofBindings_merge]
  rfl

theorem resolve_of_keeps (hk : h.Keeps c) :
    (h.resolve c name overrides).map (fun x => x.2.dict x.1) = c.resolve name overrides := by
  rw [resolve, Config.resolve, entry]
  cases he : c.templates.get? name with
  | none => rfl
  | some e => exact congrArg Except.ok (dict_layer_of_keeps hk he overrides)

theorem expand_of_keeps (hk : h.Keeps c) :
    h.expand c name overrides = c.expand name overrides := by
  rw [expand, Config.expand, resolve, Config.resolve, entry]
  cases he : c.templates.get? name with
  | none => rfl
  | some e =>
      exact congrArg (fun d => UriTemplate.expand e.template d.get?)
        (dict_layer_of_keeps hk he overrides)

end Heap

theorem perform_expand (template : Text) (vars extra : Bindings Value) :
    (Session.perform (.ofText (some template)) (.expand vars extra)).2.answer =
      (UriTemplate.expand template (Template.lookup vars extra)).map .expanded := by
  have h := (Session.perform_faithful (Session.faithful_ofText (some template))
    (.expand vars extra)).2.2
  rw [h, Session.answerFor, Template.ofText, Session.partsOf, UriTemplate.expand]
  cases parse template with
  | error e => rfl
  | ok ps => exact Outcome.bind_ok _ _

theorem perform_of_get? {e : Entry} (he : c.templates.get? name = some e) (b : Bindings Value) :
    (Session.perform (.ofText (some e.template)) (.expand c.vars (e.vars.merge b))).2.answer =
      (c.expand name (.ofBindings b)).map .expanded := by
  have hlookup : Template.lookup c.vars (e.vars.merge b) =
      Lookup.layered [(Dict.ofBindings b).get?, e.vars.get?, c.vars.get?] := by
    funext n
    rw [Template.lookup, Bindings.get?_merge, Bindings.get?_merge, Lookup.layered_three,
      (Dict.shows_ofBindings b).get?_eq, Option.or_assoc]
  rw [perform_expand, expand_of_get? he, hlookup]

/-- Defaults that a higher layer hides do not matter. -/
theorem expand_eq_of_hidden {c' : Config} {e e' : Entry} (he : c.templates.get? name = some e)
    (he' : c'.templates.get? name = some e') (ht : e'.template = e.template)
    (hentry : ∀ n, overrides.get? n = none → e'.vars.get? n = e.vars.get? n)
    (hall : ∀ n, overrides.get? n = none → e.vars.get? n = none →
      c'.vars.get? n = c.vars.get? n) :
    c'.expand name overrides = c.expand name overrides := by
  rw [expand_of_get? he, expand_of_get? he', ht]
  apply congrArg
  funext n
  rw [Lookup.layered_three, Lookup.layered_three]
  cases ho : overrides.get? n with
  | some v => rfl
  | none =>
      rw [hentry n ho]
      cases hv : e.vars.get? n with
      | some v => rfl
      | none => rw [hall n ho hv]

/-- A configured template expands by layers, whichever calls came before: none of them changes what
a later one finds. Only a name without a template fails to be resolved. A `null` hides what lower
layers bind, and a default that a higher layer binds too never counts. -/
theorem expand_layers (c : Config) (earlier : List Call) (name : Text) (overrides : Dict) :
    let h := earlier.foldl (Heap.after c) (Heap.ofConfig c)
    (h.resolve c name overrides).map (fun x => x.2.dict x.1) = c.resolve name overrides ∧
    h.expand c name overrides = c.expand name overrides ∧
    (∀ x, c.entry name = .error x ↔ name ∉ c.templates.keys ∧ x = .unknownTemplate name) ∧
    (∀ x, c.resolve name overrides = .error x ↔
      name ∉ c.templates.keys ∧ x = .unknownTemplate name) ∧
    ∀ e, c.templates.get? name = some e →
      let vars := Lookup.layered [overrides.get?, e.vars.get?, c.vars.get?]
      c.entry name = .ok e ∧
      c.expand name overrides = UriTemplate.expand e.template vars ∧
      c.expand name overrides = UriTemplate.expand e.template vars.withoutNull ∧
      (∀ b, overrides = .ofBindings b →
        (Session.perform (.ofText (some e.template)) (.expand c.vars (e.vars.merge b))).2.answer =
          (c.expand name overrides).map .expanded) ∧
      ∀ (c' : Config) (e' : Entry), c'.templates.get? name = some e' →
        e'.template = e.template →
        (∀ n, overrides.get? n = none → e'.vars.get? n = e.vars.get? n) →
        (∀ n, overrides.get? n = none → e.vars.get? n = none →
          c'.vars.get? n = c.vars.get? n) →
        c'.expand name overrides = c.expand name overrides := by
  intro h
  have hk : h.Keeps c := Heap.keeps_foldl_after (fun _ _ => rfl) earlier
  refine ⟨Heap.resolve_of_keeps hk, Heap.expand_of_keeps hk, fun x => entry_eq_error_iff,
    fun x => resolve_eq_error_iff, fun e he => ?_⟩
  intro vars
  have hexpand : c.expand name overrides = UriTemplate.expand e.template vars :=
    expand_of_get? he overrides
  refine ⟨entry_of_get? he, hexpand, ?_, ?_, fun c' e' => expand_eq_of_hidden he⟩
  · rw [hexpand, expand_withoutNull]
  · rintro b rfl
    exact perform_of_get? he b

/-- The override of the first call is gone in the second, where the template's `null` hides the
default of all templates. -/
theorem expand_layers_null :
    let e : Entry := ⟨Text.of "{x}", .ofList [([.char 'x'], .null)], none⟩
    let c : Config :=
      ⟨none, .ofList [([.char 'x'], .string [.char 'g'])], .ofList [([.char 't'], e)]⟩
    let overrides := Dict.ofBindings (.ofList [([.char 'x'], .string [.char 'o'])])
    let h := (Heap.ofConfig c).after c (.expand [.char 't'] overrides)
    c.expand [.char 't'] overrides = .ok [.char 'o'] ∧ h.expand c [.char 't'] [] = .ok [] := by
  intro e c overrides h
  have hp : parse (Text.of "{x}") = .ok [.expression ⟨.simple, [⟨[.char 'x'], none, false⟩]⟩] :=
    parse_letter rfl
  have he : c.templates.get? [.char 't'] = some e := rfl
  have ho : overrides.get? = Bindings.get? _ := funext (Dict.shows_ofBindings _).get?_eq
  constructor
  · rw [((expand_layers c [] [.char 't'] overrides).2.2.2.2 e he).2.1, UriTemplate.expand, hp, ho]
    rfl
  · have hl := expand_layers c [.expand [.char 't'] overrides] [.char 't'] []
    refine hl.2.1.trans ?_
    rw [(hl.2.2.2.2 e he).2.2.1, UriTemplate.expand, hp]
    rfl

end Config

end UriTemplate
