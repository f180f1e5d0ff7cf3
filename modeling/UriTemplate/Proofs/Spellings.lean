import Mathlib.Data.List.Forall2
import UriTemplate.Config
import UriTemplate.Proofs.Violations

namespace UriTemplate

namespace Bindings

variable {α : Type}

theorem put_of_notMem {name : Text} {xs : List (Text × α)} (h : name ∉ xs.map Prod.fst) (a : α) :
    put name a xs = xs ++ [(name, a)] := by
  induction xs with
  | nil => rfl
  | cons x xs ih =>
      rw [List.map_cons, List.mem_cons, not_or] at h
      rw [put, if_neg (Ne.symm h.1), ih h.2, List.cons_append]

/-- Entries for new names are added in their order. -/
theorem entries_foldl_insert (m : Bindings α) {xs : List (Text × α)}
    (h : ((m.entries ++ xs).map Prod.fst).Nodup) :
    (xs.foldl (fun m x => m.insert x.1 x.2) m).entries = m.entries ++ xs := by
  induction xs generalizing m with
  | nil => exact (List.append_nil _).symm
  | cons x xs ih =>
      have hx : x.1 ∉ m.entries.map Prod.fst := by
        rw [List.map_append, List.nodup_append] at h
        intro hmem
        exact h.2.2 x.1 hmem x.1 List.mem_cons_self rfl
      have hinsert : (m.insert x.1 x.2).entries = m.entries ++ [x] := put_of_notMem hx x.2
      rw [List.append_cons, ← hinsert] at h ⊢
      exact ih _ h

theorem entries_injective : Function.Injective (entries : Bindings α → List (Text × α)) := by
  rintro ⟨xs, _⟩ ⟨ys, _⟩ h
  obtain rfl : xs = ys := h
  rfl

theorem ofList_entries (m : Bindings α) : ofList m.entries = m :=
  entries_injective (entries_foldl_insert empty m.distinct)

end Bindings

namespace Dict

theorem get?_append (d d' : Dict) (n : Text) :
    get? (d ++ d') n = (get? d' n).or (get? d n) := by
  rw [get?, get?, get?, List.reverse_append, List.find?_append, Option.map_or]

theorem get?_append_cons (before after : Dict) (m : Text) (v : Value) (n : Text) :
    get? (before ++ (.string m, v) :: after) n =
      ((after.get? n).or (if n = m then some v else none)).or (before.get? n) := by
  rw [get?_append, get?_cons_string]

theorem get?_singleton (m : Text) (v : Value) (n : Text) :
    get? [(.string m, v)] n = if n = m then some v else none :=
  get?_cons_string m v [] n

end Dict

namespace Config

variable {α : Type}

namespace Check

theorem items_map {value : Value → Checked α} {write : α → Value}
    (h : ∀ a, value (write a) = .ok a) (xs : List (Text × α)) :
    items value (xs.map fun x => (.string x.1, write x.2)) = .ok xs := by
  induction xs with
  | nil => rfl
  | cons x xs ih =>
      rw [List.map_cons, items, ih, item, h]
      rfl

theorem bindings_dictionary {value : Value → Checked α} {write : α → Value}
    (h : ∀ a, value (write a) = .ok a) (m : Bindings α) :
    bindings value (dictionary write m) = .ok m := by
  rw [dictionary, bindings, items_map h, Except.map, Bindings.ofList_entries]

theorem optionalText_optional (t : Option Text) : optionalText (optional t) = .ok t := by
  cases t <;> rfl

theorem field_of_get? {name : String} {absent : Checked α} {value : Value → Checked α}
    {fields : Dict} {v : Value} {a : α} (h : fields.get? (Text.of name) = some v)
    (hv : value v = .ok a) : field name absent value fields = .ok a := by
  rw [field, h]
  show Checked.within _ (value v) = _
  rw [hv]
  rfl

theorem entry_dump (e : Entry) : entry e.dump = .ok e := by
  let m : Bindings Value := ⟨[(Text.of "template", .string e.template),
    (Text.of "vars", dictionary id e.vars), (Text.of "description", optional e.description)],
    by simp [Text.of, Text.ofChars]⟩
  have hget := (Dict.shows_ofBindings m).get?_eq
  have htemplate : field "template" (Checked.reject .missing) text (.ofBindings m) =
      .ok e.template := field_of_get? (hget _) rfl
  have hvars : field "vars" (.ok .empty) (bindings any) (.ofBindings m) = .ok e.vars :=
    field_of_get? (hget _) (bindings_dictionary (fun _ => rfl) e.vars)
  have hdescription : field "description" (.ok none) optionalText (.ofBindings m) =
      .ok e.description := field_of_get? (hget _) (optionalText_optional e.description)
  show entry (.dict (Dict.ofBindings m)) = .ok e
  rw [entry, htemplate, hvars, hdescription]
  rfl

theorem config_dump (c : Config) : config c.dump = .ok c := by
  let m : Bindings Value := ⟨[(Text.of "name", optional c.name),
    (Text.of "vars", dictionary id c.vars),
    (Text.of "templates", dictionary Entry.dump c.templates)],
    by simp [Text.of, Text.ofChars]⟩
  have hget := (Dict.shows_ofBindings m).get?_eq
  have hname : field "name" (.ok none) optionalText (.ofBindings m) = .ok c.name :=
    field_of_get? (hget _) (optionalText_optional c.name)
  have hvars : field "vars" (.ok .empty) (bindings any) (.ofBindings m) = .ok c.vars :=
    field_of_get? (hget _) (bindings_dictionary (fun _ => rfl) c.vars)
  have htemplates : field "templates" (.ok .empty) (bindings entry) (.ofBindings m) =
      .ok c.templates := field_of_get? (hget _) (bindings_dictionary entry_dump c.templates)
  show config (.dict (Dict.ofBindings m)) = .ok c
  rw [config, hname, hvars, htemplates]
  rfl

end Check

def fullForm (t : Text) : Value := .dict [(.string (Text.of "template"), .string t)]

inductive Rewritten : Value → Value → Prop
  | same (v : Value) : Rewritten v v
  | lengthened (t : Text) : Rewritten (.string t) (fullForm t)
  | shortened (t : Text) : Rewritten (fullForm t) (.string t)

inductive Respelled : Value → Value → Prop
  | mk {before after xs ys : Dict} :
      List.Forall₂ (fun x y => x.1 = y.1 ∧ Rewritten x.2 y.2) xs ys →
      Respelled (.dict (before ++ (.string (Text.of "templates"), .dict xs) :: after))
        (.dict (before ++ (.string (Text.of "templates"), .dict ys) :: after))

namespace Check

theorem entry_fullForm (t : Text) : entry (fullForm t) = entry (.string t) := by
  rw [fullForm, entry]
  simp only [field, Dict.get?_singleton]
  rfl

theorem entry_of_rewritten {v w : Value} (h : Rewritten v w) : entry w = entry v := by
  cases h with
  | same => rfl
  | lengthened t => exact entry_fullForm t
  | shortened t => exact (entry_fullForm t).symm

theorem items_of_rewritten {xs ys : Dict}
    (h : List.Forall₂ (fun x y => x.1 = y.1 ∧ Rewritten x.2 y.2) xs ys) :
    items entry ys = items entry xs := by
  induction h with
  | nil => rfl
  | @cons x y xs ys hxy _ ih =>
      obtain ⟨hkey, hvalue⟩ := hxy
      rw [items, items, item, item, hkey, entry_of_rewritten hvalue, ih]

theorem field_congr {name : String} {absent : Checked α} {value : Value → Checked α}
    {fields others : Dict}
    (h : (others.get? (Text.of name)).map value = (fields.get? (Text.of name)).map value) :
    field name absent value others = field name absent value fields := by
  have hfield (fields : Dict) : field name absent value fields =
      .within (.name (Text.of name)) (((fields.get? (Text.of name)).map value).getD absent) := by
    rw [field]
    cases fields.get? (Text.of name) <;> rfl
  rw [hfield, hfield, h]

theorem config_of_respelled {v w : Value} (h : Respelled v w) : config w = config v := by
  obtain @⟨before, after, xs, ys, hxs⟩ := h
  have hother {n : Text} (hn : n ≠ Text.of "templates") :
      Dict.get? (before ++ (.string (Text.of "templates"), .dict ys) :: after) n =
        Dict.get? (before ++ (.string (Text.of "templates"), .dict xs) :: after) n := by
    rw [Dict.get?_append_cons, Dict.get?_append_cons, if_neg hn, if_neg hn]
  have htemplates :
      (Dict.get? (before ++ (.string (Text.of "templates"), .dict ys) :: after)
        (Text.of "templates")).map (bindings entry) =
      (Dict.get? (before ++ (.string (Text.of "templates"), .dict xs) :: after)
        (Text.of "templates")).map (bindings entry) := by
    rw [Dict.get?_append_cons, Dict.get?_append_cons, if_pos rfl, if_pos rfl]
    cases after.get? (Text.of "templates") with
    | some v => rfl
    | none =>
        have hbindings : bindings entry (.dict ys) = bindings entry (.dict xs) := by
          rw [bindings, bindings, items_of_rewritten hxs]
        exact congrArg some hbindings
  have hname := congrArg (Option.map optionalText) (@hother (Text.of "name") (by decide))
  have hvars := congrArg (Option.map (bindings any)) (@hother (Text.of "vars") (by decide))
  rw [config, config, field_congr hname, field_congr hvars, field_congr htemplates]

/-- A configuration is read back from its dump. A value is accepted or refused alike, and with the
same faults, however each of its templates is written. -/
theorem config_normalizes :
    (∀ v c, config v = .ok c → config c.dump = .ok c) ∧
    ∀ v w, Respelled v w → config w = config v :=
  ⟨fun _ c _ => config_dump c, fun _ _ => config_of_respelled⟩

/-- One template is written out and another cut short, and the key that is at fault stays so. -/
theorem config_normalizes_mixed :
    let templates (x y : Value) : Value := .dict [(.string (Text.of "templates"),
      .dict [(.string [.char 'a'], x), (.integer 5, y)])]
    let v := templates (.string (Text.of "{x}")) (fullForm [.char 'y'])
    let w := templates (fullForm (Text.of "{x}")) (.string [.char 'y'])
    let u : Value := .dict [(.string (Text.of "templates"),
      .dict [(.string [.char 'a'], .string (Text.of "{x}"))])]
    let c : Config := ⟨none, .empty, .ofList [([.char 'a'], ⟨Text.of "{x}", .empty, none⟩)]⟩
    Respelled v w ∧ config w = config v ∧
      config v = .error
        [⟨[.name (Text.of "templates"), .number 5, .name (Text.of "[key]")], .notText⟩] ∧
      config u = .ok c ∧ config c.dump = .ok c := by
  intro templates v w u c
  have hrespelled : Respelled v w :=
    @Respelled.mk [] [] _ _ (.cons ⟨rfl, .lengthened _⟩ (.cons ⟨rfl, .shortened _⟩ .nil))
  have hitems : items entry
      [(.string [.char 'a'], .string (Text.of "{x}")), (.integer 5, fullForm [.char 'y'])] =
      .error [⟨[.number 5, .name (Text.of "[key]")], .notText⟩] := by
    rw [items, items, item, item, entry_fullForm]
    rfl
  have hv : config v =
      .error [⟨[.name (Text.of "templates"), .number 5, .name (Text.of "[key]")], .notText⟩] := by
    simp only [v, templates, config, field, Dict.get?_singleton, ↓reduceIte, bindings, hitems]
    rfl
  have hu : config u = .ok c := by
    simp only [u, config, field, Dict.get?_singleton]
    rfl
  exact ⟨hrespelled, config_normalizes.2 v w hrespelled, hv, hu, config_normalizes.1 u c hu⟩

end Check

end Config

end UriTemplate
