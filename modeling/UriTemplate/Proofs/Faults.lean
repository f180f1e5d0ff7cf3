import UriTemplate.Config.Conditions
import UriTemplate.Proofs.Decoding

namespace UriTemplate

theorem Percent.isSome_ofOctets?_iff {bs : List UInt8} :
    (ofOctets? bs).isSome ↔ ∃ cs : List Char, bs = cs.flatMap String.utf8EncodeChar := by
  constructor
  · intro h
    have hvalid : (ByteArray.mk bs.toArray).IsValidUTF8 := by
      rw [← ByteArray.isSome_utf8Decode?_iff]
      rwa [ofOctets?, Option.isSome_map] at h
    obtain ⟨cs, hcs⟩ := hvalid
    have hdata := congrArg (fun b => b.data.toList) hcs
    exact ⟨cs, by simpa [List.utf8Encode] using hdata⟩
  · rintro ⟨cs, rfl⟩
    rw [ofOctets?_flatMap_utf8EncodeChar]
    rfl

namespace Config

open Checked

variable {α β γ : Type} {ps qs : List Problem}

namespace Checked

def Reports (r : Checked α) : List Problem → Prop
  | [] => ∃ a, r = .ok a
  | p :: ps => r = .error (p :: ps)

theorem Reports.ok_iff {r : Checked α} (h : Reports r ps) : (∃ a, r = .ok a) ↔ ps = [] := by
  cases ps with
  | nil => exact iff_of_true h rfl
  | cons p ps =>
      obtain rfl : r = .error (p :: ps) := h
      simp

theorem Reports.error_iff {r : Checked α} (h : Reports r ps) (qs : List Problem) :
    r = .error qs ↔ qs ≠ [] ∧ ps = qs := by
  cases ps with
  | nil =>
      obtain ⟨a, rfl⟩ := h
      simp [eq_comm]
  | cons p ps =>
      obtain rfl : r = .error (p :: ps) := h
      constructor
      · intro hr
        obtain rfl := Except.error.inj hr
        exact ⟨List.cons_ne_nil p ps, rfl⟩
      · rintro ⟨-, rfl⟩
        rfl

def problems : Checked α → List Problem
  | .ok _ => []
  | .error ps => ps

theorem Reports.problems_eq {r : Checked α} (h : Reports r ps) : r.problems = ps := by
  cases ps with
  | nil =>
      obtain ⟨a, rfl⟩ := h
      rfl
  | cons p ps =>
      obtain rfl : r = .error (p :: ps) := h
      rfl

theorem Reports.map {r : Checked α} (h : Reports r ps) (f : α → β) : Reports (r.map f) ps := by
  cases ps with
  | nil =>
      obtain ⟨a, rfl⟩ := h
      exact ⟨f a, rfl⟩
  | cons p ps =>
      obtain rfl : r = .error (p :: ps) := h
      rfl

theorem Reports.both {r : Checked α} {s : Checked β} (hr : Reports r ps) (hs : Reports s qs)
    (f : α → β → γ) : Reports (both f r s) (ps ++ qs) := by
  cases ps with
  | nil =>
      obtain ⟨a, rfl⟩ := hr
      cases qs with
      | nil =>
          obtain ⟨b, rfl⟩ := hs
          exact ⟨f a b, rfl⟩
      | cons q qs =>
          obtain rfl : s = .error (q :: qs) := hs
          rfl
  | cons p ps =>
      obtain rfl : r = .error (p :: ps) := hr
      cases qs with
      | nil =>
          obtain ⟨b, rfl⟩ := hs
          rw [List.append_nil]
          rfl
      | cons q qs =>
          obtain rfl : s = .error (q :: qs) := hs
          rfl

/-- Puts a whole path of places in front of the locations. The check puts one place at a time, from
the inside out, and the faults carry the path along from the outside in. -/
def below (place : List Place) (r : Checked α) : Checked α := place.foldr within r

theorem below_concat (place : List Place) (p : Place) (r : Checked α) :
    below (place ++ [p]) r = below place (within p r) := by
  rw [below, List.foldr_append]
  rfl

theorem below_ok (place : List Place) (a : α) : below place (.ok a) = .ok a := by
  induction place with
  | nil => rfl
  | cons p place ih => exact congrArg (within p) ih

theorem below_reject (place : List Place) (complaint : Complaint) :
    below place (reject complaint : Checked α) = .error [⟨place, complaint⟩] := by
  induction place with
  | nil => rfl
  | cons p place ih => exact congrArg (within p) ih

theorem below_map (place : List Place) (f : α → β) (r : Checked α) :
    below place (r.map f) = (below place r).map f := by
  induction place with
  | nil => rfl
  | cons p place ih =>
      refine (congrArg (within p) ih).trans ?_
      show within p ((below place r).map f) = (within p (below place r)).map f
      cases below place r <;> rfl

theorem below_both (place : List Place) (f : α → β → γ) (r : Checked α) (s : Checked β) :
    below place (both f r s) = both f (below place r) (below place s) := by
  induction place with
  | nil => rfl
  | cons p place ih =>
      refine (congrArg (within p) ih).trans ?_
      show within p (both f (below place r) (below place s)) =
        both f (within p (below place r)) (within p (below place s))
      cases below place r <;> cases below place s <;> simp [within, both]

end Checked

namespace Check

def Finds (value : Value → Checked α) (faults : List Place → Value → List Problem) : Prop :=
  ∀ place v, Reports (below place (value v)) (faults place v)

theorem reports_ofOctets (place : List Place) (bs : List UInt8) :
    Reports (below place (ofOctets bs))
      (if (Percent.ofOctets? bs).isSome then [] else [⟨place, .notUnicode⟩]) := by
  rw [ofOctets]
  cases Percent.ofOctets? bs with
  | none => exact below_reject place .notUnicode
  | some t => exact ⟨t, below_ok place t⟩

theorem finds_text : Finds text Faults.text := by
  intro place v
  cases v with
  | scalar s =>
      cases s with
      | string t => exact ⟨t, below_ok place t⟩
      | _ => exact below_reject place .notText
  | bytes bs | byteArray bs => exact reports_ofOctets place bs
  | _ => exact below_reject place .notText

theorem finds_optionalText : Finds optionalText Faults.optionalText := by
  intro place v
  have htext := (finds_text place v).map some
  rw [← below_map] at htext
  cases v with
  | null => exact ⟨none, below_ok place none⟩
  | _ => exact htext

theorem reports_items {value : Value → Checked α} {faults : List Place → Value → List Problem}
    (h : Finds value faults) (place : List Place) (xs : Dict) :
    Reports (below place (items value xs)) (Faults.dictionary place faults (.dict xs)) := by
  induction xs with
  | nil => exact ⟨[], below_ok place []⟩
  | cons x xs ih =>
      have hkey := finds_text (place ++ [.ofKey x.1] ++ [.name (Text.of "[key]")]) x.1
      have hitem := hkey.both (h (place ++ [.ofKey x.1]) x.2) Prod.mk
      rw [below_concat (place ++ _), ← below_both, below_concat, List.append_assoc] at hitem
      rw [items, below_both]
      exact hitem.both ih List.cons

theorem finds_bindings {value : Value → Checked α} {faults : List Place → Value → List Problem}
    (h : Finds value faults) :
    Finds (bindings value) fun place => Faults.dictionary place faults := by
  intro place v
  cases v with
  | dict xs =>
      have hitems := (reports_items h place xs).map Bindings.ofList
      rwa [← below_map] at hitems
  | _ => exact below_reject place .notDictionary

theorem finds_any : Finds any Faults.noFaults :=
  fun place v => ⟨v, below_ok place v⟩

theorem reports_field {absent : Checked α} {value : Value → Checked α}
    {faults : List Place → Value → List Problem} (h : Finds value faults) {place : List Place}
    {name : String} {missing : List Problem}
    (habsent : Reports (below (place ++ [.name (Text.of name)]) absent) missing) (fields : Dict) :
    Reports (below place (field name absent value fields))
      ((if (fields.get? (Text.of name)).isNone then missing else []) ++
        Faults.field place name faults fields) := by
  rw [field, ← below_concat, Faults.field]
  cases fields.get? (Text.of name) with
  | none =>
      show Reports _ (missing ++ [])
      rwa [List.append_nil]
  | some v => exact h _ v

theorem reports_optional {value : Value → Checked α} {faults : List Place → Value → List Problem}
    (h : Finds value faults) (a : α) (place : List Place) (name : String) (fields : Dict) :
    Reports (below place (field name (.ok a) value fields))
      (Faults.field place name faults fields) := by
  have habsent : Reports (below (place ++ [.name (Text.of name)]) (.ok a)) [] := ⟨a, below_ok _ a⟩
  have hfield := reports_field h habsent fields
  rwa [ite_self, List.nil_append] at hfield

theorem finds_entry : Finds entry Faults.entry := by
  intro place v
  cases v with
  | scalar s =>
      cases s with
      | string t => exact ⟨_, below_ok place _⟩
      | _ => exact below_reject place .notEntry
  | dict fields =>
      have hmissing : Reports
          (below (place ++ [.name (Text.of "template")]) (reject .missing : Checked Text))
          [⟨place ++ [.name (Text.of "template")], .missing⟩] := below_reject _ .missing
      have htemplate := reports_field finds_text hmissing fields
      have hvars := reports_optional (finds_bindings finds_any) .empty place "vars" fields
      have hdescription := reports_optional finds_optionalText none place "description" fields
      rw [entry, below_both, below_both, Faults.entry, List.append_assoc]
      exact htemplate.both (hvars.both hdescription _) _
  | _ => exact below_reject place .notEntry

theorem reports_config (v : Value) : Reports (config v) (Faults.config v) := by
  cases v with
  | dict fields =>
      have hname := reports_optional finds_optionalText none [] "name" fields
      have hvars := reports_optional (finds_bindings finds_any) .empty [] "vars" fields
      have htemplates := reports_optional (finds_bindings finds_entry) .empty [] "templates" fields
      rw [config, Faults.config, List.append_assoc]
      exact hname.both (hvars.both htemplates _) _
  | _ => rfl

end Check

namespace Faults

variable {keeps : Value → Prop} {faults : List Place → Value → List Problem}

theorem text_eq_nil_iff (place : List Place) (v : Value) : text place v = [] ↔ IsText v := by
  have hoctets (bs : List UInt8) :
      (if (Percent.ofOctets? bs).isSome then [] else [⟨place, .notUnicode⟩] : List Problem) = [] ↔
        ∃ cs : List Char, bs = cs.flatMap String.utf8EncodeChar := by
    rw [← Percent.isSome_ofOctets?_iff]
    cases (Percent.ofOctets? bs).isSome <;> simp
  cases v with
  | scalar s =>
      cases s with
      | string t => exact iff_of_true rfl (.string t)
      | _ => exact iff_of_false (List.cons_ne_nil _ _) nofun
  | bytes bs =>
      refine (hoctets bs).trans ⟨?_, ?_⟩
      · rintro ⟨cs, rfl⟩
        exact .bytes cs
      · rintro ⟨⟩
        exact ⟨_, rfl⟩
  | byteArray bs =>
      refine (hoctets bs).trans ⟨?_, ?_⟩
      · rintro ⟨cs, rfl⟩
        exact .byteArray cs
      · rintro ⟨⟩
        exact ⟨_, rfl⟩
  | _ => exact iff_of_false (List.cons_ne_nil _ _) nofun

theorem optionalText_of_ne_null (place : List Place) {v : Value} (hv : v ≠ .null) :
    optionalText place v = text place v := by
  cases v with
  | null => contradiction
  | _ => rfl

theorem optionalText_eq_nil_iff (place : List Place) (v : Value) :
    optionalText place v = [] ↔ IsOptionalText v := by
  by_cases hv : v = .null
  · subst hv
    exact iff_of_true rfl (.inl rfl)
  · rw [optionalText_of_ne_null place hv, text_eq_nil_iff, IsOptionalText, or_iff_right hv]

theorem dictionary_eq_nil_iff (h : ∀ place v, faults place v = [] ↔ keeps v)
    (place : List Place) (v : Value) :
    dictionary place faults v = [] ↔ IsDictionary keeps v := by
  cases v with
  | dict xs =>
      rw [dictionary, List.flatMap_eq_nil_iff]
      simp only [List.append_eq_nil_iff, text_eq_nil_iff, h]
      exact ⟨.mk, fun ⟨hxs⟩ => hxs⟩
  | _ => exact iff_of_false (List.cons_ne_nil _ _) nofun

theorem bindings_eq_nil_iff (place : List Place) (v : Value) :
    bindings place v = [] ↔ IsDictionary (fun _ => True) v :=
  dictionary_eq_nil_iff (fun _ _ => iff_of_true rfl trivial) place v

theorem field_eq_nil_iff (h : ∀ place v, faults place v = [] ↔ keeps v) (place : List Place)
    (name : String) (fields : Dict) :
    field place name faults fields = [] ↔ IsField fields name keeps := by
  rw [field, IsField]
  cases fields.get? (Text.of name) with
  | none => exact iff_of_true rfl nofun
  | some v => simp [h]

theorem required_eq_nil_iff (place : List Place) (name : String) (fields : Dict) :
    required place name fields = [] ↔ fields.get? (Text.of name) ≠ none := by
  rw [required]
  cases fields.get? (Text.of name) <;> simp

theorem entry_eq_nil_iff (place : List Place) (v : Value) : entry place v = [] ↔ IsEntry v := by
  cases v with
  | scalar s =>
      cases s with
      | string t => exact iff_of_true rfl (.short t)
      | _ => exact iff_of_false (List.cons_ne_nil _ _) nofun
  | dict fields =>
      rw [entry, List.append_eq_nil_iff, List.append_eq_nil_iff, List.append_eq_nil_iff,
        required_eq_nil_iff, field_eq_nil_iff text_eq_nil_iff,
        field_eq_nil_iff bindings_eq_nil_iff, field_eq_nil_iff optionalText_eq_nil_iff]
      constructor
      · rintro ⟨⟨⟨hrequired, htemplate⟩, hvars⟩, hdescription⟩
        exact .full hrequired htemplate hvars hdescription
      · rintro (_ | ⟨hrequired, htemplate, hvars, hdescription⟩)
        exact ⟨⟨⟨hrequired, htemplate⟩, hvars⟩, hdescription⟩
  | _ => exact iff_of_false (List.cons_ne_nil _ _) nofun

theorem config_eq_nil_iff (v : Value) : config v = [] ↔ IsConfig v := by
  cases v with
  | dict fields =>
      rw [config, List.append_eq_nil_iff, List.append_eq_nil_iff,
        field_eq_nil_iff optionalText_eq_nil_iff, field_eq_nil_iff bindings_eq_nil_iff,
        field_eq_nil_iff (dictionary_eq_nil_iff entry_eq_nil_iff)]
      constructor
      · rintro ⟨⟨hname, hvars⟩, htemplates⟩
        exact .mk hname hvars htemplates
      · rintro ⟨hname, hvars, htemplates⟩
        exact ⟨⟨hname, hvars⟩, htemplates⟩
  | _ => exact iff_of_false (List.cons_ne_nil _ _) nofun

end Faults

end Config

end UriTemplate
