import UriTemplate.Proofs.Faults
import UriTemplate.Proofs.Keys

namespace UriTemplate

theorem Dict.get?_cons_string (k : Text) (v : Value) (d : Dict) (n : Text) :
    Dict.get? ((.string k, v) :: d) n = (Dict.get? d n).or (if n = k then some v else none) := by
  have hkey : Value.sameKey (.string n) (.string k) ↔ n = k := by
    rw [Value.sameKey_string_iff, Value.string_inj, eq_comm]
  simp only [Dict.get?_cons, hkey]

namespace Config

variable {ps qs : List Problem} {value : Rule} {faults : List Place → Value → List Problem}

namespace Lists

variable {α : Type} {broken other : List Nat → Problem → Prop}

theorem congr (h : Lists ps broken) (hiff : ∀ p q, broken p q ↔ other p q) : Lists ps other := by
  obtain ⟨marked, hmap, horder, hmem⟩ := h
  exact ⟨marked, hmap, horder, fun p q => (hmem p q).trans (hiff p q)⟩

theorem nil (h : ∀ p q, ¬ broken p q) : Lists [] broken :=
  ⟨[], rfl, .nil, by simpa using h⟩

theorem singleton {q : Problem} (h : ∀ p r, broken p r ↔ p = [] ∧ r = q) : Lists [q] broken :=
  ⟨[([], q)], rfl, List.pairwise_singleton _ _, by simp [h]⟩

theorem append (hp : Lists ps broken) (hq : Lists qs other)
    (hlt : ∀ p q p' q', broken p q → other p' q' → p < p') :
    Lists (ps ++ qs) fun p q => broken p q ∨ other p q := by
  obtain ⟨xs, rfl, hxs, hmx⟩ := hp
  obtain ⟨ys, rfl, hys, hmy⟩ := hq
  refine ⟨xs ++ ys, List.map_append, List.pairwise_append.2 ⟨hxs, hys, ?_⟩, ?_⟩
  · rintro ⟨p, q⟩ hx ⟨p', q'⟩ hy
    exact hlt p q p' q' ((hmx p q).1 hx) ((hmy p' q').1 hy)
  · intro p q
    rw [List.mem_append, hmx, hmy]

theorem under (n : Nat) (h : Lists ps broken) :
    Lists ps fun p q => ∃ p', p = n :: p' ∧ broken p' q := by
  obtain ⟨xs, rfl, hxs, hmx⟩ := h
  refine ⟨xs.map fun x => (n :: x.1, x.2), by rw [List.map_map]; rfl, ?_, ?_⟩
  · rw [List.pairwise_map]
    apply hxs.imp
    intro x y hlt
    exact List.cons_lt_cons_iff.2 (.inr ⟨rfl, hlt⟩)
  · intro p q
    constructor
    · intro hmem
      obtain ⟨⟨p', r⟩, hx, heq⟩ := List.mem_map.1 hmem
      obtain ⟨rfl, rfl⟩ := Prod.mk.inj heq
      exact ⟨p', rfl, (hmx p' r).1 hx⟩
    · rintro ⟨p', rfl, hb⟩
      exact List.mem_map.2 ⟨(p', q), (hmx p' q).2 hb, rfl⟩

/-- Lists one after the other, numbered from `k` on. -/
theorem flatMap {f : α → List Problem} {broken : α → List Nat → Problem → Prop}
    (h : ∀ x, Lists (f x) (broken x)) (xs : List α) (k : Nat) :
    Lists (xs.flatMap f) fun p q =>
      ∃ i x p', xs[i]? = some x ∧ p = (k + i) :: p' ∧ broken x p' q := by
  induction xs generalizing k with
  | nil =>
      apply nil
      rintro p q ⟨i, x, p', hx, -⟩
      contradiction
  | cons x xs ih =>
      -- The head is number `k` and the rest goes on from `k + 1`, so no position meets another.
      have hlt : ∀ p q p' q', (∃ r, p = k :: r ∧ broken x r q) →
          (∃ i y r, xs[i]? = some y ∧ p' = (k + 1 + i) :: r ∧ broken y r q') → p < p' := by
        rintro p q p' q' ⟨r, rfl, -⟩ ⟨i, y, r', -, rfl, -⟩
        exact List.cons_lt_cons_iff.2 (.inl (by omega))
      rw [List.flatMap_cons]
      apply (((h x).under k).append (ih (k + 1)) hlt).congr
      intro p q
      constructor
      · rintro (⟨r, rfl, hb⟩ | ⟨i, y, r, hy, rfl, hb⟩)
        · exact ⟨0, x, r, rfl, rfl, hb⟩
        · exact ⟨i + 1, y, r, hy, by rw [Nat.add_right_comm, Nat.add_assoc], hb⟩
      · rintro ⟨i, y, r, hy, rfl, hb⟩
        cases i with
        | zero =>
            obtain rfl := Option.some.inj hy
            exact .inl ⟨r, rfl, hb⟩
        | succ i => exact .inr ⟨i, y, r, hy, by rw [Nat.add_right_comm, Nat.add_assoc], hb⟩

/-- What is broken determines the list. -/
theorem unique (hp : Lists ps broken) (hq : Lists qs broken) : ps = qs := by
  obtain ⟨xs, rfl, hxs, hmx⟩ := hp
  obtain ⟨ys, rfl, hys, hmy⟩ := hq
  have hnodup {zs : List (List Nat × Problem)} (h : zs.Pairwise fun x y => x.1 < y.1) :
      zs.Nodup := by
    apply h.imp
    rintro x y hlt rfl
    exact List.lt_irrefl _ hlt
  have hperm : xs.Perm ys := by
    rw [List.perm_ext_iff_of_nodup (hnodup hxs) (hnodup hys)]
    rintro ⟨p, q⟩
    rw [hmx, hmy]
  rw [hperm.eq_of_pairwise (fun x y _ _ hlt hgt => absurd hgt (List.lt_asymm hlt)) hxs hys]

theorem eq_nil_iff (h : Lists ps broken) : ps = [] ↔ ∀ p q, ¬ broken p q := by
  obtain ⟨xs, rfl, -, hmx⟩ := h
  rw [List.map_eq_nil_iff, List.eq_nil_iff_forall_not_mem]
  constructor
  · intro hxs p q hb
    exact hxs (p, q) ((hmx p q).2 hb)
  · rintro hb ⟨p, q⟩ hx
    exact hb p q ((hmx p q).1 hx)

end Lists

namespace Rule

def Listed (value : Rule) (faults : List Place → Value → List Problem) : Prop :=
  ∀ place v, Lists (faults place v) (value place v)

theorem lists_octets (place : List Place) {v : Value} {bs : List UInt8}
    (hv : v = .bytes bs ∨ v = .byteArray bs) :
    Lists (if (Percent.ofOctets? bs).isSome then [] else [⟨place, .notUnicode⟩])
      (text place v) := by
  have hbroken (p : List Nat) (q : Problem) : text place v p q ↔
      (∀ cs : List Char, bs ≠ cs.flatMap String.utf8EncodeChar) ∧ p = [] ∧
      q = ⟨place, .notUnicode⟩ := by
    constructor
    · rintro (⟨-, hbytes, harray⟩ | @⟨_, _, bs', hv', hne⟩)
      · exact (hv.elim (hbytes bs) (harray bs)).elim
      · have hbs : bs' = bs := by
          obtain rfl | rfl := hv <;> obtain h | h := hv' <;> cases h <;> rfl
        exact ⟨hbs ▸ hne, rfl, rfl⟩
    · rintro ⟨hne, rfl, rfl⟩
      exact .notUnicode hv hne
  split
  next hbs =>
    apply Lists.nil
    intro p q hb
    obtain ⟨cs, hcs⟩ := Percent.isSome_ofOctets?_iff.1 hbs
    exact ((hbroken p q).1 hb).1 cs hcs
  next hbs =>
    apply Lists.singleton
    intro p q
    rw [hbroken, and_iff_right]
    intro cs hcs
    exact hbs (Percent.isSome_ofOctets?_iff.2 ⟨cs, hcs⟩)

theorem lists_notText (place : List Place) {v : Value} (hstring : ∀ t, v ≠ .string t)
    (hbytes : ∀ bs, v ≠ .bytes bs) (harray : ∀ bs, v ≠ .byteArray bs) :
    Lists [⟨place, .notText⟩] (text place v) := by
  apply Lists.singleton
  intro p q
  constructor
  · rintro (_ | ⟨hv, -⟩)
    · exact ⟨rfl, rfl⟩
    · exact (hv.elim (hbytes _) (harray _)).elim
  · rintro ⟨rfl, rfl⟩
    exact .notText hstring hbytes harray

theorem lists_text : Listed text Faults.text := by
  intro place v
  cases v with
  | scalar s =>
      cases s with
      | string t =>
          apply Lists.nil
          rintro p q (⟨hstring, -, -⟩ | ⟨hv, -⟩)
          · exact hstring t rfl
          · exact hv.elim nofun nofun
      | _ => exact lists_notText place nofun nofun nofun
  | bytes bs => exact lists_octets place (.inl rfl)
  | byteArray bs => exact lists_octets place (.inr rfl)
  | _ => exact lists_notText place nofun nofun nofun

theorem lists_optionalText : Listed optionalText Faults.optionalText := by
  intro place v
  by_cases hv : v = .null
  · subst hv
    exact Lists.nil fun p q hb => hb.1 rfl
  · rw [Faults.optionalText_of_ne_null place hv]
    exact (lists_text place v).congr fun p q => (and_iff_right hv).symm

theorem lists_any : Listed any Faults.noFaults :=
  fun _ _ => Lists.nil fun _ _ => id

/-- The key of an entry, then its value. -/
theorem lists_item (h : Listed value faults) (place : List Place) (x : Value × Value) :
    Lists (Faults.text (place ++ [.ofKey x.1, .name (Text.of "[key]")]) x.1 ++
        faults (place ++ [.ofKey x.1]) x.2) fun p q =>
      (∃ r, p = 0 :: r ∧ text (place ++ [.ofKey x.1, .name (Text.of "[key]")]) x.1 r q) ∨
        ∃ r, p = 1 :: r ∧ value (place ++ [.ofKey x.1]) x.2 r q := by
  apply ((lists_text _ x.1).under 0).append ((h _ x.2).under 1)
  rintro p q p' q' ⟨r, rfl, -⟩ ⟨r', rfl, -⟩
  exact List.cons_lt_cons_iff.2 (.inl Nat.one_pos)

theorem lists_dictionary (h : Listed value faults) :
    Listed (dictionary value) fun place => Faults.dictionary place faults := by
  intro place v
  have hnot (hv : ∀ xs, v ≠ .dict xs) :
      Lists [⟨place, .notDictionary⟩] (dictionary value place v) := by
    apply Lists.singleton
    intro p q
    constructor
    · rintro (_ | _ | _)
      · exact ⟨rfl, rfl⟩
      · exact (hv _ rfl).elim
      · exact (hv _ rfl).elim
    · rintro ⟨rfl, rfl⟩
      exact .notDictionary hv
  cases v with
  | dict xs =>
      apply (Lists.flatMap (lists_item h place) xs 0).congr
      intro p q
      simp only [Nat.zero_add]
      constructor
      · rintro ⟨i, x, _, hx, rfl, ⟨r, rfl, hb⟩ | ⟨r, rfl, hb⟩⟩
        · exact .key hx hb
        · exact .value hx hb
      · rintro (hv | ⟨hx, hb⟩ | ⟨hx, hb⟩)
        · exact (hv xs rfl).elim
        · exact ⟨_, _, _, hx, rfl, .inl ⟨_, rfl, hb⟩⟩
        · exact ⟨_, _, _, hx, rfl, .inr ⟨_, rfl, hb⟩⟩
  | _ => exact hnot nofun

theorem lists_field (h : Listed value faults) (name : String) (rank : Nat) (place : List Place)
    (fields : Dict) :
    Lists (Faults.field place name faults fields) (field name rank value place fields) := by
  rw [Faults.field]
  cases hget : fields.get? (Text.of name) with
  | none =>
      apply Lists.nil
      rintro p q ⟨hv, -⟩
      rw [hget] at hv
      contradiction
  | some v =>
      have hv := h (place ++ [.name (Text.of name)]) v
      refine Lists.congr (hv.under rank) fun p q => ?_
      constructor
      · rintro ⟨r, rfl, hb⟩
        exact .mk hget hb
      · rintro ⟨hv, hb⟩
        rw [hget] at hv
        obtain rfl := Option.some.inj hv
        exact ⟨_, rfl, hb⟩

theorem cons_lt_of_field {place : List Place} {fields : Dict} {name : String} {m rank : Nat}
    {p p' : List Nat} {q : Problem} (h : field name rank value place fields p q) (hlt : m < rank) :
    m :: p' < p := by
  obtain ⟨-, -⟩ := h
  exact List.cons_lt_cons_iff.2 (.inl hlt)

theorem lists_required (place : List Place) (fields : Dict) :
    Lists (Faults.required place "template" fields) fun p q =>
      fields.get? (Text.of "template") = none ∧ p = [0] ∧
        q = ⟨place ++ [.name (Text.of "template")], .missing⟩ := by
  rw [Faults.required]
  cases fields.get? (Text.of "template") with
  | none =>
      apply ((Lists.singleton fun _ _ => Iff.rfl).under 0).congr
      intro p q
      constructor
      · rintro ⟨_, rfl, rfl, rfl⟩
        exact ⟨rfl, rfl, rfl⟩
      · rintro ⟨-, rfl, rfl⟩
        exact ⟨[], rfl, rfl, rfl⟩
  | some v => exact Lists.nil fun p q hb => Option.some_ne_none v hb.1

theorem lists_entry : Listed entry Faults.entry := by
  intro place v
  have hnot (hstring : ∀ t, v ≠ .string t) (hdict : ∀ fields, v ≠ .dict fields) :
      Lists [⟨place, .notEntry⟩] (entry place v) := by
    apply Lists.singleton
    intro p q
    constructor
    · rintro (_ | _ | _ | _ | _)
      · exact ⟨rfl, rfl⟩
      all_goals exact (hdict _ rfl).elim
    · rintro ⟨rfl, rfl⟩
      exact .notEntry hstring hdict
  cases v with
  | scalar s =>
      cases s with
      | string t =>
          apply Lists.nil
          rintro p q ⟨hstring, -⟩
          exact hstring t rfl
      | _ => exact hnot nofun nofun
  | dict fields =>
      have htemplate := lists_field lists_text "template" 0 place fields
      have hvars := lists_field (lists_dictionary lists_any) "vars" 1 place fields
      have hdescription := lists_field lists_optionalText "description" 2 place fields
      refine ((((lists_required place fields).append htemplate ?_).append hvars ?_).append
        hdescription ?_).congr fun p q => ?_
      -- A template is missing or at fault but never both, so one rank serves for the two.
      · rintro p q p' q' ⟨hmissing, -, -⟩ ⟨hv, -⟩
        rw [hmissing] at hv
        contradiction
      · rintro p q p' q' (⟨-, rfl, -⟩ | ⟨-, -⟩) h
        · exact cons_lt_of_field h Nat.one_pos
        · exact cons_lt_of_field h Nat.one_pos
      · rintro p q p' q' ((⟨-, rfl, -⟩ | ⟨-, -⟩) | ⟨-, -⟩) h
        · exact cons_lt_of_field h Nat.two_pos
        · exact cons_lt_of_field h Nat.two_pos
        · exact cons_lt_of_field h Nat.one_lt_two
      · constructor
        · rintro (((⟨hmissing, rfl, rfl⟩ | h) | h) | h)
          · exact .missing hmissing
          · exact .template h
          · exact .vars h
          · exact .description h
        · rintro (⟨-, hdict⟩ | hmissing | h | h | h)
          · exact (hdict fields rfl).elim
          · exact .inl (.inl (.inl ⟨hmissing, rfl, rfl⟩))
          · exact .inl (.inl (.inr h))
          · exact .inl (.inr h)
          · exact .inr h
  | _ => exact hnot nofun nofun

theorem lists_config (v : Value) : Lists (Faults.config v) (config [] v) := by
  have hnot (hdict : ∀ fields, v ≠ .dict fields) : Lists [⟨[], .notConfig⟩] (config [] v) := by
    apply Lists.singleton
    intro p q
    constructor
    · rintro (_ | _ | _ | _)
      · exact ⟨rfl, rfl⟩
      all_goals exact (hdict _ rfl).elim
    · rintro ⟨rfl, rfl⟩
      exact .notConfig hdict
  cases v with
  | dict fields =>
      have hname := lists_field lists_optionalText "name" 0 [] fields
      have hvars := lists_field (lists_dictionary lists_any) "vars" 1 [] fields
      have htemplates := lists_field (lists_dictionary lists_entry) "templates" 2 [] fields
      refine ((hname.append hvars ?_).append htemplates ?_).congr fun p q => ?_
      · rintro p q p' q' ⟨-, -⟩ h
        exact cons_lt_of_field h Nat.one_pos
      · rintro p q p' q' (⟨-, -⟩ | ⟨-, -⟩) h
        · exact cons_lt_of_field h Nat.two_pos
        · exact cons_lt_of_field h Nat.one_lt_two
      · constructor
        · rintro ((h | h) | h)
          · exact .name h
          · exact .vars h
          · exact .templates h
        · rintro (hdict | h | h | h)
          · exact (hdict fields rfl).elim
          · exact .inl (.inl h)
          · exact .inl (.inr h)
          · exact .inr h
  | _ => exact hnot nofun

end Rule

namespace Faults

variable {fields others : Dict} {name : String}

theorem field_of_get? {v : Value} (h : fields.get? (Text.of name) = some v) (place : List Place) :
    field place name faults fields = faults (place ++ [.name (Text.of name)]) v := by
  rw [field, h, Option.elim_some]

theorem field_of_get?_none (h : fields.get? (Text.of name) = none) (place : List Place) :
    field place name faults fields = [] := by
  rw [field, h, Option.elim_none]

theorem field_congr (h : others.get? (Text.of name) = fields.get? (Text.of name))
    (place : List Place) :
    field place name faults others = field place name faults fields := by
  rw [field, field, h]

/-- The faults of each entry are those that it has as the only one. -/
theorem config_split {xs : Dict}
    (htemplates : fields.get? (Text.of "templates") = some (.dict xs))
    (hname : others.get? (Text.of "name") = fields.get? (Text.of "name"))
    (hvars : others.get? (Text.of "vars") = fields.get? (Text.of "vars"))
    (hnone : others.get? (Text.of "templates") = none) :
    config (.dict fields) = config (.dict others) ++
      xs.flatMap fun x => config (.dict [(.string (Text.of "templates"), .dict [x])]) := by
  have hget (x : Value × Value) (n : Text) :
      Dict.get? [(.string (Text.of "templates"), .dict [x])] n =
        if n = Text.of "templates" then some (.dict [x]) else none :=
    Dict.get?_cons_string _ _ [] n
  have hsingle (x : Value × Value) :
      config (.dict [(.string (Text.of "templates"), .dict [x])]) =
        dictionary ([] ++ [.name (Text.of "templates")]) entry (.dict [x]) := by
    rw [config, field_of_get?_none ((hget x _).trans (if_neg (by decide))),
      field_of_get?_none ((hget x _).trans (if_neg (by decide))),
      field_of_get? ((hget x _).trans (if_pos rfl))]
    rfl
  rw [config, config, field_congr hname, field_congr hvars, field_of_get?_none hnone,
    field_of_get? htemplates, List.append_nil]
  simp only [hsingle, dictionary, List.flatMap_cons, List.flatMap_nil, List.append_nil]

end Faults

/-- Accepted are the values that violate no condition. Otherwise each violation is reported once, in
reading order, and an entry has the same problems with other entries as without. -/
theorem Check.config_reports_violations (v : Value) :
    ((∃ c, config v = .ok c) ↔ IsConfig v) ∧
    (IsConfig v ↔ ∀ p q, ¬ Rule.config [] v p q) ∧
    (∀ ps, config v = .error ps ↔ ps ≠ [] ∧ Lists ps (Rule.config [] v)) ∧
    ∀ fields others xs : Dict, v = .dict fields →
      fields.get? (Text.of "templates") = some (.dict xs) →
      others.get? (Text.of "name") = fields.get? (Text.of "name") →
      others.get? (Text.of "vars") = fields.get? (Text.of "vars") →
      others.get? (Text.of "templates") = none →
      (config v).problems = (config (.dict others)).problems ++
        xs.flatMap fun x =>
          (config (.dict [(.string (Text.of "templates"), .dict [x])])).problems := by
  have hreports := reports_config v
  have hlists := Rule.lists_config v
  refine ⟨?_, ?_, ?_, ?_⟩
  · rw [hreports.ok_iff, Faults.config_eq_nil_iff]
  · rw [← Faults.config_eq_nil_iff, hlists.eq_nil_iff]
  · intro ps
    rw [hreports.error_iff]
    constructor
    · rintro ⟨hne, rfl⟩
      exact ⟨hne, hlists⟩
    · rintro ⟨hne, hps⟩
      exact ⟨hne, hlists.unique hps⟩
  · rintro fields others xs rfl htemplates hname hvars hnone
    simp only [(reports_config _).problems_eq]
    exact Faults.config_split htemplates hname hvars hnone

/-- A key that is no text, a missing template and wrong defaults are reported side by side, and the
second entry hides none of them. -/
theorem Check.config_reports_violations_entries :
    let first : Value × Value := (.integer 1, .dict [(.string (Text.of "vars"), .null)])
    let second : Value × Value := (.string [.char 't'], .string (Text.of "{x}"))
    let others : Dict := [(.string (Text.of "name"), .integer 5)]
    let fields : Dict := (.string (Text.of "templates"), .dict [first, second]) :: others
    let place : List Place := [.name (Text.of "templates"), .number 1]
    let ps : List Problem := [⟨[.name (Text.of "name")], .notText⟩,
      ⟨place ++ [.name (Text.of "[key]")], .notText⟩,
      ⟨place ++ [.name (Text.of "template")], .missing⟩,
      ⟨place ++ [.name (Text.of "vars")], .notDictionary⟩]
    config (.dict fields) = .error ps ∧ ¬ IsConfig (.dict fields) ∧
      Lists ps (Rule.config [] (.dict fields)) ∧
      ps = (config (.dict others)).problems ++ [first, second].flatMap fun x =>
        (config (.dict [(.string (Text.of "templates"), .dict [x])])).problems := by
  intro first second others fields place ps
  have hget (n : Text) : fields.get? n = (others.get? n).or
      (if n = Text.of "templates" then some (.dict [first, second]) else none) :=
    Dict.get?_cons_string _ _ _ n
  have hothers (n : Text) :
      others.get? n = if n = Text.of "name" then some (.integer 5) else none :=
    Dict.get?_cons_string _ _ [] n
  have hfirst (n : Text) : Dict.get? [(.string (Text.of "vars"), .null)] n =
      if n = Text.of "vars" then some .null else none :=
    Dict.get?_cons_string _ _ [] n
  have htemplates : fields.get? (Text.of "templates") = some (.dict [first, second]) := by
    rw [hget, hothers]
    rfl
  have hname : fields.get? (Text.of "name") = some (.integer 5) := by
    rw [hget, hothers]
    rfl
  have hvars : fields.get? (Text.of "vars") = none := by
    rw [hget, hothers]
    rfl
  have hentry : entry first.2 = .error [⟨[.name (Text.of "template")], .missing⟩,
      ⟨[.name (Text.of "vars")], .notDictionary⟩] := by
    simp only [first, entry, field, hfirst]
    rfl
  have hitems : items entry [first, second] = .error [
      ⟨[.number 1, .name (Text.of "[key]")], .notText⟩,
      ⟨[.number 1, .name (Text.of "template")], .missing⟩,
      ⟨[.number 1, .name (Text.of "vars")], .notDictionary⟩] := by
    rw [items, item, hentry]
    rfl
  have hconfig : config (.dict fields) = .error ps := by
    simp only [config, field, hname, hvars, htemplates, bindings, hitems]
    rfl
  obtain ⟨haccepts, -, herror, hsplit⟩ := config_reports_violations (.dict fields)
  refine ⟨hconfig, ?_, ((herror ps).1 hconfig).2, ?_⟩
  · rw [← haccepts, hconfig]
    rintro ⟨c, hc⟩
    contradiction
  · have hproblems := hsplit fields others [first, second] rfl htemplates
      ((hothers _).trans hname.symm) ((hothers _).trans hvars.symm) (hothers _)
    rwa [hconfig] at hproblems

end Config

end UriTemplate
