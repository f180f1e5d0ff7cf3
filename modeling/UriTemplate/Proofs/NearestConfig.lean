import UriTemplate.FileTree

namespace UriTemplate

namespace Path

/-- The search from `start` comes to `d`, since nothing is there at the places before it. -/
structure Reaches (exists? : Path → Except OsError Bool) (start d : Path) : Prop where
  above : d <:+ start
  passed : ∀ q, q <:+ start → d <:+ q → q ≠ d → exists? (configName :: q) = .ok false

inductive Finds (exists? : Path → Except OsError Bool) (start : Path) :
    Except OsError (Option Path) → Prop
  | nearest {d : Path} : Reaches exists? start d → exists? (configName :: d) = .ok true →
      Finds exists? start (.ok (some (configName :: d)))
  | failed {d : Path} {e : OsError} : Reaches exists? start d →
      exists? (configName :: d) = .error e → Finds exists? start (.error e)
  | nowhere : (∀ d, d <:+ start → exists? (configName :: d) = .ok false) →
      Finds exists? start (.ok none)

/-- At `p`, where nothing was before nor below it, there is an entry now. -/
structure Added (exists? others? : Path → Except OsError Bool) (p : Path) : Prop where
  absent : ∀ q, p <:+ q → exists? q ≠ .ok true
  elsewhere : ∀ q, ¬ p <:+ q → others? q = exists? q

variable {exists? others? : Path → Except OsError Bool} {start up d q : Path} {name : Text}

theorem findConfig_of_true (h : exists? (configName :: start) = .ok true) :
    findConfig exists? start = .ok (some (configName :: start)) := by
  cases start <;> (rw [findConfig, candidates, first, h]; rfl)

theorem findConfig_of_error {e : OsError} (h : exists? (configName :: start) = .error e) :
    findConfig exists? start = .error e := by
  cases start <;> (rw [findConfig, candidates, first, h]; rfl)

theorem findConfig_root (h : exists? [configName] = .ok false) :
    findConfig exists? [] = .ok none := by
  rw [findConfig, candidates, first, h]
  rfl

/-- A place without a configuration is passed by. -/
theorem findConfig_cons (h : exists? (configName :: name :: up) = .ok false) :
    findConfig exists? (name :: up) = findConfig exists? up := by
  rw [findConfig, candidates, first, h]
  rfl

theorem reaches_self : Reaches exists? start start :=
  ⟨List.suffix_rfl, fun _ hq hs hne => absurd (hq.eq_of_length_le hs.length_le) hne⟩

theorem Reaches.below (h : Reaches exists? up d)
    (hn : exists? (configName :: name :: up) = .ok false) : Reaches exists? (name :: up) d := by
  refine ⟨h.above.trans (List.suffix_cons _ _), fun q hq hd hne => ?_⟩
  obtain rfl | hq := List.suffix_cons_iff.1 hq
  · exact hn
  · exact h.passed q hq hd hne

theorem findConfig_of_reaches (h : Reaches exists? start d) :
    findConfig exists? start = findConfig exists? d := by
  induction start with
  | nil => rw [List.suffix_nil.1 h.above]
  | cons name up ih =>
      obtain rfl | hd := List.suffix_cons_iff.1 h.above
      · rfl
      have hne : name :: up ≠ d := by
        rintro rfl
        exact absurd hd.length_le (Nat.not_succ_le_self _)
      rw [findConfig_cons (h.passed _ List.suffix_rfl h.above hne)]
      exact ih ⟨hd, fun q hq => h.passed q (hq.trans (List.suffix_cons _ _))⟩

theorem Finds.below {r : Except OsError (Option Path)} (h : Finds exists? up r)
    (hn : exists? (configName :: name :: up) = .ok false) : Finds exists? (name :: up) r := by
  cases h with
  | nearest hd ht => exact .nearest (hd.below hn) ht
  | failed hd he => exact .failed (hd.below hn) he
  | nowhere h =>
      refine .nowhere fun d hd => ?_
      obtain rfl | hd := List.suffix_cons_iff.1 hd
      · exact hn
      · exact h d hd

theorem finds_of_ne (h : exists? (configName :: start) ≠ .ok false) :
    Finds exists? start (findConfig exists? start) := by
  match hx : exists? (configName :: start) with
  | .error e =>
      rw [findConfig_of_error hx]
      exact .failed reaches_self hx
  | .ok true =>
      rw [findConfig_of_true hx]
      exact .nearest reaches_self hx
  | .ok false => exact absurd hx h

theorem finds_findConfig (exists? : Path → Except OsError Bool) (start : Path) :
    Finds exists? start (findConfig exists? start) := by
  induction start with
  | nil =>
      by_cases h : exists? [configName] = .ok false
      · rw [findConfig_root h]
        refine .nowhere fun d hd => ?_
        rwa [List.suffix_nil.1 hd]
      · exact finds_of_ne h
  | cons name up ih =>
      by_cases h : exists? (configName :: name :: up) = .ok false
      · rw [findConfig_cons h]
        exact ih.below h
      · exact finds_of_ne h

theorem findConfig_eq_iff {r : Except OsError (Option Path)} :
    findConfig exists? start = r ↔ Finds exists? start r := by
  refine ⟨fun h => h ▸ finds_findConfig exists? start, fun h => ?_⟩
  cases h with
  | nearest hd ht => rw [findConfig_of_reaches hd, findConfig_of_true ht]
  | failed hd he => rw [findConfig_of_reaches hd, findConfig_of_error he]
  | nowhere h =>
      have hroot : Reaches exists? start [] :=
        ⟨List.nil_suffix, fun q hq _ _ => h q hq⟩
      rw [findConfig_of_reaches hroot, findConfig_root (h [] List.nil_suffix)]

theorem findConfig_eq_of_ne (heq : others? (configName :: start) = exists? (configName :: start))
    (h : exists? (configName :: start) ≠ .ok false) :
    findConfig others? start = findConfig exists? start := by
  match hx : exists? (configName :: start) with
  | .error e => rw [findConfig_of_error hx, findConfig_of_error (heq.trans hx)]
  | .ok true => rw [findConfig_of_true hx, findConfig_of_true (heq.trans hx)]
  | .ok false => exact absurd hx h

/-- Two searches from one place that end differently saw a difference at a place they came to. -/
theorem exists_reaches_of_ne (h : findConfig others? start ≠ findConfig exists? start) :
    ∃ q, Reaches exists? start q ∧ others? (configName :: q) ≠ exists? (configName :: q) := by
  induction start with
  | nil =>
      refine ⟨[], reaches_self, fun heq => h ?_⟩
      by_cases hx : exists? [configName] = .ok false
      · rw [findConfig_root hx, findConfig_root (heq.trans hx)]
      · exact findConfig_eq_of_ne heq hx
  | cons name up ih =>
      by_cases hx : exists? (configName :: name :: up) = .ok false
      · by_cases ho : others? (configName :: name :: up) = .ok false
        · rw [findConfig_cons hx, findConfig_cons ho] at h
          obtain ⟨q, hq, hne⟩ := ih h
          exact ⟨q, hq.below hx, hne⟩
        · exact ⟨name :: up, reaches_self, fun heq => ho (heq.trans hx)⟩
      · exact ⟨name :: up, reaches_self, fun heq => h (findConfig_eq_of_ne heq hx)⟩

/-- A search does not pass by a place where it does not see nothing. -/
theorem Reaches.suffix_of_ne (h : Reaches exists? start q) (hd : d <:+ start)
    (hne : exists? (configName :: d) ≠ .ok false) : d <:+ q := by
  obtain hdq | hqd := List.suffix_or_suffix_of_suffix hd h.above
  · exact hdq
  · by_cases heq : d = q
    · exact heq ▸ List.suffix_rfl
    · exact absurd (h.passed d hd hqd heq) hne

theorem suffix_of_config_suffix (h : configName :: d <:+ configName :: q) : d <:+ q := by
  obtain h | h := List.suffix_cons_iff.1 h
  · exact (List.cons.inj h).2 ▸ List.suffix_rfl
  · exact (List.suffix_cons _ _).trans h

/-- What lies above a place in the new entry lies above its directory, or in the entry as well. -/
theorem suffix_or_config_suffix (h : configName :: d <:+ configName :: q) {p : Path}
    (hp : p <:+ q) : p <:+ d ∨ configName :: d <:+ p := by
  obtain h | h := List.suffix_cons_iff.1 h
  · rw [(List.cons.inj h).2]
    exact .inl hp
  · obtain hp | hd := List.suffix_or_suffix_of_suffix hp h
    · obtain rfl | hp := List.suffix_cons_iff.1 hp
      · exact .inr List.suffix_rfl
      · exact .inl hp
    · exact .inr hd

theorem findConfig_added (hadd : Added exists? others? (configName :: d))
    (h : findConfig others? start ≠ findConfig exists? start) :
    d <:+ start ∧ (findConfig exists? start = .ok none ∨
      (∃ q, findConfig exists? start = .ok (some (configName :: q)) ∧ q <:+ d ∧ q ≠ d) ∨
      ∃ q e, findConfig exists? start = .error e ∧ exists? (configName :: q) = .error e ∧
        (q <:+ d ∨ configName :: d <:+ q)) := by
  obtain ⟨p, hp, hne⟩ := exists_reaches_of_ne h
  have hdp : configName :: d <:+ configName :: p :=
    Classical.byContradiction fun hno => hne (hadd.elsewhere _ hno)
  refine ⟨(suffix_of_config_suffix hdp).trans hp.above, ?_⟩
  have hfinds := finds_findConfig exists? start
  generalize findConfig exists? start = r at hfinds
  cases hfinds with
  | nowhere => exact .inl rfl
  | @nearest q hq ht =>
      have hthere (hs : configName :: d <:+ configName :: q) : False := hadd.absent _ hs ht
      have hqp : q <:+ p := hp.suffix_of_ne hq.above (by rw [ht]; nofun)
      obtain hqd | hdq := suffix_or_config_suffix hdp hqp
      · refine .inr (.inl ⟨q, rfl, hqd, ?_⟩)
        rintro rfl
        exact hthere List.suffix_rfl
      · exact (hthere (hdq.trans (List.suffix_cons _ _))).elim
  | @failed q e hq he =>
      have hqp : q <:+ p := hp.suffix_of_ne hq.above (by rw [he]; nofun)
      exact .inr (.inr ⟨q, e, rfl, he, suffix_or_config_suffix hdp hqp⟩)

/-- The search ends at the nearest configuration, with nothing if there is none, or with the error
of a look before that. From a place without a configuration it goes on as from the place above. A
configuration that is added to a directory changes only searches from there and below that found
nothing, passed by, or failed there or above. -/
theorem findConfig_nearest (exists? : Path → Except OsError Bool) (start : Path) :
    (∀ r, findConfig exists? start = r ↔ Finds exists? start r) ∧
    (∀ child,
      (exists? (configName :: child :: start) = .ok true →
        findConfig exists? (child :: start) = .ok (some (configName :: child :: start))) ∧
      (exists? (configName :: child :: start) = .ok false →
        findConfig exists? (child :: start) = findConfig exists? start) ∧
      ∀ e, exists? (configName :: child :: start) = .error e →
        findConfig exists? (child :: start) = .error e) ∧
    ∀ others? d, Added exists? others? (configName :: d) →
      findConfig others? start ≠ findConfig exists? start →
      d <:+ start ∧ (findConfig exists? start = .ok none ∨
        (∃ q, findConfig exists? start = .ok (some (configName :: q)) ∧ q <:+ d ∧ q ≠ d) ∨
        ∃ q e, findConfig exists? start = .error e ∧ exists? (configName :: q) = .error e ∧
          (q <:+ d ∨ configName :: d <:+ q)) :=
  ⟨fun _ => findConfig_eq_iff,
    fun _ => ⟨findConfig_of_true, findConfig_cons, fun _ => findConfig_of_error⟩,
    fun _ _ => findConfig_added⟩

theorem findConfig_nearest_inserted :
    let a : Path := [[.char 'a']]
    let start : Path := [.char 'b'] :: a
    let held : List Path := [[], a, [configName]]
    let exists? (p : Path) : Except OsError Bool := .ok (held.contains p)
    let others? (p : Path) : Except OsError Bool := .ok (((configName :: a) :: held).contains p)
    Finds exists? start (.ok (some [configName])) ∧ Added exists? others? (configName :: a) ∧
    findConfig others? start = .ok (some (configName :: a)) ∧ a <:+ start := by
  intro a start held exists? others?
  have hfind : findConfig exists? start = .ok (some [configName]) := rfl
  have hnew : findConfig others? start = .ok (some (configName :: a)) := rfl
  have hadd : Added exists? others? (configName :: a) := by
    constructor
    · intro q hq hthere
      have hmem : q ∈ held := List.contains_iff_mem.1 (Except.ok.inj hthere)
      have hshort : ∀ p ∈ held, p.length ≤ 1 := by decide
      exact absurd (Nat.le_trans hq.length_le (hshort q hmem)) (by decide)
    · intro q hq
      have hne : (q == configName :: a) = false := by
        rw [beq_eq_false_iff_ne]
        rintro rfl
        exact hq List.suffix_rfl
      show Except.ok (q == configName :: a || held.contains q) = _
      rw [hne, Bool.false_or]
  obtain ⟨hfinds, -, hadded⟩ := findConfig_nearest exists? start
  have hchange : findConfig others? start ≠ findConfig exists? start := by
    rw [hfind, hnew]
    exact fun h => absurd (Option.some.inj (Except.ok.inj h)) (by decide)
  exact ⟨(hfinds _).1 hfind, hadd, hnew, (hadded _ _ hadd hchange).1⟩

end Path

/-- From a place with a name that is too long not even the nearest configuration is found. -/
theorem FileTree.findConfig_longName_ne_nearest :
    let t : FileTree := ⟨[([Path.configName], .file [])]⟩
    let exists? (p : Path) := t.exists? [] p.text
    let start : Path := [List.replicate 256 (.char 'n')]
    exists? [Path.configName] = .ok true ∧
    Path.findConfig exists? start = .error .nameTooLong ∧
    ¬ ∀ d, d <:+ start → exists? (Path.configName :: d) = .ok true →
      (∀ q, q <:+ start → exists? (Path.configName :: q) = .ok true → q <:+ d) →
      Path.findConfig exists? start = .ok (some (Path.configName :: d)) := by
  intro t exists? start
  have hlong : exists? (Path.configName :: start) = .error .nameTooLong := by
    set_option maxRecDepth 4000 in rfl
  have hroot : exists? [Path.configName] = .ok true := rfl
  have hfind : Path.findConfig exists? start = .error .nameTooLong :=
    Path.findConfig_of_error hlong
  refine ⟨hroot, hfind, fun h => ?_⟩
  have hnearest (q : Path) (hq : q <:+ start) (ht : exists? (Path.configName :: q) = .ok true) :
      q <:+ [] := by
    obtain rfl | hq := List.suffix_cons_iff.1 hq
    · exact nomatch hlong.symm.trans ht
    · exact hq
  exact nomatch hfind.symm.trans (h [] List.nil_suffix hroot hnearest)

end UriTemplate
