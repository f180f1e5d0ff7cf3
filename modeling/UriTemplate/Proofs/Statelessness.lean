import UriTemplate.Proofs.Derivation
import UriTemplate.Proofs.Outcome
import UriTemplate.Session

namespace UriTemplate.Session

variable {s : Session} {t : Template} {texts : Texts}

theorem faithful_ofText (text : Option Text) : Faithful (.ofText text) := nofun

theorem faithful_of_partsOf {text : Option Text} {ps : List Part} (h : partsOf text = .ok ps) :
    Faithful ⟨text, some ps⟩ := by
  cases text with
  | none => contradiction
  | some s =>
      intro qs hq
      obtain rfl := Option.some.inj hq
      exact ⟨s, rfl, h⟩

def readingEvents (t : Template) (ps : List Part) : List Log.Event :=
  match t.cached, t.text with
  | none, some s => [.parsed s ps.length, .cached s ps.length]
  | _, _ => []

theorem read_eq (h : Faithful t) :
    t.read = (partsOf t.text).map fun ps => ⟨ps, ⟨t.text, some ps⟩, readingEvents t ps⟩ := by
  rcases t with ⟨text, cached⟩
  cases cached with
  | some ps =>
      obtain ⟨s, hs, hp⟩ := h ps rfl
      obtain rfl : text = some s := hs
      rw [partsOf, hp]
      rfl
  | none => cases text <;> rfl

theorem withParts_faithful (h : Faithful t) (answer : List Part → Except Error Answer) :
    (withParts t answer).1.text = t.text ∧ Faithful (withParts t answer).1 ∧
      (withParts t answer).2.answer = partsOf t.text >>= answer := by
  rw [withParts, read_eq h]
  cases hp : partsOf t.text with
  | error e => exact ⟨rfl, h, rfl⟩
  | ok ps => exact ⟨rfl, faithful_of_partsOf hp, rfl⟩

theorem perform_faithful (h : Faithful t) (a : Action) :
    (perform t a).1.text = a.textAfter t.text ∧ Faithful (perform t a).1 ∧
      (perform t a).2.answer = answerFor t.text a := by
  cases a with
  | create text | assign text => exact ⟨rfl, faithful_ofText text, rfl⟩
  | text | shown => exact ⟨rfl, h, rfl⟩
  | parts | names =>
      obtain ⟨ht, hf, ha⟩ := withParts_faithful h _
      exact ⟨ht, hf, ha.trans (Outcome.bind_ok _ _)⟩
  | expand vars extra =>
      obtain ⟨ht, hf, ha⟩ := withParts_faithful h fun ps =>
        (Expansion.render (Template.lookup vars extra) ps).map .expanded
      refine ⟨ht, hf, ha.trans ?_⟩
      rw [answerFor]
      cases partsOf t.text with
      | error e => rfl
      | ok ps => exact (Outcome.bind_ok _ _).symm

theorem template_insert (s : Session) (slot other : Text) (t : Template) :
    template (s.insert slot t) other = if other = slot then t else s.template other := by
  rw [template, Bindings.get?_insert]
  split <;> rfl

def Tracks (s : Session) (texts : Texts) : Prop :=
  ∀ slot, (s.template slot).text = texts slot ∧ Faithful (s.template slot)

theorem tracks_empty : Tracks .empty fun _ => none := fun _ => ⟨rfl, faithful_ofText none⟩

theorem template_step (s : Session) (st : Step) (slot : Text) :
    (s.step st).1.template slot =
      if slot = st.slot then (perform (s.template st.slot) st.action).1 else s.template slot :=
  template_insert s st.slot slot _

theorem step_tracks (h : Tracks s texts) (st : Step) :
    Tracks (s.step st).1 (texts.after st) ∧
      (s.step st).2.answer = answerFor (texts st.slot) st.action := by
  obtain ⟨ht, hf⟩ := h st.slot
  obtain ⟨ht', hf', ha⟩ := perform_faithful hf st.action
  rw [ht] at ht' ha
  refine ⟨fun slot => ?_, ha⟩
  rw [template_step, Texts.after]
  by_cases hs : slot = st.slot
  · subst hs
    rw [if_pos rfl, if_pos rfl]
    exact ⟨ht', hf'⟩
  · rw [if_neg hs, if_neg hs]
    exact h slot

-- Any texts that the session tracks will do, so later runs can start in the middle of a session.
theorem run_tracks (h : Tracks s texts) (steps : List Step) :
    Tracks (s.run steps).1 (steps.foldl Texts.after texts) ∧
      (s.run steps).2.map Reply.answer = answers texts steps := by
  induction steps generalizing s texts with
  | nil => exact ⟨h, rfl⟩
  | cons st rest ih =>
      obtain ⟨hs, ha⟩ := step_tracks h st
      obtain ⟨hr, has⟩ := ih hs
      refine ⟨hr, ?_⟩
      rw [run, answers, ← ha, ← has]
      rfl

theorem textAfter_of_error {text : Option Text} {a : Action} {e : Error}
    (h : answerFor text a = .error e) : a.textAfter text = text := by
  cases a with
  | create | assign => contradiction
  | _ => rfl

theorem after_of_error {st : Step} {e : Error}
    (h : answerFor (texts st.slot) st.action = .error e) :
    texts.after st = texts := by
  funext slot
  rw [Texts.after]
  split
  next hs =>
    subst hs
    exact textAfter_of_error h
  next => rfl

/-- Every answer of a session is the one that the text last given to the slot calls for, and parts
are remembered for no other text. A step that fails leaves no trace in later answers. -/
theorem run_answers_stateless (steps : List Step) :
    let s := (run .empty steps).1
    let texts := steps.foldl Texts.after fun _ => none
    (∀ slot, (s.template slot).text = texts slot ∧ Faithful (s.template slot)) ∧
    (run .empty steps).2.map Reply.answer = answers (fun _ => none) steps ∧
    (∀ vars extra name,
      Template.lookup vars extra name = (extra.get? name).or (vars.get? name)) ∧
    ∀ st e, (s.step st).2.answer = .error e →
      ((s.step st).1.template st.slot).text = (s.template st.slot).text ∧
      (∀ slot, slot ≠ st.slot → (s.step st).1.template slot = s.template slot) ∧
      ∀ later, ((s.step st).1.run later).2.map Reply.answer =
        (s.run later).2.map Reply.answer := by
  intro s texts
  obtain ⟨hs, ha⟩ := run_tracks tracks_empty steps
  refine ⟨hs, ha, fun vars extra => Bindings.get?_merge vars extra, fun st e he => ?_⟩
  obtain ⟨ht, hst⟩ := step_tracks hs st
  rw [after_of_error (hst.symm.trans he)] at ht
  refine ⟨?_, fun slot hne => ?_, fun later => ?_⟩
  · exact (ht st.slot).1.trans (hs st.slot).1.symm
  · rw [template_step, if_neg hne]
  · exact (run_tracks ht later).2.trans (run_tracks hs later).2.symm

/-- An expansion that fails has read its template before, which nothing asked later shows. -/
theorem run_answers_stateless_unsupported :
    let s := (run .empty [⟨[.char 't'], .create (some (Text.of "{x}"))⟩]).1
    let st : Step := ⟨[.char 't'], .expand (.ofList [([.char 'x'], .dict [])]) .empty⟩
    (s.template [.char 't']).cached = none ∧ ((s.step st).1.template [.char 't']).cached ≠ none ∧
    (s.step st).2.answer = .error (.unsupportedValue [.char 'x'] .dict) ∧
    ∀ later, ((s.step st).1.run later).2.map Reply.answer =
      (s.run later).2.map Reply.answer := by
  intro s st
  let ps := [Part.expression ⟨.simple, [⟨[.char 'x'], none, false⟩]⟩]
  have hp : partsOf (some (Text.of "{x}")) = .ok ps := parse_letter rfl
  have hst : perform (.ofText (some (Text.of "{x}"))) st.action =
      (⟨some (Text.of "{x}"), some ps⟩, ⟨.error (.unsupportedValue [.char 'x'] .dict),
        [.parsed (Text.of "{x}") 1, .cached (Text.of "{x}") 1]⟩) := by
    rw [perform, withParts, read_eq (faithful_ofText _), Template.ofText, hp]
    rfl
  have hc : (perform (.ofText (some (Text.of "{x}"))) st.action).1.cached ≠ none := by
    rw [hst]
    exact Option.some_ne_none ps
  have he : (s.step st).2.answer = .error (.unsupportedValue [.char 'x'] .dict) :=
    congrArg (fun r => r.2.answer) hst
  exact ⟨rfl, hc, he, ((run_answers_stateless _).2.2.2 st _ he).2.2⟩

end UriTemplate.Session
