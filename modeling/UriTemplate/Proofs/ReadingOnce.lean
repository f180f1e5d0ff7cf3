import UriTemplate.Proofs.FirstOffence
import UriTemplate.Proofs.Statelessness

namespace UriTemplate

theorem Expansion.ne_of_render_error {vars : Lookup} {ps : List Part} {e : Error}
    (h : render vars ps = .error e) :
    e ≠ .noTemplate ∧ ∀ t fault, e ≠ .invalidTemplate t fault := by
  have he := mem_offences_iff.1 (List.mem_of_head? (((decidedBy_render vars ps).error_iff e).1 h))
  cases he <;> exact ⟨nofun, nofun⟩

namespace Session

def Action.given? : Action → Option (Option Text)
  | .create t | .assign t => some t
  | _ => none

def Action.needsParts : Action → Bool
  | .parts | .names | .expand .. => true
  | _ => false

def Step.needsPartsAt (slot : Text) (st : Step) : Bool := st.slot = slot && st.action.needsParts

def Reply.records (r : Reply) : List Log.Record := r.log.map Log.Event.record

def transcript (s : Session) (steps : List Step) : List (Step × Reply) := steps.zip (s.run steps).2

def recordsAt (slot : Text) (xs : List (Step × Reply)) : List Log.Record :=
  (xs.filter fun x => x.1.slot = slot).flatMap fun x => x.2.records

def readingRecords : Option Text → List Log.Record
  | none => []
  | some s => match parse s with
      | .ok ps => [
          ⟨.debug, "qwuri.ast.parser", Text.of "Parsed " ++ Text.quoted s ++ Text.of " into " ++
            Text.ofNat ps.length ++ Text.of " parts"⟩,
          ⟨.debug, "qwuri.template", Text.of "Cached " ++ Text.ofNat ps.length ++
            Text.of " parts for " ++ Text.quoted s⟩]
      | .error _ => []

/-- A template some steps after its text was given. Its parts are remembered if they were needed
and there are any. -/
def remembering (text : Option Text) (needed : Bool) : Template :=
  ⟨text, if needed then (partsOf text).toOption else none⟩

variable {s : Session} {slot : Text} {text : Option Text} {needed : Bool}

theorem withParts_remembering (text : Option Text) (needed : Bool)
    (answer : List Part → Except Error Answer) :
    (withParts (remembering text needed) answer).1 = remembering text true ∧
      (withParts (remembering text needed) answer).2.records =
        if needed then [] else readingRecords text := by
  cases text with
  | none => cases needed <;> exact ⟨rfl, rfl⟩
  | some s =>
      cases hp : parse s with
      | error e =>
          cases needed <;>
            simp [withParts, Template.read, remembering, partsOf, hp, readingRecords,
              Reply.records, Except.toOption]
      | ok ps =>
          cases needed <;>
            simp [withParts, Template.read, remembering, partsOf, hp, readingRecords,
              Reply.records, Except.toOption, Log.Event.record]

theorem perform_remembering {a : Action} (ha : a.given? = none) (text : Option Text)
    (needed : Bool) :
    (perform (remembering text needed) a).1 = remembering text (needed || a.needsParts) ∧
      (perform (remembering text needed) a).2.records =
        if a.needsParts && !needed then readingRecords text else [] := by
  cases a with
  | create | assign => exact absurd ha (Option.some_ne_none _)
  | text | shown => cases needed <;> exact ⟨rfl, rfl⟩
  | parts | names | expand =>
      obtain ⟨ht, hr⟩ := withParts_remembering text needed _
      refine ⟨ht.trans ?_, hr.trans ?_⟩
      · cases needed <;> rfl
      · cases needed <;> rfl

theorem perform_of_given {a : Action} (ha : a.given? = some text) (t : Template) :
    perform t a = (remembering text false, ⟨.ok .done, []⟩) := by
  cases a with
  | create | assign =>
      obtain rfl := Option.some.inj ha
      rfl
  | _ => contradiction

/-- Where there are no parts nothing was read. -/
theorem records_of_error {t : Template} {a : Action}
    (h : (perform t a).2.answer = .error .noTemplate ∨
      ∃ s fault, (perform t a).2.answer = .error (.invalidTemplate s fault)) :
    (perform t a).2.records = [] := by
  have hwith (answer : List Part → Except Error Answer)
      (ha : ∀ ps e, answer ps = .error e →
        e ≠ .noTemplate ∧ ∀ s fault, e ≠ .invalidTemplate s fault)
      (h : (withParts t answer).2.answer = .error .noTemplate ∨
        ∃ s fault, (withParts t answer).2.answer = .error (.invalidTemplate s fault)) :
      (withParts t answer).2.records = [] := by
    rw [withParts] at h ⊢
    cases hr : t.read with
    | error e => rfl
    | ok r =>
        rw [hr] at h
        obtain h | ⟨s, fault, h⟩ := h
        · exact absurd rfl (ha _ _ h).1
        · exact absurd rfl ((ha _ _ h).2 s fault)
  cases a with
  | create | assign | text | shown => rfl
  | parts | names =>
      apply hwith _ _ h
      intro ps e he
      contradiction
  | expand vars extra =>
      exact hwith _ (fun ps e he => Expansion.ne_of_render_error (Outcome.map_eq_error_iff.1 he)) h

theorem transcript_cons (s : Session) (st : Step) (steps : List Step) :
    transcript s (st :: steps) = (st, (s.step st).2) :: transcript (s.step st).1 steps := rfl

theorem transcript_eq_append {steps : List Step} {xs ys : List (Step × Reply)}
    (h : transcript s steps = xs ++ ys) :
    ∃ first rest, steps = first ++ rest ∧ xs = transcript s first ∧
      ys = transcript (s.run first).1 rest := by
  induction xs generalizing s steps with
  | nil => exact ⟨[], steps, rfl, rfl, h.symm⟩
  | cons x xs ih =>
      cases steps with
      | nil => contradiction
      | cons st steps =>
          rw [transcript_cons, List.cons_append, List.cons.injEq] at h
          obtain ⟨first, rest, rfl, rfl, rfl⟩ := ih h.2
          obtain rfl := h.1
          exact ⟨st :: first, rest, rfl, rfl, rfl⟩

theorem map_fst_transcript (s : Session) (steps : List Step) :
    (transcript s steps).map Prod.fst = steps := by
  induction steps generalizing s with
  | nil => rfl
  | cons st steps ih => rw [transcript_cons, List.map_cons, ih]

theorem any_transcript (s : Session) (steps : List Step) (p : Step → Bool) :
    ((transcript s steps).any fun x => p x.1) = steps.any p := by
  induction steps generalizing s with
  | nil => rfl
  | cons st steps ih => rw [transcript_cons, List.any_cons, List.any_cons, ih]

theorem mem_transcript {steps : List Step} {x : Step × Reply} (h : x ∈ transcript s steps) :
    ∃ t, x.2 = (perform t x.1.action).2 := by
  induction steps generalizing s with
  | nil => contradiction
  | cons st steps ih =>
      obtain rfl | h := List.mem_cons.1 h
      · exact ⟨s.template st.slot, rfl⟩
      · exact ih h

theorem step_remembering (hs : s.template slot = remembering text needed) {st : Step}
    (hst : st.slot = slot → st.action.given? = none) :
    (s.step st).1.template slot = remembering text (needed || st.needsPartsAt slot) ∧
      (st.slot = slot → (s.step st).2.records =
        if st.action.needsParts && !needed then readingRecords text else []) := by
  rw [template_step, Step.needsPartsAt]
  by_cases h : st.slot = slot
  · subst h
    obtain ⟨ht, hr⟩ := perform_remembering (hst rfl) text needed
    rw [← hs] at ht hr
    exact ⟨by simpa using ht, fun _ => hr⟩
  · rw [if_neg (Ne.symm h), hs]
    exact ⟨by simp [h], fun he => absurd he h⟩

theorem run_remembering (hs : s.template slot = remembering text needed) {steps : List Step}
    (hst : ∀ st ∈ steps, st.slot = slot → st.action.given? = none) :
    (s.run steps).1.template slot =
        remembering text (needed || steps.any (Step.needsPartsAt slot)) ∧
      recordsAt slot (transcript s steps) =
        if steps.any (Step.needsPartsAt slot) && !needed then readingRecords text else [] := by
  induction steps generalizing s needed with
  | nil =>
      rw [List.any_nil, Bool.or_false]
      exact ⟨hs, rfl⟩
  | cons st steps ih =>
      obtain ⟨hst, hsteps⟩ := List.forall_mem_cons.1 hst
      obtain ⟨ht, hr⟩ := step_remembering hs hst
      obtain ⟨hrun, hrecords⟩ := ih ht hsteps
      rw [List.any_cons, ← Bool.or_assoc]
      refine ⟨hrun, ?_⟩
      rw [transcript_cons, recordsAt, List.filter_cons]
      split
      next h =>
        have h := of_decide_eq_true h
        rw [List.flatMap_cons, ← recordsAt, hrecords, hr h, Step.needsPartsAt, h]
        cases needed <;> cases st.action.needsParts <;> simp
      next h =>
        have hn : st.needsPartsAt slot = false := by simp_all [Step.needsPartsAt]
        rw [← recordsAt, hrecords, hn, Bool.or_false, Bool.false_or]

theorem exists_between {steps : List Step} {before during after : List (Step × Reply)} {a : Step}
    {r : Reply} (h : transcript s steps = before ++ (a, r) :: (during ++ after))
    (ha : a.action.given? = some text) :
    r.records = [] ∧ ∃ s' between, during = transcript s' between ∧
      s'.template a.slot = remembering text false := by
  obtain ⟨first, rest, -, -, hr⟩ := transcript_eq_append h
  cases rest with
  | nil => contradiction
  | cons st rest =>
      rw [transcript_cons, List.cons.injEq, Prod.mk.injEq] at hr
      obtain ⟨⟨rfl, rfl⟩, hr⟩ := hr
      obtain ⟨between, _, -, hd, -⟩ := transcript_eq_append hr.symm
      refine ⟨?_, _, between, hd, ?_⟩
      · rw [step, perform_of_given ha]
        rfl
      · rw [template_step, if_pos rfl, perform_of_given ha]

theorem records_of_transcript (hs : s.template slot = remembering text false) {steps : List Step}
    (hst : ∀ st ∈ steps, st.slot = slot → st.action.given? = none)
    {first rest : List (Step × Reply)} {st : Step} {reply : Reply}
    (h : transcript s steps = first ++ (st, reply) :: rest) (hslot : st.slot = slot) :
    reply.records = if st.action.needsParts && !first.any (fun x => x.1.needsPartsAt slot)
      then readingRecords text else [] := by
  obtain ⟨earlier, later, rfl, rfl, hlater⟩ := transcript_eq_append h
  cases later with
  | nil => contradiction
  | cons st later =>
      rw [transcript_cons, List.cons.injEq, Prod.mk.injEq] at hlater
      obtain ⟨⟨rfl, rfl⟩, -⟩ := hlater
      obtain ⟨hearlier, hlater⟩ := List.forall_mem_append.1 hst
      have hread := (run_remembering hs hearlier).1
      rw [(step_remembering hread (hlater _ List.mem_cons_self)).2 hslot, any_transcript,
        Bool.false_or]

/-- Between two texts given to a slot its template is read at most once, by the first step that
needs its parts and only if it has a text that can be read. That step alone is logged, whether or
not an answer comes of it. -/
theorem transcript_reads_once {steps : List Step} {before during after : List (Step × Reply)}
    {a : Step} {r : Reply} {text : Option Text}
    (h : transcript .empty steps = before ++ (a, r) :: (during ++ after))
    (ha : a.action.given? = some text)
    (hd : ∀ x ∈ during, x.1.slot = a.slot → x.1.action.given? = none) :
    r.records = [] ∧
    (recordsAt a.slot during =
      if during.any (fun x => x.1.needsPartsAt a.slot) then readingRecords text else []) ∧
    (∀ first st reply rest, during = first ++ (st, reply) :: rest → st.slot = a.slot →
      reply.records = if st.action.needsParts && !first.any (fun x => x.1.needsPartsAt a.slot)
        then readingRecords text else []) ∧
    ∀ x ∈ transcript .empty steps,
      (x.2.answer = .error .noTemplate ∨
        ∃ t fault, x.2.answer = .error (.invalidTemplate t fault)) → x.2.records = [] := by
  obtain ⟨hr, s, between, rfl, hs⟩ := exists_between h ha
  have hbetween : ∀ st ∈ between, st.slot = a.slot → st.action.given? = none := by
    intro st hst
    rw [← map_fst_transcript s between] at hst
    obtain ⟨x, hx, rfl⟩ := List.mem_map.1 hst
    exact hd x hx
  refine ⟨hr, ?_, fun _ _ _ _ => records_of_transcript hs hbetween, fun x hx he => ?_⟩
  · rw [(run_remembering hs hbetween).2, any_transcript, Bool.not_false, Bool.and_true]
  · obtain ⟨t, hr⟩ := mem_transcript hx
    rw [hr] at he ⊢
    exact records_of_error he

/-- The step that is logged here fails for the value it is given. -/
theorem transcript_reads_once_failing :
    let create : Step := ⟨[.char 't'], .create (some (Text.of "{x}"))⟩
    let expand : Step := ⟨[.char 't'], .expand (.ofList [([.char 'x'], .dict [])]) .empty⟩
    let s := (step .empty create).1
    (s.step expand).2.answer = .error (.unsupportedValue [.char 'x'] .dict) ∧
    recordsAt [.char 't'] (transcript s
      [⟨[.char 't'], .text⟩, expand, ⟨[.char 'u'], .parts⟩, ⟨[.char 't'], .names⟩]) = [
      ⟨.debug, "qwuri.ast.parser", Text.of "Parsed '\x7bx\x7d' into 1 parts"⟩,
      ⟨.debug, "qwuri.template", Text.of "Cached 1 parts for '\x7bx\x7d'"⟩] := by
  intro create expand s
  have hp : parse (Text.of "{x}") = .ok [.expression ⟨.simple, [⟨[.char 'x'], none, false⟩]⟩] :=
    parse_letter rfl
  constructor
  · have ha := (perform_faithful (faithful_ofText (some (Text.of "{x}"))) expand.action).2.2
    refine ha.trans ?_
    rw [answerFor, Template.ofText, partsOf, hp]
    rfl
  · let during := [⟨[.char 't'], .text⟩, expand, ⟨[.char 'u'], .parts⟩, ⟨[.char 't'], .names⟩]
    have hd : ∀ x ∈ transcript s during, x.1.slot = create.slot → x.1.action.given? = none := by
      intro x hx
      have hst : x.1 ∈ during := by
        rw [← map_fst_transcript s during]
        exact List.mem_map_of_mem hx
      simp only [during, List.mem_cons, List.not_mem_nil, or_false] at hst
      obtain h | h | h | h := hst <;> simp [h, expand, Action.given?]
    have hsplit : transcript .empty (create :: during) =
        [] ++ (create, (step .empty create).2) :: (transcript s during ++ []) := by
      rw [List.append_nil]
      rfl
    have h := (transcript_reads_once hsplit rfl hd).2.1
    rw [any_transcript] at h
    refine h.trans ?_
    rw [if_pos (by decide), readingRecords, hp]
    rfl

end Session

end UriTemplate
