import UriTemplate.Template

namespace UriTemplate

namespace Session

inductive Action where
  | create (text : Option Text)
  | assign (text : Option Text)
  | text
  | shown
  | parts
  | names
  | expand (vars extra : Bindings Value)

inductive Answer where
  | done
  | text (t : Option Text)
  | shown (t : Text)
  | parts (ps : List Part)
  | names (ns : List Text)
  | expanded (t : Text)
  deriving DecidableEq, Repr

structure Reply where
  answer : Except Error Answer
  log : List Log.Event

structure Step where
  slot : Text
  action : Action

/-- An answer drawn from the parts. A template that cannot be read stays as it is, and one that
was read is remembered even when no answer comes of it. -/
def withParts (t : Template) (answer : List Part → Except Error Answer) : Template × Reply :=
  match t.read with
  | .ok r => (r.template, ⟨answer r.parts, r.log⟩)
  | .error e => (t, ⟨.error e, []⟩)

def perform (t : Template) : Action → Template × Reply
  | .create text | .assign text => (.ofText text, ⟨.ok .done, []⟩)
  | .text => (t, ⟨.ok (.text t.text), []⟩)
  | .shown => (t, ⟨.ok (.shown t.shown), []⟩)
  | .parts => withParts t fun ps => .ok (.parts ps)
  | .names => withParts t fun ps => .ok (.names (Part.variableNames ps))
  | .expand vars extra => withParts t fun ps =>
      (Expansion.render (Template.lookup vars extra) ps).map .expanded

end Session

/-- Templates by slot. A slot that was never filled holds a template without a text. -/
abbrev Session := Bindings Template

namespace Session

def template (s : Session) (slot : Text) : Template := (s.get? slot).getD (.ofText none)

def step (s : Session) (st : Step) : Session × Reply :=
  let (t, reply) := perform (s.template st.slot) st.action
  (s.insert st.slot t, reply)

def run (s : Session) : List Step → Session × List Reply
  | [] => (s, [])
  | st :: rest =>
      let (s, reply) := s.step st
      let (s, replies) := run s rest
      (s, reply :: replies)

def partsOf : Option Text → Except Error (List Part)
  | some s => parse s
  | none => .error .noTemplate

def Action.textAfter (text : Option Text) : Action → Option Text
  | .create t | .assign t => t
  | _ => text

def answerFor (text : Option Text) : Action → Except Error Answer
  | .create _ | .assign _ => .ok .done
  | .text => .ok (.text text)
  | .shown => .ok (.shown (Template.ofText text).shown)
  | .parts => (partsOf text).map .parts
  | .names => (partsOf text).map fun ps => .names (Part.variableNames ps)
  | .expand vars extra => do
      let t ← Expansion.render (Template.lookup vars extra) (← partsOf text)
      return .expanded t

abbrev Texts := Text → Option Text

def Texts.after (texts : Texts) (st : Step) : Texts := fun slot =>
  if slot = st.slot then st.action.textAfter (texts slot) else texts slot

def answers (texts : Texts) : List Step → List (Except Error Answer)
  | [] => []
  | st :: rest => answerFor (texts st.slot) st.action :: answers (texts.after st) rest

def Faithful (t : Template) : Prop :=
  ∀ ps ∈ t.cached, ∃ s ∈ t.text, parse s = .ok ps

end Session

end UriTemplate
