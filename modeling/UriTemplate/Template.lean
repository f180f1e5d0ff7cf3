import UriTemplate.Bindings
import UriTemplate.Expansion

namespace UriTemplate

namespace Log

inductive Level where
  | debug
  | info
  | warning
  deriving DecidableEq, Repr

def Level.name : Level → String
  | debug => "DEBUG"
  | info => "INFO"
  | warning => "WARNING"

/-- The least level shown. The debug setting counts as soon as it is not empty. -/
def threshold (verbose : Bool) (debugSetting : Option Text) : Level :=
  if (debugSetting.getD []) ≠ [] then .debug
  else if verbose then .info else .warning

inductive Event where
  | parsed (template : Text) (count : Nat)
  | cached (template : Text) (count : Nat)
  deriving DecidableEq, Repr

structure Record where
  level : Level
  source : String
  message : Text
  deriving DecidableEq, Repr

def Event.record : Event → Record
  | parsed template count =>
      ⟨.debug, "qwuri.ast.parser", Text.of "Parsed " ++ Text.quoted template ++ Text.of " into " ++
        Text.ofNat count ++ Text.of " parts"⟩
  | cached template count =>
      ⟨.debug, "qwuri.template", Text.of "Cached " ++ Text.ofNat count ++ Text.of " parts for " ++
        Text.quoted template⟩

end Log

/-- A template that is read when its parts are first needed and then remembers them. -/
structure Template where
  text : Option Text
  cached : Option (List Part)
  deriving DecidableEq, Repr

namespace Template

def ofText (text : Option Text) : Template := ⟨text, none⟩

def shown (t : Template) : Text :=
  Text.of "Template(" ++ ((t.text.map Text.quoted).getD (Text.of "None")) ++ [.char ')']

structure Reading where
  parts : List Part
  template : Template
  log : List Log.Event

def read (t : Template) : Except Error Reading :=
  match t.cached, t.text with
  | some parts, _ => .ok ⟨parts, t, []⟩
  | none, none => .error .noTemplate
  | none, some s => (parse s).map fun parts =>
      ⟨parts, ⟨some s, some parts⟩, [.parsed s parts.length, .cached s parts.length]⟩

def lookup (vars extra : Bindings Value) : Lookup := (vars.merge extra).get?

end Template

end UriTemplate
