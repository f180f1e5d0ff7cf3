import UriTemplate.Template
import UriTemplate.Value.Dict

namespace UriTemplate

structure Config.Entry where
  template : Text
  vars : Bindings Value
  description : Option Text

structure Config where
  name : Option Text
  vars : Bindings Value
  templates : Bindings Config.Entry

namespace Config

def empty : Config := ⟨none, .empty, .empty⟩

def entry (c : Config) (name : Text) : Except Error Entry :=
  match c.templates.get? name with
  | some e => .ok e
  | none => .error (.unknownTemplate name)

/-- Defaults of all templates, replaced by those of the named one and these by the overrides. What
an override binds besides names is kept though no template can ask for it. -/
def resolve (c : Config) (name : Text) (overrides : Dict) : Except Error Dict :=
  (c.entry name).map fun e => (Dict.ofBindings (c.vars.merge e.vars)).merge overrides

def expand (c : Config) (name : Text) (overrides : Dict) : Except Error Text := do
  let e ← c.entry name
  let vars ← c.resolve name overrides
  UriTemplate.expand e.template vars.get?

def ofFields (fields : List (String × Value)) : Value :=
  .dict (fields.map fun x => (.string (Text.of x.1), x.2))

def optional : Option Text → Value
  | some t => .string t
  | none => .null

def dictionary {α : Type} (value : α → Value) (m : Bindings α) : Value :=
  .dict (m.entries.map fun x => (.string x.1, value x.2))

def Entry.dump (e : Entry) : Value :=
  ofFields [("template", .string e.template), ("vars", dictionary id e.vars),
    ("description", optional e.description)]

def dump (c : Config) : Value :=
  ofFields [("name", optional c.name), ("vars", dictionary id c.vars),
    ("templates", dictionary Entry.dump c.templates)]

end Config

end UriTemplate
