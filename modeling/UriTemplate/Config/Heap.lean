import UriTemplate.Config

namespace UriTemplate.Config

inductive Call where
  | template (name : Text)
  | resolve (name : Text) (overrides : Dict)
  | expand (name : Text) (overrides : Dict)

inductive Address where
  | vars
  | entryVars (name : Text)
  | made (n : Nat)
  deriving DecidableEq

/-- The dictionaries of a configuration, at addresses to which every call could write. -/
structure Heap where
  dict : Address → Dict
  made : Nat

namespace Heap

def ofConfig (c : Config) : Heap where
  dict
    | .vars => .ofBindings c.vars
    | .entryVars name => (c.templates.get? name).elim [] fun e => .ofBindings e.vars
    | .made _ => []
  made := 0

def put (h : Heap) (a : Address) (d : Dict) : Heap :=
  { h with dict := fun b => if b = a then d else h.dict b }

def copy (h : Heap) (a : Address) : Address × Heap :=
  (.made h.made, { h.put (.made h.made) (h.dict a) with made := h.made + 1 })

def update (h : Heap) (a : Address) (newer : Dict) : Heap := h.put a ((h.dict a).merge newer)

/-- The defaults are copied, and only the copy is written to. -/
def layer (h : Heap) (name : Text) (overrides : Dict) : Address × Heap :=
  let (a, h) := h.copy .vars
  let h := h.update a (h.dict (.entryVars name))
  (a, h.update a overrides)

def resolve (c : Config) (h : Heap) (name : Text) (overrides : Dict) :
    Except Error (Address × Heap) :=
  (c.entry name).map fun _ => h.layer name overrides

def expand (c : Config) (h : Heap) (name : Text) (overrides : Dict) : Except Error Text := do
  let e ← c.entry name
  let (a, h) ← h.resolve c name overrides
  UriTemplate.expand e.template (h.dict a).get?

def after (c : Config) (h : Heap) : Call → Heap
  | .template _ => h
  | .resolve name overrides | .expand name overrides => match h.resolve c name overrides with
      | .ok (_, h) => h
      | .error _ => h

end Heap

end UriTemplate.Config
