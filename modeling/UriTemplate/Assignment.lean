import UriTemplate.Bindings
import UriTemplate.Text.Quoted
import UriTemplate.Value

namespace UriTemplate.Assignment

structure Malformed where
  option : Text
  deriving DecidableEq, Repr

def Malformed.message (m : Malformed) : Text :=
  Text.of "expected name=value, got " ++ Text.quoted m.option

def split (option : Text) : Except Malformed (Text × Text) :=
  match option.takeWhile (· ≠ .char '='), option.dropWhile (· ≠ .char '=') with
  | n :: name, _ :: value => .ok (n :: name, value)
  | _, _ => .error ⟨option⟩

inductive Given where
  | once (value : Text)
  | repeated (values : List Text)
  deriving DecidableEq, Repr

namespace Given

def texts : Given → List Text
  | once t => [t]
  | repeated ts => ts

def add (g : Given) (t : Text) : Given := .repeated (g.texts ++ [t])

def value : Given → Value
  | once t => .string t
  | repeated ts => .list (ts.map .string)

end Given

def add (m : Bindings Given) (name value : Text) : Bindings Given :=
  m.insert name (match m.get? name with
    | some g => g.add value
    | none => .once value)

def groupInto (m : Bindings Given) : List Text → Except Malformed (Bindings Given)
  | [] => .ok m
  | option :: rest => match split option with
      | .ok (name, value) => groupInto (add m name value) rest
      | .error e => .error e

def group (options : List Text) : Except Malformed (Bindings Given) :=
  groupInto .empty options

def values (options : List Text) : Except Malformed (Bindings Value) :=
  (group options).map (Bindings.map Given.value)

end UriTemplate.Assignment
