import UriTemplate.Config.Check

namespace UriTemplate.Config

inductive IsText : Value → Prop
  | string (t : Text) : IsText (.string t)
  | bytes (cs : List Char) : IsText (.bytes (cs.flatMap String.utf8EncodeChar))
  | byteArray (cs : List Char) : IsText (.byteArray (cs.flatMap String.utf8EncodeChar))

def IsOptionalText (v : Value) : Prop := v = .null ∨ IsText v

inductive IsDictionary (value : Value → Prop) : Value → Prop
  | mk {xs : Dict} : (∀ x ∈ xs, IsText x.1 ∧ value x.2) → IsDictionary value (.dict xs)

def IsField (fields : Dict) (name : String) (value : Value → Prop) : Prop :=
  ∀ v, fields.get? (Text.of name) = some v → value v

inductive IsEntry : Value → Prop
  | short (t : Text) : IsEntry (.string t)
  | full {fields : Dict} : fields.get? (Text.of "template") ≠ none →
      IsField fields "template" IsText → IsField fields "vars" (IsDictionary fun _ => True) →
      IsField fields "description" IsOptionalText → IsEntry (.dict fields)

inductive IsConfig : Value → Prop
  | mk {fields : Dict} : IsField fields "name" IsOptionalText →
      IsField fields "vars" (IsDictionary fun _ => True) →
      IsField fields "templates" (IsDictionary IsEntry) → IsConfig (.dict fields)

/-- Problems of a value at a place. Each has a position, and positions that are compared number by
number stand in reading order: fields by their rank, entries of a dictionary by their index, and a
key before its value. -/
abbrev Rule := List Place → Value → List Nat → Problem → Prop

namespace Rule

def any : Rule := fun _ _ _ _ => False

inductive text : Rule
  | notText {place : List Place} {v : Value} : (∀ t, v ≠ .string t) → (∀ bs, v ≠ .bytes bs) →
      (∀ bs, v ≠ .byteArray bs) → text place v [] ⟨place, .notText⟩
  | notUnicode {place : List Place} {v : Value} {bs : List UInt8} :
      v = .bytes bs ∨ v = .byteArray bs →
      (∀ cs : List Char, bs ≠ cs.flatMap String.utf8EncodeChar) →
      text place v [] ⟨place, .notUnicode⟩

def optionalText : Rule := fun place v p q => v ≠ .null ∧ text place v p q

inductive dictionary (value : Rule) : Rule
  | notDictionary {place : List Place} {v : Value} : (∀ xs, v ≠ .dict xs) →
      dictionary value place v [] ⟨place, .notDictionary⟩
  | key {place : List Place} {xs : Dict} {i : Nat} {x : Value × Value} {p : List Nat}
      {q : Problem} : xs[i]? = some x →
      text (place ++ [.ofKey x.1, .name (Text.of "[key]")]) x.1 p q →
      dictionary value place (.dict xs) (i :: 0 :: p) q
  | value {place : List Place} {xs : Dict} {i : Nat} {x : Value × Value} {p : List Nat}
      {q : Problem} : xs[i]? = some x → value (place ++ [.ofKey x.1]) x.2 p q →
      dictionary value place (.dict xs) (i :: 1 :: p) q

inductive field (name : String) (rank : Nat) (value : Rule) (place : List Place) (fields : Dict) :
    List Nat → Problem → Prop
  | mk {v : Value} {p : List Nat} {q : Problem} : fields.get? (Text.of name) = some v →
      value (place ++ [.name (Text.of name)]) v p q →
      field name rank value place fields (rank :: p) q

inductive entry : Rule
  | notEntry {place : List Place} {v : Value} : (∀ t, v ≠ .string t) →
      (∀ fields, v ≠ .dict fields) → entry place v [] ⟨place, .notEntry⟩
  | missing {place : List Place} {fields : Dict} : fields.get? (Text.of "template") = none →
      entry place (.dict fields) [0] ⟨place ++ [.name (Text.of "template")], .missing⟩
  | template {place : List Place} {fields : Dict} {p : List Nat} {q : Problem} :
      field "template" 0 text place fields p q → entry place (.dict fields) p q
  | vars {place : List Place} {fields : Dict} {p : List Nat} {q : Problem} :
      field "vars" 1 (dictionary any) place fields p q → entry place (.dict fields) p q
  | description {place : List Place} {fields : Dict} {p : List Nat} {q : Problem} :
      field "description" 2 optionalText place fields p q → entry place (.dict fields) p q

inductive config : Rule
  | notConfig {place : List Place} {v : Value} : (∀ fields, v ≠ .dict fields) →
      config place v [] ⟨place, .notConfig⟩
  | name {place : List Place} {fields : Dict} {p : List Nat} {q : Problem} :
      field "name" 0 optionalText place fields p q → config place (.dict fields) p q
  | vars {place : List Place} {fields : Dict} {p : List Nat} {q : Problem} :
      field "vars" 1 (dictionary any) place fields p q → config place (.dict fields) p q
  | templates {place : List Place} {fields : Dict} {p : List Nat} {q : Problem} :
      field "templates" 2 (dictionary entry) place fields p q → config place (.dict fields) p q

end Rule

/-- Every problem is in the list once, and they stand in the order of their positions. -/
def Lists (ps : List Problem) (broken : List Nat → Problem → Prop) : Prop :=
  ∃ marked : List (List Nat × Problem), marked.map Prod.snd = ps ∧
    (marked.Pairwise fun x y => x.1 < y.1) ∧ ∀ p q, (p, q) ∈ marked ↔ broken p q

end UriTemplate.Config

namespace UriTemplate.Config.Faults

def text (place : List Place) : Value → List Problem
  | .scalar (.string _) => []
  | .bytes bs | .byteArray bs =>
      if (Percent.ofOctets? bs).isSome then [] else [⟨place, .notUnicode⟩]
  | _ => [⟨place, .notText⟩]

def optionalText (place : List Place) : Value → List Problem
  | .null => []
  | v => text place v

def dictionary (place : List Place) (value : List Place → Value → List Problem) :
    Value → List Problem
  | .dict xs => xs.flatMap fun x =>
      text (place ++ [.ofKey x.1, .name (Text.of "[key]")]) x.1 ++ value (place ++ [.ofKey x.1]) x.2
  | _ => [⟨place, .notDictionary⟩]

def noFaults (_ : List Place) (_ : Value) : List Problem := []

def field (place : List Place) (name : String) (value : List Place → Value → List Problem)
    (fields : Dict) : List Problem :=
  (Dict.get? fields (Text.of name)).elim [] (value (place ++ [.name (Text.of name)]))

def required (place : List Place) (name : String) (fields : Dict) :
    List Problem :=
  if (Dict.get? fields (Text.of name)).isNone then
    [⟨place ++ [.name (Text.of name)], .missing⟩]
  else []

def bindings (place : List Place) : Value → List Problem := dictionary place noFaults

def entry (place : List Place) : Value → List Problem
  | .scalar (.string _) => []
  | .dict fields =>
      required place "template" fields ++ field place "template" text fields ++
        field place "vars" bindings fields ++ field place "description" optionalText fields
  | _ => [⟨place, .notEntry⟩]

def config : Value → List Problem
  | .dict fields =>
      field [] "name" optionalText fields ++ field [] "vars" bindings fields ++
        field [] "templates" (fun place => dictionary place entry) fields
  | _ => [⟨[], .notConfig⟩]

end UriTemplate.Config.Faults
