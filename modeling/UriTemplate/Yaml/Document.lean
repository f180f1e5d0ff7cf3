import UriTemplate.Error
import UriTemplate.Value.Dict
import UriTemplate.Yaml.Node
import UriTemplate.Yaml.Plain
import UriTemplate.Yaml.Token.Lexer

namespace UriTemplate.Yaml

namespace Node

def isMergeKey : Node → Bool
  | scalar text plain => plain && text = Text.of "<<"
  | _ => false

def settled? : Node → Option (List (Node × Node))
  | map entries => if entries.any (isMergeKey ·.1) then none else some entries
  | _ => none

def borrowed? : Node → Option (List (Node × Node))
  | list items => (items.mapM settled?).map fun xs => xs.reverse.flatten
  | n => settled? n

/-- Entries in which nothing is left to merge. A key that cannot be merged comes first. -/
def mergeEntries (entries : List (Node × Node)) : List (Node × Node) :=
  let (merges, own) := entries.partition (isMergeKey ·.1)
  match merges.mapM (borrowed? ·.2) with
  | some xs => xs.flatten ++ own
  | none => merges ++ own

mutual

def merged : Node → Node
  | scalar text plain => scalar text plain
  | list items => list (mergedItems items)
  | map entries => map (mergeEntries (mergedValues entries))

def mergedItems : List Node → List Node
  | [] => []
  | x :: xs => merged x :: mergedItems xs

def mergedValues : List (Node × Node) → List (Node × Node)
  | [] => []
  | (k, v) :: rest => (k, merged v) :: mergedValues rest

end

end Node

/-- A result, or a fault with its nesting depth. Of two faults the shallower one is told, and the
earlier one of the same depth. -/
abbrev Found (α : Type) := Except (Nat × Fault) α

def Found.both {α β γ : Type} (f : α → β → γ) : Found α → Found β → Found γ
  | .ok a, .ok b => .ok (f a b)
  | .ok _, .error e => .error e
  | .error e, .ok _ => .error e
  | .error d, .error e => if d.1 ≤ e.1 then .error d else .error e

namespace Node

def scalarValue (text : Text) (plain : Bool) : Except Fault Value :=
  if plain then plainValue text else .ok (.string text)

def sameKey : Value → Value → Bool
  | .scalar (.float .nan), .scalar (.float .nan) => true
  | a, b => a.sameKey b

def keyValue (depth : Nat) : Node → Found Value
  | scalar text plain =>
      (scalarValue text (plain && text ≠ [.char '='])).mapError (depth, ·)
  | list _ | map _ => .error (depth, .malformed)

mutual

def value (depth : Nat) : Node → Found Value
  | scalar text plain => (scalarValue text plain).mapError (depth, ·)
  | list items => (values (depth + 1) items).map .list
  | map entries => (pairs (depth + 1) entries).map fun xs => .dict (Dict.ofList sameKey xs)

def values (depth : Nat) : List Node → Found (List Value)
  | [] => .ok []
  | x :: xs => .both List.cons (value depth x) (values depth xs)

def pairs (depth : Nat) : List (Node × Node) → Found (List (Value × Value))
  | [] => .ok []
  | (k, v) :: rest =>
      .both List.cons (.both Prod.mk (keyValue depth k) (value depth v)) (pairs depth rest)

end

end Node

def read (s : Text) : Except Fault Value := do
  let node ← Node.ofTokens (tokens s)
  (node.merged.value 0).mapError Prod.snd

def Fault.toLoadFault : Fault → LoadFault
  | malformed => .malformed
  | impossible why => .accident (.badValue why)
  | tooLarge => .accident .tooLarge

def load (s : Text) : Except LoadFault Value := (read s).mapError Fault.toLoadFault

end UriTemplate.Yaml
