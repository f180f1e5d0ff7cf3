import UriTemplate.Yaml.Token

namespace UriTemplate.Yaml

inductive Node where
  | scalar (text : Text) (plain : Bool)
  | list (items : List Node)
  | map (entries : List (Node × Node))

namespace Node

def absent : Node := .scalar [] true

abbrev Reader (α : Type) := List Token → Except Fault (α × List Token)

def refuse {α : Type} : List Token → Except Fault α
  | .broken fault :: _ => .error fault
  | _ => .error .malformed

def optional (stop : List Token) (read : Reader Node) : Reader Node := fun ts =>
  if ts.head?.all (· ∈ stop) then .ok (absent, ts) else read ts

def entryValue (stop : List Token) (read : Reader Node) : Reader Node
  | .value :: ts => optional stop read ts
  | ts => .ok (absent, ts)

def entry (stop : List Token) (read : Reader Node) : Reader (Node × Node) := fun ts => do
  let (k, ts) ← optional (.value :: stop) read ts
  let (v, ts) ← entryValue stop read ts
  return ((k, v), ts)

def pastComma (first : Bool) (close : Token) : Reader Unit
  | t :: ts =>
      if first || t = close then .ok ((), t :: ts)
      else if t = .comma then .ok ((), ts) else refuse (t :: ts)
  | [] => refuse []

mutual

/-- `block` admits indented collections, `indentless` a list at the indentation of its key. -/
def read (block indentless : Bool) : Nat → Reader Node
  | 0, _ => .error .malformed
  | fuel + 1, ts => match ts with
      | .scalar t plain :: ts => .ok (.scalar t plain, ts)
      | .item :: _ =>
          if indentless then
            (readItems [.key, .value] false fuel ts).map fun (xs, ts) => (.list xs, ts)
          else refuse ts
      | .listOpen :: ts => (readFlowList true fuel ts).map fun (xs, ts) => (.list xs, ts)
      | .mapOpen :: ts => (readFlowMap true fuel ts).map fun (xs, ts) => (.map xs, ts)
      | .blockList :: ts =>
          if block then (readItems [] true fuel ts).map fun (xs, ts) => (.list xs, ts)
          else .error .malformed
      | .blockMap :: ts =>
          if block then (readEntries fuel ts).map fun (xs, ts) => (.map xs, ts)
          else .error .malformed
      | ts => refuse ts

def readItems (stop : List Token) (closed : Bool) : Nat → Reader (List Node)
  | 0, _ => .error .malformed
  | fuel + 1, ts => match ts with
      | .item :: ts => do
          let (x, ts) ← optional (.item :: .blockEnd :: stop) (read true false fuel) ts
          let (xs, ts) ← readItems stop closed fuel ts
          return (x :: xs, ts)
      | ts =>
          if closed then match ts with
            | .blockEnd :: ts => .ok ([], ts)
            | ts => refuse ts
          else .ok ([], ts)

def readEntries : Nat → Reader (List (Node × Node))
  | 0, _ => .error .malformed
  | fuel + 1, ts => match ts with
      | .key :: ts => do
          let (x, ts) ← entry [.key, .value, .blockEnd] (read true true fuel) ts
          let (xs, ts) ← readEntries fuel ts
          return (x :: xs, ts)
      | .blockEnd :: ts => .ok ([], ts)
      | ts => refuse ts

def readFlowList (first : Bool) : Nat → Reader (List Node)
  | 0, _ => .error .malformed
  | fuel + 1, ts => do
      let ((), ts) ← pastComma first .listClose ts
      match ts with
      | .listClose :: ts => return ([], ts)
      | .key :: ts =>
          let (x, ts) ← entry [.comma, .listClose] (read false false fuel) ts
          let (xs, ts) ← readFlowList false fuel ts
          return (.map [x] :: xs, ts)
      | ts =>
          let (x, ts) ← read false false fuel ts
          let (xs, ts) ← readFlowList false fuel ts
          return (x :: xs, ts)

def readFlowMap (first : Bool) : Nat → Reader (List (Node × Node))
  | 0, _ => .error .malformed
  | fuel + 1, ts => do
      let ((), ts) ← pastComma first .mapClose ts
      match ts with
      | .mapClose :: ts => return ([], ts)
      | .key :: ts =>
          let (x, ts) ← entry [.comma, .mapClose] (read false false fuel) ts
          let (xs, ts) ← readFlowMap false fuel ts
          return (x :: xs, ts)
      | ts =>
          let (k, ts) ← read false false fuel ts
          let (xs, ts) ← readFlowMap false fuel ts
          return ((k, absent) :: xs, ts)

end

def ofTokens (ts : List Token) : Except Fault Node := do
  -- No token takes more than two steps to read.
  let document := read true false (2 * ts.length + 2)
  let (n, rest) ← match ts with
    | .documentStart :: ts => optional [.documentStart, .documentEnd] document ts
    | ts => optional [] document ts
  match rest.dropWhile (· = .documentEnd) with
  | [] => return n
  | rest => refuse rest

end Node

end UriTemplate.Yaml
