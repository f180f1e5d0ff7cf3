import UriTemplate.Yaml.Token.Scalar

namespace UriTemplate.Yaml

/-- Whether a scalar or a flow collection is a key shows only at the colon after it, so its place
among the tokens is kept open until then. -/
structure Candidate where
  place : Nat
  depth : Nat
  required : Bool
  index : Nat
  line : Nat
  column : Nat

/-- `depth` counts the flow collections around the cursor. Of the `count` places the last one comes
first, and an open place holds no tokens. A text that is `cut` goes on, but cannot be read. -/
structure Lexer where
  cut : Bool
  cursor : Cursor
  depth : Nat
  indent : Int
  indents : List Int
  keyAllowed : Bool
  candidates : List Candidate
  count : Nat
  places : List (List Token)

namespace Lexer

def ofText (cut : Bool) (s : Text) : Lexer := ⟨cut, ⟨s, 0, 0, 0⟩, 0, -1, [], true, [], 0, []⟩

def push (ts : List Token) (l : Lexer) : Lexer :=
  { l with count := l.count + 1, places := ts :: l.places }

def emit (t : Token) (l : Lexer) : Lexer := l.push [t]

def allowKey (b : Bool) (l : Lexer) : Lexer := { l with keyAllowed := b }

def skip (n : Nat) (l : Lexer) : Lexer := { l with cursor := l.cursor.skip n }

def toToken : Nat → Lexer → Lexer
  | 0, l => l
  | fuel + 1, l => match l.cursor.rest with
      | c :: rest =>
          if c = .char ' ' || (c = Cursor.byteOrderMark && l.cursor.index = 0) then
            toToken fuel (l.skip 1)
          else if c = .char '#' then
            toToken fuel (l.skip ((c :: rest).takeWhile fun x => !isBreak x).length)
          else if isBreak c then
            let l := l.skip 1
            toToken fuel (if l.depth = 0 then l.allowKey true else l)
          else l
      | [] => l

def isStale (l : Lexer) (k : Candidate) : Bool :=
  k.line ≠ l.cursor.line || 1024 < l.cursor.index - k.index

def dropStale (l : Lexer) : Except Fault Lexer :=
  if l.candidates.any fun k => l.isStale k && k.required then .error .malformed
  else .ok { l with candidates := l.candidates.filter fun k => !l.isStale k }

def dropCandidate (l : Lexer) : Except Fault Lexer :=
  if l.candidates.any fun k => k.depth = l.depth && k.required then .error .malformed
  else .ok { l with candidates := l.candidates.filter fun k => k.depth ≠ l.depth }

def addCandidate (l : Lexer) : Except Fault Lexer :=
  if l.keyAllowed then do
    let l ← l.dropCandidate
    let c := l.cursor
    let k : Candidate :=
      ⟨l.count, l.depth, l.depth = 0 && l.indent = c.column, c.index, c.line, c.column⟩
    return { l with candidates := k :: l.candidates }.push []
  else .ok l

def unwind (column : Int) (l : Lexer) : Lexer :=
  if l.depth = 0 then
    let closed := (l.indent :: l.indents).takeWhile (column < ·)
    match (l.indent :: l.indents).dropWhile (column < ·) with
    | i :: is => closed.foldl (fun l _ => l.emit .blockEnd) { l with indent := i, indents := is }
    | [] => l
  else l

def indentTo (column : Nat) (l : Lexer) : Lexer × Bool :=
  if l.indent < column then
    ({ l with indent := column, indents := l.indent :: l.indents }, true)
  else (l, false)

def openBlock (t : Token) (l : Lexer) : Except Fault Lexer :=
  if l.depth = 0 then
    if l.keyAllowed then
      let (l, opened) := l.indentTo l.cursor.column
      .ok (if opened then l.emit t else l)
    else .error .malformed
  else .ok l

def documentMark (t : Token) (l : Lexer) : Except Fault Lexer := do
  let l ← (l.unwind (-1)).dropCandidate
  return ((l.allowKey false).emit t).skip 3

def openFlow (t : Token) (l : Lexer) : Except Fault Lexer := do
  let l ← l.addCandidate
  return (({ l with depth := l.depth + 1 }.allowKey true).emit t).skip 1

def closeFlow (t : Token) (l : Lexer) : Except Fault Lexer := do
  let l ← l.dropCandidate
  if l.depth = 0 then .error .malformed
  else return (({ l with depth := l.depth - 1 }.allowKey false).emit t).skip 1

def comma (l : Lexer) : Except Fault Lexer := do
  let l ← (l.allowKey true).dropCandidate
  if l.depth = 0 then .error .malformed else return (l.emit .comma).skip 1

def item (l : Lexer) : Except Fault Lexer := do
  let l ← l.openBlock .blockList
  let l ← (l.allowKey true).dropCandidate
  return (l.emit .item).skip 1

def explicitKey (l : Lexer) : Except Fault Lexer := do
  let l ← l.openBlock .blockMap
  let l ← (l.allowKey (l.depth = 0)).dropCandidate
  return (l.emit .key).skip 1

def value (l : Lexer) : Except Fault Lexer := do
  match l.candidates.find? fun k => k.depth = l.depth with
  | some k =>
      let (l, opened) := if l.depth = 0 then l.indentTo k.column else (l, false)
      let found : List Token := if opened then [.blockMap, .key] else [.key]
      let l := { l with
        candidates := l.candidates.filter fun k => k.depth ≠ l.depth
        places := l.places.set (l.count - 1 - k.place) found }
      return ((l.allowKey false).emit .value).skip 1
  | none =>
      let l ← l.openBlock .blockMap
      let l ← (l.allowKey (l.depth = 0)).dropCandidate
      return (l.emit .value).skip 1

def quoted (fuel : Nat) (double : Bool) (l : Lexer) : Except Fault Lexer := do
  let l ← l.addCandidate
  let (t, rest) ← quotedText double fuel (l.cursor.rest.drop 1)
  return ({ l with cursor := l.cursor.moveTo rest }.allowKey false).emit (.scalar t false)

def plain (fuel : Nat) (l : Lexer) : Except Fault Lexer := do
  let l ← l.addCandidate
  let (t, cursor, ended) := plainText (l.depth ≠ 0) (l.indent + 1) [] false fuel l.cursor
  return ({ l with cursor := cursor }.allowKey ended).emit (.scalar t true)

def reference (l : Lexer) : Except Fault Lexer := do
  let l ← l.addCandidate
  let name := (l.cursor.rest.drop 1).takeWhile fun c =>
    c.isAlphanum || c = .char '-' || c = .char '_'
  let l := ((l.allowKey false).emit .reference).skip (name.length + 1)
  if name ≠ [] && (endsWord l.cursor.rest ||
      l.cursor.rest.head?.any (· ∈ Text.of "?:,]\x7d%@\x60")) then .ok l
  else .error .malformed

def startsPlain (flow : Bool) (c : CodePoint) (rest : Text) : Bool :=
  !(isBlank c || isBreak c ||
    c ∈ Text.of "-?:,[]\x7b\x7d#&*!|>'\"%@\x60") ||
  (!endsWord rest && (c = .char '-' || (!flow && (c = .char '?' || c = .char ':'))))

/-- Reads the token at the cursor, whose first character is `c`. Directives, anchors, tags and
block scalars are not supported. -/
def token (fuel : Nat) (c : CodePoint) (rest : Text) (l : Lexer) : Except Fault Lexer :=
  let flow := l.depth ≠ 0
  if l.cursor.column = 0 && isMark (.char '-') (c :: rest) then l.documentMark .documentStart
  else if l.cursor.column = 0 && isMark (.char '.') (c :: rest) then l.documentMark .documentEnd
  else if c = .char '[' then l.openFlow .listOpen
  else if c = .char '{' then l.openFlow .mapOpen
  else if c = .char ']' then l.closeFlow .listClose
  else if c = .char '}' then l.closeFlow .mapClose
  else if c = .char ',' then l.comma
  else if c = .char '-' && endsWord rest then l.item
  else if c = .char '?' && (flow || endsWord rest) then l.explicitKey
  else if c = .char ':' && (flow || endsWord rest) then l.value
  else if c = .char '*' then l.reference
  else if c = .char '\x27' then l.quoted fuel false
  else if c = .char '"' then l.quoted fuel true
  else if startsPlain flow c rest then l.plain fuel
  else .error .malformed

def step (fuel : Nat) (l : Lexer) : Except Fault (Lexer ⊕ List Token) := do
  -- One more than the length of what is left suffices as fuel.
  let l := l.toToken fuel
  let l ← l.dropStale
  let l := l.unwind l.cursor.column
  match l.cursor.rest with
  | c :: rest => return .inl (← l.token fuel c rest)
  | [] =>
      if l.cut then .error .malformed
      else
        let l ← (l.unwind (-1)).dropCandidate
        return .inr l.places.reverse.flatten

/-- The tokens that are certain at a fault, which are those in front of every open place. -/
def certain (fault : Fault) (l : Lexer) : List Token :=
  let firstOpen := ((l.candidates.filter fun k => !l.isStale k).map (·.place)).foldl min l.count
  (l.places.drop (l.count - firstOpen)).reverse.flatten ++ [.broken fault]

def run : Nat → Lexer → List Token
  | 0, l => l.certain .malformed
  | fuel + 1, l => match l.step (fuel + 1) with
      | .ok (.inl l) => run fuel l
      | .ok (.inr tokens) => tokens
      | .error fault => l.certain fault

end Lexer

def normalizeBreaks : Text → Text
  | .char '\r' :: .char '\n' :: rest => .char '\n' :: normalizeBreaks rest
  | .char '\r' :: rest => .char '\n' :: normalizeBreaks rest
  | c :: rest => c :: normalizeBreaks rest
  | [] => []

def blockSize : Nat := 4096

/-- How much of a text can be read. A block with a character that is not allowed cannot, and the
first two blocks count as one. -/
def readable (s : Text) : Nat :=
  let allowed := (s.takeWhile isAllowed).length
  if allowed = s.length then allowed
  else if allowed < 2 * blockSize then 0
  else allowed - allowed % blockSize

def tokens (s : Text) : List Token :=
  let s := normalizeBreaks s
  let n := readable s
  Lexer.run (n + 1) (.ofText (n ≠ s.length) (s.take n))

end UriTemplate.Yaml
