import UriTemplate.Text

namespace UriTemplate.Yaml

/-- Why a text yields no value: it is not written in the format, a scalar denotes nothing, or it
denotes a number that is too large to count with. -/
inductive Fault where
  | malformed
  | impossible (why : Text)
  | tooLarge
  deriving DecidableEq, Repr

/-- A `reference` leads to nothing, as no content can be named. Where a text can be read no
further, its tokens end with a `broken` one. -/
inductive Token where
  | documentStart
  | documentEnd
  | blockList
  | blockMap
  | blockEnd
  | listOpen
  | listClose
  | mapOpen
  | mapClose
  | comma
  | item
  | key
  | value
  | scalar (text : Text) (plain : Bool)
  | reference
  | broken (fault : Fault)
  deriving DecidableEq, Repr

def isBlank (c : CodePoint) : Bool := c = .char ' ' || c = .char '\t'

def isBreak (c : CodePoint) : Bool := c ∈ Text.of "\n\r\x85\u2028\u2029"

def breakText (c : CodePoint) : CodePoint :=
  if c = .char '\u2028' || c = .char '\u2029' then c else .char '\n'

def isAllowed (c : CodePoint) : Bool :=
  let n := c.toNat
  n = 9 || n = 10 || n = 13 || (32 ≤ n && n ≤ 126) || n = 0x85 || (0xa0 ≤ n && n ≤ 0xd7ff) ||
    (0xe000 ≤ n && n ≤ 0xfffd) || 0x10000 ≤ n

def endsWord : Text → Bool
  | [] => true
  | c :: _ => isBlank c || isBreak c

def isMark (c : CodePoint) : Text → Bool
  | a :: b :: d :: rest => a = c && b = c && d = c && endsWord rest
  | _ => false

def isAnyMark (s : Text) : Bool := isMark (.char '-') s || isMark (.char '.') s

structure Cursor where
  rest : Text
  index : Nat
  line : Nat
  column : Nat

namespace Cursor

def byteOrderMark : CodePoint := .char '\ufeff'

def skip : Nat → Cursor → Cursor
  | 0, c => c
  | n + 1, c => match c.rest with
      | [] => c
      | x :: rest =>
          if isBreak x then skip n ⟨rest, c.index + 1, c.line + 1, 0⟩
          else skip n ⟨rest, c.index + 1, c.line,
            if x = byteOrderMark then c.column else c.column + 1⟩

def moveTo (rest : Text) (c : Cursor) : Cursor := c.skip (c.rest.length - rest.length)

end Cursor

end UriTemplate.Yaml
