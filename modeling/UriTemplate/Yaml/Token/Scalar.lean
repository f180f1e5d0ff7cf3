import UriTemplate.Yaml.Token

namespace UriTemplate.Yaml

def plainRun (flow : Bool) : Text → Text
  | [] => []
  | c :: rest =>
      let stops :=
        isBlank c || isBreak c ||
        (c = .char ':' && (endsWord rest ||
          (flow && (rest.head?.any (· ∈ Text.of ",[]\x7b\x7d"))))) ||
        (flow && c ∈ Text.of ",?[]\x7b\x7d")
      if stops then [] else c :: plainRun flow rest

def plainBreaks : Text → Text × Text × Bool
  | [] => ([], [], false)
  | c :: rest =>
      if c = .char ' ' then plainBreaks rest
      else if isBreak c then
        if isAnyMark rest then ([breakText c], rest, true)
        else
          let (bs, rest, mark) := plainBreaks rest
          (breakText c :: bs, rest, mark)
      else ([], c :: rest, false)

/-- What the gap in front of more plain text reads as, the cursor behind it, and whether a line
ended in it. The gap reads as nothing where the scalar ends. -/
def plainGap (c : Cursor) : Text × Cursor × Bool :=
  let spaces := c.rest.takeWhile (· = .char ' ')
  let c := c.skip spaces.length
  match c.rest with
  | x :: rest =>
      if isBreak x then
        if isAnyMark rest then ([], c.skip 1, true)
        else
          let (breaks, rest, mark) := plainBreaks rest
          let c := c.moveTo rest
          if mark then ([], c, true)
          else
            let first := if breakText x ≠ .char '\n' then [breakText x]
              else if breaks = [] then [.char ' '] else []
            (first ++ breaks, c, true)
      else (spaces, c, false)
  | [] => (spaces, c, false)

def plainText (flow : Bool) (indent : Int) (gap : Text) (lineEnded : Bool) :
    Nat → Cursor → Text × Cursor × Bool
  | 0, c => ([], c, lineEnded)
  | fuel + 1, c =>
      let run := if c.rest.head? = some (.char '#') then [] else plainRun flow c.rest
      if run = [] then ([], c, lineEnded)
      else
        let (next, c, ended) := plainGap (c.skip run.length)
        if next = [] || c.rest.head? = some (.char '#') || (!flow && c.column < indent) then
          (gap ++ run, c, ended)
        else
          let (more, c, ended) := plainText flow indent next ended fuel c
          (gap ++ run ++ more, c, ended)

def quotedBreaks : Nat → Text → Except Fault (Text × Text)
  | 0, s => .ok ([], s)
  | fuel + 1, s =>
      if isAnyMark s then .error .malformed
      else match s.dropWhile isBlank with
        | [] => .ok ([], [])
        | c :: rest =>
            if isBreak c then
              (quotedBreaks fuel rest).map fun (bs, rest) => (breakText c :: bs, rest)
            else .ok ([], c :: rest)

def simpleEscape? : CodePoint → Option CodePoint
  | .char '0' => some (.char '\x00')
  | .char 'a' => some (.char '\x07')
  | .char 'b' => some (.char '\x08')
  | .char 't' | .char '\t' => some (.char '\t')
  | .char 'n' => some (.char '\n')
  | .char 'v' => some (.char '\x0b')
  | .char 'f' => some (.char '\x0c')
  | .char 'r' => some (.char '\r')
  | .char 'e' => some (.char '\x1b')
  | .char ' ' => some (.char ' ')
  | .char '"' => some (.char '"')
  | .char '\\' => some (.char '\\')
  | .char '/' => some (.char '/')
  | .char 'N' => some (.char '\x85')
  | .char '_' => some (.char '\xa0')
  | .char 'L' => some (.char '\u2028')
  | .char 'P' => some (.char '\u2029')
  | _ => none

def escapeWidth? : CodePoint → Option Nat
  | .char 'x' => some 2
  | .char 'u' => some 4
  | .char 'U' => some 8
  | _ => none

def hexEscape (width : Nat) (s : Text) : Except Fault (CodePoint × Text) :=
  let digits := s.take width
  if digits.length = width && digits.all Text.isHexDigit then
    let n := digits.foldl (fun n c => 16 * n + Text.hexDigitValue c) 0
    if n < 0x110000 then .ok (.ofNat n, s.drop width)
    else if 0x80000000 ≤ n then .error .tooLarge
    else .error (.impossible (Text.of "chr() arg not in range(0x110000)"))
  else .error .malformed

def quotedText (double : Bool) : Nat → Text → Except Fault (Text × Text)
  | 0, _ => .error .malformed
  | _, [] => .error .malformed
  | fuel + 1, c :: rest =>
      let go (front : Text) (rest : Text) : Except Fault (Text × Text) :=
        (quotedText double fuel rest).map fun (t, rest) => (front ++ t, rest)
      if isBlank c || isBreak c then
        let spaces := (c :: rest).takeWhile isBlank
        match (c :: rest).dropWhile isBlank with
        | [] => .error .malformed
        | x :: rest =>
            if isBreak x then do
              let (breaks, rest) ← quotedBreaks fuel rest
              let first := if breakText x ≠ .char '\n' then [breakText x]
                else if breaks = [] then [.char ' '] else []
              go (first ++ breaks) rest
            else go spaces (x :: rest)
      else if double then
        if c = .char '"' then .ok ([], rest)
        else if c = .char '\\' then match rest with
          | [] => .error .malformed
          | e :: rest =>
              if isBreak e then do
                let (breaks, rest) ← quotedBreaks fuel rest
                go breaks rest
              else match simpleEscape? e, escapeWidth? e with
                | some x, _ => go [x] rest
                | none, some width => do
                    let (x, rest) ← hexEscape width rest
                    go [x] rest
                | none, none => .error .malformed
        else go [c] rest
      else if c = .char '\x27' then match rest with
        | .char '\x27' :: rest => go [.char '\x27'] rest
        | _ => .ok ([], rest)
      else go [c] rest

end UriTemplate.Yaml
