import UriTemplate.Command.Arguments
import UriTemplate.Path
import UriTemplate.Table

namespace UriTemplate

namespace Text

def escapeChar : CodePoint := .char '\x1b'

def isParameter (c : CodePoint) : Bool := c.isDigit || c = .char ';' || c = .char '?'

/-- The text without the sequences that set colours: an escape character, a bracket, parameters, and
a letter. `front` is one that has begun and not ended. It stays if it never ends. -/
def dropSequences (front : Text) : Text → Text
  | [] => front
  | c :: s =>
      if c = escapeChar then front ++ dropSequences [c] s
      else if front = [] then c :: dropSequences [] s
      else if front = [escapeChar] then
        if c = .char '[' then dropSequences [escapeChar, c] s else front ++ c :: dropSequences [] s
      else if isParameter c then dropSequences (front ++ [c]) s
      else if c.isAlpha then dropSequences [] s
      else front ++ c :: dropSequences [] s

def withoutSequences (t : Text) : Text := dropSequences [] t

end Text

def Accident.message : Accident → Text
  | system .nameTooLong => Text.of "File name too long"
  | system .denied => Text.of "Permission denied"
  | system .isDirectory => Text.of "Is a directory"
  | system (.other n) => Text.of "Errno " ++ Text.ofNat n
  | undecodable => Text.of "invalid octets"
  | unencodable text => Error.unencodableMessage text
  | badValue message => message
  | tooLarge => Text.of "Number too large"
  | missingKey => Text.of "no such key"
  | missingAttribute => Text.of "no such attribute"
  | missingIndex => Text.of "no such index"
  | tooDeep => Text.of "maximum recursion depth exceeded"
  | other message => message

namespace Command

/-- What a command gets from the machine and from the libraries that it calls: the directory it is
run in, whether something exists at a path and what value a file holds, the code points that its
output can take, and what a table looks like with a line below it. -/
structure World where
  directory : Except OsError Path
  exists? : Text → Except OsError Bool
  load : Text → Except LoadFault Value
  writes : CodePoint → Bool
  draw : Table → Text → Text

inductive Failure where
  | library (e : Error)
  | noConfig
  | missingFile (path : Text)
  | invalidConfig (path : Text)
  deriving DecidableEq, Repr

def Failure.message : Failure → Text
  | library e => e.message
  | noConfig => Text.of "No qwuri.yaml found in current directory or parents."
  | missingFile path => Text.of "File not found: " ++ path
  | invalidConfig path => Text.of "Invalid config " ++ path

inductive Outcome where
  | printed (text : Text)
  | help
  | misused (fault : UsageFault)
  | failed (failure : Failure)
  | escaped (accident : Accident)
  deriving DecidableEq, Repr

def line (t : Text) : Text := t.withoutSequences ++ [.char '\n']

def reportLine (foreseen : Bool) (message : Text) : Text :=
  line (Text.of (if foreseen then "Error: " else "Unexpected error: ") ++ message)

namespace Outcome

def exitCode : Outcome → Nat
  | printed _ | help => 0
  | failed _ | escaped _ => 1
  | misused _ => 2

def ofError : Error → Outcome
  | .tooManyDigits => escaped (.badValue Error.tooManyDigits.message)
  | .unknownOperator shown => escaped (.badValue (Error.unknownOperator shown).message)
  | .unencodable t => escaped (.unencodable t)
  | e => failed (.library e)

end Outcome

namespace World

def print (w : World) (t : Text) : Outcome :=
  if t.all w.writes then .printed t else .escaped (.unencodable t)

def conclude (w : World) : Except Error Text → Outcome
  | .ok t => w.print (line t)
  | .error e => .ofError e

end World

end Command

end UriTemplate
