import UriTemplate.Error

namespace UriTemplate

/-- The names that lead to a place in a tree of files, the innermost first. The parent of a place
is the tail, and the root is `[]`. -/
abbrev Path := List Text

namespace Path

def parentName : Text := Text.of ".."

structure Written where
  anchor : Text
  names : List Text
  deriving DecidableEq, Repr

def Written.ofText (t : Text) : Written :=
  let slashes := (t.takeWhile (· = .char '/')).length
  -- Exactly two slashes in front are kept.
  ⟨if slashes = 0 then [] else if slashes = 2 then Text.of "//" else Text.of "/",
    (Text.pieces (.char '/') t).filter fun s => s ≠ [] && s ≠ Text.of "."⟩

def Written.text (w : Written) : Text :=
  if w.anchor = [] && w.names = [] then Text.of "."
  else w.anchor ++ Text.joined (.char '/') w.names

def Written.within (base : Path) (w : Written) : Path :=
  w.names.reverse ++ if w.anchor = [] then base else []

def normalized : Path → Path
  | [] => []
  | name :: up => if name = parentName then (normalized up).tail else name :: normalized up

def text (p : Path) : Text := .char '/' :: Text.joined (.char '/') p.reverse

def configName : Text := Text.of "qwuri.yaml"

def candidates : Path → List Path
  | [] => [[configName]]
  | name :: up => (configName :: name :: up) :: candidates up

def first (exists? : Path → Except OsError Bool) : List Path → Except OsError (Option Path)
  | [] => .ok none
  | p :: ps => do if ← exists? p then return some p else first exists? ps

def findConfig (exists? : Path → Except OsError Bool) (start : Path) :
    Except OsError (Option Path) :=
  first exists? (candidates start)

end Path

end UriTemplate
