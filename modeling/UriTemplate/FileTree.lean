import UriTemplate.Command.Outcome
import UriTemplate.Yaml.Document

namespace UriTemplate

inductive FileTree.Entry where
  | file (text : Text)
  | directory
  deriving DecidableEq, Repr

inductive FileTree.Absence where
  | missing
  | tooLong
  deriving DecidableEq, Repr

/-- Directories, and files that can be read. Parents of what is there are there too. -/
structure FileTree where
  entries : List (Path × FileTree.Entry)

namespace FileTree

def isLongName (name : Text) : Bool := 255 < name.octetCount

def isLongPath (t : Text) : Bool := 4095 < t.octetCount

/-- A null character ends a path, and of surrogates only those stand for an octet that are made of
one that is no ASCII. -/
def isForbidden : CodePoint → Bool
  | .char c => c = '\x00'
  | .surrogate i => i < 0x480 || 0x4ff < i.val

def at? (t : FileTree) (p : Path) : Option Entry :=
  match t.entries.lookup p with
  | some e => some e
  | none =>
      if p = [] || t.entries.any fun e => p.isSuffixOf e.1 then some .directory else none

def resolve (t : FileTree) : Path → Except Absence Path
  | [] => .ok []
  | name :: up => do
      let p ← t.resolve up
      if t.at? p = some .directory then
        if isLongName name then .error .tooLong
        else if name = Path.parentName then .ok p.tail
        else .ok (name :: p)
      else .error .missing

def entry (t : FileTree) (p : Path) : Except Absence Entry := do
  match t.at? (← t.resolve p) with
  | some e => .ok e
  | none => .error .missing

def look (t : FileTree) (base : Path) (path : Text) : Except Absence Entry :=
  if path.any isForbidden then .error .missing
  else if isLongPath path then .error .tooLong
  else t.entry ((Path.Written.ofText path).within base)

def exists? (t : FileTree) (base : Path) (path : Text) : Except OsError Bool :=
  match t.look base path with
  | .ok _ => .ok true
  | .error .missing => .ok false
  | .error .tooLong => .error .nameTooLong

def load (t : FileTree) (base : Path) (path : Text) : Except LoadFault Value :=
  match t.look base path with
  | .ok (.file text) => Yaml.load text
  | .ok .directory => .error (.accident (.system .isDirectory))
  | .error .missing => .error (.accident (.system (.other 2)))
  | .error .tooLong => .error (.accident (.system .nameTooLong))

def world (t : FileTree) (directory : Path) : Command.World where
  directory := .ok directory
  exists? := t.exists? directory
  load := t.load directory
  writes c := c.char?.isSome
  draw := Table.draw

end FileTree

end UriTemplate
