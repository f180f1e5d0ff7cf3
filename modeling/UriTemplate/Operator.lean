import UriTemplate.Text

namespace UriTemplate

inductive Operator where
  | simple
  | reserved
  | fragment
  | label
  | path
  | pathParameter
  | query
  | continuation
  deriving DecidableEq, Repr

namespace Operator

def all : List Operator :=
  [simple, reserved, fragment, label, path, pathParameter, query, continuation]

def symbol? : Operator → Option CodePoint
  | simple => none
  | reserved => some (.char '+')
  | fragment => some (.char '#')
  | label => some (.char '.')
  | path => some (.char '/')
  | pathParameter => some (.char ';')
  | query => some (.char '?')
  | continuation => some (.char '&')

def text (o : Operator) : Text := o.symbol?.toList

def ofSymbol? : CodePoint → Option Operator
  | .char '+' => some reserved
  | .char '#' => some fragment
  | .char '.' => some label
  | .char '/' => some path
  | .char ';' => some pathParameter
  | .char '?' => some query
  | .char '&' => some continuation
  | _ => none

def ofText? : Text → Option Operator
  | [c] => ofSymbol? c
  | _ => none

def opening : Operator → Text
  | reserved => []
  | o => o.text

def separator : Operator → CodePoint
  | simple | reserved | fragment => .char ','
  | label => .char '.'
  | path => .char '/'
  | pathParameter => .char ';'
  | query | continuation => .char '&'

def itemSeparator (o : Operator) : CodePoint := o.symbol?.getD (.char ',')

def isNamed : Operator → Bool
  | pathParameter | query | continuation => true
  | _ => false

def keepsReserved : Operator → Bool
  | simple | query | continuation => false
  | _ => true

theorem ofSymbol?_eq_some_iff {c : CodePoint} {o : Operator} :
    ofSymbol? c = some o ↔ o.symbol? = some c := by
  constructor
  · intro h
    unfold ofSymbol? at h
    split at h <;> simp_all [symbol?] <;> subst h <;> rfl
  · cases o <;> simp [symbol?] <;> rintro rfl <;> rfl

end Operator

end UriTemplate
