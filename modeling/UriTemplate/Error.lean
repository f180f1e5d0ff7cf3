import UriTemplate.Part.Parser
import UriTemplate.Text.Quoted

namespace UriTemplate

def Reason.text : Reason → Text
  | .unterminated => Text.of "unterminated expression"
  | .unexpected c => Text.of "unexpected character " ++ Text.quoted [c] ++ Text.of " in expression"
  | .missingName => Text.of "expected variable name"
  | .trailingDot => Text.of "variable name cannot end with '.'"
  | .malformedPercent => Text.of "malformed percent-encoding in variable name"
  | .secondModifier name => Text.of "variable '" ++ name ++ Text.of "' has more than one modifier"
  | .missingLength => Text.of "prefix modifier requires a length"
  | .lengthTooLong => Text.of "prefix length too long"
  | .lengthNotPositive => Text.of "prefix length must be positive"

inductive Error where
  | noTemplate
  | invalidTemplate (template : Text) (fault : ParseError)
  | unsupportedValue (name : Text) (kind : Value.Kind)
  | foreignPart (kind : Value.Kind)
  | unknownTemplate (name : Text)
  | tooManyDigits
  | unencodable (text : Text)
  | unknownOperator (shown : Text)
  deriving DecidableEq, Repr

namespace Error

def invalidTemplateMessage (shown position reason : Text) : Text :=
  Text.of "Invalid template " ++ shown ++ Text.of " at position " ++ position ++
    Text.of ": " ++ reason

def unencodableMessage (t : Text) : Text :=
  let front := t.takeWhile fun c => c.char?.isSome
  let run := (t.drop front.length).takeWhile fun c => c.char?.isNone
  Text.of "'utf-8' codec can't encode character" ++
    (match run with
      | [c] => .char ' ' :: Text.quoted [c] ++ Text.of " in position " ++ Text.ofNat front.length
      | _ => Text.of "s in position " ++ Text.ofNat front.length ++
          .char '-' :: Text.ofNat (front.length + run.length - 1)) ++
    Text.of ": surrogates not allowed"

def message : Error → Text
  | noTemplate => Text.of "Template is not defined"
  | invalidTemplate template fault =>
      invalidTemplateMessage (Text.quoted template) (Text.ofNat fault.position) fault.reason.text
  | unsupportedValue name kind =>
      Text.of "Unsupported value for variable '" ++ name ++ Text.of "': " ++ Text.of kind.label
  | foreignPart kind =>
      Text.of "Unexpected object of type " ++ Text.of kind.label ++
        Text.of " found in parsed template"
  | unknownTemplate name => Text.of "Template not found: " ++ name
  | tooManyDigits =>
      Text.of "Exceeds the limit (4300 digits) for integer string conversion; " ++
        Text.of "use sys.set_int_max_str_digits() to increase the limit"
  | unencodable text => unencodableMessage text
  | unknownOperator shown => shown ++ Text.of " is not a valid Operator"

/-- Whether the error is one of the library's own, which a command reports. The others concern
single values and escape. -/
def isReported : Error → Bool
  | tooManyDigits | unencodable _ | unknownOperator _ => false
  | _ => true

end Error

/-- Errors of the system, save those by which nothing is there. -/
inductive OsError where
  | nameTooLong
  | denied
  | isDirectory
  | other (number : Nat)
  deriving DecidableEq, Repr

inductive Accident where
  | system (e : OsError)
  | undecodable
  | unencodable (text : Text)
  | badValue (message : Text)
  | tooLarge
  | missingKey
  | missingAttribute
  | missingIndex
  | tooDeep
  | other (message : Text)
  deriving DecidableEq, Repr

/-- How a file fails to give a value. Only one that is not written in the format is expected. -/
inductive LoadFault where
  | malformed
  | accident (a : Accident)
  deriving DecidableEq, Repr

def Text.encodable (t : Text) : Except Error (List Char) :=
  match t.characters? with
  | some cs => .ok cs
  | none => .error (.unencodable t)

theorem Text.encodable_of_none {t : Text} (h : t.characters? = none) :
    t.encodable = .error (.unencodable t) := by
  rw [encodable, h]

@[simp] theorem Text.encodable_ofChars (cs : List Char) : (ofChars cs).encodable = .ok cs := by
  rw [encodable, characters?_ofChars]

theorem Text.encodable_eq_ok_iff {t : Text} {cs : List Char} :
    t.encodable = .ok cs ↔ t = ofChars cs := by
  rw [← characters?_eq_some_iff, encodable]
  cases characters? t <;> simp

end UriTemplate
