import UriTemplate.Command.Outcome
import UriTemplate.Value.Shown

namespace UriTemplate.Command

inductive Report where
  | noTemplate
  | invalidTemplate (template position reason : Value)
  | unsupportedValue (name value : Value)
  | foreignPart (part : Value)
  | unknownTemplate (name : Value)
  | foreseen (details : List Value)
  | unforeseen (details : List Value)

namespace Report

def isForeseen : Report → Bool
  | unforeseen _ => false
  | _ => true

def describe? : List Value → Option Text
  | [] => some []
  | [x] => x.plain?
  | xs => (Value.tuple xs).shown?

def message? : Report → Option Text
  | noTemplate => some Error.noTemplate.message
  | invalidTemplate template position reason => do
      return Error.invalidTemplateMessage (← template.shown?) (← position.plain?) (← reason.plain?)
  | unsupportedValue name value => do
      return (Error.unsupportedValue (← name.plain?) value.kind).message
  | foreignPart part => some (Error.foreignPart part.kind).message
  | unknownTemplate name => do return (Error.unknownTemplate (← name.plain?)).message
  | foreseen details | unforeseen details => describe? details

def line (r : Report) : Except Error Text :=
  match r.message? with
  | some t => .ok (reportLine r.isForeseen t)
  | none => .error .tooManyDigits

end Report

end UriTemplate.Command
