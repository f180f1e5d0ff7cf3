import UriTemplate.Config
import UriTemplate.Percent
import UriTemplate.Value.Shown

namespace UriTemplate.Config

inductive Place where
  | name (t : Text)
  | number (n : Int)
  deriving DecidableEq, Repr

inductive Complaint where
  | notText
  | notUnicode
  | missing
  | notDictionary
  | notConfig
  | notEntry
  deriving DecidableEq, Repr

structure Problem where
  location : List Place
  complaint : Complaint
  deriving DecidableEq, Repr

namespace Complaint

def code : Complaint → String
  | notText => "string_type"
  | notUnicode => "string_unicode"
  | missing => "missing"
  | notDictionary => "dict_type"
  | notConfig | notEntry => "model_type"

def message : Complaint → String
  | notText => "Input should be a valid string"
  | notUnicode =>
      "Input should be a valid string, unable to parse raw data as a unicode string"
  | missing => "Field required"
  | notDictionary => "Input should be a valid dictionary"
  | notConfig => "Input should be a valid dictionary or instance of QwuriConfig"
  | notEntry => "Input should be a valid dictionary or instance of TemplateConfig"

end Complaint

namespace Place

def shown (key : Value) : Place :=
  .name (key.shown?.getD (Text.of "<unprintable " ++ Text.of key.kind.label ++ Text.of " object>"))

/-- How a key is named in a location. Only integers that fit a machine word stay numbers. -/
def ofKey : Value → Place
  | .scalar (.string t) => .name t
  | .scalar (.boolean b) => .number (if b then 1 else 0)
  | .scalar (.integer n) =>
      if Int64.minValue.toInt ≤ n ∧ n ≤ Int64.maxValue.toInt then .number n
      else shown (.scalar (.integer n))
  | key => shown key

end Place

abbrev Checked (α : Type) := Except (List Problem) α

namespace Checked

variable {α β γ : Type}

def reject (complaint : Complaint) : Checked α := .error [⟨[], complaint⟩]

def within (p : Place) : Checked α → Checked α
  | .ok a => .ok a
  | .error ps => .error (ps.map fun q => ⟨p :: q.location, q.complaint⟩)

def both (f : α → β → γ) : Checked α → Checked β → Checked γ
  | .ok a, .ok b => .ok (f a b)
  | .ok _, .error qs => .error qs
  | .error ps, .ok _ => .error ps
  | .error ps, .error qs => .error (ps ++ qs)

end Checked

namespace Check

open Checked

def ofOctets (bs : List UInt8) : Checked Text :=
  match Percent.ofOctets? bs with
  | some t => .ok t
  | none => reject .notUnicode

def text : Value → Checked Text
  | .scalar (.string t) => .ok t
  | .bytes bs | .byteArray bs => ofOctets bs
  | _ => reject .notText

def optionalText : Value → Checked (Option Text)
  | .null => .ok none
  | v => (text v).map some

def any : Value → Checked Value := .ok

def item {α : Type} (value : Value → Checked α) (x : Value × Value) : Checked (Text × α) :=
  within (.ofKey x.1)
    (both Prod.mk (within (.name (Text.of "[key]")) (text x.1)) (value x.2))

def items {α : Type} (value : Value → Checked α) :
    List (Value × Value) → Checked (List (Text × α))
  | [] => .ok []
  | x :: xs => both List.cons (item value x) (items value xs)

def bindings {α : Type} (value : Value → Checked α) : Value → Checked (Bindings α)
  | .dict xs => (items value xs).map .ofList
  | _ => reject .notDictionary

def field {α : Type} (name : String) (absent : Checked α) (value : Value → Checked α)
    (fields : Dict) : Checked α :=
  within (.name (Text.of name)) (match fields.get? (Text.of name) with
    | some v => value v
    | none => absent)

/-- A bare text stands for an entry with that template and nothing else. -/
def entry : Value → Checked Entry
  | .scalar (.string t) => .ok ⟨t, .empty, none⟩
  | .dict fields =>
      both (fun t (vd : Bindings Value × Option Text) => ⟨t, vd.1, vd.2⟩)
        (field "template" (reject .missing) text fields)
        (both Prod.mk
          (field "vars" (.ok .empty) (bindings any) fields)
          (field "description" (.ok none) optionalText fields))
  | _ => reject .notEntry

def config : Value → Checked Config
  | .dict fields =>
      both (fun n (vt : Bindings Value × Bindings Entry) => ⟨n, vt.1, vt.2⟩)
        (field "name" (.ok none) optionalText fields)
        (both Prod.mk
          (field "vars" (.ok .empty) (bindings any) fields)
          (field "templates" (.ok .empty) (bindings entry) fields))
  | _ => reject .notConfig

end Check

inductive Unloadable where
  | unread (fault : LoadFault)
  | rejected (problems : List Problem)
  deriving DecidableEq, Repr

def ofLoaded : Except LoadFault Value → Except Unloadable Config
  | .error f => .error (.unread f)
  | .ok v => if v.isEmpty then .ok empty else (Check.config v).mapError .rejected

end UriTemplate.Config
