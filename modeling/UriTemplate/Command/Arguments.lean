import UriTemplate.Assignment

namespace UriTemplate.Command

inductive UsageFault where
  | noCommand
  | unknownCommand (name : Text)
  | unknownOption (option : Text)
  | missingValue (option : Text)
  | unwantedValue (option : Text)
  | missingArgument
  | extraArgument (argument : Text)
  | badAssignment (m : Assignment.Malformed)
  | badPath (path : Text)
  deriving DecidableEq, Repr

namespace UsageFault

def message : UsageFault → Text
  | noCommand => Text.of "Missing command."
  | unknownCommand name => Text.of "No such command: " ++ name
  | unknownOption option => Text.of "No such option: " ++ option
  | missingValue option => Text.of "Option requires a value: " ++ option
  | unwantedValue option => Text.of "Option takes no value: " ++ option
  | missingArgument => Text.of "Missing argument."
  | extraArgument argument => Text.of "Unexpected argument: " ++ argument
  | badAssignment m => Text.of "Invalid value for an option: " ++ m.message
  | badPath path => Text.of "Path with a null character: " ++ Text.quoted path

end UsageFault

inductive Switch where
  | assignment
  | file
  | verbose
  | version
  | help
  deriving DecidableEq, Repr

def Switch.takesValue : Switch → Bool
  | assignment | file => true
  | _ => false

/-- The options of a command. Short ones all take values. Where options may not follow an
argument, the first argument ends them. -/
structure Grammar where
  long : List (Text × Switch)
  short : List (CodePoint × Switch)
  interspersed : Bool

structure Scanned where
  switches : List (Switch × Text)
  arguments : List Text
  deriving DecidableEq, Repr

namespace Scanned

def withSwitch (s : Switch) (value : Text) (r : Scanned) : Scanned :=
  ⟨(s, value) :: r.switches, r.arguments⟩

def withArgument (a : Text) (r : Scanned) : Scanned := ⟨r.switches, a :: r.arguments⟩

def has (r : Scanned) (s : Switch) : Bool := r.switches.any (·.1 = s)

def values (r : Scanned) (s : Switch) : List Text :=
  r.switches.filterMap fun x => if x.1 = s then some x.2 else none

end Scanned

inductive Form where
  | flag (s : Switch)
  | valued (s : Switch) (value : Text)
  | awaiting (s : Switch)

def Grammar.form (g : Grammar) (arg : Text) : Except UsageFault Form :=
  let name := arg.takeWhile (· ≠ .char '=')
  let value := (arg.dropWhile (· ≠ .char '=')).tail?
  match g.long.lookup name, value with
  | some s, some v =>
      if s.takesValue then .ok (.valued s v) else .error (.unwantedValue name)
  | some s, none => .ok (if s.takesValue then .awaiting s else .flag s)
  | none, _ => match arg with
      | .char '-' :: c :: rest => match g.short.lookup c with
          | some s => .ok (if rest = [] then .awaiting s else .valued s rest)
          | none => .error (.unknownOption arg)
      | _ => .error (.unknownOption arg)

def Grammar.scan (g : Grammar) : List Text → Except UsageFault Scanned
  | [] => .ok ⟨[], []⟩
  | arg :: args =>
      if arg = Text.of "--" then .ok ⟨[], args⟩
      else if arg.head? = some (.char '-') && 1 < arg.length then
        match g.form arg with
        | .error e => .error e
        | .ok (.flag s) => (g.scan args).map (.withSwitch s [])
        | .ok (.valued s v) => (g.scan args).map (.withSwitch s v)
        | .ok (.awaiting s) => match args with
            | v :: args => (g.scan args).map (.withSwitch s v)
            | [] => .error (.missingValue arg)
      else if g.interspersed then (g.scan args).map (.withArgument arg)
      else .ok ⟨[], arg :: args⟩

inductive Request where
  | help
  | version
  | expand (template : Text) (options : List Text)
  | inspect (template : Text)
  | render (name : Text) (options : List Text) (file : Option Text)
  deriving DecidableEq, Repr

namespace Request

def helpSwitch : Text × Switch := (Text.of "--help", .help)

def assignmentSwitch : Text × Switch := (Text.of "--var", .assignment)

def program : Grammar :=
  ⟨[(Text.of "--verbose", .verbose), (Text.of "--version", .version), helpSwitch], [], false⟩

def expandGrammar : Grammar := ⟨[assignmentSwitch, helpSwitch], [(.char 'v', .assignment)], true⟩

def inspectGrammar : Grammar := ⟨[helpSwitch], [], true⟩

def renderGrammar : Grammar :=
  ⟨[assignmentSwitch, (Text.of "--file", .file), helpSwitch],
    [(.char 'v', .assignment), (.char 'f', .file)],
    true⟩

def ofScanned (r : Scanned) (request : Text → Request) : Except UsageFault Request :=
  if r.has .help then .ok .help
  else match r.arguments with
    | [] => .error .missingArgument
    | [a] => .ok (request a)
    | _ :: b :: _ => .error (.extraArgument b)

def file? (r : Scanned) : Except UsageFault (Option Text) :=
  match (r.values .file).getLast? with
  | some path => if path.contains (.char '\x00') then .error (.badPath path) else .ok (some path)
  | none => .ok none

def ofCommand? (name : Text) (args : List Text) : Option (Except UsageFault Request) :=
  if name = Text.of "expand" then some do
    let r ← expandGrammar.scan args
    ofScanned r fun t => .expand t (r.values .assignment)
  else if name = Text.of "inspect" then some do
    ofScanned (← inspectGrammar.scan args) .inspect
  else if name = Text.of "render" then some do
    let r ← renderGrammar.scan args
    if r.has .help then return .help
    let file ← file? r
    ofScanned r fun n => .render n (r.values .assignment) file
  else none

def notice? (r : Scanned) : Option Request :=
  r.switches.findSome? fun
    | (.help, _) => some .help
    | (.version, _) => some .version
    | _ => none

/-- A notice is given whatever command follows. What names no command may still be an option
behind the mark that ends options, and then it counts as one. -/
def ofArguments (args : List Text) : Except UsageFault Request := do
  let r ← program.scan args
  match notice? r, r.arguments with
  | some notice, _ => return notice
  | none, [] => .error .noCommand
  | none, name :: args => match ofCommand? name args with
      | some request => request
      | none => match notice? (← program.scan (name :: args)) with
          | some notice => return notice
          | none => .error (.unknownCommand name)

end Request

end UriTemplate.Command
