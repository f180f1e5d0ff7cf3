import UriTemplate.Command.Inspect
import UriTemplate.Config.Check

namespace UriTemplate.Command

def expand (w : World) (template : Text) (options : List Text) : Outcome :=
  match Assignment.values options with
  | .error m => .misused (.badAssignment m)
  | .ok vars => w.conclude (UriTemplate.expand template vars.get?)

namespace Render

def locate (w : World) : Option Text → Except Outcome Text
  | some t =>
      let path := (Path.Written.ofText t).text
      match w.exists? path with
      | .ok true => .ok path
      | .ok false => .error (.failed (.missingFile path))
      | .error e => .error (.escaped (.system e))
  | none =>
      match w.directory >>= Path.findConfig fun p => w.exists? p.text with
      | .ok (some path) => .ok path.text
      | .ok none => .error (.failed .noConfig)
      | .error e => .error (.escaped (.system e))

def ofConfig (w : World) (c : Config) (name : Text) (options : List Text) : Outcome :=
  match c.entry name with
  | .error e => .ofError e
  | .ok _ => match Assignment.values options with
      | .error m => .misused (.badAssignment m)
      | .ok vars => w.conclude (c.expand name (.ofBindings vars))

def ofLoaded (w : World) (path name : Text) (options : List Text) :
    Except LoadFault Value → Outcome := fun loaded =>
  match Config.ofLoaded loaded with
  | .ok c => ofConfig w c name options
  | .error (.unread (.accident a)) => .escaped a
  | .error (.unread .malformed) | .error (.rejected _) => .failed (.invalidConfig path)

def ofFile (w : World) (path name : Text) (options : List Text) : Outcome :=
  match w.exists? path with
  | .ok true => ofLoaded w path name options (w.load path)
  | .ok false => ofConfig w .empty name options
  | .error e => .escaped (.system e)

end Render

def render (w : World) (name : Text) (options : List Text) (file : Option Text) : Outcome :=
  match Render.locate w file with
  | .ok path => Render.ofFile w path name options
  | .error o => o

def versionLine : Text := Text.of "qwuri 0.1.0\n"

namespace Request

def run (w : World) : Request → Outcome
  | .help => .help
  | .version => .printed versionLine
  | .expand template options => Command.expand w template options
  | .inspect template => Inspect.run w template
  | .render name options file => Command.render w name options file

def paths (directory : Path) : Request → List Text
  | .render _ _ (some t) => [(Path.Written.ofText t).text]
  | .render _ _ none => (Path.candidates directory).map Path.text
  | _ => []

end Request

def run (w : World) (args : List Text) : Outcome :=
  match Request.ofArguments args with
  | .ok r => r.run w
  | .error e => .misused e

end UriTemplate.Command
