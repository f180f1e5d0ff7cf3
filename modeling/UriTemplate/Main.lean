import UriTemplate.Command.Run
import UriTemplate.FileTree

namespace UriTemplate

namespace Main

def helpLines : List String :=
  ["Usage: qwuri [--verbose] COMMAND",
   "  expand TEMPLATE [-v NAME=VALUE]...",
   "  inspect TEMPLATE",
   "  render NAME [-v NAME=VALUE]... [-f FILE]",
   "  --version"]

/-- What can be opened but not read is a directory, and such an error names no file. -/
def observe (path : Text) : IO (Except OsError Bool × Except LoadFault Value) := do
  let failed (e : OsError) := Except.error (.accident (.system e))
  try
    let text ← IO.FS.readFile path.shown
    return (.ok true, Yaml.load (Text.of text))
  catch
    | .inappropriateType none .. => return (.ok true, failed .isDirectory)
    | .noFileOrDirectory .. | .inappropriateType .. => return (.ok false, failed (.other 2))
    | .permissionDenied .. => return (.ok true, failed .denied)
    | .invalidArgument .. => return (.error .nameTooLong, failed .nameTooLong)
    | e => throw e

def observeAll (directory : Path) (args : List Text) : IO Command.World := do
  let paths := match Command.Request.ofArguments args with
    | .ok r => r.paths directory
    | .error _ => []
  let seen ← paths.mapM fun p => return (p, ← observe p)
  let nothing := (FileTree.mk []).world directory
  return { nothing with
    exists? := fun p => ((seen.lookup p).map Prod.fst).getD (nothing.exists? p)
    load := fun p => ((seen.lookup p).map Prod.snd).getD (nothing.load p) }

def tell (o : Command.Outcome) : IO Unit := do
  let out ← IO.getStdout
  let err ← IO.getStderr
  match o with
  | .printed t => out.putStr t.shown
  | .help => helpLines.forM out.putStrLn
  | .misused f => err.putStrLn f.message.shown
  | .failed f => err.putStr (Command.reportLine true f.message).shown
  | .escaped accident => err.putStr (Command.reportLine false accident.message).shown

end Main

end UriTemplate

open UriTemplate in
def main (args : List String) : IO UInt32 := do
  let directory := (Path.Written.ofText (Text.of (← IO.currentDir).toString)).within []
  let args := args.map Text.of
  let world ← Main.observeAll directory args
  let outcome := Command.run world args
  Main.tell outcome
  return outcome.exitCode.toUInt32
