import SwaggerProvider.CommandLine

/-!
The program. Documents are read from files; there is no network.
-/

set_option autoImplicit false

namespace SwaggerProvider

def failureText : IO.Error → String
  | .noFileOrDirectory _ code _ => s!"No such file or directory (os error {code})"
  | .permissionDenied _ code _ => s!"Permission denied (os error {code})"
  | other => toString other

def fileText (path : String) : IO Swagger.FileText := do
  try
    return .content (← IO.FS.readFile path)
  catch e =>
    match e with
    | .noFileOrDirectory _ _ _ => return .absent (failureText e)
    | _ => return .unreadable (failureText e)

def openLog (path : String) : IO (Except String Unit) := do
  try
    let _ ← IO.FS.Handle.mk path .append
    return .ok ()
  catch e => return .error (failureText e)

/-- Writes the log to its file, or else to the standard error output. -/
def writeLog (file : Option String) (text : String) : IO Unit := do
  match file with
  | some path => (← IO.FS.Handle.mk path .append).putStr text
  | none => IO.eprint text

/-- The surroundings of the process, with the variables that an invocation needs. -/
def processSurroundings (i : CommandLine.Invocation) : IO (CommandLine.Surroundings IO) := do
  let values ← (CommandLine.variableNames i).filterMapM fun name => do
    return (← IO.getEnv name).map fun value => (name, value)
  return {
    setting := Table.get? values
    access := {
      home := ← IO.getEnv "HOME"
      fileText
      fetch := fun _ _ => return .unreachable }
    openLog }

def usage : String :=
  "Usage: openapi-provider [--json-errors] [-v] (schema NAME [--compact] | resources NAME [--skipped])"

end SwaggerProvider

open SwaggerProvider in
def main (arguments : List String) : IO UInt32 := do
  match CommandLine.read arguments with
  | .help => IO.println usage; return 0
  | .version => IO.print CommandLine.versionText; return 0
  | .misuse => IO.eprintln usage; return 2
  | .run i =>
    let output ← CommandLine.run (← processSurroundings i) i
    writeLog output.logFile (CommandLine.lines (output.events.map Log.Event.line))
    IO.eprint output.err
    IO.print output.out
    return output.exit.toUInt32
