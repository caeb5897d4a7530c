import ReleaseDraft.Json.Reader
import ReleaseDraft.Program
import ReleaseDraft.Session.Routes
import ReleaseDraft.Session.Steps

/-!
# Command line

Runs the program on a session, a JSON text on standard input that describes the workspace and the
server.  Without a session the workspace is empty and no server replies.
-/

namespace ReleaseDraft

namespace Main

/-- The lines for standard error: the log, as far as it is to be shown, and the error. -/
def diagnostics (run : Program.Run) : List String :=
  let shown := run.trace.log.filter fun entry => run.verbose || entry.level == .info
  let lines := shown.map fun entry =>
    (match entry.level with | .debug => "DEBUG " | .info => "INFO ") ++ entry.message
  lines ++ (run.error.map fun e => "Error: " ++ e.message.getD "git operation failed").toList

/-- Runs the program on the text of a session. -/
def runSession (session : String) (environment : Option String) (words : List String) :
    Option Program.Run := do
  let value ← if (trimmed session).isEmpty then some (.object []) else Json.parse? session.toList
  let ws ← Session.workspace? value
  let routes ← Session.routes? value
  Program.run ws (.ofScript routes) (routes.length + 1) environment words

end Main

end ReleaseDraft

/-- Reads a session from standard input and runs the program on it. -/
def main (words : List String) : IO UInt32 := do
  let session ← (← IO.getStdin).readToEnd
  let environment ← IO.getEnv "GITHUB_TOKEN"
  match ReleaseDraft.Main.runSession session environment words with
  | none =>
    IO.eprintln "Error: malformed session"
    return 1
  | some run =>
    for line in ReleaseDraft.Main.diagnostics run do
      IO.eprintln line
    IO.print run.output
    return run.exit.toUInt32
