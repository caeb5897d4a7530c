import ReleaseDraft.CommandLine.Reader
import ReleaseDraft.Git.Workspace

/-!
# The program

A run reads its command line, looks for a git repository, resolves its options and composes the
draft, which is printed only if all of that succeeds.
-/

namespace ReleaseDraft

namespace Program

/-- The end of a run. -/
structure Run where
  /-- The exit code: 0 for success, 1 for a failure, 2 for wrong usage. -/
  exit : Nat
  /-- What is printed. -/
  output : String
  /-- Why the run failed. -/
  error : Option Error
  /-- What happened. -/
  trace : Trace
  /-- Whether all of the log is to be shown. -/
  verbose : Bool

/-- A run that ended in the reading of its command line. -/
def interrupted (i : CommandLine.Interruption) : Run :=
  match i.shown? with
  | some text => ⟨0, text, none, .empty, false⟩
  | none => ⟨2, "", none, .empty, false⟩

/-- A run with given arguments. -/
def runWith (ws : Git.Workspace) (net : Http.Network) (limit : Nat) (environment : Option String)
    (args : CommandLine.Arguments) : Option Run :=
  let failed := fun (e : Error) (trace : Trace) => (⟨1, "", some e, trace, args.debug⟩ : Run)
  match ws.discoverOptional args.path args.path with
  | (.error e, log) => some (failed e ⟨[], log⟩)
  | (.ok store, log) =>
    let resolution := Resolution.options args environment (store.map Git.Store.vcs)
    let log := log ++ resolution.log
    match resolution.outcome with
    | .error e => some (failed e ⟨[], log⟩)
    | .ok options => do
      let (outcome, trace) ← Draft.compose net limit options
      let trace := { trace with log := log ++ trace.log }
      match outcome with
      | .error e => some (failed e trace)
      | .ok text => some ⟨0, text ++ "\n", none, trace, args.debug⟩

/-- A run of the program in a workspace.  At most `limit` pages of a listing are read. -/
def run (ws : Git.Workspace) (net : Http.Network) (limit : Nat) (environment : Option String)
    (words : List String) : Option Run :=
  match CommandLine.parse words with
  | .error i => some (interrupted i)
  | .ok args => runWith ws net limit environment args

end Program

end ReleaseDraft
