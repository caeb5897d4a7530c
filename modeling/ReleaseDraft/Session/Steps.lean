import ReleaseDraft.Git.Edit
import ReleaseDraft.Json.Basic

/-!
# Steps of a session

A session describes the workspace of a run as JSON: a list of steps that make it.  Each step says
what to do and where; without a path it is about the root of the workspace.
-/

namespace ReleaseDraft

namespace Session

open Git (Edit Change Target Workspace)

/-- A text in a field. -/
def text? (key : String) (value : Json) : Option String := do (← value.field? key).string?

/-- A time in a field. -/
def secs? (value : Json) : Option Int := do (← value.field? "secs").integer?

/-- The path of a step. -/
def path? (value : Json) : Option String := (value.given? "path").bind Json.string?

/-- What a new tag names; without a target, the last commit. -/
def target (value : Json) : Target :=
  match (value.given? "target").bind Json.string? with
  | some "tree" => .tree
  | some "blob" => .blob
  | some text => .revision text
  | none => .revision "HEAD"

/-- The change to a store that a step makes. -/
def change? (verb : String) (value : Json) : Option Change := do
  match verb with
  | "commit" => return .commit (← secs? value)
  | "tag" => return .tag (← text? "name" value) (some (← secs? value)) (target value)
  | "tag_no_tagger" => return .tag (← text? "name" value) none (target value)
  | "light" => return .lightTag (← text? "name" value) (target value)
  | "delete_tag" => return .deleteTag (← text? "name" value)
  | "remote" => return .remote (← text? "name" value) (← text? "url" value)
  | "delete_remote" => return .deleteRemote (← text? "name" value)
  | "config" => return .setting (← text? "key" value) (← text? "value" value)
  | _ => none

/-- The edit that a step is. -/
def edit? (value : Json) : Option Edit := do
  let verb ← text? "do" value
  let path := (path? value).getD ""
  match verb with
  | "init" => return .init path
  | "init_bare" => return .initBare path
  | "mkdir" => return .makeDirectory path
  | "write" => return .writeFile path (← text? "text" value)
  | _ => return .change path (← change? verb value)

/-- The workspace that the steps of a session make. -/
def workspace? (value : Json) : Option Workspace :=
  match value.given? "steps" with
  | some steps => do
    (← (← steps.array?).mapM edit?).foldlM Workspace.apply .empty
  | none => some .empty

end Session

end ReleaseDraft
