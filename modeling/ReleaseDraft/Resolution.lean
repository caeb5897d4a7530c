import ReleaseDraft.CommandLine.Arguments
import ReleaseDraft.Draft
import ReleaseDraft.RemoteAddress

/-!
# Resolution of options

What is to be drafted: the repository and the tag come from the command line or else from the git
repository at hand.  Stages run in a fixed order and the first failure ends them: the repository,
the name of the tag, the presence of a git repository, the date of the tag, the URL of the
interface.
-/

namespace ReleaseDraft

/-- What is asked of a git repository. -/
structure Vcs where
  /-- The address of a remote. -/
  remoteUrl : String → Except Error (Option String)
  /-- The name of the latest tag. -/
  latestTag : Except Error (Option String)
  /-- The date of a tag. -/
  tagDate : String → Except Error Instant

/-- A question to a git repository. -/
inductive Lookup where
  | remoteUrl (remote : String)
  | latestTag
  | tagDate (tag : String)
  deriving DecidableEq, Repr

/-- An outcome, the questions asked on the way to it, and the log. -/
structure Resolution (α : Type) where
  outcome : Except Error α
  lookups : List Lookup
  log : List LogEntry

namespace Resolution

open CommandLine (Arguments)

/-- The column width of drafts. -/
def defaultWidth : Nat := 80

/-- The repository: the one that is named, or else that of the remote. -/
def repo (args : Arguments) (vcs : Option Vcs) : Except Error Slug × List Lookup :=
  match args.repo, vcs with
  | some text, _ =>
    match Slug.parse? text with
    | some slug => (.ok slug, [])
    | none => (.error (.invalidRepo text), [])
  | none, none => (.error .unresolvedRepo, [])
  | none, some vcs =>
    let outcome := do
      match (← vcs.remoteUrl args.remote).bind Slug.ofRemote? with
      | some slug => .ok slug
      | none => .error .unresolvedRepo
    (outcome, [.remoteUrl args.remote])

/-- The name of the tag: the one that is given, or else the latest. -/
def tagName (args : Arguments) (vcs : Option Vcs) : Except Error String × List Lookup :=
  match args.tag, vcs with
  | some name, _ => (.ok name, [])
  | none, none => (.error .unresolvedTag, [])
  | none, some vcs =>
    let outcome := do
      match ← vcs.latestTag with
      | some name => .ok name
      | none => .error .unresolvedTag
    (outcome, [.latestTag])

/-- The tag with its date, which only a git repository knows. -/
def tag (args : Arguments) (vcs : Option Vcs) : Except Error Tag × List Lookup :=
  match tagName args vcs, vcs with
  | (.error e, lookups), _ => (.error e, lookups)
  | (.ok _, lookups), none => (.error (.notARepository args.path), lookups)
  | (.ok name, lookups), some vcs =>
    ((vcs.tagDate name).map fun date => ⟨name, date⟩, lookups ++ [.tagDate name])

/-- The log entry on the repository. -/
def repoEntry (slug : Slug) : LogEntry := .debug ("using repository " ++ slug.text)

/-- The log entry on the tag. -/
def tagEntry (tag : Tag) : LogEntry :=
  .debug ("listing changes since " ++ tag.name ++ " (" ++ tag.date.render ++ ")")

/-- The options of a run. -/
def options (args : Arguments) (environment : Option String) (vcs : Option Vcs) :
    Resolution Options :=
  match repo args vcs with
  | (.error e, asked) => ⟨.error e, asked, []⟩
  | (.ok slug, asked) =>
    match tag args vcs with
    | (.error e, asked') => ⟨.error e, asked ++ asked', [repoEntry slug]⟩
    | (.ok tag, asked') =>
      let outcome := do
        let apiUrl ← (Url.parse args.apiUrl.toList).mapError .url
        let token := args.accessToken environment
        .ok ⟨⟨slug, apiUrl, Forge.defaultWebUrl, token⟩, tag, defaultWidth⟩
      ⟨outcome, asked ++ asked', [repoEntry slug, tagEntry tag]⟩

end Resolution

end ReleaseDraft
