import ReleaseDraft.Forge
import ReleaseDraft.Layout.BulletList
import ReleaseDraft.Listing
import ReleaseDraft.Selection

/-!
# Drafts

The draft of the notes for a release: a banner, and a bullet for each pull request that was merged
since the tag of the last release.
-/

namespace ReleaseDraft

/-- The tag of a release, and its date. -/
structure Tag where
  name : String
  date : Instant
  deriving DecidableEq, Repr

/-- A request for a draft. -/
structure Options where
  forge : Forge
  tag : Tag
  width : Nat
  deriving DecidableEq, Repr

namespace Draft

/-! ### Text -/

/-- A change in words: the title of the pull request and a link to it. -/
def label (forge : Forge) (pull : PullRequest) : String :=
  trimmed pull.title ++ " (" ++ forge.pullLink pull.number ++ ")."

/-- What stands above the list. -/
def banner (forge : Forge) (tag : Tag) : String :=
  "\n****\nChanges since " ++ forge.repo.text ++ " " ++ tag.name ++ ":\n\n" ++
  "Please edit the output below before including it in the change log.\n" ++
  "See http://keepachangelog.com for further advice.\n\n" ++
  "Only include changes which are interesting to users of the package or\n" ++
  "application, and use a description they will be able to understand.\n" ++
  "****\n\n[Unreleased]\n"

/-- The bullet list of some items; a width without a column for text is an error. -/
def bullets (width : Nat) (items : List String) : Except Error String :=
  match Layout.bulletList width items with
  | some list => .ok list
  | none => .error (.invalidWidth width)

/-- The draft for some pull requests. -/
def render (forge : Forge) (tag : Tag) (pulls : List PullRequest) (width : Nat) :
    Except Error String :=
  (bullets width (pulls.map (label forge))).map fun list => banner forge tag ++ "\n" ++ list

/-! ### From the forge -/

/-- Closed pull requests, the most recently updated first. -/
def closedByUpdate : List (String × String) :=
  [("state", "closed"), ("sort", "updated"), ("direction", "desc")]

/-- The pull requests merged since a tag, and what happened on the way.  At most `limit` pages are
read. -/
def mergedSince (net : Http.Network) (limit : Nat) (client : Client) (tag : Tag) (trace : Trace) :
    Option (Except Error (List PullRequest) × Trace) :=
  match client.firstPage "pulls" closedByUpdate with
  | .error e => some (.error e, trace)
  | .ok url => do
    let visit := (Selection.visit tag.date).contramap Listing.asPull
    let (s, trace) ← Listing.read net client.headers visit limit (.start url) .start trace
    let trace := { trace with log := trace.log ++ s.log tag.date }
    match s.result with
    | .error e => some (.error e, trace)
    | .ok pulls =>
      some (.ok pulls, trace.write
        (.debug (toString pulls.length ++ " pull requests merged since " ++ tag.name)))

/-- The draft that is asked for, and what happened on the way. -/
def compose (net : Http.Network) (limit : Nat) (options : Options) :
    Option (Except Error String × Trace) :=
  match options.forge.client with
  | .error e => some (.error e, .empty)
  | .ok client => do
    let trace := Trace.empty.write (.info ("listing pull requests merged into " ++
      options.forge.repo.text ++ " since " ++ options.tag.name))
    let (outcome, trace) ← mergedSince net limit client options.tag trace
    return (outcome.bind fun pulls =>
      render options.forge options.tag pulls options.width, trace)

end Draft

end ReleaseDraft
