import ReleaseDraft.Consumer
import ReleaseDraft.Error
import ReleaseDraft.Log

/-!
# Selection

Which pull requests were merged after a cutoff.  They are read from the most recently updated on, so
reading stops at the first that was last updated before the cutoff: a *stale* one.  Of those read
before, the ones merged after the cutoff are kept, ordered by the date of their merge; those merged
at the same instant keep the order in which they were read.
-/

namespace ReleaseDraft

/-- How reading ended. -/
inductive Ending where
  | exhausted
  | stale (pull : PullRequest)
  | failed (error : Error)

/-- The state of a selection. -/
structure Selection where
  /-- Elements that were read. -/
  seen : Nat
  /-- Pull requests that are kept, in the order of reading. -/
  kept : List PullRequest
  /-- How reading ended, as far as is known. -/
  ending : Ending

namespace Selection

/-- Nothing has been read. -/
def start : Selection := ⟨0, [], .exhausted⟩

/-- Was last updated before the cutoff. -/
def isStale (cutoff : Instant) (pull : PullRequest) : Bool := pull.updatedAt.before cutoff

/-- Was merged after the cutoff. -/
def isMergedAfter (cutoff : Instant) (pull : PullRequest) : Bool :=
  match pull.mergedAt with
  | some date => cutoff.before date
  | none => false

/-- Reads an element: stops at a failure and at a stale pull request. -/
def visit (cutoff : Instant) : Visit Selection (Except Error PullRequest)
  | s, .error e => .done { s with seen := s.seen + 1, ending := .failed e }
  | s, .ok pull =>
    let s := { s with seen := s.seen + 1 }
    if isStale cutoff pull then .done { s with ending := .stale pull }
    else if isMergedAfter cutoff pull then .more { s with kept := s.kept ++ [pull] }
    else .more s

/-- The order of merging; what was not merged comes first. -/
def mergedBefore (a b : PullRequest) : Bool :=
  match a.mergedAt, b.mergedAt with
  | some x, some y => x.notAfter y
  | none, _ => true
  | some _, none => false

/-- Pull requests in the order of their merge. -/
def sorted (pulls : List PullRequest) : List PullRequest := pulls.mergeSort mergedBefore

/-- The outcome of a selection. -/
def result (s : Selection) : Except Error (List PullRequest) :=
  match s.ending with
  | .failed e => .error e
  | _ => .ok (sorted s.kept)

/-- What a selection reports. -/
def log (cutoff : Instant) (s : Selection) : List LogEntry :=
  match s.ending with
  | .stale pull =>
    [.debug ("stopping at #" ++ toString pull.number ++ " last updated " ++
      pull.updatedAt.render ++ " before " ++ cutoff.render)]
  | _ => []

/-- The selection from a list of elements. -/
def ofList (cutoff : Instant) (elements : List (Except Error PullRequest)) : Selection :=
  ((visit cutoff).feed elements start).state

end Selection

end ReleaseDraft
