import ReleaseDraft.PullRequest
import ReleaseDraft.Url.Basic

/-!
# Errors

Every way in which a run can fail, by cause, and the one wording of each.
-/

namespace ReleaseDraft

/-- Why a request brought no answer. -/
inductive NetworkFailure where
  | unsendable (url : Url)
  | noResponse (url : Url)
  | tooManyRedirects (url : Url)
  | unreadableBody

namespace NetworkFailure

/-- The wording of a network failure. -/
def message : NetworkFailure → String
  | unsendable url => "builder error for url (" ++ url.render ++ ")"
  | noResponse url => "error sending request for url (" ++ url.render ++ ")"
  | tooManyRedirects url => "error following redirect for url (" ++ url.render ++ ")"
  | unreadableBody => "error decoding response body"

end NetworkFailure

/-- Why a run fails. -/
inductive Error where
  | unresolvedRepo
  | unresolvedTag
  | invalidRepo (text : String)
  | tagNotFound (name : String)
  | notARepository (path : String)
  | invalidTimestamp (secs : Int)
  | api (url : String) (status : Nat) (body : String)
  | invalidHeader
  | network (failure : NetworkFailure)
  | invalidWidth (width : Nat)
  | git
  | url (cause : UrlError)
  | decoding (cause : DecodeError)

namespace Error

/-- The wording of an error.  What git reports about a damaged repository is not repeated. -/
def message : Error → Option String
  | unresolvedRepo => some "Could not determine current GitHub repo. Use the --repo argument"
  | unresolvedTag => some "Could not find last tag. Use the --tag argument"
  | invalidRepo text => some ("Invalid repository \"" ++ text ++ "\": expected OWNER/REPO")
  | tagNotFound name => some ("Tag not found: " ++ name)
  | notARepository path => some ("Not a git repository: " ++ path)
  | invalidTimestamp secs => some ("Invalid timestamp: " ++ toString secs)
  | api address status body =>
    some ("GitHub request " ++ address ++ " failed with status " ++ toString status ++ ": " ++ body)
  | invalidHeader => some "Invalid header value: failed to parse header value"
  | network failure => some ("Network request failed: " ++ failure.message)
  | invalidWidth width =>
    some ("Column width " ++ toString width ++ " is too narrow to wrap list items")
  | git => none
  | url cause => some ("URL parse error: " ++ cause.message)
  | decoding cause => some ("JSON parse error: " ++ cause.message)

end Error

end ReleaseDraft
