import ReleaseDraft.Error
import ReleaseDraft.Http.Message
import ReleaseDraft.Slug
import ReleaseDraft.Url.Reader

/-!
# The forge

Which repository is asked about, where the interface of its forge is, and on whose behalf.
`Client` has what every request needs: the headers, and the URL of the repository below which all
resources lie.
-/

namespace ReleaseDraft

/-- A repository on a forge. -/
structure Forge where
  repo : Slug
  /-- The root of the interface. -/
  apiUrl : Url
  /-- The root of the pages for people. -/
  webUrl : String
  /-- Who asks, if not just anyone. -/
  token : Option String
  deriving DecidableEq, Repr

/-- What requests about a repository need. -/
structure Client where
  forge : Forge
  base : Url
  headers : Http.Headers
  deriving DecidableEq, Repr

namespace Forge

/-- The forge of repositories that are not said to be elsewhere. -/
def defaultApiUrl : String := "https://api.github.com"

/-- The pages of that forge. -/
def defaultWebUrl : String := "https://github.com"

/-- The media type of answers. -/
def mediaType : String := "application/vnd.github+json"

/-- How the program presents itself. -/
def userAgent : String := "changelist/0.1.0"

/-- A text without trailing slashes. -/
def trimSlashes (text : String) : String :=
  String.ofList ((text.toList.reverse.dropWhile (· == '/')).reverse)

/-- The link to a pull request. -/
def pullLink (forge : Forge) (number : Nat) : String :=
  "[#" ++ toString number ++ "](" ++ trimSlashes forge.webUrl ++ "/" ++ forge.repo.text ++
    "/pull/" ++ toString number ++ ")"

/-- The authorization of a token; a token with controls in it has none. -/
def authorization (token : String) : Except Error String :=
  let value := "token " ++ token
  if Http.Header.isLegal (Text.Utf8.encode value.toList) then .ok value else .error .invalidHeader

/-- The headers of every request. -/
def headers (forge : Forge) : Except Error Http.Headers :=
  match forge.token with
  | none => .ok ⟨mediaType, userAgent, none⟩
  | some token => (authorization token).map fun value => ⟨mediaType, userAgent, some value⟩

/-- The URL below which the resources of the repository lie. -/
def base (forge : Forge) : Except Error Url :=
  let path := "repos/" ++ forge.repo.owner ++ "/" ++ forge.repo.name ++ "/"
  (forge.apiUrl.asDirectory.resolve path.toList).mapError .url

/-- The client of a forge. -/
def client (forge : Forge) : Except Error Client := do
  let headers ← forge.headers
  let base ← forge.base
  return ⟨forge, base, headers⟩

end Forge

namespace Client

/-- The first page of a listing: a resource of the repository with a query. -/
def firstPage (client : Client) (path : String) (query : List (String × String)) :
    Except Error Url :=
  match client.base.resolve path.toList with
  | .ok url => .ok (url.addQuery query)
  | .error cause => .error (.url cause)

end Client

end ReleaseDraft
