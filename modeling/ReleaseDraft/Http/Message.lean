import ReleaseDraft.Http.Header
import ReleaseDraft.Text.Base64
import ReleaseDraft.Text.Charset
import ReleaseDraft.Url.Basic

/-!
# Requests and responses
-/

namespace ReleaseDraft

namespace Http

/-- The headers of a request. -/
structure Headers where
  accept : String
  userAgent : String
  authorization : Option String
  deriving DecidableEq, Repr

/-- A request as it goes out: its URL has neither user information nor a fragment. -/
structure Request where
  url : Url
  headers : Headers
  deriving DecidableEq, Repr

/-- A response. -/
structure Response where
  /-- The status code. -/
  status : Nat
  /-- The values of the link headers. -/
  links : List (List UInt8)
  /-- Where a redirect leads. -/
  location : Option String
  /-- The media type of the body. -/
  contentType : Option String
  /-- The bytes of the body that arrived. -/
  body : List UInt8
  /-- The whole body arrived. -/
  complete : Bool
  deriving DecidableEq, Repr

/-- What a server does with a request. -/
inductive Reply where
  | hangUp
  | response (response : Response)
  deriving DecidableEq, Repr

namespace Response

/-- A response that leads nowhere, with texts for its links and its body. -/
def plain (status : Nat) (links : List String) (body : String) : Response :=
  ⟨status, links.map fun link => Text.Utf8.encode link.toList, none, none,
    Text.Utf8.encode body.toList, true⟩

/-- The request succeeded. -/
def isSuccess (r : Response) : Bool := 200 ≤ r.status && r.status ≤ 299

/-- Asks for the request to be sent elsewhere. -/
def isRedirect (r : Response) : Bool := [301, 302, 303, 307, 308].contains r.status

/-- The text of the body, if all of it arrived. -/
def text? (r : Response) : Option String :=
  if r.complete then some (String.ofList (Text.Charset.bodyText r.contentType r.body)) else none

end Response

namespace Headers

/-- The authorization of a user name and password in a URL. -/
def basic (authority : Authority) : Option String :=
  if authority.user.isEmpty && authority.password.isNone then none
  else
    let password := (authority.password.map Percent.decode).getD []
    let bytes := Text.Utf8.encode (Percent.decode authority.user ++ ':' :: password)
    some ("Basic " ++ String.ofList (Text.Base64.encode bytes))

/-- The headers of a request to a URL: user information there takes the place of the usual
authorization. -/
def forUrl (h : Headers) (url : Url) : Headers :=
  { h with authorization := url.authority.bind basic <|> h.authorization }

/-- The headers without an authorization. -/
def anonymous (h : Headers) : Headers := { h with authorization := none }

end Headers

end Http

end ReleaseDraft
