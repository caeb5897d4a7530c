import ReleaseDraft.Error
import ReleaseDraft.Http.Message
import ReleaseDraft.Url.Reader

/-!
# The network

A network says which URLs can be connected to, and what is replied to a request given all requests
that came before it.  `Network.get` sends a request and follows redirects, at most ten in a row.
Requests are listed in the order in which they reach a server.

Who follows redirects also decides whether a request keeps its authorization when it is sent on.
The rule for that is a part of the network (`Network.keeps`), with `Network.keepsOnServer` for the
usual one; all else in the headers of a request is as it was first sent.
-/

namespace ReleaseDraft

namespace Http

/-- What can be reached, and how requests fare there. -/
structure Network where
  connects : Url → Bool
  /-- What is replied to the last of the requests that reached a server. -/
  answer : List Request → Reply
  /-- A request that was sent to some URLs, the latest one last, keeps its authorization when a
  redirect sends it on to a further one. -/
  keeps : List Url → Url → Bool

namespace Network

/-- The usual rule for redirects: the authorization stays behind when host or port change. -/
def keepsOnServer (before : List Url) (target : Url) : Bool :=
  before.getLast?.any fun source =>
    source.host? == target.host? && source.port? == target.port?

/-- A network in which nothing can be reached. -/
def unreachable : Network := ⟨fun _ => false, fun _ => .hangUp, keepsOnServer⟩

/-- Redirects that are followed in a row. -/
def redirectLimit : Nat := 10

/-- Requests can be written for this URL: it is of the web, and its host has only characters of a
request line. -/
def isSendable (url : Url) : Bool :=
  let host := (url.host?.map Host.text).getD []
  (url.scheme == "http".toList || url.scheme == "https".toList) &&
    !host.any "\"`\x7b\x7d".toList.contains

/-- Where a response sends the request on, if it does. -/
def redirect? (url : Url) (response : Response) : Option Url := do
  let location ← if response.isRedirect then response.location else none
  (url.resolve location.toList).toOption

/-- The headers of a request to a URL, after redirects from the URLs `before`. -/
def headersAt (net : Network) (headers : Headers) (before : List Url) (url : Url) : Headers :=
  if before.isEmpty || net.keeps before url then headers else headers.anonymous

/-- Sends a request on to a URL, after redirects from the URLs `before`, and follows at most
`redirects` more.  Returns the outcome and all requests so far. -/
def follow (net : Network) (headers : Headers) : Nat → List Url → Url → List Request →
    Except NetworkFailure Response × List Request
  | redirects, before, url, past =>
    if !isSendable url then (.error (.unsendable url), past)
    else if !net.connects url then (.error (.noResponse url), past)
    else
      let past := past ++ [⟨url.withoutFragment, net.headersAt headers before url⟩]
      match net.answer past with
      | .hangUp => (.error (.noResponse url), past)
      | .response response =>
        match redirect? url response with
        | none => (.ok response, past)
        | some target =>
          match redirects with
          | 0 => (.error (.tooManyRedirects url), past)
          | redirects + 1 => follow net headers redirects (before ++ [url]) target past

/-- Sends a request for a URL.  Returns the outcome and all requests so far. -/
def get (net : Network) (headers : Headers) (url : Url) (past : List Request) :
    Except NetworkFailure Response × List Request :=
  net.follow (headers.forUrl url) redirectLimit [] url.withoutUser past

end Network

end Http

end ReleaseDraft
