import ReleaseDraft.Http.Network

/-!
# Scripted servers

A script lists replies for URLs.  A request takes the first reply for its URL that no earlier
request took; without one it is told that there is no route.  Only plain `http` can be connected to,
and an authorization stays behind when a redirect leads to another server.
-/

namespace ReleaseDraft

namespace Http

/-- A reply for a URL. -/
structure Route where
  url : String
  reply : Reply
  deriving DecidableEq, Repr

namespace Route

/-- The response to a request that has no route. -/
def absent : Reply := .response (.plain 404 [] "no route")

/-- The reply for a URL and the routes that are left. -/
def take (url : String) : List Route → Reply × List Route
  | [] => (absent, [])
  | route :: rest =>
    if route.url = url then (route.reply, rest)
    else
      let (reply, left) := take url rest
      (reply, route :: left)

end Route

namespace Network

/-- The network of a script. -/
def ofScript (routes : List Route) : Network where
  connects url := url.scheme == "http".toList
  answer requests :=
    (requests.foldl
      (fun (state : Reply × List Route) request => Route.take request.url.render state.2)
      (Route.absent, routes)).1
  keeps := keepsOnServer

end Network

end Http

end ReleaseDraft
