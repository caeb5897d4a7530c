import ReleaseDraft.Http.Script
import ReleaseDraft.Json.Printer

/-!
# Routes of a session

A session describes the server that a run talks to as JSON: a list of routes, each with a URL and
either a response or the note that the server hangs up.
-/

namespace ReleaseDraft

namespace Session

/-- Bytes from pairs of hexadecimal digits. -/
def hexBytes? : List Char → Option (List UInt8)
  | [] => some []
  | a :: b :: rest => do
    let high ← Percent.hexValue? a
    let low ← Percent.hexValue? b
    let rest ← hexBytes? rest
    return (high * 16 + low).toUInt8 :: rest
  | [_] => none

/-- Bytes: a text, or hexadecimal digits in a field of their own. -/
def bytes? : Json → Option (List UInt8)
  | .string text => some (Text.Utf8.encode text.toList)
  | value => do hexBytes? (← (← value.field? "hex").string?).toList

/-- The body of a route: JSON, bytes or nothing. -/
def body? (value : Json) : Option (List UInt8) :=
  match value.field? "json", value.given? "body" with
  | some content, _ => some (Text.Utf8.encode content.text)
  | none, some body => bytes? body
  | none, none => some []

/-- The statuses whose responses have no body. -/
def bodiless : List Nat := [204, 205, 304]

/-- The response of a route. -/
def response? (value : Json) : Option Http.Response := do
  let status ← match value.given? "status" with
    | some status => status.nat?
    | none => some 200
  let links ← match value.given? "links" with
    | some links => (← links.array?).mapM bytes?
    | none => some []
  let location := (value.given? "location").bind Json.string?
  let contentType := (value.given? "content_type").bind Json.string?
  let body ← body? value
  let missing := ((value.given? "missing").bind Json.nat?).getD 0
  if bodiless.contains status then return ⟨status, links, location, contentType, [], true⟩
  else return ⟨status, links, location, contentType, body, missing == 0⟩

/-- A route. -/
def route? (value : Json) : Option Http.Route := do
  let url ← (← value.field? "url").string?
  match value.given? "hang_up" with
  | some (.bool true) => return ⟨url, .hangUp⟩
  | _ => return ⟨url, .response (← response? value)⟩

/-- The routes of a session. -/
def routes? (value : Json) : Option (List Http.Route) :=
  match value.given? "routes" with
  | some routes => do (← routes.array?).mapM route?
  | none => some []

end Session

end ReleaseDraft
