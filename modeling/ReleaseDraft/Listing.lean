import ReleaseDraft.Consumer
import ReleaseDraft.Forge
import ReleaseDraft.Http.Link
import ReleaseDraft.Http.Network
import ReleaseDraft.Json.Reader
import ReleaseDraft.Log

/-!
# Listings

A listing is read page by page.  A page is an array of items with a link to the next page, or a
single item, which ends the listing.  A page that fails is one error and ends the listing too.

A `Cursor` is a place in a listing.  `Listing.pull` hands out the element there and asks for pages
only when no item is at hand; `Listing.read` pulls for a consumer until the consumer is done or the
listing is over.  As a forge may link pages without end, both take a limit on the number of pages
that may be asked for, and have no result when the limit is reached.
-/

namespace ReleaseDraft

/-- What has happened: the requests that reached a server, and the log. -/
structure Trace where
  requests : List Http.Request
  log : List LogEntry
  deriving DecidableEq, Repr

namespace Trace

/-- Nothing has happened yet. -/
def empty : Trace := ⟨[], []⟩

/-- The trace with a further log entry. -/
def write (trace : Trace) (entry : LogEntry) : Trace := { trace with log := trace.log ++ [entry] }

end Trace

/-- A page of a listing. -/
structure Page where
  items : List Json
  next : Option Url

/-- An item of a listing, or the error of a page. -/
abbrev Listed := Except Error Json

/-- A place in a listing: the items at hand, and the page to ask for when they run out. -/
structure Cursor where
  items : List Json
  next : Option Url

namespace Cursor

/-- The place before the first page. -/
def start (url : Url) : Cursor := ⟨[], some url⟩

/-- The place after the last element. -/
def finish : Cursor := ⟨[], none⟩

end Cursor

/-- What comes of a pull. -/
inductive Pulled where
  /-- The listing is over. -/
  | ended
  /-- An element, the place after it, and the number of pages that may still be asked for. -/
  | element (value : Listed) (rest : Cursor) (limit : Nat)

namespace Page

/-- The value that a body writes. -/
def content? (response : Http.Response) : Option Json := do
  let text ← if response.complete then Text.Utf8.decode? response.body else none
  Json.parse? text

/-- The error of a response that is no success. -/
def refused (url : Url) (response : Http.Response) : Error :=
  let body := response.text?.getD
    ("<unreadable body: " ++ NetworkFailure.unreadableBody.message ++ ">")
  .api url.render response.status body

/-- The page that a value is, given its link to a next page. -/
def ofJson (next : Option Url) : Json → Page
  | .array items => ⟨items, next⟩
  | item => ⟨[item], none⟩

/-- The page in a response to a request for a URL. -/
def ofResponse (url : Url) (response : Http.Response) : Except Error Page :=
  if !response.isSuccess then .error (refused url response)
  else match Http.Link.next url response.links with
    | .error cause => .error (.url cause)
    | .ok next =>
      match content? response with
      | none => .error (.network .unreadableBody)
      | some value => .ok (ofJson next value)

end Page

namespace Listing

variable {σ : Type}

/-- Asks for a page. -/
def fetch (net : Http.Network) (headers : Http.Headers) (url : Url) (trace : Trace) :
    Except Error Page × Trace :=
  let trace := trace.write (.debug ("fetching " ++ url.render))
  let (outcome, requests) := net.get headers url trace.requests
  let trace := { trace with requests }
  match outcome with
  | .error failure => (.error (.network failure), trace)
  | .ok response => (Page.ofResponse url response, trace)

/-- Hands out the element at a place and asks for at most `limit` pages to find one.  There is no
result if it takes more pages than that. -/
def pull (net : Http.Network) (headers : Http.Headers) :
    Nat → Cursor → Trace → Option (Pulled × Trace)
  | limit, ⟨item :: items, next⟩, trace => some (.element (.ok item) ⟨items, next⟩ limit, trace)
  | _, ⟨[], none⟩, trace => some (.ended, trace)
  | 0, ⟨[], some _⟩, _ => none
  | limit + 1, ⟨[], some url⟩, trace =>
    match fetch net headers url trace with
    | (.error e, trace) => some (.element (.error e) .finish limit, trace)
    | (.ok page, trace) => pull net headers limit ⟨page.items, page.next⟩ trace

/-- A pull that hands out an element uses up a page or an item at hand. -/
theorem pull_uses_up {net : Http.Network} {headers : Http.Headers} {limit left : Nat}
    {cursor rest : Cursor} {trace trace' : Trace} {value : Listed}
    (h : pull net headers limit cursor trace = some (.element value rest left, trace')) :
    left < limit ∨ left = limit ∧ rest.items.length < cursor.items.length := by
  fun_induction pull net headers limit cursor trace with
  | case1 =>
    cases h
    exact .inr ⟨rfl, Nat.lt_succ_self _⟩
  | case2 => cases h
  | case3 => cases h
  | case4 =>
    cases h
    exact .inl (Nat.lt_succ_self _)
  | case5 _ _ _ _ _ _ ih =>
    rcases ih h with less | ⟨rfl, _⟩
    · exact .inl (Nat.lt_succ_of_lt less)
    · exact .inl (Nat.lt_succ_self _)

/-- Pulls elements for a consumer until it is done or the listing is over.  There is no result if
that takes more than `limit` pages. -/
def read (net : Http.Network) (headers : Http.Headers) (visit : Visit σ Listed) (limit : Nat)
    (cursor : Cursor) (s : σ) (trace : Trace) : Option (σ × Trace) :=
  match _pulled : pull net headers limit cursor trace with
  | none => none
  | some (.ended, trace) => some (s, trace)
  | some (.element value rest limit, trace) =>
    match visit s value with
    | .done s => some (s, trace)
    | .more s => read net headers visit limit rest s trace
termination_by (limit, cursor.items.length)
decreasing_by
  rcases pull_uses_up _pulled with less | ⟨rfl, fewer⟩
  · exact .left _ _ less
  · exact .right _ fewer

/-- The first `count` elements of a listing. -/
def take (net : Http.Network) (headers : Http.Headers) (limit count : Nat) (start : Url) :
    Option (List Listed × Trace) :=
  if count = 0 then some ([], .empty)
  else read net headers (Visit.collect count) limit (.start start) [] .empty

/-- An element of a listing as a pull request. -/
def asPull : Listed → Except Error PullRequest
  | .ok item => (PullRequest.decode item).mapError .decoding
  | .error e => .error e

end Listing

end ReleaseDraft
