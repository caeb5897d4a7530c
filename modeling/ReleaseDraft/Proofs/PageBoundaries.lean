import ReleaseDraft.Proofs.AllOrNothing

/-!
# Page boundaries are invisible

A forge may split a list of items into pages in many ways: with pages of any size, with empty pages
in between, with a single item that is no array as the last page, and with any URLs for the links
from page to page.  `Listing.Serves` says that some such split has the given items.

A consumer cannot tell one split from another: reading ends in the state in which the whole list of
items leaves the consumer (`Listing.Serves.finishes`).  So a draft depends on the items alone
(`Draft.yields_of_same_items`).
-/

namespace ReleaseDraft

namespace Listing

variable (net : Http.Network) (headers : Http.Headers)

/-- From the page `url` on, after the requests `past`, finitely many sound pages have the items
`items` in this order. -/
inductive Serves : Url → List Http.Request → List Json → Prop
  /-- An array without a link to a next page is the end. -/
  | last {url past items requests} :
      Delivers net headers url past (.array items) none requests → Serves url past items
  /-- An array with a link goes on at the linked page. -/
  | more {url past items target requests rest} :
      Delivers net headers url past (.array items) (some target) requests →
      Serves target requests rest → Serves url past (items ++ rest)
  /-- Any other value is the end, with or without a link. -/
  | single {url past value next requests} :
      Delivers net headers url past value next requests → value.array? = none →
      Serves url past [value]

/-- Reading from the page `start` on ends in the state `s'` as soon as the limit allows the pages it
takes. -/
def Finishes {σ : Type} (visit : Visit σ Listed) (start : Option Url) (s : σ) (begun : Trace)
    (s' : σ) : Prop :=
  ∃ pages trace, ∀ limit, read net headers visit limit ⟨[], start⟩ s begun =
    if pages ≤ limit then some (s', trace) else none

variable {net headers} {σ : Type} {visit : Visit σ Listed} {s t s' : σ} {url : Url}
  {past requests : List Http.Request} {log : List LogEntry} {value : Json} {items : List Json}
  {next : Option Url} {f : Fetched}

/-! ### One page, then all of them -/

theorem finishes_none (s : σ) (begun : Trace) : Finishes net headers visit none s begun s :=
  ⟨0, begun, fun limit => by rw [read_none, if_pos (Nat.zero_le _)]⟩

/-- A consumer that is done with the elements of a page needs no further page. -/
theorem finishes_of_done (hf : Brings net headers f.url f.past f.outcome f.requests)
    (hfeed : visit.feed f.elements s = .done t) :
    Finishes net headers visit (some f.url) s ⟨f.past, log⟩ t := by
  refine ⟨1, ⟨f.requests, log ++ [f.entry]⟩, fun limit => ?_⟩
  cases limit with
  | zero => rw [read_zero, if_neg (Nat.not_succ_le_zero 0)]
  | succ limit =>
    rw [read_page hf, hfeed, if_pos (Nat.le_add_left 1 limit)]

/-- A consumer that wants more goes on at the page to which a page links. -/
theorem finishes_of_more (hf : Brings net headers f.url f.past f.outcome f.requests)
    (hfeed : visit.feed f.elements s = .more t)
    (hrest : Finishes net headers visit f.next t ⟨f.requests, log ++ [f.entry]⟩ s') :
    Finishes net headers visit (some f.url) s ⟨f.past, log⟩ s' := by
  obtain ⟨pages, trace, hread⟩ := hrest
  refine ⟨pages + 1, trace, fun limit => ?_⟩
  cases limit with
  | zero => rw [read_zero, if_neg (Nat.not_succ_le_zero pages)]
  | succ limit =>
    rw [read_page hf, hfeed]
    simp only [hread, Nat.add_le_add_iff_right]

/-- The last page leaves a consumer in the state after its elements. -/
theorem finishes_last (hf : Brings net headers f.url f.past f.outcome f.requests)
    (hnext : f.next = none) :
    Finishes net headers visit (some f.url) s ⟨f.past, log⟩ (visit.feed f.elements s).state := by
  cases hfeed : visit.feed f.elements s with
  | done t => exact finishes_of_done hf hfeed
  | more t => exact finishes_of_more hf hfeed (hnext ▸ finishes_none t _)

/-- **Page boundaries are invisible to a consumer**: reading ends in the state in which the items
leave it when they come one after the other. -/
theorem Serves.finishes (h : Serves net headers url past items) (visit : Visit σ Listed) (s : σ)
    (log : List LogEntry) :
    Finishes net headers visit (some url) s ⟨past, log⟩ (visit.feed (items.map .ok) s).state := by
  induction h generalizing s log with
  | @last url past items requests h =>
    exact finishes_last (f := ⟨url, past, .ok ⟨items, none⟩, requests⟩) h.brings_list rfl
  | @single url past value next requests h hvalue =>
    exact finishes_last (f := ⟨url, past, .ok ⟨[value], none⟩, requests⟩)
      (h.brings_single hvalue) rfl
  | @more url past items target requests rest h _ ih =>
    let f : Fetched := ⟨url, past, .ok ⟨items, some target⟩, requests⟩
    have hf : Brings net headers f.url f.past f.outcome f.requests := h.brings_list
    have helements : f.elements = items.map .ok := rfl
    rw [List.map_append, Visit.feed_append, ← helements]
    -- the consumer is done within this page, or the rest of the items continues where it is
    cases hfeed : visit.feed f.elements s with
    | done t => exact finishes_of_done hf hfeed
    | more t => exact finishes_of_more hf hfeed (ih t _)

end Listing

namespace Draft

open Listing (Serves)

section

variable {net net' : Http.Network} {options : Options} {headers : Http.Headers} {first : Url}
  {items : List Json}

/-- The draft of a listing that has the items `items`, said without pages. -/
def ofItems (options : Options) (items : List Json) : Except Error String :=
  (Selection.ofList options.tag.date (items.map (Listing.asPull ∘ .ok))).result.bind
    fun pulls => render options.forge options.tag pulls options.width

/-- The trace after a selection has ended: its log, and how many pull requests it chose. -/
def concluded (tag : Tag) (s : Selection) (trace : Trace) : Trace :=
  let trace := { trace with log := trace.log ++ s.log tag.date }
  match s.result with
  | .error _ => trace
  | .ok pulls =>
    trace.write (.debug (toString pulls.length ++ " pull requests merged since " ++ tag.name))

/-- The pull requests merged since a tag are the result of the selection that reads the listing. -/
theorem mergedSince_eq_map_read (net : Http.Network) {client : Client}
    (hfirst : client.firstPage "pulls" closedByUpdate = .ok first) (limit : Nat) (tag : Tag)
    (begun : Trace) :
    mergedSince net limit client tag begun =
      (Listing.read net client.headers ((Selection.visit tag.date).contramap Listing.asPull) limit
        (.start first) .start begun).map fun r => (r.1.result, concluded tag r.1 r.2) := by
  rw [mergedSince, hfirst]
  simp only
  cases Listing.read net client.headers ((Selection.visit tag.date).contramap Listing.asPull) limit
      (.start first) .start begun with
  | none => rfl
  | some r =>
    simp only [Option.bind_eq_bind, Option.bind_some, Option.map_some, concluded]
    cases r.1.result with
    | error e => rfl
    | ok pulls => rfl

/-- On a forge that serves items, the pull requests merged since a tag are selected from these. -/
theorem exists_mergedSince_eq {client : Client} {begun : Trace}
    (hfirst : client.firstPage "pulls" closedByUpdate = .ok first)
    (h : Serves net client.headers first begun.requests items) (tag : Tag) :
    ∃ pages trace, ∀ limit, mergedSince net limit client tag begun =
      if pages ≤ limit then
        some ((Selection.ofList tag.date (items.map (Listing.asPull ∘ .ok))).result, trace)
      else none := by
  obtain ⟨pages, trace, hread⟩ := h.finishes
    ((Selection.visit tag.date).contramap Listing.asPull) .start begun.log
  rw [Visit.feed_contramap, List.map_map, ← Selection.ofList] at hread
  let chosen := Selection.ofList tag.date (items.map (Listing.asPull ∘ .ok))
  refine ⟨pages, concluded tag chosen trace, fun limit => ?_⟩
  rw [mergedSince_eq_map_read net hfirst, Cursor.start, hread, apply_ite (Option.map _)]
  rfl

/-- On a forge that serves items, a draft comes to that of the items. -/
theorem Prepared.yields_ofItems (hprepared : Prepared options headers first)
    (h : Serves net headers first [] items) : Yields net options (ofItems options items) := by
  obtain ⟨client, hclient, rfl, hfirst⟩ := hprepared.client
  obtain ⟨begun, hnothing, hcompose⟩ := @exists_compose_eq net _ _ hclient
  rw [← hnothing] at h
  obtain ⟨pages, trace, hsince⟩ := exists_mergedSince_eq hfirst h options.tag
  refine ⟨trace, pages, fun limit => ?_⟩
  rw [hcompose, hsince, apply_ite (Option.map _)]
  rfl

/-- **Page boundaries are invisible.**  If two forges serve the same items, each over finitely many
sound pages, then a draft has the same outcome on both, however the items are split into pages and
whatever URLs the pages have. -/
theorem yields_of_same_items (net net' : Http.Network) (options : Options) (items : List Json)
    (h : ∀ headers first, Prepared options headers first → Serves net headers first [] items)
    (h' : ∀ headers first, Prepared options headers first → Serves net' headers first [] items) :
    ∃ outcome, Yields net options outcome ∧ Yields net' options outcome := by
  rcases prepared_or_firstFailure options with ⟨headers, first, hprepared⟩ | ⟨e, hfailure⟩
  · exact ⟨_, hprepared.yields_ofItems (h headers first hprepared),
      hprepared.yields_ofItems (h' headers first hprepared)⟩
  · exact ⟨.error e, (hfailure net).yields, (hfailure net').yields⟩

end

/-! ### The same items on three pages and on two -/

namespace Split

def options : Options :=
  ⟨⟨⟨"me", "it"⟩, .https "forge" [] none, "https://forge", none⟩, ⟨"v1", ⟨600, 0⟩⟩, 80⟩

def headers : Http.Headers := ⟨Forge.mediaType, Forge.userAgent, none⟩

/-- A page of the listing of pull requests. -/
def listing (query : String) : Url := .https "forge" ["repos", "me", "it", "pulls"] (some query)

def first : Url := listing "state=closed&sort=updated&direction=desc"

/-- A pull request that was merged after the tag. -/
def mergedBody : String := "[[7,\"Fix\",\"1970-1-1T0:20:0Z\",\"1970-1-1T0:15:0Z\"]]"

/-- A pull request that was not merged, written as an object. -/
def openBody : String :=
  "\x7b\"number\":8,\"title\":\"Add\",\"updated_at\":\"1970-01-01T00:20:00Z\"\x7d"

/-- The same pull request in an array. -/
def openArray : String :=
  "[\x7b\"number\":8,\"title\":\"Add\",\"updated_at\":\"1970-01-01T00:20:00Z\"\x7d]"

def mergedItem : Json :=
  .array [.integer 7, .string "Fix", .string "1970-1-1T0:20:0Z", .string "1970-1-1T0:15:0Z"]

def openItem : Json :=
  .object [("number", .integer 8), ("title", .string "Add"),
    ("updated_at", .string "1970-01-01T00:20:00Z")]

/-- An array of one pull request, an empty array, and a single pull request with a link that leads
nowhere. -/
def spread : Http.Network where
  connects _ := true
  answer requests :=
    match requests.length with
    | 1 => .response (.plain 200 ["<pulls?page=2>; rel=next"] mergedBody)
    | 2 => .response (.plain 200 ["<pulls?page=3>; rel=next"] "[]")
    | _ => .response (.plain 200 ["<pulls?page=4>; rel=next"] openBody)
  keeps := Http.Network.keepsOnServer

/-- Two arrays of one pull request each, the second at another resource. -/
def paired : Http.Network where
  connects _ := true
  answer requests :=
    match requests.length with
    | 1 => .response (.plain 200 ["<more>; rel=next"] mergedBody)
    | _ => .response (.plain 200 [] openArray)
  keeps := Http.Network.keepsOnServer

theorem prepared : Prepared options headers first where
  legal := by
    intro token htoken
    cases htoken
  headers_eq := rfl
  url := ⟨_, _, rfl, rfl, rfl⟩

theorem parse_mergedBody : Json.parse? mergedBody.toList = some (.array [mergedItem]) := by
  simp +decide [mergedBody, mergedItem, Json.parse?, Json.readValue, Json.readItems,
    Json.readString, Json.readNumber, Json.readFraction, Json.number, Json.appendDigits]

theorem ofFields_openItem : Json.ofFields [("number", .integer 8), ("title", .string "Add"),
    ("updated_at", .string "1970-01-01T00:20:00Z")] = openItem := rfl

theorem parse_openBody : Json.parse? openBody.toList = some openItem := by
  simp +decide [openBody, Json.parse?, Json.readValue, Json.readFields, Json.readString,
    Json.readNumber, Json.readFraction, Json.number, Json.appendDigits, ofFields_openItem]

theorem parse_openArray : Json.parse? openArray.toList = some (.array [openItem]) := by
  simp +decide [openArray, Json.parse?, Json.readValue, Json.readItems, Json.readFields,
    Json.readString, Json.readNumber, Json.readFraction, Json.number, Json.appendDigits,
    ofFields_openItem]

theorem parse_nothing : Json.parse? "[]".toList = some (.array []) := by
  simp +decide [Json.parse?, Json.readValue]

theorem serves_spread : Serves spread headers first [] [mergedItem, openItem] := by
  let past₁ : List Http.Request := [⟨first, headers⟩]
  let past₂ := past₁ ++ [⟨listing "page=2", headers⟩]
  have hfirst : Listing.Delivers spread headers first [] (.array [mergedItem])
      (some (listing "page=2")) past₁ :=
    Listing.delivers_plain rfl rfl rfl (by decide +kernel) parse_mergedBody
  have hsecond : Listing.Delivers spread headers (listing "page=2") past₁ (.array [])
      (some (listing "page=3")) past₂ :=
    Listing.delivers_plain rfl rfl rfl (by decide +kernel) parse_nothing
  have hthird : Listing.Delivers spread headers (listing "page=3") past₂ openItem
      (some (listing "page=4")) (past₂ ++ [⟨listing "page=3", headers⟩]) :=
    Listing.delivers_plain rfl rfl rfl (by decide +kernel) parse_openBody
  exact .more hfirst (.more hsecond (.single hthird rfl))

theorem serves_paired : Serves paired headers first [] [mergedItem, openItem] := by
  let more := Url.https "forge" ["repos", "me", "it", "more"] none
  have hfirst : Listing.Delivers paired headers first [] (.array [mergedItem]) (some more)
      [⟨first, headers⟩] :=
    Listing.delivers_plain rfl rfl rfl (by decide +kernel) parse_mergedBody
  have hsecond : Listing.Delivers paired headers more [⟨first, headers⟩] (.array [openItem]) none
      [⟨first, headers⟩, ⟨more, headers⟩] :=
    Listing.delivers_plain rfl rfl rfl (by decide +kernel) parse_openArray
  exact .more hfirst (.last hsecond)

end Split

theorem yields_of_same_items_sample : ∃ outcome,
    Yields Split.spread Split.options outcome ∧ Yields Split.paired Split.options outcome := by
  refine yields_of_same_items Split.spread Split.paired Split.options
    [Split.mergedItem, Split.openItem] (fun headers first h => ?_) fun headers first h => ?_
  · obtain ⟨rfl, rfl⟩ := h.unique Split.prepared
    exact Split.serves_spread
  · obtain ⟨rfl, rfl⟩ := h.unique Split.prepared
    exact Split.serves_paired

end Draft

end ReleaseDraft
