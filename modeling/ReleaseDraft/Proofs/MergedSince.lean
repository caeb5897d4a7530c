import ReleaseDraft.Draft
import ReleaseDraft.Proofs.EarlyStop

/-!
# Which pages a selection asks for

The pull requests merged since a tag are selected from a listing whose reading ends at some page:
the first with an element that stops the selection, or the last page there is (`Listing.EndsAt`).
Exactly the pages up to that one are asked for (`Draft.mergedSince_eq`), and what a forge would say
after the stop, on that page or on any other, has no influence (`Draft.mergedSince_stops`).
-/

namespace ReleaseDraft

theorem Visit.feed_contramap {σ α β : Type} (visit : Visit σ α) (f : β → α) (xs : List β) (s : σ) :
    (visit.contramap f).feed xs s = visit.feed (xs.map f) s := by
  induction xs generalizing s with
  | nil => rfl
  | cons x xs ih =>
    simp only [List.map_cons, feed, contramap]
    cases visit s (f x) with
    | more t => exact ih t
    | done t => rfl

namespace Url

/-- The text of key and value pairs as a query. -/
def formText (pairs : List (String × String)) : List Char :=
  ['&'].intercalate (pairs.map fun (key, value) =>
    Percent.encodeForm key.toList ++ '=' :: Percent.encodeForm value.toList)

theorem query_addQuery {url : Url} (h : url.query = none) (pairs : List (String × String)) :
    (url.addQuery pairs).query = if pairs.isEmpty then none else some (formText pairs) := by
  unfold addQuery
  split_ifs with hempty
  · exact h
  · simp [h, formText]

end Url

namespace Listing

open Selection (Stops Reads exists_reads)

variable {net : Http.Network} {headers : Http.Headers} {cutoff : Instant} {start : Url}
  {past requests : List Http.Request} {earlier pages : List Fetched} {last : Fetched}
  {next : Option Url}

/-- What pages contribute, read as pull requests. -/
def pullsOf (pages : List Fetched) : List (Except Error PullRequest) :=
  (pages.flatMap Fetched.elements).map asPull

theorem pullsOf_append (pages pages' : List Fetched) :
    pullsOf (pages ++ pages') = pullsOf pages ++ pullsOf pages' := by
  simp [pullsOf]

theorem pullsOf_page {f : Fetched} {page : Page} (h : f.outcome = .ok page) :
    pullsOf [f] = page.items.map (asPull ∘ .ok) := by
  simp [pullsOf, Fetched.elements, h]

theorem mem_pullsOf {pages : List Fetched} {x : Except Error PullRequest} :
    x ∈ pullsOf pages ↔ ∃ f ∈ pages, ∃ y ∈ f.elements, asPull y = x := by
  simp only [pullsOf, List.mem_map, List.mem_flatMap]
  constructor
  · rintro ⟨y, ⟨f, hf, hy⟩, rfl⟩
    exact ⟨f, hf, y, hy, rfl⟩
  · rintro ⟨f, hf, y, hy, rfl⟩
    exact ⟨y, ⟨f, hf, hy⟩, rfl⟩

/-- The pages `earlier` and then `last` are those up to the one where a selection ends: it is the
first with an element that stops the selection, or the last one there is. -/
structure EndsAt (net : Http.Network) (headers : Http.Headers) (cutoff : Instant) (start : Url)
    (past : List Http.Request) (earlier : List Fetched) (last : Fetched) (next : Option Url)
    (requests : List Http.Request) : Prop where
  chain : Chain net headers (some start) past (earlier ++ [last]) next requests
  going : ∀ f ∈ earlier, ∀ x ∈ f.elements, ¬Stops cutoff (asPull x)
  complete : (∃ x ∈ last.elements, Stops cutoff (asPull x)) ∨ next = none

/-- A chain that comes to an end, or on which something stops the selection, has a page where the
selection ends. -/
theorem exists_endsAt (hchain : Chain net headers (some start) past pages next requests)
    (hover : next = none ∨ ∃ x ∈ pullsOf pages, Stops cutoff x) :
    ∃ earlier last next requests,
      EndsAt net headers cutoff start past earlier last next requests := by
  induction pages generalizing start past with
  | nil =>
    obtain ⟨rfl, rfl⟩ := chain_nil_iff.1 hchain
    simp [pullsOf] at hover
  | cons f pages ih =>
    obtain ⟨hstart, rfl, hf, hpages⟩ := chain_cons_iff.1 hchain
    cases hstart
    have hone : Chain net headers (some f.url) f.past ([] ++ [f]) f.next f.requests :=
      .cons hf (.nil _ _)
    -- the selection ends here, or it goes on to what the rest of the chain has
    by_cases hstop : ∃ x ∈ f.elements, Stops cutoff (asPull x)
    · exact ⟨[], f, _, _, hone, by simp, .inl hstop⟩
    · cases hnext : f.next with
      | none => exact ⟨[], f, _, _, hone, by simp, .inr hnext⟩
      | some url =>
        rw [hnext] at hpages
        have hover' : next = none ∨ ∃ x ∈ pullsOf pages, Stops cutoff x := by
          refine hover.imp_right ?_
          rintro ⟨x, hx, hxs⟩
          obtain ⟨g, hg, y, hy, rfl⟩ := mem_pullsOf.1 hx
          rcases List.mem_cons.1 hg with rfl | hg
          · exact absurd ⟨y, hy, hxs⟩ hstop
          · exact ⟨_, mem_pullsOf.2 ⟨g, hg, y, hy, rfl⟩, hxs⟩
        obtain ⟨earlier, last, next, requests, h⟩ := ih hpages hover'
        refine ⟨f :: earlier, last, next, requests, ?_, ?_, h.complete⟩
        · exact .cons hf (hnext ▸ h.chain)
        · intro g hg
          rcases List.mem_cons.1 hg with rfl | hg
          · exact fun x hx hxs => hstop ⟨x, hx, hxs⟩
          · exact h.going g hg

theorem feed_selection (pages : List Fetched) (s : Selection) :
    ((Selection.visit cutoff).contramap asPull).feed (pages.flatMap Fetched.elements) s =
      (Selection.visit cutoff).feed (pullsOf pages) s :=
  Visit.feed_contramap _ _ _ _

/-- A selection needs exactly the pages up to where it ends. -/
theorem EndsAt.covers (h : EndsAt net headers cutoff start past earlier last next requests) :
    Covers ((Selection.visit cutoff).contramap asPull) .start (earlier ++ [last]) next
      (Selection.ofList cutoff (pullsOf (earlier ++ [last]))) := by
  constructor
  · intro m hm
    have hm' : m ≤ earlier.length := by simpa using Nat.le_of_lt_succ (by simpa using hm)
    rw [List.take_append_of_le_length hm', feed_selection]
    obtain ⟨pulls, ending, hreads⟩ := exists_reads cutoff (pullsOf (earlier.take m))
    -- nothing stops the selection on the earlier pages
    obtain rfl : ending = .exhausted := hreads.exhausted_iff.2 fun x hx => by
      obtain ⟨f, hf, y, hy, rfl⟩ := mem_pullsOf.1 hx
      exact h.going f (List.mem_of_mem_take hf) y hy
    exact ⟨_, hreads.feed_eq _⟩
  · rw [feed_selection, Selection.ofList]
    obtain ⟨pulls, ending, hreads⟩ := exists_reads cutoff (pullsOf (earlier ++ [last]))
    rw [hreads.feed_eq]
    cases ending with
    | stale pull => exact .inl rfl
    | failed e => exact .inl rfl
    | exhausted =>
      refine .inr ⟨rfl, h.complete.resolve_left ?_⟩
      rintro ⟨x, hx, hxs⟩
      exact hreads.exhausted_iff.1 rfl _ (mem_pullsOf.2 ⟨last, by simp, x, hx, rfl⟩) hxs

/-! ### Two forges -/

/-- Two networks answer the request for a page alike, except perhaps for the items of its array
after one that stops the selection. -/
def AgreeUpToStop (net net' : Http.Network) (headers : Http.Headers) (cutoff : Instant)
    (f : Fetched) : Prop :=
  net'.get headers f.url f.past = net.get headers f.url f.past ∨
    ∃ response response' requests items item rest rest',
      net.get headers f.url f.past = (.ok response, requests) ∧
      net'.get headers f.url f.past = (.ok response', requests) ∧
      200 ≤ response.status ∧ response.status ≤ 299 ∧
      response'.status = response.status ∧ response'.links = response.links ∧
      Page.content? response = some (.array (items ++ item :: rest)) ∧
      Page.content? response' = some (.array (items ++ item :: rest')) ∧
      Stops cutoff (asPull (.ok item))

variable {net' : Http.Network} {f : Fetched}

/-- A chain of pages is the same on a network that answers their requests alike. -/
theorem Chain.congr {start : Option Url} (h : Chain net headers start past pages next requests)
    (hget : ∀ f ∈ pages, net'.get headers f.url f.past = net.get headers f.url f.past) :
    Chain net' headers start past pages next requests := by
  induction h with
  | nil => exact .nil _ _
  | cons hb _ ih =>
    exact .cons (hb.congr (hget _ List.mem_cons_self))
      (ih fun g hg => hget g (List.mem_cons_of_mem _ hg))

/-- What a page comes to on a network that answers alike up to a stop. -/
theorem AgreeUpToStop.brings (h : AgreeUpToStop net net' headers cutoff f)
    (hf : Brings net headers f.url f.past f.outcome f.requests) :
    Brings net' headers f.url f.past f.outcome f.requests ∨
      ∃ items item rest rest' next, f.outcome = .ok ⟨items ++ item :: rest, next⟩ ∧
        Brings net' headers f.url f.past (.ok ⟨items ++ item :: rest', next⟩) f.requests ∧
        Stops cutoff (asPull (.ok item)) := by
  rcases h with h | ⟨response, response', requests, items, item, rest, rest', hget, hget', hlo, hhi,
    hstatus, hlinks, hbody, hbody', hstop⟩
  · exact .inl (hf.congr h)
  have hs' : 200 ≤ response'.status ∧ response'.status ≤ 299 := by rw [hstatus]; exact ⟨hlo, hhi⟩
  have hfetch := hf.fetch_eq []
  -- the link is the same, so either it fails on both networks or both have the page
  cases hnext : Http.Link.next f.url response.links with
  | error cause =>
    have hb : Brings net headers f.url f.past (.error (.url cause)) requests :=
      .misled hget ⟨hlo, hhi⟩ hnext
    have hb' : Brings net' headers f.url f.past (.error (.url cause)) requests :=
      .misled hget' hs' (hlinks ▸ hnext)
    rw [hb.fetch_eq] at hfetch
    simp only [Prod.mk.injEq, Trace.mk.injEq] at hfetch
    exact .inl (hfetch.1 ▸ hfetch.2.1 ▸ hb')
  | ok next =>
    have hb : Brings net headers f.url f.past (.ok ⟨items ++ item :: rest, next⟩) requests :=
      .list hget ⟨hlo, hhi⟩ hnext hbody
    have hb' : Brings net' headers f.url f.past (.ok ⟨items ++ item :: rest', next⟩) requests :=
      .list hget' hs' (hlinks ▸ hnext) hbody'
    rw [hb.fetch_eq] at hfetch
    simp only [Prod.mk.injEq, Trace.mk.injEq] at hfetch
    exact .inr ⟨items, item, rest, rest', next, hfetch.1.symm, hfetch.2.1 ▸ hb', hstop⟩

/-- **What a selection reads does not depend on what stands after the stop**: on a network that
answers alike up to there, it ends at the same page and reads the same. -/
theorem EndsAt.congr (h : EndsAt net headers cutoff start past earlier last next requests)
    (hearlier : ∀ f ∈ earlier, net'.get headers f.url f.past = net.get headers f.url f.past)
    (hlast : AgreeUpToStop net net' headers cutoff last) :
    ∃ last', last'.url = last.url ∧
      EndsAt net' headers cutoff start past earlier last' next requests ∧
      ∀ pulls ending, Reads cutoff (pullsOf (earlier ++ [last])) pulls ending →
        Reads cutoff (pullsOf (earlier ++ [last'])) pulls ending := by
  obtain ⟨middle, requests', hinit, hone⟩ := chain_append_iff.1 h.chain
  have hinit' := hinit.congr hearlier
  obtain ⟨rfl, rfl, hbrings, hnil⟩ := chain_cons_iff.1 hone
  obtain ⟨rfl, rfl⟩ := chain_nil_iff.1 hnil
  -- the last page is the same, or it is the same up to an item that stops the selection
  rcases hlast.brings hbrings with hb | ⟨items, item, rest, rest', next, houtcome, hb, hstop⟩
  · have hchain' := chain_append_iff.2 ⟨_, _, hinit', .cons hb (.nil _ _)⟩
    exact ⟨last, rfl, ⟨hchain', h.going, h.complete⟩, fun _ _ hreads => hreads⟩
  · let last' : Fetched := ⟨last.url, last.past, .ok ⟨items ++ item :: rest', next⟩, last.requests⟩
    have hnext : last'.next = last.next := by simp [last', Fetched.next, houtcome]
    refine ⟨last', rfl, ⟨?_, h.going, .inl ⟨.ok item, ?_, hstop⟩⟩, fun pulls ending hreads => ?_⟩
    · exact chain_append_iff.2 ⟨_, _, hinit', hnext ▸ Chain.cons (f := last') hb (.nil _ _)⟩
    · simp [last', Fetched.elements]
    · rw [pullsOf_append, pullsOf_page houtcome, List.map_append, List.map_cons,
        ← List.append_assoc] at hreads
      rw [pullsOf_append, pullsOf_page (f := last') rfl, List.map_append, List.map_cons,
        ← List.append_assoc]
      exact hreads.append_stop hstop _

end Listing

namespace Draft

open Listing (Fetched Brings Chain EndsAt pullsOf)

open Selection (Reads sorted keptOf outcomeAt)

/-! ### The pages that are asked for -/

section

variable {net : Http.Network} {client : Client} {tag : Tag} {trace : Trace} {url : Url}
  {requests : List Http.Request} {earlier : List Fetched} {last : Fetched} {next : Option Url}
  {pulls : List PullRequest} {ending : Ending}

/-- What is logged at the end of a selection of the pull requests `chosen`. -/
def closing (tag : Tag) (chosen : List PullRequest) : Ending → List LogEntry
  | .failed _ => []
  | .exhausted =>
    [.debug (toString chosen.length ++ " pull requests merged since " ++ tag.name)]
  | .stale pull =>
    [.debug ("stopping at #" ++ toString pull.number ++ " last updated " ++
        pull.updatedAt.render ++ " before " ++ tag.date.render),
      .debug (toString chosen.length ++ " pull requests merged since " ++ tag.name)]

/-- **The pull requests merged since a tag** are those that the pages up to the end of the selection
have, and only these pages are asked for. -/
theorem mergedSince_eq (hfirst : client.firstPage "pulls" closedByUpdate = .ok url)
    (hends : EndsAt net client.headers tag.date url trace.requests earlier last next requests)
    (hreads : Reads tag.date (pullsOf (earlier ++ [last])) pulls ending) (limit : Nat) :
    mergedSince net limit client tag trace =
      if earlier.length < limit then
        some (outcomeAt (sorted (keptOf tag.date pulls)) ending,
          ⟨requests, trace.log ++ (earlier ++ [last]).map Fetched.entry ++
            closing tag (sorted (keptOf tag.date pulls)) ending⟩)
      else none := by
  have hread := Listing.read_of_covers hends.chain hends.covers limit trace.log
  have hlength : (earlier ++ [last]).length ≤ limit ↔ earlier.length < limit := by
    rw [List.length_append, List.length_singleton, Nat.succ_le_iff]
  have hstate : Selection.ofList tag.date (pullsOf (earlier ++ [last])) =
      (Selection.stepAt tag.date .start pulls ending).state := by
    rw [Selection.ofList, hreads.feed_eq]
  simp only [hlength, hstate] at hread
  unfold mergedSince
  rw [hfirst]
  simp only
  rw [show Cursor.start url = ⟨[], some url⟩ from rfl, hread]
  split_ifs
  · -- the three endings differ in what the outcome and the log are
    cases ending <;>
      simp [Selection.stepAt, Step.state, Selection.result, Selection.log, outcomeAt, closing,
        Trace.write, Selection.start]
  · rfl

/-- The resource of pull requests has no query of its own. -/
theorem resolve_pulls_query {base target : Url} (h : base.resolve "pulls".toList = .ok target) :
    target.query = none := by
  have href : Reference.ofText "pulls".toList = ⟨none, "pulls".toList, none, none⟩ := rfl
  unfold Url.resolve at h
  simp only [href] at h
  unfold Url.withoutScheme at h
  split at h
  · cases h
  · split_ifs at h
    · cases h
      rfl
    · cases h
      rfl

/-- The query is added to the first page. -/
theorem addQuery_closedByUpdate {target : Url} (h : target.query = none) :
    (target.addQuery closedByUpdate).query =
      some "state=closed&sort=updated&direction=desc".toList :=
  Url.query_addQuery h closedByUpdate

/-- **What lies after the stop is neither asked for nor able to matter.**  Let a selection end at
the page `last`.  Then exactly the pages `earlier` and `last` are asked for, each once and in order,
the first at the resource with its query and every other where the page before it links to.  And on
any network that answers the requests for these pages alike, apart from the items of the last page
after one that stops the selection, the outcome, the log and the requests are the same. -/
theorem mergedSince_stops (net : Http.Network) (client : Client) (tag : Tag) (trace : Trace)
    (target : Url) (earlier : List Fetched) (last : Fetched) (next : Option Url)
    (requests : List Http.Request) (htarget : client.base.resolve "pulls".toList = .ok target)
    (hends : EndsAt net client.headers tag.date (target.addQuery closedByUpdate) trace.requests
      earlier last next requests) :
    (∃ outcome log, ∀ limit, mergedSince net limit client tag trace =
        if earlier.length < limit then
          some (outcome, ⟨requests, trace.log ++ (earlier ++ [last]).map Fetched.entry ++ log⟩)
        else none) ∧
      requests = trace.requests ++ (earlier ++ [last]).flatMap Fetched.sent ∧
      (∀ f ∈ earlier ++ [last], Listing.SentFor net client.headers f) ∧
      (earlier ++ [last]).head?.map Fetched.url = some (target.addQuery closedByUpdate) ∧
      target.query = none ∧ (target.addQuery closedByUpdate).query =
        some "state=closed&sort=updated&direction=desc".toList ∧
      (earlier ++ [last]).IsChain (Listing.LinksTo net client.headers) ∧
      ∀ net' : Http.Network,
        (∀ f ∈ earlier, net'.get client.headers f.url f.past =
          net.get client.headers f.url f.past) →
        Listing.AgreeUpToStop net net' client.headers tag.date last →
        ∀ limit, mergedSince net' limit client tag trace =
          mergedSince net limit client tag trace := by
  have hfirst : client.firstPage "pulls" closedByUpdate = .ok (target.addQuery closedByUpdate) :=
    Listing.firstPage_eq_ok_iff.2 ⟨target, htarget, rfl⟩
  obtain ⟨pulls, ending, hreads⟩ :=
    Selection.exists_reads tag.date (pullsOf (earlier ++ [last]))
  have hquery := resolve_pulls_query htarget
  refine ⟨⟨_, _, mergedSince_eq hfirst hends hreads⟩, hends.chain.requests_eq,
    fun f hf => (hends.chain.brings hf).sentFor, ?_, hquery, addQuery_closedByUpdate hquery,
    hends.chain.linksTo, fun net' hearlier hlast limit => ?_⟩
  · cases earlier with
    | nil => exact (Listing.chain_cons_iff.1 hends.chain).1.symm
    | cons f earlier => exact (Listing.chain_cons_iff.1 hends.chain).1.symm
  · obtain ⟨last', hurl, hends', hreads'⟩ := hends.congr hearlier hlast
    rw [mergedSince_eq hfirst hends hreads, mergedSince_eq hfirst hends' (hreads' _ _ hreads)]
    simp [Fetched.entry, hurl]

end

/-! ### A forge with three pages -/

namespace ThreePages

/-- The interface of a forge, with the base of the repository. -/
def client : Client :=
  ⟨⟨⟨"me", "it"⟩, .https "forge" [""] none, "https://forge", none⟩,
    .https "forge" ["repos", "me", "it", ""] none, ⟨Forge.mediaType, Forge.userAgent, none⟩⟩

def tag : Tag := ⟨"v1", ⟨600, 0⟩⟩

/-- A page of the listing of pull requests. -/
def listing (query : String) : Url := .https "forge" ["repos", "me", "it", "pulls"] (some query)

def request (query : String) : Http.Request := ⟨listing query, client.headers⟩

/-- A pull request that was merged after the tag. -/
def firstBody : String := "[[7,\"Fix\",\"1970-01-01T00:20:00Z\",\"1970-01-01T00:15:00Z\"]]"

/-- A stale pull request, and a number. -/
def lastBody : String := "[[6,\"Old\",\"1970-01-01T00:00:00Z\",null],1]"

/-- The same with another number. -/
def otherBody : String := "[[6,\"Old\",\"1970-01-01T00:00:00Z\",null],2]"

/-- The second page, with a link to a third one. -/
def second (body : String) : Http.Response := .plain 200 ["<pulls?page=3>; rel=next"] body

/-- A forge that links three pages, of which `body` is the second.  It hangs up on a third
request. -/
def net (body : String) : Http.Network where
  connects _ := true
  answer requests :=
    match requests.length with
    | 1 => .response (.plain 200 ["<pulls?page=2>; rel=next"] firstBody)
    | 2 => .response (second body)
    | _ => .hangUp
  keeps := Http.Network.keepsOnServer

def merged : Json :=
  .array [.integer 7, .string "Fix", .string "1970-01-01T00:20:00Z", .string "1970-01-01T00:15:00Z"]

def stale : Json := .array [.integer 6, .string "Old", .string "1970-01-01T00:00:00Z", .null]

def first : Fetched :=
  ⟨listing "state=closed&sort=updated&direction=desc", [], .ok ⟨[merged], some (listing "page=2")⟩,
    [request "state=closed&sort=updated&direction=desc"]⟩

def last (tail : Json) : Fetched :=
  ⟨listing "page=2", first.requests, .ok ⟨[stale, tail], some (listing "page=3")⟩,
    first.requests ++ [request "page=2"]⟩

theorem parse_bodies :
    Json.parse? firstBody.toList = some (.array [merged]) ∧
      Json.parse? lastBody.toList = some (.array [stale, .integer 1]) ∧
      Json.parse? otherBody.toList = some (.array [stale, .integer 2]) := by
  simp +decide [firstBody, lastBody, otherBody, merged, stale, Json.parse?, Json.readValue,
    Json.readItems, Json.readString, Json.readNumber, Json.readFraction, Json.number,
    Json.appendDigits]

theorem content?_second :
    Page.content? (second lastBody) = some (.array [stale, .integer 1]) ∧
      Page.content? (second otherBody) = some (.array [stale, .integer 2]) :=
  ⟨Listing.content?_plain parse_bodies.2.1, Listing.content?_plain parse_bodies.2.2⟩

theorem get_first (body : String) : (net body).get client.headers first.url first.past =
    (.ok (.plain 200 ["<pulls?page=2>; rel=next"] firstBody), first.requests) :=
  Listing.get_plain rfl rfl rfl

theorem get_last (body : String) (tail : Json) :
    (net body).get client.headers (last tail).url (last tail).past =
      (.ok (second body), (last tail).requests) :=
  Listing.get_plain rfl rfl rfl

theorem brings_first (body : String) :
    Brings (net body) client.headers first.url first.past first.outcome first.requests :=
  (Listing.delivers_plain rfl rfl rfl (by decide +kernel) parse_bodies.1).brings_list

theorem brings_last : Brings (net lastBody) client.headers (last (.integer 1)).url
    (last (.integer 1)).past (last (.integer 1)).outcome (last (.integer 1)).requests :=
  (Listing.delivers_plain rfl rfl rfl (by decide +kernel) parse_bodies.2.1).brings_list

theorem asPull_merged : Listing.asPull (.ok merged) =
    .ok ⟨7, "Fix", ⟨1200, 0⟩, some ⟨900, 0⟩⟩ := rfl

theorem stops_stale : Selection.Stops tag.date (Listing.asPull (.ok stale)) := by
  have hpull : Listing.asPull (.ok stale) = .ok ⟨6, "Old", ⟨0, 0⟩, none⟩ := rfl
  rw [hpull]
  decide

/-- Reading ends with the second page. -/
theorem endsAt_last : EndsAt (net lastBody) client.headers tag.date
    (listing "state=closed&sort=updated&direction=desc") [] [first] (last (.integer 1))
    (some (listing "page=3")) (last (.integer 1)).requests where
  chain := .cons (brings_first _) (.cons brings_last (.nil _ _))
  going := by
    simp only [List.forall_mem_singleton, first, Fetched.elements, List.map_cons, List.map_nil,
      asPull_merged]
    decide
  complete := .inl ⟨.ok stale, List.mem_cons_self, stops_stale⟩

end ThreePages

theorem mergedSince_stops_sample :
    (∃ outcome log, mergedSince (ThreePages.net ThreePages.lastBody) 2 ThreePages.client
      ThreePages.tag .empty =
        some (outcome, ⟨(ThreePages.last (.integer 1)).requests, log⟩)) ∧
      mergedSince (ThreePages.net ThreePages.otherBody) 2 ThreePages.client ThreePages.tag .empty =
        mergedSince (ThreePages.net ThreePages.lastBody) 2 ThreePages.client ThreePages.tag
          .empty := by
  open ThreePages in
  obtain ⟨⟨outcome, log, hresult⟩, -, -, -, -, -, -, hsame⟩ :=
    mergedSince_stops (net lastBody) client tag .empty _ [first] (last (.integer 1)) _ _ rfl
      endsAt_last
  refine ⟨⟨outcome, _, hresult 2⟩, hsame (net otherBody) ?_ ?_ 2⟩
  · simp only [List.forall_mem_singleton, get_first]
  · exact .inr ⟨_, _, _, [], stale, [.integer 1], [.integer 2], get_last _ _, get_last _ _,
      by decide, by decide, rfl, rfl, content?_second.1, content?_second.2, stops_stale⟩

end Draft

end ReleaseDraft
