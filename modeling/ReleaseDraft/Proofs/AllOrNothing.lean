import ReleaseDraft.Proofs.MergedSince

/-!
# A draft is whole or there is none

Composing a draft goes through stages: the headers, the URL of the first page, the pages with their
items up to where the selection stops, and the layout.  `Draft.Succeeds` says when every stage does
its part and what the text then is, `Draft.FirstFailure` which stage fails first and with which
error.  On a forge on which reading ends (`Draft.Ends`) exactly one of the two is the case, and this
is what composing the draft comes to (`Draft.compose_outcome`).
-/

namespace ReleaseDraft

/-! ### Sound pages -/

namespace Selection

variable {cutoff : Instant} {elements : List (Except Error PullRequest)} {pulls : List PullRequest}
  {ending : Ending}

/-- An error that nothing before it keeps from being read is how reading ends. -/
theorem Reads.eq_failed {e : Error} (h : Reads cutoff (elements ++ [.error e]) pulls ending)
    (hgoing : ∀ x ∈ elements, ¬Stops cutoff x) : ending = .failed e := by
  induction elements generalizing pulls with
  | nil =>
    cases h
    rfl
  | cons x elements ih =>
    have hx := hgoing x List.mem_cons_self
    cases h with
    | stale hstale => exact absurd hstale hx
    | failed => exact absurd trivial hx
    | fresh _ h => exact ih h fun y hy => hgoing y (List.mem_cons_of_mem _ hy)

end Selection

namespace Listing

open Selection (Stops Reads)

variable {net : Http.Network} {headers : Http.Headers} {cutoff : Instant} {start : Url}
  {past requests : List Http.Request} {earlier : List Fetched} {last f : Fetched}
  {next : Option Url}

variable (net headers) in
/-- The request for a page succeeds, the link to the next page resolves, and the body is JSON. -/
def IsSound (f : Fetched) : Prop :=
  ∃ response next value, (net.get headers f.url f.past).1 = .ok response ∧
    200 ≤ response.status ∧ response.status ≤ 299 ∧
    Http.Link.next f.url response.links = .ok next ∧ Page.content? response = some value

theorem Brings.isSound (h : Brings net headers f.url f.past f.outcome f.requests)
    (hok : ∀ e, f.outcome ≠ .error e) : IsSound net headers f := by
  cases houtcome : f.outcome with
  | error e => exact absurd houtcome (hok e)
  | ok page =>
    rw [houtcome] at h
    cases h with
    | list hget hs hn hc => exact ⟨_, _, _, congrArg Prod.fst hget, hs.1, hs.2, hn, hc⟩
    | single hget hs hn hc _ => exact ⟨_, _, _, congrArg Prod.fst hget, hs.1, hs.2, hn, hc⟩

/-- All pages up to the end of a selection are sound unless the selection fails. -/
theorem EndsAt.isSound (h : EndsAt net headers cutoff start past earlier last next requests)
    {pulls : List PullRequest} {ending : Ending}
    (hreads : Reads cutoff (pullsOf (earlier ++ [last])) pulls ending)
    (hfine : ∀ e, ending ≠ .failed e) : ∀ f ∈ earlier ++ [last], IsSound net headers f := by
  intro f hf
  refine (h.chain.brings hf).isSound fun e he => ?_
  have helements : f.elements = [.error e] := by simp [Fetched.elements, he]
  rcases List.mem_append.1 hf with hf | hf
  · -- an earlier page with an error would have ended the selection
    exact h.going f hf (.error e) (by simp [helements]) trivial
  · obtain rfl := List.mem_singleton.1 hf
    have hpulls : pullsOf [f] = [.error e] := by simp [pullsOf, helements, asPull]
    rw [pullsOf_append, hpulls] at hreads
    refine hfine e (hreads.eq_failed fun x hx => ?_)
    obtain ⟨g, hg, y, hy, rfl⟩ := mem_pullsOf.1 hx
    exact h.going g hg y hy

end Listing

namespace Draft

open Listing (Fetched Brings Chain EndsAt IsSound pullsOf)

open Selection (Stops Reads Arranged Qualifies sorted keptOf outcomeAt)

/-! ### Stages -/

/-- The token, if there is one, may stand in a header. -/
def TokenIsLegal (forge : Forge) : Prop :=
  ∀ token, forge.token = some token →
    Http.Header.isLegal (Text.Utf8.encode token.toList) = true

/-- All is ready for the first request: the headers are legal, and the URL of the first page is
`first`. -/
structure Prepared (options : Options) (headers : Http.Headers) (first : Url) : Prop where
  legal : TokenIsLegal options.forge
  headers_eq : headers =
    ⟨Forge.mediaType, Forge.userAgent, options.forge.token.map ("token " ++ ·)⟩
  url : ∃ base target, options.forge.base = .ok base ∧
    base.resolve "pulls".toList = .ok target ∧ first = target.addQuery closedByUpdate

/-- Reading ends: if it comes to requests, then after finitely many pages there is no further one or
something stops the selection. -/
def Ends (net : Http.Network) (options : Options) : Prop :=
  ∀ headers first, Prepared options headers first → ∃ pages next requests,
    Chain net headers (some first) [] pages next requests ∧
      (next = none ∨ ∃ x ∈ pullsOf pages, Stops options.tag.date x)

/-- Every stage does its part, and `text` is the draft. -/
inductive Succeeds (net : Http.Network) (options : Options) : String → Prop
  | intro {headers first earlier last next requests pulls ending chosen list} :
      Prepared options headers first →
      EndsAt net headers options.tag.date first [] earlier last next requests →
      (∀ f ∈ earlier ++ [last], IsSound net headers f) →
      Reads options.tag.date (pullsOf (earlier ++ [last])) pulls ending →
      (∀ e, ending ≠ .failed e) →
      2 < options.width →
      Arranged (pulls.filter (Qualifies options.tag.date ·)) chosen →
      Layout.bulletList options.width (chosen.map (label options.forge)) = some list →
      Succeeds net options (banner options.forge options.tag ++ "\n" ++ list)

/-- A stage fails with an error, and those before it do not. -/
inductive FirstFailure (net : Http.Network) (options : Options) : Error → Prop
  | header {token} : options.forge.token = some token →
      Http.Header.isLegal (Text.Utf8.encode token.toList) = false →
      FirstFailure net options .invalidHeader
  | base {e} : TokenIsLegal options.forge → options.forge.base = .error e →
      FirstFailure net options e
  | first {base cause} : TokenIsLegal options.forge → options.forge.base = .ok base →
      base.resolve "pulls".toList = .error cause → FirstFailure net options (.url cause)
  | reading {headers first earlier last next requests pulls e} :
      Prepared options headers first →
      EndsAt net headers options.tag.date first [] earlier last next requests →
      Reads options.tag.date (pullsOf (earlier ++ [last])) pulls (.failed e) →
      FirstFailure net options e
  | width {headers first earlier last next requests pulls ending} :
      Prepared options headers first →
      EndsAt net headers options.tag.date first [] earlier last next requests →
      Reads options.tag.date (pullsOf (earlier ++ [last])) pulls ending →
      (∀ e, ending ≠ .failed e) →
      options.width ≤ 2 →
      FirstFailure net options (.invalidWidth options.width)

/-- Composing the draft comes to an outcome as soon as the limit allows the pages it takes. -/
def Yields (net : Http.Network) (options : Options) (outcome : Except Error String) : Prop :=
  ∃ trace pages, ∀ limit, compose net limit options =
    if pages ≤ limit then some (outcome, trace) else none

section

variable {net : Http.Network} {options : Options} {headers : Http.Headers} {first : Url}
  {outcome outcome' : Except Error String} {requests : List Http.Request} {earlier : List Fetched}
  {last : Fetched} {next : Option Url} {pulls : List PullRequest} {ending : Ending}

theorem Yields.unique (h : Yields net options outcome) (h' : Yields net options outcome') :
    outcome = outcome' := by
  obtain ⟨trace, pages, h⟩ := h
  obtain ⟨trace', pages', h'⟩ := h'
  have hmax := h (max pages pages')
  rw [h', if_pos (le_max_left _ _), if_pos (le_max_right _ _)] at hmax
  exact (Prod.mk.inj (Option.some.inj hmax)).1.symm

/-! ### What each stage comes to -/

/-- The word before a token is no obstacle. -/
theorem authorization_eq (token : String) : Forge.authorization token =
    if Http.Header.isLegal (Text.Utf8.encode token.toList) then .ok ("token " ++ token)
    else .error .invalidHeader := by
  have hword : ("token ".toList.flatMap Text.Utf8.encodeChar).all Http.Header.isLegalByte =
      true := by decide
  simp only [Forge.authorization, Http.Header.isLegal, Text.Utf8.encode, String.toList_append,
    List.flatMap_append, List.all_append, hword, Bool.true_and]
  rfl

theorem headers_eq_of_legal {forge : Forge} (h : TokenIsLegal forge) : forge.headers =
    .ok ⟨Forge.mediaType, Forge.userAgent, forge.token.map ("token " ++ ·)⟩ := by
  unfold Forge.headers
  cases htoken : forge.token with
  | none => rfl
  | some token => simp [authorization_eq, h token htoken, Except.map]

theorem client_eq_of_legal {forge : Forge} (h : TokenIsLegal forge) :
    forge.client = forge.base.map fun base => ⟨forge, base,
      ⟨Forge.mediaType, Forge.userAgent, forge.token.map ("token " ++ ·)⟩⟩ := by
  rw [Forge.client, headers_eq_of_legal h]
  cases forge.base with
  | error e => rfl
  | ok base => rfl

theorem client_eq_of_illegal {forge : Forge} (h : ¬TokenIsLegal forge) :
    forge.client = .error .invalidHeader := by
  simp only [TokenIsLegal, not_forall, Bool.not_eq_true] at h
  obtain ⟨token, htoken, hillegal⟩ := h
  rw [Forge.client, Forge.headers, htoken]
  simp only [authorization_eq, hillegal]
  rfl

/-- There is one way to be ready. -/
theorem Prepared.unique {headers' : Http.Headers} {first' : Url}
    (h : Prepared options headers first) (h' : Prepared options headers' first') :
    headers = headers' ∧ first = first' := by
  refine ⟨h.headers_eq.trans h'.headers_eq.symm, ?_⟩
  obtain ⟨base, target, hbase, htarget, rfl⟩ := h.url
  obtain ⟨base', target', hbase', htarget', rfl⟩ := h'.url
  cases hbase.symm.trans hbase'
  cases htarget.symm.trans htarget'
  rfl

theorem Prepared.client (h : Prepared options headers first) :
    ∃ client, options.forge.client = .ok client ∧ client.headers = headers ∧
      client.firstPage "pulls" closedByUpdate = .ok first := by
  obtain ⟨base, target, hbase, htarget, hfirst⟩ := h.url
  refine ⟨⟨options.forge, base, headers⟩, ?_, rfl,
    Listing.firstPage_eq_ok_iff.2 ⟨target, htarget, hfirst⟩⟩
  rw [client_eq_of_legal h.legal, hbase, h.headers_eq]
  rfl

/-- With a client, it is left to the pull requests merged since the tag. -/
theorem compose_of_client {client : Client} (h : options.forge.client = .ok client) (limit : Nat) :
    compose net limit options =
      (mergedSince net limit client options.tag (Trace.empty.write (.info
        ("listing pull requests merged into " ++ options.forge.repo.text ++ " since " ++
          options.tag.name)))).map fun r =>
        (r.1.bind fun pulls => render options.forge options.tag pulls options.width, r.2) := by
  rw [compose, h, Option.map_eq_bind]
  rfl

/-- Nothing has been sent before the pull requests are asked for. -/
theorem exists_compose_eq {client : Client} (h : options.forge.client = .ok client) :
    ∃ trace : Trace, trace.requests = [] ∧ ∀ limit, compose net limit options =
      (mergedSince net limit client options.tag trace).map fun result =>
        (result.1.bind fun pulls => render options.forge options.tag pulls options.width,
          result.2) :=
  ⟨_, rfl, compose_of_client h⟩

/-- The draft of the pull requests that are read. -/
theorem Prepared.yields (h : Prepared options headers first)
    (hends : EndsAt net headers options.tag.date first [] earlier last next requests)
    (hreads : Reads options.tag.date (pullsOf (earlier ++ [last])) pulls ending) :
    Yields net options ((outcomeAt (sorted (keptOf options.tag.date pulls)) ending).bind
      fun pulls => render options.forge options.tag pulls options.width) := by
  obtain ⟨client, hclient, rfl, hfirst⟩ := h.client
  obtain ⟨begun, hnothing, hcompose⟩ := exists_compose_eq hclient
  rw [← hnothing] at hends
  obtain ⟨trace, hsince⟩ : ∃ trace, ∀ limit, mergedSince net limit client options.tag begun =
      if earlier.length < limit then
        some (outcomeAt (sorted (keptOf options.tag.date pulls)) ending, trace)
      else none :=
    ⟨_, mergedSince_eq hfirst hends hreads⟩
  refine ⟨trace, earlier.length + 1, fun limit => ?_⟩
  rw [hcompose, hsince, apply_ite (Option.map _)]
  rfl

theorem yields_of_client {e : Error} (h : options.forge.client = .error e) :
    Yields net options (.error e) := by
  refine ⟨.empty, 0, fun limit => ?_⟩
  rw [compose, h]
  rfl

theorem bulletList_eq_none_iff {width : Nat} {items : List String} :
    Layout.bulletList width items = none ↔ width ≤ 2 := by
  unfold Layout.bulletList Layout.bulletWidth
  split_ifs with h <;> simp [h]

theorem Succeeds.yields {text : String} (h : Succeeds net options text) :
    Yields net options (.ok text) := by
  obtain ⟨hprepared, hends, -, hreads, hfine, -, harranged, hlist⟩ := h
  have hyields := hprepared.yields hends hreads
  -- there is only one arrangement, so the chosen pull requests are the sorted ones
  rw [keptOf, (Selection.arranged_sorted _).unique harranged, Selection.outcomeAt_eq_ok hfine,
    Except.bind, render, bullets, hlist] at hyields
  exact hyields

theorem FirstFailure.yields {e : Error} (h : FirstFailure net options e) :
    Yields net options (.error e) := by
  cases h with
  | @header token htoken hillegal =>
    refine yields_of_client (client_eq_of_illegal fun hlegal => ?_)
    rw [hlegal token htoken] at hillegal
    cases hillegal
  | base hlegal hbase =>
    apply yields_of_client
    rw [client_eq_of_legal hlegal, hbase]
    rfl
  | @first base cause hlegal hbase hcause =>
    have hclient := client_eq_of_legal hlegal
    rw [hbase] at hclient
    obtain ⟨begun, -, hcompose⟩ := exists_compose_eq hclient
    refine ⟨begun, 0, fun limit => ?_⟩
    rw [hcompose, mergedSince, Client.firstPage, hcause]
    rfl
  | reading hprepared hends hreads => exact hprepared.yields hends hreads
  | width hprepared hends hreads hfine hwidth =>
    have hyields := hprepared.yields hends hreads
    rw [Selection.outcomeAt_eq_ok hfine, Except.bind, render, bullets,
      bulletList_eq_none_iff.2 hwidth] at hyields
    exact hyields

/-! ### One or the other -/

theorem Ends.of_prepared (h : Ends net options) (hprepared : Prepared options headers first) :
    (∃ text, Succeeds net options text) ∨ ∃ e, FirstFailure net options e := by
  obtain ⟨pages, next, requests, hchain, hover⟩ := h headers first hprepared
  obtain ⟨earlier, last, next, requests, hends⟩ := Listing.exists_endsAt hchain hover
  obtain ⟨pulls, ending, hreads⟩ :=
    Selection.exists_reads options.tag.date (pullsOf (earlier ++ [last]))
  -- the two stages that are left: what is read, and the width
  by_cases hfailed : ∃ e, ending = .failed e
  · obtain ⟨e, rfl⟩ := hfailed
    exact .inr ⟨e, .reading hprepared hends hreads⟩
  · have hfine : ∀ e, ending ≠ .failed e := fun e he => hfailed ⟨e, he⟩
    cases hlist : Layout.bulletList options.width ((sorted (pulls.filter
        (Qualifies options.tag.date ·))).map (label options.forge)) with
    | none => exact .inr ⟨_, .width hprepared hends hreads hfine (bulletList_eq_none_iff.1 hlist)⟩
    | some list =>
      have hwidth : 2 < options.width := Nat.lt_of_not_le fun hle => by
        rw [bulletList_eq_none_iff.2 hle] at hlist
        cases hlist
      exact .inl ⟨_, .intro hprepared hends (hends.isSound hreads hfine) hreads hfine hwidth
        (Selection.arranged_sorted _) hlist⟩

variable (options) in
/-- All is ready for the first request, or a stage before it fails whatever the forge answers. -/
theorem prepared_or_firstFailure :
    (∃ headers first, Prepared options headers first) ∨ ∃ e, ∀ net, FirstFailure net options e := by
  by_cases hlegal : TokenIsLegal options.forge
  · cases hbase : options.forge.base with
    | error e => exact .inr ⟨e, fun _ => .base hlegal hbase⟩
    | ok base =>
      cases htarget : base.resolve "pulls".toList with
      | error cause => exact .inr ⟨_, fun _ => .first hlegal hbase htarget⟩
      | ok target => exact .inl ⟨_, _, hlegal, rfl, base, target, hbase, htarget, rfl⟩
  · simp only [TokenIsLegal, not_forall, Bool.not_eq_true] at hlegal
    obtain ⟨token, htoken, hillegal⟩ := hlegal
    exact .inr ⟨_, fun _ => .header htoken hillegal⟩

/-- Where reading ends, the draft succeeds or a stage fails first. -/
theorem Ends.succeeds_or_firstFailure (h : Ends net options) :
    (∃ text, Succeeds net options text) ∨ ∃ e, FirstFailure net options e := by
  rcases prepared_or_firstFailure options with ⟨headers, first, hprepared⟩ | ⟨e, hfailure⟩
  · exact h.of_prepared hprepared
  · exact .inr ⟨e, hfailure net⟩

/-- **All or nothing.**  On a forge on which reading ends, composing a draft comes to an outcome.
It is a text exactly if every stage succeeds, and then it is the banner and the list of the pull
requests that were merged after the tag, up to the first stale one, in the order of their merge.  It
is an error exactly if a stage fails, and then it is that of the first such stage. -/
theorem compose_outcome (net : Http.Network) (options : Options) (hends : Ends net options) :
    ∃ outcome, Yields net options outcome ∧
      (∀ text, outcome = .ok text ↔ Succeeds net options text) ∧
      ∀ e, outcome = .error e ↔ FirstFailure net options e := by
  obtain ⟨outcome, hyields⟩ : ∃ outcome, Yields net options outcome := by
    rcases hends.succeeds_or_firstFailure with ⟨text, h⟩ | ⟨e, h⟩
    · exact ⟨_, h.yields⟩
    · exact ⟨_, h.yields⟩
  refine ⟨outcome, hyields, fun text => ⟨?_, fun h => hyields.unique h.yields⟩,
    fun e => ⟨?_, fun h => hyields.unique h.yields⟩⟩
  -- the outcome is that of the case which holds, as a run has one outcome only
  · rintro rfl
    rcases hends.succeeds_or_firstFailure with ⟨text', h⟩ | ⟨e, h⟩
    · cases hyields.unique h.yields
      exact h
    · cases hyields.unique h.yields
  · rintro rfl
    rcases hends.succeeds_or_firstFailure with ⟨text, h⟩ | ⟨e', h⟩
    · cases hyields.unique h.yields
    · cases hyields.unique h.yields
      exact h

end

/-! ### A draft from one page -/

namespace OnePage

def options : Options :=
  ⟨⟨⟨"me", "it"⟩, .https "forge" [""] none, "https://forge", some "secret"⟩, ⟨"v1", ⟨600, 0⟩⟩, 80⟩

def headers : Http.Headers := ⟨Forge.mediaType, Forge.userAgent, some "token secret"⟩

def first : Url :=
  .https "forge" ["repos", "me", "it", "pulls"] (some "state=closed&sort=updated&direction=desc")

/-- A pull request that was merged after the tag, and a stale one. -/
def body : String :=
  "[[7,\"Fix\",\"1970-1-1T0:20:0Z\",\"1970-1-1T0:15:0Z\"],[6,\"Old\",\"1970-1-1T0:0:0Z\",null]]"

/-- Every page has these two pull requests and links to a further page. -/
def net : Http.Network where
  connects _ := true
  answer _ := .response (.plain 200 ["<pulls?page=2>; rel=next"] body)
  keeps := Http.Network.keepsOnServer

def merged : Json :=
  .array [.integer 7, .string "Fix", .string "1970-1-1T0:20:0Z", .string "1970-1-1T0:15:0Z"]

def stale : Json := .array [.integer 6, .string "Old", .string "1970-1-1T0:0:0Z", .null]

/-- The only page that is asked for. -/
def page : Fetched :=
  ⟨first, [],
    .ok ⟨[merged, stale], some (.https "forge" ["repos", "me", "it", "pulls"] (some "page=2"))⟩,
    [⟨first, headers⟩]⟩

/-- The pull request in the draft. -/
def fix : PullRequest := ⟨7, "Fix", ⟨1200, 0⟩, some ⟨900, 0⟩⟩

theorem prepared : Prepared options headers first where
  legal := by
    intro token htoken
    cases htoken
    decide
  headers_eq := rfl
  url := ⟨_, _, rfl, rfl, rfl⟩

theorem parse_body : Json.parse? body.toList = some (.array [merged, stale]) := by
  simp +decide [body, merged, stale, Json.parse?, Json.readValue, Json.readItems, Json.readString,
    Json.readNumber, Json.readFraction, Json.number, Json.appendDigits]

theorem brings_page : Brings net headers page.url page.past page.outcome page.requests :=
  (Listing.delivers_plain rfl rfl rfl (by decide +kernel) parse_body).brings_list

theorem stops_stale : Stops options.tag.date (Listing.asPull (.ok stale)) := by
  have hpull : Listing.asPull (.ok stale) = .ok ⟨6, "Old", ⟨0, 0⟩, none⟩ := rfl
  rw [hpull]
  decide

theorem endsAt_page : EndsAt net headers options.tag.date first [] [] page page.next
    page.requests where
  chain := .cons brings_page (.nil _ _)
  going := by simp
  complete := .inl ⟨.ok stale, List.mem_cons_of_mem _ List.mem_cons_self, stops_stale⟩

theorem reads_page : Reads options.tag.date (pullsOf ([] ++ [page])) [fix]
    (.stale ⟨6, "Old", ⟨0, 0⟩, none⟩) :=
  .fresh (by decide) (.stale (by decide))

theorem arranged_fix : Arranged ([fix].filter (Qualifies options.tag.date ·)) [fix] where
  perm := List.Perm.of_eq (by decide)
  ascending := List.pairwise_singleton _ _
  ties _ := congrArg _ (by decide)

theorem succeeds : Succeeds net options
    (banner options.forge options.tag ++ "\n" ++ "- Fix ([#7](https://forge/me/it/pull/7)).") :=
  .intro prepared endsAt_page (endsAt_page.isSound reads_page (by simp)) reads_page (by simp)
    (by decide) arranged_fix (by decide +kernel)

end OnePage

theorem compose_outcome_sample : ∃ outcome, Yields OnePage.net OnePage.options outcome ∧
    outcome = .ok (banner OnePage.options.forge OnePage.options.tag ++ "\n" ++
      "- Fix ([#7](https://forge/me/it/pull/7)).") := by
  obtain ⟨outcome, hyields, hok, -⟩ :=
    compose_outcome OnePage.net OnePage.options fun headers first h => by
      obtain ⟨rfl, rfl⟩ := h.unique OnePage.prepared
      exact ⟨_, _, _, OnePage.endsAt_page.chain,
        .inr ⟨_, List.mem_cons_of_mem _ List.mem_cons_self, OnePage.stops_stale⟩⟩
  exact ⟨outcome, hyields, (hok _).2 OnePage.succeeds⟩

end Draft

end ReleaseDraft
