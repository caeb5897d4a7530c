import Mathlib.Data.List.Chain
import ReleaseDraft.Listing

/-!
# The chain of pages

What a forge has to offer, said without a cursor: `Listing.Brings` is what a request for one page
comes to, with one rule for each way it can go, and `Listing.Chain` lists pages that follow one
another, each at the URL to which the page before it links.  A page contributes its items, or one
error if it fails (`Fetched.elements`).

The requests of a page are those that `Http.Network.get` sends: none if the URL cannot be connected
to, otherwise a request for the page itself and, only if the reply redirects, requests for the
places it redirects to (`Http.Network.get_requests`, `Http.Network.get_direct`).
-/

namespace ReleaseDraft

namespace Http

namespace Network

variable (net : Network) (headers : Headers) (url : Url) (past : List Request)

@[simp] theorem headersAt_nil : net.headersAt headers [] url = headers := rfl

/-- The request for a URL, as it goes out. -/
def requestFor : Request := ⟨url.withoutUser.withoutFragment, headers.forUrl url⟩

/-- A request for the URL reaches a server, and the reply does not redirect it. -/
def IsDirect : Prop :=
  isSendable url.withoutUser = true ∧ net.connects url.withoutUser = true ∧
    ∀ response, net.answer (past ++ [requestFor headers url]) = .response response →
      redirect? url.withoutUser response = none

/-- Sending a request to a URL either sends nothing or starts with that very request. -/
theorem follow_requests (redirects : Nat) (before : List Url) :
    (net.follow headers redirects before url past).2 = past ∨
      ∃ hops, (net.follow headers redirects before url past).2 =
        past ++ ⟨url.withoutFragment, net.headersAt headers before url⟩ :: hops := by
  fun_induction follow net headers redirects before url past with
  | case1 => exact .inl rfl
  | case2 => exact .inl rfl
  | case3 => exact .inr ⟨[], rfl⟩
  | case4 => exact .inr ⟨[], rfl⟩
  | case5 => exact .inr ⟨[], rfl⟩
  | case6 before url past _ _ past' _ _ target _ redirects ih =>
    -- what follows a redirect comes after the request that was redirected
    rcases ih with h | ⟨hops, h⟩
    · exact .inr ⟨[], h⟩
    · exact .inr ⟨_, by rw [h, List.append_assoc, List.singleton_append]⟩

theorem get_requests :
    (net.get headers url past).2 = past ∨
      ∃ hops, (net.get headers url past).2 = past ++ requestFor headers url :: hops :=
  follow_requests net _ _ past redirectLimit []

theorem get_direct (h : net.IsDirect headers url past) :
    (net.get headers url past).2 = past ++ [requestFor headers url] := by
  obtain ⟨hs, hc, hr⟩ := h
  rw [get, follow, hs, hc]
  simp only [Bool.not_true, Bool.false_eq_true, ↓reduceIte, headersAt_nil]
  unfold requestFor at hr ⊢
  cases ha : net.answer (past ++ [⟨url.withoutUser.withoutFragment, headers.forUrl url⟩]) with
  | hangUp => rfl
  | response response => simp only [hr response ha]

variable {net headers url past}

section Reply

variable {redirects : Nat} {before : List Url} {target : Url} {response : Response}
  (hsendable : isSendable url = true) (hconnects : net.connects url = true)
  (hreply : net.answer (past ++ [⟨url.withoutFragment, net.headersAt headers before url⟩]) =
    .response response)

include hsendable hconnects hreply

/-- A response that does not redirect is the outcome. -/
theorem follow_answered (hstays : redirect? url response = none) :
    net.follow headers redirects before url past =
      (.ok response, past ++ [⟨url.withoutFragment, net.headersAt headers before url⟩]) := by
  rw [follow.eq_def]
  simp only [hsendable, hconnects, hreply, hstays, Bool.not_true, Bool.false_eq_true, ↓reduceIte]

/-- A redirect sends the request on. -/
theorem follow_redirected (hredirect : redirect? url response = some target) :
    net.follow headers (redirects + 1) before url past =
      net.follow headers redirects (before ++ [url]) target
        (past ++ [⟨url.withoutFragment, net.headersAt headers before url⟩]) := by
  rw [follow.eq_def]
  simp only [hsendable, hconnects, hreply, hredirect, Bool.not_true, Bool.false_eq_true, ↓reduceIte]

end Reply

theorem get_answered {response : Response} (hsendable : isSendable url.withoutUser = true)
    (hconnects : net.connects url.withoutUser = true)
    (hreply : net.answer (past ++ [requestFor headers url]) = .response response)
    (hstays : redirect? url.withoutUser response = none) :
    net.get headers url past = (.ok response, past ++ [requestFor headers url]) :=
  follow_answered hsendable hconnects hreply hstays

theorem redirect?_plain (url : Url) (links : List String) (body : String) :
    redirect? url (.plain 200 links body) = none :=
  rfl

end Network

end Http

namespace Listing

variable (net : Http.Network) (headers : Http.Headers)

/-! ### One page -/

/-- What a request for a page comes to when `past` are the requests before it: a page or an error,
and all requests by then. -/
inductive Brings (url : Url) (past : List Http.Request) :
    Except Error Page → List Http.Request → Prop
  /-- No response arrives. -/
  | unanswered {failure requests} :
      net.get headers url past = (.error failure, requests) →
      Brings url past (.error (.network failure)) requests
  /-- The response is no success; its links do not matter. -/
  | refused {response requests} :
      net.get headers url past = (.ok response, requests) →
      ¬(200 ≤ response.status ∧ response.status ≤ 299) →
      Brings url past (.error (.api url.render response.status
        (response.text?.getD "<unreadable body: error decoding response body>"))) requests
  /-- The link to the next page does not resolve. -/
  | misled {response requests cause} :
      net.get headers url past = (.ok response, requests) →
      200 ≤ response.status ∧ response.status ≤ 299 →
      Http.Link.next url response.links = .error cause →
      Brings url past (.error (.url cause)) requests
  /-- The body is no JSON. -/
  | garbled {response requests next} :
      net.get headers url past = (.ok response, requests) →
      200 ≤ response.status ∧ response.status ≤ 299 →
      Http.Link.next url response.links = .ok next →
      Page.content? response = none →
      Brings url past (.error (.network .unreadableBody)) requests
  /-- The body is an array. -/
  | list {response requests next items} :
      net.get headers url past = (.ok response, requests) →
      200 ≤ response.status ∧ response.status ≤ 299 →
      Http.Link.next url response.links = .ok next →
      Page.content? response = some (.array items) →
      Brings url past (.ok ⟨items, next⟩) requests
  /-- The body is any other value, and the listing ends with it. -/
  | single {response requests next value} :
      net.get headers url past = (.ok response, requests) →
      200 ≤ response.status ∧ response.status ≤ 299 →
      Http.Link.next url response.links = .ok next →
      Page.content? response = some value →
      value.array? = none →
      Brings url past (.ok ⟨[value], none⟩) requests

variable {net headers} {url : Url} {past requests : List Http.Request}
  {outcome : Except Error Page}

theorem isSuccess_iff {response : Http.Response} :
    response.isSuccess = true ↔ 200 ≤ response.status ∧ response.status ≤ 299 := by
  simp [Http.Response.isSuccess]

theorem ofJson_of_array?_eq_none {value : Json} (h : value.array? = none) (next : Option Url) :
    Page.ofJson next value = ⟨[value], none⟩ := by
  cases value with
  | array items => cases h
  | _ => rfl

variable (net headers url) in
/-- A request for a page always comes to something. -/
theorem brings_fetch (trace : Trace) :
    Brings net headers url trace.requests (fetch net headers url trace).1
      (fetch net headers url trace).2.requests := by
  simp only [fetch, Trace.write]
  cases hget : net.get headers url trace.requests with
  | mk outcome requests =>
    cases outcome with
    | error failure => exact .unanswered hget
    | ok response =>
      -- status, link and body are looked at in this order, so each rule excludes the earlier ones
      simp only [Page.ofResponse]
      cases hs : response.isSuccess with
      | false => exact .refused hget fun h => by simp [isSuccess_iff.2 h] at hs
      | true =>
        have hs' := isSuccess_iff.1 hs
        cases hn : Http.Link.next url response.links with
        | error cause => exact .misled hget hs' hn
        | ok next =>
          cases hc : Page.content? response with
          | none => exact .garbled hget hs' hn hc
          | some value =>
            cases value with
            | array items => exact .list hget hs' hn hc
            | _ => exact .single hget hs' hn hc rfl

/-- What a request for a page comes to is what fetching it gives. -/
theorem Brings.fetch_eq (h : Brings net headers url past outcome requests) (log : List LogEntry) :
    fetch net headers url ⟨past, log⟩ =
      (outcome, ⟨requests, log ++ [.debug ("fetching " ++ url.render)]⟩) := by
  cases h with
  | unanswered hget => simp only [fetch, Trace.write, hget]
  | refused hget hs =>
    have hs' := Bool.eq_false_iff.2 (mt isSuccess_iff.1 hs)
    simp only [fetch, Trace.write, hget, Page.ofResponse, hs', Bool.not_false, ↓reduceIte]
    rfl
  | misled hget hs hn =>
    simp [fetch, Trace.write, hget, Page.ofResponse, isSuccess_iff.2 hs, hn]
  | garbled hget hs hn hc =>
    simp [fetch, Trace.write, hget, Page.ofResponse, isSuccess_iff.2 hs, hn, hc]
  | list hget hs hn hc =>
    simp [fetch, Trace.write, hget, Page.ofResponse, isSuccess_iff.2 hs, hn, hc, Page.ofJson]
  | single hget hs hn hc hv =>
    simp [fetch, Trace.write, hget, Page.ofResponse, isSuccess_iff.2 hs, hn, hc,
      ofJson_of_array?_eq_none hv]

/-- The requests by the end of a page are those that sending its request makes. -/
theorem Brings.requests_eq (h : Brings net headers url past outcome requests) :
    requests = (net.get headers url past).2 := by
  cases h <;> simp only [*]

/-- A request to which two networks give the same answer comes to the same in both. -/
theorem Brings.congr {net' : Http.Network} (h : Brings net headers url past outcome requests)
    (hget : net'.get headers url past = net.get headers url past) :
    Brings net' headers url past outcome requests := by
  cases h with
  | unanswered h => exact .unanswered (hget.trans h)
  | refused h hs => exact .refused (hget.trans h) hs
  | misled h hs hn => exact .misled (hget.trans h) hs hn
  | garbled h hs hn hc => exact .garbled (hget.trans h) hs hn hc
  | list h hs hn hc => exact .list (hget.trans h) hs hn hc
  | single h hs hn hc hv => exact .single (hget.trans h) hs hn hc hv

/-! ### Pages with a value -/

variable (net headers) in
/-- The response to the request for a page is a success, its link to a next page resolves to `next`,
and its body writes the value `value`. -/
def Delivers (url : Url) (past : List Http.Request) (value : Json) (next : Option Url)
    (requests : List Http.Request) : Prop :=
  ∃ response, net.get headers url past = (.ok response, requests) ∧
    (200 ≤ response.status ∧ response.status ≤ 299) ∧
    Http.Link.next url response.links = .ok next ∧ Page.content? response = some value

section

variable {value : Json} {items : List Json} {next : Option Url}

theorem Delivers.brings_list (h : Delivers net headers url past (.array items) next requests) :
    Brings net headers url past (.ok ⟨items, next⟩) requests := by
  obtain ⟨response, hget, hstatus, hnext, hbody⟩ := h
  exact .list hget hstatus hnext hbody

theorem Delivers.brings_single (h : Delivers net headers url past value next requests)
    (hvalue : value.array? = none) :
    Brings net headers url past (.ok ⟨[value], none⟩) requests := by
  obtain ⟨response, hget, hstatus, hnext, hbody⟩ := h
  exact .single hget hstatus hnext hbody hvalue

theorem content?_plain {status : Nat} {links : List String} {body : String}
    (hvalue : Json.parse? body.toList = some value) :
    Page.content? (.plain status links body) = some value := by
  simp [Page.content?, Http.Response.plain, Text.Utf8.decode?_encode, hvalue]

theorem get_plain {links : List String} {body : String}
    (hsendable : Http.Network.isSendable url.withoutUser = true)
    (hconnects : net.connects url.withoutUser = true)
    (hreply : net.answer (past ++ [Http.Network.requestFor headers url]) =
      .response (.plain 200 links body)) :
    net.get headers url past =
      (.ok (.plain 200 links body), past ++ [Http.Network.requestFor headers url]) :=
  Http.Network.get_answered hsendable hconnects hreply (Http.Network.redirect?_plain _ _ _)

/-- A plain success delivers the value that its body writes. -/
theorem delivers_plain {links : List String} {body : String}
    (hsendable : Http.Network.isSendable url.withoutUser = true)
    (hconnects : net.connects url.withoutUser = true)
    (hreply : net.answer (past ++ [Http.Network.requestFor headers url]) =
      .response (.plain 200 links body))
    (hnext : Http.Link.next url (Http.Response.plain 200 links body).links = .ok next)
    (hvalue : Json.parse? body.toList = some value) :
    Delivers net headers url past value next
      (past ++ [Http.Network.requestFor headers url]) :=
  ⟨_, get_plain hsendable hconnects hreply, ⟨le_rfl, show 200 ≤ 299 by decide⟩, hnext,
    content?_plain hvalue⟩

end

/-! ### Pages in a row -/

/-- A page that was asked for: the requests before it, what came of it, and the requests by
then. -/
structure Fetched where
  url : Url
  past : List Http.Request
  outcome : Except Error Page
  requests : List Http.Request

namespace Fetched

/-- The elements that a page contributes: its items, or its error. -/
def elements (f : Fetched) : List Listed :=
  match f.outcome with
  | .ok page => page.items.map .ok
  | .error e => [.error e]

/-- The page to which a page links; an error ends the listing. -/
def next (f : Fetched) : Option Url :=
  match f.outcome with
  | .ok page => page.next
  | .error _ => none

/-- The log entry on a page. -/
def entry (f : Fetched) : LogEntry := .debug ("fetching " ++ f.url.render)

/-- The requests that were sent for a page. -/
def sent (f : Fetched) : List Http.Request := f.requests.drop f.past.length

end Fetched

variable (net headers) in
/-- From the page `start` on, after the requests `past`, the pages `pages` follow one another; then
`next` is the page after them, and `requests` are the requests by then. -/
inductive Chain : Option Url → List Http.Request → List Fetched → Option Url →
    List Http.Request → Prop
  | nil (start past) : Chain start past [] start past
  | cons {f rest next requests} : Brings net headers f.url f.past f.outcome f.requests →
      Chain f.next f.requests rest next requests →
      Chain (some f.url) f.past (f :: rest) next requests

variable {start next : Option Url} {f g : Fetched} {pages pages' : List Fetched}

theorem chain_nil_iff : Chain net headers start past [] next requests ↔
    next = start ∧ requests = past := by
  constructor
  · intro h
    cases h
    exact ⟨rfl, rfl⟩
  · rintro ⟨rfl, rfl⟩
    exact .nil _ _

theorem chain_cons_iff : Chain net headers start past (f :: pages) next requests ↔
    start = some f.url ∧ past = f.past ∧ Brings net headers f.url f.past f.outcome f.requests ∧
      Chain net headers f.next f.requests pages next requests := by
  constructor
  · intro h
    cases h with
    | cons hf hr => exact ⟨rfl, rfl, hf, hr⟩
  · rintro ⟨rfl, rfl, hf, hr⟩
    exact .cons hf hr

theorem chain_append_iff : Chain net headers start past (pages ++ pages') next requests ↔
    ∃ middle requests', Chain net headers start past pages middle requests' ∧
      Chain net headers middle requests' pages' next requests := by
  induction pages generalizing start past with
  | nil =>
    constructor
    · intro h
      exact ⟨start, past, .nil _ _, h⟩
    · rintro ⟨_, _, h, h'⟩
      obtain ⟨rfl, rfl⟩ := chain_nil_iff.1 h
      exact h'
  | cons f pages ih =>
    simp only [List.cons_append, chain_cons_iff, ih]
    constructor
    · rintro ⟨hs, hp, hf, middle, requests', h, h'⟩
      exact ⟨middle, requests', ⟨hs, hp, hf, h⟩, h'⟩
    · rintro ⟨middle, requests', ⟨hs, hp, hf, h⟩, h'⟩
      exact ⟨hs, hp, hf, middle, requests', h, h'⟩

theorem Brings.past_append_sent (h : Brings net headers f.url f.past f.outcome f.requests) :
    f.requests = f.past ++ f.sent := by
  have hr := h.requests_eq
  unfold Fetched.sent
  rcases net.get_requests headers f.url f.past with hg | ⟨hops, hg⟩ <;> rw [hr, hg] <;> simp

variable (net headers) in
/-- The requests for a page start with that for its URL, unless none can be sent, and are no more
than it unless it is redirected. -/
def SentFor (f : Fetched) : Prop :=
  (f.sent = [] ∨ ∃ hops, f.sent = Http.Network.requestFor headers f.url :: hops) ∧
    (net.IsDirect headers f.url f.past → f.sent = [Http.Network.requestFor headers f.url])

theorem Brings.sentFor (h : Brings net headers f.url f.past f.outcome f.requests) :
    SentFor net headers f := by
  have hr := h.requests_eq
  rw [h.past_append_sent] at hr
  constructor
  · rcases net.get_requests headers f.url f.past with hg | ⟨hops, hg⟩
    · exact .inl (List.append_right_eq_self.1 (hr.trans hg))
    · exact .inr ⟨hops, List.append_cancel_left (hr.trans hg)⟩
  · intro hd
    exact List.append_cancel_left (hr.trans (net.get_direct headers f.url f.past hd))

theorem Chain.brings (h : Chain net headers start past pages next requests) (hf : f ∈ pages) :
    Brings net headers f.url f.past f.outcome f.requests := by
  induction h with
  | nil => cases hf
  | cons hb _ ih =>
    rcases List.mem_cons.1 hf with rfl | hf
    · exact hb
    · exact ih hf

/-- The requests of a chain are those of its pages, one page after the other. -/
theorem Chain.requests_eq (h : Chain net headers start past pages next requests) :
    requests = past ++ pages.flatMap Fetched.sent := by
  induction h with
  | nil => simp
  | cons hb _ ih => rw [ih, hb.past_append_sent, List.flatMap_cons, List.append_assoc]

variable (net headers) in
/-- The response to the request for the page `f` links to the URL of `g`. -/
def LinksTo (f g : Fetched) : Prop :=
  ∃ response, (net.get headers f.url f.past).1 = .ok response ∧
    Http.Link.next f.url response.links = .ok (some g.url)

theorem Brings.link {page : Page} {target : Url}
    (h : Brings net headers url past (.ok page) requests) (hn : page.next = some target) :
    ∃ response, (net.get headers url past).1 = .ok response ∧
      Http.Link.next url response.links = .ok (some target) := by
  cases h with
  | list hget hs hl hc => exact ⟨_, congrArg Prod.fst hget, hl.trans (congrArg _ hn)⟩
  | single => cases hn

theorem Brings.linksTo (h : Brings net headers f.url f.past f.outcome f.requests)
    (hn : f.next = some g.url) : LinksTo net headers f g := by
  unfold Fetched.next at hn
  cases ho : f.outcome with
  | error e => simp [ho] at hn
  | ok page =>
    rw [ho] at h hn
    exact h.link hn

/-- The URL of every page but the first is where the page before it links to. -/
theorem Chain.linksTo (h : Chain net headers start past pages next requests) :
    pages.IsChain (LinksTo net headers) := by
  induction pages generalizing start past with
  | nil => exact .nil
  | cons f pages ih =>
    obtain ⟨-, -, hb, hr⟩ := chain_cons_iff.1 h
    cases pages with
    | nil => exact .singleton _
    | cons g pages => exact .cons_cons (hb.linksTo (chain_cons_iff.1 hr).1) (ih hr)

end Listing

end ReleaseDraft
