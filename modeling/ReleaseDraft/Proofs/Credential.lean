import Mathlib.Data.List.Chain
import Mathlib.Data.List.TakeDrop
import ReleaseDraft.Proofs.MergedSince

/-!
# Where a credential goes

The token of a client is a header of every request for a page, whatever the URL of the page.  So it
goes where the links from page to page lead, and a link to another host takes it along
(`Listing.not_authorization_stays`).

It goes no further than that unless a redirect takes it: every request that was not redirected is
that for a page of the listing (`Listing.Chain.eq_requestFor_or`).  The first page of a resource
below the repository has the origin of the interface (`Client.firstPage_sameOrigin`), so the token
stays there as long as all links do and no request is redirected
(`Listing.authorization_stays_with_pages`).

Whether a redirect takes the token along is up to who follows it.  If it stays behind whenever host
or port change (`Http.Network.LeavesBehind`), a request that follows a redirect has the token only
on the server of the request before it (`Http.Network.get_staysOnServer`).  That may be a server
without a page: the token was left behind on the way there, but is back when that server redirects
to itself.
-/

namespace ReleaseDraft

/-! ### Origins -/

namespace Url

/-- The same host and port. -/
def SameServer (a b : Url) : Prop := a.host? = b.host? ∧ a.port? = b.port?

/-- The same scheme, host and port. -/
def SameOrigin (a b : Url) : Prop := a.scheme = b.scheme ∧ a.SameServer b

instance (a b : Url) : Decidable (a.SameServer b) := inferInstanceAs (Decidable (_ ∧ _))

instance (a b : Url) : Decidable (a.SameOrigin b) := inferInstanceAs (Decidable (_ ∧ _))

variable {a b c : Url}

@[refl] theorem SameServer.refl (a : Url) : a.SameServer a := ⟨rfl, rfl⟩

theorem SameServer.trans (h : a.SameServer b) (h' : b.SameServer c) : a.SameServer c :=
  ⟨h.1.trans h'.1, h.2.trans h'.2⟩

@[refl] theorem SameOrigin.refl (a : Url) : a.SameOrigin a := ⟨rfl, .refl a⟩

theorem SameOrigin.trans (h : a.SameOrigin b) (h' : b.SameOrigin c) : a.SameOrigin c :=
  ⟨h.1.trans h'.1, h.2.trans h'.2⟩

theorem sameOrigin_of_authority_eq (hscheme : a.scheme = b.scheme)
    (hauthority : a.authority = b.authority) : a.SameOrigin b := by
  refine ⟨hscheme, ?_, ?_⟩
  · rw [host?, host?, hauthority]
  · rw [port?, port?, hauthority, hscheme]

theorem withoutFragment_sameOrigin (url : Url) : url.withoutFragment.SameOrigin url :=
  sameOrigin_of_authority_eq rfl rfl

/-- User name and password say who asks, not where. -/
theorem withoutUser_sameOrigin (url : Url) : url.withoutUser.SameOrigin url := by
  obtain ⟨scheme, authority, path, query, fragment⟩ := url
  cases authority with
  | none => exact sameOrigin_of_authority_eq rfl rfl
  | some authority => exact ⟨rfl, rfl, rfl⟩

end Url

/-! ### Redirects -/

namespace Http

/-- A request has an authorization only on the server of the request before it. -/
def StaysOnServer (r r' : Request) : Prop :=
  r'.headers.authorization ≠ none → r'.url.SameServer r.url

namespace Network

variable {net : Network} {url : Url}

/-- An authorization stays behind when a redirect leads to another host or port. -/
def LeavesBehind (net : Network) : Prop :=
  ∀ before source target, net.keeps (before ++ [source]) target = true → target.SameServer source

/-- The usual rule for redirects is one that leaves an authorization behind. -/
theorem leavesBehind_of_keepsOnServer (h : net.keeps = keepsOnServer) : net.LeavesBehind := by
  intro before source target hkeeps
  simp only [h, keepsOnServer, List.getLast?_concat, Option.any_some, Bool.and_eq_true,
    beq_iff_eq] at hkeeps
  exact ⟨hkeeps.1.symm, hkeeps.2.symm⟩

theorem LeavesBehind.staysOnServer (h : net.LeavesBehind) (headers headers' : Headers)
    (before : List Url) (source target : Url) :
    StaysOnServer ⟨source.withoutFragment, headers'⟩
      ⟨target.withoutFragment, net.headersAt headers (before ++ [source]) target⟩ := by
  intro hauth
  by_cases hkeeps : net.keeps (before ++ [source]) target = true
  · exact target.withoutFragment_sameOrigin.2.trans
      ((h before source target hkeeps).trans ⟨rfl, rfl⟩)
  · simp [headersAt, hkeeps, Headers.anonymous] at hauth

/-- What is sent starts with the request to the URL, and each further request has an authorization
only on the server of the one before it. -/
theorem follow_staysOnServer (h : net.LeavesBehind) (headers : Headers) (redirects : Nat)
    (before : List Url) (url : Url) (past : List Request) :
    ∃ sent, (net.follow headers redirects before url past).2 = past ++ sent ∧
      (∀ r ∈ sent.head?, r = ⟨url.withoutFragment, net.headersAt headers before url⟩) ∧
      sent.IsChain StaysOnServer := by
  fun_induction follow net headers redirects before url past with
  | case1 => exact ⟨[], (List.append_nil _).symm, by simp, .nil⟩
  | case2 => exact ⟨[], (List.append_nil _).symm, by simp, .nil⟩
  | case3 => exact ⟨_, rfl, by simp, .singleton _⟩
  | case4 => exact ⟨_, rfl, by simp, .singleton _⟩
  | case5 => exact ⟨_, rfl, by simp, .singleton _⟩
  | case6 before url past _ _ past' _ _ target _ redirects ih =>
    obtain ⟨sent, hsent, hfirst, hchain⟩ := ih
    refine ⟨⟨url.withoutFragment, net.headersAt headers before url⟩ :: sent, ?_, by simp, ?_⟩
    · rw [hsent, List.append_assoc, List.singleton_append]
    · -- the first request after the redirect is the one whose authorization the rule decides on
      refine List.isChain_cons.2 ⟨fun r hr => ?_, hchain⟩
      rw [hfirst r hr]
      exact h.staysOnServer headers _ before url target

/-- **On a redirect to another server, the authorization stays behind.** -/
theorem get_staysOnServer (h : net.LeavesBehind) (headers : Headers) (url : Url)
    (past : List Request) :
    ∃ sent, (net.get headers url past).2 = past ++ sent ∧ sent.IsChain StaysOnServer := by
  obtain ⟨sent, hsent, -, hchain⟩ :=
    follow_staysOnServer h (headers.forUrl url) redirectLimit [] url.withoutUser past
  exact ⟨sent, hsent, hchain⟩

theorem requestFor_sameOrigin (headers : Headers) (url : Url) :
    (requestFor headers url).url.SameOrigin url :=
  url.withoutUser.withoutFragment_sameOrigin.trans url.withoutUser_sameOrigin

end Network

end Http

namespace Listing

variable {net : Http.Network} {headers : Http.Headers} {f : Fetched} {start next : Option Url}
  {pages : List Fetched} {requests : List Http.Request} {r : Http.Request}

variable (net headers) in
/-- A request for one of the pages that was redirected there. -/
def IsRedirected (pages : List Fetched) (r : Http.Request) : Prop :=
  ∃ f ∈ pages, ¬net.IsDirect headers f.url f.past ∧ r ∈ f.sent.tail

/-- Of the requests for a page, all but that for its URL were redirected. -/
theorem Brings.eq_requestFor_or (h : Brings net headers f.url f.past f.outcome f.requests)
    (hr : r ∈ f.sent) :
    r = Http.Network.requestFor headers f.url ∨
      ¬net.IsDirect headers f.url f.past ∧ r ∈ f.sent.tail := by
  obtain ⟨hsent, hdirect⟩ := h.sentFor
  rcases hsent with hnone | ⟨hops, hsent⟩
  · simp [hnone] at hr
  · rw [hsent] at hr
    rcases List.mem_cons.1 hr with rfl | hr
    · exact .inl rfl
    · refine .inr ⟨fun hd => ?_, by rwa [hsent]⟩
      obtain rfl : hops = [] := (List.cons.inj (hsent.symm.trans (hdirect hd))).2
      cases hr

/-- **Requests that were not redirected are those for the pages.** -/
theorem Chain.eq_requestFor_or (h : Chain net headers start [] pages next requests)
    (hr : r ∈ requests) :
    (∃ f ∈ pages, r = Http.Network.requestFor headers f.url) ∨
      IsRedirected net headers pages r := by
  rw [h.requests_eq, List.nil_append] at hr
  obtain ⟨f, hf, hr⟩ := List.mem_flatMap.1 hr
  rcases (h.brings hf).eq_requestFor_or hr with hpage | hrest
  · exact .inl ⟨f, hf, hpage⟩
  · exact .inr ⟨f, hf, hrest⟩

theorem Brings.staysOnServer (h : Brings net headers f.url f.past f.outcome f.requests)
    (hnet : net.LeavesBehind) : f.sent.IsChain Http.StaysOnServer := by
  obtain ⟨sent, hsent, hchain⟩ := Http.Network.get_staysOnServer hnet headers f.url f.past
  have hsame : f.sent = sent :=
    List.append_cancel_left (h.past_append_sent.symm.trans (h.requests_eq.trans hsent))
  rwa [hsame]

end Listing

/-! ### The first page -/

namespace Reference

theorem cut_fst (delimiter : Char) (text : List Char) :
    (cut delimiter text).1 = text.takeWhile (· != delimiter) := by
  unfold cut
  rw [List.span_eq_takeWhile_dropWhile]
  cases text.dropWhile (· != delimiter) <;> rfl

theorem cut_append {delimiter : Char} {start : List Char} (h : delimiter ∉ start)
    (rest : List Char) : (cut delimiter (start ++ rest)).1 = start ++ (cut delimiter rest).1 := by
  rw [cut_fst, cut_fst]
  refine List.takeWhile_append_of_pos fun c hc => ?_
  simpa using fun heq : c = delimiter => h (heq ▸ hc)

/-- Nothing is trimmed from the front of a path below the repositories. -/
theorem clean_repos (rest : List Char) :
    ∃ rest', clean ("repos/".toList ++ rest) = "repos/".toList ++ rest' := by
  let outer := fun c : Char => decide (c.toNat ≤ 0x20)
  have hfront : ("repos/".toList ++ rest).dropWhile outer = "repos/".toList ++ rest := rfl
  -- trimming the end stops at the slash at the latest
  obtain ⟨kept, hkept⟩ : ∃ kept, (rest.reverse ++ "repos/".toList.reverse).dropWhile outer =
      kept ++ "repos/".toList.reverse := by
    rw [List.dropWhile_append]
    split_ifs
    · exact ⟨[], rfl⟩
    · exact ⟨_, rfl⟩
  refine ⟨kept.reverse.filter fun c => c != '\t' && c != '\n' && c != '\r', ?_⟩
  simp only [clean]
  rw [hfront, List.reverse_append, hkept, List.reverse_append, List.reverse_reverse,
    List.filter_append]
  rfl

/-- A path below the repositories has no scheme. -/
theorem splitScheme_repos (rest : List Char) : splitScheme ("repos/".toList ++ rest) = none := by
  rw [splitScheme, List.span_eq_takeWhile_dropWhile]
  rfl

/-- A reference to a place below its base: neither a scheme nor a slash or drive comes first. -/
def IsBelow (ref : Reference) : Prop :=
  ref.scheme = none ∧ (ref.body.head?.map Url.isSlash).getD false = false ∧
    Path.startsWithDrive ref.body = false

instance (ref : Reference) : Decidable ref.IsBelow := inferInstanceAs (Decidable (_ ∧ _))

theorem IsBelow.isSlash_eq {ref : Reference} {c : Char} {rest : List Char} (h : ref.IsBelow)
    (hbody : ref.body = c :: rest) : Url.isSlash c = false := by
  simpa [hbody] using h.2.1

theorem isBelow_repos (rest : List Char) : (ofText ("repos/".toList ++ rest)).IsBelow := by
  obtain ⟨rest', hclean⟩ := clean_repos rest
  have hbody : (ofText ("repos/".toList ++ rest)).body =
      "repos/".toList ++ (cut '?' (cut '#' rest').1).1 := by
    simp only [ofText, hclean, splitScheme_repos]
    rw [cut_append (by decide), cut_append (by decide)]
  refine ⟨?_, ?_, ?_⟩
  · simp only [ofText, hclean, splitScheme_repos]
  · rw [hbody]
    rfl
  · rw [hbody]
    rfl

end Reference

namespace Url

variable {base target : Url} {ref : Reference}

theorem relative_sameOrigin (hbelow : ref.IsBelow) (h : relative ref base = .ok target) :
    target.SameOrigin base := by
  unfold relative at h
  split at h
  · cases h
    exact sameOrigin_of_authority_eq rfl rfl
  · rename_i hbody
    simp only [hbelow.isSlash_eq hbody, Bool.false_eq_true, ↓reduceIte] at h
    cases h
    exact sameOrigin_of_authority_eq rfl rfl

theorem file_sameOrigin (hbelow : ref.IsBelow) (h : file ref (some base) = .ok target) :
    target.SameOrigin base := by
  unfold file at h
  split at h
  · rename_i hbody
    simp only [hbelow.isSlash_eq hbody, hbelow.2.2, Bool.false_eq_true, ↓reduceIte] at h
    cases h
    exact sameOrigin_of_authority_eq rfl rfl
  · cases h
    exact sameOrigin_of_authority_eq rfl rfl

/-- **A place below a base** has the origin of the base. -/
theorem resolve_sameOrigin {text : List Char} (hbelow : (Reference.ofText text).IsBelow)
    (h : base.resolve text = .ok target) : target.SameOrigin base := by
  rw [resolve, hbelow.1] at h
  simp only [withoutScheme] at h
  split at h
  · split_ifs at h
    cases h
    exact sameOrigin_of_authority_eq rfl rfl
  · split_ifs at h
    · exact file_sameOrigin hbelow h
    · exact relative_sameOrigin hbelow h

theorem asDirectory_sameOrigin (url : Url) : url.asDirectory.SameOrigin url := by
  unfold asDirectory
  split
  · split_ifs
    · rfl
    · exact sameOrigin_of_authority_eq rfl rfl
  · rfl

theorem addQuery_sameOrigin (url : Url) (pairs : List (String × String)) :
    (url.addQuery pairs).SameOrigin url := by
  unfold addQuery
  split_ifs
  · rfl
  · exact sameOrigin_of_authority_eq rfl rfl

end Url

/-- The repository lies at the origin of the interface, whatever its name. -/
theorem Forge.base_sameOrigin {forge : Forge} {base : Url} (h : forge.base = .ok base) :
    base.SameOrigin forge.apiUrl := by
  simp only [Forge.base, String.toList_append, List.append_assoc] at h
  generalize forge.repo.owner.toList ++ _ = rest at h
  cases hresolve : forge.apiUrl.asDirectory.resolve ("repos/".toList ++ rest) with
  | error cause =>
    rw [hresolve] at h
    cases h
  | ok target =>
    rw [hresolve] at h
    cases h
    exact (Url.resolve_sameOrigin (Reference.isBelow_repos _) hresolve).trans
      forge.apiUrl.asDirectory_sameOrigin

theorem Forge.base_of_client {forge : Forge} {client : Client} (h : forge.client = .ok client) :
    forge.base = .ok client.base := by
  unfold Forge.client at h
  cases hheaders : forge.headers with
  | error e => simp [hheaders, bind, Except.bind] at h
  | ok headers =>
    cases hbase : forge.base with
    | error e => simp [hheaders, hbase, bind, Except.bind] at h
    | ok base =>
      simp only [hheaders, hbase, bind, Except.bind] at h
      cases h
      rfl

/-- The first page of a resource of the repository has the origin of the interface. -/
theorem Client.firstPage_sameOrigin {forge : Forge} {client : Client} {path : String}
    {query : List (String × String)} {first : Url} (hclient : forge.client = .ok client)
    (hfirst : client.firstPage path query = .ok first)
    (hbelow : (Reference.ofText path.toList).IsBelow) : first.SameOrigin forge.apiUrl := by
  obtain ⟨target, htarget, rfl⟩ := Listing.firstPage_eq_ok_iff.1 hfirst
  exact (target.addQuery_sameOrigin query).trans
    ((Url.resolve_sameOrigin hbelow htarget).trans
      (Forge.base_sameOrigin (Forge.base_of_client hclient)))

/-! ### Where the token goes -/

namespace Listing

/-- **The token stays with the pages.**  The requests of whatever reads a resource are those for
pages that follow one another.  Every request that was not redirected is that for one of these pages
and has its origin.  So a request with an authorization has the origin of the interface if all pages
have, unless it was redirected; and the first page has it if the resource lies below the repository.
If an authorization stays behind when a redirect leads to another server, then of the requests for a
page each but the first has one only on the server of the request before it. -/
theorem authorization_stays_with_pages (net : Http.Network) (forge : Forge) (client : Client)
    (path : String) (query : List (String × String)) (first : Url)
    (hclient : forge.client = .ok client) (hfirst : client.firstPage path query = .ok first) :
    (∀ (σ : Type) (visit : Visit σ Listed) (limit : Nat) (s s' : σ) (trace : Trace),
      read net client.headers visit limit (.start first) s .empty = some (s', trace) →
      ∃ pages next, Chain net client.headers (some first) [] pages next trace.requests) ∧
    (∀ pages next requests, Chain net client.headers (some first) [] pages next requests →
      (∀ r ∈ requests,
        (∃ f ∈ pages, r = Http.Network.requestFor client.headers f.url ∧ r.url.SameOrigin f.url) ∨
          IsRedirected net client.headers pages r) ∧
      ((∀ f ∈ pages, f.url.SameOrigin forge.apiUrl) →
        ∀ r ∈ requests, r.headers.authorization ≠ none →
          r.url.SameOrigin forge.apiUrl ∨ IsRedirected net client.headers pages r) ∧
      (net.LeavesBehind → ∀ f ∈ pages, f.sent.IsChain Http.StaysOnServer)) ∧
    ((Reference.ofText path.toList).IsBelow → first.SameOrigin forge.apiUrl) := by
  refine ⟨fun σ visit limit s s' trace hread => ?_, fun pages next requests hchain => ⟨?_, ?_, ?_⟩,
    Client.firstPage_sameOrigin hclient hfirst⟩
  · obtain ⟨pages, next, hchain, -⟩ := exists_covers_of_read hread
    exact ⟨pages, next, hchain⟩
  · intro r hr
    refine (hchain.eq_requestFor_or hr).imp_left ?_
    rintro ⟨f, hf, rfl⟩
    exact ⟨f, hf, rfl, Http.Network.requestFor_sameOrigin _ _⟩
  · intro hpages r hr _
    refine (hchain.eq_requestFor_or hr).imp_left ?_
    rintro ⟨f, hf, rfl⟩
    exact (Http.Network.requestFor_sameOrigin _ _).trans (hpages f hf)
  · exact fun hnet f hf => (hchain.brings hf).staysOnServer hnet

/-! ### A listing that leads elsewhere -/

namespace Elsewhere

def forge : Forge := ⟨⟨"me", "it"⟩, .https "forge" [""] none, "https://forge", some "secret"⟩

def client : Client :=
  ⟨forge, .https "forge" ["repos", "me", "it", ""] none,
    ⟨Forge.mediaType, Forge.userAgent, some "token secret"⟩⟩

def first : Url := .https "forge" ["repos", "me", "it", "pulls"] (some "page=1")

/-- A place on another host. -/
def other (name : String) : Url := .https "other" [name] none

/-- All pages are alike and link to the other host. -/
def linking : Http.Network where
  connects _ := true
  answer _ := .response (.plain 200 ["<https://other/pulls>; rel=next"] "[1]")
  keeps := Http.Network.keepsOnServer

/-- A page of that network. -/
def linkedPage (page : Url) (past : List Http.Request) : Fetched :=
  ⟨page, past, .ok ⟨[.integer 1], some (other "pulls")⟩,
    past ++ [Http.Network.requestFor client.headers page]⟩

theorem parse_one : Json.parse? "[1]".toList = some (.array [.integer 1]) := by
  simp +decide [Json.parse?, Json.readValue, Json.readItems, Json.readNumber, Json.readFraction,
    Json.number, Json.appendDigits]

/-- The second page is asked for at the other host, with the token. -/
theorem take_linking : ∃ elements log, take linking client.headers 2 2 first =
    some (elements, ⟨[⟨first, client.headers⟩, ⟨other "pulls", client.headers⟩], log⟩) := by
  have hfirst : Delivers linking client.headers first [] (.array [.integer 1])
      (some (other "pulls")) [⟨first, client.headers⟩] :=
    delivers_plain rfl rfl rfl (by decide +kernel) parse_one
  have hsecond : Delivers linking client.headers (other "pulls") [⟨first, client.headers⟩]
      (.array [.integer 1]) (some (other "pulls"))
      [⟨first, client.headers⟩, ⟨other "pulls", client.headers⟩] :=
    delivers_plain rfl rfl rfl (by decide +kernel) parse_one
  exact ⟨_, _, take_eq_some_iff.2 ⟨[linkedPage first [], linkedPage (other "pulls") _], _,
    .cons (f := linkedPage first []) hfirst.brings_list
      (.cons (f := linkedPage (other "pulls") _) hsecond.brings_list (.nil _ _)),
    rfl, by decide, .inl (by decide), by decide, rfl⟩⟩

/-- The first page redirects to the other host, and that redirects to another place on it. -/
def redirecting : Http.Network where
  connects _ := true
  answer requests :=
    match requests.length with
    | 1 => .response { Http.Response.plain 302 [] "" with location := some "https://other/a" }
    | 2 => .response { Http.Response.plain 302 [] "" with location := some "/b" }
    | _ => .response (.plain 200 [] "[1]")
  keeps := Http.Network.keepsOnServer

/-- The only page of that network.  The token was left behind on the way to the other host, but the
second redirect does not leave the server any more. -/
def redirectedPage : Fetched :=
  ⟨first, [], .ok ⟨[.integer 1], none⟩,
    [⟨first, client.headers⟩, ⟨other "a", client.headers.anonymous⟩, ⟨other "b", client.headers⟩]⟩

theorem get_redirecting : redirecting.get client.headers first [] =
    (.ok (.plain 200 [] "[1]"), redirectedPage.requests) := by
  calc redirecting.get client.headers first []
      = redirecting.follow client.headers 9 [first] (other "a") [⟨first, client.headers⟩] :=
        Http.Network.follow_redirected rfl rfl rfl (by decide +kernel)
    _ = redirecting.follow client.headers 8 [first, other "a"] (other "b")
          [⟨first, client.headers⟩, ⟨other "a", client.headers.anonymous⟩] :=
        Http.Network.follow_redirected rfl rfl rfl (by decide +kernel)
    _ = _ := Http.Network.follow_answered rfl rfl rfl rfl

theorem chain_redirecting : Chain redirecting client.headers (some first) [] [redirectedPage] none
    redirectedPage.requests := by
  have hdelivers : Delivers redirecting client.headers first [] (.array [.integer 1]) none
      redirectedPage.requests :=
    ⟨_, get_redirecting, by decide, by decide +kernel, content?_plain parse_one⟩
  exact .cons (f := redirectedPage) hdelivers.brings_list (.nil _ _)

end Elsewhere

/-- **The token is not bound to the origin of the interface.**  A link takes it to another host.
And even if all pages have the origin of the interface, and an authorization stays behind when a
redirect leads to another server, two redirects take it there. -/
theorem not_authorization_stays :
    (¬∀ (net : Http.Network) (forge : Forge) (client : Client) (path : String)
        (query : List (String × String)) (first : Url) (limit count : Nat)
        (elements : List Listed) (trace : Trace),
      forge.token.isSome = true → forge.client = .ok client →
      client.firstPage path query = .ok first →
      take net client.headers limit count first = some (elements, trace) →
      ∀ r ∈ trace.requests, r.headers.authorization ≠ none → r.url.SameOrigin forge.apiUrl) ∧
    ¬∀ (net : Http.Network) (forge : Forge) (client : Client) (path : String)
        (query : List (String × String)) (first : Url) (pages : List Fetched)
        (next : Option Url) (requests : List Http.Request),
      net.LeavesBehind → forge.token.isSome = true → forge.client = .ok client →
      client.firstPage path query = .ok first →
      Chain net client.headers (some first) [] pages next requests →
      (∀ f ∈ pages, f.url.SameOrigin forge.apiUrl) →
      ∀ r ∈ requests, r.headers.authorization ≠ none → r.url.SameServer forge.apiUrl := by
  open Elsewhere in
  constructor
  · intro h
    obtain ⟨elements, log, htake⟩ := take_linking
    have hsame : (other "pulls").SameOrigin forge.apiUrl :=
      h linking forge client "pulls" [("page", "1")] first 2 2 _ _ rfl rfl rfl htake
        ⟨other "pulls", client.headers⟩ (by simp) (by decide)
    exact absurd hsame (by decide)
  · intro h
    have hsame : (other "b").SameServer forge.apiUrl :=
      h redirecting forge client "pulls" [("page", "1")] first _ _ _
        (Http.Network.leavesBehind_of_keepsOnServer rfl) rfl rfl rfl chain_redirecting
        (List.forall_mem_singleton.2 (by decide)) ⟨other "b", client.headers⟩
        (by simp [redirectedPage]) (by decide)
    exact absurd hsame (by decide)

/-- The first page has the origin of the interface; of the requests that are redirected from there,
only the one that comes from the other host has the token. -/
theorem authorization_stays_with_pages_sample :
    Elsewhere.first.SameOrigin Elsewhere.forge.apiUrl ∧
      Elsewhere.redirectedPage.sent.IsChain Http.StaysOnServer ∧
      Elsewhere.redirectedPage.sent.map (·.headers.authorization) =
        [some "token secret", none, some "token secret"] := by
  open Elsewhere in
  obtain ⟨-, hchains, hfirst⟩ :=
    authorization_stays_with_pages redirecting forge client "pulls" [("page", "1")] first rfl rfl
  obtain ⟨-, -, hstays⟩ := hchains _ _ _ chain_redirecting
  exact ⟨hfirst (by decide),
    hstays (Http.Network.leavesBehind_of_keepsOnServer rfl) _ List.mem_cons_self, rfl⟩

end Listing

end ReleaseDraft
