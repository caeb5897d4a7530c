import ReleaseDraft.Proofs.PageBoundaries

/-!
# A token leaves no trace

Two runs that differ in their token send requests that differ in their authorization.  On a network
that does not look at authorizations (`Http.Network.IgnoresAuthorization`) this is all they differ
in.  Each layer is shown to keep two runs alike that are alike but for authorizations: following
redirects (`Http.Network.follow_anonymous`), asking for a page, pulling an element and reading a
listing (`Listing.read_anonymous`).  So outcome and log of a draft, and its requests without their
authorization, are the same for all tokens that may stand in a header; of all others nothing is
told but that they may not (`Draft.shown_compose_withToken`).
-/

namespace ReleaseDraft

/-! ### Without authorization -/

namespace Http

/-- The request without an authorization. -/
def Request.anonymous (r : Request) : Request := { r with headers := r.headers.anonymous }

/-- Replies are the same for requests that are the same but for their authorization. -/
def Network.IgnoresAuthorization (net : Network) : Prop :=
  ∀ requests requests', requests.map Request.anonymous = requests'.map Request.anonymous →
    net.answer requests = net.answer requests'

@[simp] theorem Headers.forUrl_anonymous (h : Headers) (url : Url) :
    (h.forUrl url).anonymous = h.anonymous := rfl

@[simp] theorem Network.headersAt_anonymous (net : Network) (h : Headers) (before : List Url)
    (url : Url) : (net.headersAt h before url).anonymous = h.anonymous := by
  unfold headersAt
  split_ifs
  · rfl
  · rfl

end Http

/-- The trace without the authorizations of its requests. -/
def Trace.anonymous (trace : Trace) : Trace :=
  { trace with requests := trace.requests.map Http.Request.anonymous }

theorem Trace.anonymous_eq_iff {trace trace' : Trace} : trace.anonymous = trace'.anonymous ↔
    trace.requests.map Http.Request.anonymous = trace'.requests.map Http.Request.anonymous ∧
      trace.log = trace'.log :=
  Trace.mk.injEq _ _ _ _ ▸ Iff.rfl

/-- What a run shows when it has a result: all but the authorizations of its requests. -/
def shown {α : Type} (run : Option (α × Trace)) : Option (α × Trace) :=
  run.map (Prod.map id Trace.anonymous)

/-- A run that shows the same as one with a result has this result too. -/
theorem exists_eq_some_of_shown {α : Type} {run run' : Option (α × Trace)} {a : α} {trace : Trace}
    (hshown : shown run = shown run') (h : run = some (a, trace)) :
    ∃ trace', run' = some (a, trace') ∧ trace.anonymous = trace'.anonymous := by
  subst h
  cases run' with
  | none => cases hshown
  | some r =>
    obtain ⟨ha, htrace⟩ := Prod.mk.inj (Option.some.inj hshown)
    exact ⟨r.2, by rw [show a = r.1 from ha], htrace⟩

/-- What is made of a run without a look at authorizations shows what is made of what it shows. -/
theorem shown_map {α β : Type} {f : α × Trace → β × Trace}
    (h : ∀ a trace, Prod.map id Trace.anonymous (f (a, trace)) = f (a, trace.anonymous))
    (run : Option (α × Trace)) : shown (run.map f) = (shown run).map f := by
  cases run with
  | none => rfl
  | some r => exact congrArg some (h r.1 r.2)

/-! ### Requests -/

namespace Http.Network

variable {net : Network} {headers headers' : Headers}

/-- Following redirects does not tell two runs apart that are alike but for authorizations. -/
theorem follow_anonymous (hnet : net.IgnoresAuthorization)
    (hheaders : headers.anonymous = headers'.anonymous) (redirects : Nat) (before : List Url)
    (url : Url) {past past' : List Request}
    (hpast : past.map Request.anonymous = past'.map Request.anonymous) :
    (net.follow headers redirects before url past).1 =
        (net.follow headers' redirects before url past').1 ∧
      (net.follow headers redirects before url past).2.map Request.anonymous =
        (net.follow headers' redirects before url past').2.map Request.anonymous := by
  have hsent : (past ++ [(⟨url.withoutFragment, net.headersAt headers before url⟩ : Request)]).map
        Request.anonymous =
      (past' ++ [(⟨url.withoutFragment, net.headersAt headers' before url⟩ : Request)]).map
        Request.anonymous := by
    simp [Request.anonymous, hpast, hheaders]
  rw [follow.eq_def net headers, follow.eq_def net headers']
  simp only [hnet _ _ hsent]
  cases isSendable url with
  | false => exact ⟨rfl, hpast⟩
  | true =>
    cases net.connects url with
    | false => exact ⟨rfl, hpast⟩
    | true =>
      cases net.answer (past' ++ [⟨url.withoutFragment, net.headersAt headers' before url⟩]) with
      | hangUp => exact ⟨rfl, hsent⟩
      | response response =>
        simp only [Bool.not_true, Bool.false_eq_true, ↓reduceIte]
        cases redirect? url response with
        | none => exact ⟨rfl, hsent⟩
        | some target =>
          cases redirects with
          | zero => exact ⟨rfl, hsent⟩
          | succ redirects =>
            exact follow_anonymous hnet hheaders redirects (before ++ [url]) target hsent

theorem get_anonymous (hnet : net.IgnoresAuthorization)
    (hheaders : headers.anonymous = headers'.anonymous) (url : Url) {past past' : List Request}
    (hpast : past.map Request.anonymous = past'.map Request.anonymous) :
    (net.get headers url past).1 = (net.get headers' url past').1 ∧
      (net.get headers url past).2.map Request.anonymous =
        (net.get headers' url past').2.map Request.anonymous := by
  have hfor : (headers.forUrl url).anonymous = (headers'.forUrl url).anonymous := by
    rw [Headers.forUrl_anonymous, Headers.forUrl_anonymous, hheaders]
  exact follow_anonymous hnet hfor redirectLimit [] url.withoutUser hpast

end Http.Network

/-! ### Pages -/

namespace Listing

variable {net : Http.Network} {headers headers' : Http.Headers} {σ : Type}

theorem fetch_anonymous (hnet : net.IgnoresAuthorization)
    (hheaders : headers.anonymous = headers'.anonymous) {url : Url} {outcome : Except Error Page}
    {trace trace' after : Trace} (htrace : trace.anonymous = trace'.anonymous)
    (h : fetch net headers url trace = (outcome, after)) :
    ∃ after', fetch net headers' url trace' = (outcome, after') ∧
      after.anonymous = after'.anonymous := by
  obtain ⟨hrequests, hlog⟩ := Trace.anonymous_eq_iff.1 htrace
  obtain ⟨houtcome, hsent⟩ := Http.Network.get_anonymous hnet hheaders url hrequests
  simp only [fetch, Trace.write, houtcome, hlog] at h ⊢
  cases hget : (net.get headers' url trace'.requests).1 with
  | error failure =>
    rw [hget] at h
    cases h
    exact ⟨_, rfl, Trace.anonymous_eq_iff.2 ⟨hsent, rfl⟩⟩
  | ok response =>
    rw [hget] at h
    cases h
    exact ⟨_, rfl, Trace.anonymous_eq_iff.2 ⟨hsent, rfl⟩⟩

/-- A pull shows the same in both runs. -/
theorem pull_anonymous (hnet : net.IgnoresAuthorization)
    (hheaders : headers.anonymous = headers'.anonymous) (limit : Nat) (cursor : Cursor)
    {trace trace' : Trace} (htrace : trace.anonymous = trace'.anonymous) :
    shown (pull net headers limit cursor trace) =
      shown (pull net headers' limit cursor trace') := by
  fun_induction pull net headers limit cursor trace generalizing trace' with
  | case1 limit item items next trace => simp [pull, shown, htrace]
  | case2 limit trace => simp [pull, shown, htrace]
  | case3 => rfl
  | case4 limit url trace e after hfetch =>
    obtain ⟨after', hfetch', hafter⟩ := fetch_anonymous hnet hheaders htrace hfetch
    simp [pull, hfetch', shown, hafter]
  | case5 limit url trace page after hfetch ih =>
    obtain ⟨after', hfetch', hafter⟩ := fetch_anonymous hnet hheaders htrace hfetch
    simp [pull, hfetch', ih hafter]

/-- **Reading does not tell two runs apart** that are alike but for authorizations. -/
theorem read_anonymous (hnet : net.IgnoresAuthorization)
    (hheaders : headers.anonymous = headers'.anonymous) (visit : Visit σ Listed) (limit : Nat)
    (cursor : Cursor) (s : σ) {trace trace' : Trace}
    (htrace : trace.anonymous = trace'.anonymous) :
    shown (read net headers visit limit cursor s trace) =
      shown (read net headers' visit limit cursor s trace') := by
  fun_induction read net headers visit limit cursor s trace generalizing trace' with
  | case1 limit cursor s trace hpull =>
    have hpulls := pull_anonymous hnet hheaders limit cursor htrace
    rw [hpull] at hpulls
    rw [read_eq, Option.map_eq_none_iff.1 hpulls.symm]
  | case2 limit cursor s trace after hpull =>
    obtain ⟨after', hpull', hafter⟩ :=
      exists_eq_some_of_shown (pull_anonymous hnet hheaders limit cursor htrace) hpull
    rw [read_eq, hpull']
    simp [shown, hafter]
  | case3 limit cursor s trace value rest limit' after hpull t hvisit =>
    obtain ⟨after', hpull', hafter⟩ :=
      exists_eq_some_of_shown (pull_anonymous hnet hheaders limit cursor htrace) hpull
    rw [read_eq, hpull']
    simp [hvisit, shown, hafter]
  | case4 limit cursor s trace value rest limit' after hpull t hvisit ih =>
    obtain ⟨after', hpull', hafter⟩ :=
      exists_eq_some_of_shown (pull_anonymous hnet hheaders limit cursor htrace) hpull
    rw [ih hafter, read_eq _ cursor, hpull']
    simp [hvisit]

end Listing

/-! ### Drafts -/

/-- The same draft on behalf of someone else. -/
def Options.withToken (options : Options) (token : Option String) : Options :=
  { options with forge := { options.forge with token } }

namespace Draft

section

variable {net : Http.Network} {options : Options} {token token' : Option String}

theorem concluded_anonymous (tag : Tag) (s : Selection) (trace : Trace) :
    (concluded tag s trace).anonymous = concluded tag s trace.anonymous := by
  unfold concluded
  cases s.result with
  | error e => rfl
  | ok pulls => rfl

/-- The pull requests merged since a tag are the same in both runs. -/
theorem mergedSince_anonymous (hnet : net.IgnoresAuthorization) {client client' : Client}
    (hbase : client.base = client'.base)
    (hheaders : client.headers.anonymous = client'.headers.anonymous) (limit : Nat) (tag : Tag)
    (trace : Trace) :
    shown (mergedSince net limit client tag trace) =
      shown (mergedSince net limit client' tag trace) := by
  have hfirst : client.firstPage "pulls" closedByUpdate =
      client'.firstPage "pulls" closedByUpdate := by
    rw [Client.firstPage, Client.firstPage, hbase]
  cases hpage : client'.firstPage "pulls" closedByUpdate with
  | error e => rw [mergedSince, mergedSince, hfirst, hpage]
  | ok url =>
    rw [mergedSince_eq_map_read net (hfirst.trans hpage), mergedSince_eq_map_read net hpage,
      shown_map fun s trace => congrArg (Prod.mk s.result) (concluded_anonymous tag s trace),
      shown_map fun s trace => congrArg (Prod.mk s.result) (concluded_anonymous tag s trace),
      Listing.read_anonymous hnet hheaders _ limit _ _ rfl]

/-- Two legal tokens make no difference that is shown. -/
theorem shown_compose_of_legal (hnet : net.IgnoresAuthorization)
    (hlegal : TokenIsLegal (options.withToken token).forge)
    (hlegal' : TokenIsLegal (options.withToken token').forge) (limit : Nat) :
    shown (compose net limit (options.withToken token)) =
      shown (compose net limit (options.withToken token')) := by
  have hclient := client_eq_of_legal hlegal
  have hclient' := client_eq_of_legal hlegal'
  have hbase : ∀ t, (options.withToken t).forge.base = options.forge.base := fun _ => rfl
  rw [hbase] at hclient hclient'
  cases hresolved : options.forge.base with
  | error e =>
    rw [hresolved] at hclient hclient'
    rw [compose, compose, hclient, hclient']
    rfl
  | ok base =>
    rw [hresolved] at hclient hclient'
    rw [compose_of_client hclient, compose_of_client hclient', shown_map fun _ _ => rfl,
      shown_map fun _ _ => rfl]
    refine congrArg _ (mergedSince_anonymous hnet ?_ ?_ limit options.tag _)
    -- the two clients have the same base, and headers that differ in the authorization
    · rfl
    · rfl

/-- **The token is not observable.**  On a network that ignores authorizations, a draft has the same
outcome, the same log and, but for their authorization, the same requests with any two tokens that
may stand in a header or without one.  With any other token its outcome is one and the same error,
and nothing is logged or sent. -/
theorem shown_compose_withToken (net : Http.Network) (hnet : net.IgnoresAuthorization)
    (options : Options) (token token' : Option String) (limit : Nat) :
    (TokenIsLegal (options.withToken token).forge →
      TokenIsLegal (options.withToken token').forge →
      shown (compose net limit (options.withToken token)) =
        shown (compose net limit (options.withToken token'))) ∧
    (¬TokenIsLegal (options.withToken token).forge →
      ¬TokenIsLegal (options.withToken token').forge →
      compose net limit (options.withToken token) = some (.error .invalidHeader, .empty) ∧
        compose net limit (options.withToken token) =
          compose net limit (options.withToken token')) := by
  constructor
  · intro hlegal hlegal'
    exact shown_compose_of_legal hnet hlegal hlegal' limit
  · intro hillegal hillegal'
    rw [compose, compose, client_eq_of_illegal hillegal, client_eq_of_illegal hillegal']
    exact ⟨rfl, rfl⟩

end

/-! ### Two tokens, legal or not -/

namespace Tokens

def options : Options :=
  ⟨⟨⟨"me", "it"⟩, .https "forge" [""] none, "https://forge", some "secret"⟩, ⟨"v1", ⟨600, 0⟩⟩, 80⟩

def headers : Http.Headers := ⟨Forge.mediaType, Forge.userAgent, some "token secret"⟩

/-- A page of the listing of pull requests. -/
def listing (query : String) : Url := .https "forge" ["repos", "me", "it", "pulls"] (some query)

def first : Url := listing "state=closed&sort=updated&direction=desc"

/-- A pull request that was merged after the tag. -/
def body : String := "[[7,\"Fix\",\"1970-1-1T0:20:0Z\",\"1970-1-1T0:15:0Z\"]]"

def item : Json :=
  .array [.integer 7, .string "Fix", .string "1970-1-1T0:20:0Z", .string "1970-1-1T0:15:0Z"]

def fix : PullRequest := ⟨7, "Fix", ⟨1200, 0⟩, some ⟨900, 0⟩⟩

/-- A page with the pull request and an empty one.  Only the number of requests counts. -/
def net : Http.Network where
  connects _ := true
  answer requests :=
    match requests.length with
    | 1 => .response (.plain 200 ["<pulls?page=2>; rel=next"] body)
    | _ => .response (.plain 200 [] "[]")
  keeps := Http.Network.keepsOnServer

theorem ignoresAuthorization_net : net.IgnoresAuthorization := by
  intro requests requests' h
  have hlength : requests.length = requests'.length := by simpa using congrArg List.length h
  simp only [net, hlength]

theorem tokenIsLegal : TokenIsLegal (options.withToken (some "secret")).forge ∧
    TokenIsLegal (options.withToken none).forge := by
  constructor
  · intro token htoken
    cases htoken
    decide
  · intro token htoken
    cases htoken

theorem not_tokenIsLegal : ¬TokenIsLegal (options.withToken (some "a\n")).forge ∧
    ¬TokenIsLegal (options.withToken (some "b\r")).forge :=
  ⟨fun h => absurd (h _ rfl) (by decide), fun h => absurd (h _ rfl) (by decide)⟩

theorem parse_body : Json.parse? body.toList = some (.array [item]) := by
  simp +decide [body, item, Json.parse?, Json.readValue, Json.readItems, Json.readString,
    Json.readNumber, Json.readFraction, Json.number, Json.appendDigits]

theorem parse_nothing : Json.parse? "[]".toList = some (.array []) := by
  simp +decide [Json.parse?, Json.readValue]

theorem serves_net : Listing.Serves net headers first [] [item] := by
  have hfirst : Listing.Delivers net headers first [] (.array [item]) (some (listing "page=2"))
      [⟨first, headers⟩] :=
    Listing.delivers_plain rfl rfl rfl (by decide +kernel) parse_body
  have hsecond : Listing.Delivers net headers (listing "page=2") [⟨first, headers⟩] (.array []) none
      [⟨first, headers⟩, ⟨listing "page=2", headers⟩] :=
    Listing.delivers_plain rfl rfl rfl (by decide +kernel) parse_nothing
  exact .more hfirst (.last hsecond)

theorem ofItems_item : ofItems options [item] = .ok
    (banner options.forge options.tag ++ "\n" ++ "- Fix ([#7](https://forge/me/it/pull/7)).") := by
  have hreads : Selection.Reads options.tag.date [.ok fix] [fix] .exhausted :=
    .fresh (by decide) .exhausted
  have hkept : Selection.keptOf options.tag.date [fix] = [fix] := by decide
  have hlist : Layout.bulletList options.width ([fix].map (label options.forge)) =
      some "- Fix ([#7](https://forge/me/it/pull/7))." := by decide +kernel
  calc ofItems options [item]
      = (Selection.outcomeAt (Selection.sorted (Selection.keptOf options.tag.date [fix]))
          .exhausted).bind fun pulls => render options.forge options.tag pulls options.width :=
        congrArg (Except.bind · _) hreads.result_ofList
    _ = render options.forge options.tag [fix] options.width := by
        rw [hkept, Selection.sorted, List.mergeSort_singleton]
        rfl
    _ = _ := by
        rw [render, bullets, hlist]
        rfl

theorem yields : Yields net options
    (.ok (banner options.forge options.tag ++ "\n" ++ "- Fix ([#7](https://forge/me/it/pull/7))."))
    := by
  have hprepared : Prepared options headers first :=
    ⟨tokenIsLegal.1, rfl, _, _, rfl, rfl, rfl⟩
  rw [← ofItems_item]
  exact hprepared.yields_ofItems serves_net

end Tokens

theorem shown_compose_withToken_sample :
    (∃ limit trace, compose Tokens.net limit (Tokens.options.withToken none) =
      some (.ok (banner Tokens.options.forge Tokens.options.tag ++ "\n" ++
        "- Fix ([#7](https://forge/me/it/pull/7))."), trace)) ∧
    compose Tokens.net 2 (Tokens.options.withToken (some "a\n")) =
      compose Tokens.net 2 (Tokens.options.withToken (some "b\r")) := by
  open Tokens in
  constructor
  · obtain ⟨trace, pages, hsecret⟩ := yields
    have hcompose := hsecret pages
    rw [if_pos le_rfl] at hcompose
    have hshown := (shown_compose_withToken _ ignoresAuthorization_net options (some "secret") none
      pages).1 tokenIsLegal.1 tokenIsLegal.2
    obtain ⟨trace', hanonymous, -⟩ := exists_eq_some_of_shown hshown hcompose
    exact ⟨pages, trace', hanonymous⟩
  · exact ((shown_compose_withToken _ ignoresAuthorization_net options (some "a\n") (some "b\r")
      2).2 not_tokenIsLegal.1 not_tokenIsLegal.2).2

end Draft

end ReleaseDraft
