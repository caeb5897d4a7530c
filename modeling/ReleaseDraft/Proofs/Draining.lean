import ReleaseDraft.Proofs.PageBoundaries

/-!
# When a listing ends

A listing has no measure of its own: where it goes on is said by the links of the pages.  Draining
it ends exactly if the chain of pages comes to one that *closes* it (`Listing.Closes`): it has no
link to a next page, is no array, or fails.  A single pull comes to a result exactly if only empty
pages lie before a page that closes the listing or has items.

On a network whose replies depend on the URL alone (`Http.Network.IsMemoryless`), the URLs of a
chain that comes back to one of them form a set that no link leaves (`Listing.GoesOn`), so draining
never ends.  A run without end has no trace to look at, so how many requests it makes is seen on
networks that hang up after some requests (`Http.Network.cut`): however late they do so, draining
comes to that point (`Listing.exists_drain_cut`).
-/

namespace ReleaseDraft

/-! ### Networks -/

namespace Http

namespace Network

variable {net : Network} {headers : Headers} {url : Url} {past : List Request}
  {redirects count : Nat} {before : List Url}

/-- What is replied depends on the URL of the request alone. -/
def IsMemoryless (net : Network) : Prop :=
  ∀ past past' (request request' : Request), request.url = request'.url →
    net.answer (past ++ [request]) = net.answer (past' ++ [request'])

/-- The network as it is for the first `count` requests; it hangs up on all others. -/
def cut (net : Network) (count : Nat) : Network :=
  { net with
    answer := fun requests => if requests.length ≤ count then net.answer requests else .hangUp }

@[simp] theorem connects_cut (net : Network) (count : Nat) :
    (net.cut count).connects = net.connects := rfl

@[simp] theorem headersAt_cut (net : Network) (count : Nat) :
    (net.cut count).headersAt = net.headersAt := rfl

/-- On a memoryless network, it does not matter what was sent before, nor on whose behalf. -/
theorem IsMemoryless.follow_eq (h : net.IsMemoryless) (headers headers' : Headers)
    (redirects : Nat) (before : List Url) (url : Url) (past past' : List Request) :
    (net.follow headers redirects before url past).1 =
      (net.follow headers' redirects before url past').1 := by
  have hanswer : net.answer (past ++ [⟨url.withoutFragment, net.headersAt headers before url⟩]) =
      net.answer (past' ++ [⟨url.withoutFragment, net.headersAt headers' before url⟩]) :=
    h _ _ _ _ rfl
  rw [follow.eq_def net headers, follow.eq_def net headers']
  simp only [hanswer]
  cases isSendable url with
  | false => rfl
  | true =>
    cases net.connects url with
    | false => rfl
    | true =>
      cases net.answer (past' ++ [⟨url.withoutFragment, net.headersAt headers' before url⟩]) with
      | hangUp => rfl
      | response response =>
        simp only [Bool.not_true, Bool.false_eq_true, ↓reduceIte]
        cases redirect? url response with
        | none => rfl
        | some target =>
          cases redirects with
          | zero => rfl
          | succ redirects => exact h.follow_eq _ _ redirects (before ++ [url]) target _ _

theorem follow_past_le (net : Network) (headers : Headers) (redirects : Nat) (before : List Url)
    (url : Url) (past : List Request) :
    past.length ≤ (net.follow headers redirects before url past).2.length := by
  rcases follow_requests net headers url past redirects before with h | ⟨hops, h⟩
  · rw [h]
  · rw [h, List.length_append]
    exact Nat.le_add_right _ _

/-- A request is answered as by the whole network before a network that is cut hangs up. -/
theorem answer_of_cut {reply : Reply}
    (h : (net.cut count).answer
      (past ++ [⟨url.withoutFragment, (net.cut count).headersAt headers before url⟩]) = reply)
    (hle : (past ++ [(⟨url.withoutFragment, net.headersAt headers before url⟩ : Request)]).length ≤
      count) :
    net.answer (past ++ [⟨url.withoutFragment, net.headersAt headers before url⟩]) = reply :=
  (if_pos hle).symm.trans h

/-- As long as it does not hang up, a network that is cut does what the whole network does. -/
theorem follow_of_cut
    (h : ((net.cut count).follow headers redirects before url past).2.length ≤ count) :
    net.follow headers redirects before url past =
      (net.cut count).follow headers redirects before url past := by
  fun_induction follow (net.cut count) headers redirects before url past with
  | case1 _ _ _ _ hs => simp [follow.eq_def, hs]
  | case2 _ _ _ _ hs hc =>
    rw [connects_cut] at hc
    simp [follow.eq_def, hs, hc]
  | case3 _ _ _ _ hs hc sent hreply =>
    rw [connects_cut] at hc
    simp [follow.eq_def, hs, hc, answer_of_cut hreply h, sent]
  | case4 _ _ _ _ hs hc sent response hreply hstays =>
    rw [connects_cut] at hc
    simp [follow.eq_def, hs, hc, answer_of_cut hreply h, hstays, sent]
  | case5 _ _ _ hs hc sent response hreply target hleads =>
    rw [connects_cut] at hc
    simp [follow.eq_def, hs, hc, answer_of_cut hreply h, hleads, sent]
  | case6 before url past hs hc sent response hreply target hleads redirects ih =>
    rw [connects_cut] at hc
    -- the requests so far are among those that are sent in the end
    have hle : sent.length ≤ count :=
      (follow_past_le (net.cut count) headers redirects (before ++ [url]) target sent).trans h
    rw [← ih h, follow.eq_def]
    simp [hs, hc, answer_of_cut hreply hle, hleads, sent]

/-- A response from a network that is cut takes a request, and comes before it hangs up. -/
theorem length_of_cut_ok {response : Response} {requests : List Request}
    (h : (net.cut count).follow headers redirects before url past = (.ok response, requests)) :
    past.length < requests.length ∧ requests.length ≤ count := by
  fun_induction follow (net.cut count) headers redirects before url past with
  | case1 => cases h
  | case2 => cases h
  | case3 => cases h
  | case4 _ before url past _ _ sent response hreply =>
    rw [← (Prod.mk.inj h).2]
    refine ⟨by simp [sent], ?_⟩
    by_contra hmore
    exact absurd ((if_neg hmore).symm.trans hreply) (by simp)
  | case5 => cases h
  | case6 before url past _ _ sent _ _ _ _ _ ih =>
    obtain ⟨hlt, hle⟩ := ih h
    refine ⟨lt_of_le_of_lt ?_ hlt, hle⟩
    simp [sent]

end Network

end Http

/-! ### Draining -/

namespace Visit

variable {α : Type}

/-- Collects all elements. -/
def gather : Visit (List α) α := fun taken a => .more (taken ++ [a])

theorem feed_gather (xs taken : List α) : gather.feed xs taken = .more (taken ++ xs) := by
  induction xs generalizing taken with
  | nil => rw [feed, List.append_nil]
  | cons x xs ih =>
    rw [feed, gather]
    simpa using ih (taken ++ [x])

end Visit

namespace Listing

/-- All elements of a listing. -/
def drain (net : Http.Network) (headers : Http.Headers) (limit : Nat) (first : Url) :
    Option (List Listed × Trace) :=
  read net headers Visit.gather limit (.start first) [] .empty

section

variable {net : Http.Network} {headers : Http.Headers} {first : Url} {start next : Option Url}
  {f last : Fetched} {earlier pages : List Fetched} {past requests : List Http.Request}
  {limit count : Nat}

variable (net headers) in
/-- The page closes a listing: it fails, or its body is no array, or it has no link to a next
page. -/
def Closes (f : Fetched) : Prop :=
  (∃ e, f.outcome = .error e) ∨
    ∃ response, (net.get headers f.url f.past).1 = .ok response ∧
      ((∃ value, Page.content? response = some value ∧ value.array? = none) ∨
        Http.Link.next f.url response.links = .ok none)

/-- There is no page after a page exactly if it closes the listing. -/
theorem Brings.next_eq_none_iff (h : Brings net headers f.url f.past f.outcome f.requests) :
    f.next = none ↔ Closes net headers f := by
  unfold Closes Fetched.next
  generalize f.outcome = outcome at h ⊢
  cases h with
  | unanswered => simp
  | refused => simp
  | misled => simp
  | garbled => simp
  | list hget _ hlink hbody => simp [hget, hlink, hbody, Json.array?]
  | single hget _ _ hbody hvalue => simp [hget, hbody, hvalue]

theorem covers_gather_iff {taken elements : List Listed} :
    Covers Visit.gather taken pages next elements ↔
      elements = taken ++ pages.flatMap Fetched.elements ∧ next = none := by
  constructor
  · rintro ⟨-, h | ⟨h, hnext⟩⟩
    · simp [Visit.feed_gather] at h
    · rw [Visit.feed_gather, Step.more.injEq] at h
      exact ⟨h.symm, hnext⟩
  · rintro ⟨rfl, hnext⟩
    exact ⟨fun m _ => ⟨_, Visit.feed_gather _ _⟩, .inr ⟨Visit.feed_gather _ _, hnext⟩⟩

/-- Draining a chain of pages without a next one asks for these pages. -/
theorem drain_of_chain (h : Chain net headers (some first) [] pages none requests) (limit : Nat) :
    drain net headers limit first =
      if pages.length ≤ limit then
        some (pages.flatMap Fetched.elements, ⟨requests, pages.map Fetched.entry⟩)
      else none :=
  read_of_covers h (covers_gather_iff.2 ⟨rfl, rfl⟩) limit []

theorem exists_chain_of_drain {elements : List Listed} {trace : Trace}
    (h : drain net headers limit first = some (elements, trace)) :
    ∃ pages, Chain net headers (some first) [] pages none trace.requests := by
  obtain ⟨pages, next, hchain, hcovers⟩ := exists_covers_of_read h
  obtain ⟨-, rfl⟩ := covers_gather_iff.1 hcovers
  exact ⟨pages, hchain⟩

theorem Chain.next_eq (h : Chain net headers start past (earlier ++ [last]) next requests) :
    next = last.next ∧ Brings net headers last.url last.past last.outcome last.requests := by
  obtain ⟨middle, requests', -, hlast⟩ := chain_append_iff.1 h
  obtain ⟨-, -, hbrings, hnil⟩ := chain_cons_iff.1 hlast
  exact ⟨(chain_nil_iff.1 hnil).1, hbrings⟩

/-- **Draining ends exactly if the chain of pages comes to one that closes the listing.** -/
theorem exists_drain_iff : (∃ limit result, drain net headers limit first = some result) ↔
    ∃ earlier last next requests,
      Chain net headers (some first) [] (earlier ++ [last]) next requests ∧
        Closes net headers last := by
  constructor
  · rintro ⟨limit, ⟨elements, trace⟩, h⟩
    obtain ⟨pages, hchain⟩ := exists_chain_of_drain h
    rcases List.eq_nil_or_concat pages with rfl | ⟨earlier, last, rfl⟩
    · cases (chain_nil_iff.1 hchain).1
    · rw [List.concat_eq_append] at hchain
      obtain ⟨hnext, hbrings⟩ := hchain.next_eq
      exact ⟨earlier, last, none, _, hchain, hbrings.next_eq_none_iff.1 hnext.symm⟩
  · rintro ⟨earlier, last, next, requests, hchain, hcloses⟩
    obtain ⟨rfl, hbrings⟩ := hchain.next_eq
    rw [hbrings.next_eq_none_iff.2 hcloses] at hchain
    exact ⟨_, _, (drain_of_chain hchain _).trans (if_pos le_rfl)⟩

/-! ### One pull -/

variable (net headers) in
/-- There is always something to be said about a page. -/
theorem exists_fetched (url : Url) (past : List Http.Request) : ∃ f : Fetched,
    f.url = url ∧ f.past = past ∧ Brings net headers f.url f.past f.outcome f.requests :=
  ⟨⟨url, past, _, _⟩, rfl, rfl, brings_fetch net headers url ⟨past, []⟩⟩

/-- The page is an empty array. -/
def IsEmpty (f : Fetched) : Prop := ∃ next, f.outcome = .ok ⟨[], next⟩

/-- The page has items. -/
def HasItems (f : Fetched) : Prop := ∃ item items next, f.outcome = .ok ⟨item :: items, next⟩

variable (net headers) in
/-- From the page `start` on, only empty pages lie before one that closes the listing or has
items. -/
def Settles (start : Option Url) (past : List Http.Request) : Prop :=
  ∃ empty last next requests, Chain net headers start past (empty ++ [last]) next requests ∧
    (∀ f ∈ empty, IsEmpty f) ∧ (Closes net headers last ∨ HasItems last)

theorem settles_of_page (h : Brings net headers f.url f.past f.outcome f.requests)
    (hf : Closes net headers f ∨ HasItems f) : Settles net headers (some f.url) f.past :=
  ⟨[], f, _, _, .cons h (.nil _ _), by simp, hf⟩

theorem Settles.cons (h : Brings net headers f.url f.past f.outcome f.requests) (hf : IsEmpty f)
    (hrest : Settles net headers f.next f.requests) :
    Settles net headers (some f.url) f.past := by
  obtain ⟨empty, last, next, requests, hchain, hempty, hlast⟩ := hrest
  exact ⟨f :: empty, last, next, requests, .cons h hchain, List.forall_mem_cons.2 ⟨hf, hempty⟩,
    hlast⟩

theorem isEmpty_or (f : Fetched) : IsEmpty f ∨ HasItems f ∨ Closes net headers f := by
  unfold IsEmpty HasItems Closes
  rcases f.outcome with e | ⟨_ | ⟨item, items⟩, next⟩
  · exact .inr (.inr (.inl ⟨e, rfl⟩))
  · exact .inl ⟨next, rfl⟩
  · exact .inr (.inl ⟨item, items, next, rfl⟩)

theorem pull_item (item : Json) (items : List Json) (next : Option Url) (trace : Trace) :
    pull net headers limit ⟨item :: items, next⟩ trace =
      some (.element (.ok item) ⟨items, next⟩ limit, trace) := by
  rw [pull]

theorem pull_none (trace : Trace) :
    pull net headers limit ⟨[], none⟩ trace = some (.ended, trace) := by
  rw [pull]

/-- An empty page leaves a pull to the page after it. -/
theorem pull_of_isEmpty (h : Brings net headers f.url f.past f.outcome f.requests)
    (hf : IsEmpty f) (limit : Nat) (log : List LogEntry) :
    pull net headers (limit + 1) ⟨[], some f.url⟩ ⟨f.past, log⟩ =
      pull net headers limit ⟨[], f.next⟩ ⟨f.requests, log ++ [f.entry]⟩ := by
  obtain ⟨next, houtcome⟩ := hf
  rw [pull, h.fetch_eq, Fetched.next, houtcome]
  rfl

/-- Any other page, and one after which there is no page, has a result for a pull. -/
theorem exists_pull_of_page (h : Brings net headers f.url f.past f.outcome f.requests)
    (hf : Closes net headers f ∨ HasItems f) (limit : Nat) (log : List LogEntry) :
    ∃ result, pull net headers (limit + 1) ⟨[], some f.url⟩ ⟨f.past, log⟩ = some result := by
  rw [pull, h.fetch_eq]
  rcases houtcome : f.outcome with e | ⟨_ | ⟨item, items⟩, next⟩
  · exact ⟨_, rfl⟩
  · -- the page has no items, so it closes the listing, and there is no page after it
    have hcloses : Closes net headers f := hf.resolve_right (by simp [HasItems, houtcome])
    obtain rfl : next = none := by
      simpa [Fetched.next, houtcome] using h.next_eq_none_iff.2 hcloses
    exact ⟨_, pull_none _⟩
  · exact ⟨_, pull_item _ _ _ _⟩

theorem settles_of_pull {log : List LogEntry} {result : Pulled × Trace}
    (h : pull net headers limit ⟨[], start⟩ ⟨past, log⟩ = some result) :
    start = none ∨ Settles net headers start past := by
  induction limit generalizing start past log with
  | zero =>
    cases start with
    | none => exact .inl rfl
    | some url => simp [pull] at h
  | succ limit ih =>
    cases start with
    | none => exact .inl rfl
    | some url =>
      obtain ⟨f, rfl, rfl, hf⟩ := exists_fetched net headers url past
      right
      rcases @isEmpty_or net headers f with hempty | hfound
      · rw [pull_of_isEmpty hf hempty] at h
        rcases ih h with hnext | hsettles
        · exact settles_of_page hf (.inl (hf.next_eq_none_iff.1 hnext))
        · exact hsettles.cons hf hempty
      · exact settles_of_page hf hfound.symm

theorem Settles.exists_pull (h : Settles net headers start past) (log : List LogEntry) :
    ∃ limit result, pull net headers limit ⟨[], start⟩ ⟨past, log⟩ = some result := by
  obtain ⟨empty, last, next, requests, hchain, hempty, hlast⟩ := h
  induction empty generalizing start past log with
  | nil =>
    obtain ⟨rfl, rfl, hbrings, -⟩ := chain_cons_iff.1 hchain
    exact ⟨1, exists_pull_of_page hbrings hlast 0 log⟩
  | cons f empty ih =>
    obtain ⟨rfl, rfl, hbrings, hrest⟩ := chain_cons_iff.1 hchain
    obtain ⟨hf, hempty⟩ := List.forall_mem_cons.1 hempty
    obtain ⟨limit, result, hpull⟩ := ih (log ++ [f.entry]) hrest hempty
    exact ⟨limit + 1, result, (pull_of_isEmpty hbrings hf limit log).trans hpull⟩

/-- **A pull has a result exactly if** an item is at hand, or no page is left, or only empty pages
lie before one that closes the listing or has items. -/
theorem exists_pull_iff (cursor : Cursor) (trace : Trace) :
    (∃ limit result, pull net headers limit cursor trace = some result) ↔
      cursor.items ≠ [] ∨ cursor.next = none ∨
        Settles net headers cursor.next trace.requests := by
  obtain ⟨items, next⟩ := cursor
  obtain ⟨past, log⟩ := trace
  cases items with
  | cons item items =>
    exact iff_of_true ⟨0, _, pull_item _ _ _ _⟩ (.inl (List.cons_ne_nil _ _))
  | nil =>
    constructor
    · rintro ⟨limit, result, h⟩
      exact .inr (settles_of_pull h)
    · rintro (h | rfl | h)
      · exact absurd rfl h
      · exact ⟨0, _, pull_none _⟩
      · exact h.exists_pull log

/-! ### Cycles -/

variable (net headers) in
/-- Every page at one of these URLs links to a page at one of them, whatever was sent before. -/
def GoesOn (urls : Url → Prop) : Prop :=
  ∀ f : Fetched, urls f.url → Brings net headers f.url f.past f.outcome f.requests →
    ∃ target, f.next = some target ∧ urls target

variable {urls : Url → Prop} {url : Url}

/-- Reading all elements never ends where pages go on. -/
theorem GoesOn.read_eq_none (h : GoesOn net headers urls) (hurl : urls url)
    (taken : List Listed) (trace : Trace) :
    read net headers Visit.gather limit ⟨[], some url⟩ taken trace = none := by
  induction limit generalizing url taken trace with
  | zero => exact read_zero _ _ _
  | succ limit ih =>
    obtain ⟨past, log⟩ := trace
    obtain ⟨f, rfl, rfl, hf⟩ := exists_fetched net headers url past
    obtain ⟨target, hnext, htarget⟩ := h f hurl hf
    rw [read_page hf, Visit.feed_gather, hnext]
    exact ih htarget _ _

theorem GoesOn.drain_eq_none (h : GoesOn net headers urls) (hfirst : urls first) (limit : Nat) :
    drain net headers limit first = none :=
  h.read_eq_none hfirst [] .empty

/-- A pull never has a result where empty pages go on. -/
theorem GoesOn.pull_eq_none (h : GoesOn net headers urls)
    (hempty : ∀ f : Fetched, urls f.url → Brings net headers f.url f.past f.outcome f.requests →
      IsEmpty f) (hurl : urls url) (trace : Trace) :
    pull net headers limit ⟨[], some url⟩ trace = none := by
  induction limit generalizing url trace with
  | zero => rw [pull]
  | succ limit ih =>
    obtain ⟨past, log⟩ := trace
    obtain ⟨f, rfl, rfl, hf⟩ := exists_fetched net headers url past
    obtain ⟨target, hnext, htarget⟩ := h f hurl hf
    rw [pull_of_isEmpty hf (hempty f hurl hf), hnext]
    exact ih htarget _

/-- The outcome of a page depends on what its URL leads to. -/
theorem Brings.outcome_eq {outcome : Except Error Page}
    (h : Brings net headers url past outcome requests) :
    outcome = match (net.get headers url past).1 with
      | .error failure => .error (.network failure)
      | .ok response => Page.ofResponse url response := by
  have hfetch : (fetch net headers url ⟨past, []⟩).1 = outcome := congrArg Prod.fst (h.fetch_eq [])
  rw [← hfetch, fetch]
  simp only [Trace.write]
  cases (net.get headers url past).1 with
  | error failure => rfl
  | ok response => rfl

/-- On a memoryless network, a URL has one outcome. -/
theorem Brings.outcome_unique (hnet : net.IsMemoryless) {g : Fetched}
    (hf : Brings net headers f.url f.past f.outcome f.requests)
    (hg : Brings net headers g.url g.past g.outcome g.requests) (hurl : f.url = g.url) :
    f.outcome = g.outcome := by
  rw [hf.outcome_eq, hg.outcome_eq, ← hurl]
  simp only [Http.Network.get]
  rw [hnet.follow_eq _ (headers.forUrl f.url) _ _ _ f.past g.past]

/-- Every page of a chain with a next page links to a page of the chain, or to the next one. -/
theorem Chain.exists_next {again : Url}
    (h : Chain net headers start past pages (some again) requests) (hf : f ∈ pages) :
    ∃ target, f.next = some target ∧ (target = again ∨ ∃ g ∈ pages, g.url = target) := by
  induction pages generalizing start past with
  | nil => cases hf
  | cons g rest ih =>
    obtain ⟨-, -, -, hrest⟩ := chain_cons_iff.1 h
    rcases List.mem_cons.1 hf with rfl | hf
    · cases rest with
      | nil => exact ⟨again, (chain_nil_iff.1 hrest).1.symm, .inl rfl⟩
      | cons next rest =>
        exact ⟨next.url, (chain_cons_iff.1 hrest).1, .inr ⟨next, by simp, rfl⟩⟩
    · obtain ⟨target, hnext, htarget⟩ := ih hrest hf
      refine ⟨target, hnext, htarget.imp_right fun ⟨page, hpage, hurl⟩ => ?_⟩
      exact ⟨page, List.mem_cons_of_mem _ hpage, hurl⟩

/-- On a memoryless network, the pages of a chain go on if it comes back to one of them. -/
theorem Chain.goesOn (hnet : net.IsMemoryless)
    (h : Chain net headers start past pages (some f.url) requests) (hf : f ∈ pages) :
    GoesOn net headers fun url => ∃ g ∈ pages, g.url = url := by
  rintro page ⟨g, hg, hurl⟩ hpage
  obtain ⟨target, hnext, htarget⟩ := h.exists_next hg
  refine ⟨target, ?_, ?_⟩
  · rw [← hnext, Fetched.next, Fetched.next, (h.brings hg).outcome_unique hnet hpage hurl]
  · rcases htarget with rfl | htarget
    · exact ⟨f, hf, rfl⟩
    · exact htarget

/-! ### Networks that hang up -/

/-- A chain of pages that comes before a network hangs up is one of the whole network. -/
theorem Chain.of_cut (h : Chain (net.cut count) headers start past pages next requests)
    (hle : requests.length ≤ count) : Chain net headers start past pages next requests := by
  induction h with
  | nil => exact .nil _ _
  | @cons f rest next requests hf hrest ih =>
    have hrequests : f.requests.length ≤ count := by
      rw [hrest.requests_eq, List.length_append] at hle
      omega
    rw [hf.requests_eq] at hrequests
    exact .cons (hf.congr (Http.Network.follow_of_cut hrequests)) (ih hle)

/-- A page with a link takes a request, and comes before the network hangs up. -/
theorem Brings.length_of_cut {target : Url}
    (h : Brings (net.cut count) headers f.url f.past f.outcome f.requests)
    (hnext : f.next = some target) :
    f.past.length < f.requests.length ∧ f.requests.length ≤ count := by
  obtain ⟨response, hget, -⟩ := h.linksTo (g := ⟨target, [], .ok ⟨[], none⟩, []⟩) hnext
  exact Http.Network.length_of_cut_ok (Prod.ext hget h.requests_eq.symm)

/-- Reading ends when the network hangs up: as long as there is a next page, it has not done so. -/
theorem exists_read_cut (hpast : start = none ∨ past.length ≤ count)
    (hlimit : count < past.length + limit) (taken : List Listed) (log : List LogEntry) :
    ∃ result, read (net.cut count) headers Visit.gather limit ⟨[], start⟩ taken
      ⟨past, log⟩ = some result := by
  induction limit generalizing start past taken log with
  | zero =>
    obtain rfl : start = none := hpast.resolve_right (by omega)
    exact ⟨_, read_none _ _ _⟩
  | succ limit ih =>
    cases start with
    | none => exact ⟨_, read_none _ _ _⟩
    | some url =>
      obtain ⟨f, rfl, rfl, hf⟩ := exists_fetched (net.cut count) headers url past
      rw [read_page hf, Visit.feed_gather]
      cases hnext : f.next with
      | none => exact ⟨_, read_none _ _ _⟩
      | some target =>
        obtain ⟨hlt, hle⟩ := hf.length_of_cut hnext
        exact ih (.inr hle) (by omega) _ _

/-- If draining never ends, it makes more than `count` requests before the network hangs up. -/
theorem exists_drain_cut (h : ∀ limit, drain net headers limit first = none) (count : Nat) :
    ∃ limit elements trace, drain (net.cut count) headers limit first = some (elements, trace) ∧
      count < trace.requests.length := by
  obtain ⟨⟨elements, trace⟩, hdrain⟩ := @exists_read_cut net headers (some first) [] (count + 1)
    count (.inr (Nat.zero_le _)) (by simp) [] []
  refine ⟨_, elements, trace, hdrain, ?_⟩
  -- with no more requests, the whole network would have answered alike, and draining would end there
  by_contra hle
  obtain ⟨pages, hchain⟩ := exists_chain_of_drain hdrain
  have hend := drain_of_chain (hchain.of_cut (Nat.le_of_not_lt hle)) pages.length
  rw [h, if_pos le_rfl] at hend
  cases hend

/-- **When a listing ends.**  Draining ends exactly if the chain of pages comes to one that closes
the listing, and then exactly the pages up to that one are asked for.  A single pull has a result
exactly if an item is at hand, or no page is left, or only empty pages lie before one that closes
the listing or has items.  If the network is memoryless and the chain comes back to the URL of one
of its pages, then draining never ends and makes more than `count` requests for every `count`; and
if the pages from there on are empty, then no pull has a result that starts at one of them. -/
theorem ends_iff_closes (net : Http.Network) (headers : Http.Headers) (first : Url) :
    ((∃ limit result, drain net headers limit first = some result) ↔
      ∃ earlier last next requests,
        Chain net headers (some first) [] (earlier ++ [last]) next requests ∧
          Closes net headers last) ∧
    (∀ earlier last next requests,
      Chain net headers (some first) [] (earlier ++ [last]) next requests →
      Closes net headers last →
      (∀ limit, drain net headers limit first =
        if earlier.length < limit then
          some ((earlier ++ [last]).flatMap Fetched.elements,
            ⟨(earlier ++ [last]).flatMap Fetched.sent, (earlier ++ [last]).map Fetched.entry⟩)
        else none) ∧
      ∀ f ∈ earlier ++ [last], SentFor net headers f) ∧
    (∀ cursor trace, (∃ limit result, pull net headers limit cursor trace = some result) ↔
      cursor.items ≠ [] ∨ cursor.next = none ∨ Settles net headers cursor.next trace.requests) ∧
    (net.IsMemoryless → ∀ before f rest requests,
      Chain net headers (some first) [] (before ++ f :: rest) (some f.url) requests →
      (∀ limit, drain net headers limit first = none) ∧
      (∀ count, ∃ limit elements trace,
        drain (net.cut count) headers limit first = some (elements, trace) ∧
          count < trace.requests.length) ∧
      ((∀ g ∈ f :: rest, IsEmpty g) → ∀ g ∈ f :: rest, ∀ limit trace,
        pull net headers limit ⟨[], some g.url⟩ trace = none)) := by
  refine ⟨exists_drain_iff, ?_, exists_pull_iff, ?_⟩
  · intro earlier last next requests hchain hcloses
    refine ⟨fun limit => ?_, fun f hf => (hchain.brings hf).sentFor⟩
    obtain ⟨rfl, hbrings⟩ := hchain.next_eq
    rw [hbrings.next_eq_none_iff.2 hcloses] at hchain
    rw [drain_of_chain hchain, hchain.requests_eq, List.length_append]
    rfl
  · intro hnet before f rest requests hchain
    -- no link leaves the pages of the chain, and the first of them is at `first`
    have hnever : ∀ limit, drain net headers limit first = none := by
      refine (hchain.goesOn hnet (by simp)).drain_eq_none ?_
      cases before with
      | nil => exact ⟨f, by simp, (Option.some.inj (chain_cons_iff.1 hchain).1).symm⟩
      | cons g before => exact ⟨g, by simp, (Option.some.inj (chain_cons_iff.1 hchain).1).symm⟩
    refine ⟨hnever, exists_drain_cut hnever, fun hempty g hg limit trace => ?_⟩
    -- nor does one leave those of the cycle, which are all empty
    obtain ⟨middle, requests', -, hcycle⟩ := chain_append_iff.1 hchain
    refine (hcycle.goesOn hnet (by simp)).pull_eq_none ?_ ⟨g, hg, rfl⟩ trace
    rintro page ⟨g, hg, hurl⟩ hpage
    obtain ⟨next, houtcome⟩ := hempty g hg
    exact ⟨next, ((hcycle.brings hg).outcome_unique hnet hpage hurl).symm.trans houtcome⟩

end

/-! ### A listing that links to itself -/

namespace Looping

def headers : Http.Headers := ⟨Forge.mediaType, Forge.userAgent, none⟩

def listing (query : String) : Url := .https "forge" ["pulls"] (some query)

/-- Every page is empty and links to the second one. -/
def net : Http.Network where
  connects _ := true
  answer _ := .response (.plain 200 ["<pulls?page=2>; rel=next"] "[]")
  keeps := Http.Network.keepsOnServer

/-- A page of this listing. -/
def page (query : String) (past : List Http.Request) : Fetched :=
  ⟨listing query, past, .ok ⟨[], some (listing "page=2")⟩,
    past ++ [Http.Network.requestFor headers (listing query)]⟩

theorem brings_page {query : String} (past : List Http.Request)
    (hnext : Http.Link.next (listing query)
      (Http.Response.plain 200 ["<pulls?page=2>; rel=next"] "[]").links =
        .ok (some (listing "page=2"))) :
    Brings net headers (page query past).url (page query past).past (page query past).outcome
      (page query past).requests := by
  have hbody : Json.parse? "[]".toList = some (.array []) := by
    simp +decide [Json.parse?, Json.readValue]
  exact (delivers_plain rfl rfl rfl hnext hbody).brings_list

theorem chain_net : ∃ requests, Chain net headers (some (listing "page=1")) []
    ([page "page=1" []] ++ [page "page=2" (page "page=1" []).requests])
      (some (listing "page=2")) requests :=
  ⟨_, .cons (brings_page [] (by decide +kernel))
    (.cons (brings_page _ (by decide +kernel)) (.nil _ _))⟩

/-- The page when nothing can be connected to. -/
def failed : Fetched :=
  ⟨listing "page=1", [], .error (.network (.noResponse (listing "page=1"))), []⟩

theorem chain_unreachable : Chain .unreachable headers (some (listing "page=1")) []
    ([] ++ [failed]) none [] :=
  .cons (f := failed) (.unanswered rfl) (.nil _ _)

end Looping

theorem ends_iff_closes_sample :
    (∀ limit, drain Looping.net Looping.headers limit (Looping.listing "page=1") = none) ∧
    (∃ limit elements trace, drain (Looping.net.cut 1000) Looping.headers limit
      (Looping.listing "page=1") = some (elements, trace) ∧ 1000 < trace.requests.length) ∧
    (∀ limit trace, pull Looping.net Looping.headers limit
      ⟨[], some (Looping.listing "page=2")⟩ trace = none) ∧
    ∀ limit, drain .unreachable Looping.headers limit (Looping.listing "page=1") =
      if 0 < limit then
        some ([.error (.network (.noResponse (Looping.listing "page=1")))],
          ⟨[], [.debug "fetching https://forge/pulls?page=1"]⟩)
      else none := by
  open Looping in
  obtain ⟨requests, hchain⟩ := chain_net
  obtain ⟨-, -, -, hcycle⟩ := ends_iff_closes net headers (listing "page=1")
  obtain ⟨hdrain, hcut, hpull⟩ := hcycle (fun _ _ _ _ _ => rfl) _ _ _ _ hchain
  refine ⟨hdrain, hcut 1000, hpull ?_ _ List.mem_cons_self, fun limit => ?_⟩
  · intro g hg
    obtain rfl := List.mem_singleton.1 hg
    exact ⟨_, rfl⟩
  · obtain ⟨-, hends, -⟩ := ends_iff_closes .unreachable headers (listing "page=1")
    rw [(hends [] failed _ _ chain_unreachable (.inl ⟨_, rfl⟩)).1 limit]
    have hentry : failed.entry = .debug "fetching https://forge/pulls?page=1" := by
      decide +kernel
    have helements : failed.elements =
        [.error (.network (.noResponse (listing "page=1")))] := rfl
    have hsent : failed.sent = [] := rfl
    simp [hentry, helements, hsent]

end Listing

end ReleaseDraft
