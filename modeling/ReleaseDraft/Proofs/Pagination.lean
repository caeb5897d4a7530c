import ReleaseDraft.Proofs.PageChain

/-!
# Reading a listing follows its pages

A cursor hands out one element after the other from the items at hand and asks for a page when they
run out.  This file shows that a consumer that reads from a cursor sees what the chain of pages
contributes, in order and without loss, and that no page is asked for before the consumer wants an
element of it:

* `Listing.read_page` : reading from the start of a page is feeding the elements of the page to the
  consumer and going on with the next page.
* `Listing.read_of_covers`, `Listing.exists_covers_of_read` : reading has a result exactly when
  finitely many pages are enough for the consumer (`Covers`), and then these are the pages that are
  asked for.
* `Listing.take_firstPage_iff` : **pulling `count` elements** of a resource gives the first `count`
  elements of its chain of pages and asks for the fewest pages that have them.
-/

namespace ReleaseDraft

namespace Visit

variable {σ α : Type} {visit : Visit σ α}

theorem feed_append (xs ys : List α) (s : σ) :
    visit.feed (xs ++ ys) s =
      match visit.feed xs s with
      | .more t => visit.feed ys t
      | .done t => .done t := by
  induction xs generalizing s with
  | nil => rfl
  | cons x xs ih =>
    simp only [List.cons_append, feed]
    cases visit s x with
    | more t => exact ih t
    | done t => rfl

/-- A collector that has fewer than `count` elements takes the first elements until it has them. -/
theorem feed_collect {count : Nat} {taken : List α} (h : taken.length < count) (xs : List α) :
    (collect count).feed xs taken =
      if (taken ++ xs).length < count then .more (taken ++ xs)
      else .done ((taken ++ xs).take count) := by
  induction xs generalizing taken with
  | nil => simp [feed, h]
  | cons x xs ih =>
    simp only [feed, collect]
    by_cases hx : (taken ++ [x]).length < count
    · have := ih hx
      simp only [hx, ↓reduceIte]
      simpa using this
    · -- this element is the last one that is wanted
      have hc : count = (taken ++ [x]).length := by simp at hx h ⊢; omega
      have happ : taken ++ x :: xs = (taken ++ [x]) ++ xs := by simp
      simp only [hx, ↓reduceIte]
      rw [if_neg (by rw [happ, List.length_append]; omega), happ, hc, List.take_left]

end Visit

namespace Listing

variable {σ : Type} {net : Http.Network} {headers : Http.Headers} {visit : Visit σ Listed}

/-! ### Page by page -/

theorem read_eq (limit : Nat) (cursor : Cursor) (s : σ) (trace : Trace) :
    read net headers visit limit cursor s trace =
      match pull net headers limit cursor trace with
      | none => none
      | some (.ended, trace) => some (s, trace)
      | some (.element value rest limit, trace) =>
        match visit s value with
        | .done s => some (s, trace)
        | .more s => read net headers visit limit rest s trace := by
  rw [read]
  split
  · rename_i h
    exact h ▸ rfl
  · rename_i h
    exact h ▸ rfl
  · rename_i h
    exact h ▸ rfl

theorem read_none (limit : Nat) (s : σ) (trace : Trace) :
    read net headers visit limit ⟨[], none⟩ s trace = some (s, trace) := by
  rw [read_eq, pull]

theorem read_zero (url : Url) (s : σ) (trace : Trace) :
    read net headers visit 0 ⟨[], some url⟩ s trace = none := by
  rw [read_eq, pull]

/-- The items at hand come before anything else is asked for. -/
theorem read_items (limit : Nat) (items : List Json) (next : Option Url) (s : σ) (trace : Trace) :
    read net headers visit limit ⟨items, next⟩ s trace =
      match visit.feed (items.map .ok) s with
      | .done t => some (t, trace)
      | .more t => read net headers visit limit ⟨[], next⟩ t trace := by
  induction items generalizing s with
  | nil => rfl
  | cons item items ih =>
    rw [read_eq, pull]
    simp only [List.map_cons, Visit.feed]
    cases visit s (.ok item) with
    | done t => rfl
    | more t => exact ih t

/-- **Reading a page** feeds its elements to the consumer and goes on with the page after it. -/
theorem read_page {f : Fetched} (h : Brings net headers f.url f.past f.outcome f.requests)
    (limit : Nat) (s : σ) (log : List LogEntry) :
    read net headers visit (limit + 1) ⟨[], some f.url⟩ s ⟨f.past, log⟩ =
      match visit.feed f.elements s with
      | .done t => some (t, ⟨f.requests, log ++ [f.entry]⟩)
      | .more t =>
        read net headers visit limit ⟨[], f.next⟩ t ⟨f.requests, log ++ [f.entry]⟩ := by
  rw [read_eq, pull, h.fetch_eq]
  unfold Fetched.elements Fetched.next
  cases f.outcome with
  | error e =>
    simp only [Visit.feed]
    cases visit s (.error e) with
    | done t => rfl
    | more t => rfl
  | ok page =>
    -- the pull goes on from the items of the page, and so does reading
    simp only
    rw [← read_eq, read_items]
    rfl

/-! ### The pages that a consumer asks for -/

/-- A consumer in the state `s` needs every one of the pages, and is in the state `s'` after them,
done or at the end of the listing; `next` is the page after them. -/
structure Covers (visit : Visit σ Listed) (s : σ) (pages : List Fetched) (next : Option Url)
    (s' : σ) : Prop where
  /-- The pages before any of them leave the consumer wanting more. -/
  needed : ∀ m < pages.length,
    ∃ t, visit.feed ((pages.take m).flatMap Fetched.elements) s = .more t
  enough : visit.feed (pages.flatMap Fetched.elements) s = .done s' ∨
    visit.feed (pages.flatMap Fetched.elements) s = .more s' ∧ next = none

variable {s s' : σ} {start next : Option Url} {f : Fetched} {pages : List Fetched}
  {past requests : List Http.Request}

theorem covers_nil_iff : Covers visit s [] next s' ↔ s' = s ∧ next = none := by
  constructor
  · rintro ⟨-, h | ⟨h, hn⟩⟩
    · cases h
    · cases h
      exact ⟨rfl, hn⟩
  · rintro ⟨rfl, hn⟩
    exact ⟨fun m hm => absurd hm (Nat.not_lt_zero m), .inr ⟨rfl, hn⟩⟩

theorem covers_cons_of_done {t : σ} (h : visit.feed f.elements s = .done t) :
    Covers visit s (f :: pages) next s' ↔ pages = [] ∧ s' = t := by
  constructor
  · intro hc
    cases pages with
    | nil =>
      rcases hc.enough with h' | ⟨h', -⟩
      · simp only [List.flatMap_cons, List.flatMap_nil, List.append_nil, h] at h'
        cases h'
        exact ⟨rfl, rfl⟩
      · simp [h] at h'
    | cons g pages =>
      -- a second page is not needed
      obtain ⟨t', h'⟩ := hc.needed 1 (by simp)
      simp [h] at h'
  · rintro ⟨rfl, rfl⟩
    refine ⟨fun m hm => ?_, .inl (by simpa using h)⟩
    obtain rfl : m = 0 := by simpa using hm
    exact ⟨s, rfl⟩

theorem covers_cons_of_more {t : σ} (h : visit.feed f.elements s = .more t) :
    Covers visit s (f :: pages) next s' ↔ Covers visit t pages next s' := by
  have hfeed : ∀ ps : List Fetched, visit.feed ((f :: ps).flatMap Fetched.elements) s =
      visit.feed (ps.flatMap Fetched.elements) t := by
    intro ps
    rw [List.flatMap_cons, Visit.feed_append, h]
  constructor
  · rintro ⟨hn, he⟩
    refine ⟨fun m hm => ?_, by rwa [hfeed] at he⟩
    obtain ⟨u, hu⟩ := hn (m + 1) (by simpa using hm)
    rw [List.take_succ_cons, hfeed] at hu
    exact ⟨u, hu⟩
  · rintro ⟨hn, he⟩
    refine ⟨fun m hm => ?_, by rwa [hfeed]⟩
    cases m with
    | zero => exact ⟨s, rfl⟩
    | succ m =>
      rw [List.take_succ_cons, hfeed]
      exact hn m (by simpa using hm)

/-- The pages that a consumer needs are asked for, no others, and the limit must allow them. -/
theorem read_of_covers (hchain : Chain net headers start past pages next requests)
    (hcovers : Covers visit s pages next s') (limit : Nat) (log : List LogEntry) :
    read net headers visit limit ⟨[], start⟩ s ⟨past, log⟩ =
      if pages.length ≤ limit then some (s', ⟨requests, log ++ pages.map Fetched.entry⟩)
      else none := by
  induction hchain generalizing s limit log with
  | nil start past =>
    obtain ⟨rfl, rfl⟩ := covers_nil_iff.1 hcovers
    simp [read_none]
  | @cons f rest next requests hf hrest ih =>
    cases limit with
    | zero => simp [read_zero]
    | succ limit =>
      rw [read_page hf]
      cases hfeed : visit.feed f.elements s with
      | done t =>
        obtain ⟨rfl, rfl⟩ := (covers_cons_of_done hfeed).1 hcovers
        obtain ⟨rfl, rfl⟩ := chain_nil_iff.1 hrest
        simp
      | more t =>
        simp only [ih ((covers_cons_of_more hfeed).1 hcovers), List.length_cons,
          Nat.add_le_add_iff_right, List.map_cons, List.append_assoc, List.singleton_append]

theorem exists_covers_of_read {limit : Nat} {log : List LogEntry} {trace : Trace}
    (h : read net headers visit limit ⟨[], start⟩ s ⟨past, log⟩ = some (s', trace)) :
    ∃ pages next, Chain net headers start past pages next trace.requests ∧
      Covers visit s pages next s' := by
  -- every page uses up one of the limit
  induction limit generalizing start s past log with
  | zero =>
    cases start with
    | none =>
      rw [read_none] at h
      cases h
      exact ⟨[], none, .nil _ _, covers_nil_iff.2 ⟨rfl, rfl⟩⟩
    | some url =>
      rw [read_zero] at h
      cases h
  | succ limit ih =>
    cases start with
    | none =>
      rw [read_none] at h
      cases h
      exact ⟨[], none, .nil _ _, covers_nil_iff.2 ⟨rfl, rfl⟩⟩
    | some url =>
      let f : Fetched := ⟨url, past, (fetch net headers url ⟨past, log⟩).1,
        (fetch net headers url ⟨past, log⟩).2.requests⟩
      have hf : Brings net headers f.url f.past f.outcome f.requests :=
        brings_fetch net headers url ⟨past, log⟩
      rw [read_page hf] at h
      cases hfeed : visit.feed f.elements s with
      | done t =>
        rw [hfeed] at h
        cases h
        exact ⟨[f], f.next, .cons hf (.nil _ _), (covers_cons_of_done hfeed).2 ⟨rfl, rfl⟩⟩
      | more t =>
        rw [hfeed] at h
        obtain ⟨pages, next, hchain, hcovers⟩ := ih h
        exact ⟨f :: pages, next, .cons hf hchain, (covers_cons_of_more hfeed).2 hcovers⟩

/-! ### The first elements -/

theorem covers_collect_iff {count : Nat} {taken : List Listed} (h : 0 < count) :
    Covers (Visit.collect count) [] pages next taken ↔
      taken = (pages.flatMap Fetched.elements).take count ∧
        (∀ m < pages.length, ((pages.take m).flatMap Fetched.elements).length < count) ∧
        (count ≤ (pages.flatMap Fetched.elements).length ∨ next = none) := by
  have hfeed : ∀ xs : List Listed, (Visit.collect count).feed xs [] =
      if xs.length < count then .more xs else .done (xs.take count) :=
    fun xs => Visit.feed_collect h xs
  have hmore : ∀ xs : List Listed,
      (∃ t, (Visit.collect count).feed xs [] = .more t) ↔ xs.length < count := by
    intro xs
    rw [hfeed]
    split_ifs with hx <;> simp [hx]
  constructor
  · rintro ⟨hn, he⟩
    simp only [hfeed] at he
    refine ⟨?_, fun m hm => (hmore _).1 (hn m hm), ?_⟩
    · split_ifs at he with hx
      · simp only [Step.more.injEq, false_or] at he
        rw [List.take_of_length_le hx.le, he.1]
      · simp only [Step.done.injEq, false_and, or_false] at he
        exact he.symm
    · split_ifs at he with hx
      · simp only [false_or] at he
        exact .inr he.2
      · exact .inl (Nat.le_of_not_lt hx)
  · rintro ⟨rfl, hn, he⟩
    refine ⟨fun m hm => (hmore _).2 (hn m hm), ?_⟩
    rw [hfeed]
    split_ifs with hx
    · refine .inr ⟨by rw [List.take_of_length_le hx.le], ?_⟩
      exact he.resolve_left (Nat.not_le_of_lt hx)
    · exact .inl rfl

theorem take_eq_some_iff {limit count : Nat} {url : Url} {elements : List Listed}
    {trace : Trace} :
    take net headers limit count url = some (elements, trace) ↔
      ∃ pages next, Chain net headers (some url) [] pages next trace.requests ∧
        elements = (pages.flatMap Fetched.elements).take count ∧
        (∀ m < pages.length, ((pages.take m).flatMap Fetched.elements).length < count) ∧
        (count ≤ (pages.flatMap Fetched.elements).length ∨ next = none) ∧
        pages.length ≤ limit ∧ trace.log = pages.map Fetched.entry := by
  unfold take
  split_ifs with hcount
  · -- nothing is wanted, so no page is needed
    subst hcount
    constructor
    · intro h
      cases h
      exact ⟨[], some url, .nil _ _, by simp [Trace.empty]⟩
    · rintro ⟨pages, next, hchain, rfl, hneeded, -, -, hlog⟩
      obtain rfl : pages = [] := by
        cases pages with
        | nil => rfl
        | cons f pages => exact absurd (hneeded 0 (Nat.succ_pos _)) (Nat.not_lt_zero _)
      obtain ⟨requests, log⟩ := trace
      obtain ⟨-, rfl⟩ := chain_nil_iff.1 hchain
      simp_all [Trace.empty]
  · have hpos : 0 < count := Nat.pos_of_ne_zero hcount
    constructor
    · intro h
      obtain ⟨pages, next, hchain, hcovers⟩ := exists_covers_of_read h
      have hread := read_of_covers hchain hcovers limit []
      rw [show (⟨[], []⟩ : Trace) = .empty from rfl, ← Cursor.start, h] at hread
      split_ifs at hread with hlimit
      obtain ⟨helements, hneeded, henough⟩ := (covers_collect_iff hpos).1 hcovers
      refine ⟨pages, next, hchain, helements, hneeded, henough, hlimit, ?_⟩
      have := congrArg (fun r => r.2.log) (Option.some.inj hread)
      simpa using this
    · rintro ⟨pages, next, hchain, helements, hneeded, henough, hlimit, hlog⟩
      have hcovers := (covers_collect_iff hpos).2 ⟨helements, hneeded, henough⟩
      have hread := read_of_covers hchain hcovers limit []
      rw [if_pos hlimit, List.nil_append, ← hlog] at hread
      exact hread

theorem firstPage_eq_ok_iff {client : Client} {path : String} {query : List (String × String)}
    {url : Url} :
    client.firstPage path query = .ok url ↔
      ∃ target, client.base.resolve path.toList = .ok target ∧ url = target.addQuery query := by
  unfold Client.firstPage
  cases client.base.resolve path.toList with
  | error cause => simp
  | ok target => simp [eq_comm]

/-- **Pulling elements of a resource.**  The first `count` elements are those that the chain of
pages contributes from the resource with its query on.  They are there exactly if finitely many
pages, within the limit, have `count` elements or end the chain; the pages that are asked for are
the fewest such pages, in their order. -/
theorem take_firstPage_iff (net : Http.Network) (client : Client) (path : String)
    (query : List (String × String)) (limit count : Nat) (elements : List Listed)
    (trace : Trace) :
    (∃ url, client.firstPage path query = .ok url ∧
        take net client.headers limit count url = some (elements, trace)) ↔
      ∃ target pages next, client.base.resolve path.toList = .ok target ∧
        Chain net client.headers (some (target.addQuery query)) [] pages next trace.requests ∧
        elements = (pages.flatMap Fetched.elements).take count ∧
        (∀ m < pages.length, ((pages.take m).flatMap Fetched.elements).length < count) ∧
        (count ≤ (pages.flatMap Fetched.elements).length ∨ next = none) ∧
        pages.length ≤ limit ∧
        trace.log = pages.map Fetched.entry ∧
        trace.requests = pages.flatMap Fetched.sent ∧
        ∀ f ∈ pages, SentFor net client.headers f := by
  simp only [firstPage_eq_ok_iff, take_eq_some_iff]
  constructor
  · rintro ⟨url, ⟨target, htarget, rfl⟩, pages, next, hchain, helements, hneeded, henough, hlimit,
      hlog⟩
    refine ⟨target, pages, next, htarget, hchain, helements, hneeded, henough, hlimit, hlog, ?_, ?_⟩
    · rw [hchain.requests_eq, List.nil_append]
    · exact fun f hf => (hchain.brings hf).sentFor
  · rintro ⟨target, pages, next, htarget, hchain, helements, hneeded, henough, hlimit, hlog, -, -⟩
    exact ⟨_, ⟨target, htarget, rfl⟩, pages, next, hchain, helements, hneeded, henough, hlimit,
      hlog⟩

end Listing

end ReleaseDraft
