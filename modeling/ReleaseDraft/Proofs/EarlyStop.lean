import ReleaseDraft.Proofs.MergeOrder
import ReleaseDraft.Proofs.Pagination

/-!
# Where a selection stops

`Selection.Reads` says what is read of a list of elements: pull requests up to the first element
that *stops* reading, which is an error or a stale pull request.  A selection keeps those that were
merged after the cutoff, and does not depend on what stands after the stop (`Reads.feed_eq`,
`Reads.append_stop`).  So it is known what a selection makes of any stream, in whatever order
(`ofList_stopAt`).

Stopping early is a shortcut for listings with the most recently updated pull requests first.  On
such a listing it loses nothing, as a pull request is not merged after its last update
(`result_of_descending`).
-/

namespace ReleaseDraft

namespace Selection

variable {cutoff : Instant} {elements rest : List (Except Error PullRequest)}
  {pulls : List PullRequest} {ending : Ending}

/-- Ends reading: an error, or a pull request last updated before the cutoff. -/
def Stops (cutoff : Instant) : Except Error PullRequest → Prop
  | .error _ => True
  | .ok pull => pull.updatedAt < cutoff

instance (cutoff : Instant) : DecidablePred (Stops cutoff)
  | .error _ => .isTrue trivial
  | .ok pull => inferInstanceAs (Decidable (pull.updatedAt < cutoff))

/-- Of a list of elements, the pull requests `pulls` are read, up to the ending. -/
inductive Reads (cutoff : Instant) :
    List (Except Error PullRequest) → List PullRequest → Ending → Prop
  | exhausted : Reads cutoff [] [] .exhausted
  | stale {pull rest} : pull.updatedAt < cutoff → Reads cutoff (.ok pull :: rest) [] (.stale pull)
  | failed {e rest} : Reads cutoff (.error e :: rest) [] (.failed e)
  | fresh {pull rest pulls ending} : ¬pull.updatedAt < cutoff → Reads cutoff rest pulls ending →
      Reads cutoff (.ok pull :: rest) (pull :: pulls) ending

/-! ### What is read -/

variable (cutoff elements) in
theorem exists_reads : ∃ pulls ending, Reads cutoff elements pulls ending := by
  induction elements with
  | nil => exact ⟨_, _, .exhausted⟩
  | cons x elements ih =>
    cases x with
    | error e => exact ⟨_, _, .failed⟩
    | ok pull =>
      by_cases hstale : pull.updatedAt < cutoff
      · exact ⟨_, _, .stale hstale⟩
      · obtain ⟨pulls, ending, h⟩ := ih
        exact ⟨_, _, .fresh hstale h⟩

/-- Reading is exhausted exactly if nothing stops it. -/
theorem Reads.exhausted_iff (h : Reads cutoff elements pulls ending) :
    ending = .exhausted ↔ ∀ x ∈ elements, ¬Stops cutoff x := by
  induction h with
  | exhausted => simp
  | stale h => simp [Stops, h]
  | failed => simp [Stops]
  | fresh hf _ ih => simpa [Stops, hf] using ih

/-- What stands after an element that stops reading does not matter. -/
theorem Reads.append_stop {x : Except Error PullRequest} (hx : Stops cutoff x)
    (h : Reads cutoff (elements ++ x :: rest) pulls ending)
    (rest' : List (Except Error PullRequest)) :
    Reads cutoff (elements ++ x :: rest') pulls ending := by
  induction elements generalizing pulls with
  | nil =>
    cases h with
    | stale h => exact .stale h
    | failed => exact .failed
    | fresh hf _ => exact absurd hx hf
  | cons y elements ih =>
    cases h with
    | stale h => exact .stale h
    | failed => exact .failed
    | fresh hf h => exact .fresh hf (ih h)

/-! ### What a selection makes of it -/

/-- The pull requests that a selection keeps of those that are read. -/
def keptOf (cutoff : Instant) (pulls : List PullRequest) : List PullRequest :=
  pulls.filter (Qualifies cutoff ·)

theorem keptOf_cons (cutoff : Instant) (pull : PullRequest) (pulls : List PullRequest) :
    keptOf cutoff (pull :: pulls) = keptOf cutoff [pull] ++ keptOf cutoff pulls :=
  List.filter_append [pull] pulls

theorem visit_fresh {pull : PullRequest} (h : ¬pull.updatedAt < cutoff) (s : Selection) :
    visit cutoff s (.ok pull) = .more ⟨s.seen + 1, s.kept ++ keptOf cutoff [pull], s.ending⟩ := by
  simp only [visit, isStale_eq, h, isMergedAfter_eq, decide_false, Bool.false_eq_true, ↓reduceIte,
    decide_eq_true_eq, keptOf]
  split_ifs with hq
  · simp [hq]
  · simp [hq]

theorem visit_stale {pull : PullRequest} (h : pull.updatedAt < cutoff) (s : Selection) :
    visit cutoff s (.ok pull) = .done ⟨s.seen + 1, s.kept, .stale pull⟩ := by
  simp [visit, isStale_eq, h]

/-- The selection `s` after the pull requests `pulls` and the element that stops reading, if there
is one. -/
def stepAt (cutoff : Instant) (s : Selection) (pulls : List PullRequest) : Ending → Step Selection
  | .exhausted => .more ⟨s.seen + pulls.length, s.kept ++ keptOf cutoff pulls, s.ending⟩
  | ending => .done ⟨s.seen + pulls.length + 1, s.kept ++ keptOf cutoff pulls, ending⟩

theorem stepAt_cons (s : Selection) (pull : PullRequest) (pulls : List PullRequest)
    (ending : Ending) :
    stepAt cutoff ⟨s.seen + 1, s.kept ++ keptOf cutoff [pull], s.ending⟩ pulls ending =
      stepAt cutoff s (pull :: pulls) ending := by
  have hseen : s.seen + 1 + pulls.length = s.seen + (pulls.length + 1) := by omega
  cases ending <;>
    simp only [stepAt, hseen, List.length_cons, keptOf_cons cutoff pull pulls, List.append_assoc]

/-- **A selection is done with the element that stops reading**, and keeps the pull requests before
it that qualify. -/
theorem Reads.feed_eq (h : Reads cutoff elements pulls ending) (s : Selection) :
    (visit cutoff).feed elements s = stepAt cutoff s pulls ending := by
  induction h generalizing s with
  | exhausted => simp [Visit.feed, stepAt, keptOf]
  | stale h => simp [Visit.feed, visit_stale h, stepAt, keptOf]
  | failed => simp [Visit.feed, visit, stepAt, keptOf]
  | @fresh pull rest pulls ending hf _ ih =>
    rw [← stepAt_cons, ← ih]
    simp only [Visit.feed, visit_fresh hf]

/-- The outcome of reading that comes to an ending, when the pull requests `chosen` are selected. -/
def outcomeAt (chosen : List PullRequest) : Ending → Except Error (List PullRequest)
  | .failed e => .error e
  | _ => .ok chosen

theorem outcomeAt_eq_ok {chosen : List PullRequest} (h : ∀ e, ending ≠ .failed e) :
    outcomeAt chosen ending = .ok chosen := by
  cases ending with
  | failed e => exact absurd rfl (h e)
  | exhausted => rfl
  | stale pull => rfl

theorem result_stepAt (pulls : List PullRequest) (ending : Ending) :
    (stepAt cutoff start pulls ending).state.result =
      outcomeAt (sorted (keptOf cutoff pulls)) ending := by
  cases ending <;> simp [stepAt, Step.state, result, start, outcomeAt]

/-- **The outcome of a selection** is the error that stops reading, or else the pull requests that
qualify, in the order of their merge. -/
theorem Reads.result_ofList (h : Reads cutoff elements pulls ending) :
    (ofList cutoff elements).result = outcomeAt (sorted (keptOf cutoff pulls)) ending := by
  rw [ofList, h.feed_eq, result_stepAt]

/-! ### Arbitrary streams -/

/-- The position of the first element that stops reading; the end, if there is none. -/
def stopAt (cutoff : Instant) (elements : List (Except Error PullRequest)) : Nat :=
  elements.findIdx (Stops cutoff ·)

/-- The pull requests among some elements. -/
def found (elements : List (Except Error PullRequest)) : List PullRequest :=
  elements.filterMap Except.toOption

/-- How reading ends with an element that stops it. -/
def endingWith : Except Error PullRequest → Ending
  | .ok pull => .stale pull
  | .error e => .failed e

theorem stopAt_of_going (h : ∀ x ∈ elements, ¬Stops cutoff x) :
    stopAt cutoff elements = elements.length :=
  List.findIdx_eq_length.2 fun x hx => decide_eq_false (h x hx)

theorem stopAt_append_cons {x : Except Error PullRequest} (h : ∀ y ∈ elements, ¬Stops cutoff y)
    (hx : Stops cutoff x) (rest : List (Except Error PullRequest)) :
    stopAt cutoff (elements ++ x :: rest) = elements.length := by
  have hgoing : elements.findIdx (Stops cutoff ·) = elements.length := stopAt_of_going h
  rw [stopAt, List.findIdx_append, hgoing, if_neg (lt_irrefl _), List.findIdx_cons,
    decide_eq_true hx]
  simp

/-- Either nothing stops reading, or there is a first element that does. -/
theorem exists_stop (cutoff : Instant) (elements : List (Except Error PullRequest)) :
    (∀ x ∈ elements, ¬Stops cutoff x) ∨ ∃ before x rest, elements = before ++ x :: rest ∧
      (∀ y ∈ before, ¬Stops cutoff y) ∧ Stops cutoff x := by
  cases h : elements.find? (Stops cutoff ·) with
  | none =>
    left
    simpa using h
  | some x =>
    obtain ⟨hx, before, rest, hsplit, hbefore⟩ := List.find?_eq_some_iff_append.1 h
    exact .inr ⟨before, x, rest, hsplit, by simpa using hbefore, by simpa using hx⟩

/-- Elements that do not stop reading are read. -/
theorem Reads.append_going (h : Reads cutoff rest pulls ending)
    (hgoing : ∀ x ∈ elements, ¬Stops cutoff x) :
    Reads cutoff (elements ++ rest) (found elements ++ pulls) ending := by
  induction elements with
  | nil => exact h
  | cons x elements ih =>
    obtain ⟨hx, hrest⟩ := List.forall_mem_cons.1 hgoing
    cases x with
    | error e => exact absurd trivial hx
    | ok pull => exact .fresh hx (ih hrest)

theorem reads_of_going (h : ∀ x ∈ elements, ¬Stops cutoff x) :
    Reads cutoff elements (found elements) .exhausted := by
  simpa using Reads.exhausted.append_going h

theorem reads_append_cons {x : Except Error PullRequest} (h : ∀ y ∈ elements, ¬Stops cutoff y)
    (hx : Stops cutoff x) (rest : List (Except Error PullRequest)) :
    Reads cutoff (elements ++ x :: rest) (found elements) (endingWith x) := by
  have hstop : Reads cutoff (x :: rest) [] (endingWith x) := by
    cases x with
    | error e => exact .failed
    | ok pull => exact .stale hx
  simpa using hstop.append_going h

theorem length_found (h : ∀ x ∈ elements, ¬Stops cutoff x) :
    (found elements).length = elements.length := by
  induction elements with
  | nil => rfl
  | cons x elements ih =>
    obtain ⟨hx, hrest⟩ := List.forall_mem_cons.1 h
    cases x with
    | error e => exact absurd trivial hx
    | ok pull => exact congrArg (· + 1) (ih hrest)

/-- As long as nothing stops reading, a selection asks for more. -/
theorem feed_going (h : ∀ x ∈ elements, ¬Stops cutoff x) :
    (visit cutoff).feed elements start =
      .more ⟨elements.length, keptOf cutoff (found elements), .exhausted⟩ := by
  rw [(reads_of_going h).feed_eq, stepAt, length_found h]
  simp [start]

/-- With the first element that stops reading, a selection is done. -/
theorem feed_append_cons {x : Except Error PullRequest} (h : ∀ y ∈ elements, ¬Stops cutoff y)
    (hx : Stops cutoff x) (rest : List (Except Error PullRequest)) :
    (visit cutoff).feed (elements ++ x :: rest) start =
      .done ⟨elements.length + 1, keptOf cutoff (found elements), endingWith x⟩ := by
  rw [(reads_append_cons h hx rest).feed_eq, ← length_found h]
  cases x <;> simp [stepAt, endingWith, start]

/-- **A selection reads any stream up to the first error or stale pull request.**  It asks for more
until then, it is done with that element, and nothing after it is looked at.  An error is the
outcome.  Otherwise the outcome has the pull requests before it that were merged after the cutoff,
in the order of their merge and, where that is the same, in the order of the stream. -/
theorem ofList_stopAt (cutoff : Instant) (elements : List (Except Error PullRequest)) :
    (ofList cutoff elements).seen = (elements.take (stopAt cutoff elements + 1)).length ∧
      (∀ k ≤ stopAt cutoff elements,
        ∃ s, (visit cutoff).feed (elements.take k) start = .more s) ∧
      (stopAt cutoff elements < elements.length → ∀ rest,
        (visit cutoff).feed (elements.take (stopAt cutoff elements + 1) ++ rest) start =
          .done (ofList cutoff elements)) ∧
      (∀ e, elements[stopAt cutoff elements]? = some (.error e) →
        (ofList cutoff elements).result = .error e) ∧
      ((∀ e, elements[stopAt cutoff elements]? ≠ some (.error e)) →
        ∃ chosen, (ofList cutoff elements).result = .ok chosen ∧
          Arranged ((found (elements.take (stopAt cutoff elements))).filter (Qualifies cutoff ·))
            chosen) := by
  rcases exists_stop cutoff elements with hgoing | ⟨before, x, rest, rfl, hgoing, hx⟩
  · have hfeed := feed_going hgoing
    have hlist : ofList cutoff elements =
        ⟨elements.length, keptOf cutoff (found elements), .exhausted⟩ := by
      rw [ofList, hfeed, Step.state]
    rw [stopAt_of_going hgoing, hlist]
    refine ⟨by simp, fun k _ => ⟨_, feed_going fun x hx => hgoing x (List.mem_of_mem_take hx)⟩,
      fun h => absurd h (lt_irrefl _), by simp, fun _ => ⟨_, rfl, ?_⟩⟩
    rw [List.take_length]
    exact arranged_sorted _
  · have hlist : ofList cutoff (before ++ x :: rest) =
        ⟨before.length + 1, keptOf cutoff (found before), endingWith x⟩ := by
      rw [ofList, feed_append_cons hgoing hx, Step.state]
    have htaken : (before ++ x :: rest).take (before.length + 1) = before ++ [x] := by
      rw [List.append_cons]
      exact List.take_left' (by simp)
    have hat : (before ++ x :: rest)[before.length]? = some x := by simp
    rw [stopAt_append_cons hgoing hx, hlist, htaken, hat, List.take_left]
    refine ⟨by simp, fun k hk => ?_, fun _ rest' => ?_, fun e he => ?_, fun he => ?_⟩
    · rw [List.take_append_of_le_length hk]
      exact ⟨_, feed_going fun y hy => hgoing y (List.mem_of_mem_take hy)⟩
    · rw [List.append_assoc, List.singleton_append]
      exact feed_append_cons hgoing hx rest'
    · obtain rfl : x = .error e := Option.some.inj he
      rfl
    · cases x with
      | error e => exact absurd rfl (he e)
      | ok pull => exact ⟨_, rfl, arranged_sorted _⟩

/-! ### Descending listings -/

/-- Nothing qualifies from the first stale pull request on. -/
theorem not_qualifies_of_stale {stale pull : PullRequest} (hstale : stale.updatedAt < cutoff)
    (hle : pull.updatedAt ≤ stale.updatedAt)
    (hmerged : ∀ date, pull.mergedAt = some date → date ≤ pull.updatedAt) :
    ¬Qualifies cutoff pull := by
  rintro ⟨date, hdate, hlater⟩
  have : cutoff < cutoff := calc
    cutoff < date := hlater
    _ ≤ pull.updatedAt := hmerged date hdate
    _ ≤ stale.updatedAt := hle
    _ < cutoff := hstale
  exact lt_irrefl _ this

/-- Of a descending list of pull requests, all that qualify are read. -/
theorem Reads.keptOf_eq {all : List PullRequest} (h : Reads cutoff (all.map .ok) pulls ending)
    (hdesc : all.Pairwise fun a b => b.updatedAt ≤ a.updatedAt)
    (hmerged : ∀ p ∈ all, ∀ date, p.mergedAt = some date → date ≤ p.updatedAt) :
    keptOf cutoff pulls = keptOf cutoff all := by
  induction all generalizing pulls with
  | nil =>
    cases h
    rfl
  | cons p all ih =>
    cases h with
    | fresh hf h =>
      have hrest := ih h hdesc.tail fun q hq => hmerged q (List.mem_cons_of_mem _ hq)
      rw [keptOf_cons cutoff p, hrest, ← keptOf_cons]
    | stale hstale =>
      -- all that stands here or further down was updated no later, so none of it qualifies
      refine (List.filter_eq_nil_iff.2 fun q hq => ?_).symm
      have hle : q.updatedAt ≤ p.updatedAt := by
        rcases List.mem_cons.1 hq with rfl | hq
        · exact le_rfl
        · exact List.rel_of_pairwise_cons hdesc hq
      simpa using not_qualifies_of_stale hstale hle (hmerged q hq)

theorem Reads.not_failed {all : List PullRequest} (h : Reads cutoff (all.map .ok) pulls ending)
    (e : Error) : ending ≠ .failed e := by
  rintro rfl
  induction all generalizing pulls with
  | nil => cases h
  | cons p all ih =>
    cases h with
    | fresh _ h => exact ih h

/-- **The early stop loses nothing on an ordered listing.**  If pull requests come with the most
recently updated first and none is merged after its last update, then a selection has the outcome of
a scan of the whole list: all that were merged after the cutoff, each as often as it is listed, in
the order of their merge and of the list where that is the same. -/
theorem result_of_descending (cutoff : Instant) (all : List PullRequest)
    (hdesc : all.Pairwise fun a b => b.updatedAt ≤ a.updatedAt)
    (hmerged : ∀ p ∈ all, ∀ date, p.mergedAt = some date → date ≤ p.updatedAt) :
    ∃ chosen, (ofList cutoff (all.map .ok)).result = .ok chosen ∧
      chosen = sorted (all.filter (Qualifies cutoff ·)) ∧
      Arranged (all.filter (Qualifies cutoff ·)) chosen := by
  obtain ⟨pulls, ending, hreads⟩ := exists_reads cutoff (all.map .ok)
  have hresult := hreads.result_ofList
  rw [hreads.keptOf_eq hdesc hmerged, outcomeAt_eq_ok hreads.not_failed] at hresult
  exact ⟨_, hresult, rfl, arranged_sorted _⟩

/-- A descending listing with two merges at the same instant, one at the cutoff of 100 seconds, an
update at the cutoff and a stale pull request. -/
def descendingSample : List PullRequest :=
  [⟨1, "first of two", ⟨300, 0⟩, some ⟨200, 0⟩⟩, ⟨2, "second of two", ⟨300, 0⟩, some ⟨200, 0⟩⟩,
    ⟨3, "merged at the cutoff", ⟨150, 0⟩, some ⟨100, 0⟩⟩,
    ⟨4, "merged before them", ⟨120, 0⟩, some ⟨110, 0⟩⟩,
    ⟨5, "updated at the cutoff", ⟨100, 0⟩, none⟩, ⟨6, "stale", ⟨90, 0⟩, some ⟨80, 0⟩⟩]

theorem result_of_descendingSample :
    ∃ chosen, (ofList ⟨100, 0⟩ (descendingSample.map .ok)).result = .ok chosen ∧
      (chosen.map PullRequest.number).Perm [1, 2, 4] ∧
      chosen.filter (fun p => p.mergedAt = some ⟨200, 0⟩) = descendingSample.take 2 := by
  obtain ⟨chosen, hresult, -, harranged⟩ :=
    result_of_descending ⟨100, 0⟩ descendingSample (by decide) (by decide)
  refine ⟨chosen, hresult, ?_, ?_⟩
  · exact (harranged.perm.map PullRequest.number).trans (List.Perm.of_eq (by decide))
  · exact (harranged.ties _).trans (by decide)

end Selection

end ReleaseDraft
