import ReleaseDraft.Proofs.RepositoryPath

/-!
# Paths as they are written

A text is cut at its slashes before it becomes a path, and what is not visible in a segment is
percent-encoded.  So the segments of every path that is read have visible ASCII characters other
than the slash (`Path.IsWritten`, `Path.isWritten_walk`).  A URL that is read has an authority and
such a path (`Url.IsPlaced`); only URLs of schemes that are not special may have neither
(`Url.isPlaced_or_of_parse`).
-/

namespace ReleaseDraft

/-! ### Segments -/

namespace Path

/-- A visible ASCII character other than the slash. -/
def inSegment (c : Char) : Bool := 0x20 < c.toNat && c.toNat < 0x7F && c != '/'

/-- The segments have visible ASCII characters other than the slash. -/
def IsWritten (segments : List (List Char)) : Prop :=
  ∀ segment ∈ segments, ∀ c ∈ segment, inSegment c = true

variable {segment : List Char} {done segments : List (List Char)}

theorem inSegment_iff {c : Char} :
    inSegment c = true ↔ 0x20 < c.toNat ∧ c.toNat < 0x7F ∧ c ≠ '/' := by
  simp [inSegment, and_assoc]

theorem isWritten_nil : IsWritten [] := by
  intro segment hsegment
  cases hsegment

theorem isWritten_cons_iff : IsWritten (segment :: segments) ↔
    (∀ c ∈ segment, inSegment c = true) ∧ IsWritten segments :=
  List.forall_mem_cons

theorem isWritten_append_iff : IsWritten (done ++ segments) ↔ IsWritten done ∧ IsWritten segments :=
  List.forall_mem_append

theorem isWritten_empty : IsWritten [[]] := by
  simp [IsWritten]

theorem IsWritten.of_subset (h : IsWritten segments) (hsub : done ⊆ segments) : IsWritten done :=
  fun segment hsegment => h segment (hsub hsegment)

theorem inSegment_hexDigit {n : Nat} (h : n < 16) : inSegment (Percent.hexDigit n) = true := by
  have hall : ∀ n < 16, inSegment (Percent.hexDigit n) = true := by decide
  exact hall n h

theorem inSegment_of_mem_encodeChar {c d : Char} (h : d ∈ Percent.encodeChar c) :
    inSegment d = true := by
  obtain ⟨b, -, hd⟩ := List.mem_flatMap.1 h
  have hb := b.toNat_lt
  simp only [Percent.encodeByte, List.mem_cons, List.not_mem_nil, or_false] at hd
  rcases hd with rfl | rfl | rfl
  · rfl
  · exact inSegment_hexDigit (by omega)
  · exact inSegment_hexDigit (by omega)

/-- A character that is kept in a segment is visible. -/
theorem inSegment_of_path_eq_false {c : Char} (h : Percent.path c = false) (hslash : c ≠ '/') :
    inSegment c = true := by
  simp only [Percent.path, Percent.fragment, Percent.control, Bool.or_eq_false_iff,
    decide_eq_false_iff_not] at h
  obtain ⟨⟨⟨hlow, hhigh⟩, hsigns⟩, -⟩ := h
  have hspace : c.toNat ≠ 0x20 := by
    intro heq
    have hc : c = ' ' := Char.toNat_inj.1 heq
    rw [hc] at hsigns
    exact absurd hsigns (by decide)
  exact inSegment_iff.2 ⟨by omega, by omega, hslash⟩

theorem inSegment_of_mem_encode (hslash : ∀ c ∈ segment, c ≠ '/') {d : Char}
    (h : d ∈ Percent.encode Percent.path segment) : inSegment d = true := by
  obtain ⟨c, hc, hd⟩ := List.mem_flatMap.1 h
  split_ifs at hd with hset
  · exact inSegment_of_mem_encodeChar hd
  · obtain rfl := List.mem_singleton.1 hd
    exact inSegment_of_path_eq_false (by simpa using hset) (hslash d hc)

/-! ### Walking -/

theorem isWritten_above (h : IsWritten done) : IsWritten (above done) := by
  unfold above
  split
  · split_ifs
    · exact h
    · exact h.of_subset (List.dropLast_sublist done).subset
  · exact h

theorem inSegment_of_mem_kept (file : Bool) (done : List (List Char))
    (h : ∀ c ∈ segment, inSegment c = true) : ∀ c ∈ kept file done segment, inSegment c = true := by
  unfold kept
  split
  · split_ifs
    · simpa using ⟨h _ List.mem_cons_self, by decide⟩
    · exact h
  · exact h

theorem isWritten_walkAlong (file : Bool) (hdone : IsWritten done) (h : IsWritten segments) :
    IsWritten (walkAlong file done segments) := by
  induction segments generalizing done with
  | nil => exact hdone
  | cons segment rest ih =>
    obtain ⟨hsegment, hrest⟩ := isWritten_cons_iff.1 h
    have habove := isWritten_above hdone
    rw [walkAlong]
    split_ifs
    · exact isWritten_append_iff.2 ⟨habove, isWritten_empty⟩
    · exact ih habove hrest
    · exact isWritten_append_iff.2 ⟨hdone, isWritten_empty⟩
    · exact ih hdone hrest
    · refine ih (isWritten_append_iff.2 ⟨hdone, ?_⟩) hrest
      exact isWritten_cons_iff.2 ⟨inSegment_of_mem_kept file done hsegment, isWritten_nil⟩

/-- **Walking along any text leads to written segments.** -/
theorem isWritten_walk (special file : Bool) (hdone : IsWritten done) (text : List Char) :
    IsWritten (walk special file done text) := by
  have hpieces : IsWritten
      ((text.splitOnP (endsSegment special)).map (Percent.encode Percent.path)) := by
    intro segment hsegment
    obtain ⟨piece, hpiece, rfl⟩ := List.mem_map.1 hsegment
    refine fun c hc => inSegment_of_mem_encode (fun d hd heq => ?_) hc
    subst heq
    exact absurd (eq_false_of_mem_splitOnP hpiece '/' hd) (by simp [endsSegment])
  have hwalked := isWritten_walkAlong file hdone hpieces
  simp only [walk]
  split_ifs
  · -- a file path has no empty segments in front
    split
    · exact isWritten_empty
    · rename_i trimmed htrimmed
      exact hwalked.of_subset (List.dropWhile_sublist _).subset
  · exact hwalked

end Path

/-! ### URLs -/

namespace Url

variable {url : Url} {ref : Reference} {scheme text : List Char}

/-- The URL has an authority and a path of written segments. -/
def IsPlaced (url : Url) : Prop :=
  ∃ authority segments, url.authority = some authority ∧ url.path = .segments segments ∧
    Path.IsWritten segments

theorem isPlaced_assemble (ref : Reference) (scheme : List Char) (authority : Authority)
    {segments : List (List Char)} (h : Path.IsWritten segments) :
    (assemble ref scheme (some authority) (.segments segments)).IsPlaced :=
  ⟨authority, segments, rfl, rfl, h⟩

theorem exists_readRooted_eq (scheme text : List Char) :
    ∃ segments, readRooted scheme text = .segments segments ∧ Path.IsWritten segments := by
  unfold readRooted
  split_ifs
  · exact ⟨_, rfl, Path.isWritten_walk true _ Path.isWritten_nil _⟩
  · exact ⟨_, rfl, Path.isWritten_nil⟩
  · exact ⟨_, rfl, Path.isWritten_walk false false Path.isWritten_nil _⟩
  · exact ⟨_, rfl, Path.isWritten_walk false false Path.isWritten_nil _⟩

theorem isPlaced_of_afterSlashes (h : afterSlashes ref scheme text = .ok url) :
    url.IsPlaced := by
  unfold afterSlashes at h
  cases hread : readAuthority scheme (ref.query.isSome || ref.fragment.isSome) text with
  | error e =>
    simp only [hread, bind, Except.bind] at h
    cases h
  | ok r =>
    simp only [hread, bind, Except.bind, pure, Except.pure] at h
    cases h
    obtain ⟨segments, hpath, hwritten⟩ := exists_readRooted_eq scheme r.2
    rw [hpath]
    exact isPlaced_assemble ref scheme _ hwritten

theorem isPlaced_of_fileAtHost (h : fileAtHost ref text = .ok url) : url.IsPlaced := by
  have hwritten := fun rest => Path.isWritten_walk true true Path.isWritten_nil rest
  unfold fileAtHost at h
  simp only [bind, Except.bind, pure, Except.pure] at h
  by_cases hdrive : Path.isDrive (text.span (!isSlash ·)).1 = true
  · rw [if_pos hdrive] at h
    cases h
    exact isPlaced_assemble ref _ _ (hwritten _)
  · rw [if_neg hdrive] at h
    -- whatever the host is, the path is that of the rest
    by_cases hempty : (text.span (!isSlash ·)).1.isEmpty = true
    · rw [if_pos hempty] at h
      cases h
      exact isPlaced_assemble ref _ _ (hwritten _)
    · rw [if_neg hempty] at h
      cases hhost : Host.ofDomain (text.span (!isSlash ·)).1 with
      | error e =>
        rw [hhost] at h
        cases h
      | ok host =>
        rw [hhost] at h
        cases h
        exact isPlaced_assemble ref _ _ (hwritten _)

theorem isPlaced_fileFromRoot (ref : Reference) (text : List Char) :
    (fileFromRoot ref none text).IsPlaced := by
  have hwritten := Path.isWritten_walk true true Path.isWritten_nil text
  unfold fileFromRoot
  split_ifs
  · exact isPlaced_assemble ref _ _ hwritten
  · exact isPlaced_assemble ref _ _ hwritten

theorem isPlaced_of_file (h : file ref none = .ok url) : url.IsPlaced := by
  have hwritten := fun text => Path.isWritten_walk true true Path.isWritten_nil text
  unfold file at h
  cases hbody : ref.body with
  | nil =>
    rw [hbody] at h
    cases h
    exact isPlaced_assemble ref _ _ (hwritten _)
  | cons first rest =>
    rw [hbody] at h
    by_cases hfirst : isSlash first = true
    · simp only [hfirst, if_true] at h
      cases rest with
      | nil =>
        cases h
        exact isPlaced_fileFromRoot ref _
      | cons second rest =>
        by_cases hsecond : isSlash second = true
        · exact isPlaced_of_fileAtHost ((if_pos hsecond).symm.trans h)
        · cases (if_neg hsecond).symm.trans h
          exact isPlaced_fileFromRoot ref _
    · simp only [hfirst] at h
      cases h
      exact isPlaced_assemble ref _ _ (hwritten _)

/-- **A URL that is read is placed**, unless it has no authority and no special scheme. -/
theorem isPlaced_or_of_parse (h : parse text = .ok url) :
    url.IsPlaced ∨ url.authority = none ∧ isSpecial url.scheme = false := by
  simp only [parse] at h
  cases hscheme : (Reference.ofText text).scheme with
  | none =>
    rw [hscheme] at h
    cases h
  | some scheme =>
    simp only [hscheme, withScheme] at h
    split_ifs at h with hfile hspecial
    · exact .inl (isPlaced_of_file h)
    · exact .inl (isPlaced_of_afterSlashes h)
    · rw [Bool.not_eq_true] at hspecial
      split at h
      · exact .inl (isPlaced_of_afterSlashes h)
      · cases h
        exact .inr ⟨rfl, hspecial⟩
      · cases h
        exact .inr ⟨rfl, hspecial⟩

end Url

end ReleaseDraft
