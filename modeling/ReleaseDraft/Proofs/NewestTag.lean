import Mathlib.Data.Int.ConditionallyCompleteOrder
import Mathlib.Order.ConditionallyCompleteLattice.Basic
import ReleaseDraft.Git.Tags
import ReleaseDraft.Proofs.Wrapping

/-!
# The latest tag

The tags of a store are the references below `refs/tags/`.  A tag is *newest* (`Store.IsNewest`) if no
tag was made later, where one without a time of its making is earlier than any with one, and if no
tag made at the same time has a name before its own, in the order of bytes.

`Store.latestTag` looks each tag up as a revision.  As the name of a reference has no operator in it
(`Revision.ofText_of_isValid`), this gives what the reference leads to (`Store.tagObject_of_tagged`).
The names are taken in order and of equal times the first is kept (`Store.exists_isFirstLatest`), so the
result is the newest tag; the order of names is that of their bytes (`Utf8.encode_le_encode_iff`).
Nothing depends on the order in which references are listed (`Store.latestTag_perm`).
-/

namespace ReleaseDraft

/-! ### The order of bytes -/

namespace Text.Utf8

theorem cons_toUInt8_lt_cons {m n : Nat} {s t : List UInt8} (hm : m < 256) (hn : n < 256) :
    m.toUInt8 :: s < n.toUInt8 :: t ↔ m < n ∨ m = n ∧ s < t := by
  rw [List.cons_lt_cons_iff, UInt8.lt_iff_toNat_lt, ← UInt8.toNat_inj, toNat_toUInt8 hm,
    toNat_toUInt8 hn]

theorem toNat_lt (c : Char) : c.toNat < 0x110000 := by
  rcases c.valid with h | ⟨-, h⟩
  · exact h.trans (by decide)
  · exact h

/-- The bytes of a smaller character are smaller, whatever follows: they differ in the first byte if
there are fewer, and else in the first digit to the base 64 that differs. -/
theorem encodeChar_append_lt {c d : Char} (h : c < d) (s t : List UInt8) :
    encodeChar c ++ s < encodeChar d ++ t := by
  have hlt : c.toNat < d.toNat := h
  have hd := toNat_lt d
  unfold encodeChar
  simp only
  split_ifs
  all_goals simp only [List.cons_append, List.nil_append]
  all_goals simp (disch := omega) only [cons_toUInt8_lt_cons]
  all_goals omega

theorem encodeChar_ne_nil (c : Char) : encodeChar c ≠ [] := by
  unfold encodeChar
  simp only
  split_ifs <;> simp

theorem encode_lt_encode {text text' : List Char} (h : text < text') :
    encode text < encode text' := by
  induction text generalizing text' with
  | nil =>
    cases text' with
    | nil => exact absurd h (List.lt_irrefl [])
    | cons d text' =>
      obtain ⟨b, bytes, hbytes⟩ := List.exists_cons_of_ne_nil (encodeChar_ne_nil d)
      show [] < encodeChar d ++ encode text'
      rw [hbytes]
      exact List.nil_lt_cons _ _
  | cons c text ih =>
    cases text' with
    | nil => exact absurd h (List.not_lt_nil _)
    | cons d text' =>
      show encodeChar c ++ encode text < encodeChar d ++ encode text'
      rcases List.cons_lt_cons_iff.1 h with hlt | ⟨rfl, hlt⟩
      · exact encodeChar_append_lt hlt _ _
      · exact List.append_left_lt (ih hlt)

/-- **The order of texts is that of their bytes.** -/
theorem encode_le_encode_iff {s t : String} : encode s.toList ≤ encode t.toList ↔ s ≤ t := by
  constructor
  · intro h
    by_contra hlt
    exact h (encode_lt_encode (String.lt_iff.1 (String.not_le.1 hlt)))
  · intro h hlt
    by_cases hless : s < t
    · exact List.lt_asymm hlt (encode_lt_encode (String.lt_iff.1 hless))
    · obtain rfl := String.le_antisymm h (String.not_lt.1 hless)
      exact List.lt_irrefl _ hlt

end Text.Utf8

namespace Git

/-! ### Names of references -/

namespace RefName

variable {name segment : List Char}

/-- Neighbours that a name may have. -/
def Neighbours (a b : Char) : Prop := isForbiddenPair a b = false

theorem isChain_of_hasForbiddenPair (h : hasForbiddenPair segment = false) :
    segment.IsChain Neighbours := by
  induction segment with
  | nil => exact .nil
  | cons a segment ih =>
    cases segment with
    | nil => exact .singleton a
    | cons b segment =>
      have hpair : isForbiddenPair a b = false ∧ hasForbiddenPair (b :: segment) = false := by
        simpa [hasForbiddenPair] using h
      exact List.isChain_cons_cons.2 ⟨hpair.1, ih hpair.2⟩

theorem isChain_intercalate {segments : List (List Char)}
    (h : ∀ segment ∈ segments, segment.IsChain Neighbours) :
    (['/'].intercalate segments).IsChain Neighbours := by
  induction segments with
  | nil => exact .nil
  | cons segment segments ih =>
    obtain ⟨hsegment, hrest⟩ := List.forall_mem_cons.1 h
    cases segments with
    | nil => simpa using hsegment
    | cons next segments =>
      rw [List.intercalate_cons_cons, List.append_assoc]
      refine List.isChain_append.2 ⟨hsegment, List.isChain_cons.2 ⟨?_, ih hrest⟩, ?_⟩
      · intro b _
        simp [Neighbours, isForbiddenPair]
      · intro a _ b hb
        obtain rfl : '/' = b := by simpa using hb
        simp [Neighbours, isForbiddenPair]

theorem isSegment_of_isValid (h : isValid name = true) :
    ∀ segment ∈ name.splitOn '/', isSegment segment = true := by
  simp only [isValid, Bool.and_eq_true] at h
  exact List.all_eq_true.1 h.1.1

theorem isChain_of_isValid (h : isValid name = true) : name.IsChain Neighbours := by
  have hsegments : (['/'].intercalate (name.splitOn '/')).IsChain Neighbours := by
    -- pairs are forbidden within segments only, but none has a slash
    refine isChain_intercalate fun segment hsegment => isChain_of_hasForbiddenPair ?_
    have hall := isSegment_of_isValid h segment hsegment
    simp only [isSegment, Bool.and_eq_true, Bool.not_eq_true'] at hall
    exact hall.1.2
  rwa [List.intercalate_splitOn] at hsegments

theorem isForbidden_of_isValid (h : isValid name = true) {c : Char} (hc : c ∈ name)
    (hslash : c ≠ '/') : isForbidden c = false := by
  have hflat : c ∈ (name.splitOn '/').flatten := by
    rw [List.splitOn_eq_splitOnP, flatten_splitOnP]
    simpa using ⟨hc, hslash⟩
  obtain ⟨segment, hsegment, hmem⟩ := List.mem_flatten.1 hflat
  have hall := isSegment_of_isValid h segment hsegment
  simp only [isSegment, Bool.and_eq_true, Bool.not_eq_true'] at hall
  simpa using List.any_eq_false.1 hall.1.1.2 c hmem

end RefName

/-! ### Looking a tag up -/

namespace Revision

variable {name : List Char}

/-- A name has no operator in it. -/
theorem spanName_eq (hchars : ∀ c ∈ name, c ≠ '^' ∧ c ≠ '~' ∧ c ≠ ':')
    (hchain : name.IsChain RefName.Neighbours) : spanName name = (name, []) := by
  induction name with
  | nil => rfl
  | cons c name ih =>
    obtain ⟨⟨hcaret, htilde, hcolon⟩, hrest⟩ := List.forall_mem_cons.1 hchars
    obtain ⟨hnext, htail⟩ := List.isChain_cons.1 hchain
    have hbrace : ¬(c = '@' ∧ name.head? = some '{') := by
      rintro ⟨rfl, hhead⟩
      have hpair : RefName.isForbiddenPair '@' '{' = false := hnext '{' hhead
      exact absurd hpair (by decide)
    have hplain : ¬(c == '^' || c == '~' || c == ':' || (c == '@' && name.head? == some '{')) = true := by
      simpa [hcaret, htilde, hcolon] using hbrace
    rw [spanName, if_neg hplain, ih hrest htail]

/-- **The name of a reference is a revision** without operators. -/
theorem ofText_of_isValid (h : RefName.isValid name = true) (hat : name ≠ ['@']) :
    ofText name = ⟨name, []⟩ := by
  have hchars : ∀ c ∈ name, c ≠ '^' ∧ c ≠ '~' ∧ c ≠ ':' := by
    intro c hc
    refine ⟨?_, ?_, ?_⟩
    all_goals
      rintro rfl
      exact absurd (RefName.isForbidden_of_isValid h hc (by decide)) (by decide)
  rw [ofText, if_neg hat, spanName_eq hchars (RefName.isChain_of_isValid h)]
  simp only [Operator.scan]

theorem resolve_of_follow {store : Store} {ref : Ref} (h : RefName.isValid name = true)
    (hne : name ≠ [])
    (hfollow : store.follow Store.symbolicLimit (String.ofList name) = .ok ref) :
    resolve store ⟨name, []⟩ = target ref := by
  -- the name itself is the first place where it is looked for
  have hfind : store.findRef name = .ok ref := by
    rw [Store.findRef, Store.candidates, Store.firstRef, if_neg (by simp [h]), hfollow]
  have hempty : ¬name.isEmpty = true := by simpa using hne
  show (named store name).bind (fun object => [].foldlM Operator.apply object) = target ref
  rw [named, if_neg hempty, hfind]
  cases ref <;> rfl

end Revision

namespace Store

/-- The name of the reference of a tag. -/
def tagPath (name : String) : List Char := tagFolder ++ name.toList

/-- The names of the tags, apart from those that are no text. -/
def tags (store : Store) : List String := store.tagRefs.map String.ofList

/-- The object that a tag leads to. -/
def tagged? (store : Store) (name : String) : Option Object :=
  if RefName.isValid (tagPath name) then
    match store.follow symbolicLimit (String.ofList (tagPath name)) with
    | .ok (.object object) => some object
    | _ => none
  else none

/-- Times in their order; having none is earlier than any. -/
def rank : Option Int → WithBot Int
  | some time => time
  | none => ⊥

/-- When a tag was made. -/
def madeAt (store : Store) (name : String) : WithBot Int :=
  rank ((store.tagged? name).bind Object.tagTime?)

/-- Every tag can be looked up. -/
structure IsSound (store : Store) : Prop where
  tagged : ∀ name ∈ store.tags, (store.tagged? name).isSome = true
  raw : store.rawTagsAreReadable = true

/-- No tag was made later, and among those made at the same time it has the first name. -/
structure IsNewest (store : Store) (name : String) : Prop where
  mem : name ∈ store.tags
  latest : ∀ other ∈ store.tags, store.madeAt other ≤ store.madeAt name
  first : ∀ other ∈ store.tags, store.madeAt other = store.madeAt name →
    Text.Utf8.encode name.toList ≤ Text.Utf8.encode other.toList

variable {store other : Store} {name : String} {object : Object}

theorem head?_tagPath (name : String) : (tagPath name).head? = some 'r' := by
  have hfolder : tagFolder.head? = some 'r' := by decide
  rw [tagPath, List.head?_append, hfolder]
  rfl

theorem tagPath_ne_nil (name : String) : tagPath name ≠ [] := by
  intro h
  have hhead := head?_tagPath name
  rw [h] at hhead
  cases hhead

theorem tagPath_ne_at (name : String) : tagPath name ≠ ['@'] := by
  intro h
  have hhead := head?_tagPath name
  rw [h] at hhead
  exact absurd hhead (by decide)

theorem not_mem_zero (h : RefName.isValid (tagPath name) = true) :
    ¬name.toList.contains (Char.ofNat 0) = true := by
  intro hzero
  have hmem : Char.ofNat 0 ∈ tagPath name :=
    List.mem_append_right _ (by simpa using hzero)
  exact absurd (RefName.isForbidden_of_isValid h hmem (by decide)) (by decide)

theorem tagObject_of_follow {ref : Ref} (h : RefName.isValid (tagPath name) = true)
    (hfollow : store.follow symbolicLimit (String.ofList (tagPath name)) = .ok ref) :
    store.tagObject name =
      match ref with
      | .object object => .ok object
      | _ => .error (.tagNotFound name) := by
  have hresolve : (Revision.ofText (tagFolder ++ name.toList)).resolve store =
      Revision.target ref := by
    rw [← tagPath, Revision.ofText_of_isValid h (tagPath_ne_at name)]
    exact Revision.resolve_of_follow h (tagPath_ne_nil name) hfollow
  rw [tagObject, if_neg (not_mem_zero h), hresolve]
  cases ref <;> rfl

theorem tagged?_eq_some_iff : store.tagged? name = some object ↔
    RefName.isValid (tagPath name) = true ∧
      store.follow symbolicLimit (String.ofList (tagPath name)) = .ok (.object object) := by
  unfold tagged?
  by_cases hvalid : RefName.isValid (tagPath name) = true
  · rw [if_pos hvalid]
    constructor
    · intro h
      split at h
      · next found hfollow =>
        obtain rfl := Option.some.inj h
        exact ⟨hvalid, hfollow⟩
      · cases h
    · rintro ⟨-, hfollow⟩
      rw [hfollow]
  · simp [hvalid]

theorem isReadable_iff : store.isReadable name.toList = true ↔
    RefName.isValid (tagPath name) = true ∧
      ∃ ref, store.follow symbolicLimit (String.ofList (tagPath name)) = .ok ref := by
  show (RefName.isValid (tagPath name) && _) = true ↔ _
  rw [Bool.and_eq_true, tagPath]
  cases store.follow symbolicLimit (String.ofList (tagFolder ++ name.toList)) with
  | ok ref => simp
  | error fault => simp

/-- **Looking a tag up gives what it leads to.** -/
theorem tagObject_of_tagged (h : store.tagged? name = some object) :
    store.tagObject name = .ok object := by
  obtain ⟨hvalid, hfollow⟩ := tagged?_eq_some_iff.1 h
  exact tagObject_of_follow hvalid hfollow

theorem isReadable_of_tagged (h : store.tagged? name = some object) :
    store.isReadable name.toList = true := by
  obtain ⟨hvalid, hfollow⟩ := tagged?_eq_some_iff.1 h
  exact isReadable_iff.2 ⟨hvalid, _, hfollow⟩

/-- A tag that can be read but leads to no object is not found. -/
theorem tagObject_of_not_tagged (hread : store.isReadable name.toList = true)
    (h : store.tagged? name = none) : store.tagObject name = .error (.tagNotFound name) := by
  obtain ⟨hvalid, ref, hfollow⟩ := isReadable_iff.1 hread
  rw [tagObject_of_follow hvalid hfollow]
  cases ref with
  | object object =>
    rw [tagged?_eq_some_iff.2 ⟨hvalid, hfollow⟩] at h
    cases h
  | _ => rfl

/-! ### The first of the latest -/

theorem later_iff {a b : Option Int} : later a b = true ↔ rank b < rank a := by
  cases a <;> cases b <;> simp [later, rank]

/-- A tag that is later than all before it and not earlier than any after it. -/
def IsFirstLatest (tags : List (String × Option Int)) (tag : String × Option Int) : Prop :=
  ∃ before after, tags = before ++ tag :: after ∧
    (∀ t ∈ before, rank t.2 < rank tag.2) ∧ ∀ t ∈ after, rank t.2 ≤ rank tag.2

section

variable {tags : List (String × Option Int)} {tag t : String × Option Int}

theorem IsFirstLatest.mem (h : IsFirstLatest tags tag) : tag ∈ tags := by
  obtain ⟨before, after, rfl, -, -⟩ := h
  exact List.mem_append_right _ List.mem_cons_self

theorem IsFirstLatest.rank_le (h : IsFirstLatest tags tag) (ht : t ∈ tags) :
    rank t.2 ≤ rank tag.2 := by
  obtain ⟨before, after, rfl, hbefore, hafter⟩ := h
  rcases List.mem_append.1 ht with ht | ht
  · exact (hbefore t ht).le
  · rcases List.mem_cons.1 ht with rfl | ht
    · exact le_rfl
    · exact hafter t ht

/-- Among tags in the order of their names it has the first name of its time. -/
theorem IsFirstLatest.le_of_pairwise (h : IsFirstLatest tags tag)
    (hpairwise : tags.Pairwise fun a b => a.1 ≤ b.1) (ht : t ∈ tags)
    (hequal : rank t.2 = rank tag.2) : tag.1 ≤ t.1 := by
  obtain ⟨before, after, rfl, hbefore, -⟩ := h
  rcases List.mem_append.1 ht with ht | ht
  · exact absurd hequal (hbefore t ht).ne
  · rcases List.mem_cons.1 ht with rfl | ht
    · exact String.le_refl _
    · obtain ⟨-, hrest, -⟩ := List.pairwise_append.1 hpairwise
      exact (List.pairwise_cons.1 hrest).1 t ht

/-- One more tag takes its place only if it is later. -/
theorem IsFirstLatest.exists_laterOf (h : IsFirstLatest tags tag) (last : String × Option Int) :
    ∃ best, laterOf (some tag) last = some best ∧ IsFirstLatest (tags ++ [last]) best := by
  by_cases hlater : later last.2 tag.2 = true
  · refine ⟨last, if_pos hlater, tags, [], rfl, ?_, by simp⟩
    intro t ht
    exact (h.rank_le ht).trans_lt (later_iff.1 hlater)
  · refine ⟨tag, if_neg hlater, ?_⟩
    obtain ⟨before, after, rfl, hbefore, hafter⟩ := h
    refine ⟨before, after ++ [last], by simp, hbefore, ?_⟩
    intro t ht
    rcases List.mem_append.1 ht with ht | ht
    · exact hafter t ht
    · obtain rfl := List.mem_singleton.1 ht
      exact not_lt.1 (mt later_iff.2 hlater)

/-- **The first of the latest is kept.** -/
theorem exists_isFirstLatest (hne : tags ≠ []) :
    ∃ tag, tags.foldl laterOf none = some tag ∧ IsFirstLatest tags tag := by
  -- from the end, as that is where the fold makes its last step
  induction tags using List.reverseRecOn with
  | nil => exact absurd rfl hne
  | append_singleton tags last ih =>
    rw [List.foldl_concat]
    by_cases hempty : tags = []
    · subst hempty
      exact ⟨last, rfl, [], [], rfl, by simp, by simp⟩
    · obtain ⟨tag, hbest, htag⟩ := ih hempty
      rw [hbest]
      exact htag.exists_laterOf last

end

/-! ### The newest tag -/

/-- The names in their order. -/
def sorted (store : Store) : List String := store.tags.mergeSort (· ≤ ·)

/-- A tag with the time of its making. -/
def timed (store : Store) (name : String) : String × Option Int :=
  (name, (store.tagged? name).bind Object.tagTime?)

theorem mem_sorted : name ∈ store.sorted ↔ name ∈ store.tags :=
  List.mem_mergeSort

theorem pairwise_sorted (store : Store) : store.sorted.Pairwise (· ≤ ·) := by
  have htrans : ∀ a b c : String, decide (a ≤ b) = true → decide (b ≤ c) = true →
      decide (a ≤ c) = true := by
    intro a b c hab hbc
    simpa using String.le_trans (of_decide_eq_true hab) (of_decide_eq_true hbc)
  have htotal : ∀ a b : String, (decide (a ≤ b) || decide (b ≤ a)) = true := by
    intro a b
    simpa using String.le_total a b
  simpa [sorted] using List.pairwise_mergeSort htrans htotal store.tags

theorem mapM_eq_ok {α β : Type} {f : α → Except Error β} {g : α → β} {list : List α}
    (h : ∀ a ∈ list, f a = .ok (g a)) : list.mapM f = .ok (list.map g) := by
  induction list with
  | nil => rfl
  | cons a list ih =>
    obtain ⟨ha, hlist⟩ := List.forall_mem_cons.1 h
    rw [List.mapM_cons, ha, ih hlist]
    rfl

theorem exists_mapM_eq_error {α β : Type} {f : α → Except Error β} {list : List α} {a : α} {e : Error}
    (ha : a ∈ list) (h : f a = .error e) : ∃ e', list.mapM f = .error e' := by
  induction list with
  | nil => exact absurd ha List.not_mem_nil
  | cons b list ih =>
    rw [List.mapM_cons]
    cases hb : f b with
    | error e' => exact ⟨e', rfl⟩
    | ok value =>
      have hne : a ≠ b := by
        rintro rfl
        rw [h] at hb
        cases hb
      obtain ⟨e', he'⟩ := ih ((List.mem_cons.1 ha).resolve_left hne)
      exact ⟨e', by rw [he']; rfl⟩

theorem tagNames_eq (store : Store) : store.tagNames =
    if store.tagRefs.all store.isReadable && store.rawTagsAreReadable then .ok store.sorted
    else .error .git :=
  rfl

/-- The names are listed if all references to tags can be read. -/
theorem tagNames_eq_ok_iff {names : List String} : store.tagNames = .ok names ↔
    (∀ name ∈ store.tags, store.isReadable name.toList = true) ∧
      store.rawTagsAreReadable = true ∧ store.sorted = names := by
  have htags : store.tagRefs.all store.isReadable = true ↔
      ∀ name ∈ store.tags, store.isReadable name.toList = true := by
    simp [tags]
  rw [tagNames_eq, ← htags, ← and_assoc, ← Bool.and_eq_true]
  split_ifs with hread
  · simp [hread]
  · simp [hread]

theorem latestTag_of_tagNames {names : List String} (h : store.tagNames = .ok names) :
    store.latestTag = (names.mapM store.timedTag).map latest := by
  rw [latestTag, h]
  show (names.mapM store.timedTag).bind _ = _
  cases names.mapM store.timedTag <;> rfl

/-- **If every tag can be looked up**, the first of the latest is the result. -/
theorem latestTag_of_isSound (h : store.IsSound) :
    store.latestTag = .ok (latest (store.sorted.map store.timed)) := by
  have hread : ∀ name ∈ store.tags, store.isReadable name.toList = true := by
    intro name hname
    obtain ⟨object, hobject⟩ := Option.isSome_iff_exists.1 (h.tagged name hname)
    exact isReadable_of_tagged hobject
  have hlookups : ∀ name ∈ store.sorted, store.timedTag name = .ok (store.timed name) := by
    intro name hname
    obtain ⟨object, hobject⟩ := Option.isSome_iff_exists.1 (h.tagged name (mem_sorted.1 hname))
    rw [timedTag, tagObject_of_tagged hobject, timed, hobject]
    rfl
  rw [latestTag_of_tagNames (tagNames_eq_ok_iff.2 ⟨hread, h.raw, rfl⟩), mapM_eq_ok hlookups]
  rfl

theorem not_isSound_of_tagObject {e : Error} (hname : name ∈ store.tags)
    (h : store.tagObject name = .error e) : ¬store.IsSound := by
  intro hsound
  obtain ⟨object, hobject⟩ := Option.isSome_iff_exists.1 (hsound.tagged name hname)
  rw [tagObject_of_tagged hobject] at h
  cases h

theorem exists_not_tagged (h : ¬store.IsSound) (hraw : store.rawTagsAreReadable = true) :
    ∃ name ∈ store.tags, store.tagged? name = none := by
  by_contra hall
  push Not at hall
  exact h ⟨fun name hname => Option.isSome_iff_ne_none.2 (hall name hname), hraw⟩

/-- **If a tag cannot be looked up**, there is no result. -/
theorem exists_latestTag_error (h : ¬store.IsSound) : ∃ e, store.latestTag = .error e := by
  cases hnames : store.tagNames with
  | error e =>
    refine ⟨e, ?_⟩
    rw [latestTag, hnames]
    rfl
  | ok names =>
    obtain ⟨hread, hraw, rfl⟩ := tagNames_eq_ok_iff.1 hnames
    obtain ⟨name, hname, hnone⟩ := exists_not_tagged h hraw
    have hlookup : store.timedTag name = .error (.tagNotFound name) := by
      rw [timedTag, tagObject_of_not_tagged (hread name hname) hnone]
      rfl
    obtain ⟨e, he⟩ := exists_mapM_eq_error (mem_sorted.2 hname) hlookup
    refine ⟨e, ?_⟩
    rw [latestTag_of_tagNames hnames, he]
    rfl

/-- **The first of the latest is the newest**, as names are taken in the order of their bytes. -/
theorem exists_isNewest (hne : store.tags ≠ []) :
    ∃ name, latest (store.sorted.map store.timed) = some name ∧ store.IsNewest name := by
  have hne' : store.sorted.map store.timed ≠ [] := by
    obtain ⟨name, hname⟩ := List.exists_mem_of_ne_nil _ hne
    exact List.ne_nil_of_mem (List.mem_map_of_mem (mem_sorted.2 hname))
  have hpairwise : (store.sorted.map store.timed).Pairwise fun a b => a.1 ≤ b.1 :=
    List.pairwise_map.2 store.pairwise_sorted
  have hplace : ∀ other ∈ store.tags, store.timed other ∈ store.sorted.map store.timed := by
    intro other hother
    exact List.mem_map_of_mem (mem_sorted.2 hother)
  obtain ⟨tag, hbest, hfirst⟩ := exists_isFirstLatest hne'
  obtain ⟨name, hname, rfl⟩ := List.mem_map.1 hfirst.mem
  refine ⟨name, by rw [latest, hbest]; rfl, mem_sorted.1 hname, ?_, ?_⟩
  · intro other hother
    exact hfirst.rank_le (hplace other hother)
  · intro other hother hequal
    rw [Text.Utf8.encode_le_encode_iff]
    exact hfirst.le_of_pairwise hpairwise (hplace other hother) hequal

theorem IsNewest.unique {name' : String} (h : store.IsNewest name) (h' : store.IsNewest name') :
    name = name' := by
  have hequal := le_antisymm (h.latest name' h'.mem) (h'.latest name h.mem)
  have hle := h.first name' h'.mem hequal
  have hge := h'.first name h.mem hequal.symm
  rw [Text.Utf8.encode_le_encode_iff] at hle hge
  exact String.le_antisymm hle hge

/-! ### Dates -/

/-- The time has a date. -/
def HasDate (time : Int) : Prop := Instant.minSecs ≤ time ∧ time ≤ Instant.maxSecs

theorem instant_of_hasDate {time : Int} (h : HasDate time) : instant time = .ok ⟨time, 0⟩ := by
  have hrange : (Instant.minSecs ≤ time && time ≤ Instant.maxSecs) = true := by
    simpa [HasDate] using h
  rw [instant, Instant.ofSecs?, if_pos hrange]

theorem instant_of_not_hasDate {time : Int} (h : ¬HasDate time) :
    instant time = .error (.invalidTimestamp time) := by
  have hrange : ¬(Instant.minSecs ≤ time && time ≤ Instant.maxSecs) = true := by
    simpa [HasDate] using h
  rw [instant, Instant.ofSecs?, if_neg hrange]

/-- **The date of a tag is the time of its making**, if it has one. -/
theorem tagDate_of_madeAt {time : Int} (h : store.madeAt name = time) :
    store.tagDate name = instant time := by
  cases hobject : store.tagged? name with
  | none => simp [madeAt, hobject, rank] at h
  | some object =>
    have htime : object.tagTime? = some time := by
      rw [madeAt, hobject] at h
      cases htime : object.tagTime? with
      | none => simp [htime, rank] at h
      | some time' => simpa [htime, rank] using h
    rw [tagDate, tagObject_of_tagged hobject]
    show (match object.tagTime? with | some time => instant time | none => _) = _
    rw [htime]

/-! ### The order of references -/

theorem lookup_eq_some_iff_mem {α β : Type} [DecidableEq α] {list : List (α × β)}
    (hnodup : (list.map Prod.fst).Nodup) {a : α} {b : β} :
    list.lookup a = some b ↔ (a, b) ∈ list := by
  induction list with
  | nil => simp
  | cons entry list ih =>
    obtain ⟨key, value⟩ := entry
    obtain ⟨hkey, hlist⟩ := List.nodup_cons.1 hnodup
    rw [List.lookup_cons]
    by_cases heq : a = key
    · subst heq
      have hnot : (a, b) ∉ list := by
        intro hmem
        exact hkey (List.mem_map.2 ⟨(a, b), hmem, rfl⟩)
      simp [hnot, eq_comm]
    · have hne : (a == key) = false := by simpa using heq
      simp [hne, heq, ih hlist]

theorem sorted_perm (hrefs : other.refs.Perm store.refs) : other.sorted = store.sorted := by
  have htags : other.tags.Perm store.tags := (hrefs.filterMap _).map _
  have hperm : other.sorted.Perm store.sorted :=
    (List.mergeSort_perm _ _).trans (htags.trans (List.mergeSort_perm _ _).symm)
  exact hperm.eq_of_pairwise (fun _ _ _ _ => String.le_antisymm) other.pairwise_sorted
    store.pairwise_sorted

section

variable (hnodup : (store.refs.map Prod.fst).Nodup) (hrefs : other.refs.Perm store.refs)
include hnodup hrefs

theorem ref?_perm (name : String) : other.ref? name = store.ref? name := by
  have hnodup' : (other.refs.map Prod.fst).Nodup := (hrefs.map _).nodup_iff.2 hnodup
  refine Option.ext fun ref => ?_
  rw [ref?, ref?, lookup_eq_some_iff_mem hnodup', lookup_eq_some_iff_mem hnodup]
  exact hrefs.mem_iff

theorem follow_perm : other.follow = store.follow := by
  funext limit
  induction limit with
  | zero =>
    funext name
    rw [follow, follow, ref?_perm hnodup hrefs]
  | succ limit ih =>
    funext name
    rw [follow, follow, ref?_perm hnodup hrefs]
    simp only [ih]

theorem firstRef_perm : other.firstRef = store.firstRef := by
  funext fault names
  induction names generalizing fault with
  | nil => rfl
  | cons name names ih => simp only [firstRef, follow_perm hnodup hrefs, ih]

theorem resolve_perm (revision : Revision) : revision.resolve other = revision.resolve store := by
  have hfind : other.findRef = store.findRef := by
    funext name
    rw [findRef, findRef, firstRef_perm hnodup hrefs]
  simp only [Revision.resolve, Revision.named, Revision.earlierValue, hfind]

theorem timedTag_perm : other.timedTag = store.timedTag := by
  funext name
  simp only [timedTag, tagObject, resolve_perm hnodup hrefs]

theorem isReadable_perm : other.isReadable = store.isReadable := by
  funext short
  simp only [isReadable, follow_perm hnodup hrefs]

theorem isReadableRaw_perm : other.isReadableRaw = store.isReadableRaw := by
  have hleads : other.leads = store.leads := by
    funext ref
    cases ref <;> simp only [leads, follow_perm hnodup hrefs]
  funext name ref
  rw [isReadableRaw, isReadableRaw, hleads]

/-- **The order of references does not matter.** -/
theorem latestTag_perm (hraw : other.rawRefs.Perm store.rawRefs) :
    other.latestTag = store.latestTag := by
  have htexts : other.tagRefs.all other.isReadable = store.tagRefs.all store.isReadable := by
    rw [isReadable_perm hnodup hrefs]
    exact (hrefs.filterMap _).all_eq
  have hraws : other.rawTagsAreReadable = store.rawTagsAreReadable := by
    rw [rawTagsAreReadable, rawTagsAreReadable, isReadableRaw_perm hnodup hrefs]
    exact hraw.all_eq
  have hnames : other.tagNames = store.tagNames := by
    rw [tagNames_eq, tagNames_eq, htexts, hraws, sorted_perm hrefs]
  rw [latestTag, latestTag, hnames, timedTag_perm hnodup hrefs]

end

/-- What the date of a tag is that was made at a time, if no tag was made later. -/
structure IsLastDate (store : Store) (name : String) (time : Int) : Prop where
  invalid : ¬HasDate time → store.tagDate name = .error (.invalidTimestamp time)
  valid : HasDate time → store.tagDate name = .ok ⟨time, 0⟩
  last : HasDate time → ∀ other ∈ store.tags, store.madeAt other ≠ ⊥ →
    ∀ date, store.tagDate other = .ok date → Instant.before ⟨time, 0⟩ date = false

theorem IsNewest.isLastDate {time : Int} (h : store.IsNewest name)
    (htime : store.madeAt name = time) : store.IsLastDate name time where
  invalid hdate := by rw [tagDate_of_madeAt htime, instant_of_not_hasDate hdate]
  valid hdate := by rw [tagDate_of_madeAt htime, instant_of_hasDate hdate]
  last _ other hother hmade date hdate' := by
    obtain ⟨time', htime'⟩ := WithBot.ne_bot_iff_exists.1 hmade
    have hle : time' ≤ time := by
      have hlatest := h.latest other hother
      rwa [htime, ← htime', WithBot.coe_le_coe] at hlatest
    rw [tagDate_of_madeAt htime'.symm] at hdate'
    by_cases hdate : HasDate time'
    · rw [instant_of_hasDate hdate] at hdate'
      obtain rfl := Except.ok.inj hdate'
      simpa [Instant.before] using hle
    · rw [instant_of_not_hasDate hdate] at hdate'
      cases hdate'

/-- **The latest tag is well defined.**  If all tags can be looked up there is a result.  It is none
if there are no tags, and else the newest tag; if that says when it was made, this time is its date,
and no tag that says so has a later one.  Otherwise there is no result, and so if a lookup fails.  The
order in which references are listed does not matter. -/
theorem latestTag_newest (store : Store) :
    (store.IsSound → ∃ result, store.latestTag = .ok result ∧
      (result = none ↔ store.tags = []) ∧
      (∀ name, result = some name ↔ store.IsNewest name) ∧
      ∀ name (time : Int), result = some name → store.madeAt name = time →
        store.IsLastDate name time) ∧
    (¬store.IsSound → ∃ e, store.latestTag = .error e) ∧
    ((∃ name ∈ store.tags, ∃ e, store.tagObject name = .error e) →
      ∃ e, store.latestTag = .error e) ∧
    ((store.refs.map Prod.fst).Nodup → ∀ other : Store, other.refs.Perm store.refs →
      other.rawRefs.Perm store.rawRefs → other.latestTag = store.latestTag) := by
  refine ⟨fun hsound => ?_, exists_latestTag_error, ?_, ?_⟩
  · by_cases hempty : store.tags = []
    · refine ⟨none, ?_, by simp [hempty], fun name => ⟨?_, fun h => ?_⟩, ?_⟩
      · rw [latestTag_of_isSound hsound, sorted, hempty, List.mergeSort_nil]
        rfl
      · intro h
        cases h
      · simpa [hempty] using h.mem
      · intro name time h
        cases h
    · obtain ⟨newest, hlatest, hnewest⟩ := exists_isNewest hempty
      refine ⟨some newest, ?_, by simp [hempty], fun name => ⟨?_, fun h => ?_⟩, ?_⟩
      · rw [latestTag_of_isSound hsound, hlatest]
      · intro h
        obtain rfl := Option.some.inj h
        exact hnewest
      · rw [hnewest.unique h]
      · intro name time h htime
        obtain rfl := Option.some.inj h
        exact hnewest.isLastDate htime
  · rintro ⟨name, hname, e, he⟩
    exact exists_latestTag_error (not_isSound_of_tagObject hname he)
  · intro hnodup other hrefs hraw
    exact latestTag_perm hnodup hrefs hraw

/-! ### A store -/

namespace Sample

def release : Object := .commit 500 none

/-- A name with a byte that is in no text. -/
def rawName : RawName where
  bytes := Text.Utf8.encode tagFolder ++ [0xFF]
  notText := by decide +kernel

/-- Two tags made at the same time, one of them long before, and two that do not say when. -/
def tagged : Store where
  refs := [("refs/tags/a", .object release),
    ("refs/tags/v2", .object (.tag release (some 900))),
    ("refs/tags/v1", .symbolic "refs/tags/v2"),
    ("refs/tags/v0", .object (.tag release (some (-900))))]
  rawRefs := [(rawName, .object release)]
  settings := []

theorem tags_tagged : tagged.tags = ["a", "v2", "v1", "v0"] := by
  decide +kernel

theorem isSound_tagged : tagged.IsSound := by
  refine ⟨?_, by decide +kernel⟩
  rw [tags_tagged]
  decide +kernel

theorem isNewest_tagged : tagged.IsNewest "v1" := by
  refine ⟨?_, ?_, ?_⟩
  all_goals
    rw [tags_tagged]
    decide +kernel

end Sample

theorem latestTag_newest_sample : Sample.tagged.IsSound ∧
    Sample.tagged.latestTag = .ok (some "v1") ∧ Sample.tagged.tagDate "v1" = .ok ⟨900, 0⟩ := by
  obtain ⟨result, hresult, -, hnewest, hdate⟩ :=
    (latestTag_newest Sample.tagged).1 Sample.isSound_tagged
  have hresult' : result = some "v1" := (hnewest "v1").2 Sample.isNewest_tagged
  have hlast := hdate "v1" 900 hresult' (by decide +kernel)
  exact ⟨Sample.isSound_tagged, by rw [hresult, hresult'], hlast.valid ⟨by decide, by decide⟩⟩

end Store

end Git

end ReleaseDraft
