import ReleaseDraft.Draft
import ReleaseDraft.Git.Revision

/-!
# Tags of a repository

The date of a tag is the time of its making or, when it has none, the time of the commit that it
leads to.  The latest tag is the one made last; a tag without a time of its making comes after all
others, and of several the first by name counts.
-/

namespace ReleaseDraft

namespace Git

namespace Store

/-- Where tags are kept. -/
def tagFolder : List Char := "refs/tags/".toList

/-- The object of a tag.  The name is part of a revision, so operators may follow it. -/
def tagObject (store : Store) (name : String) : Except Error Object :=
  if name.toList.contains (Char.ofNat 0) then .error .git
  else match (Revision.ofText (tagFolder ++ name.toList)).resolve store with
    | .ok object => .ok object
    | .error .damaged => .error .git
    | .error _ => .error (.tagNotFound name)

/-- The instant of a time. -/
def instant (time : Int) : Except Error Instant :=
  match Instant.ofSecs? time with
  | some instant => .ok instant
  | none => .error (.invalidTimestamp time)

/-- The date of a tag. -/
def tagDate (store : Store) (name : String) : Except Error Instant := do
  let object ← store.tagObject name
  match object.tagTime? with
  | some time => instant time
  | none =>
    match object.peelCommit with
    | .error _ => .error .git
    | .ok commit => instant (commit.commitTime?.getD 0)

/-! ### The latest tag -/

/-- The name of a tag in the name of its reference, unless that is being written. -/
def shortName? (name : List Char) : Option (List Char) :=
  match tagFolder.isPrefixOf? name with
  | some short => if ".lock".toList.isSuffixOf short then none else some short
  | none => none

/-- The names of all references to tags, apart from those that are no text. -/
def tagRefs (store : Store) : List (List Char) :=
  store.refs.filterMap fun (name, _) => shortName? name.toList

/-- A reference to a tag can be told to lead somewhere. -/
def isReadable (store : Store) (short : List Char) : Bool :=
  let name := tagFolder ++ short
  RefName.isValid name &&
    match store.follow symbolicLimit (String.ofList name) with
    | .ok _ => true
    | .error _ => false

/-- A reference whose name is no text can be told to lead somewhere, if it is one to a tag. -/
def isReadableRaw (store : Store) (name : RawName) (ref : Ref) : Bool :=
  (shortName? name.chars).isNone || (RefName.isValid name.chars && store.leads ref)

/-- No reference whose name is no text spoils the list of tags. -/
def rawTagsAreReadable (store : Store) : Bool :=
  store.rawRefs.all fun (name, ref) => store.isReadableRaw name ref

/-- The names of the tags in order; those that are no text are left out.  One reference that cannot
be read spoils the list, whatever its name. -/
def tagNames (store : Store) : Except Error (List String) :=
  let names := store.tagRefs
  if names.all store.isReadable && store.rawTagsAreReadable then
    .ok ((names.map String.ofList).mergeSort (· ≤ ·))
  else .error .git

/-- The first time is later than the second; having none is earlier than any. -/
def later (a b : Option Int) : Bool :=
  match a, b with
  | some x, some y => y < x
  | some _, none => true
  | none, _ => false

/-- The later of the best tag so far and a further one; of equal ones the best so far. -/
def laterOf (best : Option (String × Option Int)) (tag : String × Option Int) :
    Option (String × Option Int) :=
  match best with
  | some found => if later tag.2 found.2 then some tag else some found
  | none => some tag

/-- The first name among those with the latest time. -/
def latest (tags : List (String × Option Int)) : Option String :=
  (tags.foldl laterOf none).map Prod.fst

/-- The first tag may stand before the second one: that is not later. -/
def precedes (a b : String × Option Int) : Bool := !later b.2 a.2

theorem precedes_trans (a b c : String × Option Int) (hab : precedes a b = true)
    (hbc : precedes b c = true) : precedes a c = true := by
  obtain ⟨_, _ | x⟩ := a <;> obtain ⟨_, _ | y⟩ := b <;> obtain ⟨_, _ | z⟩ := c <;>
    simp [precedes, later] at hab hbc ⊢
  omega

theorem precedes_total (a b : String × Option Int) : (precedes a b || precedes b a) = true := by
  obtain ⟨_, _ | x⟩ := a <;> obtain ⟨_, _ | y⟩ := b <;> simp [precedes, later]
  omega

/-- The first of the sorted tags is the new one, unless it may not stand before the first of the
others. -/
theorem head?_mergeSort_cons (tag : String × Option Int) (tags : List (String × Option Int)) :
    ((tag :: tags).mergeSort precedes).head? =
      match (tags.mergeSort precedes).head? with
      | some best => if precedes tag best then some tag else some best
      | none => some tag := by
  obtain ⟨before, after, hcons, htail, hbefore⟩ :=
    List.mergeSort_cons precedes_trans precedes_total tag tags
  have hsorted := List.pairwise_mergeSort precedes_trans precedes_total (tag :: tags)
  rw [hcons] at hsorted
  rw [hcons, htail]
  cases before with
  | nil =>
    cases after with
    | nil => rfl
    | cons best after =>
      have hfirst : precedes tag best = true :=
        (List.pairwise_cons.1 hsorted).1 best List.mem_cons_self
      simp [hfirst]
  | cons best before =>
    have hlate : precedes tag best = false := by simpa using hbefore best List.mem_cons_self
    simp [hlate]

/-- Keeping the best so far comes to the first of the sorted tags. -/
theorem foldl_laterOf (found : String × Option Int) (tags : List (String × Option Int)) :
    tags.foldl laterOf (some found) = ((found :: tags).mergeSort precedes).head? := by
  induction tags generalizing found with
  | nil => simp
  | cons tag tags ih =>
    have hkept : laterOf (some found) tag = some (if precedes found tag then found else tag) := by
      cases hlater : later tag.2 found.2 <;> simp [laterOf, precedes, hlater]
    rw [List.foldl_cons, hkept, ih, head?_mergeSort_cons, head?_mergeSort_cons found,
      head?_mergeSort_cons tag]
    -- the better of the two and the best of the others, compared in either order
    cases (tags.mergeSort precedes).head? with
    | none => cases hfound : precedes found tag <;> simp [hfound]
    | some best =>
      have htotal := precedes_total found tag
      have htrans := precedes_trans found tag best
      have htrans' := precedes_trans tag found best
      cases hfound : precedes found tag <;> cases hbest : precedes tag best <;> simp_all

/-- **The latest tag is the first when tags are sorted**, those with later times first and tags of
the same time in the order in which they were. -/
theorem latest_eq_head? (tags : List (String × Option Int)) :
    latest tags = (tags.mergeSort precedes).head?.map Prod.fst := by
  cases tags with
  | nil => simp [latest]
  | cons tag tags => rw [latest, List.foldl_cons, laterOf, foldl_laterOf]

/-- A tag with the time of its making. -/
def timedTag (store : Store) (name : String) : Except Error (String × Option Int) := do
  let object ← store.tagObject name
  return (name, object.tagTime?)

/-- The name of the latest tag. -/
def latestTag (store : Store) : Except Error (Option String) := do
  let names ← store.tagNames
  let tags ← names.mapM store.timedTag
  return latest tags

end Store

end Git

end ReleaseDraft
