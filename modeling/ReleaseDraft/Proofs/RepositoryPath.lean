import Mathlib.Data.List.Flatten
import ReleaseDraft.Proofs.Credential
import ReleaseDraft.Proofs.Wrapping

/-!
# Where the pull requests of a repository are asked for

Owner and name of a repository go into a reference as they are, and the rules for references may
read them in another way: a question mark starts a query, a backslash is a slash, tabs and line ends
vanish, and dots lead up.  A part that none of this concerns is *plain* (`Slug.IsPlain`).

The first page of pull requests always has the origin of the interface, and its query is the one
that is asked for.  Its path is that of the repository exactly if owner and name are plain
(`Client.firstPage_path_iff`), which a slug need not be (`Client.not_firstPage_path`).

The argument counts characters.  Walking along a path never makes more of them
(`Path.size_walkAlong`), and every character that is read in another way is lost; so a path with all
characters of owner and name has them as they are (`Path.dropLast_walk_iff`).
-/

namespace ReleaseDraft

/-! ### Encoded texts -/

namespace Percent

variable {set : Char → Bool} {part text : List Char}

theorem encodeChar_ne_nil (c : Char) : encodeChar c ≠ [] := by
  simp only [encodeChar, Text.Utf8.encodeChar]
  split_ifs <;> simp [encodeByte]

theorem encode_cons_length (set : Char → Bool) (c : Char) (text : List Char) :
    (encode set text).length < (encode set (c :: text)).length := by
  have hc : 0 < (if set c then encodeChar c else [c]).length := by
    split_ifs
    · exact List.length_pos_of_ne_nil (encodeChar_ne_nil c)
    · exact Nat.one_pos
  simp only [encode, List.flatMap_cons, List.length_append]
  omega

theorem encode_ne_nil (h : text ≠ []) : encode set text ≠ [] := by
  obtain ⟨c, text, rfl⟩ := List.exists_cons_of_ne_nil h
  exact List.ne_nil_of_length_pos ((Nat.zero_le _).trans_lt (encode_cons_length set c text))

/-- A part of a text whose encoding is as long is the whole text. -/
theorem eq_of_length_encode_le (h : List.Sublist part text)
    (hle : (encode set text).length ≤ (encode set part).length) : part = text := by
  induction h with
  | slnil => rfl
  | @cons part text c h _ =>
    have hsub : (encode set part).length ≤ (encode set text).length := (h.flatMap _).length_le
    have hlt := encode_cons_length set c text
    omega
  | @cons_cons part text c _ ih =>
    refine congrArg _ (ih ?_)
    simpa [encode] using hle

end Percent

/-! ### Walking along a path -/

namespace Path

variable {done segments : List (List Char)}

/-- The number of characters in the segments of a path. -/
def size (segments : List (List Char)) : Nat := segments.flatten.length

@[simp] theorem size_nil : size [] = 0 := rfl

@[simp] theorem size_cons (segment : List Char) (segments : List (List Char)) :
    size (segment :: segments) = segment.length + size segments := by
  simp [size]

@[simp] theorem size_append (segments segments' : List (List Char)) :
    size (segments ++ segments') = size segments + size segments' := by
  simp [size]

theorem size_le_of_sublist {segments segments' : List (List Char)}
    (h : List.Sublist segments segments') : size segments ≤ size segments' :=
  h.flatten.length_le

/-- A segment that says where to go instead of what is there. -/
def isStep (segment : List Char) : Bool := isDot segment || isDotDot segment

theorem length_pos_of_isStep {segment : List Char} (h : isStep segment = true) :
    0 < segment.length := by
  cases segment with
  | nil => cases h
  | cons c segment => exact Nat.succ_pos _

theorem size_above_le (done : List (List Char)) : size (above done) ≤ size done := by
  unfold above
  split
  · split_ifs
    · exact le_rfl
    · exact size_le_of_sublist (List.dropLast_sublist done)
  · exact le_rfl

theorem kept_false (done : List (List Char)) (segment : List Char) :
    kept false done segment = segment := by
  unfold kept
  split <;> simp

/-- A step leads to a place with no more characters, and leaves an empty segment at the end. -/
theorem walkAlong_step {segment : List Char} (h : isStep segment = true)
    (done rest : List (List Char)) : ∃ place, size place ≤ size done ∧
      walkAlong false done (segment :: rest) =
        if rest.isEmpty then place ++ [[]] else walkAlong false place rest := by
  rw [walkAlong]
  by_cases hup : isDotDot segment = true
  · exact ⟨above done, size_above_le done, if_pos hup⟩
  · have hhere : isDot segment = true := by simpa [isStep, hup] using h
    exact ⟨done, le_rfl, by rw [if_neg hup, if_pos hhere]⟩

/-- A name is added to the place as it is. -/
theorem walkAlong_name {segment : List Char} (h : isStep segment = false)
    (done rest : List (List Char)) :
    walkAlong false done (segment :: rest) = walkAlong false (done ++ [segment]) rest := by
  obtain ⟨hhere, hup⟩ : isDot segment = false ∧ isDotDot segment = false := by
    simpa [isStep] using h
  simp [walkAlong, hup, hhere, kept_false]

/-- **Walking along a path makes no characters**, and loses some with each step. -/
theorem size_walkAlong (done segments : List (List Char)) :
    size (walkAlong false done segments) + segments.countP isStep ≤
      size done + size segments := by
  induction segments generalizing done with
  | nil => simp [walkAlong]
  | cons segment rest ih =>
    rw [List.countP_cons, size_cons]
    cases hstep : isStep segment with
    | true =>
      obtain ⟨place, hplace, hwalk⟩ := walkAlong_step hstep done rest
      have hpos := length_pos_of_isStep hstep
      rw [hwalk, if_pos rfl]
      cases rest with
      | nil =>
        simp only [List.isEmpty_nil, ↓reduceIte, size_append, size_cons, size_nil,
          List.length_nil, List.countP_nil]
        omega
      | cons next rest =>
        have hrest := ih place
        simp only [List.isEmpty_cons, Bool.false_eq_true, ↓reduceIte]
        omega
    | false =>
      have hrest := ih (done ++ [segment])
      rw [size_append, size_cons, size_nil] at hrest
      rw [walkAlong_name hstep, if_neg Bool.false_ne_true]
      omega

theorem walkAlong_of_names (h : ∀ segment ∈ segments, isStep segment = false) :
    walkAlong false done segments = done ++ segments := by
  induction segments generalizing done with
  | nil => simp [walkAlong]
  | cons segment rest ih =>
    rw [walkAlong_name (h segment List.mem_cons_self),
      ih fun s hs => h s (List.mem_cons_of_mem _ hs), List.append_assoc, List.singleton_append]

end Path

/-! ### What a reference makes of a text -/

namespace Reference

/-- The characters that are no part of a path: they start a query or fragment, or vanish. -/
def isForeign (c : Char) : Bool := "?#\t\n\r".toList.contains c

/-- The path in a text: all but tabs and line ends, up to a query or fragment. -/
def pathIn (text : List Char) : List Char :=
  ((text.filter fun c => c != '\t' && c != '\n' && c != '\r').takeWhile (· != '#')).takeWhile
    (· != '?')

variable {text : List Char}

theorem pathIn_sublist (text : List Char) : List.Sublist (pathIn text) text :=
  ((List.takeWhile_sublist _).trans (List.takeWhile_sublist _)).trans List.filter_sublist

theorem isForeign_of_mem_pathIn {c : Char} (h : c ∈ pathIn text) : isForeign c = false := by
  have hquery := List.mem_takeWhile_imp h
  have hfragment := List.mem_takeWhile_imp ((List.takeWhile_sublist _).subset h)
  have hbreak := (List.mem_filter.1
    (((List.takeWhile_sublist _).trans (List.takeWhile_sublist _)).subset h)).2
  simp_all [isForeign]

theorem pathIn_eq_self (h : ∀ c ∈ text, isForeign c = false) : pathIn text = text := by
  have hfilter : (text.filter fun c => c != '\t' && c != '\n' && c != '\r') = text :=
    List.filter_eq_self.2 fun c hc => by
      have := h c hc
      simp_all [isForeign]
  rw [pathIn, hfilter, List.takeWhile_eq_self_iff.2, List.takeWhile_eq_self_iff.2]
  · intro c hc
    have := h c hc
    simp_all [isForeign]
  · intro c hc
    have := h c (by simpa using (List.takeWhile_sublist _).subset hc)
    simp_all [isForeign]

/-- The path to a repository is not trimmed, as it starts with a letter and ends with a slash. -/
theorem clean_enclosed (rest : List Char) :
    clean ("repos/".toList ++ (rest ++ ['/'])) =
      "repos/".toList ++
        (rest ++ ['/']).filter fun c => c != '\t' && c != '\n' && c != '\r' := by
  let outer := fun c : Char => decide (c.toNat ≤ 0x20)
  let text := "repos/".toList ++ (rest ++ ['/'])
  have hfront : text.dropWhile outer = text := rfl
  have hback : text.reverse.dropWhile outer = text.reverse := by
    rw [show text.reverse = '/' :: ("repos/".toList ++ rest).reverse by simp [text]]
    rfl
  have htrim : ((text.dropWhile outer).reverse.dropWhile outer).reverse = text := by
    rw [hfront, hback, List.reverse_reverse]
  simp only [clean]
  rw [htrim, List.filter_append]
  rfl

theorem body_repos (rest : List Char) : (ofText ("repos/".toList ++ (rest ++ ['/']))).body =
    "repos/".toList ++ pathIn (rest ++ ['/']) := by
  simp only [ofText, clean_enclosed, splitScheme_repos]
  rw [cut_append (by decide), cut_append (by decide), cut_fst, cut_fst]
  rfl

end Reference

/-! ### Parts that stand for themselves -/

namespace Path

/-- A part as a segment. -/
def encoded (part : List Char) : List Char := Percent.encode Percent.path part

/-- In a segment of a reference, the character stands for itself. -/
def isOrdinary (c : Char) : Bool := !Reference.isForeign c && !endsSegment true c

/-- As a segment of a reference, the part stands for itself. -/
structure IsPlain (part : List Char) : Prop where
  ordinary : part.all isOrdinary = true
  name : isStep (encoded part) = false

instance (part : List Char) : Decidable (IsPlain part) :=
  decidable_of_iff (part.all isOrdinary = true ∧ isStep (encoded part) = false)
    ⟨fun h => ⟨h.1, h.2⟩, fun h => ⟨h.ordinary, h.name⟩⟩

/-- The segments in a text. -/
def pieces (text : List Char) : List (List Char) :=
  (text.splitOnP (endsSegment true)).map encoded

variable {owner name : List Char}

theorem encoded_append (part part' : List Char) :
    encoded (part ++ part') = encoded part ++ encoded part' :=
  List.flatMap_append

theorem flatten_pieces (text : List Char) :
    (pieces text).flatten = encoded (text.filter (!endsSegment true ·)) := by
  rw [← flatten_splitOnP, pieces]
  induction text.splitOnP (endsSegment true) with
  | nil => rfl
  | cons piece rest ih =>
    rw [List.map_cons, List.flatten_cons, List.flatten_cons, ih, encoded_append]

theorem pieces_slash (h : ∀ c ∈ owner, endsSegment true c = false) (rest : List Char) :
    pieces (owner ++ '/' :: rest) = encoded owner :: pieces rest := by
  rw [pieces, List.splitOnP_append_cons_of_forall_mem h '/' rfl, List.map_cons, pieces]

theorem walk_repos (root : List (List Char)) (text : List Char) :
    walk true false root ("repos/".toList ++ text) =
      walkAlong false (root ++ ["repos".toList]) (pieces text) := by
  have hpieces : pieces ("repos/".toList ++ text) = "repos".toList :: pieces text :=
    @pieces_slash "repos".toList (by simp [endsSegment]) text
  rw [← walkAlong_name rfl, ← hpieces]
  rfl

/-- Owner and name, each with a slash after it. -/
def slashed (owner name : List Char) : List Char := owner ++ '/' :: (name ++ ['/'])

/-- The characters of owner and name that are left as characters of segments. -/
theorem filter_pathIn_sublist (owner name : List Char) :
    List.Sublist ((Reference.pathIn (slashed owner name)).filter (!endsSegment true ·))
      (owner ++ name) := by
  have hslash : ['/'].filter (!endsSegment true ·) = [] := rfl
  refine ((Reference.pathIn_sublist _).filter _).trans ?_
  rw [slashed, List.filter_append, List.filter_cons_of_neg (by decide), List.filter_append, hslash,
    List.append_nil]
  exact List.filter_sublist.append List.filter_sublist

theorem pieces_slashed (howner : owner.all isOrdinary = true)
    (hname : name.all isOrdinary = true) :
    pieces (Reference.pathIn (slashed owner name)) = [encoded owner, encoded name, []] := by
  simp only [List.all_eq_true, isOrdinary, Bool.and_eq_true, Bool.not_eq_true'] at howner hname
  have hpath : Reference.pathIn (slashed owner name) = slashed owner name := by
    refine Reference.pathIn_eq_self fun c hc => ?_
    simp only [slashed, List.mem_append, List.mem_cons, List.not_mem_nil, or_false] at hc
    rcases hc with hc | rfl | hc | rfl
    · exact (howner c hc).1
    · rfl
    · exact (hname c hc).1
    · rfl
  rw [hpath, slashed, pieces_slash fun c hc => (howner c hc).2,
    pieces_slash fun c hc => (hname c hc).2]
  rfl

/-- If walking along a text loses no character of `part`, then all of these are ordinary and the
text has no step. -/
theorem ordinary_of_size_le {place : List (List Char)} {text part : List Char}
    (hsub : List.Sublist (text.filter (!endsSegment true ·)) part)
    (hforeign : ∀ c ∈ text, Reference.isForeign c = false)
    (h : size place + (encoded part).length ≤ size (walkAlong false place (pieces text))) :
    part.all isOrdinary = true ∧ (pieces text).countP isStep = 0 := by
  have hwalk := size_walkAlong place (pieces text)
  have hsize : size (pieces text) = (encoded (text.filter (!endsSegment true ·))).length :=
    congrArg List.length (flatten_pieces text)
  have hle : (encoded part).length ≤ (encoded (text.filter (!endsSegment true ·))).length := by
    omega
  have hkept := Percent.eq_of_length_encode_le hsub hle
  constructor
  · refine List.all_eq_true.2 fun c hc => ?_
    obtain ⟨hpath, hends⟩ := List.mem_filter.1 (hkept ▸ hc)
    rw [isOrdinary, hforeign c hpath, hends]
    rfl
  · rw [hkept] at hsize
    omega

/-- **The path of a repository has owner and name as segments** exactly if both are plain. -/
theorem dropLast_walk_iff (root : List (List Char)) (owner name : List Char) :
    (walk true false root ("repos/".toList ++ Reference.pathIn (slashed owner name))).dropLast =
      root ++ ["repos".toList, encoded owner, encoded name] ↔ IsPlain owner ∧ IsPlain name := by
  rw [walk_repos]
  constructor
  · intro h
    -- the path has all characters of owner and name
    have hsize := size_le_of_sublist (List.dropLast_sublist (walkAlong false
      (root ++ ["repos".toList]) (pieces (Reference.pathIn (slashed owner name)))))
    rw [h, List.append_cons, size_append, size_cons, size_cons, size_nil, Nat.add_zero,
      ← List.length_append, ← encoded_append] at hsize
    obtain ⟨hordinary, hsteps⟩ := ordinary_of_size_le (filter_pathIn_sublist owner name)
      (fun c hc => Reference.isForeign_of_mem_pathIn hc) hsize
    obtain ⟨howner, hname⟩ : owner.all isOrdinary = true ∧ name.all isOrdinary = true := by
      simpa using hordinary
    rw [pieces_slashed howner hname, List.countP_eq_zero] at hsteps
    exact ⟨⟨howner, by simpa using hsteps (encoded owner) (by simp)⟩,
      ⟨hname, by simpa using hsteps (encoded name) (by simp)⟩⟩
  · rintro ⟨howner, hname⟩
    have hnames : ∀ segment ∈ [encoded owner, encoded name, []], isStep segment = false := by
      simp only [List.forall_mem_cons]
      exact ⟨howner.name, hname.name, rfl, by simp⟩
    rw [pieces_slashed howner.ordinary hname.ordinary, walkAlong_of_names hnames]
    simp

end Path

/-! ### Places on the web -/

/-- The segments without an empty last one. -/
def Path.stem (segments : List (List Char)) : List (List Char) :=
  if segments.getLast? = some [] then segments.dropLast else segments

namespace Url

variable {url base : Url} {segments : List (List Char)} {ref : Reference} {text : List Char}

/-- An http or https URL with a path from the root, as all of them have that can be read
(`exists_isWeb_of_parse`). -/
structure IsWeb (url : Url) (segments : List (List Char)) : Prop where
  scheme : url.scheme = "http".toList ∨ url.scheme = "https".toList
  path : url.path = .segments segments

theorem IsWeb.isSpecial_eq (h : url.IsWeb segments) : isSpecial url.scheme = true := by
  rcases h.scheme with hscheme | hscheme <;> rw [hscheme] <;> rfl

theorem IsWeb.isFile_eq (h : url.IsWeb segments) : isFile url.scheme = false := by
  rcases h.scheme with hscheme | hscheme <;> rw [hscheme] <;> rfl

theorem IsWeb.folder_eq (h : url.IsWeb segments) : url.folder = segments.dropLast := by
  simp [folder, h.path, h.isFile_eq]

theorem exists_isWeb_of_afterSlashes {scheme : List Char}
    (hscheme : scheme = "http".toList ∨ scheme = "https".toList)
    (h : afterSlashes ref scheme text = .ok url) : ∃ segments, url.IsWeb segments := by
  unfold afterSlashes at h
  cases hread : readAuthority scheme (ref.query.isSome || ref.fragment.isSome) text with
  | error e =>
    simp only [hread, bind, Except.bind] at h
    cases h
  | ok r =>
    simp only [hread, bind, Except.bind, pure, Except.pure] at h
    cases h
    simp only [assemble, readRooted]
    split_ifs <;> exact ⟨_, hscheme, rfl⟩

/-- **Every http or https URL that can be read** is a place on the web. -/
theorem exists_isWeb_of_parse
    (hscheme : (Reference.ofText text).scheme = some "http".toList ∨
      (Reference.ofText text).scheme = some "https".toList)
    (h : parse text = .ok url) : ∃ segments, url.IsWeb segments := by
  rcases hscheme with hscheme | hscheme
  · simp only [parse, hscheme] at h
    exact exists_isWeb_of_afterSlashes (.inl rfl) h
  · simp only [parse, hscheme] at h
    exact exists_isWeb_of_afterSlashes (.inr rfl) h

/-- A reference to a place below a place on the web is read along the path from there. -/
theorem IsWeb.resolve_eq (h : base.IsWeb segments) (hbelow : (Reference.ofText text).IsBelow)
    (hbody : (Reference.ofText text).body ≠ []) :
    base.resolve text = .ok (assemble (Reference.ofText text) base.scheme base.authority
      (.segments (Path.walk true false segments.dropLast (Reference.ofText text).body))) := by
  obtain ⟨c, rest, hcons⟩ := List.exists_cons_of_ne_nil hbody
  rw [Url.resolve, hbelow.1]
  simp only [withoutScheme, h.path, h.isFile_eq, Bool.false_eq_true, ↓reduceIte]
  unfold relative
  rw [hcons]
  simp only [hbelow.isSlash_eq hcons, Bool.false_eq_true, ↓reduceIte, h.isSpecial_eq, h.folder_eq]

theorem IsWeb.asDirectory (h : url.IsWeb segments) :
    url.asDirectory.IsWeb (Path.stem segments ++ [[]]) := by
  unfold Url.asDirectory Path.stem
  rw [h.path]
  simp only [beq_iff_eq]
  split_ifs with hlast
  · exact ⟨h.scheme, by rw [h.path, List.dropLast_append_getLast? [] hlast]⟩
  · exact ⟨h.scheme, rfl⟩

theorem scheme_asDirectory (url : Url) : url.asDirectory.scheme = url.scheme := by
  unfold Url.asDirectory
  split
  · split_ifs
    · rfl
    · rfl
  · rfl

theorem authority_asDirectory (url : Url) : url.asDirectory.authority = url.authority := by
  unfold Url.asDirectory
  split
  · split_ifs
    · rfl
    · rfl
  · rfl

/-- A place at the origin of a URL. -/
def place (url : Url) (segments : List (List Char)) (query : Option (List Char)) : Url :=
  ⟨url.scheme, url.authority, .segments segments, query, none⟩

theorem addQuery_place (segments : List (List Char)) (pairs : List (String × String)) :
    (url.place segments none).addQuery pairs =
      url.place segments (if pairs.isEmpty then none else some (formText pairs)) := by
  rw [← @query_addQuery (url.place segments none) rfl]
  unfold addQuery
  split_ifs
  · rfl
  · rfl

end Url

/-! ### The first page -/

namespace Slug

/-- Owner and name stand for themselves in a reference. -/
structure IsPlain (slug : Slug) : Prop where
  owner : Path.IsPlain slug.owner.toList
  name : Path.IsPlain slug.name.toList

instance (slug : Slug) : Decidable slug.IsPlain :=
  decidable_of_iff (Path.IsPlain slug.owner.toList ∧ Path.IsPlain slug.name.toList)
    ⟨fun h => ⟨h.1, h.2⟩, fun h => ⟨h.owner, h.name⟩⟩

/-- The path of a repository below the path of an interface: `repos`, and a segment each for owner
and name. -/
def pathBelow (slug : Slug) (segments : List (List Char)) : List (List Char) :=
  Path.stem segments ++
    ["repos".toList, Path.encoded slug.owner.toList, Path.encoded slug.name.toList]

/-- Where the reference to a repository leads from the path of an interface. -/
def reached (slug : Slug) (segments : List (List Char)) : List (List Char) :=
  Path.walk true false (Path.stem segments)
    ("repos/".toList ++ Reference.pathIn (Path.slashed slug.owner.toList slug.name.toList))

theorem dropLast_reached_iff {slug : Slug} {segments : List (List Char)} :
    (slug.reached segments).dropLast = slug.pathBelow segments ↔ slug.IsPlain := by
  rw [reached, pathBelow, Path.dropLast_walk_iff]
  exact ⟨fun h => ⟨h.1, h.2⟩, fun h => ⟨h.owner, h.name⟩⟩

/-- A slug that is read has an owner and a name. -/
theorem ne_nil_of_parse {text : String} {slug : Slug} (h : parse? text = some slug) :
    slug.owner.toList ≠ [] ∧ slug.name.toList ≠ [] := by
  unfold parse? at h
  split at h
  · split_ifs at h with hempty
    cases h
    simpa using hempty
  · cases h

end Slug

variable {forge : Forge} {client : Client} {segments : List (List Char)}

/-- The reference from an interface to the repository. -/
def Forge.reference (forge : Forge) : Reference :=
  Reference.ofText ("repos/" ++ forge.repo.owner ++ "/" ++ forge.repo.name ++ "/").toList

/-- The resources of a repository lie where its reference leads from the interface. -/
theorem Forge.base_eq (h : forge.apiUrl.IsWeb segments) :
    forge.base = .ok (Url.assemble forge.reference forge.apiUrl.scheme forge.apiUrl.authority
      (.segments (forge.repo.reached segments))) := by
  let rest := forge.repo.owner.toList ++ '/' :: forge.repo.name.toList
  have hslashed : Path.slashed forge.repo.owner.toList forge.repo.name.toList = rest ++ ['/'] := by
    simp [Path.slashed, rest]
  have htext : ("repos/" ++ forge.repo.owner ++ "/" ++ forge.repo.name ++ "/").toList =
      "repos/".toList ++ (rest ++ ['/']) := by
    simp [rest]
  have hbody := Reference.body_repos rest
  have hresolve := h.asDirectory.resolve_eq (Reference.isBelow_repos (rest ++ ['/']))
    (by rw [hbody]; exact List.cons_ne_nil _ _)
  rw [hbody, List.dropLast_concat, ← hslashed, ← Slug.reached, forge.apiUrl.scheme_asDirectory,
    forge.apiUrl.authority_asDirectory] at hresolve
  rw [Forge.base, Forge.reference, htext, ← hslashed, hresolve]
  rfl

/-- There is always a place below which the resources of a repository lie. -/
theorem Forge.exists_base (h : forge.apiUrl.IsWeb segments) :
    ∃ base, forge.base = .ok base ∧ base.IsWeb (forge.repo.reached segments) :=
  ⟨_, forge.base_eq h, h.scheme, rfl⟩

/-- The first page of pull requests lies beside the last segment of the base. -/
theorem Client.firstPage_eq (h : client.base.IsWeb segments) (query : List (String × String)) :
    client.firstPage "pulls" query = .ok (client.base.place (segments.dropLast ++ ["pulls".toList])
      (if query.isEmpty then none else some (Url.formText query))) := by
  rw [← Url.addQuery_place]
  exact Listing.firstPage_eq_ok_iff.2
    ⟨_, @Url.IsWeb.resolve_eq _ _ "pulls".toList h (by decide) (by decide), rfl⟩

/-- There is always a first page: the base without its last segment, and the resource. -/
theorem Client.exists_firstPage (h : client.base.IsWeb segments)
    (query : List (String × String)) :
    ∃ first, client.firstPage "pulls" query = .ok first ∧
      first.path = .segments (segments.dropLast ++ ["pulls".toList]) ∧
      first.query = if query.isEmpty then none else some (Url.formText query) :=
  ⟨_, client.firstPage_eq h query, rfl, rfl⟩

namespace Client

/-- **A slug can lead elsewhere**: what stands after a question mark in it is taken for a query, and
the first page does not lie below the repository. -/
theorem not_firstPage_path :
    ¬∀ (text : String) (slug : Slug) (api : Url) (segments : List (List Char)) (web : String)
      (query : List (String × String)), Slug.parse? text = some slug → api.IsWeb segments →
      ∃ client first, (⟨slug, api, web, none⟩ : Forge).client = .ok client ∧
        client.firstPage "pulls" query = .ok first ∧
        first.path = .segments (slug.pathBelow segments ++ ["pulls".toList]) := by
  intro h
  obtain ⟨client, first, hclient, hfirst, hpath⟩ :=
    h "a?b/c" ⟨"a?b", "c"⟩ (Url.https "forge" [""] none) [[]] "" [] (by decide +kernel)
      ⟨.inr rfl, rfl⟩
  obtain ⟨target, htarget, rfl⟩ := Listing.firstPage_eq_ok_iff.1 hfirst
  -- the base has the path `/repos/a` and the query `b/c/`
  have hbase := Forge.base_of_client hclient
  have hresolve : (Url.https "forge" [""] none).asDirectory.resolve
      ("repos/" ++ "a?b" ++ "/" ++ "c" ++ "/").toList =
        .ok (Url.https "forge" ["repos", "a"] (some "b/c/")) := by decide +kernel
  have hpage : (Url.https "forge" ["repos", "a"] (some "b/c/")).resolve "pulls".toList =
      .ok (Url.https "forge" ["repos", "pulls"] none) := by decide +kernel
  unfold Forge.base at hbase
  dsimp only at hbase
  rw [hresolve, Except.mapError, Except.ok.injEq] at hbase
  rw [← hbase, hpage] at htarget
  cases htarget
  exact absurd hpath (by decide +kernel)

/-- **The path of the first page is that of the repository exactly if the slug is plain.**  For
every slug that can be read and every place on the web, there is a client and a first page of pull
requests.  It has the origin of the interface, and its query is the one that is asked for.  Its path
is that of the interface with `repos`, owner and name, and the resource as further segments, exactly
if owner and name stand for themselves in a reference. -/
theorem firstPage_path_iff (text : String) (slug : Slug) (api : Url)
    (segments : List (List Char)) (web : String) (query : List (String × String))
    (hslug : Slug.parse? text = some slug) (hapi : api.IsWeb segments) :
    ∃ client first, (⟨slug, api, web, none⟩ : Forge).client = .ok client ∧
      client.firstPage "pulls" query = .ok first ∧
      first.SameOrigin api ∧
      first.query = (if query.isEmpty then none else some (Url.formText query)) ∧
      Path.encoded slug.owner.toList ≠ [] ∧ Path.encoded slug.name.toList ≠ [] ∧
      (first.path = .segments (slug.pathBelow segments ++ ["pulls".toList]) ↔ slug.IsPlain) := by
  obtain ⟨howner, hname⟩ := Slug.ne_nil_of_parse hslug
  obtain ⟨base, hbase, hweb⟩ := @Forge.exists_base ⟨slug, api, web, none⟩ segments hapi
  let client : Client := ⟨⟨slug, api, web, none⟩, base, ⟨Forge.mediaType, Forge.userAgent, none⟩⟩
  have hclient : (⟨slug, api, web, none⟩ : Forge).client = .ok client := by
    rw [Forge.client, hbase]
    rfl
  obtain ⟨first, hfirst, hpath, hquery⟩ := @exists_firstPage client _ hweb query
  refine ⟨client, first, hclient, hfirst, firstPage_sameOrigin hclient hfirst (by decide), hquery,
    Percent.encode_ne_nil howner, Percent.encode_ne_nil hname, ?_⟩
  rw [hpath, Path.segments.injEq, List.append_left_inj]
  exact Slug.dropLast_reached_iff

theorem firstPage_path_iff_sample : ∃ (api first : Url) (segments : List (List Char)),
    Url.parse "HTTPS://forge/v3/".toList = .ok api ∧ api.IsWeb segments ∧
      first.SameOrigin api ∧ first.query = some "page=1&q=a+b".toList ∧
      first.path = .segments (["v3", "repos", "me", "it%20now", "pulls"].map String.toList) := by
  let api := Url.https "forge" ["v3", ""] none
  have hparse : Url.parse "HTTPS://forge/v3/".toList = .ok api := by decide +kernel
  obtain ⟨segments, hapi⟩ := Url.exists_isWeb_of_parse (.inr (by decide +kernel)) hparse
  obtain rfl : ["v3".toList, []] = segments := Path.segments.inj hapi.path
  obtain ⟨client, first, -, -, horigin, hquery, -, -, hpath⟩ :=
    firstPage_path_iff " me/it now\n" ⟨"me", "it now"⟩ api _ "" [("page", "1"), ("q", "a b")]
      (by decide +kernel) hapi
  refine ⟨api, first, _, hparse, hapi, horigin, hquery.trans (by decide +kernel), ?_⟩
  exact (hpath.2 (by decide +kernel)).trans (by decide +kernel)

end Client

end ReleaseDraft
