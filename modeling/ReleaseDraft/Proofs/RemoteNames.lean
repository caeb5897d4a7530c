import Mathlib.Data.List.DropRight
import ReleaseDraft.Proofs.Lookups
import ReleaseDraft.Proofs.RepositoryPath

/-!
# The remote and the name of a repository

The address of a remote is read in one of three ways: as a URL, as a short form whose host stands
where a scheme would, or as a short form with a user, which is no URL at all.  A
`RemoteAddress.Spelling` is a way to write the address of a repository in one of them, with or
without what may surround it.

If owner and name are regular (`Slug.IsRegular`), all ways lead to a URL with the host of the forge
and a path of two segments (`RemoteAddress.IsRepo`, `url?_starts`), from which the slug is taken
again (`Slug.ofRemote?_address`).  Hence options do not depend on whether the repository is that of
the remote or is named (`Resolution.options_of_remote_eq_named`).
-/

namespace ReleaseDraft

/-! ### Trimming and splitting -/

theorem rdropWhile_append_of_pos {α : Type} {p : α → Bool} (list : List α) {after : List α}
    (h : ∀ x ∈ after, p x = true) : (list ++ after).rdropWhile p = list.rdropWhile p := by
  rw [List.rdropWhile, List.reverse_append, List.dropWhile_append_of_pos, List.rdropWhile]
  simpa using h

theorem dropWhile_eq_self_of_neg {α : Type} {p : α → Bool} {list : List α}
    (h : ∀ x ∈ list, p x = false) : list.dropWhile p = list :=
  List.dropWhile_eq_self_iff.2 fun _ => by simp [h _ (List.getElem_mem _)]

theorem rdropWhile_eq_self_of_neg {α : Type} {p : α → Bool} {list : List α}
    (h : ∀ x ∈ list, p x = false) : list.rdropWhile p = list :=
  List.rdropWhile_eq_self_iff.2 fun hne => by simp [h _ (List.getLast_mem hne)]

/-- A text with one separator has two pieces. -/
theorem splitOn_pair {α : Type} [DecidableEq α] {separator : α} {left right : List α}
    (hleft : separator ∉ left) (hright : separator ∉ right) :
    (left ++ separator :: right).splitOn separator = [left, right] := by
  have hpieces : ∀ piece ∈ [left, right], separator ∉ piece := by simp [hleft, hright]
  simpa [List.intercalate_cons_cons] using
    List.splitOn_intercalate separator hpieces (by simp)

/-- Blanks around a text without blanks are trimmed. -/
theorem Text.trim_between {before text after : List Char} (hbefore : before.all isBlank = true)
    (htext : ∀ c ∈ text, isBlank c = false) (hafter : after.all isBlank = true) :
    trim (before ++ text ++ after) = text := by
  simp only [List.all_eq_true] at hbefore hafter
  have hstart : trimStart (before ++ text ++ after) = (text ++ after).dropWhile isBlank := by
    rw [trimStart, List.append_assoc, List.dropWhile_append_of_pos hbefore]
  rw [trim, hstart]
  cases text with
  | nil =>
    rw [List.nil_append, List.dropWhile_eq_nil_iff.2 hafter]
    rfl
  | cons c text =>
    rw [List.cons_append, List.dropWhile_cons_of_neg (by simp [htext c List.mem_cons_self])]
    exact (rdropWhile_append_of_pos (c :: text) hafter).trans (rdropWhile_eq_self_of_neg htext)

/-- Slashes after a text that does not end in one are trimmed. -/
theorem RemoteAddress.trimSlashes_append {text : List Char} {c : Char} (hc : c ≠ '/')
    (slashes : Nat) :
    trimSlashes (text ++ [c] ++ List.replicate slashes '/') = text ++ [c] := by
  refine (rdropWhile_append_of_pos (text ++ [c]) fun x hx => ?_).trans
    (List.rdropWhile_concat_neg _ _ _ (by simpa using hc))
  simpa using List.eq_of_mem_replicate hx

/-! ### Regular names -/

theorem Percent.encode_eq_self {set : Char → Bool} {text : List Char}
    (h : ∀ c ∈ text, set c = false) : encode set text = text := by
  induction text with
  | nil => rfl
  | cons c text ih =>
    obtain ⟨hc, htext⟩ := List.forall_mem_cons.1 h
    rw [encode, List.flatMap_cons, hc]
    exact congrArg (c :: ·) (ih htext)

/-- Only letters change when they are put in lower case. -/
theorem eq_of_toLower_eq {c d : Char} (hd : d.isLower = false) (h : c.toLower = d) : c = d := by
  subst h
  have hletter : c.toLower.isLower =
      (decide (97 ≤ c.toLower.val) && decide (c.toLower.val ≤ 122)) := rfl
  rw [hletter] at hd
  unfold Char.toLower at hd ⊢
  split_ifs at hd ⊢ with hupper
  · simp only [ge_iff_le, UInt32.le_iff_toNat_le] at hupper
    simp [UInt32.le_iff_toNat_le] at hd hupper
    omega
  · rfl

namespace Slug

/-- A letter, a digit, or one of the signs that names usually have. -/
def isRegular (c : Char) : Bool := c.isAlphanum || "-_.".toList.contains c

/-- An owner or a name of regular characters that is no step in a path. -/
structure IsRegularPart (part : List Char) : Prop where
  ne_nil : part ≠ []
  regular : part.all isRegular = true
  ne_dot : part ≠ ".".toList
  ne_dotDot : part ≠ "..".toList

instance (part : List Char) : Decidable (IsRegularPart part) :=
  decidable_of_iff
    (part ≠ [] ∧ part.all isRegular = true ∧ part ≠ ".".toList ∧ part ≠ "..".toList)
    ⟨fun h => ⟨h.1, h.2.1, h.2.2.1, h.2.2.2⟩, fun h => ⟨h.1, h.2, h.3, h.4⟩⟩

/-- Owner and name are regular, and the name does not end in `.git`. -/
structure IsRegular (slug : Slug) : Prop where
  owner : IsRegularPart slug.owner.toList
  name : IsRegularPart slug.name.toList
  bare : ¬".git".toList <:+ slug.name.toList

instance (slug : Slug) : Decidable slug.IsRegular :=
  decidable_of_iff (IsRegularPart slug.owner.toList ∧ IsRegularPart slug.name.toList ∧
    ¬".git".toList <:+ slug.name.toList) ⟨fun h => ⟨h.1, h.2.1, h.2.2⟩, fun h => ⟨h.1, h.2, h.3⟩⟩

variable {c : Char} {part : List Char}

theorem toNat_of_isRegular (h : isRegular c = true) : 0x20 < c.toNat ∧ c.toNat < 0x7F := by
  have hletter : c.isAlphanum = (decide (65 ≤ c.val ∧ c.val ≤ 90) ||
      (decide (97 ≤ c.val) && decide (c.val ≤ 122)) ||
        (decide (48 ≤ c.val) && decide (c.val ≤ 57))) := rfl
  have hrange : (65 ≤ c.toNat ∧ c.toNat ≤ 90) ∨ (97 ≤ c.toNat ∧ c.toNat ≤ 122) ∨
      (48 ≤ c.toNat ∧ c.toNat ≤ 57) ∨ c = '-' ∨ c = '_' ∨ c = '.' := by
    simpa [isRegular, hletter, UInt32.le_iff_toNat_le, or_assoc] using h
  rcases hrange with h | h | h | rfl | rfl | rfl
  · omega
  · omega
  · omega
  · decide
  · decide
  · decide

theorem ne_of_isRegular {d : Char} (h : isRegular c = true) (hd : isRegular d = false) :
    c ≠ d := by
  rintro rfl
  exact absurd (h.symm.trans hd) (by decide)

theorem contains_eq_false (list : List Char) (hlist : list.all (!isRegular ·) = true)
    (h : isRegular c = true) : list.contains c = false := by
  rw [List.contains_eq_mem, decide_eq_false_iff_not]
  intro hc
  exact ne_of_isRegular h (by simpa using List.all_eq_true.1 hlist c hc) rfl

theorem IsRegularPart.isRegular_of_mem (h : IsRegularPart part) (hc : c ∈ part) :
    isRegular c = true :=
  List.all_eq_true.1 h.regular c hc

theorem IsRegularPart.not_mem (h : IsRegularPart part) (hc : isRegular c = false) : c ∉ part :=
  fun hmem => ne_of_isRegular (h.isRegular_of_mem hmem) hc rfl

theorem IsRegularPart.slash_not_mem (h : IsRegularPart part) : '/' ∉ part :=
  h.not_mem (by decide)

/-- A regular part is kept as it is in a path. -/
theorem IsRegularPart.encode_eq (h : IsRegularPart part) :
    Percent.encode Percent.path part = part := by
  refine Percent.encode_eq_self fun c hc => ?_
  have hregular := h.isRegular_of_mem hc
  have hbounds := toNat_of_isRegular hregular
  simp only [Percent.path, Percent.fragment, Percent.control, Bool.or_eq_false_iff,
    decide_eq_false_iff_not]
  exact ⟨⟨⟨by omega, by omega⟩, contains_eq_false _ (by decide) hregular⟩,
    contains_eq_false _ (by decide) hregular⟩

theorem IsRegularPart.isStep_eq (h : IsRegularPart part) : Path.isStep part = false := by
  have hpercent : '%' ∉ Path.lower part := by
    intro hmem
    obtain ⟨c, hc, hlower⟩ := List.mem_map.1 hmem
    exact ne_of_isRegular (h.isRegular_of_mem hc) (by decide) (eq_of_toLower_eq rfl hlower)
  have hdots : ∀ n, Path.lower part = List.replicate n '.' → part = List.replicate n '.' := by
    intro n hlower
    obtain ⟨hlength, hall⟩ := List.eq_replicate_iff.1 hlower
    refine List.eq_replicate_iff.2 ⟨by simpa [Path.lower] using hlength, fun c hc => ?_⟩
    exact eq_of_toLower_eq rfl (hall _ (List.mem_map_of_mem hc))
  rw [Bool.eq_false_iff]
  intro hstep
  simp only [Path.isStep, Path.isDot, Path.isDotDot, List.contains_eq_mem, List.mem_cons,
    List.not_mem_nil, or_false, Bool.or_eq_true, decide_eq_true_eq] at hstep
  -- a step is one of the two that are excluded or has a percent sign
  rcases hstep with (hlower | hlower) | (hlower | hlower | hlower | hlower)
  · exact h.ne_dot (hdots 1 hlower)
  · exact hpercent (by rw [hlower]; decide)
  · exact h.ne_dotDot (hdots 2 hlower)
  · exact hpercent (by rw [hlower]; decide)
  · exact hpercent (by rw [hlower]; decide)
  · exact hpercent (by rw [hlower]; decide)

theorem IsRegularPart.endsSegment_eq (h : IsRegularPart part) (special : Bool) :
    ∀ c ∈ part, Path.endsSegment special c = false := by
  intro c hc
  have hregular := h.isRegular_of_mem hc
  simp [Path.endsSegment, ne_of_isRegular hregular (show isRegular '/' = false by decide),
    ne_of_isRegular hregular (show isRegular '\\' = false by decide)]

/-- The path to owner and name has them as its segments. -/
theorem walk_regular {owner name : List Char} (howner : IsRegularPart owner)
    (hname : IsRegularPart name) (special : Bool) :
    Path.walk special false [] (owner ++ '/' :: name) = [owner, name] := by
  have hsplit : (owner ++ '/' :: name).splitOnP (Path.endsSegment special) = [owner, name] := by
    rw [List.splitOnP_append_cons_of_forall_mem (howner.endsSegment_eq special) '/' rfl,
      List.splitOnP_eq_singleton (hname.endsSegment_eq special)]
  have hnames : ∀ segment ∈ [owner, name], Path.isStep segment = false := by
    simp [howner.isStep_eq, hname.isStep_eq]
  simp only [Path.walk, hsplit, List.map_cons, List.map_nil, howner.encode_eq, hname.encode_eq]
  exact Path.walkAlong_of_names hnames

end Slug

/-! ### Owner and name in an address -/

namespace RemoteAddress

open Slug (IsRegularPart)

variable {owner name : List Char}

theorem stripGit_eq_self (h : ¬".git".toList <:+ name) : stripGit name = name := by
  have hgo : stripGit.go name.reverse = name.reverse := by
    unfold stripGit.go
    split
    · rename_i rest heq
      refine absurd ?_ h
      rw [← List.reverse_prefix, heq]
      exact ⟨rest, rfl⟩
    · rfl
  rw [stripGit, hgo, List.reverse_reverse]

theorem stripGit_append_git (name : List Char) :
    stripGit (name ++ ".git".toList) = stripGit name := by
  have hgo : stripGit.go (name ++ ".git".toList).reverse = stripGit.go name.reverse := by
    rw [List.reverse_append]
    rfl
  rw [stripGit, hgo, stripGit]

theorem pieces_intercalate {parts : List (List Char)} (hparts : ∀ part ∈ parts, '/' ∉ part)
    (hlast : parts.getLast? = some name) (hname : name ≠ []) :
    pieces (['/'].intercalate parts) = parts := by
  have hne : parts ≠ [] := by
    rintro rfl
    cases hlast
  rw [pieces, List.splitOn_intercalate '/' hparts hne]
  simp [hlast, hname]

/-- Owner and name are the segments of a path of two. -/
theorem ownerAndName?_eq {url : Url} (address : List Char) (howner : IsRegularPart owner)
    (hname : IsRegularPart name) (hpath : url.path = .segments [owner, name]) :
    ownerAndName? address url = some (owner, stripGit name) := by
  have hslashes : ∀ part ∈ [[], owner, name], '/' ∉ part := by
    simp [howner.slash_not_mem, hname.slash_not_mem]
  have htext : url.path.text = ['/'].intercalate [[], owner, name] := by
    simp [hpath, Path.text, List.intercalate_cons_cons]
  have hdrop : url.path.text.drop 1 = ['/'].intercalate [owner, name] := by
    simp [hpath, Path.text, List.intercalate_cons_cons]
  simp only [ownerAndName?]
  -- only the path of an `ssh` URL is read without its first slash
  by_cases hssh : (url.scheme == "ssh".toList) = true
  · rw [if_pos hssh, hdrop, pieces_intercalate (List.forall_mem_cons.1 hslashes).2 rfl hname.ne_nil]
    rfl
  · rw [if_neg hssh, htext, pieces_intercalate hslashes rfl hname.ne_nil]
    rfl

end RemoteAddress

/-! ### URLs of repositories -/

namespace Reference

variable {text : List Char}

theorem clean_eq_self (h : ∀ c ∈ text, 0x20 < c.toNat) : clean text = text := by
  have houter : ∀ c ∈ text, decide (c.toNat ≤ 0x20) = false := by
    intro c hc
    simpa using h c hc
  have hfilter : text.filter (fun c => c != '\t' && c != '\n' && c != '\r') = text := by
    refine List.filter_eq_self.2 fun c hc => ?_
    have hne : ∀ d : Char, d.toNat ≤ 0x20 → c ≠ d := by
      rintro d hd rfl
      exact absurd (h c hc) (by omega)
    simp [hne '\t' (by decide), hne '\n' (by decide), hne '\r' (by decide)]
  calc clean text
      = ((text.dropWhile fun c => decide (c.toNat ≤ 0x20)).rdropWhile
          fun c => decide (c.toNat ≤ 0x20)).filter
            (fun c => c != '\t' && c != '\n' && c != '\r') := rfl
    _ = text := by
      rw [dropWhile_eq_self_of_neg houter, rdropWhile_eq_self_of_neg houter, hfilter]

theorem cut_of_not_mem {delimiter : Char} (h : delimiter ∉ text) :
    cut delimiter text = (text, none) := by
  have hgoing : ∀ c ∈ text, (c != delimiter) = true := by
    intro c hc
    simpa using fun heq : c = delimiter => h (heq ▸ hc)
  rw [cut, List.span_eq_takeWhile_dropWhile, List.takeWhile_eq_self_iff.2 hgoing,
    List.dropWhile_eq_nil_iff.2 hgoing]

/-- A text of visible characters without a query or fragment is a scheme and a body. -/
theorem ofText_eq (hvisible : ∀ c ∈ text, 0x20 < c.toNat) (hquery : '?' ∉ text)
    (hfragment : '#' ∉ text) {scheme body : List Char}
    (hscheme : splitScheme text = some (scheme, body)) (hsub : body ⊆ text) :
    ofText text = ⟨some scheme, body, none, none⟩ := by
  simp only [ofText, clean_eq_self hvisible, hscheme,
    cut_of_not_mem fun h => hfragment (hsub h), cut_of_not_mem fun h => hquery (hsub h)]

theorem ofText_eq_none (hvisible : ∀ c ∈ text, 0x20 < c.toNat)
    (hscheme : splitScheme text = none) : (ofText text).scheme = none := by
  simp only [ofText, clean_eq_self hvisible, hscheme]

end Reference

namespace Url

variable {scheme area place rest : List Char} {userInfo : Option (List Char)} {host : Host}

/-- An authority up to the first slash. -/
theorem readAuthority_append (harea : ∀ c ∈ area, isSlash c = false)
    (hcut : cutLast '@' area = (userInfo, place)) (hne : place ≠ [])
    (hplace : readPlace scheme place = .ok (some host, none, [])) (more : Bool)
    (rest : List Char) : ∃ authority,
      readAuthority scheme more (area ++ '/' :: rest) = .ok (authority, '/' :: rest) ∧
        authority.host = some host := by
  have hgoing : ∀ c ∈ area, (!Path.endsSegment (isSpecial scheme) c) = true := by
    intro c hc
    have hslash : ¬c = '/' ∧ ¬c = '\\' := by simpa [isSlash] using harea c hc
    simp [Path.endsSegment, hslash]
  have hspan : (area ++ '/' :: rest).span (!Path.endsSegment (isSpecial scheme) ·) =
      (area, '/' :: rest) := by
    rw [List.span_eq_takeWhile_dropWhile, List.takeWhile_append_of_pos hgoing,
      List.dropWhile_append_of_pos hgoing]
    simp [Path.endsSegment]
  refine ⟨⟨(readUser (userInfo.getD [])).1, (readUser (userInfo.getD [])).2, some host, none⟩, ?_,
    rfl⟩
  rw [readAuthority, hspan]
  simp [hcut, hplace, hne, bind, Except.bind, pure, Except.pure]

/-- The part of a URL after its scheme starts with an authority after two slashes. -/
theorem withScheme_slashes {ref : Reference} (hfile : isFile scheme = false) {c : Char}
    (hc : isSlash c = false) (hbody : ref.body = '/' :: '/' :: c :: rest) :
    withScheme ref scheme none = afterSlashes ref scheme (c :: rest) := by
  have hdrop : ref.body.dropWhile isSlash = c :: rest := by
    rw [hbody, List.dropWhile_cons_of_pos rfl, List.dropWhile_cons_of_pos rfl,
      List.dropWhile_cons_of_neg (by simp [hc])]
  unfold withScheme
  rw [hfile]
  by_cases hspecial : isSpecial scheme = true
  · simp [hspecial, hdrop]
  · simp [hspecial, hbody]

/-- The part of a URL after its scheme is taken as a whole if it does not start with a slash. -/
theorem withScheme_rootless {ref : Reference} (hfile : isFile scheme = false)
    (hspecial : isSpecial scheme = false) {c : Char} (hc : c ≠ '/') (hbody : ref.body = c :: rest) :
    withScheme ref scheme none =
      .ok (assemble ref scheme none (.rootless (Percent.encode Percent.control (c :: rest)))) := by
  unfold withScheme
  rw [hfile, hspecial, hbody]
  simp [hc]

end Url

/-! ### Addresses of repositories -/

namespace RemoteAddress

open Slug (IsRegularPart isRegular toNat_of_isRegular)

/-- A regular character, or a sign between the parts of an address. -/
def inAddress (c : Char) : Bool := isRegular c || "/:@".toList.contains c

variable {c : Char} {text scheme area owner name : List Char}

theorem toNat_of_inAddress (h : inAddress c = true) : 0x20 < c.toNat ∧ c.toNat < 0x7F := by
  have hcases : isRegular c = true ∨ c = '/' ∨ c = ':' ∨ c = '@' := by simpa [inAddress] using h
  rcases hcases with h | rfl | rfl | rfl
  · exact toNat_of_isRegular h
  · decide
  · decide
  · decide

theorem isBlank_eq_false_of_inAddress (h : inAddress c = true) : Text.isBlank c = false := by
  have hbounds := toNat_of_inAddress h
  simp only [Text.isBlank, Bool.or_eq_false_iff, Bool.and_eq_false_iff, decide_eq_false_iff_not,
    beq_eq_false_iff_ne]
  omega

theorem not_mem_of_inAddress (h : text.all inAddress = true) {d : Char} (hd : inAddress d = false) :
    d ∉ text := fun hmem =>
  absurd (hd.symm.trans (List.all_eq_true.1 h d hmem)) (by decide)

theorem all_inAddress_of_regular (h : IsRegularPart name) : name.all inAddress = true :=
  List.all_eq_true.2 fun c hc => by simp [inAddress, h.isRegular_of_mem hc]

/-- Owner and name with the slash between them. -/
def joined (owner name : List Char) : List Char := owner ++ '/' :: name

theorem all_inAddress_joined (howner : IsRegularPart owner) (hname : IsRegularPart name) :
    (joined owner name).all inAddress = true := by
  simp only [joined, List.all_append, List.all_cons, all_inAddress_of_regular howner,
    all_inAddress_of_regular hname]
  decide

theorem all_inAddress_append {start : List Char} (hstart : start.all inAddress = true)
    (howner : IsRegularPart owner) (hname : IsRegularPart name) (slashes : Nat) :
    (start ++ joined owner name ++ List.replicate slashes '/').all inAddress = true := by
  simp only [List.all_append, hstart, all_inAddress_joined howner hname, List.all_replicate]
  simp [show inAddress '/' = true by decide]

theorem not_mem_joined (howner : IsRegularPart owner) (hname : IsRegularPart name)
    (hc : isRegular c = false) (hslash : c ≠ '/') : c ∉ joined owner name := by
  simp [joined, howner.not_mem hc, hname.not_mem hc, hslash]

theorem trimSlashes_joined (hname : IsRegularPart name) (start owner : List Char)
    (slashes : Nat) :
    trimSlashes (start ++ joined owner name ++ List.replicate slashes '/') =
      start ++ joined owner name := by
  have hlast : name.getLast hname.ne_nil ≠ '/' := fun heq =>
    hname.slash_not_mem (heq ▸ List.getLast_mem hname.ne_nil)
  have hsplit : start ++ joined owner name =
      (start ++ joined owner name.dropLast) ++ [name.getLast hname.ne_nil] := by
    simp [joined, List.dropLast_concat_getLast]
  rw [hsplit, trimSlashes_append hlast]

/-- The URL is that of a repository on the forge. -/
structure IsRepo (url : Url) (owner name : List Char) : Prop where
  host : url.host? = some forgeHost
  notFile : Url.isFile url.scheme = false
  path : url.path = .segments [owner, name]

/-- A double slash and `area` after the scheme name the forge as the host. -/
structure NamesForge (scheme area : List Char) : Prop where
  splitScheme : ∀ rest, Reference.splitScheme (scheme ++ ':' :: rest) = some (scheme, rest)
  kept : ∀ rest, urlText (scheme ++ ':' :: '/' :: '/' :: rest) =
    scheme ++ ':' :: '/' :: '/' :: rest
  known : schemes.contains scheme = true
  notFile : Url.isFile scheme = false
  plain : (scheme ++ area).all inAddress = true
  inside : area.all (!Url.isSlash ·) = true
  ne_nil : area ≠ []
  host : ∃ userInfo place, Url.cutLast '@' area = (userInfo, place) ∧ place ≠ [] ∧
    Url.readPlace scheme place = .ok (some forgeHost, none, [])

/-- The forge is named with and without a user, whatever the scheme. -/
theorem namesForge {scheme area : String} (hscheme : scheme ∈ ["ssh", "git", "https"])
    (harea : area ∈ ["github.com", "git@github.com"]) :
    NamesForge scheme.toList area.toList := by
  simp only [List.mem_cons, List.not_mem_nil, or_false] at hscheme harea
  have hplace : Url.readPlace scheme.toList "github.com".toList =
      .ok (some forgeHost, none, []) := by
    rcases hscheme with rfl | rfl | rfl <;> decide +kernel
  refine ⟨fun rest => ?_, fun rest => ?_, ?_, ?_, ?_, ?_, ?_, ?_⟩
  · rw [Reference.splitScheme, List.span_eq_takeWhile_dropWhile]
    rcases hscheme with rfl | rfl | rfl <;> rfl
  · rcases hscheme with rfl | rfl | rfl <;> rfl
  · rcases hscheme with rfl | rfl | rfl <;> decide
  · rcases hscheme with rfl | rfl | rfl <;> decide
  · rcases hscheme with rfl | rfl | rfl <;> rcases harea with rfl | rfl <;> decide
  · rcases harea with rfl | rfl <;> decide
  · rcases harea with rfl | rfl <;> decide
  · rcases harea with rfl | rfl
    · exact ⟨none, _, by decide +kernel, by decide, hplace⟩
    · exact ⟨some "git".toList, _, by decide +kernel, by decide, hplace⟩

/-- The URL of a repository on the forge is read as such, whether its scheme is special or not. -/
theorem NamesForge.parse_eq (h : NamesForge scheme area) (howner : IsRegularPart owner)
    (hname : IsRegularPart name) :
    ∃ url, Url.parse (scheme ++ "://".toList ++ area ++ '/' :: joined owner name) = .ok url ∧
      url.scheme = scheme ∧ IsRepo url owner name := by
  obtain ⟨userInfo, place, hcut, hne, hplace⟩ := h.host
  obtain ⟨c, rest, rfl⟩ := List.exists_cons_of_ne_nil h.ne_nil
  have hinside : ∀ d ∈ c :: rest, Url.isSlash d = false := by
    simpa only [List.all_eq_true, Bool.not_eq_true'] using h.inside
  obtain ⟨authority, hauthority, hhost⟩ :=
    Url.readAuthority_append hinside hcut hne hplace false (joined owner name)
  let body := '/' :: '/' :: c :: (rest ++ '/' :: joined owner name)
  have htext : scheme ++ "://".toList ++ c :: rest ++ '/' :: joined owner name =
      scheme ++ ':' :: body := by
    simp [body]
  have hall : (scheme ++ ':' :: body).all inAddress = true := by
    have hplain := h.plain
    simp only [List.all_append, List.all_cons, Bool.and_eq_true] at hplain
    simp only [body, List.all_append, List.all_cons, all_inAddress_joined howner hname, hplain]
    decide
  have href : Reference.ofText (scheme ++ ':' :: body) = ⟨some scheme, body, none, none⟩ :=
    Reference.ofText_eq (fun c hc => (toNat_of_inAddress (List.all_eq_true.1 hall c hc)).1)
      (not_mem_of_inAddress hall (by decide)) (not_mem_of_inAddress hall (by decide))
      (h.splitScheme body) fun c hc => List.mem_append_right _ (List.mem_cons_of_mem _ hc)
  have hpath : Url.readRooted scheme ('/' :: joined owner name) = .segments [owner, name] := by
    unfold Url.readRooted
    rw [h.notFile]
    by_cases hspecial : Url.isSpecial scheme = true
    · rw [if_pos hspecial]
      exact congrArg _ (Slug.walk_regular howner hname true)
    · rw [if_neg hspecial]
      exact congrArg Path.segments (Slug.walk_regular howner hname false)
  rw [htext]
  refine ⟨⟨scheme, some authority, .segments [owner, name], none, none⟩, ?_, rfl, ?_, h.notFile,
    rfl⟩
  · simp only [Url.parse, href]
    rw [Url.withScheme_slashes h.notFile (hinside c List.mem_cons_self) rfl, Url.afterSlashes]
    simp only [Option.isSome_none, Bool.or_self, ← List.cons_append, hauthority, bind, Except.bind,
      pure, Except.pure, hpath]
    rfl
  · exact hhost

/-! ### The three ways to read an address -/

section

variable {start : List Char} (hstart : start.all inAddress = true) (howner : IsRegularPart owner)
  (hname : IsRegularPart name) (slashes : Nat)
include hstart howner hname

theorem contains_zero_eq_false :
    (start ++ joined owner name ++ List.replicate slashes '/').contains (Char.ofNat 0) = false := by
  have hall := all_inAddress_append hstart howner hname slashes
  simpa only [List.contains_eq_mem, decide_eq_false_iff_not] using
    not_mem_of_inAddress hall (show inAddress (Char.ofNat 0) = false by decide)

theorem url?_of_known {url : Url}
    (hparse : Url.parse (urlText (start ++ joined owner name)) = .ok url)
    (hknown : schemes.contains url.scheme = true) :
    url? (start ++ joined owner name ++ List.replicate slashes '/') = some url := by
  simp only [url?, contains_zero_eq_false hstart howner hname, trimSlashes_joined hname, hparse,
    hknown, Bool.false_eq_true, if_false, if_true]

theorem url?_of_unknown {url : Url}
    (hparse : Url.parse (urlText (start ++ joined owner name)) = .ok url)
    (hunknown : schemes.contains url.scheme = false) :
    url? (start ++ joined owner name ++ List.replicate slashes '/') =
      shortUrl? (start ++ joined owner name) := by
  simp only [url?, contains_zero_eq_false hstart howner hname, trimSlashes_joined hname, hparse,
    hunknown, Bool.false_eq_true, if_false]

theorem url?_of_relative
    (hparse : Url.parse (urlText (start ++ joined owner name)) = .error .relativeWithoutBase)
    (hshort : isShort (start ++ joined owner name) = true) :
    url? (start ++ joined owner name ++ List.replicate slashes '/') =
      shortUrl? (start ++ joined owner name) := by
  simp only [url?, contains_zero_eq_false hstart howner hname, trimSlashes_joined hname, hparse,
    hshort, Bool.false_eq_true, if_false, if_true]

end

/-- An address with a scheme is itself the URL of the repository. -/
theorem NamesForge.url?_eq (h : NamesForge scheme area) (howner : IsRegularPart owner)
    (hname : IsRegularPart name) (slashes : Nat) :
    ∃ url, url? (scheme ++ "://".toList ++ area ++ ['/'] ++ joined owner name ++
      List.replicate slashes '/') = some url ∧ IsRepo url owner name := by
  obtain ⟨url, hparse, rfl, hrepo⟩ := h.parse_eq howner hname
  refine ⟨url, ?_, hrepo⟩
  have hplain : (url.scheme ++ "://".toList ++ area ++ ['/']).all inAddress = true := by
    have hplain := h.plain
    simp only [List.all_append, Bool.and_eq_true] at hplain
    simp only [List.all_append, hplain]
    decide
  have htext : urlText (url.scheme ++ "://".toList ++ area ++ ['/'] ++ joined owner name) =
      url.scheme ++ "://".toList ++ area ++ '/' :: joined owner name := by
    simpa using h.kept (area ++ '/' :: joined owner name)
  exact url?_of_known hplain howner hname slashes (htext ▸ hparse) h.known

/-- The URL that a short form stands for. -/
theorem shortUrl?_eq {start host : String} (hstart : start.toList = host.toList ++ [':'])
    (hhost : host ∈ ["github.com", "git@github.com"]) (howner : IsRegularPart owner)
    (hname : IsRegularPart name) :
    ∃ url, shortUrl? (start.toList ++ joined owner name) = some url ∧ IsRepo url owner name := by
  obtain ⟨url, hparse, -, hrepo⟩ :=
    (@namesForge "ssh" host (by simp) hhost).parse_eq howner hname
  refine ⟨url, ?_, hrepo⟩
  have hcolon : ':' ∉ host.toList := by
    simp only [List.mem_cons, List.not_mem_nil, or_false] at hhost
    rcases hhost with rfl | rfl <;> decide
  have hsplit :=
    splitOn_pair hcolon (not_mem_joined howner hname (c := ':') (by decide) (by decide))
  have htrim : trimSlashes ("ssh://".toList ++ host.toList ++ '/' :: joined owner name) =
      "ssh://".toList ++ host.toList ++ '/' :: joined owner name := by
    simpa using trimSlashes_joined hname ("ssh://".toList ++ host.toList ++ ['/']) owner 0
  have hspelled : spellOutShort (host.toList ++ ':' :: joined owner name) =
      some ("ssh://".toList ++ host.toList ++ '/' :: joined owner name) := by
    rw [spellOutShort, hsplit]
  have hread : Url.parse ("ssh://".toList ++ host.toList ++ '/' :: joined owner name) = .ok url :=
    hparse
  rw [hstart, List.append_assoc, List.singleton_append, shortUrl?, hspelled]
  simp only [Option.bind_eq_bind, Option.bind_some, htrim, hread]
  rfl

theorem visible_append {start : List Char} (hstart : start.all inAddress = true)
    (howner : IsRegularPart owner) (hname : IsRegularPart name) :
    ∀ c ∈ start ++ joined owner name, 0x20 < c.toNat := by
  intro c hc
  have hall := all_inAddress_append hstart howner hname 0
  exact (toNat_of_inAddress (List.all_eq_true.1 hall c (List.mem_append_left _ hc))).1

/-- With a user, the short form is no URL: what stands before the colon is no scheme. -/
theorem url?_ofUser (howner : IsRegularPart owner) (hname : IsRegularPart name) (slashes : Nat) :
    ∃ url, url? ("git@github.com:".toList ++ joined owner name ++
      List.replicate slashes '/') = some url ∧ IsRepo url owner name := by
  obtain ⟨url, hurl, hrepo⟩ :=
    @shortUrl?_eq owner name "git@github.com:" "git@github.com" rfl (by simp) howner hname
  refine ⟨url, ?_, hrepo⟩
  have hplain : "git@github.com:".toList.all inAddress = true := by decide
  have hscheme : Reference.splitScheme ("git@github.com:".toList ++ joined owner name) = none := by
    rw [Reference.splitScheme, List.span_eq_takeWhile_dropWhile]
    rfl
  have hparse : Url.parse ("git@github.com:".toList ++ joined owner name) =
      .error .relativeWithoutBase := by
    simp only [Url.parse,
      Reference.ofText_eq_none (visible_append hplain howner hname) hscheme]
  have hshort : isShort ("git@github.com:".toList ++ joined owner name) = true := by
    have hat : '@' ∉ "github.com:".toList ++ joined owner name := by
      simp [not_mem_joined howner hname (c := '@') (by decide) (by decide)]
    have hsplit : ("git@github.com:".toList ++ joined owner name).splitOn '@' =
        ["git".toList, "github.com:".toList ++ joined owner name] :=
      @splitOn_pair _ _ _ "git".toList _ (by decide) hat
    simp only [isShort, hsplit]
    rfl
  have htext : urlText ("git@github.com:".toList ++ joined owner name) =
      "git@github.com:".toList ++ joined owner name := rfl
  rw [url?_of_relative hplain howner hname slashes (htext ▸ hparse) hshort, hurl]

/-- Without a user, the short form is a URL whose scheme is the host, which is no scheme of a
remote. -/
theorem url?_ofHost (howner : IsRegularPart owner) (hname : IsRegularPart name) (slashes : Nat) :
    ∃ url, url? ("github.com:".toList ++ joined owner name ++
      List.replicate slashes '/') = some url ∧ IsRepo url owner name := by
  obtain ⟨url, hurl, hrepo⟩ :=
    @shortUrl?_eq owner name "github.com:" "github.com" rfl (by simp) howner hname
  refine ⟨url, ?_, hrepo⟩
  have hplain : "github.com:".toList.all inAddress = true := by decide
  have hscheme : Reference.splitScheme ("github.com:".toList ++ joined owner name) =
      some ("github.com".toList, joined owner name) := by
    rw [Reference.splitScheme, List.span_eq_takeWhile_dropWhile]
    rfl
  have href : Reference.ofText ("github.com:".toList ++ joined owner name) =
      ⟨some "github.com".toList, joined owner name, none, none⟩ := by
    refine Reference.ofText_eq (visible_append hplain howner hname) ?_ ?_ hscheme
      (List.subset_append_right _ _)
    · simp [not_mem_joined howner hname (c := '?') (by decide) (by decide)]
    · simp [not_mem_joined howner hname (c := '#') (by decide) (by decide)]
  obtain ⟨other, hparse, hother⟩ :
      ∃ other, Url.parse ("github.com:".toList ++ joined owner name) = .ok other ∧
        other.scheme = "github.com".toList := by
    obtain ⟨first, rest, rfl⟩ := List.exists_cons_of_ne_nil howner.ne_nil
    have hfirst : first ≠ '/' := fun heq => howner.slash_not_mem (heq ▸ List.mem_cons_self)
    simp only [Url.parse, href]
    exact ⟨_, Url.withScheme_rootless (by decide) (by decide) hfirst rfl, rfl⟩
  have htext : urlText ("github.com:".toList ++ joined owner name) =
      "github.com:".toList ++ joined owner name := rfl
  have hunknown : schemes.contains other.scheme = false := by
    rw [hother]
    decide
  rw [url?_of_unknown hplain howner hname slashes (htext ▸ hparse) hunknown, hurl]

/-- What stands before owner and name in an address of a repository on the forge. -/
def starts : List String :=
  ["git@github.com:", "github.com:", "ssh://git@github.com/", "https://github.com/",
    "git://github.com/"]

/-- What may stand after the name. -/
def endings : List String := ["", ".git"]

/-- A way to write the address of a repository: with blanks around it, what stands before owner and
name, and what stands after them up to a number of slashes. -/
structure Spelling where
  before : String
  start : String
  ending : String
  slashes : Nat
  after : String
  blank_before : before.toList.all Text.isBlank = true
  start_mem : start ∈ starts
  ending_mem : ending ∈ endings
  blank_after : after.toList.all Text.isBlank = true

/-- The address of a repository. -/
def Spelling.address (spelling : Spelling) (slug : Slug) : String :=
  spelling.before ++ (spelling.start ++ slug.text ++ spelling.ending ++
    String.ofList (List.replicate spelling.slashes '/')) ++ spelling.after

/-- **An address of a repository stands for its URL**, whatever it starts with. -/
theorem url?_starts {start : String} (hstart : start ∈ starts) (howner : IsRegularPart owner)
    (hname : IsRegularPart name) (slashes : Nat) :
    ∃ url, url? (start.toList ++ joined owner name ++ List.replicate slashes '/') = some url ∧
      IsRepo url owner name := by
  simp only [starts, List.mem_cons, List.not_mem_nil, or_false] at hstart
  rcases hstart with rfl | rfl | rfl | rfl | rfl
  · exact url?_ofUser howner hname slashes
  · exact url?_ofHost howner hname slashes
  · exact (@namesForge "ssh" "git@github.com" (by simp) (by simp)).url?_eq howner hname slashes
  · exact (@namesForge "https" "github.com" (by simp) (by simp)).url?_eq howner hname slashes
  · exact (@namesForge "git" "github.com" (by simp) (by simp)).url?_eq howner hname slashes

theorem all_inAddress_starts {start : String} (hstart : start ∈ starts) :
    start.toList.all inAddress = true := by
  simp only [starts, List.mem_cons, List.not_mem_nil, or_false] at hstart
  rcases hstart with rfl | rfl | rfl | rfl | rfl <;> decide

theorem isRegularPart_append {ending : String} (hending : ending ∈ endings)
    (hname : IsRegularPart name) : IsRegularPart (name ++ ending.toList) := by
  simp only [endings, List.mem_cons, List.not_mem_nil, or_false] at hending
  rcases hending with rfl | rfl
  · simpa using hname
  · have hlength : ∀ text : List Char, text.length < 4 → name ++ ".git".toList ≠ text := by
      rintro text htext rfl
      rw [List.length_append] at htext
      exact absurd htext (by simp)
    refine ⟨by simp, ?_, hlength _ (by decide), hlength _ (by decide)⟩
    rw [List.all_append, hname.regular]
    decide

theorem stripGit_append {ending : String} (hending : ending ∈ endings)
    (hbare : ¬".git".toList <:+ name) : stripGit (name ++ ending.toList) = name := by
  simp only [endings, List.mem_cons, List.not_mem_nil, or_false] at hending
  rcases hending with rfl | rfl
  · simpa using stripGit_eq_self hbare
  · rw [stripGit_append_git, stripGit_eq_self hbare]

variable {slug : Slug}

theorem Spelling.trim_address (spelling : Spelling) (h : slug.IsRegular) :
    Text.trim (spelling.address slug).toList =
      spelling.start.toList ++ joined slug.owner.toList (slug.name.toList ++
        spelling.ending.toList) ++ List.replicate spelling.slashes '/' := by
  have hname := isRegularPart_append spelling.ending_mem h.name
  have hblank : ∀ c ∈ spelling.start.toList ++ joined slug.owner.toList (slug.name.toList ++
      spelling.ending.toList) ++ List.replicate spelling.slashes '/', Text.isBlank c = false := by
    intro c hc
    have hall := all_inAddress_append (all_inAddress_starts spelling.start_mem) h.owner hname
      spelling.slashes
    exact isBlank_eq_false_of_inAddress (List.all_eq_true.1 hall c hc)
  rw [← Text.trim_between spelling.blank_before hblank spelling.blank_after]
  simp [Spelling.address, Slug.text, joined]

end RemoteAddress

namespace Slug

open RemoteAddress

variable {slug : Slug}

/-- **The address of a repository names it.** -/
theorem ofRemote?_address (h : slug.IsRegular) (spelling : Spelling) :
    ofRemote? (spelling.address slug) = some slug := by
  have hname := isRegularPart_append spelling.ending_mem h.name
  obtain ⟨url, hurl, hrepo⟩ := url?_starts spelling.start_mem h.owner hname spelling.slashes
  simp only [ofRemote?, spelling.trim_address h, hurl,
    ownerAndName?_eq _ h.owner hname hrepo.path, stripGit_append spelling.ending_mem h.bare,
    hrepo.notFile, hrepo.host, Option.bind_eq_bind, Option.bind_some]
  simp [h.owner.ne_nil, h.name.ne_nil]

/-- The text of a slug is read back. -/
theorem parse?_text (h : slug.IsRegular) : parse? slug.text = some slug := by
  have htrim : Text.trim slug.text.toList = joined slug.owner.toList slug.name.toList := by
    have hblank : ∀ c ∈ joined slug.owner.toList slug.name.toList, Text.isBlank c = false :=
      fun c hc => isBlank_eq_false_of_inAddress
        (List.all_eq_true.1 (all_inAddress_joined h.owner h.name) c hc)
    simpa [Slug.text, joined] using @Text.trim_between [] _ [] rfl hblank rfl
  have hsplit : (joined slug.owner.toList slug.name.toList).splitOn '/' =
      [slug.owner.toList, slug.name.toList] :=
    splitOn_pair h.owner.slash_not_mem h.name.slash_not_mem
  simp [parse?, htrim, hsplit, h.owner.ne_nil, h.name.ne_nil]

end Slug

namespace Resolution

open CommandLine (Arguments)
open RemoteAddress (Spelling)

/-- The repository of the remote may as well be named; only that the remote is looked up differs. -/
theorem options_of_repoIs {args : Arguments} {environment : Option String} {vcs : Vcs} {slug : Slug}
    {text : String} (hrepo : args.repo = none) (h : RepoIs args (some vcs) slug)
    (hparse : Slug.parse? text = some slug) :
    let named := options { args with repo := some text } environment (some vcs)
    options args environment (some vcs) =
      { named with lookups := .remoteUrl args.remote :: named.lookups } := by
  have hremote : repo args (some vcs) = (.ok slug, [.remoteUrl args.remote]) := by
    simp [h.repo_eq, repoLookups, hrepo]
  have hnamed : repo { args with repo := some text } (some vcs) = (.ok slug, []) := by
    simp [repo, hparse]
  have htag : tag { args with repo := some text } (some vcs) = tag args (some vcs) := rfl
  simp only [options, hremote, hnamed, htag]
  split <;> rfl

/-- **The remote and the name of a repository agree.**  Every spelling of the address of a
repository with regular owner and name is read as that repository, as is the text of its slug.  So
the options are the same, error and log included, whether the repository is that of the remote or is
named; only that the remote is looked up differs. -/
theorem options_of_remote_eq_named {slug : Slug} (h : slug.IsRegular) (spelling : Spelling) :
    Slug.ofRemote? (spelling.address slug) = some slug ∧ Slug.parse? slug.text = some slug ∧
      ∀ (args : Arguments) (environment : Option String) (vcs : Vcs), args.repo = none →
        vcs.remoteUrl args.remote = .ok (some (spelling.address slug)) →
        let named := options { args with repo := some slug.text } environment (some vcs)
        options args environment (some vcs) =
          { named with lookups := .remoteUrl args.remote :: named.lookups } := by
  have haddress := Slug.ofRemote?_address h spelling
  have htext := Slug.parse?_text h
  refine ⟨haddress, htext, fun args environment vcs hrepo hremote => ?_⟩
  exact options_of_repoIs hrepo (.remote hrepo hremote haddress) htext

namespace Sample

/-- A slug with dots where they do no harm. -/
def slug : Slug := ⟨"me.git", "..it-2_x"⟩

/-- The short form with all that may surround it. -/
def spelling : Spelling :=
  ⟨"\u2003 ", "git@github.com:", ".git", 2, "\n", by decide, by decide, by decide, by decide⟩

/-- A repository with that remote and no tags. -/
def vcs : Vcs :=
  ⟨fun _ => .ok (some (spelling.address slug)), .ok none, fun _ => .error .unresolvedTag⟩

end Sample

theorem options_of_remote_eq_named_sample :
    Slug.ofRemote? "\u2003 git@github.com:me.git/..it-2_x.git//\n" = some ⟨"me.git", "..it-2_x"⟩ ∧
      (options .default none (some Sample.vcs)).log =
        [.debug "using repository me.git/..it-2_x"] := by
  obtain ⟨haddress, -, hoptions⟩ :=
    @options_of_remote_eq_named Sample.slug (by decide) Sample.spelling
  refine ⟨haddress, ?_⟩
  rw [hoptions .default none Sample.vcs rfl rfl]
  decide +kernel

end Resolution

end ReleaseDraft
