import ReleaseDraft.Proofs.RemoteNames
import ReleaseDraft.Proofs.WrittenPaths

/-!
# Slugs are canonical

A slug is read from a text that is, apart from the blanks around it, an owner and a name with the
only slash between them; and it is written as just that text (`Slug.parse?_eq_some_iff`).  So a slug
is read back from its own text exactly if owner and name are whole (`Slug.IsWhole`) and there are no
blanks around it.

The slug of a remote comes from the path of a URL, whichever way its address is read.  The path of a
URL on the forge has visible characters only, and owner and name are pieces of it between slashes
(`RemoteAddress.exists_pieces`).  So both kinds of slugs are read back (`Slug.read_back`).
-/

namespace ReleaseDraft

/-! ### Blanks around a text -/

namespace Text

theorem isBlank_eq_false_of_visible {c : Char} (hlow : 0x20 < c.toNat) (hhigh : c.toNat < 0x7F) :
    isBlank c = false := by
  simp only [isBlank, Bool.or_eq_false_iff, Bool.and_eq_false_iff, decide_eq_false_iff_not,
    beq_eq_false_iff_ne]
  omega

theorem trimStart_trimEnd_trimStart (text : List Char) :
    trimStart (trimEnd (trimStart text)) = trimEnd (trimStart text) := by
  cases hend : trimEnd (trimStart text) with
  | nil => rfl
  | cons c rest =>
    -- the first character is that of the text without its leading blanks
    have hprefix : (c :: rest) <+: trimStart text := by
      rw [← hend]
      exact List.rdropWhile_prefix isBlank (trimStart text)
    obtain ⟨after, hstart⟩ := hprefix
    have hblank : isBlank c = false := by
      have hhead := List.head?_dropWhile_not isBlank text
      rw [show text.dropWhile isBlank = c :: (rest ++ after) from hstart.symm] at hhead
      simpa using hhead
    exact List.dropWhile_cons_of_neg (by simp [hblank])

/-- Trimming leaves nothing to trim. -/
theorem trim_trim (text : List Char) : trim (trim text) = trim text := by
  rw [trim, trim, trimStart_trimEnd_trimStart]
  exact List.rdropWhile_idempotent isBlank (trimStart text)

end Text

theorem toList_trimmed (text : String) : (trimmed text).toList = Text.trim text.toList := by
  simp [trimmed]

theorem trimmed_trimmed (text : String) : trimmed (trimmed text) = trimmed text := by
  rw [trimmed, toList_trimmed, Text.trim_trim, trimmed]

theorem trimmed_eq_self {text : String} (h : ∀ c ∈ text.toList, Text.isBlank c = false) :
    trimmed text = text := by
  have htrim : Text.trim text.toList = text.toList := by
    simpa using @Text.trim_between [] text.toList [] rfl h rfl
  rw [trimmed, htrim, String.ofList_toList]

/-! ### Reading a slug -/

/-- The pieces of a text at a separator are parts of it without the separator. -/
theorem mem_of_mem_splitOn {text piece : List Char} {separator c : Char}
    (h : piece ∈ text.splitOn separator) (hc : c ∈ piece) : c ∈ text ∧ c ≠ separator := by
  have hflat : c ∈ (text.splitOn separator).flatten := List.mem_flatten.2 ⟨piece, h, hc⟩
  rw [List.splitOn, flatten_splitOnP, List.mem_filter] at hflat
  simpa using hflat

theorem splitOn_eq_pair_iff {text left right : List Char} {separator : Char} :
    text.splitOn separator = [left, right] ↔
      text = left ++ separator :: right ∧ separator ∉ left ∧ separator ∉ right := by
  constructor
  · intro h
    have hpiece : ∀ piece ∈ [left, right], separator ∉ piece := fun piece hpiece hmem =>
      (mem_of_mem_splitOn (h ▸ hpiece) hmem).2 rfl
    refine ⟨?_, hpiece left (by simp), hpiece right (by simp)⟩
    have hjoin : [separator].intercalate (text.splitOn separator) = text :=
      List.intercalate_splitOn separator
    rw [h] at hjoin
    simpa [List.intercalate_cons_cons] using hjoin.symm
  · rintro ⟨rfl, hleft, hright⟩
    exact splitOn_pair hleft hright

namespace Slug

/-- Owner and name are there, and neither has a slash. -/
structure IsWhole (slug : Slug) : Prop where
  owner_ne : slug.owner ≠ ""
  name_ne : slug.name ≠ ""
  owner_slash : '/' ∉ slug.owner.toList
  name_slash : '/' ∉ slug.name.toList

variable {slug : Slug} {text : String}

theorem toList_text (slug : Slug) :
    slug.text.toList = slug.owner.toList ++ '/' :: slug.name.toList := by
  simp [Slug.text]

/-- **A slug is read exactly from its own text**, apart from blanks around it. -/
theorem parse?_eq_some_iff : parse? text = some slug ↔ slug.IsWhole ∧ slug.text = trimmed text := by
  constructor
  · intro h
    unfold parse? at h
    split at h
    · rename_i owner name hsplit
      split_ifs at h with hempty
      cases h
      obtain ⟨htrim, howner, hname⟩ := splitOn_eq_pair_iff.1 hsplit
      simp only [Bool.or_eq_true, List.isEmpty_iff, not_or] at hempty
      refine ⟨⟨?_, ?_, ?_, ?_⟩, ?_⟩
      · simpa using hempty.1
      · simpa using hempty.2
      · simpa using howner
      · simpa using hname
      · rw [← String.toList_inj, toList_text, toList_trimmed, htrim]
        simp
    · cases h
  · rintro ⟨h, htext⟩
    have htrim : Text.trim text.toList = slug.owner.toList ++ '/' :: slug.name.toList := by
      rw [← toList_trimmed, ← htext, toList_text]
    have hne : slug.owner.toList ≠ [] ∧ slug.name.toList ≠ [] := by
      simpa using ⟨h.owner_ne, h.name_ne⟩
    simp [parse?, htrim, splitOn_pair h.owner_slash h.name_slash, hne]

theorem IsWhole.parse?_text (h : slug.IsWhole)
    (hblank : ∀ c ∈ slug.text.toList, Text.isBlank c = false) :
    parse? slug.text = some slug :=
  parse?_eq_some_iff.2 ⟨h, (trimmed_eq_self hblank).symm⟩

/-- A slug can be read if there is one slash with something on each side. -/
theorem exists_parse?_iff : (∃ slug, parse? text = some slug) ↔
    ∃ left right, (trimmed text).toList = left ++ '/' :: right ∧ left ≠ [] ∧ right ≠ [] ∧
      (trimmed text).toList.count '/' = 1 := by
  constructor
  · rintro ⟨slug, h⟩
    obtain ⟨hwhole, htext⟩ := parse?_eq_some_iff.1 h
    refine ⟨slug.owner.toList, slug.name.toList, ?_, ?_, ?_, ?_⟩
    · rw [← htext, toList_text]
    · simpa using hwhole.owner_ne
    · simpa using hwhole.name_ne
    · rw [← htext, toList_text, List.count_append, List.count_cons_self,
        List.count_eq_zero.2 hwhole.owner_slash, List.count_eq_zero.2 hwhole.name_slash]
  · rintro ⟨left, right, htext, hleft, hright, hcount⟩
    -- the slash in the middle is the only one
    rw [htext, List.count_append, List.count_cons_self] at hcount
    refine ⟨⟨String.ofList left, String.ofList right⟩, parse?_eq_some_iff.2 ⟨⟨?_, ?_, ?_, ?_⟩, ?_⟩⟩
    · simpa using hleft
    · simpa using hright
    · simpa using List.count_eq_zero.1 (show left.count '/' = 0 by omega)
    · simpa using List.count_eq_zero.1 (show right.count '/' = 0 by omega)
    · rw [← String.toList_inj, toList_text, htext]
      simp

end Slug

/-! ### The path of a remote -/

namespace RemoteAddress

variable {address owner name piece path : List Char} {url : Url}

theorem go_suffix (reversed : List Char) : stripGit.go reversed <:+ reversed := by
  fun_induction stripGit.go reversed with
  | case1 rest ih => exact ih.trans ⟨['t', 'i', 'g', '.'], rfl⟩
  | case2 reversed => exact List.suffix_rfl

theorem not_prefix_go (reversed : List Char) :
    ¬['t', 'i', 'g', '.'] <+: stripGit.go reversed := by
  fun_induction stripGit.go reversed with
  | case1 rest ih => exact ih
  | case2 reversed h =>
    rintro ⟨rest, rfl⟩
    exact h rest rfl

/-- Nothing is left of `.git` at the end of a name. -/
theorem not_suffix_stripGit (name : List Char) : ¬".git".toList <:+ stripGit name := by
  intro h
  refine not_prefix_go name.reverse ?_
  rw [← List.reverse_prefix, stripGit, List.reverse_reverse] at h
  exact h

theorem stripGit_subset (name : List Char) : stripGit name ⊆ name := by
  intro c hc
  exact List.mem_reverse.1 ((go_suffix name.reverse).subset (List.mem_reverse.1 hc))

theorem mem_of_mem_pieces {c : Char} (h : piece ∈ pieces path) (hc : c ∈ piece) :
    c ∈ path ∧ c ≠ '/' := by
  have hpiece : piece ∈ path.splitOn '/' := by
    simp only [pieces] at h
    split_ifs at h
    · exact (List.dropLast_sublist _).subset h
    · exact h
  exact mem_of_mem_splitOn hpiece hc

/-- Owner and name are pieces of the path of a URL, the name apart from `.git` at its end. -/
theorem exists_pieces (h : ownerAndName? address url = some (owner, name)) :
    ∃ path last, path ⊆ url.path.text ∧ owner ∈ pieces path ∧ last ∈ pieces path ∧
      name = stripGit last := by
  simp only [ownerAndName?] at h
  -- the first slash of an `ssh` path is not part of it
  have hsub : (if (url.scheme == "ssh".toList) = true then url.path.text.drop 1
      else url.path.text) ⊆ url.path.text := by
    split_ifs
    · exact List.drop_subset 1 _
    · exact List.Subset.refl _
  generalize (if (url.scheme == "ssh".toList) = true then url.path.text.drop 1
    else url.path.text) = path at h hsub
  refine ⟨path, ?_⟩
  split at h
  · rename_i last before rest hpieces
    cases h
    refine ⟨last, hsub, ?_, ?_, rfl⟩
    · exact List.mem_reverse.1 (hpieces ▸ List.mem_cons_of_mem _ List.mem_cons_self)
    · exact List.mem_reverse.1 (hpieces ▸ List.mem_cons_self)
  · rename_i last hpieces
    have hlast : last ∈ pieces path := List.mem_reverse.1 (hpieces ▸ List.mem_cons_self)
    split_ifs at h
    cases h
    exact ⟨_, hsub, hlast, hlast, rfl⟩
  · cases h

theorem exists_parse_of_shortUrl? (h : shortUrl? address = some url) :
    ∃ text, Url.parse text = .ok url := by
  unfold shortUrl? at h
  cases hspelled : spellOutShort address with
  | none => simp [hspelled] at h
  | some spelled =>
    refine ⟨trimSlashes spelled, ?_⟩
    cases hparse : Url.parse (trimSlashes spelled) with
    | error e => simp [hspelled, hparse, Except.toOption] at h
    | ok found => simpa [hspelled, hparse, Except.toOption] using h

/-- However an address is read, its URL is read from some text. -/
theorem exists_parse_of_url? (h : url? address = some url) : ∃ text, Url.parse text = .ok url := by
  simp only [url?] at h
  by_cases hzero : address.contains (Char.ofNat 0) = true
  · rw [if_pos hzero] at h
    cases h
  · rw [if_neg hzero] at h
    split at h
    · rename_i found hparse
      split_ifs at h
      · cases h
        exact ⟨_, hparse⟩
      · exact exists_parse_of_shortUrl? h
    · split_ifs at h
      exact exists_parse_of_shortUrl? h
    · cases h

/-- The path of a URL with a host has visible characters only. -/
theorem visible_of_mem_text {text : List Char} (hparse : Url.parse text = .ok url)
    (hhost : url.host? = some forgeHost) {c : Char} (hc : c ∈ url.path.text) :
    0x20 < c.toNat ∧ c.toNat < 0x7F := by
  rcases Url.isPlaced_or_of_parse hparse with ⟨-, segments, -, hpath, hwritten⟩ | ⟨hnone, -⟩
  · rw [hpath] at hc
    obtain ⟨segment, hsegment, hmem⟩ := List.mem_flatMap.1 hc
    rcases List.mem_cons.1 hmem with rfl | hmem
    · decide
    · obtain ⟨hlow, hhigh, -⟩ := Path.inSegment_iff.1 (hwritten segment hsegment c hmem)
      exact ⟨hlow, hhigh⟩
  · simp [Url.host?, hnone] at hhost

end RemoteAddress

namespace Slug

open RemoteAddress

variable {slug : Slug} {address : String}

theorem exists_of_ofRemote? (h : ofRemote? address = some slug) :
    ∃ url owner name, url? (Text.trim address.toList) = some url ∧
      ownerAndName? (Text.trim address.toList) url = some (owner, name) ∧
      url.host? = some forgeHost ∧ owner ≠ [] ∧ name ≠ [] ∧
      slug = ⟨String.ofList owner, String.ofList name⟩ := by
  unfold ofRemote? at h
  simp only [Option.bind_eq_bind, Option.bind_eq_some_iff] at h
  obtain ⟨url, hurl, ⟨owner, name⟩, hboth, h⟩ := h
  split_ifs at h with hrejected
  cases h
  simp only [Bool.or_eq_true, bne_iff_ne, List.isEmpty_iff, not_or, not_not] at hrejected
  exact ⟨url, owner, name, hurl, hboth, hrejected.1.1.2, hrejected.1.2, hrejected.2, rfl⟩

/-- **The slug of a remote is whole**, has no blanks, and its name does not end in `.git`. -/
theorem isWhole_of_ofRemote? (h : ofRemote? address = some slug) :
    slug.IsWhole ∧ (∀ c ∈ slug.owner.toList ++ slug.name.toList, Text.isBlank c = false) ∧
      ¬".git".toList <:+ slug.name.toList := by
  obtain ⟨url, owner, name, hurl, hboth, hhost, howner, hname, rfl⟩ := exists_of_ofRemote? h
  obtain ⟨text, hparse⟩ := exists_parse_of_url? hurl
  obtain ⟨path, last, hsub, hownerPiece, hlast, rfl⟩ := exists_pieces hboth
  -- a character of owner or name is one of the path, and no slash
  have hmem : ∀ c ∈ owner ++ stripGit last, c ∈ url.path.text ∧ c ≠ '/' := by
    intro c hc
    rcases List.mem_append.1 hc with hc | hc
    · exact (mem_of_mem_pieces hownerPiece hc).imp_left (hsub ·)
    · exact (mem_of_mem_pieces hlast (stripGit_subset last hc)).imp_left (hsub ·)
  have hslash : '/' ∉ owner ++ stripGit last := fun hc => (hmem '/' hc).2 rfl
  rw [List.mem_append, not_or] at hslash
  refine ⟨⟨by simpa using howner, by simpa using hname, by simpa using hslash.1,
    by simpa using hslash.2⟩, ?_, ?_⟩
  · intro c hc
    rw [String.toList_ofList, String.toList_ofList] at hc
    obtain ⟨hlow, hhigh⟩ := visible_of_mem_text hparse hhost (hmem c hc).1
    exact Text.isBlank_eq_false_of_visible hlow hhigh
  · simpa using not_suffix_stripGit last

theorem parse?_text_of_ofRemote? (h : ofRemote? address = some slug) :
    parse? slug.text = some slug := by
  obtain ⟨hwhole, hblank, -⟩ := isWhole_of_ofRemote? h
  refine hwhole.parse?_text fun c hc => ?_
  rw [toList_text, List.mem_append, List.mem_cons] at hc
  rcases hc with hc | rfl | hc
  · exact hblank c (List.mem_append_left _ hc)
  · rfl
  · exact hblank c (List.mem_append_right _ hc)

/-- **Slugs are canonical whatever produced them.**  A text is read as a slug exactly if, without
the blanks around it, it has one slash with something on each side; the slug is written as just that
text.  A text that is no slug is reported as it was given.  The slug of a remote has an owner and a
name without slashes and blanks, and the name does not end in `.git`.  So every slug of either kind
is read back from its text. -/
theorem read_back (text : String) :
    ((∃ slug, parse? text = some slug) ↔
      ∃ left right, (trimmed text).toList = left ++ '/' :: right ∧ left ≠ [] ∧ right ≠ [] ∧
        (trimmed text).toList.count '/' = 1) ∧
    (∀ slug, parse? text = some slug →
      slug.IsWhole ∧ slug.text = trimmed text ∧ parse? slug.text = some slug) ∧
    (parse? text = none → ∀ (args : CommandLine.Arguments) (vcs : Option Vcs),
      args.repo = some text → Resolution.repo args vcs = (.error (.invalidRepo text), [])) ∧
    ∀ slug, ofRemote? text = some slug →
      slug.owner ≠ "" ∧ slug.name ≠ "" ∧
      (∀ c ∈ slug.owner.toList ++ slug.name.toList, c ≠ '/' ∧ Text.isBlank c = false) ∧
      ¬".git".toList <:+ slug.name.toList ∧ parse? slug.text = some slug := by
  refine ⟨exists_parse?_iff, fun slug h => ?_, fun h args vcs hargs => ?_, fun slug h => ?_⟩
  · obtain ⟨hwhole, htext⟩ := parse?_eq_some_iff.1 h
    refine ⟨hwhole, htext, parse?_eq_some_iff.2 ⟨hwhole, ?_⟩⟩
    rw [htext, trimmed_trimmed]
  · simp [Resolution.repo, hargs, h]
  · obtain ⟨hwhole, hblank, hbare⟩ := isWhole_of_ofRemote? h
    refine ⟨hwhole.owner_ne, hwhole.name_ne, fun c hc => ⟨?_, hblank c hc⟩, hbare,
      parse?_text_of_ofRemote? h⟩
    rintro rfl
    rcases List.mem_append.1 hc with hc | hc
    · exact hwhole.owner_slash hc
    · exact hwhole.name_slash hc

/-- A text with blanks around it and inside, a text that is refused, and a remote with an encoded
character and a repeated ending. -/
theorem read_back_sample :
    parse? "me/it now" = some ⟨"me", "it now"⟩ ∧
      Resolution.repo { CommandLine.Arguments.default with repo := some " /it" } none =
        (.error (.invalidRepo " /it"), []) ∧
      parse? "o/r%C3%A9" = some ⟨"o", "r%C3%A9"⟩ := by
  have hread : parse? " me/it now\n" = some ⟨"me", "it now"⟩ := by decide +kernel
  have hrefused : parse? " /it" = none := by decide +kernel
  have hremote : ofRemote? "git@github.com:o/ré.git.git/" = some ⟨"o", "r%C3%A9"⟩ := by
    decide +kernel
  obtain ⟨-, hback, -, -⟩ := read_back " me/it now\n"
  obtain ⟨-, -, hgiven, -⟩ := read_back " /it"
  obtain ⟨-, -, -, hof⟩ := read_back "git@github.com:o/ré.git.git/"
  obtain ⟨-, -, -, -, hname⟩ := hof _ hremote
  exact ⟨(hback _ hread).2.2, hgiven hrefused _ none rfl, hname⟩

end Slug

end ReleaseDraft
