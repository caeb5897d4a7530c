import Mathlib.Data.List.Forall2
import Mathlib.Data.List.Infix
import ReleaseDraft.Http.Link

/-!
# Links are read back from headers

A link is written (`Http.Link.Written`) with its target in angle brackets, its relations in quotes
after `rel=`, and other parameters around them.  Written links stand in one header value or are
spread over several, and values that are not ASCII may stand between them (`Http.Link.Value`).

Reading goes back through the layers of writing.  A value that is plain is its text
(`Header.text?_encode`).  The links of a text are found one by one, as a target ends at the first
`>` and nothing after it has a `<` before the next link (`finds_scan`).  The first `rel` parameter of a
link is the one that was written (`rel?_append`).  So the next page is the target of the first link
that was written as leading on, however the links are grouped (`next_written`).
-/

namespace ReleaseDraft

namespace Http

/-! ### Plain text -/

namespace Header

/-- A visible ASCII character, a space or a tab. -/
def isPlain (c : Char) : Bool := c.toNat == 9 || (0x20 ≤ c.toNat && c.toNat < 0x7F)

variable {c : Char} {text : List Char} {bytes : List UInt8}

theorem isPlain_iff :
    isPlain c = true ↔ c.toNat = 9 ∨ 0x20 ≤ c.toNat ∧ c.toNat < 0x7F := by
  simp [isPlain]

theorem isPlainByte_iff {b : UInt8} :
    isPlainByte b = true ↔ b.toNat = 9 ∨ 0x20 ≤ b.toNat ∧ b.toNat < 0x7F := by
  simp [isPlainByte, UInt8.le_iff_toNat_le, UInt8.lt_iff_toNat_lt, UInt8.ext_iff]

theorem toNat_byte (h : isPlain c = true) : c.toNat.toUInt8.toNat = c.toNat := by
  rw [isPlain_iff] at h
  exact Text.Utf8.toNat_toUInt8 (by omega)

theorem encode_of_isPlain (h : ∀ c ∈ text, isPlain c = true) :
    Text.Utf8.encode text = text.map fun c => c.toNat.toUInt8 := by
  rw [Text.Utf8.encode, ← List.flatMap_pure_eq_map]
  refine List.flatMap_congr fun c hc => ?_
  have hplain := isPlain_iff.1 (h c hc)
  rw [Text.Utf8.encodeChar, if_pos (by omega)]
  rfl

/-- **A plain header value** is the text that was written. -/
theorem text?_encode (h : ∀ c ∈ text, isPlain c = true) :
    text? (Text.Utf8.encode text) = some text := by
  have hbytes : (text.map fun c => c.toNat.toUInt8).all isPlainByte = true := by
    rw [List.all_map, List.all_eq_true]
    intro c hc
    have hplain := h c hc
    rw [Function.comp_apply, isPlainByte_iff, toNat_byte hplain]
    exact isPlain_iff.1 hplain
  rw [encode_of_isPlain h, text?, if_pos hbytes, List.map_map]
  congr 1
  calc text.map ((fun b => Char.ofNat b.toNat) ∘ fun c => c.toNat.toUInt8)
    _ = text.map id := List.map_congr_left fun c hc => by
      rw [Function.comp_apply, toNat_byte (h c hc), Char.ofNat_toNat]
      rfl
    _ = text := List.map_id text

/-- A value with a byte that is not ASCII has no text. -/
theorem text?_of_foreign (h : ∃ b ∈ bytes, 0x80 ≤ b) : text? bytes = none := by
  obtain ⟨b, hb, hlarge⟩ := h
  refine if_neg fun hall => ?_
  have hplain := isPlainByte_iff.1 (List.all_eq_true.1 hall b hb)
  have hlarge' : 0x80 ≤ b.toNat := UInt8.le_iff_toNat_le.1 hlarge
  omega

end Header

/-! ### Written links -/

namespace Link

/-- What stands before the relations of a link. -/
def relMark : List Char := [';', ' ', 'r', 'e', 'l', '=', '"']

/-- A link as it is written, with the text before and after its relations. -/
structure Written where
  target : List Char
  before : List Char
  relations : List Char
  after : List Char
  /-- The target ends at the closing bracket. -/
  target_closed : '>' ∉ target
  /-- No parameter looks like the start of the next link. -/
  before_closed : '<' ∉ before
  after_closed : '<' ∉ after
  /-- The relations are the first `rel`. -/
  before_unrelated : ¬['r', 'e', 'l'] <:+: before.map Char.toLower
  relations_ne_nil : relations ≠ []
  relations_closed : relations.all (fun c => c != '"' && c != ';' && c != ',' && c != '<') = true
  plain : (target ++ before ++ relations ++ after).all Header.isPlain = true

namespace Written

/-- What stands after the target. -/
def parameters (link : Written) : List Char :=
  link.before ++ (relMark ++ (link.relations ++ '"' :: link.after))

/-- The text of a link. -/
def text (link : Written) : List Char :=
  '<' :: (link.target ++ '>' :: link.parameters)

/-- One of the relations is `next`, in upper or lower case. -/
def LeadsOn (link : Written) : Prop :=
  ∃ word ∈ Text.words link.relations, word.map Char.toLower = "next".toList

end Written

/-- A header value: links with a comma between two of them, or bytes that are not all ASCII. -/
inductive Value where
  | plain (links : List Written)
  | foreign (bytes : List UInt8) (h : ∃ b ∈ bytes, 0x80 ≤ b)

namespace Value

/-- The links of a value. -/
def written : Value → List Written
  | plain links => links
  | foreign _ _ => []

/-- The text of some links in one value. -/
def listed (links : List Written) : List Char := [',', ' '].intercalate (links.map Written.text)

/-- The bytes of a value. -/
def bytes : Value → List UInt8
  | plain links => Text.Utf8.encode (listed links)
  | foreign bytes _ => bytes

end Value

/-! ### Relations of a written link -/

variable {text target : List Char}

theorem relAt?_eq_none (h : ¬['r', 'e', 'l'] <+: text.map Char.toLower) : relAt? text = none := by
  unfold relAt?
  split
  · next r e l rest =>
    have hne : ¬([r, e, l].map Char.toLower == ['r', 'e', 'l']) = true := by
      intro heq
      refine h ⟨rest.map Char.toLower, ?_⟩
      rw [beq_iff_eq] at heq
      show ['r', 'e', 'l'] ++ _ = [r, e, l].map Char.toLower ++ rest.map Char.toLower
      rw [heq]
    rw [if_neg hne]
  · rfl

/-- The value in quotes after the equals sign. -/
theorem value?_quoted {value : List Char} (hne : value ≠ [])
    (hvalue : ∀ c ∈ value, inValue c = true) (after : List Char) :
    value? ('"' :: (value ++ '"' :: after)) = some value := by
  have hblank : ('"' :: (value ++ '"' :: after)).dropWhile Text.isBlank =
      '"' :: (value ++ '"' :: after) := List.dropWhile_cons_of_neg (by decide)
  have htake : (value ++ '"' :: after).takeWhile inValue = value := by
    rw [List.takeWhile_append_of_pos hvalue, List.takeWhile_cons_of_neg (by decide),
      List.append_nil]
  have hempty : (!value.isEmpty) = true := by simpa using hne
  simp only [value?, hblank, List.head?_cons, beq_self_eq_true, ↓reduceIte, List.drop_succ_cons,
    List.drop_zero, htake, hempty]

/-- No `rel` starts in a text without one, nor across its end where a semicolon follows. -/
theorem not_startsRel {c : Char} {before : List Char}
    (h : ¬['r', 'e', 'l'] <:+: (c :: before).map Char.toLower) (rest : List Char) :
    ¬['r', 'e', 'l'] <+: ((c :: before) ++ ';' :: rest).map Char.toLower := by
  intro hrel
  obtain ⟨hr, hrel⟩ := List.cons_prefix_cons.1 hrel
  rcases before with _ | ⟨d, _ | ⟨e, before⟩⟩
  · obtain ⟨he, -⟩ := List.cons_prefix_cons.1 hrel
    exact absurd he (by decide)
  · obtain ⟨-, hrel⟩ := List.cons_prefix_cons.1 hrel
    obtain ⟨hl, -⟩ := List.cons_prefix_cons.1 hrel
    exact absurd hl (by decide)
  · obtain ⟨he, hrel⟩ := List.cons_prefix_cons.1 hrel
    obtain ⟨hl, -⟩ := List.cons_prefix_cons.1 hrel
    refine h ⟨[], before.map Char.toLower, ?_⟩
    show 'r' :: 'e' :: 'l' :: before.map Char.toLower = c.toLower :: d.toLower :: e.toLower :: _
    rw [← hr, ← he, ← hl]

/-- **The first `rel` is found**: a text without one before it changes nothing, as its mark starts
with a semicolon and a space. -/
theorem rel?_append {before value : List Char}
    (hbefore : ¬['r', 'e', 'l'] <:+: before.map Char.toLower) (hne : value ≠ [])
    (hvalue : ∀ c ∈ value, inValue c = true) (inside : Bool) (after : List Char) :
    rel? inside (before ++ (relMark ++ (value ++ '"' :: after))) = some value := by
  induction before generalizing inside with
  | nil =>
    have hrel : relAt? ('r' :: 'e' :: 'l' :: '=' :: '"' :: (value ++ '"' :: after)) = some value :=
      value?_quoted hne hvalue after
    show rel? inside (';' :: ' ' :: 'r' :: 'e' :: 'l' :: '=' :: '"' :: (value ++ '"' :: after)) = _
    -- `rel` starts a word, whatever stands before the mark
    have hword : inWord ' ' = false := by decide
    have hsemicolon : inWord ';' = false := by decide
    rw [rel?, rel?, rel?, hword, hsemicolon, hrel]
    cases inside <;> rfl
  | cons c before ih =>
    have hrest : ¬['r', 'e', 'l'] <:+: before.map Char.toLower := by
      intro hrel
      exact hbefore (hrel.trans (List.suffix_cons _ _).isInfix)
    have hnone : relAt? (c :: (before ++ (relMark ++ (value ++ '"' :: after)))) = none :=
      relAt?_eq_none (not_startsRel hbefore _)
    rw [List.cons_append, rel?, ih hrest, hnone]
    cases inside <;> rfl

variable {link : Written}

theorem Written.inValue_of_mem (link : Written) : ∀ c ∈ link.relations, inValue c = true := by
  intro c hc
  have hclosed := List.all_eq_true.1 link.relations_closed c hc
  exact (Bool.and_eq_true_iff.1 hclosed).1

/-- **A link leads on as it is written**, whatever follows its parameters. -/
theorem Written.isNext_iff (link : Written) (target rest : List Char) :
    isNext ⟨target, link.parameters ++ rest⟩ = true ↔ link.LeadsOn := by
  have hrel : rel? false (link.parameters ++ rest) = some link.relations := by
    have happend := rel?_append link.before_unrelated link.relations_ne_nil link.inValue_of_mem
      false (link.after ++ rest)
    simpa [Written.parameters] using happend
  simp [isNext, hrel, Written.LeadsOn]

/-! ### Links of a text -/

/-- A link starts at the first opening bracket and its target ends at the next closing one. -/
theorem scan_of_dropWhile {rest after : List Char} (hopen : text.dropWhile (· != '<') = '<' :: rest)
    (hclose : rest.dropWhile (· != '>') = '>' :: after) :
    scan text = ⟨rest.takeWhile (· != '>'), after.takeWhile (· != '<')⟩ :: scan after := by
  rw [scan]
  split
  · next hnone => simp [hopen] at hnone
  · next d rest' hopen' =>
    rw [hopen] at hopen'
    obtain ⟨-, rfl⟩ := List.cons.inj hopen'
    split
    · next hnone => simp [hclose] at hnone
    · next d after' hclose' =>
      rw [hclose] at hclose'
      obtain ⟨-, rfl⟩ := List.cons.inj hclose'
      rfl

theorem bne_of_not_mem {c : Char} (h : c ∉ text) : ∀ d ∈ text, (d != c) = true := by
  intro d hd
  have hne : d ≠ c := by
    rintro rfl
    exact h hd
  simpa using hne

theorem dropWhile_append_of_not_mem {c : Char} {skipped : List Char} (h : c ∉ skipped)
    (text : List Char) : (skipped ++ text).dropWhile (· != c) = text.dropWhile (· != c) :=
  List.dropWhile_append_of_pos (bne_of_not_mem h)

theorem takeWhile_append_of_not_mem {c : Char} {kept : List Char} (h : c ∉ kept)
    (text : List Char) : (kept ++ text).takeWhile (· != c) = kept ++ text.takeWhile (· != c) :=
  List.takeWhile_append_of_pos (bne_of_not_mem h)

/-- **The links after one that is written** start after its parameters. -/
theorem scan_append {skipped : List Char} (hskipped : '<' ∉ skipped) (htarget : '>' ∉ target)
    (after : List Char) : scan (skipped ++ '<' :: (target ++ '>' :: after)) =
      ⟨target, after.takeWhile (· != '<')⟩ :: scan after := by
  have hopen : (skipped ++ '<' :: (target ++ '>' :: after)).dropWhile (· != '<') =
      '<' :: (target ++ '>' :: after) := by
    rw [dropWhile_append_of_not_mem hskipped, List.dropWhile_cons_of_neg (by decide)]
  have hclose : (target ++ '>' :: after).dropWhile (· != '>') = '>' :: after := by
    rw [dropWhile_append_of_not_mem htarget, List.dropWhile_cons_of_neg (by decide)]
  rw [scan_of_dropWhile hopen hclose, takeWhile_append_of_not_mem htarget,
    List.takeWhile_cons_of_neg (by decide), List.append_nil]

theorem scan_of_not_mem (h : '<' ∉ text) : scan text = [] := by
  have hopen := dropWhile_append_of_not_mem h []
  rw [List.append_nil, List.dropWhile_nil] at hopen
  rw [scan]
  split
  · rfl
  · next hsome => simp [hopen] at hsome

/-- What is found is what was written, as far as it matters. -/
def Finds (link : Written) (found : Link) : Prop :=
  found.target = link.target ∧ (isNext found = true ↔ link.LeadsOn)

theorem Written.not_mem_parameters (link : Written) : '<' ∉ link.parameters := by
  intro hmem
  simp only [Written.parameters, List.mem_append, List.mem_cons] at hmem
  rcases hmem with hmem | hmem | hmem | hmem | hmem
  · exact link.before_closed hmem
  · exact absurd hmem (by decide)
  · exact absurd (List.all_eq_true.1 link.relations_closed _ hmem) (by decide)
  · exact absurd hmem (by decide)
  · exact link.after_closed hmem

/-- The other links follow the text of the first one, after a comma if there are any. -/
theorem exists_listed_cons (link : Written) (rest : List Written) :
    ∃ comma, (comma = [] ∨ comma = [',', ' ']) ∧
      Value.listed (link :: rest) = link.text ++ (comma ++ Value.listed rest) := by
  cases rest with
  | nil => exact ⟨[], .inl rfl, by simp [Value.listed]⟩
  | cons next rest =>
    exact ⟨[',', ' '], .inr rfl, by simp [Value.listed, List.intercalate_cons_cons]⟩

/-- **The links of a text are found** in their order. -/
theorem finds_scan (links : List Written) {skipped : List Char} (h : '<' ∉ skipped) :
    List.Forall₂ Finds links (scan (skipped ++ Value.listed links)) := by
  induction links generalizing skipped with
  | nil =>
    show List.Forall₂ Finds [] (scan (skipped ++ []))
    rw [List.append_nil, scan_of_not_mem h]
    exact .nil
  | cons link rest ih =>
    obtain ⟨comma, hcomma, hlisted⟩ := exists_listed_cons link rest
    have htext : link.text ++ (comma ++ Value.listed rest) =
        '<' :: (link.target ++ '>' :: (link.parameters ++ (comma ++ Value.listed rest))) := by
      simp [Written.text]
    have hskipped : '<' ∉ link.parameters ++ comma := by
      rcases hcomma with rfl | rfl
      · simpa using link.not_mem_parameters
      · simpa using link.not_mem_parameters
    -- the next link is looked for in the parameters first, which have no opening bracket
    rw [hlisted, htext, scan_append h link.target_closed,
      takeWhile_append_of_not_mem link.not_mem_parameters, ← List.append_assoc]
    exact .cons ⟨rfl, link.isNext_iff _ _⟩ (ih hskipped)

/-! ### Links of header values -/

theorem Written.isPlain_of_mem (link : Written) : ∀ c ∈ link.text, Header.isPlain c = true := by
  intro c hc
  have hplain := List.all_eq_true.1 link.plain c
  have hmark : ∀ c ∈ relMark, Header.isPlain c = true := by simp [relMark, Header.isPlain]
  simp only [Written.text, Written.parameters, List.mem_cons, List.mem_append] at hc hplain
  rcases hc with rfl | hc | rfl | hc | hc | hc | rfl | hc
  · decide
  · exact hplain (.inl (.inl (.inl hc)))
  · decide
  · exact hplain (.inl (.inl (.inr hc)))
  · exact hmark c hc
  · exact hplain (.inl (.inr hc))
  · decide
  · exact hplain (.inr hc)

theorem isPlain_of_mem_listed (links : List Written) :
    ∀ c ∈ Value.listed links, Header.isPlain c = true := by
  induction links with
  | nil => simp [Value.listed]
  | cons link rest ih =>
    obtain ⟨comma, hcomma, hlisted⟩ := exists_listed_cons link rest
    have hplain : ∀ c ∈ comma, Header.isPlain c = true := by
      rcases hcomma with rfl | rfl
      · simp
      · simp [Header.isPlain]
    rw [hlisted]
    exact List.forall_mem_append.2 ⟨link.isPlain_of_mem, List.forall_mem_append.2 ⟨hplain, ih⟩⟩

/-- **The links of header values are found**, however they are spread over them. -/
theorem finds_values (values : List Value) : List.Forall₂ Finds (values.flatMap Value.written)
    (((values.map Value.bytes).filterMap Header.text?).flatMap scan) := by
  induction values with
  | nil => exact .nil
  | cons value values ih =>
    cases value with
    | plain links =>
      have htext : Header.text? (Value.bytes (.plain links)) = some (Value.listed links) :=
        Header.text?_encode (isPlain_of_mem_listed links)
      rw [List.map_cons, List.filterMap_cons_some htext, List.flatMap_cons, List.flatMap_cons]
      exact List.rel_append (finds_scan links (List.not_mem_nil)) ih
    | foreign bytes h =>
      have htext : Header.text? (Value.bytes (.foreign bytes h)) = none :=
        Header.text?_of_foreign h
      rw [List.map_cons, List.filterMap_cons_none htext]
      exact ih

theorem find?_eq_none_of_finds {links : List Written} {found : List Link}
    (h : List.Forall₂ Finds links found) (hlinks : ∀ link ∈ links, ¬link.LeadsOn) :
    found.find? isNext = none := by
  induction h with
  | nil => rfl
  | cons hfinds _ ih =>
    obtain ⟨hlink, hrest⟩ := List.forall_mem_cons.1 hlinks
    rw [List.find?_cons_of_neg (fun hnext => hlink (hfinds.2.1 hnext)), ih hrest]

theorem find?_eq_some_of_finds {earlier later : List Written} {found : List Link}
    (h : List.Forall₂ Finds (earlier ++ link :: later) found)
    (hearlier : ∀ other ∈ earlier, ¬other.LeadsOn) (hlink : link.LeadsOn) :
    (found.find? isNext).map Link.target = some link.target := by
  induction earlier generalizing found with
  | nil =>
    obtain _ | ⟨hfinds, _⟩ := h
    rw [List.find?_cons_of_pos (hfinds.2.2 hlink)]
    exact congrArg some hfinds.1
  | cons other earlier ih =>
    obtain _ | ⟨hfinds, hrest⟩ := h
    obtain ⟨hother, hothers⟩ := List.forall_mem_cons.1 hearlier
    rw [List.find?_cons_of_neg (fun hnext => hother (hfinds.2.1 hnext))]
    exact ih hrest hothers

/-- **Links are read back from headers.**  Whatever header values some links are spread over, and
whatever values that are not ASCII stand between them, there is no next page if none of the links
leads on.  Otherwise the next page is at the target of the first link that does, seen from the
current page, if there is such a URL, whatever links come later. -/
theorem next_written (current : Url) (values : List Value) :
    ((∀ link ∈ values.flatMap Value.written, ¬link.LeadsOn) →
      next current (values.map Value.bytes) = .ok none) ∧
    ∀ earlier link later, values.flatMap Value.written = earlier ++ link :: later →
      (∀ other ∈ earlier, ¬other.LeadsOn) → link.LeadsOn →
      next current (values.map Value.bytes) = (current.resolve link.target).map some := by
  have hfinds := finds_values values
  constructor
  · intro hlinks
    rw [next, nextTarget?, find?_eq_none_of_finds hfinds hlinks]
    rfl
  · intro earlier link later hsplit hearlier hlink
    rw [hsplit] at hfinds
    rw [next, nextTarget?, find?_eq_some_of_finds hfinds hearlier hlink]

/-! ### A link that leads on behind one that does not -/

namespace Sample

/-- The page that has the links. -/
def page : Url := .https "w" ["search"] (some "page=2")

/-- A link to the page before. -/
def back : Written where
  target := "?page=1".toList
  before := []
  relations := "prev".toList
  after := []
  target_closed := by decide
  before_closed := by decide
  after_closed := by decide
  before_unrelated := by decide
  relations_ne_nil := by decide
  relations_closed := by decide
  plain := by decide

/-- A link that has what could be taken for the end of a link in its target, and two `rel`. -/
def onwards : Written where
  target := "?q=a,b;<c\"&page=3".toList
  before := "; title=\"rem\"".toList
  relations := "last\tNEXT".toList
  after := "; rel=\"prev\"".toList
  target_closed := by decide
  before_closed := by decide
  after_closed := by decide
  before_unrelated := by decide
  relations_ne_nil := by decide
  relations_closed := by decide
  plain := by decide

theorem not_leadsOn_back : ¬back.LeadsOn := by
  unfold Written.LeadsOn
  decide +kernel

theorem leadsOn_onwards : onwards.LeadsOn := by
  unfold Written.LeadsOn
  decide +kernel

end Sample

theorem next_written_sample :
    next Sample.page ([.plain [Sample.back], .foreign [0xE9] (by decide),
        .plain [Sample.onwards, Sample.back]].map Value.bytes) =
      (Sample.page.resolve "?q=a,b;<c\"&page=3".toList).map some := by
  refine (next_written Sample.page _).2 [Sample.back] Sample.onwards [Sample.back] rfl ?_ ?_
  · simpa using Sample.not_leadsOn_back
  · exact Sample.leadsOn_onwards

end Link

end Http

end ReleaseDraft
