import Mathlib.Data.String.Basic
import ReleaseDraft.Proofs.Decoding
import ReleaseDraft.Proofs.EarlyStop
import ReleaseDraft.Proofs.Timestamps

/-!
# Selecting by the texts of dates

A timestamp is *plain* if it is in UTC and in whole seconds.  The texts of plain timestamps have
their numbers in the same places, the largest unit first and with all digits, so they are in the
order of the instants that they name (`Timestamp.text_lt_text_iff`).  A selection of pull requests
with plain timestamps is therefore one by texts (`Selection.result_eq_chosenByText`): reading stops at
the first text before that of the cutoff, texts after it are kept, and the order of texts is the
order of the result.

Beyond that only the instant counts that a text names: texts that name the same one, with whatever
offsets, can stand for each other (`PullRequest.decode_of_sameDates`).
-/

namespace ReleaseDraft

/-! ### The order of texts -/

namespace Instant

variable {w m n : Nat} {xs ys : List Char}

theorem digitsValue_cons (c : Char) (ds : List Char) :
    digitsValue (c :: ds) = 10 ^ ds.length * (c.toNat - 48) + digitsValue ds := by
  have hzero : '0'.toNat = 48 := rfl
  rw [digitsValue_eq, digitsValue_eq, Nat.ofDigitChars_cons, Nat.ofDigitChars_eq_ofDigitChars_zero,
    hzero, Nat.mul_zero, Nat.zero_add]

theorem digitsValue_lt (h : ∀ c ∈ xs, c.isDigit = true) : digitsValue xs < 10 ^ xs.length := by
  induction xs with
  | nil => decide
  | cons c xs ih =>
    obtain ⟨hc, hxs⟩ := List.forall_mem_cons.1 h
    have hdigit : c.toNat - 48 ≤ 9 := by have := toNat_of_isDigit hc; omega
    have hrest := ih hxs
    rw [digitsValue_cons, List.length_cons, pow_succ]
    calc 10 ^ xs.length * (c.toNat - 48) + digitsValue xs
        < 10 ^ xs.length * 9 + 10 ^ xs.length :=
          add_lt_add_of_le_of_lt (Nat.mul_le_mul_left _ hdigit) hrest
      _ = 10 ^ xs.length * 10 := (Nat.mul_succ _ _).symm

/-- **Digits are in the order of the numbers that they write**, if there are as many of them. -/
theorem append_lt_append_iff (hx : ∀ c ∈ xs, c.isDigit = true) (hy : ∀ c ∈ ys, c.isDigit = true)
    (hlen : xs.length = ys.length) (s t : List Char) : xs ++ s < ys ++ t ↔
      digitsValue xs < digitsValue ys ∨ digitsValue xs = digitsValue ys ∧ s < t := by
  induction xs generalizing ys with
  | nil =>
    obtain rfl : ys = [] := List.length_eq_zero_iff.1 hlen.symm
    simp
  | cons c xs ih =>
    cases ys with
    | nil => cases hlen
    | cons d ys =>
      obtain ⟨hc, hx⟩ := List.forall_mem_cons.1 hx
      obtain ⟨hd, hy⟩ := List.forall_mem_cons.1 hy
      have hlen : xs.length = ys.length := Nat.succ.inj hlen
      have hxs := digitsValue_lt hx
      have hys := digitsValue_lt hy
      rw [← hlen] at hys
      have hcn := toNat_of_isDigit hc
      have hdn := toNat_of_isDigit hd
      rw [List.cons_append, List.cons_append, List.cons_lt_cons_iff, ih hx hy hlen,
        digitsValue_cons, digitsValue_cons, ← hlen]
      -- the first digits decide, as the others are worth less than one of them
      rcases lt_trichotomy c.toNat d.toNat with hlt | heq | hgt
      · have hstep : 10 ^ xs.length * (c.toNat - 48) + 10 ^ xs.length ≤
            10 ^ xs.length * (d.toNat - 48) := by
          rw [← Nat.mul_succ]
          exact Nat.mul_le_mul_left _ (by omega)
        exact iff_of_true (.inl hlt) (.inl (by omega))
      · obtain rfl : c = d := Char.toNat_inj.1 heq
        simp
      · have hstep : 10 ^ xs.length * (d.toNat - 48) + 10 ^ xs.length ≤
            10 ^ xs.length * (c.toNat - 48) := by
          rw [← Nat.mul_succ]
          exact Nat.mul_le_mul_left _ (by omega)
        refine iff_of_false ?_ (by omega)
        rintro (hlt | ⟨rfl, -⟩)
        · exact absurd hlt (Nat.lt_asymm hgt)
        · exact absurd hgt (lt_irrefl _)

theorem padded_append_lt_iff (hw : 1 ≤ w) (hm : m < 10 ^ w) (hn : n < 10 ^ w) (s t : List Char) :
    padded w m ++ s < padded w n ++ t ↔ m < n ∨ m = n ∧ s < t := by
  have h := append_lt_append_iff (fun c => isDigit_of_mem_padded)
    (fun c => isDigit_of_mem_padded) ((length_padded hw hm).trans (length_padded hw hn).symm) s t
  rwa [digitsValue_padded, digitsValue_padded] at h

theorem two_append_lt_iff (hm : m < 100) (hn : n < 100) (s t : List Char) :
    padded 2 m ++ s < padded 2 n ++ t ↔ m < n ∨ m = n ∧ s < t :=
  padded_append_lt_iff (by decide) hm hn s t

theorem lt_iff {a b : Instant} : a < b ↔ a.secs < b.secs ∨ a.secs = b.secs ∧ a.nanos < b.nanos := by
  rw [lt_iff_key_lt, key, key, Prod.Lex.toLex_lt_toLex]

end Instant

namespace Timestamp

variable {a b : Timestamp}

/-- In UTC and in whole seconds. -/
def IsPlain (ts : Timestamp) : Prop := ts.fraction = none ∧ ts.zone = .utc

theorem instant_lt_iff (ha : a.IsPlain) (hb : b.IsPlain) : a.instant < b.instant ↔
    86400 * a.date.dayNumber + a.timeOfDay < 86400 * b.date.dayNumber + b.timeOfDay := by
  simp [Instant.lt_iff, instant, nanos, ha.1, ha.2, hb.1, hb.2, Zone.seconds]

theorem chars_of_isPlain (h : a.IsPlain) : a.chars =
    Instant.padded 4 a.date.year.toNat ++ '-' :: (Instant.padded 2 a.date.month ++
      '-' :: (Instant.padded 2 a.date.day ++ 'T' :: (Instant.padded 2 a.hour ++
      ':' :: (Instant.padded 2 a.minute ++ ':' :: (Instant.padded 2 a.second ++ ['Z']))))) := by
  simp [chars, fractionChars, h.1, h.2, Zone.chars]

theorem timeOfDay_lt_iff (a b : Timestamp) :
    a.hour.val < b.hour ∨ a.hour.val = b.hour ∧ (a.minute.val < b.minute ∨
      a.minute.val = b.minute ∧ a.second.val < b.second) ↔ a.timeOfDay < b.timeOfDay := by
  simp only [timeOfDay]
  omega

/-- Two plain texts compare like their numbers, from the year to the second. -/
theorem chars_lt_chars_iff (ha : a.IsPlain) (hb : b.IsPlain) : a.chars < b.chars ↔
    a.date.Before b.date ∨ a.date = b.date ∧ a.timeOfDay < b.timeOfDay := by
  have hyear : a.date.year.toNat < b.date.year.toNat ↔ a.date.year < b.date.year := by
    have := a.year_nonneg
    omega
  have hyear' : a.date.year.toNat = b.date.year.toNat ↔ a.date.year = b.date.year := by
    have := a.year_nonneg
    have := b.year_nonneg
    omega
  rw [chars_of_isPlain ha, chars_of_isPlain hb]
  simp only [Instant.padded_append_lt_iff (show 1 ≤ 4 by decide) a.year_lt b.year_lt,
    Instant.two_append_lt_iff a.month_lt b.month_lt, Instant.two_append_lt_iff a.day_lt b.day_lt,
    Instant.two_append_lt_iff (show a.hour.val < 100 by omega) (show b.hour.val < 100 by omega),
    Instant.two_append_lt_iff (show a.minute.val < 100 by omega) (show b.minute.val < 100 by omega),
    Instant.two_append_lt_iff (show a.second.val < 100 by omega) (show b.second.val < 100 by omega),
    List.cons_lt_cons_iff, lt_self_iff_false, true_and, false_or, and_false, or_false]
  rw [Date.Before, Date.eq_iff, timeOfDay_lt_iff, hyear, hyear']
  tauto

/-- **The texts of plain timestamps are in the order of time.** -/
theorem text_lt_text_iff (ha : a.IsPlain) (hb : b.IsPlain) :
    a.text < b.text ↔ a.instant < b.instant := by
  have htime : a.timeOfDay < 86400 ∧ b.timeOfDay < 86400 := by
    simp only [timeOfDay]
    omega
  rw [String.lt_iff, text, text, String.toList_ofList, String.toList_ofList,
    chars_lt_chars_iff ha hb, instant_lt_iff ha hb, ← Date.dayNumber_lt_iff a.isReal b.isReal]
  constructor
  · rintro (hday | ⟨hdate, htod⟩)
    · omega
    · rw [hdate]
      omega
  · intro hlt
    by_cases hday : a.date.dayNumber < b.date.dayNumber
    · exact .inl hday
    · exact .inr ⟨Date.eq_of_dayNumber_eq a.isReal b.isReal (by omega), by omega⟩

theorem text_le_text_iff (ha : a.IsPlain) (hb : b.IsPlain) :
    a.text ≤ b.text ↔ a.instant ≤ b.instant := by
  rw [← String.not_lt, text_lt_text_iff hb ha, not_lt]

theorem empty_le (s : String) : "" ≤ s := by
  rw [← String.not_lt, String.lt_iff]
  simp

theorem empty_lt_text (ts : Timestamp) : "" < ts.text := by
  obtain ⟨d, ds, hcons, -⟩ := Instant.exists_padded_eq_cons 4 ts.date.year.toNat
  rw [String.lt_iff, text, String.toList_ofList, chars, hcons]
  simp

end Timestamp

/-! ### Reading pull requests -/

namespace PullRequest

variable {ts : Timestamp} {fields fields' : List (String × Json)} {pull : PullRequest}

theorem isDate_text (ts : Timestamp) : IsDate (.string ts.text) :=
  ⟨_, _, rfl, ts.parse_text⟩

theorem updatedAt_of_decode (h : decode (.object fields) = .ok pull)
    (htext : fields.lookup "updated_at" = some (.string ts.text)) :
    pull.updatedAt = ts.instant := by
  obtain ⟨text, hfound, hparse⟩ := (decode_eq_ok_iff.1 h).updatedAt
  obtain rfl : text = ts.text := by simpa using hfound.symm.trans htext
  exact Except.ok.inj (hparse.symm.trans ts.parse_text)

theorem mergedAt_of_decode (h : decode (.object fields) = .ok pull)
    (htext : fields.lookup "merged_at" = some (.string ts.text)) :
    pull.mergedAt = some ts.instant := by
  rcases (decode_eq_ok_iff.1 h).mergedAt with ⟨habsent, -⟩ | ⟨text, date, hfound, hparse, hdate⟩
  · simp [htext] at habsent
  · obtain rfl : text = ts.text := by simpa using hfound.symm.trans htext
    rw [hdate, Except.ok.inj (hparse.symm.trans ts.parse_text)]

theorem mergedAt_of_absent (h : decode (.object fields) = .ok pull)
    (habsent : fields.lookup "merged_at" = none ∨ fields.lookup "merged_at" = some .null) :
    pull.mergedAt = none := by
  rcases (decode_eq_ok_iff.1 h).mergedAt with ⟨-, hnone⟩ | ⟨text, date, hfound, -⟩
  · exact hnone
  · simp [hfound] at habsent

/-- Two values that are the same, or the texts of timestamps that name the same instant. -/
inductive SameDate : Option Json → Option Json → Prop
  | same (found : Option Json) : SameDate found found
  | named {a b : Timestamp} {t : Instant} : a.Names t → b.Names t →
      SameDate (some (.string a.text)) (some (.string b.text))

/-- The fields of two objects agree up to the texts of dates. -/
structure SameDates (fields fields' : List (String × Json)) : Prop where
  number : fields.lookup "number" = fields'.lookup "number"
  title : fields.lookup "title" = fields'.lookup "title"
  updatedAt : SameDate (fields.lookup "updated_at") (fields'.lookup "updated_at")
  mergedAt : SameDate (fields.lookup "merged_at") (fields'.lookup "merged_at")

theorem decodeDate_text (ts : Timestamp) : decodeDate (.string ts.text) = .ok ts.instant :=
  decodeDate_eq_ok_iff.2 ⟨_, rfl, ts.parse_text⟩

theorem decodeOptionalDate_text (ts : Timestamp) :
    decodeOptionalDate (.string ts.text) = .ok (some ts.instant) :=
  decodeOptionalDate_eq_ok_iff.2 (.inr ⟨_, _, rfl, ts.parse_text, rfl⟩)

theorem decodeField_of_sameDate {α : Type} {decode : Json → Except DecodeError α}
    (hdecode : ∀ a b : Timestamp, a.instant = b.instant →
      decode (.string a.text) = decode (.string b.text))
    {key : String} (h : SameDate (fields.lookup key) (fields'.lookup key)) :
    decodeField decode key (.object fields) = decodeField decode key (.object fields') := by
  simp only [decodeField, Json.field?]
  generalize fields.lookup key = found at h
  generalize fields'.lookup key = found' at h
  cases h with
  | same => rfl
  | @named a b t ha hb =>
    have hsame : a.instant = b.instant :=
      (Timestamp.names_iff.1 ha).symm.trans (Timestamp.names_iff.1 hb)
    simp only [hdecode a b hsame]

/-- **Only the instant counts that a text names.** -/
theorem decode_of_sameDates (h : SameDates fields fields') :
    decode (.object fields) = decode (.object fields') := by
  have hupdated : decodeField decodeDate "updated_at" (.object fields) =
      decodeField decodeDate "updated_at" (.object fields') :=
    decodeField_of_sameDate (fun a b hab => by rw [decodeDate_text, decodeDate_text, hab])
      h.updatedAt
  have hmerged : decodeField decodeOptionalDate "merged_at" (.object fields) =
      decodeField decodeOptionalDate "merged_at" (.object fields') :=
    decodeField_of_sameDate
      (fun a b hab => by rw [decodeOptionalDate_text, decodeOptionalDate_text, hab]) h.mergedAt
  simp only [decode, decodeObject, hupdated, hmerged]
  simp only [decodeField, Json.field?, h.number, h.title]

end PullRequest

/-! ### Selecting -/

namespace Json

/-- The text of a field; the empty one, if there is none. -/
def textOf (key : String) (item : Json) : String := ((item.field? key).bind string?).getD ""

end Json

namespace PullRequest

variable {cutoff : Timestamp} {item item' : Json} {pull pull' : PullRequest}

/-- The item is read as a pull request, and its dates are plain timestamps. -/
structure HasPlainDates (item : Json) : Prop where
  decodes : ∃ pull, decode item = .ok pull
  updatedAt : ∃ ts : Timestamp, ts.IsPlain ∧ item.field? "updated_at" = some (.string ts.text)
  mergedAt : item.field? "merged_at" = none ∨ item.field? "merged_at" = some .null ∨
    ∃ ts : Timestamp, ts.IsPlain ∧ item.field? "merged_at" = some (.string ts.text)

theorem HasPlainDates.exists_object (h : HasPlainDates item) : ∃ fields, item = .object fields := by
  obtain ⟨ts, -, hfield⟩ := h.updatedAt
  cases item with
  | object fields => exact ⟨fields, rfl⟩
  | _ => cases hfield

theorem HasPlainDates.updatedAt_eq (h : HasPlainDates item) (hpull : decode item = .ok pull) :
    ∃ ts : Timestamp, ts.IsPlain ∧ item.textOf "updated_at" = ts.text ∧
      pull.updatedAt = ts.instant := by
  obtain ⟨fields, rfl⟩ := h.exists_object
  obtain ⟨ts, hplain, hfield⟩ := h.updatedAt
  exact ⟨ts, hplain, by simp [Json.textOf, hfield, Json.string?], updatedAt_of_decode hpull hfield⟩

theorem HasPlainDates.mergedAt_eq (h : HasPlainDates item) (hpull : decode item = .ok pull) :
    item.textOf "merged_at" = "" ∧ pull.mergedAt = none ∨
      ∃ ts : Timestamp, ts.IsPlain ∧ item.textOf "merged_at" = ts.text ∧
        pull.mergedAt = some ts.instant := by
  obtain ⟨fields, rfl⟩ := h.exists_object
  rcases h.mergedAt with hnone | hnull | ⟨ts, hplain, hfield⟩
  · exact .inl ⟨by simp [Json.textOf, hnone], mergedAt_of_absent hpull (.inl hnone)⟩
  · exact .inl ⟨by simp [Json.textOf, hnull, Json.string?], mergedAt_of_absent hpull (.inr hnull)⟩
  · exact .inr ⟨ts, hplain, by simp [Json.textOf, hfield, Json.string?],
      mergedAt_of_decode hpull hfield⟩

/-- Stopping goes by texts. -/
theorem HasPlainDates.le_updatedAt_iff (h : HasPlainDates item) (hpull : decode item = .ok pull)
    (hcutoff : cutoff.IsPlain) :
    cutoff.instant ≤ pull.updatedAt ↔ cutoff.text ≤ item.textOf "updated_at" := by
  obtain ⟨ts, hplain, htext, hdate⟩ := h.updatedAt_eq hpull
  rw [htext, hdate, Timestamp.text_le_text_iff hcutoff hplain]

/-- Keeping goes by texts. -/
theorem HasPlainDates.qualifies_iff (h : HasPlainDates item) (hpull : decode item = .ok pull)
    (hcutoff : cutoff.IsPlain) :
    Selection.Qualifies cutoff.instant pull ↔ cutoff.text < item.textOf "merged_at" := by
  rcases h.mergedAt_eq hpull with ⟨htext, hdate⟩ | ⟨ts, hplain, htext, hdate⟩
  · rw [htext]
    refine iff_of_false ?_ (lt_asymm cutoff.empty_lt_text)
    rintro ⟨date, hsome, -⟩
    cases hdate.symm.trans hsome
  · rw [htext, Timestamp.text_lt_text_iff hcutoff hplain, Selection.Qualifies, hdate]
    simp

/-- Sorting goes by texts. -/
theorem HasPlainDates.mergedBefore_eq (h : HasPlainDates item) (hpull : decode item = .ok pull)
    (h' : HasPlainDates item') (hpull' : decode item' = .ok pull') :
    Selection.mergedBefore pull pull' =
      decide (item.textOf "merged_at" ≤ item'.textOf "merged_at") := by
  rcases h.mergedAt_eq hpull with ⟨htext, hdate⟩ | ⟨ts, hplain, htext, hdate⟩
  · simp [Selection.mergedBefore, htext, hdate, Timestamp.empty_le]
  · rcases h'.mergedAt_eq hpull' with ⟨htext', hdate'⟩ | ⟨ts', hplain', htext', hdate'⟩
    · simp [Selection.mergedBefore, htext, hdate, htext', hdate', ts.empty_lt_text]
    · simp [Selection.mergedBefore, htext, hdate, htext', hdate',
        Timestamp.text_le_text_iff hplain hplain']

end PullRequest

namespace Selection

variable {cutoff : Instant} {all pulls : List PullRequest} {ending : Ending} {items : List Json}

/-- What is selected of some items by the texts of their dates alone: the items before the first one
updated before the cutoff, of them those merged after it, in the order of their merge. -/
def chosenByText (cutoff : String) (items : List Json) : List Json :=
  ((items.takeWhile fun item => cutoff ≤ item.textOf "updated_at").filter fun item =>
    cutoff < item.textOf "merged_at").mergeSort fun a b => a.textOf "merged_at" ≤ b.textOf "merged_at"

/-- Pull requests are read as long as they were not last updated before the cutoff. -/
theorem Reads.eq_takeWhile (h : Reads cutoff (all.map .ok) pulls ending) :
    pulls = all.takeWhile fun p => cutoff ≤ p.updatedAt := by
  induction all generalizing pulls with
  | nil =>
    cases h
    rfl
  | cons p all ih =>
    cases h with
    | stale hstale => simp [hstale]
    | fresh hfresh h => simp [not_lt.1 hfresh, ← ih h]

theorem result_ofList_ok (cutoff : Instant) (all : List PullRequest) :
    (ofList cutoff (all.map .ok)).result =
      .ok (sorted ((all.takeWhile fun p => cutoff ≤ p.updatedAt).filter (Qualifies cutoff ·))) := by
  obtain ⟨pulls, ending, hreads⟩ := exists_reads cutoff (all.map .ok)
  rw [hreads.result_ofList, outcomeAt_eq_ok hreads.not_failed, hreads.eq_takeWhile, keptOf]

theorem takeWhile_congr {α : Type} {p q : α → Bool} {xs : List α} (h : ∀ x ∈ xs, p x = q x) :
    xs.takeWhile p = xs.takeWhile q := by
  induction xs with
  | nil => rfl
  | cons x xs ih =>
    obtain ⟨hx, hxs⟩ := List.forall_mem_cons.1 h
    rw [List.takeWhile_cons, List.takeWhile_cons, hx, ih hxs]

theorem mem_of_mem_chosenByText {cutoff : String} {item : Json}
    (h : item ∈ chosenByText cutoff items) : item ∈ items :=
  (List.takeWhile_subset _) (List.mem_of_mem_filter (List.mem_mergeSort.1 h))

/-- The pull requests that are selected by instants are those that are selected by texts. -/
theorem sorted_eq_map_chosenByText {cutoff : Timestamp} {pullOf : Json → PullRequest}
    (hcutoff : cutoff.IsPlain) (hitems : ∀ item ∈ items, PullRequest.HasPlainDates item)
    (hpullOf : ∀ item ∈ items, PullRequest.decode item = .ok (pullOf item)) :
    sorted (((items.map pullOf).takeWhile fun p => cutoff.instant ≤ p.updatedAt).filter
      (Qualifies cutoff.instant ·)) = (chosenByText cutoff.text items).map pullOf := by
  rw [List.takeWhile_map, List.filter_map, sorted, chosenByText]
  have hstop : items.takeWhile
        ((fun p : PullRequest => decide (cutoff.instant ≤ p.updatedAt)) ∘ pullOf) =
      items.takeWhile fun item => decide (cutoff.text ≤ item.textOf "updated_at") :=
    takeWhile_congr fun item hmem => decide_eq_decide.2
      ((hitems item hmem).le_updatedAt_iff (hpullOf item hmem) hcutoff)
  rw [hstop]
  have hread : ∀ item ∈ items.takeWhile fun item => cutoff.text ≤ item.textOf "updated_at",
      item ∈ items := fun item hmem => List.takeWhile_subset _ hmem
  generalize items.takeWhile (fun item => decide (cutoff.text ≤ item.textOf "updated_at")) =
    read at hread
  have hkeep : read.filter ((fun p => decide (Qualifies cutoff.instant p)) ∘ pullOf) =
      read.filter fun item => decide (cutoff.text < item.textOf "merged_at") :=
    List.filter_congr fun item hmem => decide_eq_decide.2
      ((hitems item (hread item hmem)).qualifies_iff (hpullOf item (hread item hmem)) hcutoff)
  rw [hkeep, List.map_mergeSort]
  intro a ha b hb
  have ha := hread a (List.mem_of_mem_filter ha)
  have hb := hread b (List.mem_of_mem_filter hb)
  exact ((hitems a ha).mergedBefore_eq (hpullOf a ha) (hitems b hb) (hpullOf b hb)).symm

/-- **A selection with plain timestamps is one by texts.** -/
theorem result_eq_chosenByText {cutoff : Timestamp} (hcutoff : cutoff.IsPlain)
    (hitems : ∀ item ∈ items, PullRequest.HasPlainDates item) :
    ∃ pulls, (ofList cutoff.instant (items.map fun item => Listing.asPull (.ok item))).result =
        .ok pulls ∧
      (chosenByText cutoff.text items).map PullRequest.decode = pulls.map .ok := by
  have hdecodes : ∀ item, ∃ pull, item ∈ items → PullRequest.decode item = .ok pull := by
    intro item
    by_cases hmem : item ∈ items
    · obtain ⟨pull, hpull⟩ := (hitems item hmem).decodes
      exact ⟨pull, fun _ => hpull⟩
    · exact ⟨⟨0, "", ⟨0, 0⟩, none⟩, fun h => absurd h hmem⟩
  choose pullOf hpullOf using hdecodes
  have hpulls : items.map (fun item => Listing.asPull (.ok item)) =
      (items.map pullOf).map .ok := by
    rw [List.map_map]
    refine List.map_congr_left fun item hmem => ?_
    rw [Listing.asPull_ok, hpullOf item hmem]
    rfl
  refine ⟨(chosenByText cutoff.text items).map pullOf, ?_, ?_⟩
  · rw [hpulls, result_ofList_ok, sorted_eq_map_chosenByText hcutoff hitems hpullOf]
  · rw [List.map_map]
    exact List.map_congr_left fun item hmem => hpullOf item (mem_of_mem_chosenByText hmem)

/-- Two elements of a listing that are the same up to the texts of dates. -/
inductive SameItem : Listed → Listed → Prop
  | same (x : Listed) : SameItem x x
  | object {fields fields'} : PullRequest.SameDates fields fields' →
      SameItem (.ok (.object fields)) (.ok (.object fields'))

theorem SameItem.asPull_eq {x y : Listed} (h : SameItem x y) :
    Listing.asPull x = Listing.asPull y := by
  cases h with
  | same => rfl
  | object h => rw [Listing.asPull_ok, Listing.asPull_ok, PullRequest.decode_of_sameDates h]

theorem ofList_of_sameItems {xs ys : List Listed} (h : List.Forall₂ SameItem xs ys) :
    ofList cutoff (xs.map Listing.asPull) = ofList cutoff (ys.map Listing.asPull) := by
  have hpulls : xs.map Listing.asPull = ys.map Listing.asPull := by
    induction h with
    | nil => rfl
    | cons hitem _ ih => rw [List.map_cons, List.map_cons, hitem.asPull_eq, ih]
  rw [hpulls]

end Selection

namespace Timestamp

/-- **Timestamps stand for true instants.**  Every timestamp names one instant, by the days of the
calendar from 1970-01-01, the time of day and the offset.  A pull request with the text of a
timestamp for a date is read with the instant that it names, and a text in the place of the last
update is never what keeps it from being read.  In UTC and in whole seconds the order of texts is the
order of instants, so that a selection can be made by texts.  Texts that name the same instant can
stand for each other in every selection. -/
theorem stands_for_instant :
    (∀ ts : Timestamp, ∃! t, ts.Names t) ∧
    (∀ (ts : Timestamp) (t : Instant) (fields : List (String × Json)), ts.Names t →
      fields.lookup "updated_at" = some (.string ts.text) →
      ((∃ pull, PullRequest.decode (.object fields) = .ok pull) ↔
        (∃ n : Nat, n < 18446744073709551616 ∧ fields.lookup "number" = some (.integer n)) ∧
        (∃ title, fields.lookup "title" = some (.string title)) ∧
        ∀ value, fields.lookup "merged_at" = some value →
          value = .null ∨ PullRequest.IsDate value) ∧
      ∀ pull, PullRequest.decode (.object fields) = .ok pull → pull.updatedAt = t) ∧
    (∀ (ts : Timestamp) (t : Instant) (fields : List (String × Json)) (pull : PullRequest),
      ts.Names t → fields.lookup "merged_at" = some (.string ts.text) →
      PullRequest.decode (.object fields) = .ok pull → pull.mergedAt = some t) ∧
    (∀ (a b : Timestamp) (t u : Instant), a.IsPlain → b.IsPlain → a.Names t → b.Names u →
      (a.text < b.text ↔ t < u)) ∧
    (∀ (cutoff : Timestamp) (t : Instant) (items : List Json), cutoff.IsPlain → cutoff.Names t →
      (∀ item ∈ items, PullRequest.HasPlainDates item) →
      ∃ pulls, (Selection.ofList t (items.map fun item => Listing.asPull (.ok item))).result =
          .ok pulls ∧
        (Selection.chosenByText cutoff.text items).map PullRequest.decode = pulls.map .ok) ∧
    ∀ (cutoff : Instant) (xs ys : List Listed), List.Forall₂ Selection.SameItem xs ys →
      Selection.ofList cutoff (xs.map Listing.asPull) =
        Selection.ofList cutoff (ys.map Listing.asPull) := by
  refine ⟨fun ts => ⟨ts.instant, names_iff.2 rfl, fun t => names_iff.1⟩, ?_, ?_, ?_, ?_,
    fun cutoff xs ys => Selection.ofList_of_sameItems⟩
  · intro ts t fields hnames htext
    obtain rfl := names_iff.1 hnames
    refine ⟨?_, fun pull hpull => PullRequest.updatedAt_of_decode hpull htext⟩
    rw [PullRequest.exists_decode_iff]
    simp [htext, PullRequest.isDate_text]
  · intro ts t fields pull hnames htext hpull
    obtain rfl := names_iff.1 hnames
    exact PullRequest.mergedAt_of_decode hpull htext
  · intro a b t u ha hb ht hu
    rw [names_iff.1 ht, names_iff.1 hu]
    exact text_lt_text_iff ha hb
  · intro cutoff t items hcutoff hnames hitems
    rw [names_iff.1 hnames]
    exact Selection.result_eq_chosenByText hcutoff hitems

/-- Half an hour before midnight on a leap day, behind UTC. -/
def leapDay : Timestamp :=
  ⟨⟨2024, 2, 29⟩, Date.isValid_iff.1 rfl, by decide, by decide, 23, 30, 0,
    some ⟨2, 25, by decide, by decide, by decide⟩, .behind 1 30⟩

/-- The same instant in UTC. -/
def leapDayInUtc : Timestamp :=
  ⟨⟨2024, 3, 1⟩, Date.isValid_iff.1 rfl, by decide, by decide, 1, 0, 0,
    some ⟨3, 250, by decide, by decide, by decide⟩, .utc⟩

/-- The last second before 1970. -/
def beforeEpoch : Timestamp :=
  ⟨⟨1969, 12, 31⟩, Date.isValid_iff.1 rfl, by decide, by decide, 23, 59, 59, none, .utc⟩

/-- A pull request that was last updated at a timestamp, and not merged. -/
def updatedItem (ts : Timestamp) : List (String × Json) :=
  [("number", .integer 7), ("title", .string "Fix"), ("updated_at", .string ts.text)]

theorem stands_for_instant_leapDay :
    leapDay.text = "2024-02-29T23:30:00.25-01:30" ∧
    leapDayInUtc.text = "2024-03-01T01:00:00.250Z" ∧
    beforeEpoch.text = "1969-12-31T23:59:59Z" ∧
    (∃ pull, PullRequest.decode (.object leapDay.updatedItem) = .ok pull ∧
      pull.updatedAt = ⟨1709254800, 250000000⟩) ∧
    (∃ pulls, (Selection.ofList ⟨-1, 0⟩
        ([.object beforeEpoch.updatedItem].map fun item => Listing.asPull (.ok item))).result =
        .ok pulls ∧
      (Selection.chosenByText beforeEpoch.text [.object beforeEpoch.updatedItem]).map
        PullRequest.decode = pulls.map .ok) ∧
    Selection.ofList ⟨1709254800, 0⟩ [Listing.asPull (.ok (.object leapDay.updatedItem))] =
      Selection.ofList ⟨1709254800, 0⟩
        [Listing.asPull (.ok (.object leapDayInUtc.updatedItem))] := by
  obtain ⟨-, hdecode, -, -, hselect, hsame⟩ := stands_for_instant
  have hnames : leapDay.Names ⟨1709254800, 250000000⟩ := names_iff.2 (by decide)
  have hnames' : leapDayInUtc.Names ⟨1709254800, 250000000⟩ := names_iff.2 (by decide)
  refine ⟨by decide, by decide, by decide, ?_, ?_, ?_⟩
  · obtain ⟨hreads, hupdated⟩ := hdecode leapDay _ leapDay.updatedItem hnames rfl
    obtain ⟨pull, hpull⟩ := hreads.2 ⟨⟨7, by decide, rfl⟩, ⟨"Fix", rfl⟩, fun value h => by cases h⟩
    exact ⟨pull, hpull, hupdated pull hpull⟩
  · refine hselect beforeEpoch _ _ ⟨rfl, rfl⟩ (names_iff.2 (by decide)) fun item hitem => ?_
    obtain rfl := List.mem_singleton.1 hitem
    exact ⟨⟨⟨7, "Fix", ⟨-1, 0⟩, none⟩, rfl⟩, ⟨beforeEpoch, ⟨rfl, rfl⟩, rfl⟩, .inl rfl⟩
  · refine hsame _ [.ok (.object leapDay.updatedItem)] [.ok (.object leapDayInUtc.updatedItem)]
      (.cons (.object ⟨rfl, rfl, ?_, .same _⟩) .nil)
    exact .named hnames hnames'

end Timestamp

end ReleaseDraft
