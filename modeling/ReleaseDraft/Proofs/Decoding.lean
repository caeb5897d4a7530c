import ReleaseDraft.Proofs.Pagination

/-!
# What is read of a pull request

A pull request is read from four fields of an object, and from nothing else
(`PullRequest.decode_eq_ok_iff`, `PullRequest.decode_congr`).  Of a value that has the wrong type, a
fault says no more than its kind; so what lies deeper in the four fields has no influence on the
wording of a fault either (`PullRequest.reported_decode_congr`).

Items are read one by one, as a consumer asks for them.  A consumer that collects pull requests goes
through the same states as one that collects the elements of the listing, up to reading them
(`Listing.read_map`); so an item that is no pull request is a fault in its place, and all other
elements and all requests are what they would be without it.
-/

namespace ReleaseDraft

/-! ### Fields of an object -/

namespace Json

variable {key other : String} {fields : List (String × Json)}

/-- The value with nothing in its containers. -/
def outline : Json → Json
  | array _ => array []
  | object _ => object []
  | value => value

theorem lookup_setField_of_ne (h : other ≠ key) (value : Json) (fields : List (String × Json)) :
    (setField key value fields).lookup other = fields.lookup other := by
  have hkey : (other == key) = false := beq_false_of_ne h
  induction fields with
  | nil => simp [setField, List.lookup_cons, hkey]
  | cons field rest ih =>
    obtain ⟨k, v⟩ := field
    rw [setField]
    split_ifs with hlt heq
    · simp [List.lookup_cons, hkey]
    · subst heq
      simp [List.lookup_cons, hkey]
    · simp [List.lookup_cons, ih]

theorem lookup_filter_of_ne (h : other ≠ key) (fields : List (String × Json)) :
    (fields.filter (·.1 != key)).lookup other = fields.lookup other := by
  induction fields with
  | nil => rfl
  | cons field rest ih =>
    obtain ⟨k, v⟩ := field
    by_cases hk : k = key
    · subst hk
      simp [List.lookup_cons, beq_false_of_ne h, ih]
    · simp [List.lookup_cons, hk, ih]

end Json

/-! ### Reading an object -/

namespace PullRequest

variable {α β : Type} {fields fields' : List (String × Json)} {pull : PullRequest}

/-- The keys of the fields that are read. -/
def keys : List String := ["number", "title", "updated_at", "merged_at"]

/-- A string that the reader of dates accepts. -/
def IsDate (value : Json) : Prop :=
  ∃ text date, value = .string text ∧ Instant.parse text = .ok date

/-- The fields of an object describe a pull request. -/
structure Describes (fields : List (String × Json)) (pull : PullRequest) : Prop where
  number : fields.lookup "number" = some (.integer pull.number)
  number_lt : pull.number < 18446744073709551616
  title : fields.lookup "title" = some (.string pull.title)
  updatedAt : ∃ text, fields.lookup "updated_at" = some (.string text) ∧
    Instant.parse text = .ok pull.updatedAt
  mergedAt : (fields.lookup "merged_at" = none ∨ fields.lookup "merged_at" = some .null) ∧
      pull.mergedAt = none ∨
    ∃ text date, fields.lookup "merged_at" = some (.string text) ∧
      Instant.parse text = .ok date ∧ pull.mergedAt = some date

theorem bind_eq_ok_iff {x : Except DecodeError α} {f : α → Except DecodeError β} {b : β} :
    x >>= f = .ok b ↔ ∃ a, x = .ok a ∧ f a = .ok b := by
  cases x with
  | error e => simp [bind, Except.bind]
  | ok a => simp [bind, Except.bind]

theorem map_eq_ok_iff {x : Except DecodeError α} {f : α → β} {b : β} :
    x.map f = .ok b ↔ ∃ a, x = .ok a ∧ b = f a := by
  cases x with
  | error e => simp [Except.map]
  | ok a => simp [Except.map, eq_comm]

theorem decodeNumber_eq_ok_iff {value : Json} {n : Nat} :
    decodeNumber value = .ok n ↔ value = .integer n ∧ n < 18446744073709551616 := by
  cases value with
  | integer value =>
    cases value with
    | ofNat m =>
      rw [decodeNumber, numberLimit]
      split_ifs with hm
      · simp only [Except.ok.injEq, Json.integer.injEq, Int.ofNat_eq_natCast, Int.natCast_inj]
        exact ⟨fun h => ⟨h, h ▸ hm⟩, And.left⟩
      · simp only [Json.integer.injEq, Int.ofNat_eq_natCast, Int.natCast_inj, false_iff]
        exact fun h => hm (h.1 ▸ h.2)
    | negSucc m => simp [decodeNumber]
  | _ => simp [decodeNumber]

theorem decodeTitle_eq_ok_iff {value : Json} {title : String} :
    decodeTitle value = .ok title ↔ value = .string title := by
  cases value <;> simp [decodeTitle]

theorem decodeDate_eq_ok_iff {value : Json} {date : Instant} :
    decodeDate value = .ok date ↔ ∃ text, value = .string text ∧ Instant.parse text = .ok date := by
  cases value with
  | string text =>
    cases hparse : Instant.parse text with
    | error e => simp [decodeDate, hparse, Except.mapError]
    | ok d => simp [decodeDate, hparse, Except.mapError]
  | _ => simp [decodeDate]

theorem decodeOptionalDate_eq_ok_iff {value : Json} {date : Option Instant} :
    decodeOptionalDate value = .ok date ↔ value = .null ∧ date = none ∨
      ∃ text d, value = .string text ∧ Instant.parse text = .ok d ∧ date = some d := by
  cases value with
  | null => simp [decodeOptionalDate, eq_comm]
  | _ => simp [decodeOptionalDate, map_eq_ok_iff, decodeDate_eq_ok_iff]

theorem decodeField_eq_ok_iff {decode : Json → Except DecodeError α} {key : String}
    {found : Option α} : decodeField decode key (.object fields) = .ok found ↔
      fields.lookup key = none ∧ found = none ∨
        ∃ value a, fields.lookup key = some value ∧ decode value = .ok a ∧ found = some a := by
  simp only [decodeField, Json.field?]
  cases fields.lookup key with
  | none => simp [eq_comm]
  | some value => simp [map_eq_ok_iff]

theorem required_eq_ok_iff {key : String} {found : Option α} {a : α} :
    required key found = .ok a ↔ found = some a := by
  cases found with
  | none => simp [required]
  | some a => simp [required]

/-- A field that may not be absent is present and can be read. -/
theorem decodeField_eq_some_iff {decode : Json → Except DecodeError α} {key : String} {a : α} :
    decodeField decode key (.object fields) = .ok (some a) ↔
      ∃ value, fields.lookup key = some value ∧ decode value = .ok a := by
  simp [decodeField_eq_ok_iff]

/-- The date of merge may be absent. -/
theorem decodeField_mergedAt_iff {date : Option Instant} :
    (∃ found, decodeField decodeOptionalDate "merged_at" (.object fields) = .ok found ∧
      found.join = date) ↔
    (fields.lookup "merged_at" = none ∨ fields.lookup "merged_at" = some .null) ∧ date = none ∨
      ∃ text d, fields.lookup "merged_at" = some (.string text) ∧ Instant.parse text = .ok d ∧
        date = some d := by
  simp only [decodeField_eq_ok_iff, decodeOptionalDate_eq_ok_iff]
  constructor
  · rintro ⟨_, ⟨habsent, rfl⟩ |
      ⟨value, a, hvalue, ⟨rfl, rfl⟩ | ⟨text, d, rfl, hparse, rfl⟩, rfl⟩, rfl⟩
    · exact .inl ⟨.inl habsent, rfl⟩
    · exact .inl ⟨.inr hvalue, rfl⟩
    · exact .inr ⟨text, d, hvalue, hparse, rfl⟩
  · rintro (⟨habsent | hnull, rfl⟩ | ⟨text, d, hvalue, hparse, rfl⟩)
    · exact ⟨none, .inl ⟨habsent, rfl⟩, rfl⟩
    · exact ⟨some none, .inr ⟨_, _, hnull, .inl ⟨rfl, rfl⟩, rfl⟩, rfl⟩
    · exact ⟨some (some d), .inr ⟨_, _, hvalue, .inr ⟨text, d, rfl, hparse, rfl⟩, rfl⟩, rfl⟩

/-- **An object is a pull request exactly if its fields describe one.** -/
theorem decode_eq_ok_iff : decode (.object fields) = .ok pull ↔ Describes fields pull := by
  simp only [decode, decodeObject, bind_eq_ok_iff, required_eq_ok_iff, pure, Except.pure,
    Except.ok.injEq]
  constructor
  · rintro ⟨found, hmerged, _, hnumber, _, htitle, _, hupdated, number, rfl, title, rfl,
      updatedAt, rfl, rfl⟩
    obtain ⟨_, hnumber, hn⟩ := decodeField_eq_some_iff.1 hnumber
    obtain ⟨_, htitle, ht⟩ := decodeField_eq_some_iff.1 htitle
    obtain ⟨_, hupdated, hu⟩ := decodeField_eq_some_iff.1 hupdated
    obtain ⟨rfl, hlt⟩ := decodeNumber_eq_ok_iff.1 hn
    obtain rfl := decodeTitle_eq_ok_iff.1 ht
    obtain ⟨text, rfl, hparse⟩ := decodeDate_eq_ok_iff.1 hu
    exact ⟨hnumber, hlt, htitle, ⟨text, hupdated, hparse⟩,
      decodeField_mergedAt_iff.1 ⟨found, hmerged, rfl⟩⟩
  · rintro ⟨hnumber, hlt, htitle, ⟨text, hupdated, hparse⟩, hmerged⟩
    obtain ⟨found, hmerged, hjoin⟩ := decodeField_mergedAt_iff.2 hmerged
    refine ⟨found, hmerged, some pull.number, ?_, some pull.title, ?_, some pull.updatedAt, ?_,
      pull.number, rfl, pull.title, rfl, pull.updatedAt, rfl, ?_⟩
    · exact decodeField_eq_some_iff.2 ⟨_, hnumber, decodeNumber_eq_ok_iff.2 ⟨rfl, hlt⟩⟩
    · exact decodeField_eq_some_iff.2 ⟨_, htitle, decodeTitle_eq_ok_iff.2 rfl⟩
    · exact decodeField_eq_some_iff.2 ⟨_, hupdated, decodeDate_eq_ok_iff.2 ⟨text, rfl, hparse⟩⟩
    · rw [hjoin]

/-- There is a pull request in an object exactly if each of the four fields is as it has to be. -/
theorem exists_decode_iff : (∃ pull, decode (.object fields) = .ok pull) ↔
    (∃ n : Nat, n < 18446744073709551616 ∧ fields.lookup "number" = some (.integer n)) ∧
    (∃ title, fields.lookup "title" = some (.string title)) ∧
    (∃ value, fields.lookup "updated_at" = some value ∧ IsDate value) ∧
    ∀ value, fields.lookup "merged_at" = some value → value = .null ∨ IsDate value := by
  simp only [decode_eq_ok_iff]
  constructor
  · rintro ⟨pull, h⟩
    obtain ⟨text, hupdated, hparse⟩ := h.updatedAt
    refine ⟨⟨_, h.number_lt, h.number⟩, ⟨_, h.title⟩, ⟨_, hupdated, text, _, rfl, hparse⟩, ?_⟩
    intro value hvalue
    rcases h.mergedAt with ⟨hnone | hnull, -⟩ | ⟨text, date, hmerged, hdate, -⟩
    · cases hnone.symm.trans hvalue
    · exact .inl (Option.some.inj (hvalue.symm.trans hnull))
    · exact .inr ⟨text, date, Option.some.inj (hvalue.symm.trans hmerged), hdate⟩
  · rintro ⟨⟨n, hlt, hnumber⟩, ⟨title, htitle⟩, ⟨_, hupdated, text, date, rfl, hparse⟩, hmerged⟩
    cases hfound : fields.lookup "merged_at" with
    | none => exact ⟨⟨n, title, date, none⟩, hnumber, hlt, htitle, ⟨text, hupdated, hparse⟩,
        .inl ⟨.inl hfound, rfl⟩⟩
    | some value =>
      rcases hmerged value hfound with rfl | ⟨text', date', rfl, hparse'⟩
      · exact ⟨⟨n, title, date, none⟩, hnumber, hlt, htitle, ⟨text, hupdated, hparse⟩,
          .inl ⟨.inr hfound, rfl⟩⟩
      · exact ⟨⟨n, title, date, some date'⟩, hnumber, hlt, htitle, ⟨text, hupdated, hparse⟩,
          .inr ⟨text', date', hfound, hparse', rfl⟩⟩

/-! ### What an object is not read for -/

/-- Objects that agree in the four fields are read alike. -/
theorem decode_congr (h : ∀ key ∈ keys, fields.lookup key = fields'.lookup key) :
    decode (.object fields) = decode (.object fields') := by
  have hnumber := h "number" (by simp [keys])
  have htitle := h "title" (by simp [keys])
  have hupdated := h "updated_at" (by simp [keys])
  have hmerged := h "merged_at" (by simp [keys])
  simp only [decode, decodeObject, decodeField, Json.field?, hnumber, htitle, hupdated, hmerged]

/-- What is reported of reading: a result, or a fault in words. -/
def reported (x : Except DecodeError α) : Except String α := x.mapError DecodeError.message

theorem reported_bind (x : Except DecodeError α) (f : α → Except DecodeError β) :
    reported (x >>= f) = reported x >>= fun a => reported (f a) := by
  cases x with
  | error e => rfl
  | ok a => rfl

theorem reported_map (x : Except DecodeError α) (f : α → β) :
    reported (x.map f) = (reported x).map f := by
  cases x with
  | error e => rfl
  | ok a => rfl

/-- What is reported depends on the outline of a value only. -/
def IsShallow (decode : Json → Except DecodeError α) : Prop :=
  ∀ value, reported (decode value.outline) = reported (decode value)

theorem isShallow_decodeNumber : IsShallow decodeNumber := by
  intro value
  cases value <;> rfl

theorem isShallow_decodeTitle : IsShallow decodeTitle := by
  intro value
  cases value <;> rfl

theorem isShallow_decodeDate : IsShallow decodeDate := by
  intro value
  cases value <;> rfl

theorem isShallow_decodeOptionalDate : IsShallow decodeOptionalDate := by
  intro value
  cases value <;> rfl

theorem reported_decodeField {decode : Json → Except DecodeError α} (hdecode : IsShallow decode)
    {key : String}
    (h : (fields.lookup key).map Json.outline = (fields'.lookup key).map Json.outline) :
    reported (decodeField decode key (.object fields)) =
      reported (decodeField decode key (.object fields')) := by
  simp only [decodeField, Json.field?]
  cases hv : fields.lookup key with
  | none =>
    rw [hv, Option.map_none, eq_comm, Option.map_eq_none_iff] at h
    rw [h]
  | some value =>
    rw [hv, Option.map_some, eq_comm, Option.map_eq_some_iff] at h
    obtain ⟨value', hv', houtline⟩ := h
    rw [hv']
    simp only [reported_map]
    rw [← hdecode value, ← houtline, hdecode value']

/-- **Objects that agree in the four fields up to what lies deeper** are read alike, faults and
their wording included. -/
theorem reported_decode_congr (h : ∀ key ∈ keys,
    (fields.lookup key).map Json.outline = (fields'.lookup key).map Json.outline) :
    reported (decode (.object fields)) = reported (decode (.object fields')) := by
  have hnumber := reported_decodeField isShallow_decodeNumber (h "number" (by simp [keys]))
  have htitle := reported_decodeField isShallow_decodeTitle (h "title" (by simp [keys]))
  have hupdated := reported_decodeField isShallow_decodeDate (h "updated_at" (by simp [keys]))
  have hmerged := reported_decodeField isShallow_decodeOptionalDate (h "merged_at" (by simp [keys]))
  simp only [decode, decodeObject, reported_bind, hnumber, htitle, hupdated, hmerged]

end PullRequest

/-! ### Reading a listing -/

namespace Listing

variable {σ τ : Type} {net : Http.Network} {headers : Http.Headers} {visit : Visit σ Listed}
  {visit' : Visit τ Listed}

/-- The first `count` pull requests of a listing. -/
def takePulls (net : Http.Network) (headers : Http.Headers) (limit count : Nat) (start : Url) :
    Option (List (Except Error PullRequest) × Trace) :=
  if count = 0 then some ([], .empty)
  else read net headers ((Visit.collect count).contramap asPull) limit (.start start) [] .empty

/-- A consumer whose states are those of another one, seen through `g`, reads alike. -/
theorem read_map (g : σ → τ)
    (h : ∀ s x, visit' (g s) x =
      match visit s x with
      | .more t => .more (g t)
      | .done t => .done (g t))
    (limit : Nat) (cursor : Cursor) (s : σ) (trace : Trace) :
    read net headers visit' limit cursor (g s) trace =
      (read net headers visit limit cursor s trace).map fun r => (g r.1, r.2) := by
  -- both pull the same elements, so only their states differ
  fun_induction read net headers visit limit cursor s trace with
  | case1 limit cursor s trace hpull =>
    rw [read_eq, hpull]
    rfl
  | case2 limit cursor s trace trace' hpull =>
    rw [read_eq, hpull]
    rfl
  | case3 limit cursor s trace value rest left trace' hpull t hvisit =>
    simp only [read_eq, hpull, h, hvisit]
    rfl
  | case4 limit cursor s trace value rest left trace' hpull t hvisit ih =>
    rw [read_eq, hpull]
    simp only [h, hvisit]
    exact ih

/-- The first pull requests of a listing are its first elements, each read by itself. -/
theorem takePulls_eq (net : Http.Network) (headers : Http.Headers) (limit count : Nat)
    (first : Url) : takePulls net headers limit count first =
      (take net headers limit count first).map fun taken => (taken.1.map asPull, taken.2) := by
  unfold takePulls take
  split_ifs with hcount
  · rfl
  · refine read_map (List.map asPull) (fun taken x => ?_) limit (.start first) [] .empty
    simp only [Visit.contramap, Visit.collect, List.length_append, List.length_map,
      List.length_singleton]
    split_ifs <;> simp

theorem asPull_ok (item : Json) : asPull (.ok item) =
    match PullRequest.decode item with
    | .ok pull => .ok pull
    | .error cause => .error (.decoding cause) := by
  simp only [asPull]
  cases PullRequest.decode item with
  | error cause => rfl
  | ok pull => rfl

/-- **A pull request is read from its four fields alone, and faults stay in their place.**  An
object is a pull request exactly if each of the four fields is as it has to be, and then number and
title are those of the fields.  Other fields, and what lies deeper in the four, make no difference,
not even to the wording of a fault.  The pull requests of a listing are its elements one by one,
after the same requests: an error stays as it is, and an item that is no pull request becomes an
error without any effect on the other elements. -/
theorem pulls_isolated :
    (∀ fields, (∃ pull, PullRequest.decode (.object fields) = .ok pull) ↔
      (∃ n : Nat, n < 18446744073709551616 ∧ fields.lookup "number" = some (.integer n)) ∧
      (∃ title, fields.lookup "title" = some (.string title)) ∧
      (∃ value, fields.lookup "updated_at" = some value ∧ PullRequest.IsDate value) ∧
      ∀ value, fields.lookup "merged_at" = some value →
        value = .null ∨ PullRequest.IsDate value) ∧
    (∀ fields pull, PullRequest.decode (.object fields) = .ok pull ↔
      PullRequest.Describes fields pull) ∧
    (∀ fields fields' : List (String × Json),
      (∀ key ∈ ["number", "title", "updated_at", "merged_at"],
        (fields.lookup key).map Json.outline = (fields'.lookup key).map Json.outline) →
      PullRequest.reported (PullRequest.decode (.object fields)) =
        PullRequest.reported (PullRequest.decode (.object fields'))) ∧
    (∀ fields key value, key ∉ ["number", "title", "updated_at", "merged_at"] →
      PullRequest.decode (.object (Json.setField key value fields)) =
        PullRequest.decode (.object fields) ∧
      PullRequest.decode (.object (fields.filter (·.1 != key))) =
        PullRequest.decode (.object fields)) ∧
    (∀ net headers limit count first, takePulls net headers limit count first =
      (take net headers limit count first).map fun taken => (taken.1.map asPull, taken.2)) ∧
    (∀ e, asPull (.error e) = .error e) ∧
    ∀ item, asPull (.ok item) =
      match PullRequest.decode item with
      | .ok pull => .ok pull
      | .error cause => .error (.decoding cause) := by
  refine ⟨fun fields => PullRequest.exists_decode_iff, fun fields pull =>
    PullRequest.decode_eq_ok_iff, fun fields fields' => PullRequest.reported_decode_congr, ?_,
    takePulls_eq, fun e => rfl, asPull_ok⟩
  intro fields key value hkey
  have hne : ∀ other ∈ PullRequest.keys, other ≠ key := fun other hother heq => hkey (heq ▸ hother)
  exact ⟨PullRequest.decode_congr fun other hother =>
      Json.lookup_setField_of_ne (hne other hother) value fields,
    PullRequest.decode_congr fun other hother =>
      Json.lookup_filter_of_ne (hne other hother) fields⟩

theorem pulls_isolated_sample :
    PullRequest.reported (PullRequest.decode (.object [("number", .integer 18446744073709551615),
      ("title", .object [("text", .string "Fix")]), ("user", .null)])) =
        .error "invalid type: map, expected a string" ∧
    PullRequest.decode (.object (Json.setField "user" (.object [("login", .string "me")])
      [("number", .integer 42), ("title", .string "Fix"),
        ("updated_at", .string "1970-01-01T00:20:00Z")])) =
          .ok ⟨42, "Fix", ⟨1200, 0⟩, none⟩ := by
  obtain ⟨-, -, hdeeper, hother, -⟩ := pulls_isolated
  constructor
  · rw [hdeeper _ [("number", .integer 18446744073709551615), ("title", .object [])]
      (by simp [List.lookup_cons, Json.outline])]
    rfl
  · exact (hother _ "user" _ (by simp)).1.trans rfl

end Listing

end ReleaseDraft
