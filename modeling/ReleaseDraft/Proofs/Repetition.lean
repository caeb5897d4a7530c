import ReleaseDraft.Proofs.PageBoundaries
import ReleaseDraft.Proofs.ReadBack

/-!
# How often a pull request is in a draft

Nothing between the listing and the draft looks at the number of a pull request.  The pull requests
that a selection gathers (`Draft.Gathers`) are in its result as often as they are listed, and a
draft has one bullet for each time: a listing that shifts between two requests, so that the same
pull request is on two pages, leads to two bullets (`Draft.not_nodup_numbers`).  A number is unique
in a draft exactly if it is among the pull requests gathered (`Draft.nodup_numbers_iff`).
-/

namespace ReleaseDraft

namespace Listing

open Selection (Stops)

variable {net : Http.Network} {headers : Http.Headers} {cutoff : Instant} {start : Url}
  {next : Option Url} {pages : List Fetched} {s : Selection}

/-- A selection is over after its pages only if there is no further one or something stops it. -/
theorem over_of_covers
    (h : Covers ((Selection.visit cutoff).contramap asPull) .start pages next s) :
    next = none ∨ ∃ x ∈ pullsOf pages, Stops cutoff x := by
  by_contra hover
  obtain ⟨hnext, hgoing⟩ := not_or.1 hover
  obtain ⟨pulls, ending, hreads⟩ := Selection.exists_reads cutoff (pullsOf pages)
  obtain rfl : ending = .exhausted :=
    hreads.exhausted_iff.2 fun x hx hstops => hgoing ⟨x, hx, hstops⟩
  have hfeed := hreads.feed_eq .start
  rw [← feed_selection] at hfeed
  rcases h.enough with hdone | ⟨-, hnone⟩
  · rw [hfeed] at hdone
    cases hdone
  · exact hnext hnone

end Listing

namespace Draft

open Listing (EndsAt Serves pullsOf)

open Selection (Reads Qualifies sorted keptOf outcomeAt)

/-- The numbers of pull requests. -/
def numbers (pulls : List PullRequest) : List Nat := pulls.map PullRequest.number

/-- The numbers of the changes in the text of a bullet list. -/
def numbersIn (forge : Forge) (list : String) : List Nat :=
  (changesIn forge list.toList).map Prod.fst

/-- After the requests `past`, the pages up to where the selection ends have the pull requests
`gathered` that qualify, in the order in which they are listed; `requests` are all requests then. -/
inductive Gathers (net : Http.Network) (client : Client) (tag : Tag) (past : List Http.Request) :
    List PullRequest → List Http.Request → Prop
  | intro {first earlier last next requests pulls ending} :
      client.firstPage "pulls" closedByUpdate = .ok first →
      EndsAt net client.headers tag.date first past earlier last next requests →
      Reads tag.date (pullsOf (earlier ++ [last])) pulls ending →
      (∀ e, ending ≠ .failed e) →
      Gathers net client tag past (pulls.filter (Qualifies tag.date ·)) requests

/-! ### From the listing to the draft -/

section

variable {net : Http.Network} {limit : Nat} {client : Client} {tag : Tag} {begun trace : Trace}
  {chosen : List PullRequest} {options : Options} {text : String}

/-- The pull requests merged since a tag are those gathered, in the order of their merge. -/
theorem exists_gathers (h : mergedSince net limit client tag begun = some (.ok chosen, trace)) :
    ∃ gathered, Gathers net client tag begun.requests gathered trace.requests ∧
      chosen = sorted gathered := by
  cases hfirst : client.firstPage "pulls" closedByUpdate with
  | error e =>
    rw [mergedSince, hfirst] at h
    cases h
  | ok first =>
    obtain ⟨⟨s, trace'⟩, hread, -⟩ := Option.map_eq_some_iff.1
      ((mergedSince_eq_map_read net hfirst limit tag begun).symm.trans h)
    obtain ⟨pages, next, hchain, hcovers⟩ := Listing.exists_covers_of_read hread
    obtain ⟨earlier, last, next, requests, hends⟩ :=
      Listing.exists_endsAt hchain (Listing.over_of_covers hcovers)
    obtain ⟨pulls, ending, hreads⟩ :=
      Selection.exists_reads tag.date (pullsOf (earlier ++ [last]))
    rw [mergedSince_eq hfirst hends hreads] at h
    split_ifs at h
    obtain ⟨houtcome, rfl⟩ := Prod.mk.inj (Option.some.inj h)
    have hfine : ∀ e, ending ≠ .failed e := by
      rintro e rfl
      cases houtcome
    rw [Selection.outcomeAt_eq_ok hfine] at houtcome
    exact ⟨_, .intro hfirst hends hreads hfine, (Except.ok.inj houtcome).symm⟩

/-- Sorting keeps every number as often as it is there. -/
theorem numbers_sorted_perm (pulls : List PullRequest) :
    (numbers (sorted pulls)).Perm (numbers pulls) :=
  (Selection.arranged_sorted pulls).perm.map _

theorem numbersIn_listText (forge : Forge) (width : Nat) (pulls : List PullRequest) :
    numbersIn forge (String.ofList (listText forge width pulls)) = numbers pulls := by
  rw [numbersIn, String.toList_ofList, changesIn_listText, List.map_map]
  rfl

/-- A draft is the banner and the list of the pull requests merged since the tag. -/
theorem exists_mergedSince_of_compose (hclient : options.forge.client = .ok client)
    (h : compose net limit options = some (.ok text, trace)) :
    ∃ begun chosen, begun.requests = [] ∧
      mergedSince net limit client options.tag begun = some (.ok chosen, trace) ∧
      text = banner options.forge options.tag ++ "\n" ++
        String.ofList (listText options.forge options.width chosen) := by
  obtain ⟨begun, hnothing, hcompose⟩ := @exists_compose_eq net _ _ hclient
  rw [hcompose] at h
  obtain ⟨⟨outcome, trace'⟩, hsince, hresult⟩ := Option.map_eq_some_iff.1 h
  obtain ⟨hrender, rfl⟩ := Prod.mk.inj hresult
  cases outcome with
  | error e => cases hrender
  | ok chosen =>
    refine ⟨begun, chosen, hnothing, hsince, ?_⟩
    simp only [Except.bind] at hrender
    by_cases hwidth : 2 < options.width
    · rw [render_eq hwidth] at hrender
      exact (Except.ok.inj hrender).symm
    · rw [render, bullets_eq, if_pos (Nat.le_of_not_lt hwidth)] at hrender
      cases hrender

end

/-! ### Numbers in a draft -/

/-- **Every pull request is in a draft as often as it is gathered.**  The pull requests merged since
a tag have the numbers of those that are gathered from the listing, each as often, and so have the
bullets of a draft.  So numbers are unique in them exactly if they are in what is gathered. -/
theorem nodup_numbers_iff (net : Http.Network) (limit : Nat) (client : Client) :
    (∀ tag begun chosen trace,
      mergedSince net limit client tag begun = some (.ok chosen, trace) →
        ∃ gathered, Gathers net client tag begun.requests gathered trace.requests ∧
          (numbers chosen).Perm (numbers gathered) ∧
          ((numbers chosen).Nodup ↔ (numbers gathered).Nodup)) ∧
    ∀ options text trace, options.forge.client = .ok client →
      compose net limit options = some (.ok text, trace) →
        ∃ gathered list, Gathers net client options.tag [] gathered trace.requests ∧
          text = banner options.forge options.tag ++ "\n" ++ list ∧
          (numbersIn options.forge list).Perm (numbers gathered) ∧
          ((numbersIn options.forge list).Nodup ↔ (numbers gathered).Nodup) := by
  constructor
  · intro tag begun chosen trace h
    obtain ⟨gathered, hgathers, rfl⟩ := exists_gathers h
    have hperm := numbers_sorted_perm gathered
    exact ⟨gathered, hgathers, hperm, hperm.nodup_iff⟩
  · intro options text trace hclient h
    obtain ⟨begun, chosen, hnothing, hsince, rfl⟩ := exists_mergedSince_of_compose hclient h
    obtain ⟨gathered, hgathers, rfl⟩ := exists_gathers hsince
    rw [hnothing] at hgathers
    have hperm := numbers_sorted_perm gathered
    rw [← numbersIn_listText options.forge options.width] at hperm
    exact ⟨gathered, _, hgathers, rfl, hperm, hperm.nodup_iff⟩

/-! ### A listing that shifts between two requests -/

namespace Shift

def options : Options :=
  ⟨⟨⟨"me", "it"⟩, .https "forge" [""] none, "https://forge", none⟩, ⟨"v1", ⟨600, 0⟩⟩, 80⟩

def client : Client :=
  ⟨options.forge, .https "forge" ["repos", "me", "it", ""] none,
    ⟨Forge.mediaType, Forge.userAgent, none⟩⟩

/-- A page of the listing of pull requests. -/
def listing (query : String) : Url := .https "forge" ["repos", "me", "it", "pulls"] (some query)

def first : Url := listing "state=closed&sort=updated&direction=desc"

/-- A pull request that was merged after the tag. -/
def body : String := "[[7,\"Fix\",\"1970-1-1T0:20:0Z\",\"1970-1-1T0:15:0Z\"]]"

def item : Json :=
  .array [.integer 7, .string "Fix", .string "1970-1-1T0:20:0Z", .string "1970-1-1T0:15:0Z"]

def fix : PullRequest := ⟨7, "Fix", ⟨1200, 0⟩, some ⟨900, 0⟩⟩

/-- A forge with the same pull request on two pages. -/
def net : Http.Network where
  connects _ := true
  answer requests :=
    match requests.length with
    | 1 => .response (.plain 200 ["<pulls?page=2>; rel=next"] body)
    | _ => .response (.plain 200 [] body)
  keeps := Http.Network.keepsOnServer

theorem prepared : Prepared options client.headers first where
  legal := by
    intro token htoken
    cases htoken
  headers_eq := rfl
  url := ⟨_, _, rfl, rfl, rfl⟩

theorem parse_body : Json.parse? body.toList = some (.array [item]) := by
  simp +decide [body, item, Json.parse?, Json.readValue, Json.readItems, Json.readString,
    Json.readNumber, Json.readFraction, Json.number, Json.appendDigits]

theorem serves_net : Serves net client.headers first [] [item, item] := by
  have hfirst : Listing.Delivers net client.headers first [] (.array [item])
      (some (listing "page=2")) [⟨first, client.headers⟩] :=
    Listing.delivers_plain rfl rfl rfl (by decide +kernel) parse_body
  have hsecond : Listing.Delivers net client.headers (listing "page=2")
      [⟨first, client.headers⟩] (.array [item]) none
      [⟨first, client.headers⟩, ⟨listing "page=2", client.headers⟩] :=
    Listing.delivers_plain rfl rfl rfl (by decide +kernel) parse_body
  exact .more hfirst (.last hsecond)

theorem result_twice : (Selection.ofList options.tag.date
    ([item, item].map (Listing.asPull ∘ .ok))).result = .ok (sorted [fix, fix]) := by
  have hreads : Reads options.tag.date [.ok fix, .ok fix] [fix, fix] .exhausted :=
    .fresh (by decide) (.fresh (by decide) .exhausted)
  have hkept : keptOf options.tag.date [fix, fix] = [fix, fix] := by decide
  have hresult := hreads.result_ofList
  rw [hkept] at hresult
  exact hresult

theorem exists_mergedSince : ∃ limit trace, mergedSince net limit client options.tag .empty =
    some (.ok (sorted [fix, fix]), trace) := by
  obtain ⟨pages, trace, hsince⟩ :=
    @exists_mergedSince_eq net _ _ client .empty rfl serves_net options.tag
  refine ⟨pages, trace, ?_⟩
  rw [hsince, if_pos le_rfl, result_twice]

theorem exists_compose : ∃ limit trace, compose net limit options =
    some (.ok (banner options.forge options.tag ++ "\n" ++
      String.ofList (listText options.forge 80 (sorted [fix, fix]))), trace) := by
  obtain ⟨trace, pages, hyields⟩ := prepared.yields_ofItems serves_net
  refine ⟨pages, trace, ?_⟩
  rw [hyields, if_pos le_rfl, ofItems, result_twice]
  exact congrArg (fun outcome => some (outcome, trace)) (render_eq (by decide) _ _ _)

theorem not_nodup_sorted : ¬(numbers (sorted [fix, fix])).Nodup := by
  rw [(numbers_sorted_perm [fix, fix]).nodup_iff]
  decide

end Shift

theorem nodup_numbers_iff_sample :
    ∃ limit trace gathered, compose Shift.net limit Shift.options =
        some (.ok (banner Shift.options.forge Shift.options.tag ++ "\n" ++
          String.ofList (listText Shift.options.forge 80 (sorted [Shift.fix, Shift.fix]))),
          trace) ∧
      Gathers Shift.net Shift.client Shift.options.tag [] gathered trace.requests ∧
      ¬(numbers gathered).Nodup := by
  open Shift in
  obtain ⟨limit, trace, hcompose⟩ := exists_compose
  obtain ⟨gathered, list, hgathers, htext, -, hiff⟩ :=
    (nodup_numbers_iff net limit client).2 options _ trace rfl hcompose
  have hlist : list = String.ofList (listText options.forge 80 (sorted [fix, fix])) := by
    simpa using htext.symm
  rw [hlist, numbersIn_listText] at hiff
  exact ⟨limit, trace, gathered, hcompose, hgathers, hiff.not.1 not_nodup_sorted⟩

/-- **A pull request can be in a draft twice**: its number twice among those merged since a tag, and
two bullets for it in the text. -/
theorem not_nodup_numbers :
    (¬∀ net limit client tag begun chosen trace,
      mergedSince net limit client tag begun = some (.ok chosen, trace) →
        (numbers chosen).Nodup) ∧
    ¬∀ net limit options list trace,
      compose net limit options =
          some (.ok (banner options.forge options.tag ++ "\n" ++ list), trace) →
        (numbersIn options.forge list).Nodup := by
  constructor
  · intro h
    obtain ⟨limit, trace, hsince⟩ := Shift.exists_mergedSince
    exact Shift.not_nodup_sorted (h _ _ _ _ _ _ _ hsince)
  · intro h
    obtain ⟨limit, trace, hcompose⟩ := Shift.exists_compose
    have hnodup := h _ _ Shift.options _ _ hcompose
    rw [numbersIn_listText] at hnodup
    exact Shift.not_nodup_sorted hnodup

end Draft

end ReleaseDraft
