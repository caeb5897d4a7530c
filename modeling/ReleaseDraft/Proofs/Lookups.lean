import Mathlib.Data.List.Basic
import ReleaseDraft.Resolution

/-!
# What is looked up to resolve the options

The stages of a resolution are the repository, the name of the tag, the git repository at hand, the
date of the tag, and the URL of the interface.  What the first two can come to is said by
`RepoIs`, `RepoFails`, `NameIs` and `NameFails`.  `Resolution.Course` has a rule for each stage at
which a resolution can end, with the look-ups made by then; every resolution follows exactly one
(`course_iff`).

A look-up is made only if no option makes it needless and no stage before it failed.  So two
repositories that give the same answers to the look-ups that are made cannot be told apart
(`options_of_sameAnswer`), and without a repository there are no options
(`options_in_stages`).
-/

namespace ReleaseDraft

/-- Two repositories give the same answer to a look-up. -/
def Vcs.SameAnswer (vcs vcs' : Vcs) : Lookup → Prop
  | .remoteUrl remote => vcs.remoteUrl remote = vcs'.remoteUrl remote
  | .latestTag => vcs.latestTag = vcs'.latestTag
  | .tagDate tag => vcs.tagDate tag = vcs'.tagDate tag

namespace Resolution

open CommandLine (Arguments)

/-! ### Stages -/

/-- The repository is the one that is named, or else that of the remote. -/
inductive RepoIs (args : Arguments) : Option Vcs → Slug → Prop
  | named {vcs text slug} : args.repo = some text → Slug.parse? text = some slug →
      RepoIs args vcs slug
  | remote {vcs address slug} : args.repo = none →
      vcs.remoteUrl args.remote = .ok (some address) → Slug.ofRemote? address = some slug →
      RepoIs args (some vcs) slug

/-- The repository cannot be told. -/
inductive RepoFails (args : Arguments) : Option Vcs → Error → Prop
  | misnamed {vcs text} : args.repo = some text → Slug.parse? text = none →
      RepoFails args vcs (.invalidRepo text)
  | nowhere : args.repo = none → RepoFails args none .unresolvedRepo
  | lookup {vcs e} : args.repo = none → vcs.remoteUrl args.remote = .error e →
      RepoFails args (some vcs) e
  | noRemote {vcs} : args.repo = none → vcs.remoteUrl args.remote = .ok none →
      RepoFails args (some vcs) .unresolvedRepo
  | elsewhere {vcs address} : args.repo = none →
      vcs.remoteUrl args.remote = .ok (some address) → Slug.ofRemote? address = none →
      RepoFails args (some vcs) .unresolvedRepo

/-- The tag has the name that is given, or else that of the latest. -/
inductive NameIs (args : Arguments) : Option Vcs → String → Prop
  | given {vcs name} : args.tag = some name → NameIs args vcs name
  | latest {vcs name} : args.tag = none → vcs.latestTag = .ok (some name) →
      NameIs args (some vcs) name

/-- The name of the tag cannot be told. -/
inductive NameFails (args : Arguments) : Option Vcs → Error → Prop
  | nowhere : args.tag = none → NameFails args none .unresolvedTag
  | lookup {vcs e} : args.tag = none → vcs.latestTag = .error e → NameFails args (some vcs) e
  | noTags {vcs} : args.tag = none → vcs.latestTag = .ok none →
      NameFails args (some vcs) .unresolvedTag

/-- The look-ups of the repository stage. -/
def repoLookups (args : Arguments) (vcs : Option Vcs) : List Lookup :=
  if args.repo.isNone && vcs.isSome then [.remoteUrl args.remote] else []

/-- The look-ups for the name of the tag. -/
def nameLookups (args : Arguments) (vcs : Option Vcs) : List Lookup :=
  if args.tag.isNone && vcs.isSome then [.latestTag] else []

/-! ### The course of a resolution -/

/-- How a resolution goes: a rule for each stage at which it can end, with what is looked up and
logged by then. -/
inductive Course (args : Arguments) (environment : Option String) :
    Option Vcs → Resolution Options → Prop
  | repo {vcs e} : RepoFails args vcs e →
      Course args environment vcs ⟨.error e, repoLookups args vcs, []⟩
  | name {vcs slug e} : RepoIs args vcs slug → NameFails args vcs e →
      Course args environment vcs
        ⟨.error e, repoLookups args vcs ++ nameLookups args vcs, [repoEntry slug]⟩
  | noVcs {slug name} : RepoIs args none slug → NameIs args none name →
      Course args environment none ⟨.error (.notARepository args.path), [], [repoEntry slug]⟩
  | date {vcs slug name e} : RepoIs args (some vcs) slug → NameIs args (some vcs) name →
      vcs.tagDate name = .error e →
      Course args environment (some vcs) ⟨.error e,
        repoLookups args (some vcs) ++ nameLookups args (some vcs) ++ [.tagDate name],
        [repoEntry slug]⟩
  | url {vcs slug name date cause} : RepoIs args (some vcs) slug → NameIs args (some vcs) name →
      vcs.tagDate name = .ok date → Url.parse args.apiUrl.toList = .error cause →
      Course args environment (some vcs) ⟨.error (.url cause),
        repoLookups args (some vcs) ++ nameLookups args (some vcs) ++ [.tagDate name],
        [repoEntry slug, tagEntry ⟨name, date⟩]⟩
  | done {vcs slug name date url} : RepoIs args (some vcs) slug → NameIs args (some vcs) name →
      vcs.tagDate name = .ok date → Url.parse args.apiUrl.toList = .ok url →
      Course args environment (some vcs)
        ⟨.ok ⟨⟨slug, url, Forge.defaultWebUrl, args.accessToken environment⟩, ⟨name, date⟩,
            defaultWidth⟩,
          repoLookups args (some vcs) ++ nameLookups args (some vcs) ++ [.tagDate name],
          [repoEntry slug, tagEntry ⟨name, date⟩]⟩

variable {args : Arguments} {environment : Option String} {vcs : Option Vcs} {slug : Slug}
  {name : String} {e : Error}

theorem RepoIs.repo_eq (h : RepoIs args vcs slug) :
    repo args vcs = (.ok slug, repoLookups args vcs) := by
  cases h with
  | named hrepo hparse => simp [repo, repoLookups, hrepo, hparse]
  | remote hrepo hurl hslug =>
    simp [repo, repoLookups, hrepo, hurl, hslug, bind, Except.bind]

theorem RepoFails.repo_eq (h : RepoFails args vcs e) :
    repo args vcs = (.error e, repoLookups args vcs) := by
  cases h with
  | misnamed hrepo hparse => simp [repo, repoLookups, hrepo, hparse]
  | nowhere hrepo => simp [repo, repoLookups, hrepo]
  | lookup hrepo hurl => simp [repo, repoLookups, hrepo, hurl, bind, Except.bind]
  | noRemote hrepo hurl => simp [repo, repoLookups, hrepo, hurl, bind, Except.bind]
  | elsewhere hrepo hurl hslug =>
    simp [repo, repoLookups, hrepo, hurl, hslug, bind, Except.bind]

theorem NameIs.tagName_eq (h : NameIs args vcs name) :
    tagName args vcs = (.ok name, nameLookups args vcs) := by
  cases h with
  | given htag => simp [tagName, nameLookups, htag]
  | latest htag hlatest => simp [tagName, nameLookups, htag, hlatest, bind, Except.bind]

theorem NameFails.tagName_eq (h : NameFails args vcs e) :
    tagName args vcs = (.error e, nameLookups args vcs) := by
  cases h with
  | nowhere htag => simp [tagName, nameLookups, htag]
  | lookup htag hlatest => simp [tagName, nameLookups, htag, hlatest, bind, Except.bind]
  | noTags htag hlatest => simp [tagName, nameLookups, htag, hlatest, bind, Except.bind]

variable (args vcs) in
theorem repoIs_or_repoFails : (∃ slug, RepoIs args vcs slug) ∨ ∃ e, RepoFails args vcs e := by
  cases hrepo : args.repo with
  | some text =>
    cases hparse : Slug.parse? text with
    | some slug => exact .inl ⟨slug, .named hrepo hparse⟩
    | none => exact .inr ⟨_, .misnamed hrepo hparse⟩
  | none =>
    cases vcs with
    | none => exact .inr ⟨_, .nowhere hrepo⟩
    | some vcs =>
      match hurl : vcs.remoteUrl args.remote with
      | .error e => exact .inr ⟨e, .lookup hrepo hurl⟩
      | .ok none => exact .inr ⟨_, .noRemote hrepo hurl⟩
      | .ok (some address) =>
        cases hslug : Slug.ofRemote? address with
        | some slug => exact .inl ⟨slug, .remote hrepo hurl hslug⟩
        | none => exact .inr ⟨_, .elsewhere hrepo hurl hslug⟩

variable (args vcs) in
theorem nameIs_or_nameFails : (∃ name, NameIs args vcs name) ∨ ∃ e, NameFails args vcs e := by
  cases htag : args.tag with
  | some name => exact .inl ⟨name, .given htag⟩
  | none =>
    cases vcs with
    | none => exact .inr ⟨_, .nowhere htag⟩
    | some vcs =>
      match hlatest : vcs.latestTag with
      | .error e => exact .inr ⟨e, .lookup htag hlatest⟩
      | .ok none => exact .inr ⟨_, .noTags htag hlatest⟩
      | .ok (some name) => exact .inl ⟨name, .latest htag hlatest⟩

theorem Course.eq_options {r : Resolution Options} (h : Course args environment vcs r) :
    r = options args environment vcs := by
  cases h with
  | repo hrepo => simp [options, hrepo.repo_eq]
  | name hrepo hname => simp [options, tag, hrepo.repo_eq, hname.tagName_eq]
  | noVcs hrepo hname =>
    simp [options, tag, hrepo.repo_eq, hname.tagName_eq, repoLookups, nameLookups]
  | date hrepo hname hdate =>
    simp [options, tag, hrepo.repo_eq, hname.tagName_eq, hdate, Except.map]
  | url hrepo hname hdate hurl =>
    simp [options, tag, hrepo.repo_eq, hname.tagName_eq, hdate, hurl, Except.map, Except.mapError,
      bind, Except.bind]
  | done hrepo hname hdate hurl =>
    simp [options, tag, hrepo.repo_eq, hname.tagName_eq, hdate, hurl, Except.map, Except.mapError,
      bind, Except.bind]

variable (args environment vcs) in
theorem exists_course : ∃ r, Course args environment vcs r := by
  rcases repoIs_or_repoFails args vcs with ⟨slug, hrepo⟩ | ⟨e, hrepo⟩
  · rcases nameIs_or_nameFails args vcs with ⟨name, hname⟩ | ⟨e, hname⟩
    · cases vcs with
      | none => exact ⟨_, .noVcs hrepo hname⟩
      | some vcs =>
        cases hdate : vcs.tagDate name with
        | error e => exact ⟨_, .date hrepo hname hdate⟩
        | ok date =>
          cases hurl : Url.parse args.apiUrl.toList with
          | error cause => exact ⟨_, .url hrepo hname hdate hurl⟩
          | ok url => exact ⟨_, .done hrepo hname hdate hurl⟩
    · exact ⟨_, .name hrepo hname⟩
  · exact ⟨_, .repo hrepo⟩

/-- **Every resolution follows exactly one course.** -/
theorem course_iff {r : Resolution Options} :
    Course args environment vcs r ↔ r = options args environment vcs := by
  refine ⟨Course.eq_options, ?_⟩
  rintro rfl
  obtain ⟨r, h⟩ := exists_course args environment vcs
  exact h.eq_options ▸ h

/-! ### Which look-ups are made -/

theorem RepoFails.not_repoIs (h : RepoFails args vcs e) : ¬RepoIs args vcs slug := by
  intro hrepo
  have heq := hrepo.repo_eq
  rw [h.repo_eq] at heq
  cases heq

theorem NameFails.not_nameIs (h : NameFails args vcs e) : ¬NameIs args vcs name := by
  intro hname
  have heq := hname.tagName_eq
  rw [h.tagName_eq] at heq
  cases heq

theorem NameIs.unique {name' : String} (h : NameIs args vcs name) (h' : NameIs args vcs name') :
    name = name' := by
  have heq := h'.tagName_eq
  rw [h.tagName_eq] at heq
  cases heq
  rfl

@[simp] theorem mem_repoLookups {q : Lookup} : q ∈ repoLookups args vcs ↔
    q = .remoteUrl args.remote ∧ args.repo = none ∧ vcs.isSome = true := by
  unfold repoLookups
  split_ifs with h <;> simp_all

@[simp] theorem mem_nameLookups {q : Lookup} : q ∈ nameLookups args vcs ↔
    q = .latestTag ∧ args.tag = none ∧ vcs.isSome = true := by
  unfold nameLookups
  split_ifs with h <;> simp_all

variable {r : Resolution Options}

theorem Course.remoteUrl_mem_iff (h : Course args environment vcs r) {remote : String} :
    .remoteUrl remote ∈ r.lookups ↔
      remote = args.remote ∧ args.repo = none ∧ vcs.isSome = true := by
  cases h <;> simp

theorem Course.latestTag_mem_iff (h : Course args environment vcs r) :
    .latestTag ∈ r.lookups ↔
      (∃ slug, RepoIs args vcs slug) ∧ args.tag = none ∧ vcs.isSome = true := by
  cases h with
  | repo hfails => simp [hfails.not_repoIs]
  | name hrepo _ => simp [Exists.intro _ hrepo]
  | noVcs hrepo _ => simp
  | date hrepo _ _ => simp [Exists.intro _ hrepo]
  | url hrepo _ _ _ => simp [Exists.intro _ hrepo]
  | done hrepo _ _ _ => simp [Exists.intro _ hrepo]

theorem Course.tagDate_mem_iff (h : Course args environment vcs r) :
    .tagDate name ∈ r.lookups ↔
      (∃ slug, RepoIs args vcs slug) ∧ NameIs args vcs name ∧ vcs.isSome = true := by
  have hmade : ∀ {name' : String}, NameIs args vcs name' → (name = name' ↔ NameIs args vcs name) :=
    fun hname => ⟨fun heq => heq ▸ hname, fun h => h.unique hname⟩
  cases h with
  | repo hfails => simp [hfails.not_repoIs]
  | name _ hfails => simp [hfails.not_nameIs]
  | noVcs => simp
  | date hrepo hname _ => simp [Exists.intro _ hrepo, hmade hname]
  | url hrepo hname _ _ => simp [Exists.intro _ hrepo, hmade hname]
  | done hrepo hname _ _ => simp [Exists.intro _ hrepo, hmade hname]

theorem repoLookups_sublist (args : Arguments) (vcs : Option Vcs) :
    List.Sublist (repoLookups args vcs) [.remoteUrl args.remote] := by
  unfold repoLookups
  split_ifs <;> simp

theorem nameLookups_sublist (args : Arguments) (vcs : Option Vcs) :
    List.Sublist (nameLookups args vcs) [.latestTag] := by
  unfold nameLookups
  split_ifs <;> simp

/-- Each look-up is made at most once, and in the order of the stages. -/
theorem Course.lookups_sublist (h : Course args environment vcs r) :
    ∃ name, List.Sublist r.lookups [.remoteUrl args.remote, .latestTag, .tagDate name] := by
  have hrepo := repoLookups_sublist args vcs
  have hboth := hrepo.append (nameLookups_sublist args vcs)
  cases h with
  | repo _ => exact ⟨"", hrepo.trans (by simp)⟩
  | name _ _ => exact ⟨"", hboth.trans (by simp)⟩
  | noVcs _ _ => exact ⟨"", List.nil_sublist _⟩
  | date _ _ _ => exact ⟨_, hboth.append (List.Sublist.refl _)⟩
  | url _ _ _ _ => exact ⟨_, hboth.append (List.Sublist.refl _)⟩
  | done _ _ _ _ => exact ⟨_, hboth.append (List.Sublist.refl _)⟩

/-! ### Two repositories -/

theorem repo_congr {vcs vcs' : Vcs}
    (h : args.repo = none → vcs.remoteUrl args.remote = vcs'.remoteUrl args.remote) :
    repo args (some vcs) = repo args (some vcs') := by
  unfold repo
  cases hrepo : args.repo with
  | some text => rfl
  | none => simp only [h hrepo]

theorem tagName_congr {vcs vcs' : Vcs} (h : args.tag = none → vcs.latestTag = vcs'.latestTag) :
    tagName args (some vcs) = tagName args (some vcs') := by
  unfold tagName
  cases htag : args.tag with
  | some name => rfl
  | none => simp only [h htag]

/-- **What is not looked up does not matter.** -/
theorem options_of_sameAnswer {vcs vcs' : Vcs}
    (h : ∀ q ∈ (options args environment (some vcs)).lookups, vcs.SameAnswer vcs' q) :
    options args environment (some vcs) = options args environment (some vcs') := by
  have hcourse : Course args environment (some vcs) _ := course_iff.2 rfl
  have hrepo := repo_congr fun hnone => h _ (hcourse.remoteUrl_mem_iff.2 ⟨rfl, hnone, rfl⟩)
  rcases repoIs_or_repoFails args (some vcs) with ⟨slug, hslug⟩ | ⟨e, hfails⟩
  · have hname := tagName_congr fun hnone =>
      h _ (hcourse.latestTag_mem_iff.2 ⟨⟨slug, hslug⟩, hnone, rfl⟩)
    rcases nameIs_or_nameFails args (some vcs) with ⟨name, hgiven⟩ | ⟨e, hfails⟩
    · have hdate : vcs.tagDate name = vcs'.tagDate name :=
        h _ (hcourse.tagDate_mem_iff.2 ⟨⟨slug, hslug⟩, hgiven, rfl⟩)
      simp only [options, tag, ← hrepo, ← hname, hgiven.tagName_eq, hdate]
    · simp only [options, tag, ← hrepo, ← hname, hfails.tagName_eq]
  · simp only [options, ← hrepo, hfails.repo_eq]

/-- The error of a resolution without a git repository. -/
def errorWithoutVcs (args : Arguments) : Error :=
  match args.repo with
  | none => .unresolvedRepo
  | some text =>
    if (Slug.parse? text).isNone then .invalidRepo text
    else if args.tag.isNone then .unresolvedTag
    else .notARepository args.path

theorem outcome_none (args : Arguments) (environment : Option String) :
    (options args environment none).outcome = .error (errorWithoutVcs args) := by
  unfold errorWithoutVcs
  cases hrepo : args.repo with
  | none => rw [← (Course.repo (.nowhere hrepo)).eq_options]
  | some text =>
    cases hparse : Slug.parse? text with
    | none =>
      rw [← (Course.repo (.misnamed hrepo hparse)).eq_options]
      simp [hparse]
    | some slug =>
      cases htag : args.tag with
      | none =>
        rw [← (Course.name (.named hrepo hparse) (.nowhere htag)).eq_options]
        simp [hparse]
      | some name =>
        rw [← (Course.noVcs (.named hrepo hparse) (.given htag)).eq_options]
        simp [hparse]

theorem options_of_repo (h : args.repo ≠ none) (vcs : Vcs)
    (remoteUrl : String → Except Error (Option String)) :
    options args environment (some { vcs with remoteUrl }) =
      options args environment (some vcs) := by
  refine (options_of_sameAnswer fun q hq => ?_).symm
  cases q with
  | remoteUrl remote => exact absurd ((course_iff.2 rfl).remoteUrl_mem_iff.1 hq).2.1 h
  | latestTag => rfl
  | tagDate tag => rfl

theorem options_of_tag (h : args.tag ≠ none) (vcs : Vcs)
    (latestTag : Except Error (Option String)) :
    options args environment (some { vcs with latestTag }) =
      options args environment (some vcs) := by
  refine (options_of_sameAnswer fun q hq => ?_).symm
  cases q with
  | remoteUrl remote => rfl
  | latestTag => exact absurd ((course_iff.2 rfl).latestTag_mem_iff.1 hq).2.1 h
  | tagDate tag => rfl

/-- **Options are resolved in stages, with no needless look-up.**  A resolution goes through the
stages in order and ends with the error of the first that fails (`Course`).  It makes each look-up at
most once and in the order of the stages: the remote if no repository is named, the latest tag if
the repository is known and no tag is given, the date of the very tag whose name was obtained.  What
is not looked up does not matter; in particular neither the remote does if a repository is named,
nor the latest tag if one is given.  Without a git repository there is always an error. -/
theorem options_in_stages (args : Arguments) (environment : Option String) (vcs : Option Vcs) :
    (∀ r, Course args environment vcs r ↔ r = options args environment vcs) ∧
      (∃ name, List.Sublist (options args environment vcs).lookups
        [.remoteUrl args.remote, .latestTag, .tagDate name]) ∧
      (.remoteUrl args.remote ∈ (options args environment vcs).lookups ↔
        args.repo = none ∧ vcs.isSome = true) ∧
      (.latestTag ∈ (options args environment vcs).lookups ↔
        (∃ slug, RepoIs args vcs slug) ∧ args.tag = none ∧ vcs.isSome = true) ∧
      (∀ name, .tagDate name ∈ (options args environment vcs).lookups ↔
        (∃ slug, RepoIs args vcs slug) ∧ NameIs args vcs name ∧ vcs.isSome = true) ∧
      (∀ git git' : Vcs,
        (∀ q ∈ (options args environment (some git)).lookups, git.SameAnswer git' q) →
        options args environment (some git) = options args environment (some git')) ∧
      (args.repo ≠ none → ∀ (git : Vcs) remoteUrl,
        options args environment (some { git with remoteUrl }) =
          options args environment (some git)) ∧
      (args.tag ≠ none → ∀ (git : Vcs) latestTag,
        options args environment (some { git with latestTag }) =
          options args environment (some git)) ∧
      (options args environment none).outcome = .error (errorWithoutVcs args) := by
  have hcourse : Course args environment vcs _ := course_iff.2 rfl
  refine ⟨fun _ => course_iff, hcourse.lookups_sublist, ?_, hcourse.latestTag_mem_iff,
    fun _ => hcourse.tagDate_mem_iff, fun _ _ => options_of_sameAnswer, options_of_repo,
    options_of_tag, outcome_none args environment⟩
  exact hcourse.remoteUrl_mem_iff.trans (and_iff_right rfl)

end Resolution

end ReleaseDraft
