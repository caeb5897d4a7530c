import Mathlib.Data.List.Pairwise
import Mathlib.Tactic.SplitIfs
import ReleaseDraft.CommandLine.Reader

/-!
# Order and spelling of arguments

An argument is a setting with its value, or the wish for debug messages.  A setting is written in
one word, `--name=value`, or in two, where the value may not look like an option (`Writes`).

A value that is a word of its own waits for the next option or for the end.  So a state is compared
by what it comes to when nothing waits any more: whichever way an argument is written, reading it
adds the argument to that (`State.exists_steps_of_writes`), and a whole command line adds one
argument after the other (`State.steps_of_writes`).  Arguments of different options can be added in
any order (`Argument.put_comm`), and in the order of the settings they give each its value
(`Argument.foldl_put_all`).
-/

namespace ReleaseDraft

namespace CommandLine

/-! ### Arguments and their words -/

/-- What an argument says. -/
inductive Argument where
  | give (setting : Setting) (value : String)
  | debug
  deriving DecidableEq

/-- The words that write an argument. -/
inductive Writes : Argument → List String → Prop
  | joined (setting : Setting) (value : String) :
      Writes (.give setting value) ["--" ++ setting.name ++ "=" ++ value]
  | apart (setting : Setting) {value : String} : value.toList.head? ≠ some '-' ∨ value = "-" →
      Writes (.give setting value) ["--" ++ setting.name, value]
  | debug : Writes .debug ["--debug"]

namespace Arguments

/-- The arguments of a run in which some settings are given values and all others have their
defaults. -/
def ofValues (values : Setting → Option String) (debug : Bool) : Arguments where
  tag := values .tag
  repo := values .repo
  token := (values .token).getD ""
  remote := (values .remote).getD "origin"
  path := (values .path).getD "."
  apiUrl := (values .apiUrl).getD "https://api.github.com"
  debug := debug

end Arguments

namespace Argument

/-- The setting that an argument is for, if it is for one. -/
def target : Argument → Option Setting
  | .give setting _ => some setting
  | .debug => none

/-- All arguments that are needed to give some settings their values. -/
def all (values : Setting → Option String) (debug : Bool) : List Argument :=
  (Setting.all.filterMap fun setting => (values setting).map (.give setting)) ++
    if debug then [.debug] else []

/-- Adds an argument. -/
def put (args : Arguments) : Argument → Arguments
  | .give setting value => setting.put value args
  | .debug => { args with debug := true }

end Argument

/-! ### Forms of words -/

namespace Word

theorem ofName?_name (setting : Setting) : Setting.ofName? setting.name = some setting := by
  cases setting <;> decide

theorem all_name (setting : Setting) : setting.name.toList.all (· != '=') = true := by
  cases setting <;> decide

theorem name_ne_nil (setting : Setting) : setting.name.toList ≠ [] := by
  cases setting <;> decide

theorem long_name (setting : Setting) : long setting.name.toList = .setting setting none := by
  cases setting <;> decide

theorem long_name_append (setting : Setting) (value : List Char) :
    long (setting.name.toList ++ '=' :: value) = .setting setting (some (String.ofList value)) := by
  have hname : ∀ c ∈ setting.name.toList, (c != '=') = true := List.all_eq_true.1 (all_name setting)
  simp only [long, List.takeWhile_append_of_pos hname, List.dropWhile_append_of_pos hname]
  simp [ofName?_name]

theorem ofText_long {text : String} (rest : List Char) (h : text.toList = '-' :: '-' :: rest)
    (hrest : rest ≠ []) : ofText text = long rest := by
  obtain ⟨c, rest, rfl⟩ := List.exists_cons_of_ne_nil hrest
  rw [ofText, h]
  rfl

theorem ofText_joined (setting : Setting) (value : String) :
    ofText ("--" ++ setting.name ++ "=" ++ value) = .setting setting (some value) := by
  rw [ofText_long (setting.name.toList ++ '=' :: value.toList) (by simp) (by simp),
    long_name_append, String.ofList_toList]

theorem ofText_name (setting : Setting) :
    ofText ("--" ++ setting.name) = .setting setting none := by
  rw [ofText_long setting.name.toList (by simp) (name_ne_nil setting), long_name]

theorem ofText_plain {value : String} (h : value.toList.head? ≠ some '-' ∨ value = "-") :
    ofText value = .plain value := by
  rcases h with h | rfl
  · unfold ofText
    split
    · next hvalue => simp [hvalue] at h
    · next hvalue => simp [hvalue] at h
    · next hvalue => simp [hvalue] at h
    · rfl
  · rfl

end Word

/-! ### Reading arguments -/

namespace State

variable {s t : State} {argument : Argument} {arguments : List Argument} {words : List String}
  {groups : List (List String)}

/-- Adds an argument to what is settled. -/
def add (s : State) : Argument → State
  | .give setting value =>
    { s with args := setting.put value s.args, settled := setting :: s.settled }
  | .debug => { s with args := { s.args with debug := true } }

/-- An argument can be added: it is not there yet, and gives no empty path. -/
def IsOpen (s : State) : Argument → Prop
  | .give setting value => setting ∉ s.settled ∧ (setting = .path → value ≠ "")
  | .debug => s.args.debug = false

@[simp] theorem args_add (s : State) (argument : Argument) :
    (s.add argument).args = argument.put s.args := by
  cases argument <;> rfl

@[simp] theorem pending_add (s : State) (argument : Argument) :
    (s.add argument).pending = s.pending := by
  cases argument <;> rfl

theorem IsOpen.add {other : Argument} (h : s.IsOpen other) (hne : argument.target ≠ other.target) :
    (s.add argument).IsOpen other := by
  cases argument with
  | give setting value =>
    cases other with
    | give setting' value' =>
      obtain ⟨hopen, hpath⟩ := h
      have hsetting : setting' ≠ setting := by
        rintro rfl
        exact hne rfl
      exact ⟨by simp [State.add, hsetting, hopen], hpath⟩
    | debug => cases setting <;> exact h
  | debug =>
    cases other with
    | give setting' value' => exact h
    | debug => exact absurd rfl hne

theorem settle_eq_ok {setting : Setting} {value : String} (h : s.IsOpen (.give setting value)) :
    s.settle setting value = .ok (s.add (.give setting value)) := by
  obtain ⟨hopen, hpath⟩ := h
  have hempty : (setting == .path && value.isEmpty) = false := by
    by_cases hsetting : setting = .path
    · simp [hsetting, hpath hsetting]
    · simp [hsetting]
  simp [settle, hopen, hempty, State.add]

theorem flush_of_pending (h : s.pending = none) : s.flush = .ok s := by
  simp [flush, h]

/-- Nothing waits after what was waiting is settled. -/
theorem pending_of_flush (h : s.flush = .ok t) : t.pending = none := by
  unfold flush at h
  split at h
  · next hpending =>
    cases h
    exact hpending
  · cases h
  · unfold settle at h
    split_ifs at h
    cases h
    rfl

theorem steps_cons {word : String} {form : Word} (h : Word.ofText word = form)
    (hform : form ≠ .separator) (s : State) (rest : List String) :
    s.steps (word :: rest) = s.step form >>= fun t => t.steps rest := by
  subst h
  rw [steps]
  split
  · next h => exact absurd h hform
  · rfl

/-- **Reading an argument adds it to what is settled**, whichever way it is written. -/
theorem exists_steps_of_writes (hs : s.flush = .ok t) (hopen : t.IsOpen argument)
    (hwrites : Writes argument words) :
    ∃ s' : State, s'.flush = .ok (t.add argument) ∧
      ∀ rest, s.steps (words ++ rest) = s'.steps rest := by
  have hpending := pending_of_flush hs
  cases hwrites with
  | joined setting value =>
    refine ⟨t.add (.give setting value), flush_of_pending (by simp [hpending]), fun rest => ?_⟩
    rw [List.singleton_append, steps_cons (Word.ofText_joined setting value) (by simp)]
    simp only [step, hs, bind, Except.bind, settle_eq_ok hopen]
  | @apart setting value hplain =>
    -- the value waits in the state, and is settled by the next option or at the end
    refine ⟨{ t with pending := some (setting, some value) }, ?_, fun rest => ?_⟩
    · have hsame : { t with pending := none } = t := by rw [← hpending]
      simp only [flush, hsame, settle_eq_ok hopen]
    · rw [List.cons_append, steps_cons (Word.ofText_name setting) (by simp)]
      simp only [step, hs, bind, Except.bind, pure, Except.pure]
      rw [List.singleton_append, steps_cons (Word.ofText_plain hplain) (by simp)]
      rfl
  | debug =>
    refine ⟨t.add .debug, flush_of_pending (by simp [hpending]), fun rest => ?_⟩
    have hform : Word.ofText "--debug" = .flag .debug false := by decide
    rw [List.singleton_append, steps_cons hform (by simp)]
    have hraise : t.raise .debug = .ok (t.add .debug) := by
      rw [IsOpen] at hopen
      simp [raise, hopen, State.add]
    simp only [step, hs, bind, Except.bind, hraise]

/-- **Reading a command line adds one argument after the other.** -/
theorem steps_of_writes (hs : s.flush = .ok t) (hopen : ∀ argument ∈ arguments, t.IsOpen argument)
    (hdistinct : arguments.Pairwise fun a b => a.target ≠ b.target)
    (hwrites : List.Forall₂ Writes arguments groups) :
    s.steps groups.flatten = .ok (arguments.foldl State.add t) := by
  induction hwrites generalizing s t with
  | nil => exact hs
  | @cons argument words arguments groups hwrites _ ih =>
    obtain ⟨hfirst, hrest⟩ := List.forall_mem_cons.1 hopen
    obtain ⟨hne, hdistinct⟩ := List.pairwise_cons.1 hdistinct
    obtain ⟨s', hs', hsteps⟩ := exists_steps_of_writes hs hfirst hwrites
    rw [List.flatten_cons, hsteps, List.foldl_cons]
    exact ih hs' (fun other hmem => (hrest other hmem).add (hne other hmem)) hdistinct

theorem args_foldl_add (s : State) (arguments : List Argument) :
    (arguments.foldl State.add s).args = arguments.foldl Argument.put s.args := by
  induction arguments generalizing s with
  | nil => rfl
  | cons argument arguments ih => rw [List.foldl_cons, List.foldl_cons, ih, args_add]

end State

/-! ### The order of arguments -/

namespace Argument

variable {values : Setting → Option String} {debug : Bool}

/-- **Arguments of different options can be added in either order.** -/
theorem put_comm {a b : Argument} (h : a.target ≠ b.target) (args : Arguments) :
    put (put args a) b = put (put args b) a := by
  cases a with
  | give setting value =>
    cases b with
    | give setting' value' =>
      have hne : setting ≠ setting' := fun heq => h (congrArg some heq)
      cases setting <;> cases setting' <;> simp_all [put, Setting.put]
    | debug => cases setting <;> rfl
  | debug =>
    cases b with
    | give setting' value' => cases setting' <;> rfl
    | debug => rfl

theorem foldl_put_perm {xs ys : List Argument} (h : xs.Perm ys)
    (hdistinct : xs.Pairwise fun a b => a.target ≠ b.target) (args : Arguments) :
    xs.foldl put args = ys.foldl put args := by
  have : Std.Symm fun a b : Argument => a.target ≠ b.target := ⟨fun _ _ => Ne.symm⟩
  refine h.foldl_eq' (fun a ha b hb args => ?_) args
  by_cases hab : a = b
  · rw [hab]
  · exact put_comm (hdistinct.forall ha hb hab) args

/-- An argument for a setting gives it its value. -/
theorem eq_some_of_mem_all {setting : Setting} {value : String}
    (h : give setting value ∈ all values debug) : values setting = some value := by
  rcases List.mem_append.1 h with hgive | hdebug
  · obtain ⟨setting', -, hsome⟩ := List.mem_filterMap.1 hgive
    obtain ⟨value', hvalue, heq⟩ := Option.map_eq_some_iff.1 hsome
    cases heq
    exact hvalue
  · cases debug <;> simp at hdebug

theorem pairwise_all (values : Setting → Option String) (debug : Bool) :
    (all values debug).Pairwise fun a b => a.target ≠ b.target := by
  have hsettings : Setting.all.Pairwise (· ≠ ·) := by decide
  refine List.pairwise_append.2 ⟨List.pairwise_filterMap.2 (hsettings.imp ?_), ?_, ?_⟩
  · intro setting setting' hne a ha b hb
    obtain ⟨value, -, rfl⟩ := Option.map_eq_some_iff.1 ha
    obtain ⟨value', -, rfl⟩ := Option.map_eq_some_iff.1 hb
    simpa [target] using hne
  · cases debug <;> simp
  · intro a ha b hb
    obtain ⟨setting, -, hsome⟩ := List.mem_filterMap.1 ha
    obtain ⟨value, -, rfl⟩ := Option.map_eq_some_iff.1 hsome
    cases debug with
    | false => cases hb
    | true =>
      obtain rfl := List.mem_singleton.1 hb
      simp [target]

theorem put_ofValues (setting : Setting) (value : String) :
    put (.ofValues values debug) (give setting value) =
      .ofValues (fun s => if s = setting then some value else values s) debug := by
  cases setting <;> rfl

/-- Settings that are given their values one after the other have them in the end, and the others
have what they had. -/
theorem foldl_put_give (values given : Setting → Option String) (debug : Bool)
    (settings : List Setting) :
    (settings.filterMap fun setting => (values setting).map (give setting)).foldl put
        (.ofValues given debug) =
      .ofValues (fun s => if s ∈ settings then (values s).or (given s) else given s) debug := by
  induction settings generalizing given with
  | nil => simp
  | cons setting settings ih =>
    cases hvalue : values setting with
    | none =>
      simp only [List.filterMap_cons, hvalue, Option.map_none, ih]
      congr 1
      funext s
      by_cases hs : s = setting <;> simp [hs, hvalue]
    | some value =>
      simp only [List.filterMap_cons, hvalue, Option.map_some, List.foldl_cons, put_ofValues, ih]
      congr 1
      funext s
      by_cases hs : s = setting <;> simp [hs, hvalue]

/-- In the order of the settings, each is given its value. -/
theorem foldl_put_all (values : Setting → Option String) (debug : Bool) :
    (all values debug).foldl put .default = .ofValues values debug := by
  have hdefault : Arguments.default = .ofValues (fun _ => none) false := rfl
  have hall : ∀ s : Setting, s ∈ Setting.all := by
    intro s
    cases s <;> decide
  rw [all, List.foldl_append, hdefault, foldl_put_give]
  simp only [hall, ↓reduceIte, Option.or_none]
  cases debug <;> rfl

end Argument

/-- **Order and spelling of arguments do not matter.**  Let some settings be given values, with or
without the wish for debug messages, where a path may not be empty.  The arguments for that, in any
order and each in one word or in two, are read as these values, with defaults for the other
settings. -/
theorem parse_of_writes (values : Setting → Option String) (debug : Bool)
    (hpath : values .path ≠ some "") {arguments : List Argument}
    (horder : arguments.Perm (Argument.all values debug)) {groups : List (List String)}
    (hwrites : List.Forall₂ Writes arguments groups) :
    parse groups.flatten = .ok (.ofValues values debug) := by
  have hdistinct : arguments.Pairwise fun a b => a.target ≠ b.target :=
    (horder.pairwise_iff Ne.symm).2 (Argument.pairwise_all values debug)
  have hopen : ∀ argument ∈ arguments, State.start.IsOpen argument := by
    intro argument hmem
    cases argument with
    | give setting value =>
      refine ⟨List.not_mem_nil, ?_⟩
      rintro rfl rfl
      exact hpath (Argument.eq_some_of_mem_all (horder.mem_iff.1 hmem))
    | debug => rfl
  have hsteps := State.steps_of_writes (State.flush_of_pending rfl) hopen hdistinct hwrites
  rw [parse, hsteps, Except.map, State.args_foldl_add, Argument.foldl_put_perm horder hdistinct]
  exact congrArg _ (Argument.foldl_put_all values debug)

/-- Values that are empty, hold an equals sign or look like options. -/
def oddValues : Setting → Option String
  | .tag => some "--debug"
  | .token => some ""
  | .path => some "a=b"
  | .apiUrl => some "-"
  | _ => none

theorem parse_of_writes_oddValues :
    oddValues .path ≠ some "" ∧
    parse ["--api-url", "-", "--debug", "--path", "a=b", "--tag=--debug", "--token="] =
      .ok ⟨some "--debug", none, "", "origin", "a=b", "-", true⟩ ∧
    parse ["--token", "", "--tag=--debug", "--path=a=b", "--api-url=-", "--debug"] =
      .ok ⟨some "--debug", none, "", "origin", "a=b", "-", true⟩ := by
  have hpath : oddValues .path ≠ some "" := by decide
  have horder : [.give .apiUrl "-", .debug, .give .path "a=b", .give .tag "--debug",
      .give .token ""].Perm (Argument.all oddValues true) := by decide
  have horder' : [.give .token "", .give .tag "--debug", .give .path "a=b", .give .apiUrl "-",
      .debug].Perm (Argument.all oddValues true) := by decide
  refine ⟨hpath, ?_, ?_⟩
  · exact parse_of_writes oddValues true hpath horder
      (.cons (.apart .apiUrl (.inr rfl)) (.cons .debug (.cons (.apart .path (.inl (by decide)))
        (.cons (.joined .tag "--debug") (.cons (.joined .token "") .nil)))))
  · exact parse_of_writes oddValues true hpath horder'
      (.cons (.apart .token (.inl (by decide))) (.cons (.joined .tag "--debug")
        (.cons (.joined .path "a=b") (.cons (.joined .apiUrl "-") (.cons .debug .nil)))))

end CommandLine

end ReleaseDraft
