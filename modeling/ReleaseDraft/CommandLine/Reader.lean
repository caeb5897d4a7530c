import ReleaseDraft.CommandLine.Arguments

/-!
# Reading the command line

Words are read from left to right, and the first problem ends the reading; so does a wish for help
or for the version.  The value of a setting follows an equals sign or is the next word.  A value
that is a word of its own is *pending*: it is settled when the next option is read or the words
end.
-/

namespace ReleaseDraft

namespace CommandLine

/-- An option with a value. -/
inductive Setting where
  | tag
  | repo
  | token
  | remote
  | path
  | apiUrl
  deriving DecidableEq, Repr

/-- An option without a value. -/
inductive Flag where
  | debug
  | help
  | version
  deriving DecidableEq, Repr

/-- Why the reading of the command line ended early. -/
inductive Interruption where
  | unknownArgument
  | invalidValue
  | repeated
  | unwantedValue
  | help
  | version
  deriving DecidableEq, Repr

/-! ### Words -/

namespace Setting

/-- All settings. -/
def all : List Setting := [tag, repo, token, remote, path, apiUrl]

/-- The name of a setting. -/
def name : Setting → String
  | tag => "tag"
  | repo => "repo"
  | token => "token"
  | remote => "remote"
  | path => "path"
  | apiUrl => "api-url"

/-- The setting of a name. -/
def ofName? (name : String) : Option Setting := all.find? (·.name == name)

/-- The arguments with a setting changed. -/
def put (value : String) (args : Arguments) : Setting → Arguments
  | tag => { args with tag := some value }
  | repo => { args with repo := some value }
  | token => { args with token := value }
  | remote => { args with remote := value }
  | path => { args with path := value }
  | apiUrl => { args with apiUrl := value }

end Setting

namespace Flag

/-- The flag of a long name. -/
def ofName? (name : String) : Option Flag :=
  if name == "debug" then some debug
  else if name == "help" then some help
  else if name == "version" then some version
  else none

/-- The flag of a single letter. -/
def ofLetter? (letter : Char) : Option Flag :=
  if letter == 'h' then some help else if letter == 'V' then some version else none

end Flag

/-- A word by its form. -/
inductive Word where
  | separator
  | setting (setting : Setting) (value : Option String)
  | flag (flag : Flag) (hasValue : Bool)
  | unknown
  | plain (text : String)
  deriving DecidableEq, Repr

namespace Word

/-- A long option: its name, and its value after an equals sign. -/
def long (text : List Char) : Word :=
  let name := String.ofList (text.takeWhile (· != '='))
  let value :=
    match text.dropWhile (· != '=') with
    | [] => none
    | _ :: value => some (String.ofList value)
  match Setting.ofName? name, Flag.ofName? name with
  | some found, _ => .setting found value
  | none, some found => .flag found value.isSome
  | none, none => .unknown

/-- The form of a word. -/
def ofText (text : String) : Word :=
  match text.toList with
  | ['-', '-'] => .separator
  | '-' :: '-' :: rest => long rest
  | '-' :: letter :: _ =>
    match Flag.ofLetter? letter with
    | some found => .flag found false
    | none => .unknown
  | _ => .plain text

end Word

/-! ### Reading -/

/-- What has been read. -/
structure State where
  args : Arguments
  /-- The settings that have a value. -/
  settled : List Setting
  /-- A setting that waits for its value or has yet to be settled. -/
  pending : Option (Setting × Option String)
  deriving DecidableEq, Repr

namespace State

/-- Nothing has been read. -/
def start : State := ⟨.default, [], none⟩

/-- Gives a setting its value.  It may have one only once, and the path may not be empty. -/
def settle (s : State) (setting : Setting) (value : String) : Except Interruption State :=
  if s.settled.contains setting then .error .repeated
  else if setting == .path && value.isEmpty then .error .invalidValue
  else .ok { s with args := setting.put value s.args, settled := setting :: s.settled }

/-- Settles what is pending. -/
def flush (s : State) : Except Interruption State :=
  match s.pending with
  | none => .ok s
  | some (_, none) => .error .invalidValue
  | some (setting, some value) => { s with pending := none }.settle setting value

/-- Raises a flag. -/
def raise (s : State) : Flag → Except Interruption State
  | .debug =>
    if s.args.debug then .error .repeated else .ok { s with args := { s.args with debug := true } }
  | .help => .error .help
  | .version => .error .version

/-- Reads a word that is no separator. -/
def step (s : State) : Word → Except Interruption State
  | .setting setting (some value) => do (← s.flush).settle setting value
  | .setting setting none => do return { (← s.flush) with pending := some (setting, none) }
  | .flag _ true => .error .unwantedValue
  | .flag flag false => do (← s.flush).raise flag
  | .plain text =>
    match s.pending with
    | some (setting, none) => .ok { s with pending := some (setting, some text) }
    | _ => .error .unknownArgument
  | .unknown => .error .unknownArgument
  | .separator => .ok s

/-- Reads words.  No word may follow a separator. -/
def steps (s : State) : List String → Except Interruption State
  | [] => s.flush
  | word :: rest =>
    match Word.ofText word with
    | .separator => if rest.isEmpty then s.flush else .error .unknownArgument
    | form => do (← s.step form).steps rest

end State

/-- Reads the words of a command line. -/
def parse (words : List String) : Except Interruption Arguments :=
  (State.start.steps words).map State.args

/-! ### Help -/

/-- The version. -/
def versionText : String := "changelist 0.1.0\n"

/-- How to use the program. -/
def helpText : String :=
  "Print a draft changelog of the pull requests merged since the last release tag\n\n" ++
  "Usage: changelist [OPTIONS]\n\n" ++
  "Options:\n" ++
  "      --tag <TAG>          The tag to list changes since. Defaults to the most recent tag\n" ++
  "      --repo <REPO>        The GitHub repository (OWNER/REPO) to generate a change list for. " ++
  "Defaults to the repository of the git remote\n" ++
  "      --token <TOKEN>      GitHub API access token. Falls back to GITHUB_TOKEN env var " ++
  "[default: \"\"]\n" ++
  "      --remote <REMOTE>    Git remote used to determine the default repository " ++
  "[default: origin]\n" ++
  "      --path <PATH>        Path to the local git repository [default: .]\n" ++
  "      --api-url <API_URL>  GitHub API base URL. Set this for GitHub Enterprise installations " ++
  "[default: https://api.github.com]\n" ++
  "      --debug              Enables debug logs\n" ++
  "  -h, --help               Print help\n" ++
  "  -V, --version            Print version\n"

namespace Interruption

/-- What is printed when the user asked for it. -/
def shown? : Interruption → Option String
  | help => some helpText
  | version => some versionText
  | _ => none

end Interruption

end CommandLine

end ReleaseDraft
