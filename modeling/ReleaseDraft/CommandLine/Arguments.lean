import ReleaseDraft.Forge
import ReleaseDraft.Text.Blank

/-!
# Arguments

What the command line says, with defaults for what it leaves out.
-/

namespace ReleaseDraft

namespace CommandLine

/-- The arguments of a run. -/
structure Arguments where
  tag : Option String
  repo : Option String
  token : String
  remote : String
  path : String
  apiUrl : String
  debug : Bool
  deriving DecidableEq, Repr

namespace Arguments

/-- The remote whose repository is taken. -/
def defaultRemote : String := "origin"

/-- The arguments of an empty command line. -/
def default : Arguments := ⟨none, none, "", defaultRemote, ".", Forge.defaultApiUrl, false⟩

/-- The access token: that of the command line or else that of the environment, without the blanks
around it; an empty one counts as none. -/
def accessToken (args : Arguments) (environment : Option String) : Option String :=
  let given := trimmed args.token
  let token := if given.isEmpty then trimmed (environment.getD "") else given
  if token.isEmpty then none else some token

end Arguments

end CommandLine

end ReleaseDraft
