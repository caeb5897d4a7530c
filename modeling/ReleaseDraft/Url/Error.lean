/-!
# Why a text is no URL
-/

namespace ReleaseDraft

/-- The ways in which a text fails to be a URL. -/
inductive UrlError where
  | relativeWithoutBase
  | relativeToRootless
  | emptyHost
  | invalidPort
  | invalidIpv4
  | invalidIpv6
  | invalidDomain
  | invalidHostCharacter
  deriving DecidableEq, Repr

namespace UrlError

/-- The wording of a failure. -/
def message : UrlError → String
  | relativeWithoutBase => "relative URL without a base"
  | relativeToRootless => "relative URL with a cannot-be-a-base base"
  | emptyHost => "empty host"
  | invalidPort => "invalid port number"
  | invalidIpv4 => "invalid IPv4 address"
  | invalidIpv6 => "invalid IPv6 address"
  | invalidDomain => "invalid international domain name"
  | invalidHostCharacter => "invalid domain character"

end UrlError

end ReleaseDraft
