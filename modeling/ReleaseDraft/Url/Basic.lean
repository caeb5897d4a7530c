import ReleaseDraft.Url.Host
import ReleaseDraft.Url.Path

/-!
# URLs

A URL has a scheme, an authority (who and where), a path, a query and a fragment.  `Url.text` is its
one normal form.
-/

namespace ReleaseDraft

/-- Who and where: user information, host and port.  The host is absent when it is empty. -/
structure Authority where
  user : List Char
  password : Option (List Char)
  host : Option Host
  port : Option Nat
  deriving DecidableEq, Repr

/-- A URL. -/
structure Url where
  scheme : List Char
  authority : Option Authority
  path : Path
  query : Option (List Char)
  fragment : Option (List Char)
  deriving DecidableEq, Repr

namespace Authority

/-- The authority of files on this machine. -/
def nowhere : Authority := ⟨[], none, none, none⟩

/-- The authority of a bare host. -/
def ofHost (host : Option Host) : Authority := ⟨[], none, host, none⟩

/-- User name and password with the sign that ends them. -/
def userText (a : Authority) : List Char :=
  match a.password with
  | some password => a.user ++ ':' :: password ++ ['@']
  | none => if a.user.isEmpty then [] else a.user ++ ['@']

/-- The port with its colon. -/
def portText (a : Authority) : List Char :=
  match a.port with
  | some port => ':' :: Nat.toDigits 10 port
  | none => []

/-- The text of an authority. -/
def text (a : Authority) : List Char :=
  a.userText ++ (a.host.map Host.text).getD [] ++ a.portText

end Authority

namespace Url

/-! ### Schemes -/

/-- The schemes whose URLs always have a host and a rooted path. -/
def isSpecial (scheme : List Char) : Bool :=
  ["http", "https", "ws", "wss", "ftp", "file"].any (·.toList == scheme)

/-- The scheme of local files. -/
def isFile (scheme : List Char) : Bool := scheme == "file".toList

/-- The port that goes without saying. -/
def defaultPort? (scheme : List Char) : Option Nat :=
  (["http", "ws"].find? (·.toList == scheme)).map (fun _ => 80) <|>
  (["https", "wss"].find? (·.toList == scheme)).map (fun _ => 443) <|>
  (["ftp"].find? (·.toList == scheme)).map (fun _ => 21)

/-- A place on a host of the web. -/
def https (host : String) (segments : List String) (query : Option String) : Url :=
  ⟨"https".toList, some (.ofHost (some (.name host.toList))),
    .segments (segments.map String.toList), query.map String.toList, none⟩

/-! ### Printing -/

/-- The text between scheme and path: an authority, or a guard in front of a path that would read
as one. -/
def placeText (url : Url) : List Char :=
  match url.authority, url.path with
  | some authority, _ => '/' :: '/' :: authority.text
  | none, .segments ([] :: _ :: _) => ['/', '.']
  | none, _ => []

/-- The text of a URL. -/
def text (url : Url) : List Char :=
  url.scheme ++ ':' :: url.placeText ++ url.path.text ++
    (url.query.map ('?' :: ·)).getD [] ++ (url.fragment.map ('#' :: ·)).getD []

/-- The text of a URL as a string. -/
def render (url : Url) : String := String.ofList url.text

/-! ### Parts -/

/-- The host, if there is one. -/
def host? (url : Url) : Option Host := url.authority.bind Authority.host

/-- The port that is connected to: the given one, or that of the scheme. -/
def port? (url : Url) : Option Nat :=
  url.authority.bind Authority.port <|> defaultPort? url.scheme

/-- The URL without its fragment. -/
def withoutFragment (url : Url) : Url := { url with fragment := none }

/-- The URL without user name and password. -/
def withoutUser (url : Url) : Url :=
  { url with authority := url.authority.map fun a => { a with user := [], password := none } }

/-- The URL with key and value pairs added to its query, form-encoded; no pairs leave it as
it is. -/
def addQuery (url : Url) (pairs : List (String × String)) : Url :=
  let shown := pairs.map fun (key, value) =>
    Percent.encodeForm key.toList ++ '=' :: Percent.encodeForm value.toList
  let parts := (url.query.filter (!·.isEmpty)).toList ++ shown
  if pairs.isEmpty then url else { url with query := some (['&'].intercalate parts) }

/-- The URL with a slash at the end of its path. -/
def asDirectory (url : Url) : Url :=
  match url.path with
  | .segments list =>
    if list.getLast? == some [] then url else { url with path := .segments (list ++ [[]]) }
  | .rootless _ => url

end Url

end ReleaseDraft
