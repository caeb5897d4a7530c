import ReleaseDraft.Slug
import ReleaseDraft.Url.Reader

/-!
# Addresses of git remotes

A remote is given by a URL, by a short form `user@host:path` that stands for an `ssh` URL, or by a
file path.  `RemoteAddress.url?` is the URL that an address stands for; file paths and malformed
addresses have none.  `Slug.ofRemote?` is the repository that an address names on the forge.
-/

namespace ReleaseDraft

namespace RemoteAddress

/-- The schemes under which git remotes are reached. -/
def schemes : List (List Char) :=
  ["file", "ftp", "ftps", "git", "git+ssh", "http", "https", "ssh", "unspecified"].map String.toList

/-- The text without trailing slashes. -/
def trimSlashes (text : List Char) : List Char := (text.reverse.dropWhile (· == '/')).reverse

/-- Puts a double slash after each `git:`. -/
def spellOut : List Char → List Char
  | [] => []
  | 'g' :: 'i' :: 't' :: ':' :: rest => "git://".toList ++ spellOut rest
  | c :: rest => c :: spellOut rest

/-- The text that is read as a URL: `git:host/path` is short for `git://host/path`. -/
def urlText (text : List Char) : List Char :=
  if "git:".toList.isPrefixOf text && !"git://".toList.isPrefixOf text then spellOut text else text

/-- The short form has one `@`, or starts with one, and a colon after it; a lone colon counts
too. -/
def isShort (text : List Char) : Bool :=
  let beforeColon := text.takeWhile (· != ':')
  let named := (text.splitOn '@').length == 2 || text.head? == some '@'
  text == [':'] || (text.contains ':' && beforeColon.contains '@' && named)

/-- The `ssh` URL of a short form: `a:b` or, with a port, `a:b:c`. -/
def spellOutShort (text : List Char) : Option (List Char) :=
  match text.splitOn ':' with
  | [host, path] => some ("ssh://".toList ++ host ++ '/' :: path)
  | [host, port, path] => some ("ssh://".toList ++ host ++ ':' :: port ++ '/' :: path)
  | _ => none

/-- The URL of a short form. -/
def shortUrl? (text : List Char) : Option Url := do
  let spelled ← spellOutShort text
  (Url.parse (trimSlashes spelled)).toOption

/-- The URL that an address stands for. -/
def url? (address : List Char) : Option Url :=
  let text := trimSlashes address
  if address.contains (Char.ofNat 0) then none
  else match Url.parse (urlText text) with
    | .ok url => if schemes.contains url.scheme then some url else shortUrl? text
    | .error .relativeWithoutBase => if isShort text then shortUrl? text else none
    | .error _ => none

/-- The pieces of a path between slashes, without an empty last one. -/
def pieces (path : List Char) : List (List Char) :=
  let parts := path.splitOn '/'
  if parts.getLast? == some [] then parts.dropLast else parts

/-- A name without `.git` at its end, however often it is repeated. -/
def stripGit (name : List Char) : List Char :=
  let rec go : List Char → List Char
    | 't' :: 'i' :: 'g' :: '.' :: rest => go rest
    | reversed => reversed
  (go name.reverse).reverse

/-- Owner and name in the path of a URL.  A path of one piece names both, but only in an address
that starts with `ssh`. -/
def ownerAndName? (address : List Char) (url : Url) : Option (List Char × List Char) :=
  let path := url.path.text
  let path := if url.scheme == "ssh".toList then path.drop 1 else path
  match (pieces path).reverse with
  | name :: owner :: _ => some (owner, stripGit name)
  | [name] => if "ssh".toList.isPrefixOf address then some (name, stripGit name) else none
  | [] => none

/-- The host of the forge. -/
def forgeHost : Host := .name "github.com".toList

end RemoteAddress

namespace Slug

open RemoteAddress in
/-- The repository that the address of a remote names, if it is on the forge. -/
def ofRemote? (address : String) : Option Slug := do
  let address := Text.trim address.toList
  let url ← url? address
  let (owner, name) ← ownerAndName? address url
  if Url.isFile url.scheme || url.host? != some forgeHost || owner.isEmpty || name.isEmpty then none
  else some ⟨String.ofList owner, String.ofList name⟩

end Slug

end ReleaseDraft
