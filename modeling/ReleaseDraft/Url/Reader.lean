import ReleaseDraft.Url.Basic

/-!
# Reading URLs

`Url.parse` reads an absolute URL, `Url.resolve` a reference against a base.  A text is first
trimmed of controls and spaces and freed of tabs and line ends, then cut into a scheme, a body, a
query and a fragment (`Reference`).  A body names an authority and a path from the root, a path from
the root, or a path from the place of the base.
-/

namespace ReleaseDraft

/-- A text cut at its delimiters.  Nothing but the scheme is normalised. -/
structure Reference where
  scheme : Option (List Char)
  body : List Char
  query : Option (List Char)
  fragment : Option (List Char)

namespace Reference

/-- The text without leading and trailing controls and spaces, and without tabs and line ends. -/
def clean (text : List Char) : List Char :=
  let outer := fun c : Char => c.toNat ≤ 0x20
  (((text.dropWhile outer).reverse.dropWhile outer).reverse).filter fun c =>
    c != '\t' && c != '\n' && c != '\r'

/-- A character that a scheme may have after its first letter. -/
def inScheme (c : Char) : Bool := c.isAlphanum || c == '+' || c == '-' || c == '.'

/-- The scheme, in lower case, and the text after its colon. -/
def splitScheme (text : List Char) : Option (List Char × List Char) :=
  match text.span inScheme with
  | (first :: rest, ':' :: after) =>
    if first.isAlpha then some ((first :: rest).map Char.toLower, after) else none
  | _ => none

/-- The text before a delimiter, and the text after it if there is one. -/
def cut (delimiter : Char) (text : List Char) : List Char × Option (List Char) :=
  match text.span (· != delimiter) with
  | (before, _ :: after) => (before, some after)
  | (before, []) => (before, none)

/-- Cuts a text at its delimiters. -/
def ofText (text : List Char) : Reference :=
  let text := clean text
  let (scheme, rest) :=
    match splitScheme text with
    | some (scheme, rest) => (some scheme, rest)
    | none => (none, text)
  let (rest, fragment) := cut '#' rest
  let (body, query) := cut '?' rest
  ⟨scheme, body, query, fragment⟩

end Reference

namespace Url

/-! ### Authorities -/

/-- The text before the last delimiter, if there is one, and the text after it. -/
def cutLast (delimiter : Char) (text : List Char) : Option (List Char) × List Char :=
  match text.reverse.span (· != delimiter) with
  | (after, _ :: before) => (some before.reverse, after.reverse)
  | (_, []) => (none, text)

/-- User name and password. -/
def readUser (text : List Char) : List Char × Option (List Char) :=
  let (user, password) := Reference.cut ':' text
  (Percent.encode Percent.userInfo user,
    (password.filter (!·.isEmpty)).map (Percent.encode Percent.userInfo))

/-- The text of a host, up to a colon outside of square brackets, and the text after it. -/
def spanHost (bracketed : Bool) : List Char → List Char × List Char
  | [] => ([], [])
  | c :: rest =>
    if c == ':' && !bracketed then ([], c :: rest)
    else
      let (host, after) := spanHost (c == '[' || (bracketed && c != ']')) rest
      (c :: host, after)

/-- A port and the text after it; a port that goes without saying is left out. -/
def readPort (scheme text : List Char) : Except UrlError (Option Nat × List Char) :=
  let (digits, rest) := text.span Char.isDigit
  let port := digits.foldl (fun value c => value * 10 + (c.toNat - 48)) 0
  if 65535 < port then .error .invalidPort
  else if rest.isEmpty || rest.head? == some '/' || rest.head? == some '\\' then
    if digits.isEmpty || defaultPort? scheme == some port then .ok (none, rest)
    else .ok (some port, rest)
  else .error .invalidPort

/-- Host and port, and the text after them. -/
def readPlace (scheme text : List Char) :
    Except UrlError (Option Host × Option Nat × List Char) := do
  let (name, rest) := spanHost false text
  let host ←
    if isSpecial scheme then
      if name.isEmpty then .error .emptyHost else (Host.ofDomain name).map some
    else if name.isEmpty then
      if rest.isEmpty then .ok none else .error .emptyHost
    else (Host.ofName name).map some
  match rest with
  | ':' :: rest =>
    let (port, rest) ← readPort scheme rest
    return (host, port, rest)
  | _ => return (host, none, rest)

/-- An authority from the text after the double slash, and the text after it.  `more` says whether a
query or fragment follows. -/
def readAuthority (scheme : List Char) (more : Bool) (text : List Char) :
    Except UrlError (Authority × List Char) := do
  let (area, after) := text.span (!Path.endsSegment (isSpecial scheme) ·)
  let (userInfo, place) := cutLast '@' area
  if userInfo == some [] && place.isEmpty && (more || !after.isEmpty) then
    throw .emptyHost
  let (user, password) := readUser (userInfo.getD [])
  let (host, port, rest) ← readPlace scheme place
  if host.isNone && (!user.isEmpty || password.isSome) then
    throw .emptyHost
  return (⟨user, password, host, port⟩, rest ++ after)

/-! ### References -/

/-- The query of a reference. -/
def readQuery (scheme : List Char) (query : Option (List Char)) : Option (List Char) :=
  query.map (Percent.encode (if isSpecial scheme then Percent.specialQuery else Percent.query))

/-- The fragment of a reference. -/
def readFragment (fragment : Option (List Char)) : Option (List Char) :=
  fragment.map (Percent.encode Percent.fragment)

/-- The URL of a reference, once authority and path are known. -/
def assemble (ref : Reference) (scheme : List Char) (authority : Option Authority)
    (path : Path) : Url :=
  ⟨scheme, authority, path, readQuery scheme ref.query, readFragment ref.fragment⟩

/-- The path after an authority. -/
def readRooted (scheme text : List Char) : Path :=
  if isSpecial scheme then .segments (Path.walk true (isFile scheme) [] (text.drop 1))
  else if text.isEmpty then .segments []
  else if text.head? == some '/' then .segments (Path.walk false false [] (text.drop 1))
  else .segments (Path.walk false false [] text)

/-- A URL from the text after its double slash. -/
def afterSlashes (ref : Reference) (scheme text : List Char) : Except UrlError Url := do
  let more := ref.query.isSome || ref.fragment.isSome
  let (authority, rest) ← readAuthority scheme more text
  return assemble ref scheme (some authority) (readRooted scheme rest)

/-- A slash of either direction. -/
def isSlash (c : Char) : Bool := c == '/' || c == '\\'

/-- The segments of the base without its last one. -/
def folder (base : Url) : List (List Char) :=
  match base.path with
  | .segments list =>
    if isFile base.scheme && (list.getLast?.map Path.isNormalDrive).getD false then list
    else list.dropLast
  | .rootless _ => []

/-- A reference that is empty up to its query: the base with another query and fragment. -/
def samePlace (ref : Reference) (base : Url) : Url :=
  { base with
    query := if ref.query.isSome then readQuery base.scheme ref.query else base.query
    fragment := readFragment ref.fragment }

/-- A reference with the scheme of a base that is not a file. -/
def relative (ref : Reference) (base : Url) : Except UrlError Url :=
  let scheme := base.scheme
  let special := isSpecial scheme
  match ref.body with
  | [] => .ok (samePlace ref base)
  | first :: rest =>
    if isSlash first then
      if (rest.head?.map isSlash).getD false then
        if first == '/' && rest.head? == some '/' then afterSlashes ref scheme (rest.drop 1)
        else afterSlashes ref scheme (ref.body.dropWhile isSlash)
      else .ok (assemble ref scheme base.authority (.segments (Path.walk special false [] rest)))
    else
      .ok (assemble ref scheme base.authority
        (.segments (Path.walk special false (folder base) ref.body)))

/-! ### Files -/

/-- A file URL with a host. -/
def fileAtHost (ref : Reference) (text : List Char) : Except UrlError Url := do
  let (name, rest) := text.span (!isSlash ·)
  if Path.isDrive name then
    return assemble ref "file".toList (some .nowhere) (.segments (Path.walk true true [] text))
  let host ←
    if name.isEmpty then pure none
    else do
      let host ← Host.ofDomain name
      pure (if host = .name "localhost".toList then none else some host)
  let segments := Path.walk true true [] (rest.drop 1)
  let host := if (segments.head?.map Path.isNormalDrive).getD false then none else host
  return assemble ref "file".toList (some (.ofHost host)) (.segments segments)

/-- A file URL from the root, on the drive or at the host of the base. -/
def fileFromRoot (ref : Reference) (base : Option Url) (text : List Char) : Url :=
  let scheme := "file".toList
  let first := base.bind fun b =>
    match b.path with
    | .segments (first :: _) => if Path.isNormalDrive first then some first else none
    | _ => none
  let host := base.bind host?
  if Path.startsWithDrive text then
    assemble ref scheme (some .nowhere) (.segments (Path.walk true true [] text))
  else match first with
    | some drive =>
      assemble ref scheme (some .nowhere) (.segments (Path.walk true true [drive] text))
    | none =>
      assemble ref scheme (some (.ofHost host)) (.segments (Path.walk true true [] text))

/-- A file URL, with a base that is a file or none. -/
def file (ref : Reference) (base : Option Url) : Except UrlError Url :=
  match ref.body with
  | first :: rest =>
    if isSlash first then
      match rest with
      | second :: rest' =>
        if isSlash second then fileAtHost ref rest' else .ok (fileFromRoot ref base rest)
      | [] => .ok (fileFromRoot ref base rest)
    else match base with
      | some base =>
        if Path.startsWithDrive ref.body then
          .ok (assemble ref base.scheme (some .nowhere)
            (.segments (Path.walk true true [] ref.body)))
        else
          .ok (assemble ref base.scheme base.authority
            (.segments (Path.walk true true (folder base) ref.body)))
      | none =>
        .ok (assemble ref "file".toList (some .nowhere)
          (.segments (Path.walk true true [] ref.body)))
  | [] =>
    match base with
    | some base => .ok (samePlace ref base)
    | none =>
      .ok (assemble ref "file".toList (some .nowhere) (.segments (Path.walk true true [] [])))

/-! ### Absolute URLs and references -/

/-- A reference with a scheme. -/
def withScheme (ref : Reference) (scheme : List Char) (base : Option Url) :
    Except UrlError Url :=
  if isFile scheme then file ref (base.filter fun b => isFile b.scheme)
  else if isSpecial scheme then
    let slashes := (ref.body.takeWhile isSlash).length
    match base.filter fun b => b.scheme == scheme && slashes < 2 with
    | some base => relative ref base
    | none => afterSlashes ref scheme (ref.body.dropWhile isSlash)
  else match ref.body with
    | '/' :: '/' :: rest => afterSlashes ref scheme rest
    | '/' :: rest => .ok (assemble ref scheme none (.segments (Path.walk false false [] rest)))
    | body =>
      .ok (assemble ref scheme none (.rootless (Percent.encode Percent.control body)))

/-- A reference without a scheme. -/
def withoutScheme (ref : Reference) (base : Url) : Except UrlError Url :=
  match base.path with
  | .rootless _ =>
    if ref.body.isEmpty && ref.query.isNone && ref.fragment.isSome then .ok (samePlace ref base)
    else .error .relativeToRootless
  | .segments _ => if isFile base.scheme then file ref (some base) else relative ref base

/-- Reads an absolute URL. -/
def parse (text : List Char) : Except UrlError Url :=
  let ref := Reference.ofText text
  match ref.scheme with
  | some scheme => withScheme ref scheme none
  | none => .error .relativeWithoutBase

/-- Reads a reference against a base. -/
def resolve (base : Url) (text : List Char) : Except UrlError Url :=
  let ref := Reference.ofText text
  match ref.scheme with
  | some scheme => withScheme ref scheme (some base)
  | none => withoutScheme ref base

end Url

end ReleaseDraft
