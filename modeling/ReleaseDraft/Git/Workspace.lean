import ReleaseDraft.Git.Remotes

/-!
# Workspaces

A workspace is a tree of directories and files with stores in it.  The repository of a place is
found by walking upwards: at each directory, first what `.git` in it is or links to, then the directory
itself.
-/

namespace ReleaseDraft

namespace Git

/-- A place in a workspace: the names on the way from its root. -/
abbrev Place := List String

/-- Directories, files with their text, and stores. -/
structure Workspace where
  directories : List Place
  files : List (Place × String)
  stores : List (Place × Store)

/-- What is found in a place. -/
inductive Finding where
  | store (store : Store)
  | nothing
  | deadLink
  | malformedLink

namespace Workspace

/-- An empty workspace. -/
def empty : Workspace := ⟨[], [], []⟩

/-! ### Places -/

/-- The directories that every store has. -/
def layout : List Place :=
  [[], ["hooks"], ["info"], ["objects"], ["objects", "info"], ["objects", "pack"], ["refs"],
    ["refs", "heads"], ["refs", "tags"]]

/-- The files that every store has. -/
def layoutFiles : List Place := [["HEAD"], ["config"], ["description"], ["info", "exclude"]]

/-- The names in a path. -/
def names (path : String) : List String :=
  (path.toList.splitOn '/').map String.ofList |>.filter fun name => name != "" && name != "."

/-- The place of a reference in its store. -/
def refPlace (name : String) : Place := names name

/-- Is a directory. -/
def isDirectory (ws : Workspace) (place : Place) : Bool :=
  place.isEmpty || ws.directories.contains place ||
    ws.stores.any fun (root, store) =>
      layout.any (fun part => root ++ part == place) ||
        store.refs.any fun (name, _) =>
          let file := root ++ refPlace name
          place.length < file.length && root.length ≤ place.length && place.isPrefixOf file

/-- Is a file. -/
def isFile (ws : Workspace) (place : Place) : Bool :=
  (ws.files.lookup place).isSome ||
    ws.stores.any fun (root, store) =>
      layoutFiles.any (fun part => root ++ part == place) ||
        store.refs.any fun (name, _) => root ++ refPlace name == place

/-- Walks along names from a place.  Every place on the way has to exist. -/
def walk (ws : Workspace) : Place → List String → Option Place
  | place, [] => some place
  | place, name :: rest =>
    if !ws.isDirectory place then none
    else if name == ".." then
      if place.isEmpty then none else ws.walk place.dropLast rest
    else
      let next := place ++ [name]
      if ws.isDirectory next || ws.isFile next then ws.walk next rest else none

/-- The place of a path, if it exists.  Nothing outside of the workspace does. -/
def locate (ws : Workspace) (origin : Place) (path : String) : Option Place :=
  if path.toList.head? == some '/' then none else ws.walk origin (names path)

/-! ### Discovery -/

/-- The mark of a link to a store. -/
def linkMark : List Char := "gitdir:".toList

/-- What a link leads to, which stands in the file `.git` of a directory. -/
def followLink (ws : Workspace) (directory : Place) (text : String) : Finding :=
  match linkMark.isPrefixOf? (Ref.trimRight text.toList) with
  | none => .malformedLink
  | some [] => .malformedLink
  | some target =>
    match ws.locate directory (String.ofList (target.dropWhile Ref.isSpace)) with
    | none => .deadLink
    | some place =>
      match ws.stores.lookup place with
      | some store => .store store
      | none => .nothing

/-- What a place is, if it may be a store or a link to one. -/
def inspect (ws : Workspace) (place : Place) : Finding :=
  match ws.stores.lookup place, ws.files.lookup place with
  | some store, _ => .store store
  | none, some text =>
    if place.getLast? == some ".git" then ws.followLink place.dropLast text else .nothing
  | none, none => .nothing

/-- The repository exactly at a place. -/
def repositoryAt (ws : Workspace) (place : Place) : Finding :=
  match ws.inspect (place ++ [".git"]) with
  | .nothing => ws.inspect place
  | finding => finding

/-- The first repository in some places. -/
def search (ws : Workspace) : List Place → Finding
  | [] => .nothing
  | place :: rest =>
    match ws.repositoryAt place with
    | .nothing => ws.search rest
    | finding => finding

/-- A place and all places above it, the nearest first. -/
def upwards (place : Place) : List Place :=
  ((List.range (place.length + 1)).map place.take).reverse

/-- The repository of a path; `shown` is the path in messages. -/
def discover (ws : Workspace) (path shown : String) : Except Error Store :=
  if path.toList.contains (Char.ofNat 0) then .error .git
  else match ws.locate [] path with
    | none => .error (.notARepository shown)
    | some place =>
      match ws.search (upwards place) with
      | .store store => .ok store
      | .malformedLink => .error .git
      | _ => .error (.notARepository shown)

/-- The log entry on a path without a repository. -/
def absenceEntry (shown : String) : LogEntry :=
  .debug ("no git repository found at " ++ shown)

/-- The repository of a path, if there is one. -/
def discoverOptional (ws : Workspace) (path shown : String) :
    Except Error (Option Store) × List LogEntry :=
  match ws.discover path shown with
  | .ok store => (.ok (some store), [])
  | .error (.notARepository place) => (.ok none, [absenceEntry place])
  | .error e => (.error e, [])

end Workspace

end Git

end ReleaseDraft
