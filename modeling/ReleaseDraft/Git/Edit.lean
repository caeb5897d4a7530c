import ReleaseDraft.Git.Workspace

/-!
# Edits of a workspace

The steps by which a workspace comes about: making repositories, directories and files, commits,
tags, remotes and settings.
-/

namespace ReleaseDraft

namespace Git

/-- What a new tag names: a revision, or an object of a kind. -/
inductive Target where
  | revision (text : String)
  | tree
  | blob
  deriving DecidableEq, Repr

/-- A change to a store. -/
inductive Change where
  | commit (time : Int)
  | tag (name : String) (time : Option Int) (target : Target)
  | lightTag (name : String) (target : Target)
  | deleteTag (name : String)
  | remote (name address : String)
  | deleteRemote (name : String)
  | setting (key value : String)
  deriving DecidableEq, Repr

/-- A step. -/
inductive Edit where
  | init (path : String)
  | initBare (path : String)
  | makeDirectory (path : String)
  | writeFile (path text : String)
  | change (path : String) (change : Change)
  deriving DecidableEq, Repr

namespace Store

/-- The object that a new tag names. -/
def targetObject (store : Store) : Target → Option Object
  | .tree => some .tree
  | .blob => some .blob
  | .revision text => ((Revision.ofText text.toList).resolve store).toOption

/-- The reference of a tag. -/
def tagRef (name : String) : String := "refs/tags/" ++ name

/-- The commit that the branch is at. -/
def tip (store : Store) : Option Object :=
  match store.ref? branch with
  | some (.object object) => some object
  | _ => none

/-- Applies a change; there is no result if it names what does not exist. -/
def apply (store : Store) : Change → Option Store
  | .commit time => some (store.putRef branch (.object (.commit time store.tip)))
  | .tag name time target => do
    let object ← store.targetObject target
    some (store.putRef (tagRef name) (.object (.tag object time)))
  | .lightTag name target => do
    let object ← store.targetObject target
    some (store.putRef (tagRef name) (.object object))
  | .deleteTag name => some (store.eraseRef (tagRef name))
  | .remote name address =>
    some { store with settings := putSetting ⟨"remote", name, "url"⟩ address store.settings }
  | .deleteRemote name =>
    some { store with
      settings := store.settings.filter fun (key, _) =>
        key.group != "remote" || key.name != name }
  | .setting key value =>
    some { store with settings := putSetting (.ofText key) value store.settings }

end Store

namespace Workspace

/-- The workspace with a directory and those above it. -/
def putDirectory (ws : Workspace) (place : Place) : Workspace :=
  { ws with directories := ws.directories ++ (upwards place).filter (!ws.directories.contains ·) }

/-- The workspace with a fresh store, unless the place has one. -/
def putStore (ws : Workspace) (place : Place) : Workspace :=
  let ws := ws.putDirectory place
  if (ws.stores.lookup place).isSome then ws
  else { ws with stores := (place, .fresh) :: ws.stores }

/-- The place of the store in or at a directory. -/
def storePlace? (ws : Workspace) (place : Place) : Option Place :=
  [place ++ [".git"], place].find? fun p => (ws.stores.lookup p).isSome

/-- Changes the store at a place. -/
def update (ws : Workspace) (place : Place) (f : Store → Option Store) : Option Workspace := do
  let store ← ws.stores.lookup place
  let store ← f store
  some { ws with
    stores := ws.stores.map fun (p, old) => if p == place then (p, store) else (p, old) }

/-- The store whose reference a file holds, and the name of the reference. -/
def refOfFile? (ws : Workspace) (place : Place) : Option (Place × String) :=
  ws.stores.findSome? fun (root, _) =>
    match root.isPrefixOf? place with
    | some ["HEAD"] => some (root, "HEAD")
    | some ("refs" :: rest) =>
      if rest.isEmpty then none else some (root, String.intercalate "/" ("refs" :: rest))
    | _ => none

/-- Writes a file. -/
def putFile (ws : Workspace) (place : Place) (text : String) : Option Workspace :=
  let ws := ws.putDirectory place.dropLast
  match ws.refOfFile? place with
  | some (root, name) => ws.update root fun store => some (store.putRef name (.ofFile text))
  | none => some { ws with files := (place, text) :: ws.files.filter (·.1 != place) }

/-- Applies a step; there is no result if it cannot be done. -/
def apply (ws : Workspace) : Edit → Option Workspace
  | .init path => some (ws.putStore (names path ++ [".git"]))
  | .initBare path => some (ws.putStore (names path))
  | .makeDirectory path => some (ws.putDirectory (names path))
  | .writeFile path text => ws.putFile (names path) text
  | .change path change => do
    let place ← ws.storePlace? (names path)
    ws.update place (·.apply change)

end Workspace

end Git

end ReleaseDraft
