import ReleaseDraft.Git.Tags
import ReleaseDraft.Resolution

/-!
# Remotes of a repository

A remote has an address in the settings.  Settings may also say that addresses with a given
beginning start differently; the longest such beginning counts.
-/

namespace ReleaseDraft

namespace Git

namespace Store

/-- A name that a remote can have. -/
def isRemoteName (name : List Char) : Bool :=
  RefName.isValid ("refs/remotes/".toList ++ name ++ "/test".toList)

/-- The beginnings that an address has and what stands in their place. -/
def replacements (store : Store) (address : List Char) : List (List Char × List Char) :=
  store.settings.filterMap fun (key, value) =>
    if key.group == "url" && key.item == "insteadof" && value.toList.isPrefixOf address then
      some (value.toList, key.name.toList)
    else none

/-- The address with its longest replaceable beginning replaced; of equal ones the first counts. -/
def effectiveAddress (store : Store) (address : List Char) : List Char :=
  let (start, replacement) := (store.replacements address).foldl
    (fun best candidate => if best.1.length < candidate.1.length then candidate else best)
    ([], [])
  replacement ++ address.drop start.length

/-- The address of a remote.  A remote that has only an address for sending has an empty one. -/
def remoteUrl (store : Store) (name : String) : Except Error (Option String) :=
  if name.toList.contains (Char.ofNat 0) then .error .git
  else if !isRemoteName name.toList then .ok none
  else match store.setting? ⟨"remote", name, "url"⟩, store.setting? ⟨"remote", name, "pushurl"⟩ with
    | some address, _ =>
      .ok (some (String.ofList (store.effectiveAddress address.toList)))
    | none, some _ => .ok (some "")
    | none, none => .ok none

/-- What is asked of a repository, answered from its store. -/
def vcs (store : Store) : Vcs := ⟨store.remoteUrl, store.latestTag, store.tagDate⟩

end Store

end Git

end ReleaseDraft
