import Larder.Registry
import Larder.Snapshot.Archive

/-!
# Saving what changed

A pass saves every registered stash that changed since it was last saved.  A stash counts as saved
before its entries are read, so that a change during the pass is not lost, and as changed again if
saving fails.  The files of dropped stashes are deleted apart from the passes.
-/

namespace Larder.Registry

/-- Saves the stash that a handle leads to, if it changed, and says whether it was saved. -/
def saveAt (registry : Registry) (disk : Disk) (now : Nat) (handle : Handle) :
    Bool × Registry × Disk :=
  match registry.stash? handle with
  | none => (false, registry, disk)
  | some stash =>
    let (dirty, taken) := stash.takeDirty
    if dirty then
      match Archive.save disk now taken with
      | (.ok _, disk) => (true, registry.put handle taken, disk)
      | (.error _, disk) => (false, registry.put handle taken.markDirty, disk)
    else (false, registry, disk)

/-- Saves all registered stashes that changed, and counts them. -/
def saveDirty (registry : Registry) (disk : Disk) (now : Nat) : Nat × Registry × Disk :=
  registry.handles.foldl
    (fun (count, registry, disk) handle =>
      let (saved, registry, disk) := registry.saveAt disk now handle
      (count + saved.toNat, registry, disk))
    (0, registry, disk)

/-- Deletes the files of dropped stashes, as far as that succeeds. -/
def runDeletions (registry : Registry) (disk : Disk) : Registry × Disk :=
  ({ registry with deletions := [] },
    registry.deletions.foldl (fun disk name => (Archive.delete disk name).2) disk)

end Larder.Registry
