import Larder.Snapshot.Image
import Larder.Limits

/-!
# The registry of stashes

A registry knows stashes by name.  A handle to a stash stays good when the stash is dropped, and
then leads to a stash without contents, even if another one takes its name; so all stashes that
ever were are kept, and names lead to the ones that are registered.  The default stash is always
registered.  When stashes are saved to disk, dropping one also asks for its file to be deleted,
which happens at some later time.
-/

namespace Larder

/-- The place of a stash among all that ever were. -/
abbrev Handle := Nat

/-- All stashes, and the names of those that are registered. -/
structure Registry where
  limit : Nat
  defaults : StashDefaults
  persistent : Bool
  /-- All stashes that ever were. -/
  stashes : List Stash := []
  /-- The handles of the stashes that are registered. -/
  names : FiniteMap String Handle := ∅
  /-- The names whose files are to be deleted. -/
  deletions : List String := []
  deriving Repr, DecidableEq

namespace Registry

/-- The name of the stash that is always registered. -/
def defaultName : String := "default"

/-- How many batches a sweep takes out of one stash at most. -/
def sweepRounds : Nat := 16

inductive Error where
  | limitReached
  /-- The default stash stays. -/
  | cannotDropDefault
  | notFound
  deriving Repr, DecidableEq

def Error.message : Error → String
  | .limitReached => "STASH_LIMIT_REACHED"
  | .cannotDropDefault => "CANNOT_DROP_DEFAULT"
  | .notFound => "STASH_DOESNT_EXIST"

/-- The settings of a stash whose creator asks for nothing. -/
def defaultOptions (registry : Registry) : Stash.Options :=
  { maxKeys := registry.defaults.maxKeys, snapshots := registry.defaults.snapshots }

/-- The handle of the stash that is registered under a name. -/
def handle? (registry : Registry) (name : String) : Option Handle :=
  registry.names.get? name

/-- The stash that a handle leads to. -/
def stash? (registry : Registry) (handle : Handle) : Option Stash :=
  registry.stashes[handle]?

/-- The stash that is registered under a name. -/
def find? (registry : Registry) (name : String) : Option Stash :=
  (registry.handle? name).bind registry.stash?

/-- Replaces the stash that a handle leads to. -/
def put (registry : Registry) (handle : Handle) (stash : Stash) : Registry :=
  { registry with stashes := registry.stashes.set handle stash }

/-- Registers a new stash, in the place of another one of that name. -/
def register (registry : Registry) (now : Nat) (name : String) (options : Stash.Options) :
    Registry :=
  { registry with
    stashes := registry.stashes ++ [Stash.create now name options]
    names := registry.names.insert name registry.stashes.length }

/-- A registry of the default stash only.  There is room for at least one stash. -/
def start (now maxStashes : Nat) (defaults : StashDefaults) (persistent : Bool) : Registry :=
  let empty : Registry := { limit := max 1 maxStashes, defaults, persistent }
  empty.register now defaultName empty.defaultOptions

/-- A registry of the default stash only, in which earlier handles still lead to their stashes. -/
def restart (registry : Registry) (now : Nat) : Registry :=
  { registry with names := ∅ }.register now defaultName registry.defaultOptions

/-- Registers a new stash unless there is one of that name.  Says whether that was possible, and
what the registry is then. -/
def create (registry : Registry) (now : Nat) (name : String) (options : Stash.Options) :
    Except Error Unit × Registry :=
  if registry.names.contains name then (.ok (), registry)
  else if registry.limit ≤ registry.names.size then (.error .limitReached, registry)
  else (.ok (), registry.register now name options)

/-- Drops a stash: its name is free, and no handle leads to its contents any more.  Says whether
that was possible, and what the registry is then.  The name is taken out first; only then it is
known whether it led to a stash. -/
def drop (registry : Registry) (name : String) : Except Error Unit × Registry :=
  if name = defaultName then (.error .cannotDropDefault, registry)
  else
    let rest := { registry with names := registry.names.erase name }
    match registry.handle? name with
    | none => (.error .notFound, rest)
    | some handle =>
      (.ok (), { rest with
        stashes := registry.stashes.modify handle Stash.close
        deletions := if registry.persistent then registry.deletions ++ [name]
          else registry.deletions })

def handles (registry : Registry) : List Handle :=
  registry.names.values

def registered (registry : Registry) : List Stash :=
  registry.handles.filterMap registry.stash?

/-- The names of all registered stashes, in order. -/
def sortedNames (registry : Registry) : List String :=
  registry.names.keys.mergeSort fun left right => !decide (right < left)

/-- How many keys all registered stashes have. -/
def totalKeys (registry : Registry) : Nat :=
  registry.registered.foldr (fun stash total => stash.size.toOption.getD 0 + total) 0

end Registry

/-- Takes batches of keys whose lifetime is over out of a stash, until one is not full or there
were enough.  Counts the keys.  All batches go by one reading of the clock. -/
def Stash.sweep (now : Nat) : Nat → Stash → Nat × Stash
  | 0, stash => (0, stash)
  | rounds + 1, stash =>
    match stash.expireKeys now with
    | .error _ => (0, stash)
    | .ok (count, rest) =>
      if count < ExpiryWheel.defaultBatchLimit then (count, rest)
      else
        let (more, last) := Stash.sweep now rounds rest
        (count + more, last)

namespace Registry

/-- Sweeps the stash that a handle leads to. -/
def sweepAt (registry : Registry) (now : Nat) (handle : Handle) : Nat × Registry :=
  match registry.stash? handle with
  | none => (0, registry)
  | some stash =>
    let (count, rest) := stash.sweep now sweepRounds
    (count, registry.put handle rest)

/-- Sweeps all registered stashes and counts the keys that are taken out.  One reading of the clock
is good for all batches of all stashes, as if the sweep took no time; a clock that is read for each
batch may let later batches take keys that were not due at first. -/
def sweep (registry : Registry) (now : Nat) : Nat × Registry :=
  registry.handles.foldl
    (fun (total, registry) handle =>
      let (count, rest) := registry.sweepAt now handle
      (total + count, rest))
    (0, registry)

/-- The settings of a stash that is restored from its image. -/
def restoredOptions (image : Image) : Stash.Options :=
  { maxKeys := image.maxKeys, snapshots := true, offHeap := image.offHeap }

/-- Puts entries back into the stash that a handle leads to, unless it is dropped. -/
def restoreEntries (registry : Registry) (handle : Handle) (entries : List Stash.Entry) :
    Registry :=
  match registry.stash? handle with
  | none => registry
  | some stash =>
    registry.put handle
      (entries.foldl (fun stash entry => (stash.restore entry).toOption.getD stash) stash)

/-- Restores a stash from its image, and says whether that was possible.  A stash that is already
registered keeps its settings. -/
def restoreImage (registry : Registry) (now : Nat) (image : Image) : Bool × Registry :=
  match registry.create now image.name (restoredOptions image) with
  | (.error _, left) => (false, left)
  | (.ok (), ready) =>
    match ready.handle? image.name with
    | none => (false, ready)
    | some handle => (true, ready.restoreEntries handle image.entries)

/-- Restores stashes from their images, and counts those for which that was possible. -/
def restore (registry : Registry) (now : Nat) (images : List Image) : Nat × Registry :=
  images.foldl
    (fun (count, registry) image =>
      let (restored, rest) := registry.restoreImage now image
      (count + restored.toNat, rest))
    (0, registry)

end Registry

end Larder
