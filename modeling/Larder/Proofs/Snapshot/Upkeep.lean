import Larder.Proofs.Registry.Orderly
import Larder.Proofs.Registry.Reached
import Larder.Proofs.Snapshot.Passes
import Larder.Proofs.Stash.Stored

/-!
# The upkeep of the archive

What happens to a registry and its files while a server runs: calls to registered stashes, stashes
that are created and dropped, the steps of the passes that save what changed, and the deletions of
the files of dropped stashes, each of which comes at any time after its stash was dropped.  A
deletion knows the name of the stash only.

Some of the past is written down on the way.  It decides nothing, and is there to say which stashes
values were stored in, which were saved too early, and which files outlived their deletion.
-/

namespace Larder

open Archive

/-- How far a pass is with a stash. -/
inductive Upkeep.Stage where
  | free
  /-- The mark was taken. -/
  | taken (handle : Handle)
  | listed (handle : Handle) (entries : List Stash.Entry)
  /-- The image is in its place, and it is not known yet whether the stash was dropped. -/
  | written (handle : Handle)
  /-- Saving failed, and the stash is not marked again yet. -/
  | failed (handle : Handle)

namespace Upkeep.Stage

/-- The stash that the pass is about. -/
def handle? : Stage → Option Handle
  | .free => none
  | .taken handle | .listed handle _ | .written handle | .failed handle => some handle

/-- The stash whose mark is in the hands of the pass. -/
def holder? : Stage → Option Handle
  | .free | .written _ => none
  | .taken handle | .listed handle _ | .failed handle => some handle

/-- The stash whose image is about to be in its place, or is there and may have to be taken away
again. -/
def scribe? : Stage → Option Handle
  | .listed handle _ | .written handle => some handle
  | .free | .taken _ | .failed _ => none

theorem handle?_of_holder? {stage : Stage} {handle : Handle}
    (held : stage.holder? = some handle) : stage.handle? = some handle := by
  cases stage <;> cases held <;> rfl

end Upkeep.Stage

/-- A registry and its files at a reading of the clock, and how far the pass is. -/
structure Upkeep where
  now : Nat
  registry : Registry
  disk : Disk
  stage : Upkeep.Stage := .free
  /-- The stashes in which values were stored, as often as that was done. -/
  stored : List Handle := []
  /-- The stashes that were last saved while the file of their name was still to be deleted. -/
  overtaken : List Handle := []
  /-- The names whose files were still there after they were to be deleted. -/
  stuck : List String := []

namespace Upkeep

/-- The names whose files are still there, after one was to be deleted. -/
def stuckAfter (state : Upkeep) (name : String) (disk : Disk) : List String :=
  if disk.content? (fileName name) = none then state.stuck else name :: state.stuck

/--
What can happen next.  There is one pass at a time, and it may turn to any stash.  Operations on
files fail whenever they may.  What is stored and the names that are given keep some limits.
-/
inductive Step (limits : Limits) : Upkeep → Upkeep → Prop where
  | call {state : Upkeep} {name : String} {handle : Handle} {stash : Stash} {later : Nat}
      {call : Stash.Call} (ordered : state.now ≤ later)
      (led : state.registry.handle? name = some handle)
      (found : state.registry.stash? handle = some stash) (ordinary : call.Ordinary)
      (storable : ∀ key value, call.stored? = some (key, value) →
        key.length ≤ limits.maxKeyLength ∧ value.length ≤ limits.maxValueLength) :
      Step limits state { state with
        now := later
        registry := state.registry.put handle (stash.after later call)
        stored := if call.stored?.isSome then handle :: state.stored else state.stored }
  | create {state : Upkeep} {name : String} {options : Stash.Options} {later : Nat}
      {next : Registry} (ordered : state.now ≤ later)
      (short : (Bytes.ofText name).length ≤ limits.maxNameLength)
      (bounded : options.maxKeys ≤ Word64.largest)
      (created : state.registry.create later name options = (.ok (), next)) :
      Step limits state { state with now := later, registry := next }
  | drop {state : Upkeep} {name : String} {next : Registry}
      (dropped : state.registry.drop name = (.ok (), next)) :
      Step limits state { state with registry := next }
  | take {state : Upkeep} {handle : Handle} {stash : Stash} (free : state.stage = .free)
      (found : state.registry.stash? handle = some stash) (marked : stash.dirty = true) :
      Step limits state { state with
        registry := state.registry.put handle stash.takeDirty.2, stage := .taken handle }
  | list {state : Upkeep} {handle : Handle} {stash : Stash} {later : Nat}
      {all entries : List Stash.Entry} (ordered : state.now ≤ later)
      (taken : state.stage = .taken handle) (found : state.registry.stash? handle = some stash)
      (answered : stash.entries later = .ok all) (order : entries.Perm all) :
      Step limits state { state with now := later, stage := .listed handle entries }
  | refuse {state : Upkeep} {handle : Handle} {stash : Stash} {later : Nat}
      (taken : state.stage = .taken handle) (found : state.registry.stash? handle = some stash)
      (refused : stash.entries later = .error .closed) :
      Step limits state { state with stage := .free }
  | commit {state : Upkeep} {handle : Handle} {stash : Stash} {entries : List Stash.Entry}
      {disk : Disk} (listed : state.stage = .listed handle entries)
      (found : state.registry.stash? handle = some stash)
      (written : write state.disk (imageOf stash entries) = (.ok (), disk)) :
      Step limits state { state with
        disk, stage := .written handle
        overtaken := if stash.name ∈ state.registry.deletions then handle :: state.overtaken
          else state.overtaken.filter (· ≠ handle) }
  | fail {state : Upkeep} {handle : Handle} {stash : Stash} {entries : List Stash.Entry}
      {error : Snapshot.Error} {disk : Disk} (listed : state.stage = .listed handle entries)
      (found : state.registry.stash? handle = some stash)
      (failed : write state.disk (imageOf stash entries) = (.error error, disk)) :
      Step limits state { state with disk, stage := .failed handle }
  | confirm {state : Upkeep} {handle : Handle} {stash : Stash}
      (written : state.stage = .written handle)
      (found : state.registry.stash? handle = some stash) (kept : stash.isClosed = false) :
      Step limits state { state with stage := .free }
  /-- The stash was dropped meanwhile, so its image is taken away again. -/
  | regret {state : Upkeep} {handle : Handle} {stash : Stash} {result : Except Snapshot.Error Unit}
      {disk : Disk} (written : state.stage = .written handle)
      (found : state.registry.stash? handle = some stash) (dropped : stash.isClosed = true)
      (deleted : Archive.delete state.disk stash.name = (result, disk)) :
      Step limits state { state with
        disk, stage := if result.isOk then .free else .failed handle
        stuck := state.stuckAfter stash.name disk }
  | mark {state : Upkeep} {handle : Handle} {stash : Stash} (failed : state.stage = .failed handle)
      (found : state.registry.stash? handle = some stash) :
      Step limits state { state with
        registry := state.registry.put handle stash.markDirty, stage := .free }
  /-- One of the deletions comes about. -/
  | delete {state : Upkeep} {name : String} (due : name ∈ state.registry.deletions) :
      Step limits state { state with
        registry := { state.registry with deletions := state.registry.deletions.erase name }
        disk := (Archive.delete state.disk name).2
        stuck := state.stuckAfter name (Archive.delete state.disk name).2 }
  | trouble {state : Upkeep} {faults : List (Option FileError)} :
      Step limits state { state with disk := { state.disk with faults } }

def Reaches (limits : Limits) : Upkeep → Upkeep → Prop :=
  Relation.ReflTransGen (Step limits)

theorem subset_stuckAfter (state : Upkeep) (name : String) (disk : Disk) :
    state.stuck ⊆ state.stuckAfter name disk := by
  rw [stuckAfter]
  split
  · exact List.Subset.refl _
  · exact List.subset_cons_self ..

end Upkeep

namespace Registry

variable {registry next : Registry} {handle other : Handle} {stash last : Stash} {name : String}
  {now : Nat}

theorem stash?_put (found : registry.stash? handle = some stash) (last : Stash)
    (other : Handle) :
    (registry.put handle last).stash? other =
      if other = handle then some last else registry.stash? other := by
  by_cases same : other = handle
  · subst same
    rw [if_pos rfl]
    exact stash?_put_self found last
  · rw [if_neg same]
    exact stash?_put_ne (Ne.symm same) last

/-- What holds of a stash that is there holds of the one in its place. -/
theorem exists_stash?_put {holds : Stash → Prop} (found : registry.stash? handle = some stash)
    (kept : holds stash → holds last) {rest : Stash} (there : registry.stash? other = some rest)
    (before : holds rest) :
    ∃ again, (registry.put handle last).stash? other = some again ∧ holds again := by
  rw [stash?_put found]
  by_cases same : other = handle
  · cases (same ▸ there).symm.trans found
    exact ⟨last, if_pos same, kept before⟩
  · exact ⟨rest, (if_neg same).trans there, before⟩

theorem stash?_register_of_some (found : registry.stash? handle = some stash) (now : Nat)
    (name : String) (options : Stash.Options) :
    (registry.register now name options).stash? handle = some stash :=
  (List.getElem?_append_left (List.getElem?_eq_some_iff.mp found).1).trans found

/-- The registry without the stash that is registered under a name. -/
def leftBehind (registry : Registry) (name : String) (handle : Handle) : Registry :=
  { registry with
    names := registry.names.erase name
    stashes := registry.stashes.modify handle Stash.close
    deletions := if registry.persistent then registry.deletions ++ [name] else registry.deletions }

theorem stash?_leftBehind (registry : Registry) (name : String) (gone handle : Handle) :
    (registry.leftBehind name gone).stash? handle =
      (registry.stash? handle).map fun stash => if gone = handle then stash.close else stash :=
  List.getElem?_modify ..

theorem stash?_leftBehind_cases {gone : Handle}
    (found : (registry.leftBehind name gone).stash? handle = some last) :
    ∃ stash, registry.stash? handle = some stash ∧
      (gone = handle ∧ last = stash.close ∨ gone ≠ handle ∧ last = stash) := by
  rw [stash?_leftBehind] at found
  rcases Option.map_eq_some_iff.mp found with ⟨stash, before, became⟩
  refine ⟨stash, before, ?_⟩
  split at became
  · next same => exact .inl ⟨same, became.symm⟩
  · next different => exact .inr ⟨different, became.symm⟩

/-- A stash that is dropped was registered under a name that is not the default one. -/
theorem eq_of_drop (dropped : registry.drop name = (.ok (), next)) :
    name ≠ defaultName ∧ ∃ handle, registry.handle? name = some handle ∧
      next = registry.leftBehind name handle := by
  rw [drop] at dropped
  split at dropped
  · cases dropped
  next another =>
  split at dropped
  · cases dropped
  · next handle led =>
    cases dropped
    exact ⟨another, handle, led, rfl⟩

/-- A stash that is created is a new one, unless there is one of that name. -/
theorem eq_of_create {options : Stash.Options}
    (created : registry.create now name options = (.ok (), next)) :
    next = registry ∨
      registry.handle? name = none ∧ next = registry.register now name options := by
  rw [create] at created
  split at created
  · cases created
    exact .inl rfl
  next absent =>
  split at created
  · cases created
  · cases created
    refine .inr ⟨?_, rfl⟩
    rw [FiniteMap.contains, Bool.not_eq_true, Option.isSome_eq_false_iff,
      Option.isNone_iff_eq_none] at absent
    exact absent

theorem stash?_register_cases {options : Stash.Options}
    (found : (registry.register now name options).stash? handle = some stash) :
    registry.stash? handle = some stash ∨
      handle = registry.stashes.length ∧ stash = Stash.create now name options := by
  rw [stash?, register, List.getElem?_append] at found
  split at found
  · exact .inl found
  · next beyond =>
    right
    rw [List.getElem?_singleton] at found
    split at found
    · next first =>
      cases found
      exact ⟨Nat.le_antisymm (Nat.sub_eq_zero_iff_le.mp first) (Nat.not_lt.mp beyond), rfl⟩
    · cases found

/-- What is known of every stash that ever was: it is marked only if it is saved to disk, and
unless it is dropped it is in use and registered under its name. -/
structure Sits (registry : Registry) (handle : Handle) (stash : Stash) : Prop where
  saves : stash.dirty = true → stash.options.snapshots = true
  opened : ∀ {contents}, stash.contents = some contents →
    stash.Healthy contents ∧ registry.handle? stash.name = some handle

namespace Sits

theorem put (sits : registry.Sits other last) (handle : Handle) (stash : Stash) :
    (registry.put handle stash).Sits other last :=
  ⟨sits.saves, sits.opened⟩

theorem takeDirty (sits : registry.Sits handle stash) : registry.Sits handle stash.takeDirty.2 :=
  ⟨nofun, fun opened =>
    have healthy := (sits.opened opened).1
    ⟨⟨opened, healthy.room, healthy.bounded, healthy.coherent, healthy.size_le, healthy.timely⟩,
      (sits.opened opened).2⟩⟩

theorem markDirty (sits : registry.Sits handle stash) : registry.Sits handle stash.markDirty where
  saves marked := (Bool.or_eq_true_iff.mp marked).elim sits.saves id
  opened opened := ⟨(sits.opened opened).1.markDirty, (sits.opened opened).2⟩

theorem after (sits : registry.Sits handle stash) {contents : Stash.Contents}
    (opened : stash.contents = some contents) (now : Nat) {call : Stash.Call}
    (ordinary : call.Ordinary) : registry.Sits handle (stash.after now call) := by
  rcases sits.opened opened with ⟨healthy, led⟩
  rcases Stash.exists_change healthy.opened healthy.coherent healthy.size_le now
    ordinary.notClose with ⟨next, marks, change, became⟩
  constructor
  · intro marked
    rw [became.options]
    cases marks with
    | true =>
        rw [became.marked rfl] at marked
        exact (Bool.or_eq_true_iff.mp marked).elim sits.saves id
    | false =>
        rw [became.unmarked rfl ordinary.notTaking] at marked
        exact sits.saves marked
  · intro others held
    cases became.contents.symm.trans held
    rw [became.name]
    exact ⟨healthy.change change became ordinary.usual, led⟩

theorem register (sits : registry.Sits handle stash) (absent : registry.handle? name = none)
    (now : Nat) (options : Stash.Options) :
    (registry.register now name options).Sits handle stash where
  saves := sits.saves
  opened opened := by
    rcases sits.opened opened with ⟨healthy, led⟩
    refine ⟨healthy, ?_⟩
    rw [handle?, Registry.register, FiniteMap.get?_insert, if_neg]
    · exact led
    · intro same
      rw [same, absent] at led
      cases led

theorem create (registry : Registry) (now : Nat) (name : String) {options : Stash.Options}
    (bounded : options.maxKeys ≤ Word64.largest) :
    (registry.register now name options).Sits registry.stashes.length
      (Stash.create now name options) where
  saves := nofun
  opened opened := by
    cases opened
    exact ⟨.create now name bounded, (FiniteMap.get?_insert _ _ _ _).trans (if_pos rfl)⟩

theorem erase (sits : registry.Sits other stash) (led : registry.handle? name = some handle)
    (different : other ≠ handle) {next : Registry}
    (names : next.names = registry.names.erase name) : next.Sits other stash where
  saves := sits.saves
  opened opened := by
    rcases sits.opened opened with ⟨healthy, ledOther⟩
    refine ⟨healthy, ?_⟩
    rw [handle?, names, FiniteMap.get?_erase, if_neg]
    · exact ledOther
    · intro same
      rw [same, led] at ledOther
      exact different (Option.some.inj ledOther).symm

end Sits

theorem sits_close (sits : registry.Sits handle stash) : next.Sits handle stash.close :=
  ⟨sits.saves, nofun⟩

end Registry

namespace Upkeep

/-- The registry is in order, every stash sits where it should, and the pass is about a stash that
is saved to disk. -/
structure InOrder (limit : Nat) (state : Upkeep) : Prop where
  orderly : state.registry.Orderly limit
  persistent : state.registry.persistent = true
  bounded : state.registry.defaults.maxKeys ≤ Word64.largest
  sits : ∀ {handle stash}, state.registry.stash? handle = some stash →
    state.registry.Sits handle stash
  busy : ∀ {handle}, state.stage.handle? = some handle →
    ∃ stash, state.registry.stash? handle = some stash ∧ stash.options.snapshots = true
  times : ∀ {handle entries}, state.stage = .listed handle entries → Stash.TimesFit entries
  known : ∀ handle ∈ state.stored ++ state.overtaken, handle < state.registry.stashes.length

namespace InOrder

variable {limits : Limits} {limit : Nat} {state next : Upkeep} {handle : Handle} {stash : Stash}

/-- A registered stash is open. -/
theorem exists_contents (order : state.InOrder limit) {name : String}
    (led : state.registry.handle? name = some handle)
    (found : state.registry.stash? handle = some stash) :
    stash.name = name ∧ ∃ contents, stash.contents = some contents := by
  have there : state.registry.find? name = some stash := by
    rw [Registry.find?, led]
    exact found
  have used := order.orderly.inUse there
  exact ⟨used.named, used.opened⟩

/-- Another stash may take the place of one whose name and settings it has. -/
theorem put (order : state.InOrder limit) (found : state.registry.stash? handle = some stash)
    {last : Stash} (orderly : (state.registry.put handle last).Orderly limit)
    (sits : state.registry.Sits handle last) (options : last.options = stash.options) :
    InOrder limit { state with registry := state.registry.put handle last } where
  orderly := orderly
  persistent := order.persistent
  bounded := order.bounded
  sits {other there} present := by
    rw [Registry.stash?_put found] at present
    split at present
    · next same =>
      cases present
      exact same ▸ sits.put handle last
    · exact (order.sits present).put handle last
  busy {other} about := by
    rcases order.busy about with ⟨there, present, saves⟩
    exact Registry.exists_stash?_put found (fun saves => options ▸ saves) present saves
  times := order.times
  known other present := by
    rw [Registry.put, List.length_set]
    exact order.known other present

theorem create (order : state.InOrder limit) {name : String} {options : Stash.Options}
    {later : Nat} {registry : Registry} (bounded : options.maxKeys ≤ Word64.largest)
    (created : state.registry.create later name options = (.ok (), registry)) :
    InOrder limit { state with now := later, registry } := by
  have orderly := order.orderly.create created
  rcases Registry.eq_of_create created with rfl | ⟨absent, rfl⟩
  · exact { order with }
  refine ⟨orderly, order.persistent, order.bounded, ?_, ?_, order.times, ?_⟩
  · intro handle stash found
    rcases Registry.stash?_register_cases found with old | ⟨rfl, rfl⟩
    · exact (order.sits old).register absent later options
    · exact .create _ later name bounded
  · intro handle about
    rcases order.busy about with ⟨stash, found, saves⟩
    exact ⟨stash, Registry.stash?_register_of_some found later name options, saves⟩
  · intro handle present
    rw [Registry.register, List.length_append]
    exact Nat.lt_add_right _ (order.known handle present)

theorem drop (order : state.InOrder limit) {name : String} {registry : Registry}
    (dropped : state.registry.drop name = (.ok (), registry)) :
    InOrder limit { state with registry } := by
  have orderly := order.orderly.drop dropped
  rcases Registry.eq_of_drop dropped with ⟨_, gone, led, rfl⟩
  refine ⟨orderly, order.persistent, order.bounded, ?_, ?_, order.times, ?_⟩
  · intro handle stash found
    rcases Registry.stash?_leftBehind_cases found with ⟨before, old, ⟨_, rfl⟩ | ⟨different, rfl⟩⟩
    · exact Registry.sits_close (order.sits old)
    · exact (order.sits old).erase led (Ne.symm different) rfl
  · intro handle about
    rcases order.busy about with ⟨stash, found, saves⟩
    refine ⟨_, (Registry.stash?_leftBehind ..).trans (congrArg _ found), ?_⟩
    split <;> exact saves
  · intro handle present
    rw [Registry.leftBehind, List.length_modify]
    exact order.known handle present

/-- The pass goes on with the stash that it is about, or ends. -/
theorem turn (order : state.InOrder limit) {stage : Stage} {now : Nat} {disk : Disk}
    {stuck : List String}
    (about : ∀ {handle}, stage.handle? = some handle → state.stage.handle? = some handle)
    (times : ∀ {handle entries}, stage = .listed handle entries → Stash.TimesFit entries) :
    InOrder limit { state with now, disk, stage, stuck } :=
  { order with busy := fun busy => order.busy (about busy), times }

/-- The pass ends. -/
theorem free (order : state.InOrder limit) : InOrder limit { state with stage := .free } :=
  order.turn nofun nofun

theorem start (now maxStashes : Nat) {defaults : StashDefaults} (disk : Disk)
    (bounded : defaults.maxKeys ≤ Word64.largest) :
    InOrder (max 1 maxStashes)
      { now, registry := .start now maxStashes defaults true, disk } where
  orderly := .start now maxStashes defaults true
  persistent := rfl
  bounded := bounded
  sits {handle stash} found := by
    rcases Registry.stash?_register_cases found with old | ⟨rfl, rfl⟩
    · cases old
    · exact .create (Registry.vacant maxStashes defaults true) now Registry.defaultName bounded
  busy := nofun
  times := nofun
  known := nofun

end InOrder

variable {limits : Limits} {limit : Nat} {state next : Upkeep}

theorem Step.inOrder (step : Step limits state next) (order : state.InOrder limit) :
    next.InOrder limit := by
  cases step with
  | @call name handle stash later call _ led found ordinary storable =>
      rcases (order.exists_contents led found).2 with ⟨contents, opened⟩
      have healthy := ((order.sits found).opened opened).1
      have put := order.put found
        (order.orderly.put found fun used => used.after later ordinary.notClose)
        ((order.sits found).after opened later ordinary)
        (healthy.options_after later ordinary.usual)
      refine { put with known := ?_ }
      intro other present
      split at present
      · rcases List.mem_cons.mp present with rfl | old
        · exact (List.getElem?_eq_some_iff.mp (Registry.stash?_put_self found _)).1
        · exact put.known other old
      · exact put.known other present
  | create _ _ bounded created => exact order.create bounded created
  | drop dropped => exact order.drop dropped
  | @take handle stash free found marked =>
      have put := order.put found (order.orderly.put found Stash.InUse.takeDirty)
        (order.sits found).takeDirty rfl
      refine { put with busy := ?_, times := fun listed => by cases listed }
      intro other about
      cases about
      exact ⟨_, Registry.stash?_put_self found _, (order.sits found).saves marked⟩
  | @list handle stash later all entries _ taken found answered same =>
      refine order.turn (fun about => by rw [taken]; exact about) ?_
      intro other listed known entry present
      cases known
      cases opened : stash.contents with
      | none =>
          rw [Stash.entries, Stash.open?, opened] at answered
          cases answered
      | some contents =>
          cases (Stash.entries_of_open opened later).symm.trans answered
          have healthy := ((order.sits found).opened opened).1
          exact healthy.timesFit_entries later entry (same.mem_iff.mp present)
  | refuse => exact order.free
  | @commit handle stash entries disk listed found written =>
      have turned : InOrder limit { state with disk, stage := .written handle } :=
        order.turn (fun about => by rw [listed]; exact about) fun again => by cases again
      refine { turned with known := ?_ }
      intro other present
      rcases List.mem_append.mp present with stored | overtaken
      · exact order.known other (List.mem_append_left _ stored)
      split at overtaken
      · rcases List.mem_cons.mp overtaken with rfl | old
        · exact (List.getElem?_eq_some_iff.mp found).1
        · exact order.known other (List.mem_append_right _ old)
      · exact order.known other (List.mem_append_right _ (List.mem_of_mem_filter overtaken))
  | fail listed =>
      exact order.turn (fun about => by rw [listed]; exact about) fun again => by cases again
  | confirm => exact order.free
  | @regret handle stash result disk written =>
      refine order.turn (fun about => ?_) ?_
      · rw [written]
        split at about
        · cases about
        · exact about
      · intro other listed isListed
        split at isListed <;> cases isListed
  | @mark handle stash failed found =>
      have put := order.put found (order.orderly.put found Stash.InUse.markDirty)
        (order.sits found).markDirty rfl
      exact put.free
  | delete =>
      have orderly := order.orderly
      exact { order with
        orderly := ⟨orderly.limit_eq, orderly.size_le,
          ⟨orderly.separate.known, orderly.separate.apart⟩, orderly.default, orderly.inUse⟩
        sits := fun found => ⟨(order.sits found).saves, (order.sits found).opened⟩ }
  | trouble => exact { order with }

theorem Reaches.inOrder (reaches : Reaches limits state next) (order : state.InOrder limit) :
    next.InOrder limit := by
  induction reaches with
  | refl => exact order
  | tail _ step ih => exact step.inOrder ih

end Upkeep

end Larder
