import Larder.Proofs.Snapshot.Upkeep

/-!
# Whose files there are

Every file in the archive that counts as a snapshot belongs to a registered stash that is saved to
disk, or to a dropped one whose file is still to be deleted, unless deleting it failed.  It can be
read back, as long as names, keys and values are not longer than the fields of a snapshot.
-/

namespace Larder

open Archive

/-- Whether everything that keeps the limits fits into the fields of a snapshot. -/
structure Limits.FitFields (limits : Limits) : Prop where
  names : limits.maxNameLength ≤ Snapshot.maxFieldLength
  keys : limits.maxKeyLength ≤ Snapshot.maxFieldLength
  values : limits.maxValueLength ≤ Snapshot.maxFieldLength

namespace Stash

/-- A stash that has a file and fits into it, with a number of keys at most. -/
structure Saveable (count : Nat) (stash : Stash) : Prop where
  name : (Bytes.ofText stash.name).length ≤ Snapshot.maxFieldLength
  maxKeys : stash.options.maxKeys ≤ Word64.largest
  pairs : ∀ {key value}, stash.Holds key value →
    key.length ≤ Snapshot.maxFieldLength ∧ value.length ≤ Snapshot.maxFieldLength
  size_le : ∀ {contents}, stash.contents = some contents → contents.values.size ≤ count

namespace Saveable

variable {count next : Nat} {stash last : Stash} {contents : Contents}

theorem create (count now : Nat) {name : String} {options : Options}
    (short : (Bytes.ofText name).length ≤ Snapshot.maxFieldLength)
    (bounded : options.maxKeys ≤ Word64.largest) :
    (Stash.create now name options).Saveable count where
  name := short
  maxKeys := (Healthy.create now name bounded).bounded
  pairs := by
    rintro key value ⟨contents, opened, held⟩
    cases opened
    cases held
  size_le opened := by
    cases opened
    exact Nat.zero_le _

theorem mono (saveable : stash.Saveable count) (more : count ≤ next) : stash.Saveable next :=
  { saveable with size_le := fun opened => Nat.le_trans (saveable.size_le opened) more }

/-- What a stash is saved as depends on its name, its settings and its contents. -/
theorem same (saveable : stash.Saveable count) (name : last.name = stash.name)
    (options : last.options = stash.options) (contents : last.contents = stash.contents) :
    last.Saveable count where
  name := name ▸ saveable.name
  maxKeys := options ▸ saveable.maxKeys
  pairs := by
    rintro key value ⟨held, opened, found⟩
    exact saveable.pairs ⟨held, contents ▸ opened, found⟩
  size_le opened := saveable.size_le (contents ▸ opened)

theorem close (saveable : stash.Saveable count) : stash.close.Saveable count where
  name := saveable.name
  maxKeys := saveable.maxKeys
  pairs := by
    rintro key value ⟨held, opened, _⟩
    cases opened
  size_le := nofun

theorem after (saveable : stash.Saveable count) (healthy : stash.Healthy contents) (now : Nat)
    {call : Call} (usual : call.Usual)
    (storable : ∀ key value, call.stored? = some (key, value) →
      key.length ≤ Snapshot.maxFieldLength ∧ value.length ≤ Snapshot.maxFieldLength) :
    (stash.after now call).Saveable (count + call.stored?.isSome.toNat) := by
  rcases exists_change healthy.opened healthy.coherent healthy.size_le now usual.1 with
    ⟨_, _, _, became⟩
  refine ⟨became.name ▸ saveable.name, became.options ▸ saveable.maxKeys, ?_, ?_⟩
  · intro key value holds
    rcases healthy.holds_or_stored now usual holds with held | stored
    · exact saveable.pairs held
    · exact storable key value stored
  · intro rest opened
    exact Nat.le_trans (healthy.size_after_le now usual opened)
      (Nat.add_le_add_right (saveable.size_le healthy.opened) _)

theorem listed (saveable : stash.Saveable count) (healthy : stash.Healthy contents) (now : Nat)
    {entries : List Entry} (order : entries.Perm (contents.entries now)) :
    entries.length ≤ count ∧ ∀ entry ∈ entries,
      entry.key.length ≤ Snapshot.maxFieldLength ∧
        entry.value.length ≤ Snapshot.maxFieldLength := by
  constructor
  · rw [order.length_eq]
    exact Nat.le_trans (healthy.coherent.length_entries_le now) (saveable.size_le healthy.opened)
  · intro entry present
    have found := (healthy.coherent.mem_entries.mp (order.mem_iff.mp present)).1
    exact saveable.pairs
      (healthy.holds_iff.mpr ⟨entry, healthy.coherent.mem_records.mpr found, rfl, rfl⟩)

end Saveable

end Stash

namespace Upkeep

/-- Why a file of a name may be in the archive. -/
inductive Accounted (state : Upkeep) (name : String) : Prop where
  | registered {handle : Handle} {stash : Stash}
      (led : state.registry.handle? name = some handle)
      (found : state.registry.stash? handle = some stash)
      (saves : stash.options.snapshots = true)
  | due (outstanding : name ∈ state.registry.deletions)
  | stuck (left : name ∈ state.stuck)
  /-- The stash was dropped while it was saved, and that is not noticed yet. -/
  | late {handle : Handle} {stash : Stash} (written : state.stage = .written handle)
      (found : state.registry.stash? handle = some stash) (dropped : stash.contents = none)
      (named : stash.name = name)

/-- A file with an image that can be read back if it has not too many entries. -/
structure OnFile (count : Nat) (file : String) (content : Bytes) (image : Image) : Prop where
  file_eq : file = fileName image.name
  content_eq : content = image.encode
  named : image.name ≠ ""
  length_le : image.entries.length ≤ count
  fits : image.entries.length < UInt32.size → image.Fits

/-- Every file that counts as a snapshot can be read back and is accounted for. -/
def AllAccounted (state : Upkeep) : Prop :=
  ∀ file content, isSnapshot file = true → state.disk.content? file = some content →
    ∃ image, OnFile state.stored.length file content image ∧ state.Accounted image.name

/-- Every stash can be saved, and so was every file that counts as a snapshot. -/
structure Tidy (state : Upkeep) : Prop where
  saveable : ∀ {handle stash}, state.registry.stash? handle = some stash →
    stash.Saveable state.stored.length
  listed : ∀ {handle entries}, state.stage = .listed handle entries →
    entries.length ≤ state.stored.length ∧ ∀ entry ∈ entries,
      entry.key.length ≤ Snapshot.maxFieldLength ∧ entry.value.length ≤ Snapshot.maxFieldLength
  accessible : state.disk.directory ≠ .obstructed
  files : state.AllAccounted

variable {limits : Limits} {limit : Nat} {state next : Upkeep} {handle : Handle} {stash : Stash}

theorem OnFile.mono {count more : Nat} {file : String} {content : Bytes} {image : Image}
    (onFile : OnFile count file content image) (ordered : count ≤ more) :
    OnFile more file content image :=
  { onFile with length_le := Nat.le_trans onFile.length_le ordered }

/-- Replacing a stash by one with its settings leaves what files are accounted for, if the stash is
not about to be found dropped. -/
theorem Accounted.put {name : String} (accounted : state.Accounted name)
    (found : state.registry.stash? handle = some stash) {last : Stash}
    (options : last.options = stash.options)
    (registry : next.registry = state.registry.put handle last) (stuck : next.stuck = state.stuck)
    (late : ∀ {place}, state.stage = .written place →
      next.stage = .written place ∧ (place = handle → stash.contents ≠ none)) :
    next.Accounted name := by
  cases accounted with
  | @registered place known led present saves =>
      have replaced : ∃ again, (state.registry.put handle last).stash? place = some again ∧
          again.options.snapshots = true :=
        Registry.exists_stash?_put found (fun saves => options ▸ saves) present saves
      rw [← registry] at replaced
      rcases replaced with ⟨again, there, saves⟩
      rw [show state.registry.handle? = next.registry.handle? by rw [registry]; rfl] at led
      exact .registered led there saves
  | due outstanding =>
      refine .due ?_
      rwa [show next.registry.deletions = state.registry.deletions by rw [registry]; rfl]
  | stuck left => exact .stuck (stuck ▸ left)
  | @late place known written present dropped named =>
      have different : place ≠ handle := by
        intro same
        cases (same ▸ present).symm.trans found
        exact (late written).2 same dropped
      have there := (Registry.stash?_put_ne (Ne.symm different) last).trans present
      rw [← registry] at there
      exact .late (late written).1 there dropped named

/-- Turning the pass to something else leaves what files are accounted for. -/
theorem Accounted.turn {name : String} (accounted : state.Accounted name)
    (registry : next.registry = state.registry) (stuck : state.stuck ⊆ next.stuck)
    (late : ∀ {handle stash}, state.stage = .written handle →
      state.registry.stash? handle = some stash → stash.contents = none → stash.name = name →
      next.Accounted name) : next.Accounted name := by
  cases accounted with
  | registered led found saves =>
      rw [← registry] at led found
      exact .registered led found saves
  | due outstanding =>
      rw [← registry] at outstanding
      exact .due outstanding
  | stuck left => exact .stuck (stuck left)
  | late written found dropped named => exact late written found dropped named

/-- Of a new stash there is no file, and others are accounted for as before. -/
theorem Accounted.register {name : String} (accounted : state.Accounted name) {fresh : String}
    {now : Nat} {options : Stash.Options} (absent : state.registry.handle? fresh = none) :
    Accounted { state with now, registry := state.registry.register now fresh options } name := by
  have old {handle : Handle} {stash : Stash} (found : state.registry.stash? handle = some stash) :=
    Registry.stash?_register_of_some found now fresh options
  cases accounted with
  | registered led found saves =>
      refine .registered ?_ (old found) saves
      refine (FiniteMap.get?_insert _ _ _ _).trans ((if_neg ?_).trans led)
      rintro rfl
      rw [absent] at led
      cases led
  | due outstanding => exact .due outstanding
  | stuck left => exact .stuck left
  | late written found dropped named => exact .late written (old found) dropped named

/-- The file of a dropped stash is to be deleted. -/
theorem Accounted.drop {name gone : String} (accounted : state.Accounted name)
    (persistent : state.registry.persistent = true) {registry : Registry}
    (dropped : state.registry.drop gone = (.ok (), registry)) :
    Accounted { state with registry } name := by
  rcases Registry.eq_of_drop dropped with ⟨_, place, led, rfl⟩
  have deletions : (state.registry.leftBehind gone place).deletions =
      state.registry.deletions ++ [gone] := if_pos persistent
  have after {handle : Handle} {stash : Stash}
      (found : state.registry.stash? handle = some stash) :=
    (state.registry.stash?_leftBehind gone place handle).trans (congrArg _ found)
  cases accounted with
  | registered known found saves =>
      by_cases same : name = gone
      · exact .due (deletions ▸ List.mem_append_right _ (List.mem_singleton.mpr same))
      · refine .registered ((FiniteMap.get?_erase _ _ _).trans ((if_neg same).trans known))
          (after found) ?_
        split <;> exact saves
  | due outstanding => exact .due (deletions ▸ List.mem_append_left _ outstanding)
  | stuck left => exact .stuck left
  | late written found closed named =>
      refine .late written (after found) ?_ ?_ <;> dsimp only
      · split
        · rfl
        · exact closed
      · split <;> exact named

namespace Tidy

theorem saveable_put (tidy : state.Tidy) (found : state.registry.stash? handle = some stash)
    {last : Stash} {count : Nat} (more : state.stored.length ≤ count)
    (saveable : last.Saveable count) {other : Handle} {rest : Stash}
    (there : (state.registry.put handle last).stash? other = some rest) : rest.Saveable count := by
  rw [Registry.stash?_put found] at there
  split at there
  · cases there
    exact saveable
  · exact (tidy.saveable there).mono more

/-- Files that are left are accounted for. -/
theorem files_kept (tidy : state.Tidy) (stored : state.stored.length ≤ next.stored.length)
    (kept : ∀ {file content}, isSnapshot file = true → next.disk.content? file = some content →
      state.disk.content? file = some content)
    (accounted : ∀ {name}, next.disk.content? (fileName name) ≠ none → state.Accounted name →
      next.Accounted name) :
    next.AllAccounted := by
  intro file content snapshot there
  rcases tidy.files file content snapshot (kept snapshot there) with ⟨image, onFile, known⟩
  refine ⟨image, onFile.mono stored, accounted ?_ known⟩
  rw [← onFile.file_eq, there]
  nofun

/-- A pass that turns to something else. -/
theorem turn (tidy : state.Tidy) {stage : Stage} {now : Nat}
    (listed : ∀ {handle entries}, stage = .listed handle entries →
      entries.length ≤ state.stored.length ∧ ∀ entry ∈ entries,
        entry.key.length ≤ Snapshot.maxFieldLength ∧
          entry.value.length ≤ Snapshot.maxFieldLength)
    (late : ∀ {handle stash}, state.stage = .written handle →
      state.registry.stash? handle = some stash → stash.contents ≠ none) :
    Tidy { state with now, stage } where
  saveable := tidy.saveable
  listed := listed
  accessible := tidy.accessible
  files := tidy.files_kept (Nat.le_refl _) (fun _ => id) fun _ known =>
    known.turn rfl (List.Subset.refl _) fun written found dropped _ =>
      absurd dropped (late written found)

/-- A stash that is replaced by one with its name, its settings and its contents. -/
theorem put (tidy : state.Tidy) (found : state.registry.stash? handle = some stash) (last : Stash)
    (stage : Stage) (name : last.name = stash.name) (options : last.options = stash.options)
    (contents : last.contents = stash.contents)
    (unlisted : ∀ {handle entries}, stage ≠ .listed handle entries)
    (unwritten : ∀ {handle}, state.stage ≠ .written handle) :
    Tidy { state with registry := state.registry.put handle last, stage } where
  saveable := tidy.saveable_put found (Nat.le_refl _)
    ((tidy.saveable found).same name options contents)
  listed is_listed := absurd is_listed unlisted
  accessible := tidy.accessible
  files := tidy.files_kept (Nat.le_refl _) (fun _ => id) fun _ known =>
    known.put found options rfl rfl fun written => absurd written unwritten

theorem call (tidy : state.Tidy) (fields : limits.FitFields) (order : state.InOrder limit)
    {name : String} {later : Nat} {call : Stash.Call}
    (led : state.registry.handle? name = some handle)
    (found : state.registry.stash? handle = some stash) (ordinary : call.Ordinary)
    (storable : ∀ key value, call.stored? = some (key, value) →
      key.length ≤ limits.maxKeyLength ∧ value.length ≤ limits.maxValueLength) :
    Tidy { state with
      now := later
      registry := state.registry.put handle (stash.after later call)
      stored := if call.stored?.isSome then handle :: state.stored else state.stored } := by
  rcases (order.exists_contents led found).2 with ⟨contents, opened⟩
  have healthy := ((order.sits found).opened opened).1
  have length : (if call.stored?.isSome then handle :: state.stored else state.stored).length =
      state.stored.length + call.stored?.isSome.toNat := by
    cases call.stored?.isSome <;> rfl
  have more : state.stored.length ≤
      (if call.stored?.isSome then handle :: state.stored else state.stored).length := by
    rw [length]
    exact Nat.le_add_right _ _
  refine ⟨?_, ?_, tidy.accessible, ?_⟩
  · refine tidy.saveable_put found more ?_
    rw [length]
    refine (tidy.saveable found).after healthy later ordinary.usual fun key value stored => ?_
    rcases storable key value stored with ⟨short, fits⟩
    exact ⟨Nat.le_trans short fields.keys, Nat.le_trans fits fields.values⟩
  · intro place entries listed
    rcases tidy.listed listed with ⟨few, sizes⟩
    exact ⟨Nat.le_trans few more, sizes⟩
  · refine tidy.files_kept more (fun _ => id) fun _ known => ?_
    refine known.put found (healthy.options_after later ordinary.usual) rfl rfl fun written => ?_
    refine ⟨written, fun _ => ?_⟩
    rw [opened]
    nofun

theorem create (tidy : state.Tidy) (fields : limits.FitFields) {name : String}
    {options : Stash.Options} {later : Nat} {registry : Registry}
    (short : (Bytes.ofText name).length ≤ limits.maxNameLength)
    (bounded : options.maxKeys ≤ Word64.largest)
    (created : state.registry.create later name options = (.ok (), registry)) :
    Tidy { state with now := later, registry } := by
  rcases Registry.eq_of_create created with rfl | ⟨absent, rfl⟩
  · exact { tidy with
      files := tidy.files_kept (Nat.le_refl _) (fun _ => id) fun _ known =>
        known.turn rfl (List.Subset.refl _) fun written found dropped named =>
          .late written found dropped named }
  · refine ⟨?_, tidy.listed, tidy.accessible, ?_⟩
    · intro handle stash found
      rcases Registry.stash?_register_cases found with old | ⟨_, rfl⟩
      · exact tidy.saveable old
      · exact .create _ later (Nat.le_trans short fields.names) bounded
    · exact tidy.files_kept (Nat.le_refl _) (fun _ => id) fun _ known => known.register absent

theorem drop (tidy : state.Tidy) (persistent : state.registry.persistent = true) {name : String}
    {registry : Registry} (dropped : state.registry.drop name = (.ok (), registry)) :
    Tidy { state with registry } := by
  refine ⟨?_, tidy.listed, tidy.accessible, ?_⟩
  · intro handle stash found
    rcases Registry.eq_of_drop dropped with ⟨_, gone, _, rfl⟩
    rcases Registry.stash?_leftBehind_cases found with ⟨before, old, ⟨_, rfl⟩ | ⟨_, rfl⟩⟩
    · exact (tidy.saveable old).close
    · exact tidy.saveable old
  · exact tidy.files_kept (Nat.le_refl _) (fun _ => id) fun _ known =>
      known.drop persistent dropped

theorem accessible_write {disk : Disk} (accessible : disk.directory ≠ .obstructed)
    (image : Image) : (write disk image).2.directory ≠ .obstructed := by
  refine @kept_by_write disk image (·.directory ≠ .obstructed) ?_ accessible
  intro operation _ disk accessible obstructed
  exact accessible (Disk.obstructed_of_apply obstructed)

/-- Writing an image leaves the snapshots of other stashes. -/
theorem content?_write_snapshot {disk : Disk} {image : Image} {file : String}
    (snapshot : isSnapshot file = true) (other : fileName image.name ≠ file) :
    (write disk image).2.content? file = disk.content? file := by
  refine content?_write ?_ other
  rintro rfl
  rw [not_isSnapshot_draftFile] at snapshot
  cases snapshot

theorem commit (tidy : state.Tidy) (order : state.InOrder limit) {entries : List Stash.Entry}
    {disk : Disk} {overtaken : List Handle} (listed : state.stage = .listed handle entries)
    (found : state.registry.stash? handle = some stash)
    (written : write state.disk (imageOf stash entries) = (.ok (), disk)) :
    Tidy { state with disk, stage := .written handle, overtaken } := by
  have saveable := tidy.saveable found
  rcases tidy.listed listed with ⟨few, sizes⟩
  have held := (Disk.read_eq_ok_iff.mp (read_of_write written)).1
  have elsewhere {file : String} (snapshot : isSnapshot file = true)
      (other : fileName stash.name ≠ file) : disk.content? file = state.disk.content? file := by
    have kept := @content?_write_snapshot state.disk (imageOf stash entries) file snapshot other
    rwa [written] at kept
  have accessible := accessible_write tidy.accessible (imageOf stash entries)
  rw [written] at accessible
  refine ⟨tidy.saveable, nofun, accessible, ?_⟩
  intro file content snapshot there
  by_cases own : fileName stash.name = file
  · subst own
    cases held.symm.trans there
    have named : stash.name ≠ "" := by
      intro unnamed
      rw [unnamed] at snapshot
      exact absurd snapshot (by decide)
    refine ⟨imageOf stash entries, ⟨rfl, rfl, named, few, fun count => ?_⟩, ?_⟩
    · refine ⟨saveable.name, saveable.maxKeys, count, fun entry present => ?_⟩
      exact ⟨(sizes entry present).1, (sizes entry present).2, order.times listed entry present⟩
    · cases opened : stash.contents with
      | none => exact .late rfl found opened rfl
      | some contents =>
          rcases order.busy (by rw [listed]; rfl) with ⟨again, present, saves⟩
          cases found.symm.trans present
          exact .registered ((order.sits found).opened opened).2 found saves
  · rw [show Upkeep.disk _ = disk from rfl, elsewhere snapshot own] at there
    rcases tidy.files file content snapshot there with ⟨image, onFile, known⟩
    refine ⟨image, onFile, known.turn rfl (List.Subset.refl _) fun late => ?_⟩
    rw [listed] at late
    cases late

theorem fail (tidy : state.Tidy) {entries : List Stash.Entry} {error : Snapshot.Error}
    {disk : Disk} (listed : state.stage = .listed handle entries)
    (failed : write state.disk (imageOf stash entries) = (.error error, disk)) :
    Tidy { state with disk, stage := .failed handle } := by
  have accessible := accessible_write tidy.accessible (imageOf stash entries)
  rw [failed] at accessible
  refine ⟨tidy.saveable, nofun, accessible, ?_⟩
  refine tidy.files_kept (Nat.le_refl _) ?_ fun _ known => ?_
  · intro file content snapshot there
    by_cases own : fileName stash.name = file
    · subst own
      exact (content?_of_write_error failed).symm.trans there
    · have kept := @content?_write_snapshot state.disk (imageOf stash entries) file snapshot own
      rw [failed] at kept
      exact kept.symm.trans there
  · refine known.turn rfl (List.Subset.refl _) fun late => ?_
    rw [listed] at late
    cases late

/-- Deleting a file leaves it or not, and what is left is known to be stuck. -/
theorem deleted (tidy : state.Tidy) {name : String} {registry : Registry} {stage : Stage}
    (stashes : ∀ {handle}, registry.stash? handle = state.registry.stash? handle)
    (unlisted : ∀ {handle entries}, stage = .listed handle entries →
      state.stage = .listed handle entries)
    (accounted : ∀ {other}, other ≠ name → state.Accounted other →
      Accounted { state with
        registry, stage
        disk := (Archive.delete state.disk name).2
        stuck := state.stuckAfter name (Archive.delete state.disk name).2 } other) :
    Tidy { state with
      registry, stage
      disk := (Archive.delete state.disk name).2
      stuck := state.stuckAfter name (Archive.delete state.disk name).2 } := by
  refine ⟨fun found => tidy.saveable (stashes ▸ found), fun listed => tidy.listed (unlisted listed),
    accessible_delete tidy.accessible name, ?_⟩
  refine tidy.files_kept (Nat.le_refl _) ?_ fun {other} present known => ?_
  · intro file content _ there
    by_cases own : fileName name = file
    · subst own
      rcases content?_delete_self state.disk name with gone | same
      · rw [show Upkeep.disk _ = (Archive.delete state.disk name).2 from rfl, gone] at there
        cases there
      · exact same.symm.trans there
    · exact (content?_delete own).symm.trans there
  · by_cases own : other = name
    · subst own
      refine .stuck ?_
      rw [stuckAfter, if_neg present]
      exact List.mem_cons_self
    · exact accounted own known

theorem start (now maxStashes : Nat) {defaults : StashDefaults} {disk : Disk}
    (bounded : defaults.maxKeys ≤ Word64.largest) (accessible : disk.directory ≠ .obstructed)
    (nothing : ∀ file content, disk.content? file = some content → isSnapshot file = false) :
    Tidy { now, registry := .start now maxStashes defaults true, disk } where
  saveable {handle stash} found := by
    rcases Registry.stash?_register_cases found with old | ⟨_, rfl⟩
    · cases old
    · exact .create _ now (by decide +kernel) bounded
  listed := nofun
  accessible := accessible
  files file content snapshot there := by
    rw [nothing file content there] at snapshot
    cases snapshot

end Tidy

theorem Step.tidy (step : Step limits state next) (fields : limits.FitFields)
    (order : state.InOrder limit) (tidy : state.Tidy) : next.Tidy := by
  cases step with
  | call _ led found ordinary storable => exact tidy.call fields order led found ordinary storable
  | create _ short bounded created => exact tidy.create fields short bounded created
  | drop dropped => exact tidy.drop order.persistent dropped
  | @take handle stash free found =>
      refine tidy.put found stash.takeDirty.2 (.taken handle) rfl rfl rfl
        (fun listed => by cases listed) fun written => ?_
      rw [free] at written
      cases written
  | @list handle stash later all entries _ taken found answered same =>
      refine tidy.turn ?_ fun written => by rw [taken] at written; cases written
      intro place names listed
      cases listed
      cases opened : stash.contents with
      | none =>
          rw [Stash.entries, Stash.open?, opened] at answered
          cases answered
      | some contents =>
          cases (Stash.entries_of_open opened later).symm.trans answered
          have healthy := ((order.sits found).opened opened).1
          exact (tidy.saveable found).listed healthy later same
  | refuse taken =>
      exact tidy.turn (fun listed => by cases listed)
        fun written => by rw [taken] at written; cases written
  | commit listed found written => exact tidy.commit order listed found written
  | fail listed _ failed => exact tidy.fail listed failed
  | confirm written found kept =>
      refine tidy.turn (fun listed => by cases listed) fun again there closed => ?_
      cases written.symm.trans again
      cases found.symm.trans there
      rw [Stash.isClosed, closed] at kept
      cases kept
  | @regret handle stash result disk written found dropped deleted =>
      rw [show disk = (Archive.delete state.disk stash.name).2 by rw [deleted]]
      refine tidy.deleted rfl ?_ fun other known => ?_
      · intro place entries listed
        split at listed <;> cases listed
      · refine known.turn rfl (subset_stuckAfter ..) fun again there _ named => ?_
        cases written.symm.trans again
        cases found.symm.trans there
        exact absurd named.symm other
  | @mark handle stash failed found =>
      refine tidy.put found stash.markDirty .free rfl rfl rfl (fun listed => by cases listed)
        fun written => ?_
      rw [failed] at written
      cases written
  | @delete name due =>
      refine tidy.deleted rfl id fun other known => ?_
      cases known with
      | registered led found saves => exact .registered led found saves
      | due outstanding => exact .due ((List.mem_erase_of_ne other).mpr outstanding)
      | stuck left => exact .stuck (subset_stuckAfter _ _ _ left)
      | late written found closed named => exact .late written found closed named
  | trouble =>
      exact { tidy with
        files := tidy.files_kept (Nat.le_refl _) (fun _ => id) fun _ known =>
          known.turn rfl (List.Subset.refl _) fun written found dropped named =>
            .late written found dropped named }

theorem Reaches.tidy (reaches : Reaches limits state next) (fields : limits.FitFields)
    (order : state.InOrder limit) (tidy : state.Tidy) : next.Tidy := by
  induction reaches with
  | refl => exact tidy
  | tail earlier step ih => exact step.tidy fields (Reaches.inOrder earlier order) ih

end Upkeep

end Larder
