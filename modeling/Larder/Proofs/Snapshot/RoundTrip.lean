import Larder.Proofs.Registry
import Larder.Proofs.Snapshot.Kept

/-!
# Saving and restoring

What is saved is read back, but for the lifetimes that are over by then, and a stash that is
restored answers as the one that was saved.
-/

namespace Larder

/-- The entries that are listed later are those of now that are left. -/
theorem Stash.Contents.Coherent.perm_entries_later {contents : Stash.Contents}
    (coherent : contents.Coherent) {now later : Nat} (ordered : now ≤ later) :
    ((contents.entries now).filter (Stash.Entry.isLive later)).Perm (contents.entries later) := by
  have listed := (coherent.perm_entries now).filter (Stash.Entry.isLive later)
  rw [Stash.filter_isLive_of_le ordered] at listed
  exact listed.trans (coherent.perm_entries later).symm

/-- Stashes that list the same entries and give the same answers to those who look a key up. -/
structure Stash.AnswersLike (stash other : Stash) (now : Nat) : Prop where
  get : ∀ key, (stash.get now key).map Prod.fst = (other.get now key).map Prod.fst
  peek : ∀ key, stash.peek now key = other.peek now key
  contains : ∀ key, stash.contains now key = other.contains now key
  entries : ∃ listed others, stash.entries now = .ok listed ∧ other.entries now = .ok others ∧
    listed.Perm others

theorem Stash.answersLike_of_perm {stash other : Stash} {contents others : Stash.Contents}
    {now : Nat} (opened : stash.contents = some contents) (opened' : other.contents = some others)
    (coherent : contents.Coherent) (coherent' : others.Coherent)
    (same : (contents.entries now).Perm (others.entries now)) : stash.AnswersLike other now := by
  have answers := Stash.answers_of_perm opened opened' coherent coherent' same
  exact ⟨fun key => (answers key).2.1, fun key => (answers key).1, fun key => (answers key).2.2,
    _, _, Stash.entries_of_open opened now, Stash.entries_of_open opened' now, same⟩

namespace Archive

open Snapshot

section Load

variable {disk : Disk} {saves : List Save}

theorem load_of_read {directory : Directory} {file : String} {image : Image} (fits : image.Fits)
    (held : directory.read file = .ok image.encode) (now : Nat) :
    load directory now file = .ok (image.liveAt now) := by
  rw [load, held]
  exact Image.read_encode fits now

/-- All images in a directory. -/
def images (directory : Directory) (now : Nat) : List Image :=
  (directory.listing.filter isSnapshot).filterMap fun file => (load directory now file).toOption

theorem loadAll_of_accessible {directory : Directory} (accessible : directory ≠ .obstructed)
    (now : Nat) : loadAll directory now = .ok (images directory now) := by
  cases directory with
  | obstructed => exact absurd rfl accessible
  | missing | present => rfl

theorem Holds.perm_snapshots (holds : Holds disk saves) :
    (disk.directory.listing.filter isSnapshot).Perm (saves.map Save.file) := by
  apply (List.perm_ext_iff_of_nodup ?_ ?_).mpr
  · intro file
    rw [List.mem_filter, Disk.mem_listing, Option.ne_none_iff_exists', List.mem_map]
    constructor
    · rintro ⟨⟨content, held⟩, snapshot⟩
      exact holds.others file content held snapshot
    · rintro ⟨save, present, rfl⟩
      refine ⟨⟨_, (Disk.read_eq_ok_iff.mp (holds.held save present)).1⟩, ?_⟩
      exact holds.isSnapshot_file present
  · exact disk.directory.nodup_listing.filter _
  · have names := holds.distinct.map fun _ _ => @fileName_injective _ _
    rwa [List.map_map] at names

/-- All that was saved is loaded. -/
theorem Holds.exists_loadAll (holds : Holds disk saves) (now : Nat) :
    ∃ images, loadAll disk.directory now = .ok images ∧
      images.Perm (saves.map fun save => save.image.liveAt now) := by
  have read : (saves.map Save.file).filterMap
      (fun file => (load disk.directory now file).toOption) =
        saves.map fun save => save.image.liveAt now := by
    rw [List.filterMap_map, ← List.filterMap_eq_map]
    apply List.filterMap_congr
    intro save present
    have loaded := load_of_read (holds.storable save present).fits (holds.held save present) now
    rw [Function.comp_apply, loaded]
    rfl
  refine ⟨images disk.directory now, loadAll_of_accessible holds.accessible now, ?_⟩
  rw [← read]
  exact holds.perm_snapshots.filterMap _

end Load

section Restore

variable {save : Save} {saves : List Save}

/-- A new stash into which an image is restored answers as the stash that was saved. -/
theorem Save.Storable.answersLike_restored (storable : save.Storable) {now time : Nat}
    (saved : save.now ≤ now) (ordered : now ≤ time) (created : Nat) (name : String)
    {options : Stash.Options}
    (room : (save.image.liveAt now).entries.length ≤ max 1 options.maxKeys) :
    ((Stash.create created name options).restoreAll (save.image.liveAt now).entries).AnswersLike
      save.stash time := by
  rcases storable.reached.exists_healthy with ⟨contents, healthy⟩
  rcases Save.entries_of_open healthy.opened with ⟨_, listed⟩
  have distinct := healthy.coherent.distinct_entries save.now
  rw [← listed] at distinct
  rcases Stash.exists_restoreAll_create created name options
    (distinct.sublist (List.filter_sublist.map _)) room with ⟨restored, opened, coherent, records⟩
  refine Stash.answersLike_of_perm opened healthy.opened coherent healthy.coherent ?_
  have left := (coherent.perm_entries time).trans (records.filter _)
  have kept : (save.entries.filter (Image.isLive now)).filter (Stash.Entry.isLive time) =
      (contents.entries save.now).filter (Stash.Entry.isLive time) := by
    rw [← listed]
    exact Stash.filter_isLive_of_le ordered
  rw [kept] at left
  exact left.trans (healthy.coherent.perm_entries_later (Nat.le_trans saved ordered))

theorem Save.Storable.length_liveAt_le (storable : save.Storable) (now : Nat) :
    (save.image.liveAt now).entries.length ≤ save.entries.length ∧
      save.entries.length ≤ save.stash.options.maxKeys := by
  rcases storable.reached.exists_healthy with ⟨contents, healthy⟩
  rcases Save.entries_of_open healthy.opened with ⟨_, listed⟩
  refine ⟨List.length_filter_le _ _, ?_⟩
  rw [listed]
  exact Nat.le_trans (healthy.coherent.length_entries_le save.now) healthy.size_le

/-- The default stash is registered from the start, and the others fit beside it. -/
theorem room_of_listed {now maxStashes : Nat} {listed : List Image}
    (started : Nat) (defaults : StashDefaults) (persistent : Bool)
    (order : listed.Perm (saves.map fun save => save.image.liveAt now))
    (room : (saves.filter fun save => save.stash.name ≠ Registry.defaultName).length <
      max 1 maxStashes) :
    (Registry.start started maxStashes defaults persistent).names.size +
      (listed.filter fun image => !(Registry.start started maxStashes defaults
        persistent).names.contains image.name).length ≤
      (Registry.start started maxStashes defaults persistent).limit := by
  simp only [Registry.contains_start]
  rw [(order.filter _).length_eq, List.filter_map, List.length_map]
  have same : (saves.filter ((fun image : Image => !decide (image.name = Registry.defaultName)) ∘
      fun save => save.image.liveAt now)) =
        saves.filter fun save => save.stash.name ≠ Registry.defaultName := by
    apply List.filter_congr
    intro save _
    exact (decide_not).symm
  rw [same]
  change 1 + _ ≤ max 1 maxStashes
  omega

/-- What was saved is restored, in whatever order the images are listed. -/
theorem Holds.exists_restore {disk : Disk} (holds : Holds disk saves) {now : Nat}
    (saved : ∀ save ∈ saves, save.now ≤ now) {listed : List Image}
    (order : listed.Perm (saves.map fun save => save.image.liveAt now))
    (started restored : Nat) {maxStashes : Nat} {defaults : StashDefaults} (persistent : Bool)
    (room : (saves.filter fun save => save.stash.name ≠ Registry.defaultName).length <
      max 1 maxStashes)
    (capacity : ∀ save ∈ saves, save.stash.name = Registry.defaultName →
      save.count ≤ max 1 defaults.maxKeys) :
    ∃ registry, (Registry.start started maxStashes defaults persistent).restore restored listed =
        (saves.length, registry) ∧
      ∀ save ∈ saves, ∃ stash, registry.find? save.stash.name = some stash ∧
        ∀ time, now ≤ time → stash.AnswersLike save.stash time := by
  have separate := Registry.separate_start started maxStashes defaults persistent
  have distinct : (listed.map Image.name).Nodup := by
    rw [(order.map Image.name).nodup_iff, List.map_map]
    exact holds.distinct
  have enough := room_of_listed started defaults persistent order room
  rcases separate.exists_restore restored distinct enough with ⟨registry, all, found⟩
  refine ⟨registry, ?_, ?_⟩
  · rw [all, order.length_eq, List.length_map]
  · intro save present
    have storable := holds.storable save present
    have listedHere : save.image.liveAt now ∈ listed :=
      order.mem_iff.mpr (List.mem_map_of_mem present)
    refine ⟨_, found _ listedHere, ?_⟩
    intro time ordered
    rcases storable.length_liveAt_le now with ⟨fewer, within⟩
    rw [Registry.restoredStash, Registry.find?_start]
    have sameName : (save.image.liveAt now).name = save.stash.name := rfl
    by_cases isDefault : save.stash.name = Registry.defaultName
    · rw [sameName, if_pos isDefault, Option.getD_some]
      apply storable.answersLike_restored (saved save present) ordered
      refine Nat.le_trans fewer ?_
      rw [← holds.counted save present]
      exact capacity save present isDefault
    · rw [sameName, if_neg isDefault, Option.getD_none]
      apply storable.answersLike_restored (saved save present) ordered
      exact Nat.le_trans fewer (Nat.le_trans within (Nat.le_max_right _ _))

/--
What a stash saves is what can be read from its file, but for the lifetimes that are over by then.
And a new registry into which all that is found is restored, in any order, has stashes that answer
as those that were saved.  There has to be room for all of them; the stash that is always there
keeps its limit, and has to have room for its entries.
-/
theorem restored_as_saved :
    (∀ (disk next : Disk) (save : Save), save.Storable →
      Archive.save disk save.now save.stash = (.ok save.count, next) →
      save.stash.entries save.now = .ok save.entries ∧ save.count = save.entries.length ∧
        ∀ now, load next.directory now (fileName save.stash.name) =
          .ok { name := save.stash.name
                maxKeys := save.stash.options.maxKeys
                offHeap := save.stash.options.offHeap
                entries := save.entries.filter (Image.isLive now) }) ∧
    ∀ (disk : Disk) (saves : List Save) (now : Nat), Kept disk saves →
      (∀ save ∈ saves, save.now ≤ now) →
      ∃ images, loadAll disk.directory now = .ok images ∧
        ∀ (listed : List Image) (started restored maxStashes : Nat) (defaults : StashDefaults)
          (persistent : Bool), listed.Perm images →
          (saves.filter fun save => save.stash.name ≠ Registry.defaultName).length <
            max 1 maxStashes →
          (∀ save ∈ saves, save.stash.name = Registry.defaultName →
            save.count ≤ max 1 defaults.maxKeys) →
          ∃ registry, (Registry.start started maxStashes defaults persistent).restore restored
              listed = (saves.length, registry) ∧
            ∀ save ∈ saves, ∃ stash, registry.find? save.stash.name = some stash ∧
              ∀ time, now ≤ time → stash.AnswersLike save.stash time := by
  constructor
  · intro disk next save storable done
    rcases storable.reached.exists_healthy with ⟨contents, healthy⟩
    rcases read_of_save healthy.opened done with ⟨count, read⟩
    rcases Save.entries_of_open healthy.opened with ⟨open_, listed⟩
    rw [← listed] at count read open_
    exact ⟨open_, count, fun now => load_of_read storable.fits read now⟩
  · intro disk saves now kept saved
    have holds := kept.holds
    rcases holds.exists_loadAll now with ⟨images, loaded, all⟩
    refine ⟨images, loaded, ?_⟩
    intro listed started restored maxStashes defaults persistent order room capacity
    exact holds.exists_restore saved (order.trans all) started restored persistent room capacity

/-- Of two keys, one with a lifetime that is over when they are read back. -/
theorem restored_as_saved_of_two_keys :
    let stash := ((Stash.create 0 "s" { maxKeys := 2, snapshots := true }).after 1
      (.setWithTtl [1] [2] 10)).after 2 (.set [3] [4])
    let save : Save := ⟨5, stash, 2⟩
    let disk := (Archive.save {} 5 stash).2
    save.Storable ∧ (Archive.save {} 5 stash).1 = .ok 2 ∧ Kept disk [save] ∧
      load disk.directory 20 (fileName "s") =
        .ok { name := "s", maxKeys := 2, offHeap := false, entries := [⟨[3], [4], none⟩] } ∧
      ∃ images, loadAll disk.directory 20 = .ok images ∧
        ∃ registry, (Registry.start 20 2 {} true).restore 20 images = (1, registry) ∧
          ∃ restored, registry.find? "s" = some restored ∧ restored.AnswersLike stash 30 := by
  intro stash save disk
  have first : (Stash.Call.setWithTtl [1] [2] 10).Usual := ⟨nofun, fun _ => nofun⟩
  have second : (Stash.Call.set [3] [4]).Usual := ⟨nofun, fun _ => nofun⟩
  have created := @Stash.Reached.create 0 "s" { maxKeys := 2, snapshots := true } (by decide)
  have reached : stash.Reached := (created.after 1 first).after 2 second
  have storable : save.Storable :=
    ⟨reached, by decide, by decide +kernel, by decide +kernel, by decide +kernel,
      by decide +kernel⟩
  have ok : (Archive.save {} 5 stash).1 = .ok 2 := by decide +kernel
  have done : Archive.save {} 5 stash = (.ok 2, disk) := by rw [← ok]
  have nothing : Kept {} [] := by
    refine .fresh nofun ?_
    intro file content held
    cases held
  have kept : Kept disk [save] := .saved nothing storable done
  rcases restored_as_saved with ⟨reads, restores⟩
  have read := (reads {} disk save storable done).2.2 20
  have entries : save.entries.filter (Image.isLive 20) = [⟨[3], [4], none⟩] := by decide +kernel
  have named : save.stash.name = "s" := by decide +kernel
  have limit : save.stash.options.maxKeys = 2 := by decide +kernel
  have heap : save.stash.options.offHeap = false := by decide +kernel
  rw [entries, named, limit, heap] at read
  rcases restores disk [save] 20 kept (by decide) with ⟨images, loaded, restored⟩
  rcases restored images 20 20 2 {} true (.refl images) (by decide) (by decide) with
    ⟨registry, all, found⟩
  rcases found save List.mem_cons_self with ⟨again, isFound, alike⟩
  rw [named] at isFound
  exact ⟨storable, ok, kept, read, images, loaded, registry, all, again, isFound,
    alike 30 (by decide)⟩

end Restore

end Archive

end Larder
