import Larder.Proofs.Snapshot.Archive
import Larder.Proofs.Stash.Reached

/-!
# What the archive keeps

Stashes are saved and their files deleted, and any of this may fail.  Of every stash that was saved
and not deleted since, the archive holds the file that was saved last, and nothing else counts as a
snapshot.
-/

namespace Larder.Archive

open Snapshot

/-- A stash that was saved, with the time and with the number of entries that was given back. -/
structure Save where
  now : Nat
  stash : Stash
  count : Nat

namespace Save

/-- The entries that were listed when the stash was saved. -/
def entries (save : Save) : List Stash.Entry :=
  (save.stash.entries save.now).toOption.getD []

def image (save : Save) : Image :=
  imageOf save.stash save.entries

def file (save : Save) : String :=
  fileName save.stash.name

/-- A stash in use that fits into a snapshot. -/
structure Storable (save : Save) : Prop where
  reached : save.stash.Reached
  named : save.stash.name ≠ ""
  name : (Bytes.ofText save.stash.name).length ≤ maxFieldLength
  keys : ∀ entry ∈ save.entries, entry.key.length ≤ maxFieldLength
  values : ∀ entry ∈ save.entries, entry.value.length ≤ maxFieldLength
  count : save.entries.length < UInt32.size

variable {save : Save} {contents : Stash.Contents}

theorem entries_of_open (opened : save.stash.contents = some contents) :
    save.stash.entries save.now = .ok (contents.entries save.now) ∧
      save.entries = contents.entries save.now := by
  have listed := Stash.entries_of_open opened save.now
  refine ⟨listed, ?_⟩
  rw [entries, listed]
  rfl

theorem Storable.fits (storable : save.Storable) : save.image.Fits := by
  rcases storable.reached.exists_healthy with ⟨contents, healthy⟩
  rcases entries_of_open healthy.opened with ⟨_, listed⟩
  have times := healthy.timesFit_entries save.now
  rw [← listed] at times
  refine ⟨storable.name, healthy.bounded, storable.count, ?_⟩
  intro entry present
  exact ⟨storable.keys entry present, storable.values entry present, times entry present⟩

end Save

/-- What the archive has kept of the stashes that were saved, when some of that was done. -/
inductive Kept : Disk → List Save → Prop where
  | fresh {disk : Disk} (accessible : disk.directory ≠ .obstructed)
      (nothing : ∀ file content, disk.content? file = some content → isSnapshot file = false) :
      Kept disk []
  | saved {disk next : Disk} {saves : List Save} (kept : Kept disk saves) {save : Save}
      (storable : save.Storable)
      (done : Archive.save disk save.now save.stash = (.ok save.count, next)) :
      Kept next (save :: saves.filter fun other => other.stash.name ≠ save.stash.name)
  | failed {disk next : Disk} {saves : List Save} (kept : Kept disk saves) {now : Nat}
      {stash : Stash} {error : Error}
      (failed : Archive.save disk now stash = (.error error, next)) : Kept next saves
  | deleted {disk : Disk} {saves : List Save} (kept : Kept disk saves) (name : String)
      (gone : (Archive.delete disk name).2.content? (fileName name) = none) :
      Kept (Archive.delete disk name).2 (saves.filter fun other => other.stash.name ≠ name)
  | undeleted {disk : Disk} {saves : List Save} (kept : Kept disk saves) (name : String)
      (stays : (Archive.delete disk name).2.content? (fileName name) =
        disk.content? (fileName name)) :
      Kept (Archive.delete disk name).2 saves
  | faults {disk : Disk} {saves : List Save} (kept : Kept disk saves)
      (faults : List (Option FileError)) : Kept { disk with faults } saves

/-- The files of the stashes that were saved, and no others. -/
structure Holds (disk : Disk) (saves : List Save) : Prop where
  accessible : disk.directory ≠ .obstructed
  distinct : (saves.map fun save => save.stash.name).Nodup
  storable : ∀ save ∈ saves, save.Storable
  counted : ∀ save ∈ saves, save.count = save.entries.length
  held : ∀ save ∈ saves, disk.directory.read save.file = .ok save.image.encode
  others : ∀ file content, disk.content? file = some content → isSnapshot file = true →
    ∃ save ∈ saves, save.file = file

section Step

variable {disk next : Disk} {saves : List Save}

theorem accessible_save (accessible : disk.directory ≠ .obstructed) (now : Nat) (stash : Stash) :
    (Archive.save disk now stash).2.directory ≠ .obstructed := by
  refine @kept_by_save disk now stash (·.directory ≠ .obstructed) ?_ accessible
  intro operation _ disk accessible obstructed
  exact accessible (Disk.obstructed_of_apply obstructed)

theorem accessible_delete (accessible : disk.directory ≠ .obstructed) (name : String) :
    (Archive.delete disk name).2.directory ≠ .obstructed := by
  rw [snd_delete]
  intro obstructed
  exact accessible (Disk.obstructed_of_apply obstructed)

namespace Holds

theorem fresh (accessible : disk.directory ≠ .obstructed)
    (nothing : ∀ file content, disk.content? file = some content → isSnapshot file = false) :
    Holds disk [] := by
  refine ⟨accessible, List.nodup_nil, nofun, nofun, nofun, ?_⟩
  intro file content held snapshot
  rw [nothing file content held] at snapshot
  cases snapshot

theorem isSnapshot_file (holds : Holds disk saves) {save : Save} (present : save ∈ saves) :
    isSnapshot save.file = true :=
  isSnapshot_fileName (holds.storable save present).named

theorem read_of_content? (holds : Holds disk saves) {save : Save} (present : save ∈ saves)
    (same : next.content? save.file = disk.content? save.file) :
    next.directory.read save.file = .ok save.image.encode := by
  rcases Disk.read_eq_ok_iff.mp (holds.held save present) with ⟨held, checked⟩
  exact Disk.read_eq_ok_iff.mpr ⟨same.trans held, checked⟩

theorem of_content? (holds : Holds disk saves) (accessible : next.directory ≠ .obstructed)
    (same : ∀ file, isSnapshot file = true → next.content? file = disk.content? file) :
    Holds next saves := by
  refine ⟨accessible, holds.distinct, holds.storable, holds.counted, ?_, ?_⟩
  · intro save present
    exact holds.read_of_content? present (same save.file (holds.isSnapshot_file present))
  · intro file content held snapshot
    rw [same file snapshot] at held
    exact holds.others file content held snapshot

/-- What stays held of other stashes when the file of one is changed or taken away. -/
theorem without (holds : Holds disk saves) (name : String)
    (same : ∀ file, isSnapshot file = true → fileName name ≠ file →
      next.content? file = disk.content? file) :
    let rest := saves.filter fun other => other.stash.name ≠ name
    (∀ save ∈ rest, next.directory.read save.file = .ok save.image.encode) ∧
      ∀ file content, next.content? file = some content → isSnapshot file = true →
        fileName name = file ∨ ∃ save ∈ rest, save.file = file := by
  intro rest
  constructor
  · intro save present
    rcases List.mem_filter.mp present with ⟨inSaves, other⟩
    apply holds.read_of_content? inSaves
    apply same save.file (holds.isSnapshot_file inSaves)
    intro sameFile
    exact of_decide_eq_true other (fileName_injective sameFile).symm
  · intro file content held snapshot
    by_cases own : fileName name = file
    · exact .inl own
    · right
      rw [same file snapshot own] at held
      rcases holds.others file content held snapshot with ⟨save, present, rfl⟩
      refine ⟨save, List.mem_filter.mpr ⟨present, ?_⟩, rfl⟩
      rw [decide_eq_true_eq]
      rintro rfl
      exact own rfl

theorem deleted (holds : Holds disk saves) (name : String)
    (gone : (Archive.delete disk name).2.content? (fileName name) = none) :
    Holds (Archive.delete disk name).2 (saves.filter fun other => other.stash.name ≠ name) := by
  rcases holds.without name fun file _ other => content?_delete other with ⟨held, others⟩
  refine ⟨accessible_delete holds.accessible name, ?_, ?_, ?_, held, ?_⟩
  · exact holds.distinct.sublist (List.filter_sublist.map _)
  · exact fun save present => holds.storable save (List.mem_of_mem_filter present)
  · exact fun save present => holds.counted save (List.mem_of_mem_filter present)
  · intro file content present snapshot
    rcases others file content present snapshot with rfl | other
    · rw [gone] at present
      cases present
    · exact other

theorem saved (holds : Holds disk saves) {save : Save} (storable : save.Storable)
    (done : Archive.save disk save.now save.stash = (.ok save.count, next)) :
    Holds next (save :: saves.filter fun other => other.stash.name ≠ save.stash.name) := by
  rcases storable.reached.exists_healthy with ⟨contents, healthy⟩
  rcases read_of_save healthy.opened done with ⟨count, read⟩
  rcases Save.entries_of_open healthy.opened with ⟨_, listed⟩
  rw [← listed] at count read
  have accessible := accessible_save holds.accessible save.now save.stash
  have elsewhere : ∀ file, isSnapshot file = true → fileName save.stash.name ≠ file →
      next.content? file = disk.content? file := by
    intro file snapshot other
    have kept := @content?_save disk save.now save.stash file ?_ other
    · rwa [done] at kept
    · rintro rfl
      rw [not_isSnapshot_draftFile] at snapshot
      cases snapshot
  rcases holds.without save.stash.name elsewhere with ⟨held, others⟩
  rw [done] at accessible
  refine ⟨accessible, ?_, ?_, ?_, ?_, ?_⟩
  · rw [List.map_cons, List.nodup_cons]
    refine ⟨?_, holds.distinct.sublist (List.filter_sublist.map _)⟩
    intro again
    rcases List.mem_map.mp again with ⟨other, present, sameName⟩
    exact of_decide_eq_true (List.mem_filter.mp present).2 sameName
  · exact List.forall_mem_cons.mpr
      ⟨storable, fun other present => holds.storable other (List.mem_of_mem_filter present)⟩
  · exact List.forall_mem_cons.mpr
      ⟨count, fun other present => holds.counted other (List.mem_of_mem_filter present)⟩
  · exact List.forall_mem_cons.mpr ⟨read, held⟩
  · intro file content present snapshot
    rcases others file content present snapshot with own | ⟨other, inRest, sameFile⟩
    · exact ⟨save, List.mem_cons_self, own⟩
    · exact ⟨other, .tail _ inRest, sameFile⟩

theorem failed (holds : Holds disk saves) {now : Nat} {stash : Stash} {error : Error}
    (failed : Archive.save disk now stash = (.error error, next)) : Holds next saves := by
  have accessible := accessible_save holds.accessible now stash
  rw [failed] at accessible
  apply holds.of_content? accessible
  intro file snapshot
  by_cases own : fileName stash.name = file
  · rw [← own]
    exact content?_of_save_error failed
  · have kept := @content?_save disk now stash file ?_ own
    · rwa [failed] at kept
    · rintro rfl
      rw [not_isSnapshot_draftFile] at snapshot
      cases snapshot

end Holds

theorem Kept.holds (kept : Kept disk saves) : Holds disk saves := by
  induction kept with
  | fresh accessible nothing => exact .fresh accessible nothing
  | saved _ storable done ih => exact ih.saved storable done
  | failed _ failed ih => exact ih.failed failed
  | deleted _ name gone ih => exact ih.deleted name gone
  | @undeleted disk _ _ name stays ih =>
      apply ih.of_content? (accessible_delete ih.accessible name)
      intro file _
      by_cases own : fileName name = file
      · exact own ▸ stays
      · exact content?_delete own
  | faults _ faults ih =>
      exact ih.of_content? ih.accessible fun _ _ => rfl

end Step

end Larder.Archive
