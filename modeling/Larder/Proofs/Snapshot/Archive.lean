import Larder.Proofs.Snapshot.Image
import Larder.Proofs.Snapshot.Writing
import Larder.Proofs.Stash.Operation

/-!
# Saving and deleting

What becomes of the files of stashes when one stash is saved or deleted: its own file holds its
image, or is gone, or is as it was if that failed; the files of other stashes stay.
-/

namespace Larder.Archive

open Snapshot

variable {disk next : Disk} {now : Nat} {stash : Stash} {contents : Stash.Contents}

section Save

theorem save_of_open (opened : stash.contents = some contents) (disk : Disk) (now : Nat) :
    save disk now stash =
      match write disk (imageOf stash (contents.entries now)) with
      | (.error error, next) => (.error error, next)
      | (.ok (), next) => (.ok (contents.entries now).length, next) := by
  have alive : stash.isClosed = false := by
    rw [Stash.isClosed, opened]
    rfl
  rw [save, Stash.entries_of_open opened]
  dsimp only
  rcases write disk (imageOf stash (contents.entries now)) with ⟨_ | _, next⟩
  · rfl
  · simp only [confirm, alive, if_neg Bool.false_ne_true]

theorem save_of_closed (gone : stash.contents = none) (disk : Disk) (now : Nat) :
    save disk now stash = (.ok 0, disk) := by
  have refused : stash.entries now = .error .closed := by
    rw [Stash.entries, Stash.open?, gone]
    rfl
  rw [save, refused]

theorem content?_write {image : Image} {file : String}
    (notDraft : (writer image.name).draftFile ≠ file) (notFile : fileName image.name ≠ file) :
    (write disk image).2.content? file = disk.content? file := by
  refine @kept_by_write disk image (·.content? file = disk.content? file) ?_ rfl
  intro operation within middle same
  rw [← same]
  apply Disk.content?_apply
  intro named
  rcases List.mem_cons.mp (within named) with draft | final
  · exact notDraft draft.symm
  · exact notFile (List.mem_singleton.mp final).symm

/-- What is saved is all that is listed, and is in the file of the stash. -/
theorem read_of_save (opened : stash.contents = some contents) {count : Nat}
    (saved : save disk now stash = (.ok count, next)) :
    count = (contents.entries now).length ∧
      next.directory.read (fileName stash.name) =
        .ok (imageOf stash (contents.entries now)).encode := by
  rw [save_of_open opened] at saved
  split at saved
  · cases saved
  · next last written =>
    have held := read_of_write written
    cases saved
    exact ⟨rfl, held⟩

/-- What all operations keep that are about the file of a stash and its draft is kept by saving
it. -/
theorem kept_by_save {kept : Disk → Prop}
    (keeps : ∀ operation : FileOperation,
      operation.changes ⊆ [(writer stash.name).draftFile, fileName stash.name] →
      ∀ disk : Disk, kept disk → kept (disk.apply operation).2)
    (first : kept disk) : kept (save disk now stash).2 := by
  cases held : stash.contents with
  | none =>
      rw [save_of_closed held]
      exact first
  | some contents =>
      have later := @kept_by_write disk (imageOf stash (contents.entries now)) kept keeps first
      rw [save_of_open held]
      rcases written : write disk (imageOf stash (contents.entries now)) with ⟨_ | _, last⟩ <;>
        rwa [written] at later

theorem content?_save {file : String} (notDraft : (writer stash.name).draftFile ≠ file)
    (notFile : fileName stash.name ≠ file) :
    (save disk now stash).2.content? file = disk.content? file := by
  cases held : stash.contents with
  | none => rw [save_of_closed held]
  | some contents =>
      have kept := @content?_write disk (imageOf stash (contents.entries now)) file notDraft notFile
      rw [save_of_open held]
      rcases written : write disk (imageOf stash (contents.entries now)) with ⟨_ | _, last⟩ <;>
        rwa [written] at kept

theorem content?_of_save_error {error : Error}
    (failed : save disk now stash = (.error error, next)) :
    next.content? (fileName stash.name) = disk.content? (fileName stash.name) := by
  cases held : stash.contents with
  | none =>
      rw [save_of_closed held] at failed
      cases failed
  | some contents =>
      rw [save_of_open held] at failed
      split at failed
      · next written =>
        have held := content?_of_write_error written
        cases failed
        exact held
      · cases failed

end Save

section Delete

variable {name : String}

theorem snd_delete (disk : Disk) (name : String) :
    (delete disk name).2 = (disk.apply (.remove (fileName name))).2 := by
  have closed : (writer name).close disk = (writer name, disk) := rfl
  rw [delete, Writer.delete, closed]
  change _ = (FileStore.apply disk (.remove (writer name).file)).2
  dsimp only
  split <;> simp_all

theorem content?_delete {file : String} (other : fileName name ≠ file) :
    (delete disk name).2.content? file = disk.content? file := by
  rw [snd_delete]
  apply Disk.content?_apply
  intro named
  exact other (List.mem_singleton.mp named).symm

/-- A file that is deleted is gone or, if that failed, stays as it is. -/
theorem content?_delete_self (disk : Disk) (name : String) :
    (delete disk name).2.content? (fileName name) = none ∨
      (delete disk name).2.content? (fileName name) = disk.content? (fileName name) := by
  rw [snd_delete]
  rcases applied : disk.apply (.remove (fileName name)) with ⟨_ | _, last⟩
  · right
    exact congrArg (fun directory => directory.files.get? (fileName name))
      (Disk.directory_of_error applied)
  · exact .inl (Disk.content?_remove applied)

/-- A file that is deleted without a failure is gone, whether or not it was there. -/
theorem content?_of_delete (clean : disk.faults = [])
    (deleted : delete disk name = (.ok (), next)) :
    next.faults = [] ∧ next.content? (fileName name) = none := by
  have same : next = (disk.apply (.remove (fileName name))).2 := by
    rw [← snd_delete, deleted]
  refine ⟨same ▸ Disk.faults_apply clean _, ?_⟩
  have closed : (writer name).close disk = (writer name, disk) := rfl
  simp only [delete, Writer.delete, closed] at deleted
  rcases applied : disk.apply (.remove (fileName name)) with ⟨error | _, last⟩
  · have stored : FileStore.apply disk (.remove (writer name).file) = (.error error, last) :=
      applied
    rw [stored] at deleted
    cases error with
    | notFound =>
        rw [same, applied]
        exact Disk.content?_of_notFound clean applied
    | _ => cases deleted
  · rw [same, applied]
    exact Disk.content?_remove applied

end Delete

end Larder.Archive
