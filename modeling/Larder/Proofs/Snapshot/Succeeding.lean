import Larder.Proofs.Snapshot.Accepted
import Larder.Proofs.Snapshot.Operations

/-!
# Saves that succeed

A writer refuses an image only if something in it is too long to be written, and a disk refuses work
on a draft only if an operation fails by itself.  So where none does, all that is left to ask for is
a directory and names for the two files that are not too long.
-/

namespace Larder

section Operations

variable {disk : Disk} {file : String} (clean : disk.faults = [])

include clean

theorem Disk.apply_of_clean {operation : FileOperation} {directory : Directory}
    (changed : disk.directory.apply operation = .ok directory) :
    disk.apply operation = (.ok (), { directory }) := by
  simp [apply, clean, changed]

/-- No work on what is in a file fails by itself. -/
theorem exists_perform_of_fills {operations : List FileOperation}
    (fills : ∀ operation ∈ operations, operation.Fills file) :
    ∃ next, FileStore.perform disk operations = (.ok (), next) ∧ next.faults = [] := by
  induction operations generalizing disk with
  | nil => exact ⟨disk, rfl, clean⟩
  | cons operation operations ih =>
      have changed : ∃ directory, disk.directory.apply operation = .ok directory := by
        cases fills operation List.mem_cons_self with
        | write place bytes =>
            rw [Directory.apply]
            split <;> exact ⟨_, rfl⟩
        | sync => exact ⟨_, rfl⟩
      rcases changed with ⟨directory, changed⟩
      have applied : FileStore.apply disk operation = (.ok (), { directory }) :=
        Disk.apply_of_clean clean changed
      rw [FileStore.perform, applied]
      exact ih rfl fun other present => fills other (.tail _ present)

theorem Disk.exists_rename {source target : String}
    (held : ∃ content, disk.directory.read source = .ok content)
    (checked : Directory.checkName target = .ok ()) :
    ∃ next, disk.apply (.rename source target) = (.ok (), next) := by
  rcases held with ⟨content, held⟩
  have inFile := (Disk.read_eq_ok_iff.mp held).1
  cases place : disk.directory with
  | missing => simp [Disk.content?, place, Directory.files] at inFile
  | obstructed => simp [Disk.content?, place, Directory.files] at inFile
  | present files =>
      rw [Disk.content?, place] at inFile
      have changed : disk.directory.apply (.rename source target) =
          .ok (.present ((files.erase source).insert target content)) := by
        simp only [Directory.files] at inFile
        simp [place, Directory.apply, Directory.access, checked, inFile, bind, Except.bind]
      exact ⟨_, Disk.apply_of_clean clean changed⟩

end Operations

namespace Archive

open Snapshot

variable {image : Image} {disk : Disk} {now : Nat} {stash : Stash} {file : String}
  {current : Writer} {steps : List (Writer → Except Error Writer.Step)}

section Plan

/-- A piece is refused only if there is no draft, or a field in it is too long to be written. -/
theorem exists_append (begun : Begun file current) {number : Nat} {fields : List Field}
    (short : ∀ content, Field.bytes content ∈ fields → content.length < UInt32.size) :
    ∃ asked, current.append number fields = .ok asked := by
  rcases Option.ne_none_iff_exists'.mp begun.draft with ⟨draft, drafted⟩
  rw [Writer.append]
  split
  · next length oversized =>
    rcases List.exists_of_findSome?_eq_some oversized with ⟨field, present, long⟩
    cases field with
    | bytes content =>
        dsimp only at long
        rw [if_neg (Nat.not_le.mpr (short content present))] at long
        cases long
    | byte | word32 | word64 | header => cases long
  · rw [drafted]
    exact ⟨_, rfl⟩

/-- Steps that go on with a draft, and that no draft is refused, come to their end. -/
theorem exists_plan (begun : Begun file current)
    (continues : ∀ step ∈ steps, Continues file step)
    (accepted : ∀ step ∈ steps, ∀ {writer}, Begun file writer → ∃ asked, step writer = .ok asked) :
    ∃ last, (plan current steps).2 = .ok last := by
  induction steps generalizing current with
  | nil => exact ⟨current, rfl⟩
  | cons step steps ih =>
      rcases accepted step List.mem_cons_self begun with ⟨asked, isAsked⟩
      rw [plan, isAsked]
      exact ih (continues step List.mem_cons_self begun isAsked).2.1
        (fun other present => continues other (.tail _ present))
        (fun other present => accepted other (.tail _ present))

/-- An image of which everything can be written down is not refused. -/
theorem exists_plan_drafting (name : (Bytes.ofText image.name).length < UInt32.size)
    (writable : ∀ entry ∈ image.entries, entry.Writable) :
    ∃ last, (plan (writer image.name) (drafting image)).2 = .ok last := by
  rw [drafting_eq, plan]
  refine exists_plan (begun_start image.name) (continues_filling image _) ?_
  intro step present writer begun
  rcases List.mem_cons.mp present with rfl | entries
  · refine exists_append begun fun content among => ?_
    simp only [Image.settingFields, List.mem_cons, Field.bytes.injEq, reduceCtorEq,
      List.not_mem_nil, or_false] at among
    exact among ▸ name
  · rcases List.mem_map.mp entries with ⟨entry, inside, rfl⟩
    refine exists_append begun fun content among => ?_
    simp only [Image.entryFields, List.mem_cons, Field.bytes.injEq, reduceCtorEq,
      List.not_mem_nil, or_false] at among
    rcases among with rfl | rfl
    · exact (writable entry inside).key
    · exact (writable entry inside).value

end Plan

section Save

/-- A draft can be made where there is a directory or nothing at all. -/
theorem exists_opening {name : String} (clean : disk.faults = [])
    (accessible : disk.directory ≠ .obstructed)
    (checked : Directory.checkName (writer name).draftFile = .ok ()) :
    ∃ next, FileStore.perform disk (opening name) = (.ok (), next) ∧ next.faults = [] ∧
      next.directory.read (writer name).draftFile = .ok [] := by
  have prepared : ∃ files, disk.apply (.prepare (fileName name)) =
      (.ok (), { directory := .present files }) := by
    cases place : disk.directory with
    | missing => exact ⟨∅, Disk.apply_of_clean clean (by rw [place]; rfl)⟩
    | obstructed => exact absurd place accessible
    | present files => exact ⟨files, Disk.apply_of_clean clean (by rw [place]; rfl)⟩
  rcases prepared with ⟨files, prepared⟩
  have made : Disk.apply { directory := .present files } (.create (writer name).draftFile) =
      (.ok (), { directory := .present (files.put (writer name).draftFile []) }) := by
    apply Disk.apply_of_clean rfl
    simp [Directory.apply, Directory.access, checked, bind, Except.bind, pure, Except.pure]
  refine ⟨_, ?_, rfl, Disk.read_of_create made⟩
  simp only [opening, FileStore.perform, FileStore.apply, prepared, made]

/-- A save succeeds if no operation fails by itself, there is room for the names of its files, and
everything can be written down. -/
theorem exists_save {contents : Stash.Contents} (opened : stash.contents = some contents)
    (clean : disk.faults = []) (accessible : disk.directory ≠ .obstructed)
    (draftNamed : Directory.checkName (writer stash.name).draftFile = .ok ())
    (fileNamed : Directory.checkName (fileName stash.name) = .ok ())
    (writable : ∀ entry ∈ contents.entries now, entry.Writable) :
    ∃ next, save disk now stash = (.ok (contents.entries now).length, next) := by
  have name : (Bytes.ofText stash.name).length < UInt32.size := by
    have short := length_le_of_checkName fileNamed
    rw [maxNameLength] at short
    rw [UInt32.size]
    omega
  rcases @exists_plan_drafting (imageOf stash (contents.entries now)) name writable with
    ⟨drafted, plans⟩
  rcases plan_steps_cases (imageOf stash (contents.entries now)) with
    ⟨error, refused, _⟩ | ⟨last, draft, _, _, _, planned⟩
  · rw [refused] at plans
    cases plans
  rcases exists_draftOperations (imageOf stash (contents.entries now)) with ⟨work, begins, fills⟩
  rcases exists_opening clean accessible draftNamed with ⟨first, opens, clean, held⟩
  have worked : ∀ operation ∈ work ++ draft.completion (writer stash.name).draftFile,
      operation.Fills (writer stash.name).draftFile := by
    intro operation present
    exact (List.mem_append.mp present).elim (fills operation) Draft.fills_completion
  rcases exists_perform_of_fills clean worked with ⟨middle, works, clean⟩
  have whole := exists_read_of_perform worked held
  rw [works] at whole
  rcases Disk.exists_rename clean whole fileNamed with ⟨next, renamed⟩
  have performed : FileStore.perform disk (draftOperations (imageOf stash (contents.entries now)) ++
      (draft.completion (writer stash.name).draftFile ++
        [.rename (writer stash.name).draftFile (fileName stash.name)])) = (.ok (), next) := by
    rw [begins, List.append_assoc, FileStore.perform_append]
    simp only [imageOf, opens]
    rw [← List.append_assoc, FileStore.perform_append, works]
    simp only [FileStore.perform, FileStore.apply, renamed]
  refine ⟨next, ?_⟩
  rw [save_of_open opened, write_of_perform planned rfl performed]

end Save

end Archive

end Larder
