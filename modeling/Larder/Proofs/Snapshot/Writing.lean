import Larder.Proofs.Snapshot.Draft
import Larder.Proofs.Snapshot.FileName

/-!
# Writing an image

A writer that succeeds leaves the file of the image; until its last operation succeeds, which gives
the draft its name, the earlier file stays as it was.  No other file is changed but the draft.
-/

namespace Larder.Snapshot.Writer

variable {disk last : Disk} {writer next : Writer} {step : Step} {body : Bytes} {count : Nat}

/-- A writer in the middle of an image, of which a part of the body and a number of entries is in
the draft. -/
structure Writing (disk : Disk) (writer : Writer) (body : Bytes) (count : Nat) : Prop where
  draft : ∃ draft, writer.draft = some draft ∧ draft.body = body ∧ draft.count = count ∧
    draft.Holds disk writer.draftFile (Field.header.encode ++ Image.countBytes 0 ++ body)

theorem perform_of_run (ran : run step disk = (.ok (), next, last)) :
    FileStore.perform disk step.operations = (.ok (), last) ∧ next = step.done := by
  rw [run] at ran
  split at ran
  · next final performed =>
    cases ran
    exact ⟨performed, rfl⟩
  · cases ran

theorem writing_of_start (fresh : writer.draft = none)
    (ran : run writer.start disk = (.ok (), next, last)) :
    Writing last next [] 0 ∧ next.file = writer.file := by
  rcases perform_of_run ran with ⟨performed, rfl⟩
  simp only [start, fresh, List.append_nil] at performed
  rcases @FileStore.exists_of_perform_append Disk _ _ _ [.prepare writer.file]
    [.create writer.draftFile] performed with ⟨middle, _, made⟩
  have begun := Draft.holds_of_create (Draft.apply_of_perform made)
  have header :=
    @Draft.Holds.append _ last _ _ _ (Field.header.encode ++ Image.countBytes 0) begun rfl
  refine ⟨⟨_, rfl, rfl, rfl, ?_⟩, rfl⟩
  rw [List.append_nil]
  exact header

theorem Writing.append (writing : Writing disk writer body count) {number : Nat}
    {fields : List Field} (asked : writer.append number fields = .ok step)
    (ran : run step disk = (.ok (), next, last)) :
    Writing last next (body ++ Image.encodeFields fields) (count + number) ∧
      next.file = writer.file := by
  rcases writing.draft with ⟨draft, drafted, rfl, rfl, holds⟩
  rcases perform_of_run ran with ⟨performed, rfl⟩
  simp only [Writer.append] at asked
  split at asked
  · cases asked
  · rw [drafted] at asked
    cases asked
    have more := holds.append performed
    refine ⟨⟨_, rfl, ?_, ?_, ?_⟩, rfl⟩
    · simp [Draft.body]
    · simp
    · rw [← List.append_assoc]
      exact more

theorem exists_of_commit (asked : writer.commit = .ok step) :
    ∃ draft, writer.draft = some draft ∧
      step.operations = draft.completion writer.draftFile ++
        [.rename writer.draftFile writer.file] ∧
      step.done = { writer with draft := none } ∧ step.failed = { writer with draft := none } := by
  simp only [Writer.commit] at asked
  split at asked
  · cases asked
  · next draft drafted =>
    cases asked
    refine ⟨draft, drafted, ?_, rfl, rfl⟩
    simp [Draft.completion]

theorem Writing.commit (writing : Writing disk writer body count)
    (asked : writer.commit = .ok step) (ran : run step disk = (.ok (), next, last)) :
    last.directory.read writer.file = .ok (Image.framed count body) ∧ next.draft = none := by
  rcases writing.draft with ⟨draft, drafted, rfl, rfl, holds⟩
  rcases exists_of_commit asked with ⟨again, same, operations, done, _⟩
  cases drafted.symm.trans same
  rcases perform_of_run ran with ⟨performed, rfl⟩
  rw [operations] at performed
  rcases FileStore.exists_of_perform_append performed with ⟨complete, completed, renamed⟩
  rw [done]
  exact ⟨Disk.read_of_rename (Draft.apply_of_perform renamed) (holds.completion completed), rfl⟩

/-- A commit that fails leaves the earlier file, which only its last operation replaces. -/
theorem content?_of_commit_error {error : Error} (apart : writer.draftFile ≠ writer.file)
    (asked : writer.commit = .ok step) (ran : run step disk = (.error error, next, last)) :
    last.content? writer.file = disk.content? writer.file ∧ next.draft = none := by
  rcases exists_of_commit asked with ⟨draft, _, operations, _, closed⟩
  have kept : (FileStore.perform disk (draft.completion writer.draftFile)).2.content? writer.file =
      disk.content? writer.file := by
    refine
      @FileStore.kept_by_perform (·.content? writer.file = disk.content? writer.file) _ ?_ _ rfl
    intro operation present middle same
    rw [← same]
    apply Disk.content?_apply
    intro named
    exact apart (List.mem_singleton.mp (Draft.changes_completion present named)).symm
  rw [run, operations, FileStore.perform_append] at ran
  rcases completed : FileStore.perform disk (draft.completion writer.draftFile) with ⟨_ | _, middle⟩
  · rw [completed] at ran kept
    cases ran
    exact ⟨kept, closed ▸ rfl⟩
  · rw [completed] at ran kept
    rw [← kept]
    simp only [FileStore.perform] at ran
    split at ran
    · cases ran
    · next error final renamed =>
      cases ran
      split at renamed
      · cases renamed
      · next applied =>
        cases renamed
        refine ⟨?_, closed ▸ rfl⟩
        rw [Disk.content?, Disk.directory_of_error applied]
        rfl

theorem content?_close {file : String} (apart : writer.draftFile ≠ file) :
    (writer.close disk).2.content? file = disk.content? file := by
  rw [close]
  split
  · rfl
  · apply Disk.content?_apply
    intro named
    exact apart (List.mem_singleton.mp named).symm

/-- A step that asks for nothing but some operations and keeps the file that it is about. -/
def AsksOnly (allowed : FileOperation → Prop) (file : String)
    (step : Writer → Except Error Step) : Prop :=
  ∀ {writer asked}, writer.file = file → step writer = .ok asked →
    (∀ operation ∈ asked.operations, allowed operation) ∧ asked.done.file = file ∧
      asked.failed.file = file

section Asks

variable {file : String}

theorem asksOnly_start :
    AsksOnly (·.changes ⊆ [Path.withEnding file draftEnding]) file
      fun writer => .ok writer.start := by
  rintro writer _ rfl ⟨⟩
  refine ⟨?_, rfl, rfl⟩
  intro operation present
  rcases List.mem_append.mp present with begun | late
  · rcases List.mem_cons.mp begun with rfl | made
    · exact List.nil_subset _
    · rw [List.mem_singleton.mp made]
      exact List.Subset.refl _
  · split at late
    · exact Draft.changes_flush late
    · cases late

theorem asksOnly_append (number : Nat) (fields : List Field) :
    AsksOnly (·.changes ⊆ [Path.withEnding file draftEnding]) file
      fun writer => writer.append number fields := by
  rintro writer step rfl asked
  simp only [Writer.append] at asked
  split at asked
  · cases asked
  · split at asked
    · cases asked
    · cases asked
      exact ⟨fun operation present => Draft.changes_append present, rfl, rfl⟩

theorem asksOnly_commit :
    AsksOnly (·.changes ⊆ [Path.withEnding file draftEnding, file]) file Writer.commit := by
  rintro writer step rfl asked
  rcases exists_of_commit asked with ⟨draft, _, operations, done, failed⟩
  rw [operations, done, failed]
  refine ⟨?_, rfl, rfl⟩
  intro operation present
  rcases List.mem_append.mp present with completed | renamed
  · exact List.Subset.trans (Draft.changes_completion completed) (List.subset_append_left [_] [_])
  · rw [List.mem_singleton.mp renamed]
    exact List.Subset.refl _

theorem AsksOnly.mono {allowed more : FileOperation → Prop}
    {step : Writer → Except Error Step} (asks : AsksOnly allowed file step)
    (implies : ∀ operation, allowed operation → more operation) : AsksOnly more file step := by
  intro writer asked same isAsked
  rcases asks same isAsked with ⟨operations, kept⟩
  exact ⟨fun operation present => implies operation (operations operation present), kept⟩

end Asks

end Larder.Snapshot.Writer

namespace Larder.Archive

open Snapshot

variable {disk last : Disk} {current final : Writer} {image : Image}

section Steps

variable {steps more : List (Writer → Except Error Writer.Step)}

theorem exists_of_runSteps_cons {step : Writer → Except Error Writer.Step}
    (ran : runSteps current disk (step :: steps) = (.ok (), final, last)) :
    ∃ asked next middle, step current = .ok asked ∧
      Writer.run asked disk = (.ok (), next, middle) ∧
      runSteps next middle steps = (.ok (), final, last) := by
  rw [runSteps] at ran
  split at ran
  · cases ran
  · next asked isAsked =>
    split at ran
    · next next middle took => exact ⟨asked, next, middle, isAsked, took, ran⟩
    · cases ran

theorem runSteps_append (current : Writer) (disk : Disk) :
    runSteps current disk (steps ++ more) =
      match runSteps current disk steps with
      | (.ok (), next, middle) => runSteps next middle more
      | (.error error, next, middle) => (.error error, next, middle) := by
  induction steps generalizing current disk with
  | nil => rfl
  | cons step steps ih =>
      rw [List.cons_append, runSteps, runSteps]
      cases step current with
      | error error => rfl
      | ok asked =>
          dsimp only
          rcases Writer.run asked disk with ⟨_ | _, next, middle⟩
          · rfl
          · exact ih next middle

/-- What all operations keep that the steps ask for is kept by the steps. -/
theorem kept_by_runSteps {kept : Disk → Prop} {allowed : FileOperation → Prop} {file : String}
    (keeps : ∀ operation, allowed operation → ∀ disk : Disk, kept disk →
      kept (disk.apply operation).2)
    (asks : ∀ step ∈ steps, Writer.AsksOnly allowed file step) (same : current.file = file)
    (first : kept disk) :
    (runSteps current disk steps).2.1.file = file ∧ kept (runSteps current disk steps).2.2 := by
  induction steps generalizing current disk with
  | nil => exact ⟨same, first⟩
  | cons step steps ih =>
      rw [runSteps]
      split
      · exact ⟨same, first⟩
      · next asked isAsked =>
        rcases asks step List.mem_cons_self same isAsked with ⟨operations, done, failed⟩
        have later := @FileStore.kept_by_perform kept asked.operations
          (fun operation present => keeps operation (operations operation present)) disk first
        rw [Writer.run]
        rcases performed : FileStore.perform disk asked.operations with ⟨_ | _, middle⟩ <;>
          rw [performed] at later
        · exact ⟨failed, later⟩
        · exact ih (fun other present => asks other (.tail _ present)) done later

end Steps

section Write

/-- The steps of a writer up to the one that completes the image. -/
def drafting (image : Image) : List (Writer → Except Error Writer.Step) :=
  [fun writer => .ok writer.start,
    fun writer => writer.settings image.name image.maxKeys image.offHeap] ++
  image.entries.map fun entry writer => writer.entry entry

theorem steps_eq (image : Image) : steps image = drafting image ++ [Writer.commit] :=
  rfl

theorem asksOnly_drafting (image : Image) (file : String) :
    ∀ step ∈ drafting image,
      Writer.AsksOnly (·.changes ⊆ [Path.withEnding file draftEnding]) file step := by
  intro step present
  rcases List.mem_append.mp present with begun | entries
  · rcases List.mem_cons.mp begun with rfl | settings
    · exact Writer.asksOnly_start
    · rw [List.mem_singleton.mp settings]
      exact Writer.asksOnly_append _ _
  · rcases List.mem_map.mp entries with ⟨entry, _, rfl⟩
    exact Writer.asksOnly_append _ _

theorem read_of_entries {body : Bytes} {count : Nat} {entries : List Stash.Entry}
    (writing : Writer.Writing disk current body count)
    (ran : runSteps current disk (entries.map (fun entry writer => writer.entry entry) ++
      [Writer.commit]) = (.ok (), final, last)) :
    last.directory.read current.file = .ok (Image.framed (count + entries.length)
      (body ++ entries.flatMap fun entry => Image.encodeFields (Image.entryFields entry))) ∧
      final.draft = none := by
  induction entries generalizing disk current body count with
  | nil =>
      rcases exists_of_runSteps_cons ran with ⟨asked, next, middle, isAsked, took, rest⟩
      cases rest
      rw [List.flatMap_nil, List.append_nil]
      exact writing.commit isAsked took
  | cons entry entries ih =>
      rcases exists_of_runSteps_cons ran with ⟨asked, next, middle, isAsked, took, rest⟩
      rcases writing.append isAsked took with ⟨more, same⟩
      have complete := ih more rest
      rwa [same, Nat.add_assoc, Nat.add_comm 1, List.append_assoc] at complete

/-- An image that is written is in its file. -/
theorem read_of_write {next : Disk} (written : write disk image = (.ok (), next)) :
    next.directory.read (fileName image.name) = .ok image.encode := by
  rw [write] at written
  rcases ran : runSteps (writer image.name) disk (steps image) with ⟨result, final, last⟩
  rw [ran] at written
  cases written
  rcases exists_of_runSteps_cons ran with ⟨_, begun, _, isAsked, took, ran⟩
  cases isAsked
  rcases Writer.writing_of_start rfl took with ⟨writing, file⟩
  rcases exists_of_runSteps_cons ran with ⟨_, set, _, isAsked, took, ran⟩
  rcases writing.append isAsked took with ⟨writing, same⟩
  rcases read_of_entries writing ran with ⟨held, closed⟩
  rw [same, file, List.nil_append, Nat.zero_add] at held
  rw [Writer.close, closed]
  exact held

/-- What all operations keep that are about the file of an image and its draft is kept by writing
it. -/
theorem kept_by_write {kept : Disk → Prop}
    (keeps : ∀ operation : FileOperation,
      operation.changes ⊆ [(writer image.name).draftFile, fileName image.name] →
      ∀ disk : Disk, kept disk → kept (disk.apply operation).2)
    (first : kept disk) : kept (write disk image).2 := by
  have asks : ∀ step ∈ steps image, Writer.AsksOnly
      (·.changes ⊆ [(writer image.name).draftFile, fileName image.name]) (fileName image.name)
      step := by
    intro step present
    rw [steps_eq] at present
    rcases List.mem_append.mp present with drafting | commit
    · refine Writer.AsksOnly.mono (asksOnly_drafting image _ step drafting) ?_
      intro operation within
      exact List.Subset.trans within (List.subset_append_left [_] [_])
    · rw [List.mem_singleton.mp commit]
      exact Writer.asksOnly_commit
  rcases @kept_by_runSteps disk (writer image.name) _ kept _ _ keeps asks rfl first with
    ⟨file, still⟩
  rw [write]
  rcases ran : runSteps (writer image.name) disk (steps image) with ⟨result, final, last⟩
  rw [ran] at file still
  change kept (final.close last).2
  rw [Writer.close]
  split
  · exact still
  · refine keeps _ ?_ last still
    rw [Writer.draftFile, file]
    exact List.subset_append_left [_] [_]

/-- As long as a draft is written, the earlier file stays. -/
theorem content?_drafting (disk : Disk) (image : Image) :
    (runSteps (writer image.name) disk (drafting image)).2.1.file = fileName image.name ∧
      (runSteps (writer image.name) disk (drafting image)).2.2.content? (fileName image.name) =
        disk.content? (fileName image.name) := by
  have apart := draftFile_ne_fileName image.name image.name
  have keeps (operation : FileOperation)
      (within : operation.changes ⊆ [(writer image.name).draftFile]) (middle : Disk)
      (held : middle.content? (fileName image.name) = disk.content? (fileName image.name)) :
      (middle.apply operation).2.content? (fileName image.name) =
        disk.content? (fileName image.name) := by
    rw [← held]
    apply Disk.content?_apply
    intro named
    exact apart (List.mem_singleton.mp (within named)).symm
  exact @kept_by_runSteps disk (writer image.name) _ _ _ _ keeps (asksOnly_drafting image _) rfl rfl

/-- An image that cannot be written leaves the earlier file. -/
theorem content?_of_write_error {error : Error} {next : Disk}
    (failed : write disk image = (.error error, next)) :
    next.content? (fileName image.name) = disk.content? (fileName image.name) := by
  rcases content?_drafting disk image with ⟨file, still⟩
  rw [write, steps_eq, runSteps_append] at failed
  rcases ran : runSteps (writer image.name) disk (drafting image) with ⟨result, current, middle⟩
  rw [ran] at failed file still
  have named : current.file = fileName image.name := file
  have draftFile : current.draftFile ≠ fileName image.name := by
    rw [Writer.draftFile, named]
    exact draftFile_ne_fileName image.name image.name
  rw [← still]
  cases result with
  | error error =>
      cases failed
      exact Writer.content?_close draftFile
  | ok _ =>
      simp only [runSteps] at failed
      split at failed
      · cases failed
        exact Writer.content?_close draftFile
      · next asked isAsked =>
        rcases took : Writer.run asked middle with ⟨_ | _, final, last⟩
        · rw [took] at failed
          cases failed
          rcases Writer.content?_of_commit_error (named ▸ draftFile) isAsked took with
            ⟨kept, closed⟩
          rw [named] at kept
          rw [Writer.close, closed]
          exact kept
        · rw [took] at failed
          cases failed

end Write

end Larder.Archive
