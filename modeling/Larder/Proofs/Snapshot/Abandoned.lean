import Larder.Proofs.Registry.Steps
import Larder.Proofs.Snapshot.Stopping

/-!
# Saves that fail

A save that fails leaves the earlier file of the stash as it was, and after the pass the stash
counts as changed again.  A draft that is given up is taken away; but a writer that completes its
draft has none any more, so a failure from then on leaves the file of the draft behind.
-/

namespace Larder

/-- Operations are carried out up to a place, and the one that stands there fails. -/
def FailsAt (disk : Disk) (operations : List FileOperation) (place : Nat) (error : FileError)
    (next : Disk) : Prop :=
  ∃ middle operation, FileStore.perform disk (operations.take place) = (.ok (), middle) ∧
    operations[place]? = some operation ∧ middle.apply operation = (.error error, next)

namespace FailsAt

variable {disk next : Disk} {operations more : List FileOperation} {place : Nat}
  {error : FileError}

theorem lt_length (fails : FailsAt disk operations place error next) :
    place < operations.length := by
  rcases fails with ⟨_, _, _, there, _⟩
  exact (List.getElem?_eq_some_iff.mp there).1

/-- An operation that is to fail does so. -/
theorem of_fault (performed : (FileStore.perform disk (operations.take place)).1 = .ok ())
    (inside : place < operations.length)
    (fault : (FileStore.perform disk (operations.take place)).2.faults.head?.join = some error) :
    FailsAt disk operations place error
      { (FileStore.perform disk (operations.take place)).2 with
        faults := (FileStore.perform disk (operations.take place)).2.faults.tail } := by
  refine ⟨(FileStore.perform disk (operations.take place)).2, operations[place], ?_,
    List.getElem?_eq_getElem inside, ?_⟩
  · rw [← performed]
  · simp only [Disk.apply, fault]

/-- What comes after a failure is not carried out. -/
theorem perform (fails : FailsAt disk operations place error next) :
    FileStore.perform disk operations = (.error error, next) := by
  rcases fails with ⟨middle, operation, performed, there, failed⟩
  have stored : FileStore.apply middle operation = (.error error, next) := failed
  rcases List.getElem?_eq_some_iff.mp there with ⟨inside, rfl⟩
  rw [← List.take_append_drop place operations, List.drop_eq_getElem_cons inside,
    FileStore.perform_append, performed]
  simp only [FileStore.perform, stored]

theorem append_left (fails : FailsAt disk (operations ++ more) place error next)
    (early : place < operations.length) : FailsAt disk operations place error next := by
  rcases fails with ⟨middle, operation, performed, there, failed⟩
  rw [List.take_append_of_le_length (Nat.le_of_lt early)] at performed
  rw [List.getElem?_append_left early] at there
  exact ⟨middle, operation, performed, there, failed⟩

theorem append_right (fails : FailsAt disk (operations ++ more) place error next)
    (late : operations.length ≤ place) :
    ∃ reached, FileStore.perform disk operations = (.ok (), reached) ∧
      FailsAt reached more (place - operations.length) error next := by
  rcases fails with ⟨middle, operation, performed, there, failed⟩
  rw [List.take_append, List.take_of_length_le late] at performed
  rw [List.getElem?_append_right late] at there
  rcases FileStore.exists_of_perform_append performed with ⟨reached, first, rest⟩
  exact ⟨reached, first, middle, operation, rest, there, failed⟩

/-- A file that is worked on until something fails is still there. -/
theorem exists_read {file : String} {content : Bytes}
    (held : disk.directory.read file = .ok content)
    (fills : ∀ operation ∈ operations, operation.Fills file) (one : more.length ≤ 1)
    (fails : FailsAt disk (operations ++ more) place error next) :
    ∃ content, next.directory.read file = .ok content := by
  have inside := fails.lt_length
  rw [List.length_append] at inside
  rcases fails with ⟨middle, operation, performed, _, failed⟩
  rw [List.take_append_of_le_length (by omega)] at performed
  rw [Disk.directory_of_error failed]
  have worked : ∀ operation ∈ operations.take place, operation.Fills file :=
    fun operation present => fills operation (List.mem_of_mem_take present)
  have kept := exists_read_of_perform worked held
  rwa [performed] at kept

end FailsAt

namespace Registry

variable {registry : Registry} {handle : Handle} {handles : List Handle} {stash : Stash}
  {disk next : Disk} {now : Nat}

section Pass

/-- A pass through some of the stashes. -/
def passThrough (registry : Registry) (disk : Disk) (now : Nat) (handles : List Handle) :
    Registry × Disk :=
  handles.foldl (fun state handle => (state.1.saveAt state.2 now handle).2) (registry, disk)

theorem snd_saveDirty (registry : Registry) (disk : Disk) (now : Nat) :
    (registry.saveDirty disk now).2 = registry.passThrough disk now registry.handles := by
  rw [saveDirty, passThrough]
  generalize registry.handles = handles
  generalize 0 = count
  induction handles generalizing registry disk count with
  | nil => rfl
  | cons handle handles ih => exact ih _ _ _

theorem passThrough_append (registry : Registry) (disk : Disk) (now : Nat)
    (handles more : List Handle) :
    registry.passThrough disk now (handles ++ more) =
      (registry.passThrough disk now handles).1.passThrough
        (registry.passThrough disk now handles).2 now more :=
  List.foldl_append

/-- A pass leaves the stashes that it does not come to. -/
theorem stash?_passThrough (absent : handle ∉ handles) (registry : Registry) (disk : Disk)
    (now : Nat) :
    (registry.passThrough disk now handles).1.stash? handle = registry.stash? handle := by
  induction handles generalizing registry disk with
  | nil => rfl
  | cons first handles ih =>
      rw [List.mem_cons, not_or] at absent
      exact (ih absent.2 _ _).trans (stash?_saveAt (Ne.symm absent.1) disk now)

/-- A pass comes to a changed stash, takes its mark, and finds a disk to save it to. -/
structure Turn (registry : Registry) (first : Disk) (now : Nat) (handle : Handle) (stash : Stash)
    (disk : Disk) : Prop where
  arises : registry.Arises
  marked : ∃ before, registry.stash? handle = some before ∧ before.dirty = true ∧
    before.takeDirty.2 = stash
  reached : ∃ earlier others, registry.handles = earlier ++ handle :: others ∧
    (registry.passThrough first now earlier).2 = disk

/-- After a pass that could not save a stash, it is marked. -/
theorem Turn.dirty_of_error {first : Disk} {error : Snapshot.Error}
    (turn : registry.Turn first now handle stash disk)
    (failed : Archive.save disk now stash = (.error error, next)) :
    ∃ last, (registry.saveDirty first now).2.1.stash? handle = some last ∧ last.dirty = true := by
  rcases turn.marked with ⟨before, found, marked, rfl⟩
  rcases turn.reached with ⟨earlier, others, handles, rfl⟩
  have distinct := turn.arises.steady.separate.nodup_handles
  rw [handles, List.nodup_append, List.nodup_cons] at distinct
  have notEarlier : handle ∉ earlier := fun present =>
    distinct.2.2 handle present handle List.mem_cons_self rfl
  have reached := (stash?_passThrough notEarlier registry first now).trans found
  have saves := turn.arises.saves found marked
  refine ⟨before.takeDirty.2.markDirty, ?_, Stash.dirty_markDirty saves⟩
  rw [snd_saveDirty, handles, passThrough_append]
  refine (stash?_passThrough distinct.2.1.1 _ _ now).trans ?_
  have taken : before.takeDirty.1 = true := marked
  simp only [saveAt, reached, taken, if_true, failed]
  exact stash?_put_self reached _

end Pass

end Registry

namespace Archive

open Snapshot

variable {disk middle next : Disk} {now place : Nat} {stash : Stash} {image : Image}
  {error : FileError}

section Failure

/-- Once the draft is made, the rest of the image is put into it. -/
theorem runSteps_drafting (made : FileStore.perform disk (opening image.name) = (.ok (), middle)) :
    runSteps (writer image.name) disk (drafting image) =
      runSteps (writer image.name).start.done middle (filling image) := by
  have begun : FileStore.perform disk (writer image.name).start.operations = (.ok (), middle) :=
    made
  rw [drafting_eq, runSteps]
  simp only [Writer.run, begun]

theorem close_of_begun {name : String} {last : Writer} (begun : Begun (fileName name) last)
    (disk : Disk) :
    (last.close disk).2 = (disk.apply (.remove (writer name).draftFile)).2 := by
  rcases Option.ne_none_iff_exists'.mp begun.draft with ⟨draft, drafted⟩
  rw [Writer.close, drafted, draftFile_eq begun.file]
  rfl

/-- After a failure before the draft is completed, its file is taken away. -/
theorem write_of_failed_drafting (opened : 2 ≤ place)
    (fails : FailsAt disk (draftOperations image) place error next) :
    write disk image =
      (.error (.file error), (next.apply (.remove (writer image.name).draftFile)).2) := by
  have whole := fails.perform
  rcases exists_draftOperations image with ⟨work, begins, _⟩
  rw [begins] at fails
  rcases fails.append_right opened with ⟨made, making, _⟩
  rcases runSteps_of_perform_error whole with ⟨last, ran⟩
  have begun := begun_of_runSteps made (begun_start image.name) (continues_filling image _)
  rw [← runSteps_drafting making, ran] at begun
  rw [write, steps_eq, runSteps_append, ran]
  exact congrArg _ (close_of_begun begun _)

/-- From then on the writer has no draft, and nothing is taken away. -/
theorem write_of_failed_commit {last : Writer} {draft : Draft}
    (planned : plan (writer image.name) (drafting image) = (draftOperations image, .ok last))
    (file : last.file = fileName image.name) (drafted : last.draft = some draft)
    (performed : FileStore.perform disk (draftOperations image) = (.ok (), middle))
    (failed : FileStore.perform middle (draft.completion (writer image.name).draftFile ++
      [.rename (writer image.name).draftFile (fileName image.name)]) = (.error error, next)) :
    write disk image = (.error (.file error), next) := by
  rcases isAsked : last.commit with refused | asked
  · simp [Writer.commit, drafted] at isAsked
  · rcases Writer.exists_of_commit isAsked with ⟨again, same, asks, _, gaveUp⟩
    cases drafted.symm.trans same
    rw [← draftFile_eq file, ← file, ← asks] at failed
    rw [write, steps_eq, runSteps_append, runSteps_of_perform planned performed]
    simp only [runSteps, isAsked, Writer.run, failed, gaveUp, Writer.close]

/-- When an operation of a save fails, the draft that was made is there. -/
theorem exists_read_draft (opened : 2 ≤ place)
    (fails : FailsAt disk (plan (writer image.name) (steps image)).1 place error next) :
    ∃ content, next.directory.read (writer image.name).draftFile = .ok content := by
  rcases exists_work image with ⟨work, closing, operations, fills, one⟩
  rw [operations] at fails
  rcases fails.append_right opened with ⟨made, making, fails⟩
  rcases @FileStore.exists_of_perform_append Disk _ _ _ [.prepare _] [.create _] making with
    ⟨_, _, created⟩
  exact fails.exists_read (Disk.read_of_create (Draft.apply_of_perform created)) fills one

/-- The outcome of writing an image when one of its operations fails. -/
theorem write_of_fails (opened : 2 ≤ place)
    (fails : FailsAt disk (plan (writer image.name) (steps image)).1 place error next) :
    write disk image = (.error (.file error),
      if place < (draftOperations image).length then
        (next.apply (.remove (writer image.name).draftFile)).2
      else next) := by
  rcases plan_steps_cases image with
    ⟨_, _, planned⟩ | ⟨last, draft, drafting, file, drafted, planned⟩
  · rw [planned] at fails
    rw [if_pos fails.lt_length]
    exact write_of_failed_drafting opened fails
  · rw [planned] at fails
    split
    · next early => exact write_of_failed_drafting opened (fails.append_left early)
    · next late =>
      rcases fails.append_right (Nat.not_lt.mp late) with ⟨reached, performed, fails⟩
      exact write_of_failed_commit drafting file drafted performed fails.perform

end Failure

section Save

/--
Saving a stash fails at one of its operations after the draft was made, on any disk.  The earlier
file and all others are as they were, and so is all that is loaded.  If the draft was not complete
yet, it is taken away, unless that fails too; if it was being completed, it is left behind.  After
the pass in which this happened the stash is marked.
-/
theorem failed_save_keeps_file (opened : 2 ≤ place)
    (fails : FailsAt disk (saveOperations now stash) place error next) :
    ∃ entries left, stash.entries now = .ok entries ∧
      save disk now stash = (.error (.file error), left) ∧
      (∀ file, file ≠ (writer stash.name).draftFile → left.content? file = disk.content? file) ∧
      (∀ later, loaded left.directory later = loaded disk.directory later) ∧
      (place < (draftOperations (imageOf stash entries)).length →
        next.faults.head?.join = none → left.content? (writer stash.name).draftFile = none) ∧
      ((draftOperations (imageOf stash entries)).length ≤ place →
        left.content? (writer stash.name).draftFile ≠ none) ∧
      ∀ {registry : Registry} {first : Disk} {handle : Handle},
        registry.Turn first now handle stash disk →
        ∃ last, (registry.saveDirty first now).2.1.stash? handle = some last ∧
          last.dirty = true := by
  cases held : stash.contents with
  | none =>
      rw [saveOperations_of_closed held] at fails
      exact absurd fails.lt_length (Nat.not_lt_zero _)
  | some contents =>
      have listed := Stash.entries_of_open held now
      rw [saveOperations_of_open held] at fails
      have written := @write_of_fails disk next place (imageOf stash (contents.entries now)) error
        opened fails
      have draft : ∃ content, next.directory.read (writer stash.name).draftFile = .ok content :=
        @exists_read_draft disk next place (imageOf stash (contents.entries now)) error opened fails
      rcases draft with ⟨content, draft⟩
      have saved := save_of_open held disk now
      rw [written] at saved
      have spares := spares_of_save_error saved
      refine ⟨contents.entries now, _, listed, saved, ?_, (untouched_of_spares spares).loaded, ?_,
        ?_, fun turn => turn.dirty_of_error saved⟩
      · exact fun file other => spares.content file fun named => other (List.mem_singleton.mp named)
      · intro early works
        rcases Disk.exists_remove draft works with ⟨last, removed⟩
        have same : (next.apply (.remove (writer stash.name).draftFile)).2 = last :=
          congrArg Prod.snd removed
        rw [if_pos early]
        exact same ▸ Disk.content?_remove removed
      · intro late
        rw [if_neg (Nat.not_lt.mpr late), (Disk.read_eq_ok_iff.mp draft).1]
        exact Option.some_ne_none content

/-- A value that does not fit into the buffer cannot be written. -/
theorem failed_save_of_large_value :
    let large : Stash.Call := .set [1] (List.replicate 8192 0)
    let created := Stash.create 0 "s" { snapshots := true }
    let registry := ((Registry.start 0 4 {} true).register 0 "s" { snapshots := true }).put 1
      (created.after 0 large)
    let stash := (created.after 0 large).takeDirty.2
    let disk : Disk :=
      { directory := .present (FiniteMap.insert ∅ "73.snap" [7])
        faults := [none, none, none, some .broken] }
    ∃ next left, FailsAt disk (saveOperations 1 stash) 3 .broken next ∧
      registry.Turn disk 1 1 stash disk ∧ next.faults = [] ∧
      save disk 1 stash = (.error (.file .broken), left) ∧
      left.content? "73.snap" = some [7] ∧ left.content? "73.snap.tmp" = none ∧
      ∃ last, (registry.saveDirty disk 1).2.1.stash? 1 = some last ∧ last.dirty = true := by
  have outcome {disk next : Disk} {stash : Stash} {registry : Registry} (named : stash.name = "s")
      (early : 3 < (draftOperations
        (imageOf stash ((stash.entries 1).toOption.getD []))).length)
      (fails : FailsAt disk (saveOperations 1 stash) 3 .broken next) (works : next.faults = [])
      (turn : registry.Turn disk 1 1 stash disk) :
      ∃ left, save disk 1 stash = (.error (.file .broken), left) ∧
        left.content? "73.snap" = disk.content? "73.snap" ∧ left.content? "73.snap.tmp" = none ∧
        ∃ last, (registry.saveDirty disk 1).2.1.stash? 1 = some last ∧ last.dirty = true := by
    rcases failed_save_keeps_file (by decide) fails with
      ⟨_, left, listed, failed, kept, _, gone, _, dirty⟩
    rw [listed] at early
    have draft : (writer stash.name).draftFile = "73.snap.tmp" := by
      rw [named]
      decide +kernel
    rw [draft] at kept gone
    exact ⟨left, failed, kept _ (by decide), gone early (by rw [works]; rfl), dirty turn⟩
  intro large created registry stash disk
  have fails : FailsAt disk (saveOperations 1 stash) 3 .broken _ :=
    .of_fault (by decide +kernel) (by decide +kernel) (by decide +kernel)
  have ready : (Registry.start 0 4 {} true).create 0 "s" { snapshots := true } =
      (.ok (), (Registry.start 0 4 {} true).register 0 "s" { snapshots := true }) := by
    decide +kernel
  have found : ((Registry.start 0 4 {} true).register 0 "s" { snapshots := true }).stash? 1 =
      some created := by decide +kernel
  have arises : registry.Arises := .call (.create (.start 0 4 {} true) ready) found 0 large
  have turn : registry.Turn disk 1 1 stash disk :=
    ⟨arises, ⟨_, Registry.stash?_put_self found _, by decide +kernel, rfl⟩, [], [0],
      by decide +kernel, rfl⟩
  rcases outcome (by decide +kernel) (by decide +kernel) fails (by decide +kernel) turn with
    ⟨left, failed, kept, gone, dirty⟩
  exact ⟨_, left, fails, turn, by decide +kernel, failed, kept, gone, dirty⟩

/-- A draft that is complete cannot be given its name, and is left behind. -/
theorem draft_left_by_failed_rename :
    let stash := (Stash.create 0 "s" { snapshots := true }).after 0 (.set [1] [2])
    let disk : Disk :=
      { directory := .present ∅, faults := [none, none, none, none, none, some .busy] }
    let left := (save disk 1 stash).2
    (save disk 1 stash).1 = .error (.file .busy) ∧
      (saveOperations 1 stash)[5]? = some (.rename "73.snap.tmp" "73.snap") ∧
      left.faults = [] ∧ left.directory.listing = ["73.snap.tmp"] := by
  decide +kernel

end Save

end Archive

end Larder
