import Larder.Proofs.Snapshot.Archive

/-!
# The operations of a save

What a writer asks for does not depend on what the disk answers.  So it is known beforehand which
operations save a stash: a draft is made, the image is put into it piece by piece, and the last
operation gives it its name.
-/

namespace Larder

section Held

variable {disk next : Disk} {file : String} {operation : FileOperation} {content : Bytes}

theorem Disk.read_of_create (made : disk.apply (.create file) = (.ok (), next)) :
    next.directory.read file = .ok [] := by
  rcases Directory.exists_of_access (apply_of_ok made) with ⟨_, _, checked, _⟩
  exact read_eq_ok_iff.mpr ⟨content?_create made, checked⟩

/-- A file that can be read stays so when it is worked on, whether or not that succeeds. -/
theorem FileOperation.Fills.exists_read (fills : operation.Fills file)
    (held : disk.directory.read file = .ok content) :
    ∃ content, (disk.apply operation).2.directory.read file = .ok content := by
  rcases applied : disk.apply operation with ⟨_ | _, next⟩
  · rw [Disk.directory_of_error applied]
    exact ⟨content, held⟩
  · rcases Disk.read_eq_ok_iff.mp held with ⟨inFile, checked⟩
    cases fills with
    | write place bytes =>
        exact ⟨_, Disk.read_eq_ok_iff.mpr ⟨Disk.content?_write applied inFile, checked⟩⟩
    | sync =>
        have same := @Disk.content?_apply disk file (.sync file) nofun
        rw [applied] at same
        exact ⟨content, Disk.read_eq_ok_iff.mpr ⟨same.trans inFile, checked⟩⟩

theorem exists_read_of_perform {operations : List FileOperation}
    (fills : ∀ operation ∈ operations, operation.Fills file)
    (held : disk.directory.read file = .ok content) :
    ∃ content, (FileStore.perform disk operations).2.directory.read file = .ok content := by
  refine @FileStore.kept_by_perform (∃ content, ·.directory.read file = .ok content) operations ?_
    disk ⟨content, held⟩
  rintro operation present middle ⟨content, held⟩
  exact (fills operation present).exists_read held

/-- A file that can be read can be taken away, unless that is to fail. -/
theorem Disk.exists_remove (held : disk.directory.read file = .ok content)
    (works : disk.faults.head?.join = none) :
    ∃ next, disk.apply (.remove file) = (.ok (), next) := by
  rcases read_eq_ok_iff.mp held with ⟨inFile, checked⟩
  cases at_place : disk.directory with
  | missing => simp [content?, at_place, Directory.files] at inFile
  | obstructed => simp [content?, at_place, Directory.files] at inFile
  | present files =>
      have there : files.contains file = true := by
        rw [content?, at_place] at inFile
        exact FiniteMap.contains_eq_true_iff.mpr ⟨content, inFile⟩
      refine ⟨{ directory := .present (files.erase file), faults := disk.faults.tail }, ?_⟩
      simp [apply, works, at_place, Directory.apply, Directory.access, bind, Except.bind, checked,
        there]

end Held

namespace Archive

open Snapshot

section Plan

/-- The operations that steps ask for in a row, and the writer after them.  A step that is refused
ends both. -/
def plan (current : Writer) :
    List (Writer → Except Error Writer.Step) → List FileOperation × Except Error Writer
  | [] => ([], .ok current)
  | step :: steps =>
    match step current with
    | .error error => ([], .error error)
    | .ok asked => (asked.operations ++ (plan asked.done steps).1, (plan asked.done steps).2)

variable {current last : Writer} {steps more : List (Writer → Except Error Writer.Step)}
  {disk next : Disk}

theorem plan_append (current : Writer) (steps more : List (Writer → Except Error Writer.Step)) :
    plan current (steps ++ more) =
      match (plan current steps).2 with
      | .error error => ((plan current steps).1, .error error)
      | .ok last => ((plan current steps).1 ++ (plan last more).1, (plan last more).2) := by
  induction steps generalizing current with
  | nil => rfl
  | cons step steps ih =>
      rw [List.cons_append, plan, plan]
      cases step current with
      | error error => rfl
      | ok asked =>
          dsimp only
          rw [ih asked.done]
          cases (plan asked.done steps).2 with
          | error error => rfl
          | ok last => simp only [List.append_assoc]

/-- Steps carry out what they are planned to, up to the first operation that fails. -/
theorem runSteps_eq_plan (current : Writer) (disk : Disk)
    (steps : List (Writer → Except Error Writer.Step)) :
    (runSteps current disk steps).2.2 = (FileStore.perform disk (plan current steps).1).2 ∧
      (runSteps current disk steps).1 =
        match (FileStore.perform disk (plan current steps).1).1 with
        | .error error => .error (.file error)
        | .ok () => (plan current steps).2.map fun _ => () := by
  induction steps generalizing current disk with
  | nil => exact ⟨rfl, rfl⟩
  | cons step steps ih =>
      rw [runSteps, plan]
      cases step current with
      | error error => exact ⟨rfl, rfl⟩
      | ok asked =>
          dsimp only
          rw [Writer.run, FileStore.perform_append]
          rcases FileStore.perform disk asked.operations with ⟨_ | _, middle⟩
          · exact ⟨rfl, rfl⟩
          · exact ih asked.done middle

/-- The writer after steps that all succeed is the one that was planned. -/
theorem writer_of_runSteps (ran : runSteps current disk steps = (.ok (), last, next)) :
    (plan current steps).2 = .ok last := by
  induction steps generalizing current disk with
  | nil =>
      cases ran
      rfl
  | cons step steps ih =>
      rcases exists_of_runSteps_cons ran with ⟨asked, done, middle, isAsked, took, rest⟩
      rcases Writer.perform_of_run took with ⟨_, rfl⟩
      rw [plan, isAsked]
      exact ih rest

theorem runSteps_of_perform {operations : List FileOperation}
    (planned : plan current steps = (operations, .ok last))
    (performed : FileStore.perform disk operations = (.ok (), next)) :
    runSteps current disk steps = (.ok (), last, next) := by
  have did := runSteps_eq_plan current disk steps
  rcases ran : runSteps current disk steps with ⟨result, final, after⟩
  simp only [ran, planned, performed, Except.map] at did
  rcases did with ⟨rfl, rfl⟩
  have same := writer_of_runSteps ran
  rw [planned] at same
  cases same
  rfl

theorem runSteps_of_perform_error {error : FileError}
    (failed : FileStore.perform disk (plan current steps).1 = (.error error, next)) :
    ∃ last, runSteps current disk steps = (.error (.file error), last, next) := by
  have did := runSteps_eq_plan current disk steps
  rcases ran : runSteps current disk steps with ⟨result, final, after⟩
  simp only [ran, failed] at did
  rcases did with ⟨rfl, rfl⟩
  exact ⟨final, rfl⟩

end Plan

section Draft

variable {file : String} {current last : Writer}
  {steps : List (Writer → Except Error Writer.Step)}

/-- A writer of a file that has begun a draft. -/
structure Begun (file : String) (writer : Writer) : Prop where
  file : writer.file = file
  draft : writer.draft ≠ none

/-- A step that goes on with a draft and asks for nothing but work on its file. -/
def Continues (file : String) (step : Writer → Except Error Writer.Step) : Prop :=
  ∀ {writer asked}, Begun file writer → step writer = .ok asked →
    (∀ operation ∈ asked.operations, operation.Fills (Path.withEnding file draftEnding)) ∧
      Begun file asked.done ∧ Begun file asked.failed

theorem continues_append (file : String) (number : Nat) (fields : List Field) :
    Continues file fun writer => writer.append number fields := by
  intro writer asked begun isAsked
  have named := begun.file
  subst named
  simp only [Writer.append] at isAsked
  split at isAsked
  · cases isAsked
  · split at isAsked
    · cases isAsked
    · cases isAsked
      exact ⟨fun operation present => Draft.fills_append present, ⟨rfl, Option.some_ne_none _⟩,
        begun⟩

theorem plan_of_continues (begun : Begun file current)
    (continues : ∀ step ∈ steps, Continues file step) :
    (∀ operation ∈ (plan current steps).1,
      operation.Fills (Path.withEnding file draftEnding)) ∧
      ∀ last, (plan current steps).2 = .ok last → Begun file last := by
  induction steps generalizing current with
  | nil =>
      refine ⟨nofun, ?_⟩
      rintro last ⟨⟩
      exact begun
  | cons step steps ih =>
      rw [plan]
      cases isAsked : step current with
      | error error => exact ⟨nofun, nofun⟩
      | ok asked =>
          rcases continues step List.mem_cons_self begun isAsked with ⟨fills, done, _⟩
          rcases ih done fun other present => continues other (.tail _ present) with ⟨rest, ended⟩
          exact ⟨fun operation present =>
            (List.mem_append.mp present).elim (fills operation) (rest operation), ended⟩

/-- A draft that is not completed is still there when the steps come to an end. -/
theorem begun_of_runSteps (disk : Disk) (begun : Begun file current)
    (continues : ∀ step ∈ steps, Continues file step) :
    Begun file (runSteps current disk steps).2.1 := by
  induction steps generalizing current disk with
  | nil => exact begun
  | cons step steps ih =>
      rw [runSteps]
      split
      · exact begun
      · next asked isAsked =>
        rcases continues step List.mem_cons_self begun isAsked with ⟨_, done, failed⟩
        rw [Writer.run]
        rcases FileStore.perform disk asked.operations with ⟨_ | _, middle⟩
        · exact failed
        · exact ih middle done fun other present => continues other (.tail _ present)

end Draft

section Save

variable {image : Image} {disk : Disk}

/-- The operations that write a draft of an image. -/
def draftOperations (image : Image) : List FileOperation :=
  (plan (writer image.name) (drafting image)).1

/-- The operations that save a stash.  Nothing is done for a dropped one. -/
def saveOperations (now : Nat) (stash : Stash) : List FileOperation :=
  match stash.entries now with
  | .error .closed => []
  | .ok entries => (plan (writer stash.name) (steps (imageOf stash entries))).1

theorem saveOperations_of_open {stash : Stash} {contents : Stash.Contents}
    (opened : stash.contents = some contents) (now : Nat) :
    saveOperations now stash = (plan (writer (imageOf stash (contents.entries now)).name)
      (steps (imageOf stash (contents.entries now)))).1 := by
  rw [saveOperations, Stash.entries_of_open opened]
  rfl

theorem saveOperations_of_closed {stash : Stash} (gone : stash.contents = none) (now : Nat) :
    saveOperations now stash = [] := by
  rw [saveOperations, Stash.entries, Stash.open?, gone]
  rfl

/-- The steps that put an image into a draft that is begun. -/
def filling (image : Image) : List (Writer → Except Error Writer.Step) :=
  (fun writer => writer.settings image.name image.maxKeys image.offHeap) ::
    image.entries.map fun entry writer => writer.entry entry

theorem drafting_eq (image : Image) :
    drafting image = (fun writer => .ok writer.start) :: filling image :=
  rfl

theorem continues_filling (image : Image) (file : String) :
    ∀ step ∈ filling image, Continues file step := by
  intro step present
  rcases List.mem_cons.mp present with rfl | entries
  · exact continues_append file _ _
  · rcases List.mem_map.mp entries with ⟨entry, _, rfl⟩
    exact continues_append file _ _

theorem begun_start (name : String) : Begun (fileName name) (writer name).start.done :=
  ⟨rfl, Option.some_ne_none _⟩

/-- The operations that make the file of a draft. -/
def opening (name : String) : List FileOperation :=
  [.prepare (fileName name), .create (writer name).draftFile]

theorem changes_opening {name : String} {operation : FileOperation}
    (present : operation ∈ opening name) : operation.changes ⊆ [(writer name).draftFile] := by
  rcases List.mem_cons.mp present with rfl | made
  · exact List.nil_subset _
  · rw [List.mem_singleton.mp made]
    exact List.Subset.refl _

/-- A draft is made, and then there is nothing but work on its file. -/
theorem exists_draftOperations (image : Image) :
    ∃ work, draftOperations image = opening image.name ++ work ∧
      ∀ operation ∈ work, operation.Fills (writer image.name).draftFile := by
  refine ⟨(plan (writer image.name).start.done (filling image)).1, ?_, ?_⟩
  · rw [draftOperations, drafting_eq, plan]
    rfl
  · exact (plan_of_continues (begun_start image.name) (continues_filling image _)).1

theorem begun_of_plan_drafting {last : Writer}
    (planned : (plan (writer image.name) (drafting image)).2 = .ok last) :
    Begun (fileName image.name) last := by
  rw [drafting_eq, plan] at planned
  exact (plan_of_continues (begun_start image.name) (continues_filling image _)).2 last planned

/-- Either a step is refused, and there is no more than a draft, or the draft is completed and is
given its name at last. -/
theorem plan_steps_cases (image : Image) :
    (∃ error, plan (writer image.name) (drafting image) = (draftOperations image, .error error) ∧
      plan (writer image.name) (steps image) = (draftOperations image, .error error)) ∨
    ∃ last draft, plan (writer image.name) (drafting image) = (draftOperations image, .ok last) ∧
      last.file = fileName image.name ∧ last.draft = some draft ∧
      plan (writer image.name) (steps image) =
        (draftOperations image ++ (draft.completion (writer image.name).draftFile ++
          [.rename (writer image.name).draftFile (fileName image.name)]),
          .ok { last with draft := none }) := by
  rw [steps_eq, plan_append]
  rcases planned : plan (writer image.name) (drafting image) with ⟨operations, error | last⟩
  · refine .inl ⟨error, ?_, ?_⟩ <;> rw [draftOperations, planned]
  · right
    have begun := begun_of_plan_drafting (congrArg Prod.snd planned)
    rcases Option.ne_none_iff_exists'.mp begun.draft with ⟨draft, drafted⟩
    refine ⟨last, draft, ?_, begun.file, drafted, ?_⟩
    · rw [draftOperations, planned]
    · rcases isAsked : last.commit with error | asked
      · simp [Writer.commit, drafted] at isAsked
      · rcases Writer.exists_of_commit isAsked with ⟨again, same, asks, done, _⟩
        cases drafted.symm.trans same
        simp only [plan, isAsked, asks, done, draftOperations, planned,
          draftFile_eq begun.file, begun.file, List.append_nil]

/-- The draft is made, then it is worked on, and at most one operation comes after that. -/
theorem exists_work (image : Image) :
    ∃ work closing, (plan (writer image.name) (steps image)).1 =
        opening image.name ++ (work ++ closing) ∧
      (∀ operation ∈ work, operation.Fills (writer image.name).draftFile) ∧
      closing.length ≤ 1 := by
  rcases exists_draftOperations image with ⟨work, begins, fills⟩
  rcases plan_steps_cases image with ⟨_, _, planned⟩ | ⟨_, draft, _, _, _, planned⟩
  · refine ⟨work, [], ?_, fills, Nat.zero_le 1⟩
    rw [planned, begins, List.append_nil]
  · refine ⟨work ++ draft.completion (writer image.name).draftFile,
      [.rename (writer image.name).draftFile (fileName image.name)], ?_, ?_, Nat.le_refl 1⟩
    · rw [planned, begins, List.append_assoc, List.append_assoc]
    · intro operation present
      exact (List.mem_append.mp present).elim (fills operation) Draft.fills_completion

/-- An image whose operations all succeed is written. -/
theorem write_of_perform {operations : List FileOperation} {last : Writer} {next : Disk}
    (planned : plan (writer image.name) (steps image) = (operations, .ok last))
    (closed : last.draft = none) (performed : FileStore.perform disk operations = (.ok (), next)) :
    write disk image = (.ok (), next) := by
  rw [write, runSteps_of_perform planned performed]
  dsimp only
  rw [Writer.close, closed]

end Save

end Archive

end Larder
