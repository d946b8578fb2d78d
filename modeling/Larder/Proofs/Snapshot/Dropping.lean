import Larder.Proofs.Registry.Orderly
import Larder.Proofs.Snapshot.Passes
import Larder.Proofs.Stash.Refinement

/-!
# Dropping a stash while it is saved

A stash may be dropped at any moment while it is saved.  Whoever saves it puts the image in its
place first and looks only then whether the stash was dropped; whoever drops it takes its contents
away first and deletes the file only then.  So whichever of them comes last takes the file away.
-/

namespace Larder

open Snapshot Archive

/-- How far a stash is saved. -/
inductive Scribe where
  | waiting
  /-- Some operations of a step are left, before the writer takes other steps. -/
  | writing (left : List FileOperation) (writer : Writer)
      (steps : List (Writer → Except Error Writer.Step))
  /-- The image is in its place. -/
  | written
  /-- The stash was dropped, so the image is to be taken away again. -/
  | regretting
  /-- It is known whether any entries were listed. -/
  | done (listed : Bool)

/-- How far a stash is dropped. -/
inductive Demise where
  | due
  /-- Its name is free. -/
  | unregistered
  /-- Its contents are gone. -/
  | closed
  /-- Its file is gone. -/
  | deleted
  deriving DecidableEq

/-- A registry and a disk, with a stash that is saved and dropped at once. -/
structure Dropping where
  registry : Registry
  disk : Disk
  scribe : Scribe := .waiting
  demise : Demise := .due

namespace Dropping

/--
What can happen next to a stash of a name and with a handle.  Every operation on its files succeeds,
and nobody else is about them.  Its file is deleted at any time after its contents are gone.
-/
inductive Step (name : String) (handle : Handle) : Dropping → Dropping → Prop where
  | list {state : Dropping} {stash : Stash} {now : Nat} {all entries : List Stash.Entry}
      (waiting : state.scribe = .waiting) (found : state.registry.stash? handle = some stash)
      (answered : stash.entries now = .ok all) (order : entries.Perm all) :
      Step name handle state { state with
        scribe := .writing [] (writer stash.name) (steps (imageOf stash entries)) }
  | refuse {state : Dropping} {stash : Stash} {now : Nat} (waiting : state.scribe = .waiting)
      (found : state.registry.stash? handle = some stash)
      (refused : stash.entries now = .error .closed) :
      Step name handle state { state with scribe := .done false }
  | operate {state : Dropping} {operation : FileOperation} {left : List FileOperation}
      {writer : Writer} {steps : List (Writer → Except Error Writer.Step)} {disk : Disk}
      (writing : state.scribe = .writing (operation :: left) writer steps)
      (applied : state.disk.apply operation = (.ok (), disk)) :
      Step name handle state { state with disk, scribe := .writing left writer steps }
  | advance {state : Dropping} {writer : Writer} {step : Writer → Except Error Writer.Step}
      {steps : List (Writer → Except Error Writer.Step)} {asked : Writer.Step}
      (writing : state.scribe = .writing [] writer (step :: steps))
      (accepted : step writer = .ok asked) :
      Step name handle state { state with
        scribe := .writing asked.operations asked.done steps }
  /-- Entries that do not fit are not written, and the draft is given up. -/
  | giveUp {state : Dropping} {writer : Writer} {step : Writer → Except Error Writer.Step}
      {steps : List (Writer → Except Error Writer.Step)} {error : Error} {disk : Disk}
      (writing : state.scribe = .writing [] writer (step :: steps))
      (refused : step writer = .error error)
      (removed : state.disk.apply (.remove writer.draftFile) = (.ok (), disk)) :
      Step name handle state { state with
        disk := (writer.close state.disk).2, scribe := .done true }
  | complete {state : Dropping} {writer : Writer} (writing : state.scribe = .writing [] writer []) :
      Step name handle state { state with
        disk := (writer.close state.disk).2, scribe := .written }
  | confirm {state : Dropping} {stash : Stash} (written : state.scribe = .written)
      (found : state.registry.stash? handle = some stash) :
      Step name handle state { state with
        scribe := if stash.isClosed then .regretting else .done true }
  | regret {state : Dropping} {disk : Disk} (regretting : state.scribe = .regretting)
      (deleted : Archive.delete state.disk name = (.ok (), disk)) :
      Step name handle state { state with disk, scribe := .done true }
  | unregister {state : Dropping} (due : state.demise = .due) :
      Step name handle state { state with
        registry := { state.registry with names := state.registry.names.erase name }
        demise := .unregistered }
  | close {state : Dropping} (unregistered : state.demise = .unregistered) :
      Step name handle state { state with
        registry := { state.registry with
          stashes := state.registry.stashes.modify handle Stash.close }
        demise := .closed }
  | delete {state : Dropping} {disk : Disk} (closed : state.demise = .closed)
      (deleted : Archive.delete state.disk name = (.ok (), disk)) :
      Step name handle state { state with disk, demise := .deleted }
  /-- Others use the stash meanwhile. -/
  | call {state : Dropping} {stash : Stash} {now : Nat} {call : Stash.Call}
      (found : state.registry.stash? handle = some stash) (kept : call ≠ .close) :
      Step name handle state { state with
        registry := state.registry.put handle (stash.after now call) }
  | elsewhere {state : Dropping} {disk : Disk} (clean : disk.faults = [])
      (file : disk.content? (fileName name) = state.disk.content? (fileName name))
      (draft : disk.content? (writer name).draftFile =
        state.disk.content? (writer name).draftFile) :
      Step name handle state { state with disk }

def Reaches (name : String) (handle : Handle) : Dropping → Dropping → Prop :=
  Relation.ReflTransGen (Step name handle)

end Dropping

section Stash

/-- A call changes no name, and brings no dropped stash back. -/
theorem Stash.name_after (stash : Stash) (now : Nat) {call : Stash.Call} (kept : call ≠ .close) :
    (stash.after now call).name = stash.name ∧
      (stash.contents = none → (stash.after now call).contents = none) := by
  cases held : stash.contents with
  | some contents =>
      have used : stash.InUse stash.name := ⟨rfl, contents, held⟩
      exact ⟨(used.after now kept).named, nofun⟩
  | none =>
      refine ⟨?_, fun _ => (step_of_closed held now call).2⟩
      by_cases isDirty : call = .takeDirty
      · subst isDirty
        rfl
      · rw [after, respond_of_closed held now isDirty kept]

end Stash

/-- What a writer still has to do to put an image in its place: it works on the draft, and gives it
its name at last. -/
inductive Scripted (name : String) (left : List FileOperation) (writer : Writer)
    (rest : List (Writer → Except Error Writer.Step)) : Prop where
  | beginning {image : Image} (nothing : left = []) (fresh : writer = Archive.writer name)
      (all : rest = steps image)
  | drafting {appends : List (Writer → Except Error Writer.Step)}
      (only : ∀ operation ∈ left, operation.changes ⊆ [(Archive.writer name).draftFile])
      (file : writer.file = fileName name) (begun : writer.draft ≠ none)
      (pieces : ∀ step ∈ appends, ∃ count fields, step = fun writer => writer.append count fields)
      (more : rest = appends ++ [Writer.commit])
  | completing {earlier : List FileOperation}
      (only : ∀ operation ∈ earlier, operation.changes ⊆ [(Archive.writer name).draftFile])
      (last : left = earlier ++ [.rename (Archive.writer name).draftFile (fileName name)])
      (closed : writer.draft = none) (nothing : rest = [])
  | complete (nothing : left = []) (closed : writer.draft = none) (finished : rest = [])

namespace Scripted

variable {name : String} {left : List FileOperation} {writer : Writer}
  {rest : List (Writer → Except Error Writer.Step)}
  {step : Writer → Except Error Writer.Step} {asked : Writer.Step} {operation : FileOperation}

theorem draft_of_append {count : Nat} {fields : List Field}
    (accepted : writer.append count fields = .ok asked) : asked.done.draft ≠ none := by
  simp only [Writer.append] at accepted
  split at accepted
  · cases accepted
  · split at accepted
    · cases accepted
    · cases accepted
      exact Option.some_ne_none _

/-- The writer takes the next step, after which something is left to do. -/
theorem advance (scripted : Scripted name [] writer (step :: rest))
    (accepted : step writer = .ok asked) :
    Scripted name asked.operations asked.done rest ∧ (asked.operations = [] → rest ≠ []) := by
  cases scripted with
  | @beginning image _ fresh all =>
      cases all
      cases accepted
      rcases Writer.asksOnly_start (congrArg Writer.file fresh) rfl with ⟨only, file, _⟩
      refine ⟨?_, fun _ => List.cons_ne_nil _ _⟩
      refine @drafting _ _ _ _
        ((fun writer => writer.settings image.name image.maxKeys image.offHeap) ::
          image.entries.map (fun entry writer => writer.entry entry))
        only file (Option.some_ne_none _) ?_ rfl
      intro step present
      rcases List.mem_cons.mp present with rfl | entries
      · exact ⟨_, _, rfl⟩
      · rcases List.mem_map.mp entries with ⟨entry, _, rfl⟩
        exact ⟨_, _, rfl⟩
  | @drafting appends _ file begun pieces more =>
      cases appends with
      | nil =>
          cases more
          rcases Writer.exists_of_commit accepted with ⟨draft, _, operations, done, _⟩
          rw [operations, done, file, draftFile_eq file]
          refine ⟨.completing ?_ rfl rfl rfl, fun none => absurd none (by simp)⟩
          exact fun operation present => Draft.changes_completion present
      | cons first appends =>
          cases more
          rcases pieces step List.mem_cons_self with ⟨count, fields, rfl⟩
          rcases Writer.asksOnly_append count fields file accepted with ⟨only, kept, _⟩
          refine ⟨.drafting only kept (draft_of_append accepted) ?_ rfl, fun _ => by simp⟩
          exact fun step present => pieces step (.tail _ present)
  | completing _ _ _ nothing => cases nothing
  | complete _ _ finished => cases finished

/-- A writer that cannot take the next step has a draft. -/
theorem begun_of_refused {error : Error} (scripted : Scripted name [] writer (step :: rest))
    (refused : step writer = .error error) :
    writer.draft ≠ none ∧ writer.draftFile = (Archive.writer name).draftFile := by
  cases scripted with
  | beginning _ _ all =>
      cases all
      cases refused
  | drafting _ file begun => exact ⟨begun, draftFile_eq file⟩
  | completing _ _ _ nothing => cases nothing
  | complete _ _ finished => cases finished

/-- An operation changes the draft only, or it is the last one and gives the draft its name. -/
theorem operate (scripted : Scripted name (operation :: left) writer rest) :
    Scripted name left writer rest ∧
      (operation.changes ⊆ [(Archive.writer name).draftFile] ∧ (left = [] → rest ≠ []) ∨
        operation = .rename (Archive.writer name).draftFile (fileName name) ∧ left = [] ∧
          rest = []) := by
  cases scripted with
  | beginning nothing => cases nothing
  | drafting only file begun pieces more =>
      rw [List.forall_mem_cons] at only
      refine ⟨.drafting only.2 file begun pieces more, .inl ⟨only.1, fun _ => ?_⟩⟩
      rw [more]
      exact List.append_ne_nil_of_right_ne_nil _ (List.cons_ne_nil _ _)
  | @completing earlier only last closed nothing =>
      cases earlier with
      | nil =>
          cases last
          exact ⟨.complete rfl closed nothing, .inr ⟨rfl, rfl, nothing⟩⟩
      | cons first earlier =>
          cases last
          rw [List.forall_mem_cons] at only
          refine ⟨.completing only.2 rfl closed nothing, .inl ⟨only.1, ?_⟩⟩
          exact fun none =>
            absurd none (List.append_ne_nil_of_right_ne_nil _ (List.cons_ne_nil _ _))
  | complete nothing => cases nothing

theorem draft_of_finished (scripted : Scripted name [] writer []) : writer.draft = none := by
  cases scripted with
  | beginning _ _ all => cases all
  | drafting _ _ _ _ more => exact absurd more.symm (by simp)
  | completing _ last => exact absurd last.symm (by simp)
  | complete _ closed => exact closed

end Scripted

/-- Whether the image is in its place and may have to be taken away again. -/
def Scribe.Owes : Scribe → Prop
  | .writing left _ rest => left = [] ∧ rest = []
  | .written | .regretting => True
  | .waiting | .done _ => False

/-- What is in the file of the draft: what was there before, as long as nothing is written, and
nothing once all is written. -/
def Scribe.Leaves (name : String) (before : Option Bytes) (scribe : Scribe) (draft : Option Bytes) :
    Prop :=
  match scribe with
  | .waiting | .done false => draft = before
  | .writing left writer rest =>
    Scripted name left writer rest ∧ (left = [] → rest = [] → draft = none)
  | .written | .regretting | .done true => draft = none

namespace Dropping

/-- As soon as the stash is deleted, its file is gone or is going to be deleted once more. -/
structure Consistent (name : String) (handle : Handle) (before : Option Bytes) (state : Dropping) :
    Prop where
  clean : state.disk.faults = []
  stash : ∃ stash, state.registry.stash? handle = some stash ∧ stash.name = name ∧
    (state.demise = .closed ∨ state.demise = .deleted → stash.contents = none)
  draft : state.scribe.Leaves name before (state.disk.content? (writer name).draftFile)
  file : state.demise = .deleted →
    state.disk.content? (fileName name) = none ∨ state.scribe.Owes

variable {name : String} {handle : Handle} {before : Option Bytes} {state next : Dropping}

section Scribe

variable {left : List FileOperation} {writer : Writer}
  {rest : List (Writer → Except Error Writer.Step)}

theorem Consistent.operate {operation : FileOperation} {disk : Disk}
    (consistent : Consistent name handle before state)
    (writing : state.scribe = .writing (operation :: left) writer rest)
    (applied : state.disk.apply operation = (.ok (), disk)) :
    Consistent name handle before { state with disk, scribe := .writing left writer rest } := by
  have draft := consistent.draft
  have file := consistent.file
  rw [writing] at draft file
  have changed : disk = (state.disk.apply operation).2 := by
    rw [applied]
  have clean : disk.faults = [] := changed ▸ Disk.faults_apply consistent.clean operation
  rcases draft.1.operate with ⟨scripted, ⟨only, goes⟩ | ⟨rfl, rfl, rfl⟩⟩
  · refine ⟨clean, consistent.stash, ⟨scripted, fun none finished => absurd finished (goes none)⟩, ?_⟩
    intro deleted
    rcases file deleted with absent | ⟨more, _⟩
    · left
      rw [← absent, changed]
      apply Disk.content?_apply
      intro named
      exact draftFile_ne_fileName name name (List.mem_singleton.mp (only named)).symm
    · cases more
  · exact ⟨clean, consistent.stash,
      ⟨scripted, fun _ _ => Disk.content?_rename (draftFile_ne_fileName name name) applied⟩,
      fun _ => .inr ⟨rfl, rfl⟩⟩

theorem Consistent.advance {step : Writer → Except Error Writer.Step} {asked : Writer.Step}
    (consistent : Consistent name handle before state)
    (writing : state.scribe = .writing [] writer (step :: rest))
    (accepted : step writer = .ok asked) :
    Consistent name handle before
      { state with scribe := .writing asked.operations asked.done rest } := by
  have draft := consistent.draft
  have file := consistent.file
  rw [writing] at draft file
  rcases draft.1.advance accepted with ⟨scripted, more⟩
  refine ⟨consistent.clean, consistent.stash,
    ⟨scripted, fun none finished => absurd finished (more none)⟩, ?_⟩
  intro deleted
  rcases file deleted with absent | ⟨_, finished⟩
  · exact .inl absent
  · cases finished

theorem Consistent.giveUp {step : Writer → Except Error Writer.Step} {error : Error} {disk : Disk}
    (consistent : Consistent name handle before state)
    (writing : state.scribe = .writing [] writer (step :: rest))
    (refused : step writer = .error error)
    (removed : state.disk.apply (.remove writer.draftFile) = (.ok (), disk)) :
    Consistent name handle before
      { state with disk := (writer.close state.disk).2, scribe := .done true } := by
  have draft := consistent.draft
  have file := consistent.file
  rw [writing] at draft file
  rcases draft.1.begun_of_refused refused with ⟨begun, draftFile⟩
  have closed : (writer.close state.disk).2 = (state.disk.apply (.remove writer.draftFile)).2 := by
    rw [Writer.close]
    split
    · next none => exact absurd none begun
    · rfl
  have kept := @Writer.content?_close state.disk writer (fileName name)
    (draftFile ▸ draftFile_ne_fileName name name)
  rw [closed, removed] at kept ⊢
  have clean := Disk.faults_apply consistent.clean (.remove writer.draftFile)
  rw [removed] at clean
  refine ⟨clean, consistent.stash, draftFile ▸ Disk.content?_remove removed, ?_⟩
  intro deleted
  rcases file deleted with absent | ⟨_, finished⟩
  · exact .inl (kept.trans absent)
  · cases finished

theorem Consistent.complete (consistent : Consistent name handle before state)
    (writing : state.scribe = .writing [] writer []) :
    Consistent name handle before
      { state with disk := (writer.close state.disk).2, scribe := .written } := by
  have draft := consistent.draft
  rw [writing] at draft
  have closed : (writer.close state.disk).2 = state.disk := by
    rw [Writer.close, draft.1.draft_of_finished]
  rw [closed]
  exact ⟨consistent.clean, consistent.stash, draft.2 rfl rfl, fun _ => .inr trivial⟩

theorem Consistent.confirm {stash : Stash} (consistent : Consistent name handle before state)
    (written : state.scribe = .written) (found : state.registry.stash? handle = some stash) :
    Consistent name handle before
      { state with scribe := if stash.isClosed then .regretting else .done true } := by
  have draft := consistent.draft
  rw [written] at draft
  cases dropped : stash.isClosed with
  | true =>
      exact ⟨consistent.clean, consistent.stash, draft, fun _ => .inr trivial⟩
  | false =>
      -- A stash has no contents by the time its file is deleted, so it would be seen as dropped.
      refine ⟨consistent.clean, consistent.stash, draft, ?_⟩
      intro deleted
      rcases consistent.stash with ⟨again, same, _, gone⟩
      cases found.symm.trans same
      rw [Stash.isClosed, gone (.inr deleted)] at dropped
      cases dropped

/-- The file is gone once it is deleted, and the draft stays as it is. -/
theorem Consistent.delete {disk : Disk} (consistent : Consistent name handle before state)
    (deleted : Archive.delete state.disk name = (.ok (), disk)) :
    disk.faults = [] ∧ disk.content? (fileName name) = none ∧
      disk.content? (Archive.writer name).draftFile =
        state.disk.content? (Archive.writer name).draftFile := by
  rcases content?_of_delete consistent.clean deleted with ⟨clean, absent⟩
  have kept := @content?_delete state.disk name (Archive.writer name).draftFile
    (draftFile_ne_fileName name name).symm
  rw [deleted] at kept
  exact ⟨clean, absent, kept⟩

end Scribe

theorem Consistent.step (consistent : Consistent name handle before state)
    (step : Step name handle state next) : Consistent name handle before next := by
  rcases consistent with ⟨clean, ⟨stash, isStash, named, gone⟩, draft, file⟩
  have consistent : Consistent name handle before state :=
    ⟨clean, ⟨stash, isStash, named, gone⟩, draft, file⟩
  cases step with
  | operate writing applied => exact consistent.operate writing applied
  | advance writing accepted => exact consistent.advance writing accepted
  | giveUp writing refused removed => exact consistent.giveUp writing refused removed
  | complete writing => exact consistent.complete writing
  | confirm written found => exact consistent.confirm written found
  | list waiting found answered order =>
      cases isStash.symm.trans found
      rw [waiting] at file
      refine ⟨clean, consistent.stash, ⟨.beginning rfl (named ▸ rfl) rfl, nofun⟩, ?_⟩
      intro deleted
      exact .inl ((file deleted).resolve_right id)
  | refuse waiting found refused =>
      rw [waiting] at draft file
      exact ⟨clean, consistent.stash, draft, file⟩
  | regret regretting deleted =>
      rw [regretting] at draft
      rcases consistent.delete deleted with ⟨clean, absent, kept⟩
      exact ⟨clean, consistent.stash, kept.trans draft, fun _ => .inl absent⟩
  | unregister due => exact ⟨clean, ⟨stash, isStash, named, nofun⟩, draft, nofun⟩
  | close unregistered =>
      refine ⟨clean, ⟨stash.close, ?_, named, fun _ => rfl⟩, draft, nofun⟩
      rw [Registry.stash?, List.getElem?_modify_eq]
      exact congrArg (Option.map Stash.close) isStash
  | delete closed deleted =>
      rcases consistent.delete deleted with ⟨clean, absent, kept⟩
      refine ⟨clean, ⟨stash, isStash, named, fun _ => gone (.inl closed)⟩, ?_, fun _ => .inl absent⟩
      rw [kept]
      exact draft
  | @call _ now call found kept =>
      cases isStash.symm.trans found
      rcases stash.name_after now kept with ⟨sameName, stays⟩
      refine ⟨clean, ⟨_, Registry.stash?_put_self found _, sameName.trans named, ?_⟩, draft, file⟩
      exact fun finished => stays (gone finished)
  | elsewhere clean sameFile sameDraft =>
      refine ⟨clean, consistent.stash, ?_, ?_⟩
      · rw [sameDraft]
        exact draft
      · rw [sameFile]
        exact file

section Alone

variable {registry last : Registry} {disk middle final : Disk} {demise : Demise}
  {scribe : Scribe} {current writer : Writer}

theorem reaches_perform {operations : List FileOperation}
    {rest : List (Writer → Except Error Writer.Step)}
    (performed : FileStore.perform disk operations = (.ok (), middle)) :
    Reaches name handle { registry, disk, scribe := .writing operations writer rest, demise }
      { registry, disk := middle, scribe := .writing [] writer rest, demise } := by
  induction operations generalizing disk with
  | nil =>
      cases performed
      exact .refl
  | cons operation operations ih =>
      rw [FileStore.perform] at performed
      split at performed
      · next applied => exact .head (.operate rfl applied) (ih performed)
      · cases performed

theorem reaches_runSteps {steps : List (Writer → Except Error Writer.Step)}
    (ran : runSteps current disk steps = (.ok (), writer, final)) :
    Reaches name handle { registry, disk, scribe := .writing [] current steps, demise }
      { registry, disk := final, scribe := .writing [] writer [], demise } := by
  induction steps generalizing current disk with
  | nil =>
      cases ran
      exact .refl
  | cons step steps ih =>
      rcases exists_of_runSteps_cons ran with ⟨asked, next, middle, accepted, took, ran⟩
      rcases Writer.perform_of_run took with ⟨performed, rfl⟩
      exact .head (.advance rfl accepted) ((reaches_perform performed).trans (ih ran))

theorem reaches_write {image : Image} (wrote : write disk image = (.ok (), final)) :
    Reaches name handle
      { registry, disk, scribe := .writing [] (Archive.writer image.name) (steps image), demise }
      { registry, disk := final, scribe := .written, demise } := by
  rcases ran : runSteps (Archive.writer image.name) disk (steps image) with
    ⟨_ | _, writer, middle⟩
  · simp only [write, ran] at wrote
    cases wrote
  · simp only [write, ran] at wrote
    cases wrote
    exact (reaches_runSteps ran).tail (.complete rfl)

/-- With nothing in between, the steps come to `Archive.save`. -/
theorem reaches_save {stash : Stash} {now count : Nat} {contents : Stash.Contents}
    (found : registry.stash? handle = some stash) (opened : stash.contents = some contents)
    (saved : Archive.save disk now stash = (.ok count, final)) :
    Reaches name handle { registry, disk, demise }
      { registry, disk := final, scribe := .done true, demise } := by
  rw [save_of_open opened] at saved
  split at saved
  · cases saved
  · next wrote =>
    cases saved
    have alive : stash.isClosed = false := by
      rw [Stash.isClosed, opened]
      rfl
    have confirm : Step name handle { registry, disk := final, scribe := .written, demise }
        { registry, disk := final, demise
          scribe := if stash.isClosed then .regretting else .done true } :=
      .confirm rfl found
    rw [alive, if_neg Bool.false_ne_true] at confirm
    exact .head (.list rfl found (Stash.entries_of_open opened now) (.refl _))
      ((reaches_write wrote).tail confirm)

/-- With nothing in between, the steps of dropping come to `Registry.drop`, and the deletion that it
leaves to do. -/
theorem reaches_drop (found : registry.handle? name = some handle)
    (persistent : registry.persistent = true) (idle : registry.deletions = [])
    (dropped : registry.drop name = (.ok (), last))
    (deleted : Archive.delete disk name = (.ok (), final)) :
    Reaches name handle { registry, disk, scribe }
      { registry := (last.runDeletions disk).1, disk := (last.runDeletions disk).2, scribe
        demise := .deleted } := by
  rw [Registry.drop, found, idle] at dropped
  split at dropped
  · cases dropped
  · cases dropped
    have settled : Registry.runDeletions
        { registry with
          names := registry.names.erase name
          stashes := registry.stashes.modify handle Stash.close
          deletions := [name] } disk =
        ({ registry with
          names := registry.names.erase name
          stashes := registry.stashes.modify handle Stash.close }, final) := by
      simp [Registry.runDeletions, idle, deleted]
    rw [List.nil_append, settled]
    exact .head (.unregister rfl) (.head (.close rfl) (.single (.delete rfl deleted)))

/-- The stash may be dropped and its file deleted after its entries are listed and before they are
written.  Then the image is taken away again. -/
theorem reaches_late_save {stash : Stash} {now : Nat} {entries : List Stash.Entry}
    {cleared written : Disk} (found : registry.stash? handle = some stash)
    (answered : stash.entries now = .ok entries)
    (deleted : Archive.delete disk name = (.ok (), cleared))
    (wrote : write cleared (imageOf stash entries) = (.ok (), written))
    (regretted : Archive.delete written name = (.ok (), final)) :
    Reaches name handle { registry, disk }
      { registry := { registry with
          names := registry.names.erase name
          stashes := registry.stashes.modify handle Stash.close }
        disk := final
        scribe := .done true
        demise := .deleted } := by
  have closed : (registry.stashes.modify handle Stash.close)[handle]? = some stash.close := by
    rw [List.getElem?_modify_eq]
    exact congrArg (Option.map Stash.close) found
  refine .head (.list rfl found answered (.refl _)) ?_
  refine .head (.unregister rfl) (.head (.close rfl) (.head (.delete rfl deleted) ?_))
  refine (reaches_write wrote).trans (.head (.confirm rfl closed) (.single ?_))
  exact .regret rfl regretted

end Alone

theorem Consistent.reaches (consistent : Consistent name handle before state)
    (reached : Reaches name handle state next) : Consistent name handle before next := by
  induction reached with
  | refl => exact consistent
  | tail _ step ih => exact ih.step step

/--
A stash is saved and dropped at once, step by step and in any order, while others use it and other
files change.  Its file may have been there before.  If no operation on its files fails, then once
both have come to their end its file is gone, and so is the draft; only a draft that was left behind
before stays as it is, if the stash was dropped before its entries could be listed.
-/
theorem no_file_after_drop {registry : Registry} {disk : Disk} {stash : Stash}
    (found : registry.stash? handle = some stash) (named : stash.name = name)
    (clean : disk.faults = []) (reached : Reaches name handle { registry, disk } state)
    {listed : Bool} (saved : state.scribe = .done listed) (dropped : state.demise = .deleted) :
    state.disk.content? (fileName name) = none ∧
      state.disk.content? (writer name).draftFile =
        if listed then none else disk.content? (writer name).draftFile := by
  have start : Consistent name handle (disk.content? (writer name).draftFile) { registry, disk } :=
    ⟨clean, ⟨stash, found, named, nofun⟩, rfl, nofun⟩
  rcases start.reaches reached with ⟨_, _, draft, file⟩
  rw [saved] at draft file
  refine ⟨(file dropped).resolve_right id, ?_⟩
  cases listed <;> exact draft

/-- The image is put in its place only after the stash is dropped and no file is found to delete,
and is taken away again. -/
theorem no_file_after_late_rename :
    let stash := (Stash.create 0 "a" {}).after 0 (.set [1] [2])
    let registry := ((Registry.start 0 2 {} true).register 0 "a" {}).put 1 stash
    let written := write {} (imageOf stash [⟨[1], [2], none⟩])
    let last : Dropping :=
      { registry := { registry with
          names := registry.names.erase "a"
          stashes := registry.stashes.modify 1 Stash.close }
        disk := (Archive.delete written.2 "a").2
        scribe := .done true
        demise := .deleted }
    registry.stash? 1 = some stash ∧ stash.name = "a" ∧
      Reaches "a" 1 { registry, disk := {} } last ∧
      written.2.content? (fileName "a") ≠ none ∧ last.disk.content? (fileName "a") = none ∧
      last.disk.content? (writer "a").draftFile = none := by
  intro stash registry written last
  have found : registry.stash? 1 = some stash := by decide +kernel
  have named : stash.name = "a" := by decide +kernel
  have answered : stash.entries 0 = .ok [⟨[1], [2], none⟩] := by decide +kernel
  have absent : Archive.delete {} "a" = (.ok (), {}) := by decide +kernel
  have wrote : write {} (imageOf stash [⟨[1], [2], none⟩]) = (.ok (), written.2) := by
    decide +kernel
  have regretted : Archive.delete written.2 "a" = (.ok (), last.disk) := by decide +kernel
  have present : written.2.content? (fileName "a") ≠ none := by decide +kernel
  -- From here on their values are not needed, and to unfold them would take long.
  clear_value stash written
  have reached : Reaches "a" 1 { registry, disk := {} } last :=
    reaches_late_save found answered absent wrote regretted
  exact ⟨found, named, reached, present, no_file_after_drop found named rfl reached rfl rfl⟩

/-- A draft that was left behind is not deleted with the stash, and stays if the stash was dropped
before its entries could be listed. -/
theorem draft_left_behind_stays :
    let registry := (Registry.start 0 2 {} true).register 0 "a" {}
    let disk : Disk := { directory := .present (FiniteMap.insert ∅ (writer "a").draftFile [7]) }
    let dropped := (registry.drop "a").2
    let last : Dropping :=
      { registry := (dropped.runDeletions disk).1
        disk := (dropped.runDeletions disk).2
        scribe := .done false
        demise := .deleted }
    registry.handle? "a" = some 1 ∧ Reaches "a" 1 { registry, disk } last ∧
      last.disk.content? (writer "a").draftFile = some [7] := by
  intro registry disk dropped last
  have found : registry.handle? "a" = some 1 := by decide +kernel
  have drops : registry.drop "a" = (.ok (), dropped) := by decide +kernel
  have deleted : Archive.delete disk "a" = (.ok (), disk) := by decide +kernel
  have drop : Reaches "a" 1 { registry, disk } { last with scribe := .waiting } :=
    reaches_drop found rfl rfl drops deleted
  have closed : last.registry.stash? 1 = some (Stash.create 0 "a" {}).close := by decide +kernel
  have refused : (Stash.create 0 "a" {}).close.entries 0 = .error .closed := rfl
  have refuse : Step "a" 1 { last with scribe := .waiting } last := .refuse rfl closed refused
  exact ⟨found, drop.tail refuse, by decide +kernel⟩

end Dropping

end Larder
