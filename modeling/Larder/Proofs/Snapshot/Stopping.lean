import Larder.Proofs.Snapshot.Succeeding

/-!
# Stopping in the middle of a save

Whoever saves a stash may stop between any two operations, and never come back to it.  As all
operations but the last one are about the draft, which does not count as a snapshot, what is loaded
then is what was loaded before, unless the image was given its name; and then it is complete.  That
is of no use if a key or a value in it is too long to be read: it is written like any other, the
earlier image is gone, and nothing is loaded in its place.
-/

namespace Larder.Archive

open Snapshot

/-- What is on the disk when saving a stash stops: after some of the operations, or at its end, when
a draft that was not completed is taken away. -/
inductive Stops (disk : Disk) (now : Nat) (stash : Stash) : Disk → Prop where
  | between (place : Nat) :
      Stops disk now stash (FileStore.perform disk ((saveOperations now stash).take place)).2
  | done : Stops disk now stash (save disk now stash).2

/-- The file of a stash is as it was, and all that is loaded is what was loaded before. -/
structure Untouched (disk stopped : Disk) (name : String) : Prop where
  file : stopped.content? (fileName name) = disk.content? (fileName name)
  loaded : ∀ later, loaded stopped.directory later = loaded disk.directory later

/-- The file of a stash holds the whole image.  What is read from that is loaded in the place of
what the file gave before, and the other files give what they gave. -/
structure Replaced (disk stopped : Disk) (image : Image) : Prop where
  file : stopped.directory.read (fileName image.name) = .ok image.encode
  before : ∀ later, loaded disk.directory later =
    .ok ((imageIn? disk.directory later (fileName image.name)).toList +
      imagesElsewhere disk.directory later (fileName image.name))
  after : ∀ later, loaded stopped.directory later =
    .ok ((if image.name = "" then none else (Image.read later image.encode).toOption).toList +
      imagesElsewhere disk.directory later (fileName image.name))
  whole : image.name ≠ "" → image.Fits → ∀ later, loaded stopped.directory later =
    .ok ({image.liveAt later} + imagesElsewhere disk.directory later (fileName image.name))
  /-- With a key or a value that is too long, nothing takes the place of the earlier image. -/
  unreadable : (∃ entry ∈ image.entries.take image.announced, ¬entry.Readable) → ∀ later,
    loaded stopped.directory later =
      .ok (imagesElsewhere disk.directory later (fileName image.name))

variable {disk next stopped : Disk} {now : Nat} {stash : Stash} {image : Image}

section Untouched

theorem untouched_of_spares {name : String}
    (spares : disk.Spares [(writer name).draftFile] stopped) : Untouched disk stopped name where
  file := spares.content _ fun named =>
    draftFile_ne_fileName name name (List.mem_singleton.mp named).symm
  loaded := loaded_of_spares spares (List.forall_mem_singleton.mpr (not_isSnapshot_draftFile name))

theorem spares_save (disk : Disk) (now : Nat) (stash : Stash) :
    disk.Spares [(writer stash.name).draftFile, fileName stash.name] (save disk now stash).2 :=
  @kept_by_save disk now stash (disk.Spares _) (fun _ within _ spares => spares.apply within)
    (.refl _ disk)

/-- A save that fails changes nothing but the draft. -/
theorem spares_of_save_error {error : Error} (failed : save disk now stash = (.error error, next)) :
    disk.Spares [(writer stash.name).draftFile] next := by
  have spares := spares_save disk now stash
  rw [failed] at spares
  refine ⟨spares.obstructed, fun file other => ?_⟩
  by_cases own : file = fileName stash.name
  · subst own
    exact content?_of_save_error failed
  · apply spares.content
    rw [List.mem_singleton] at other
    simp [other, own]

end Untouched

section Replaced

theorem replaced_of_save {contents : Stash.Contents} {count : Nat}
    (opened : stash.contents = some contents) (saved : save disk now stash = (.ok count, next)) :
    Replaced disk next (imageOf stash (contents.entries now)) := by
  have held := (read_of_save opened saved).2
  have spares := spares_save disk now stash
  rw [saved] at spares
  have accessible := Disk.accessible_of_read held
  have silent : ∀ other ∈ [(writer stash.name).draftFile, fileName stash.name],
      other ≠ fileName stash.name → isSnapshot other = false := by
    intro other present different
    rcases List.mem_cons.mp present with rfl | own
    · exact not_isSnapshot_draftFile stash.name
    · exact absurd (List.mem_singleton.mp own) different
  have after (later : Nat) := loaded_eq accessible later (fileName stash.name)
  simp only [imageIn?_of_read _ held, imagesElsewhere_of_spares spares silent] at after
  refine ⟨held, ?_, after, ?_, ?_⟩
  · exact fun later => loaded_eq (fun same => accessible (spares.obstructed.mpr same)) later _
  · intro named fits later
    have unnamed : stash.name ≠ "" := named
    rw [after, if_neg unnamed, Image.read_encode fits]
    rfl
  · rintro ⟨entry, present, long⟩ later
    rw [after]
    cases read : Image.read later (imageOf stash (contents.entries now)).encode with
    | error error =>
        rw [Except.toOption, ite_self]
        exact congrArg _ (Multiset.zero_add _)
    | ok found =>
        have fits := Image.fits_stored_iff.mp (fits_stored_of_save opened saved read)
        exact absurd (fits.2 entry present) long

/-- Saving a stash succeeds where everything in it can be written down, and takes its earlier image
away even if what takes the place of that cannot be read. -/
theorem loaded_of_unreadable {entries : List Stash.Entry} (listed : stash.entries now = .ok entries)
    (clean : disk.faults = []) (accessible : disk.directory ≠ .obstructed)
    (draftNamed : Directory.checkName (writer stash.name).draftFile = .ok ())
    (fileNamed : Directory.checkName (fileName stash.name) = .ok ())
    (writable : ∀ entry ∈ entries, entry.Writable)
    (unreadable : ∃ entry ∈ entries.take (imageOf stash entries).announced, ¬entry.Readable) :
    (save disk now stash).1 = .ok entries.length ∧
      ∀ later, loaded (save disk now stash).2.directory later =
        .ok (imagesElsewhere disk.directory later (fileName stash.name)) := by
  cases opened : stash.contents with
  | none =>
      rw [Stash.entries, Stash.open?, opened] at listed
      cases listed
  | some contents =>
      obtain rfl : contents.entries now = entries :=
        Except.ok.inj ((Stash.entries_of_open opened now).symm.trans listed)
      rcases exists_save opened clean accessible draftNamed fileNamed writable with ⟨next, saved⟩
      rw [saved]
      exact ⟨rfl, (replaced_of_save opened saved).unreadable unreadable⟩

end Replaced

section Stop

/-- Operations of which only the last one is about other files than the draft change nothing but the
draft, or all of them succeed. -/
theorem spares_or_performed {earlier : List FileOperation} {last : FileOperation} {draft : String}
    (disk : Disk) (within : ∀ operation ∈ earlier, operation.changes ⊆ [draft]) :
    disk.Spares [draft] (FileStore.perform disk (earlier ++ [last])).2 ∨
      ∃ next, FileStore.perform disk (earlier ++ [last]) = (.ok (), next) := by
  have spares := Disk.spares_perform disk within
  rw [FileStore.perform_append]
  rcases performed : FileStore.perform disk earlier with ⟨_ | _, middle⟩ <;>
    rw [performed] at spares
  · exact .inl spares
  · dsimp only
    rw [FileStore.perform]
    rcases applied : FileStore.apply middle last with ⟨error | _, next⟩
    · exact .inl (spares.of_error applied)
    · exact .inr ⟨next, rfl⟩

theorem changes_draftOperations {operation : FileOperation}
    (present : operation ∈ draftOperations image) :
    operation.changes ⊆ [(writer image.name).draftFile] := by
  rcases exists_draftOperations image with ⟨work, operations, fills⟩
  rw [operations] at present
  exact (List.mem_append.mp present).elim changes_opening fun worked =>
    (fills operation worked).changes

/-- As long as an operation is left to do, nothing but the draft is changed. -/
theorem spares_of_unfinished (disk : Disk) {place : Nat}
    (unfinished : place < (saveOperations now stash).length) :
    disk.Spares [(writer stash.name).draftFile]
      (FileStore.perform disk ((saveOperations now stash).take place)).2 := by
  cases held : stash.contents with
  | none =>
      rw [saveOperations_of_closed held] at unfinished
      exact absurd unfinished (Nat.not_lt_zero _)
  | some contents =>
      rcases exists_work (imageOf stash (contents.entries now)) with
        ⟨work, closing, operations, fills, one⟩
      rw [saveOperations_of_open held, operations, ← List.append_assoc] at unfinished ⊢
      rw [List.length_append] at unfinished
      rw [List.take_append_of_le_length (by omega)]
      refine Disk.spares_perform disk fun operation present => ?_
      exact (List.mem_append.mp (List.mem_of_mem_take present)).elim changes_opening fun worked =>
        (fills operation worked).changes

/-- After some operations of a save nothing but the draft is changed, unless all is done. -/
theorem spares_or_saved (disk : Disk) (now : Nat) (stash : Stash) (place : Nat) :
    disk.Spares [(writer stash.name).draftFile]
        (FileStore.perform disk ((saveOperations now stash).take place)).2 ∨
      ∃ contents, stash.contents = some contents ∧
        save disk now stash = (.ok (contents.entries now).length,
          (FileStore.perform disk ((saveOperations now stash).take place)).2) := by
  rcases Nat.lt_or_ge place (saveOperations now stash).length with unfinished | finished
  · exact .inl (spares_of_unfinished disk unfinished)
  rw [List.take_of_length_le finished]
  cases held : stash.contents with
  | none =>
      rw [saveOperations_of_closed held]
      exact .inl (.refl _ disk)
  | some contents =>
      have drafts {operation : FileOperation} := @changes_draftOperations
        (imageOf stash (contents.entries now)) operation
      rw [saveOperations_of_open held]
      rcases plan_steps_cases (imageOf stash (contents.entries now)) with
        ⟨error, _, planned⟩ | ⟨last, draft, _, _, _, planned⟩
      · rw [planned]
        exact .inl (Disk.spares_perform disk fun operation present => drafts present)
      · rw [← List.append_assoc] at planned
        rw [planned]
        refine (spares_or_performed disk ?_).imp_right ?_
        · intro operation present
          exact (List.mem_append.mp present).elim drafts Draft.changes_completion
        · rintro ⟨next, performed⟩
          refine ⟨contents, rfl, ?_⟩
          rw [performed, save_of_open held, write_of_perform planned rfl performed]

/-- When a save is over nothing but the draft is changed, unless it succeeded. -/
theorem spares_or_saved_of_save (disk : Disk) (now : Nat) (stash : Stash) :
    disk.Spares [(writer stash.name).draftFile] (save disk now stash).2 ∨
      ∃ contents, stash.contents = some contents ∧
        save disk now stash = (.ok (contents.entries now).length, (save disk now stash).2) := by
  cases held : stash.contents with
  | none =>
      rw [save_of_closed held]
      exact .inl (.refl _ disk)
  | some contents =>
      rcases saved : save disk now stash with ⟨error | count, next⟩
      · exact .inl (spares_of_save_error saved)
      · rw [(read_of_save held saved).1]
        exact .inr ⟨contents, rfl, rfl⟩

/--
Saving a stash stops anywhere, on any disk.  No file but that of the stash and its draft is changed,
and the draft does not count as a snapshot.  Either all that is loaded from now on is what was
loaded before, or the save was complete, and its whole image takes the place of the earlier one, if
that image can be read: where a key or a value is too long, nothing does.  As long as an operation
is left to do, it is the former.
-/
theorem stopped_save_all_or_nothing (stops : Stops disk now stash stopped) :
    (∀ file, file ≠ fileName stash.name → file ≠ (writer stash.name).draftFile →
      stopped.content? file = disk.content? file) ∧
    isSnapshot (writer stash.name).draftFile = false ∧
    (Untouched disk stopped stash.name ∨
      ∃ entries, stash.entries now = .ok entries ∧
        save disk now stash = (.ok entries.length, stopped) ∧
        Replaced disk stopped (imageOf stash entries)) ∧
    ∀ place, place < (saveOperations now stash).length →
      Untouched disk (FileStore.perform disk ((saveOperations now stash).take place)).2
        stash.name := by
  have outcome : disk.Spares [(writer stash.name).draftFile] stopped ∨
      ∃ contents, stash.contents = some contents ∧
        save disk now stash = (.ok (contents.entries now).length, stopped) := by
    cases stops with
    | between place => exact spares_or_saved disk now stash place
    | done => exact spares_or_saved_of_save disk now stash
  refine ⟨?_, not_isSnapshot_draftFile stash.name, ?_, fun place unfinished =>
    untouched_of_spares (spares_of_unfinished disk unfinished)⟩
  · intro file notFile notDraft
    rcases outcome with spares | ⟨_, _, saved⟩
    · exact spares.content file fun named => notDraft (List.mem_singleton.mp named)
    · have kept := @content?_save disk now stash file notDraft.symm notFile.symm
      rwa [saved] at kept
  · rcases outcome with spares | ⟨contents, opened, saved⟩
    · exact .inl (untouched_of_spares spares)
    · exact .inr ⟨contents.entries now, Stash.entries_of_open opened now, saved,
        replaced_of_save opened saved⟩

/-- A stop before the last operation, when the draft is complete, and one after it. -/
theorem stopped_save_of_two_keys :
    let earlier := (Stash.create 0 "s" { snapshots := true }).after 0 (.set [1] [1])
    let stash := earlier.after 1 (.set [2] [2])
    let disk := (save {} 0 earlier).2
    let stopped (place : Nat) : Disk :=
      (FileStore.perform disk ((saveOperations 1 stash).take place)).2
    (saveOperations 1 stash).length = 6 ∧
      (∀ place, Stops disk 1 stash (stopped place)) ∧
      (stopped 5).directory.listing = ["73.snap", "73.snap.tmp"] ∧
      Untouched disk (stopped 5) "s" ∧
      Replaced disk (stopped 6) (imageOf stash [⟨[2], [2], none⟩, ⟨[1], [1], none⟩]) := by
  have late {disk stopped : Disk} {stash : Stash} {entries : List Stash.Entry}
      (stops : Stops disk 1 stash stopped) (listed : stash.entries 1 = .ok entries)
      (changed : stopped.content? (fileName stash.name) ≠ disk.content? (fileName stash.name)) :
      Replaced disk stopped (imageOf stash entries) := by
    rcases (stopped_save_all_or_nothing stops).2.2.1 with ⟨same, _⟩ | ⟨_, again, _, whole⟩
    · exact absurd same changed
    · cases listed.symm.trans again
      exact whole
  intro earlier stash disk stopped
  have stops (place : Nat) : Stops disk 1 stash (stopped place) := .between place
  have length : (saveOperations 1 stash).length = 6 := by decide +kernel
  have named : stash.name = "s" := by decide +kernel
  refine ⟨length, stops, by decide +kernel, ?_, ?_⟩
  · rw [← named]
    exact (stopped_save_all_or_nothing (stops 5)).2.2.2 5 (by rw [length]; decide)
  · exact late (stops 6) (by decide +kernel) (by decide +kernel)

/-- The value of a key that was saved is replaced by one that can be written and is too long to be
read.  Saving the stash again succeeds, and then neither the earlier image nor the new one is
loaded. -/
theorem image_lost_to_long_value :
    let earlier := (Stash.create 0 "a" { snapshots := true }).after 0 (.set [107] [118])
    let stash := earlier.after 0 (.set [107] (List.replicate 16777217 118))
    let disk := (save {} 0 earlier).2
    let stopped := (save disk 0 stash).2
    Stops disk 0 stash stopped ∧ (save disk 0 stash).1 = .ok 1 ∧
      loaded disk.directory 0 = .ok {imageOf earlier [⟨[107], [118], none⟩]} ∧
      loaded stopped.directory 0 = .ok 0 := by
  intro earlier stash disk stopped
  let value : Bytes := List.replicate 16777217 118
  have length : value.length = 16777217 := List.length_replicate
  have short : value.length < UInt32.size := by
    rw [length]
    decide
  have long : maxFieldLength < value.length := by
    rw [length]
    decide
  have writable : ∀ entry ∈ [(⟨[107], value, none⟩ : Stash.Entry)], entry.Writable := by
    have key : [(107 : UInt8)].length < UInt32.size := by decide
    exact List.forall_mem_singleton.mpr ⟨key, short⟩
  have outcome := @loaded_of_unreadable disk 0 stash [⟨[107], value, none⟩] rfl (by decide +kernel)
    (by decide +kernel) (by decide +kernel) (by decide +kernel) writable
    ⟨_, List.mem_singleton_self _, fun readable => Nat.not_le.mpr long readable.value⟩
  refine ⟨.done, outcome.1, by decide +kernel, ?_⟩
  exact (outcome.2 0).trans (by decide +kernel)

end Stop

end Larder.Archive
