import Larder.Proofs.Snapshot.RoundTrip
import Larder.Proofs.Stash.Dirty
import Larder.Snapshot.Pass
import Mathlib.Logic.Relation

/-!
# Passes among other calls

A pass takes the mark of a change from a stash, lists the entries and writes them to the file.
Calls may come between any two of these steps, and writing may fail.  Still the mark does not hide a
change: the file of a stash that is not marked, and with which no pass is under way, holds what the
stash lists.
-/

namespace Larder

/-- How far a pass is with a stash. -/
inductive Pass where
  | idle
  /-- The mark was taken. -/
  | taken
  | listed (entries : List Stash.Entry)
  /-- The entries could not be written, and the stash is not marked again yet. -/
  | failed

namespace Archive

variable {disk next : Disk} {name : String} {entries : List Stash.Entry}

/-- The entries in the file of a stash.  A file that is missing holds none. -/
inductive FileHolds (disk : Disk) (name : String) : List Stash.Entry → Prop where
  | missing (absent : disk.content? (fileName name) = none) : FileHolds disk name []
  | image {image : Image} (named : image.name = name) (bounded : image.maxKeys ≤ Word64.largest)
      (times : Stash.TimesFit image.entries)
      (held : disk.directory.read (fileName name) = .ok image.encode) :
      FileHolds disk name image.entries

theorem FileHolds.of_content? (holds : FileHolds disk name entries)
    (same : next.content? (fileName name) = disk.content? (fileName name)) :
    FileHolds next name entries := by
  cases holds with
  | missing absent => exact .missing (same.trans absent)
  | image named bounded times held =>
      rcases Disk.read_eq_ok_iff.mp held with ⟨content, checked⟩
      exact .image named bounded times (Disk.read_eq_ok_iff.mpr ⟨same.trans content, checked⟩)

end Archive

/-- An image whose name, keys and values can be read back, and so can their number. -/
structure Image.SizesFit (image : Image) : Prop where
  name : (Bytes.ofText image.name).length ≤ Snapshot.maxFieldLength
  keys : ∀ entry ∈ image.entries, entry.key.length ≤ Snapshot.maxFieldLength
  values : ∀ entry ∈ image.entries, entry.value.length ≤ Snapshot.maxFieldLength
  count : image.entries.length < UInt32.size

theorem Image.SizesFit.fits {image : Image} (sizes : image.SizesFit)
    (bounded : image.maxKeys ≤ Word64.largest) (times : Stash.TimesFit image.entries) :
    image.Fits := by
  refine ⟨sizes.name, bounded, sizes.count, ?_⟩
  intro entry present
  exact ⟨sizes.keys entry present, sizes.values entry present, times entry present⟩

/-- Entries that are those listed from a time on, but for lifetimes that are over. -/
def Stash.Contents.Mirrored (contents : Stash.Contents) (now : Nat)
    (entries : List Stash.Entry) : Prop :=
  ∀ time, now ≤ time → (entries.filter (Stash.Entry.isLive time)).Perm (contents.entries time)

namespace Stash.Contents

variable {contents next : Contents} {now later : Nat} {entries : List Entry}

theorem Mirrored.mono (mirrored : contents.Mirrored now entries) (ordered : now ≤ later) :
    contents.Mirrored later entries :=
  fun time after => mirrored time (Nat.le_trans ordered after)

theorem Mirrored.listsLike (mirrored : contents.Mirrored now entries)
    (same : contents.ListsLike next) : next.Mirrored now entries :=
  fun time after => (mirrored time after).trans (same time).symm

theorem Coherent.mirrored_of_perm (coherent : contents.Coherent)
    (order : entries.Perm (contents.entries now)) : contents.Mirrored now entries :=
  fun time after => (order.filter (Entry.isLive time)).trans (coherent.perm_entries_later after)

/-- Entries whose lifetimes are over are as good as none. -/
theorem mirrored_empty (expired : ∀ entry ∈ entries, entry.isLive now = false) :
    (empty now).Mirrored now entries := by
  intro time after
  have none_left : entries.filter (Entry.isLive time) = [] := by
    rw [List.filter_eq_nil_iff]
    intro entry present live
    have := Entry.isLive_of_le after live
    rw [expired entry present] at this
    cases this
  rw [none_left]
  exact .refl []

end Stash.Contents

/-- A stash, the disk that it is saved to, and how far the pass is, at a reading of the clock. -/
structure Saving where
  now : Nat
  stash : Stash
  disk : Disk
  pass : Pass := .idle

namespace Saving

open Archive

def created (now : Nat) (name : String) (options : Stash.Options) (disk : Disk) : Saving :=
  { now, stash := Stash.create now name options, disk }

/--
What can happen next, as long as the stash is not dropped.  Passes follow one another, so there is
at most one.  What is done about other stashes leaves the file as it is.
-/
inductive Step : Saving → Saving → Prop where
  | call {saving : Saving} {later : Nat} {call : Stash.Call} (ordered : saving.now ≤ later)
      (ordinary : call.Ordinary) :
      Step saving { saving with now := later, stash := saving.stash.after later call }
  | elsewhere {saving : Saving} {disk : Disk}
      (same : disk.content? (fileName saving.stash.name) =
        saving.disk.content? (fileName saving.stash.name)) :
      Step saving { saving with disk }
  | take {saving : Saving} (idle : saving.pass = .idle) :
      Step saving { saving with
        stash := saving.stash.takeDirty.2
        pass := if saving.stash.takeDirty.1 then .taken else .idle }
  | list {saving : Saving} {later : Nat} {all entries : List Stash.Entry}
      (ordered : saving.now ≤ later) (taken : saving.pass = .taken)
      (answered : saving.stash.entries later = .ok all) (order : entries.Perm all) :
      Step saving { saving with now := later, pass := .listed entries }
  | commit {saving : Saving} {entries : List Stash.Entry} {disk : Disk}
      (listed : saving.pass = .listed entries)
      (written : write saving.disk (imageOf saving.stash entries) = (.ok (), disk)) :
      Step saving { saving with disk, pass := .idle }
  | fail {saving : Saving} {entries : List Stash.Entry} {error : Snapshot.Error} {disk : Disk}
      (listed : saving.pass = .listed entries)
      (failed : write saving.disk (imageOf saving.stash entries) = (.error error, disk)) :
      Step saving { saving with disk, pass := .failed }
  | mark {saving : Saving} (failed : saving.pass = .failed) :
      Step saving { saving with stash := saving.stash.markDirty, pass := .idle }

/-- The entries that are in the file when the pass is done, unless the stash is marked then or they
are yet to be listed. -/
def target (saved : List Stash.Entry) : Pass → Option (List Stash.Entry)
  | .idle => some saved
  | .listed entries => some entries
  | .taken | .failed => none

/-- The stash is in use, and what will be in its file is what it lists, unless it is marked. -/
structure Faithful (name : String) (saving : Saving) (contents : Stash.Contents)
    (saved : List Stash.Entry) : Prop where
  named : saving.stash.name = name
  saves : saving.stash.options.snapshots = true
  healthy : saving.stash.Healthy contents
  held : FileHolds saving.disk name saved
  times : ∀ entries, saving.pass = .listed entries → Stash.TimesFit entries
  mirrored : ∀ entries, target saved saving.pass = some entries → saving.stash.dirty = false →
    contents.Mirrored saving.now entries

section Faithful

variable {name : String} {saving next : Saving} {contents : Stash.Contents}
  {saved : List Stash.Entry}

theorem faithful_created (now : Nat) {options : Stash.Options} {disk : Disk}
    (saves : options.snapshots = true) (bounded : options.maxKeys ≤ Word64.largest)
    (held : FileHolds disk name saved) (expired : ∀ entry ∈ saved, entry.isLive now = false) :
    (created now name options disk).Faithful name (.empty now) saved where
  named := rfl
  saves := saves
  healthy := .create now name bounded
  held := held
  times := nofun
  mirrored entries known _ := by
    cases known
    exact Stash.Contents.mirrored_empty expired

/-- A call that does not mark the stash leaves what is listed. -/
theorem Faithful.call (faithful : saving.Faithful name contents saved) {later : Nat}
    (ordered : saving.now ≤ later) {call : Stash.Call} (ordinary : call.Ordinary) :
    ∃ contents, Faithful name { saving with
      now := later, stash := saving.stash.after later call } contents saved := by
  have healthy := faithful.healthy
  rcases Stash.exists_change healthy.opened healthy.coherent healthy.size_le later
    ordinary.notClose with ⟨next, marks, change, became⟩
  refine ⟨next, became.name.trans faithful.named, ?_, healthy.change change became ordinary.usual,
    faithful.held, faithful.times, ?_⟩
  · rw [became.options]
    exact faithful.saves
  · intro entries known unmarked
    rcases became.marked_or_listsLike change healthy.coherent faithful.saves ordinary with
      marked | ⟨dirty, same⟩
    · rw [marked] at unmarked
      cases unmarked
    · rw [dirty] at unmarked
      exact ((faithful.mirrored entries known unmarked).mono ordered).listsLike same

theorem Faithful.take (faithful : saving.Faithful name contents saved)
    (idle : saving.pass = .idle) :
    Faithful name { saving with
      stash := saving.stash.takeDirty.2
      pass := if saving.stash.takeDirty.1 then .taken else .idle } contents saved := by
  refine { faithful with healthy := { faithful.healthy with }, times := ?_, mirrored := ?_ }
  · intro entries listed
    split at listed <;> cases listed
  · intro entries known _
    cases marked : saving.stash.dirty with
    | true =>
        -- The mark is in the hands of the pass, which has nothing to show yet.
        simp [Stash.takeDirty, marked, target] at known
    | false =>
        apply faithful.mirrored entries ?_ marked
        simpa [Stash.takeDirty, marked, idle] using known

theorem Faithful.list (faithful : saving.Faithful name contents saved) {later : Nat}
    {all entries : List Stash.Entry} (answered : saving.stash.entries later = .ok all)
    (order : entries.Perm all) :
    Faithful name { saving with now := later, pass := .listed entries } contents saved := by
  have healthy := faithful.healthy
  cases (Stash.entries_of_open healthy.opened later).symm.trans answered
  refine { faithful with times := ?_, mirrored := ?_ }
  · intro listed known entry present
    cases known
    exact healthy.timesFit_entries later entry (order.mem_iff.mp present)
  · intro listed known _
    cases known
    exact healthy.coherent.mirrored_of_perm order

theorem Faithful.commit (faithful : saving.Faithful name contents saved)
    {entries : List Stash.Entry} {disk : Disk} (listed : saving.pass = .listed entries)
    (written : write saving.disk (imageOf saving.stash entries) = (.ok (), disk)) :
    Faithful name { saving with disk, pass := .idle } contents entries := by
  have read := read_of_write written
  have named : (imageOf saving.stash entries).name = name := faithful.named
  rw [named] at read
  have held : FileHolds disk name entries :=
    .image named faithful.healthy.bounded (faithful.times entries listed) read
  refine { faithful with held, times := nofun, mirrored := ?_ }
  intro again known
  cases known
  exact faithful.mirrored entries (by rw [listed, target])

theorem Faithful.fail (faithful : saving.Faithful name contents saved)
    {entries : List Stash.Entry} {error : Snapshot.Error} {disk : Disk}
    (failed : write saving.disk (imageOf saving.stash entries) = (.error error, disk)) :
    Faithful name { saving with disk, pass := .failed } contents saved := by
  have same := content?_of_write_error failed
  have named : (imageOf saving.stash entries).name = name := faithful.named
  rw [named] at same
  exact { faithful with
    held := faithful.held.of_content? same
    times := nofun
    mirrored := nofun }

/-- The mark is set again, so there is nothing to show. -/
theorem Faithful.mark (faithful : saving.Faithful name contents saved) :
    Faithful name { saving with stash := saving.stash.markDirty, pass := .idle }
      contents saved := by
  refine { faithful with healthy := { faithful.healthy with }, times := nofun, mirrored := ?_ }
  intro entries _ unmarked
  cases (Stash.dirty_markDirty faithful.saves).symm.trans unmarked

theorem Step.faithful (step : Step saving next) (faithful : saving.Faithful name contents saved) :
    ∃ contents saved, next.Faithful name contents saved := by
  cases step with
  | call ordered ordinary =>
      rcases faithful.call ordered ordinary with ⟨contents, faithful⟩
      exact ⟨contents, saved, faithful⟩
  | elsewhere same =>
      rw [faithful.named] at same
      exact ⟨contents, saved, { faithful with held := faithful.held.of_content? same }⟩
  | take idle => exact ⟨contents, saved, faithful.take idle⟩
  | list _ _ answered order => exact ⟨contents, saved, faithful.list answered order⟩
  | commit listed written => exact ⟨contents, _, faithful.commit listed written⟩
  | fail _ failed => exact ⟨contents, saved, faithful.fail failed⟩
  | mark _ => exact ⟨contents, saved, faithful.mark⟩

theorem exists_faithful (run : Relation.ReflTransGen Step saving next)
    (faithful : saving.Faithful name contents saved) :
    ∃ contents saved, next.Faithful name contents saved := by
  induction run with
  | refl => exact ⟨contents, saved, faithful⟩
  | tail _ step ih =>
      rcases ih with ⟨contents, saved, faithful⟩
      exact step.faithful faithful

end Faithful

section Unmarked

/--
A stash that is saved to disk is created when there is no file for it, or one in which all lifetimes
are over.  Then there are calls, before, between and after the steps of passes, and passes that
fail.  Whenever the stash is not marked and no pass is under way, the file has the entries that the
stash lists, and no others whose lifetime is not over.  If they can be read back, they are what is
loaded from the file.
-/
theorem file_current_of_unmarked (now : Nat) (name : String) (options : Stash.Options) (disk : Disk)
    (leftover : List Stash.Entry) (saves : options.snapshots = true)
    (bounded : options.maxKeys ≤ Word64.largest)
    (held : FileHolds disk name leftover) (expired : ∀ entry ∈ leftover, entry.isLive now = false)
    (last : Saving) (run : Relation.ReflTransGen Step (created now name options disk) last)
    (idle : last.pass = .idle) (unmarked : last.stash.dirty = false) (time : Nat)
    (ordered : last.now ≤ time) :
    ∃ listed, last.stash.entries time = .ok listed ∧
      (last.disk.content? (fileName name) = none ∧ listed = [] ∨
        ∃ image : Image, last.disk.directory.read (fileName name) = .ok image.encode ∧
          (image.liveAt time).entries.Perm listed ∧
          (image.SizesFit →
            load last.disk.directory time (fileName name) = .ok (image.liveAt time))) := by
  rcases exists_faithful run (faithful_created now saves bounded held expired) with
    ⟨contents, saved, faithful⟩
  refine ⟨contents.entries time, Stash.entries_of_open faithful.healthy.opened time, ?_⟩
  have mirrored := faithful.mirrored saved (by rw [idle, target]) unmarked time ordered
  cases faithful.held with
  | missing absent => exact .inl ⟨absent, mirrored.symm.eq_nil⟩
  | @image image _ bounded times held =>
      refine .inr ⟨image, held, mirrored, ?_⟩
      exact fun sizes => load_of_read (sizes.fits bounded times) held time

/-- A stash that is marked, saved and not marked again. -/
theorem file_current_of_one_key :
    let options : Stash.Options := { maxKeys := 2, snapshots := true }
    let marked := (Stash.create 0 "s" options).after 1 (.setWithTtl [1] [2] 10)
    let entries : List Stash.Entry := [⟨[1], [2], some 11⟩]
    let taken := marked.takeDirty.2
    let disk := (write {} (imageOf taken entries)).2
    let last : Saving := { now := 2, stash := taken, disk }
    FileHolds {} "s" [] ∧ Relation.ReflTransGen Step (created 0 "s" options {}) last ∧
      last.stash.dirty = false ∧ last.stash.entries 10 = .ok entries ∧
      ∃ image : Image, last.disk.directory.read (fileName "s") = .ok image.encode ∧
        (image.liveAt 10).entries.Perm entries := by
  intro options marked entries taken disk last
  have absent : FileHolds {} "s" [] := .missing rfl
  have ordinary : (Stash.Call.setWithTtl [1] [2] 10).Ordinary := ⟨nofun, nofun, fun _ => nofun⟩
  have calls : Step (created 0 "s" options {}) { now := 1, stash := marked, disk := {} } :=
    .call (by decide) ordinary
  have takes : Step { now := 1, stash := marked, disk := {} }
      { now := 1, stash := taken, disk := {}, pass := .taken } := .take rfl
  have lists : Step { now := 1, stash := taken, disk := {}, pass := .taken }
      { now := 2, stash := taken, disk := {}, pass := .listed entries } :=
    .list (by decide) rfl (by decide +kernel) (.refl entries)
  have ok : (write {} (imageOf taken entries)).1 = .ok () := by decide +kernel
  have written : write {} (imageOf taken entries) = (.ok (), disk) := by rw [← ok]
  have run := (((Relation.ReflTransGen.single calls).tail takes).tail lists).tail
    (.commit rfl written)
  have answered : last.stash.entries 10 = .ok entries := by decide +kernel
  refine ⟨absent, run, rfl, answered, ?_⟩
  rcases file_current_of_unmarked 0 "s" options {} [] rfl (by decide) absent nofun last run rfl
    rfl 10 (by decide) with ⟨all, again, missing | ⟨image, held, same, _⟩⟩
  · have none_listed := Except.ok.inj (answered.symm.trans (again.trans (congrArg _ missing.2)))
    exact absurd none_listed (List.cons_ne_nil _ _)
  · cases answered.symm.trans again
    exact ⟨image, held, same⟩

/--
There was no room to restore what is left over.  By the time there is, a stash of that name is a new
one, which is not marked and lists nothing, and a pass leaves the file.
-/
theorem file_left_over :
    let options : Stash.Options := { snapshots := true }
    let image (name : String) : Image :=
      { name, maxKeys := 4, offHeap := false, entries := [⟨[1], [2], none⟩] }
    let disk := (write (write {} (image "a")).2 (image "b")).2
    let restored := (Registry.start 5 2 {} true).restore 5 [image "a", image "b"]
    let dropped := (restored.2.drop "a").2
    let deleted := dropped.runDeletions disk
    let ready := (deleted.1.create 5 "b" options).2
    let last := created 5 "b" options deleted.2
    ((loadAll disk.directory 5).map (List.map Image.name) = .ok ["a", "b"] ∧ restored.1 = 1 ∧
      dropped.deletions = ["a"] ∧ deleted.1.deletions = [] ∧ deleted.1.find? "b" = none ∧
      ready.find? "b" = some last.stash ∧ ready.saveDirty last.disk 5 = (0, ready, last.disk)) ∧
    Relation.ReflTransGen Step last last ∧ last.pass = .idle ∧ last.stash.dirty = false ∧
      last.stash.entries 5 = .ok [] ∧
      load last.disk.directory 5 (fileName "b") = .ok (image "b") := by
  intro options image disk restored dropped deleted ready last
  exact ⟨by decide +kernel, .refl, rfl, rfl, rfl, by decide +kernel⟩

end Unmarked

end Saving

namespace Registry

open Archive Relation

variable {registry : Registry} {handle other : Handle} {stash : Stash}
  {contents : Stash.Contents} {disk : Disk} {now : Nat}

theorem stash?_put_self (found : registry.stash? handle = some stash) (last : Stash) :
    (registry.put handle last).stash? handle = some last :=
  List.getElem?_set_self (List.getElem?_eq_some_iff.mp found).1

theorem stash?_put_ne (different : other ≠ handle) (last : Stash) :
    (registry.put other last).stash? handle = registry.stash? handle :=
  List.getElem?_set_ne different

/-- Saving one stash leaves the others. -/
theorem stash?_saveAt (different : other ≠ handle) (disk : Disk) (now : Nat) :
    (registry.saveAt disk now other).2.1.stash? handle = registry.stash? handle := by
  rw [saveAt]
  split
  · rfl
  · dsimp only
    split
    · split <;> exact stash?_put_ne different _
    · rfl

end Registry

end Larder
