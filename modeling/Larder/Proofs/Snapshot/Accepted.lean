import Larder.Proofs.Snapshot.Loading
import Larder.Proofs.Text.Sizes

/-!
# Loading what was saved

The writer takes fields of any length that can be written down, and counts the entries in four
bytes; the reader refuses fields beyond a bound that is lower, and reads as many entries as the
count says.  So a file that was saved is read exactly if these entries fit, and it is looked at only
if its stash has a name.
-/

namespace Larder

open Snapshot

section Number

theorem Snapshot.littleEndian_mod (width number : Nat) :
    littleEndian width (number % 256 ^ width) = littleEndian width number := by
  induction width generalizing number with
  | zero => rfl
  | succ width ih =>
      have low : UInt8.ofNat (number % 256 ^ (width + 1)) = UInt8.ofNat number := by
        apply UInt8.toNat_inj.mp
        rw [UInt8.toNat_ofNat', UInt8.toNat_ofNat', Nat.pow_succ']
        exact Nat.mod_mul_right_mod _ _ _
      rw [littleEndian, littleEndian, low, Nat.pow_succ', Nat.mod_mul_right_div_self, ih]

/-- Byte strings whose lengths can be written down are told apart by what is written. -/
theorem Snapshot.bytes_inj {first second rest more : Bytes}
    (same : (Field.bytes first).encode ++ rest = (Field.bytes second).encode ++ more)
    (short : first.length < UInt32.size) (short' : second.length < UInt32.size) :
    first = second ∧ rest = more := by
  rw [Field.encode, Field.encode, List.append_assoc, List.append_assoc] at same
  rcases List.append_inj same (by rw [length_littleEndian, length_littleEndian]) with
    ⟨lengths, contents⟩
  have number := congrArg ofLittleEndian lengths
  rw [ofLittleEndian_littleEndian short, ofLittleEndian_littleEndian short'] at number
  exact List.append_inj contents number

end Number

/-- An entry whose lengths can be written down. -/
structure Stash.Entry.Writable (entry : Stash.Entry) : Prop where
  key : entry.key.length < UInt32.size
  value : entry.value.length < UInt32.size

/-- An entry that is short enough to be read. -/
structure Stash.Entry.Readable (entry : Stash.Entry) : Prop where
  key : entry.key.length ≤ maxFieldLength
  value : entry.value.length ≤ maxFieldLength

namespace Image

variable {image found : Image} {later : Nat}

/-- How many entries a file says that it has. -/
def announced (image : Image) : Nat :=
  image.entries.length % UInt32.size

/-- What is in the file of an image.  Entries that are not announced are a rest to the reader. -/
def stored (image : Image) : Layout :=
  { name := image.name
    maxKeys := .ofNat image.maxKeys
    flag := if image.offHeap then 1 else 0
    entries := (image.entries.take image.announced).map StoredEntry.ofEntry
    rest := (image.entries.drop image.announced).flatMap fun entry =>
      encodeFields (entryFields entry) }

theorem length_stored (image : Image) : image.stored.entries.length = image.announced := by
  rw [stored, List.length_map, List.length_take]
  exact Nat.min_eq_left (Nat.mod_le _ _)

theorem file_stored (image : Image) : image.stored.file = image.encode := by
  have body : image.stored.body = image.body := by
    have entries : image.stored.entries.flatMap StoredEntry.encode ++ image.stored.rest =
        image.entries.flatMap fun entry => encodeFields (entryFields entry) := by
      conv_rhs => rw [← List.take_append_drop image.announced image.entries, List.flatMap_append]
      exact congrArg (· ++ _) (List.flatMap_map _ _ _)
    rw [Layout.body_eq, entries]
    rfl
  have count : countBytes image.announced = countBytes image.entries.length :=
    littleEndian_mod 4 _
  rw [Layout.file, encode, length_stored, body, count, checksumBytes, checksumBytes, count]

/-- The entries that are announced are the only ones that have to fit. -/
theorem fits_stored_iff :
    image.stored.Fits ↔ (Bytes.ofText image.name).length ≤ maxFieldLength ∧
      ∀ entry ∈ image.entries.take image.announced, entry.Readable := by
  constructor
  · intro fits
    refine ⟨fits.name, fun entry present => ?_⟩
    rcases fits.entries _ (List.mem_map_of_mem present) with ⟨key, value⟩
    exact ⟨key, value⟩
  · rintro ⟨name, entries⟩
    refine ⟨name, ?_, ?_⟩
    · rw [length_stored]
      exact Nat.mod_lt _ (by decide)
    · intro one present
      rcases List.mem_map.mp present with ⟨entry, inside, rfl⟩
      exact ⟨(entries entry inside).key, (entries entry inside).value⟩

/-- Entries that are read where others were written are these. -/
theorem readable_of_flatMap {read : List StoredEntry} {entries : List Stash.Entry}
    {rest more : Bytes}
    (same : read.flatMap StoredEntry.encode ++ rest =
      (entries.flatMap fun entry => encodeFields (entryFields entry)) ++ more)
    (counted : read.length = entries.length) (fits : ∀ one ∈ read, one.Fits)
    (writable : ∀ entry ∈ entries, entry.Writable) : ∀ entry ∈ entries, entry.Readable := by
  have small {length : Nat} (fits : length ≤ maxFieldLength) : length < UInt32.size :=
    Nat.lt_of_le_of_lt fits (by decide)
  induction entries generalizing read with
  | nil => exact nofun
  | cons entry entries ih =>
      cases read with
      | nil => cases counted
      | cons one read =>
          rw [List.forall_mem_cons] at fits writable ⊢
          have written : encodeFields (entryFields entry) =
              (StoredEntry.ofEntry entry).encode := rfl
          simp only [List.flatMap_cons, List.append_assoc, written,
            StoredEntry.encode_append] at same
          rcases bytes_inj same (small fits.1.key) writable.1.key with ⟨key, same⟩
          rcases bytes_inj same (small fits.1.value) writable.1.value with ⟨value, same⟩
          have times := List.append_inj_right same (by simp [Field.encode, length_littleEndian])
          refine ⟨⟨?_, ?_⟩, ih times (Nat.succ.inj counted) fits.2 writable.2⟩
          · exact key.subst (motive := fun bytes => bytes.length ≤ maxFieldLength) fits.1.key
          · exact value.subst (motive := fun bytes => bytes.length ≤ maxFieldLength) fits.1.value

/-- A file is read only if the name and the entries that are announced fit. -/
theorem fits_stored_of_read (name : (Bytes.ofText image.name).length < UInt32.size)
    (writable : ∀ entry ∈ image.entries, entry.Writable)
    (read : Image.read later image.encode = .ok found) : image.stored.Fits := by
  rcases read_eq_ok_iff.mp read with ⟨layout, fits, same, _⟩
  rw [← file_stored, layout.file_eq, image.stored.file_eq] at same
  rcases List.append_inj (List.append_cancel_left same)
    (by rw [length_countBytes, length_countBytes]) with ⟨front, behind⟩
  have counted : layout.entries.length = image.stored.entries.length := by
    have number := congrArg ofLittleEndian front
    have bound : image.stored.entries.length < UInt32.size := by
      rw [length_stored]
      exact Nat.mod_lt _ (by decide)
    rwa [countBytes, countBytes, ofLittleEndian_littleEndian fits.count,
      ofLittleEndian_littleEndian bound] at number
  have body := (List.append_inj' behind
    (by rw [length_checksumBytes, length_checksumBytes])).1
  rw [layout.body_eq, image.stored.body_eq] at body
  simp only [encodeFields, List.flatMap_cons, List.flatMap_nil, List.append_nil,
    List.append_assoc] at body
  rcases bytes_inj body (Nat.lt_of_le_of_lt fits.name (by decide)) name with ⟨names, settings⟩
  have entries := List.append_inj_right (List.append_inj_right settings
    (by simp [Field.encode, length_littleEndian])) rfl
  refine fits_stored_iff.mpr ⟨names ▸ fits.name, ?_⟩
  refine readable_of_flatMap (entries.trans (congrArg (· ++ _) (List.flatMap_map _ _ _))) ?_
    fits.entries fun entry present => writable entry (List.mem_of_mem_take present)
  rw [counted, stored, List.length_map]

theorem read_encode_eq (fits : image.stored.Fits) (later : Nat) :
    Image.read later image.encode = .ok (image.stored.imageAt later) :=
  read_eq_ok_iff.mpr ⟨image.stored, fits, file_stored image, rfl⟩

end Image

namespace Archive

variable {disk next : Disk} {stash : Stash} {contents : Stash.Contents} {now count : Nat}

section Saved

theorem writable_of_entry {writer : Writer} {entry : Stash.Entry} {asked : Writer.Step}
    (accepted : writer.entry entry = .ok asked) : entry.Writable := by
  simp only [Writer.entry, Writer.append, Image.entryFields] at accepted
  split at accepted
  · cases accepted
  · next short =>
    simp only [List.findSome?_cons, List.findSome?_nil] at short
    constructor
    · by_contra long
      simp [if_pos (Nat.le_of_not_lt long)] at short
    · by_contra long
      split at short
      · cases short
      · simp [if_pos (Nat.le_of_not_lt long)] at short

theorem writable_of_runSteps {current final : Writer} {entries : List Stash.Entry}
    (ran : runSteps current disk (entries.map (fun entry writer => writer.entry entry) ++
      [Writer.commit]) = (.ok (), final, next)) : ∀ entry ∈ entries, entry.Writable := by
  induction entries generalizing current disk with
  | nil => exact nofun
  | cons entry entries ih =>
      rcases exists_of_runSteps_cons ran with ⟨_, _, _, accepted, _, rest⟩
      exact List.forall_mem_cons.mpr ⟨writable_of_entry accepted, ih rest⟩

/-- What is written can be written down. -/
theorem writable_of_write {image : Image} (written : write disk image = (.ok (), next)) :
    ∀ entry ∈ image.entries, entry.Writable := by
  rw [write] at written
  rcases ran : runSteps (writer image.name) disk (steps image) with ⟨result, final, last⟩
  rw [ran] at written
  cases written
  rcases exists_of_runSteps_cons ran with ⟨_, _, _, _, _, ran⟩
  rcases exists_of_runSteps_cons ran with ⟨_, _, _, _, _, ran⟩
  exact writable_of_runSteps ran

/-- A stash with a file has a short name. -/
theorem length_le_of_checkName {name : String}
    (checked : Directory.checkName (fileName name) = .ok ()) :
    2 * (Bytes.ofText name).length + 5 ≤ maxNameLength := by
  have bound := (Bytes.length_ofText_bounds (fileName name)).1
  rw [Bytes.length_ofText, length_fileName] at bound
  rw [Directory.checkName] at checked
  split at checked
  · cases checked
  · omega

section File

variable (opened : stash.contents = some contents)
  (saved : save disk now stash = (.ok count, next))

include opened saved

theorem length_name_of_save : (Bytes.ofText stash.name).length ≤ maxFieldLength := by
  have name := length_le_of_checkName (Disk.read_eq_ok_iff.mp (read_of_save opened saved).2).2
  rw [maxNameLength] at name
  rw [maxFieldLength]
  omega

theorem fits_stored_iff_of_save : (imageOf stash (contents.entries now)).stored.Fits ↔
    ∀ entry ∈ (contents.entries now).take (count % UInt32.size), entry.Readable := by
  rw [(read_of_save opened saved).1]
  exact Image.fits_stored_iff.trans (and_iff_right (length_name_of_save opened saved))

/-- What was saved is read only if it fits. -/
theorem fits_stored_of_save {later : Nat} {found : Image}
    (read : Image.read later (imageOf stash (contents.entries now)).encode = .ok found) :
    (imageOf stash (contents.entries now)).stored.Fits := by
  have short := length_name_of_save opened saved
  rw [save_of_open opened] at saved
  split at saved
  · cases saved
  · next written =>
    exact Image.fits_stored_of_read (Nat.lt_of_le_of_lt short (by decide))
      (writable_of_write written) read

end File

/--
A live stash is saved, and the save reports success.  Then all stashes can be loaded, and one of the
images is that in its file, which has its name, exactly if the name is not empty and all keys and
values are short enough to be read.  Of more entries than four bytes can count, only those matter
that are announced.
-/
theorem saved_stash_loaded_iff (opened : stash.contents = some contents)
    (saved : save disk now stash = (.ok count, next)) (later : Nat) :
    ∃ images, loadAll next.directory later = .ok images ∧
      ((∃ image ∈ images, image.name = stash.name ∧
          imageIn? next.directory later (fileName stash.name) = some image) ↔
        stash.name ≠ "" ∧
          ∀ entry ∈ (contents.entries now).take (count % UInt32.size), entry.Readable) := by
  have held := (read_of_save opened saved).2
  rcases exists_loadAll (Disk.accessible_of_read held) later with ⟨images, all, given⟩
  have inFile := imageIn?_of_read later held
  rw [← fits_stored_iff_of_save opened saved]
  refine ⟨images, all, ?_, ?_⟩
  · rintro ⟨image, _, _, known⟩
    rw [inFile] at known
    split at known
    · cases known
    next named =>
    refine ⟨named, ?_⟩
    cases read : Image.read later (imageOf stash (contents.entries now)).encode with
    | error error =>
        rw [read] at known
        cases known
    | ok found =>
        exact fits_stored_of_save opened saved read
  · rintro ⟨named, fits⟩
    rw [if_neg named, Image.read_encode_eq fits later] at inFile
    exact ⟨_, given _ _ inFile, rfl, inFile⟩

/-- A stash with a name and a short value. -/
theorem saved_stash_loaded_of_one_key :
    let stash := (Stash.create 0 "s" { snapshots := true }).after 0 (.set [1] [2])
    let next := (save {} 1 stash).2
    (∃ contents, stash.contents = some contents) ∧ save {} 1 stash = (.ok 1, next) ∧
      ∃ images, loadAll next.directory 1 = .ok images ∧ ∃ image ∈ images, image.name = "s" := by
  have loads {stash : Stash} {contents : Stash.Contents} (opened : stash.contents = some contents)
      (saved : (save {} 1 stash).1 = .ok 1) (named : stash.name = "s")
      (listed : stash.entries 1 = .ok [⟨[1], [2], none⟩]) :
      ∃ images, loadAll (save {} 1 stash).2.directory 1 = .ok images ∧
        ∃ image ∈ images, image.name = "s" := by
    have whole : save {} 1 stash = (.ok 1, (save {} 1 stash).2) := by rw [← saved]
    rcases saved_stash_loaded_iff opened whole 1 with ⟨images, all, loads⟩
    have entries : contents.entries 1 = [⟨[1], [2], none⟩] :=
      Except.ok.inj ((Stash.entries_of_open opened 1).symm.trans listed)
    have readable : ∀ entry ∈ (contents.entries 1).take (1 % UInt32.size), entry.Readable := by
      rw [entries]
      exact List.forall_mem_singleton.mpr ⟨by decide, by decide⟩
    rcases loads.mpr ⟨by rw [named]; decide, readable⟩ with ⟨image, present, name, _⟩
    exact ⟨images, all, image, present, name.trans named⟩
  intro stash next
  have saved : (save {} 1 stash).1 = .ok 1 := by decide +kernel
  have opened : stash.contents.isSome = true := by decide +kernel
  rcases Option.isSome_iff_exists.mp opened with ⟨contents, opened⟩
  refine ⟨⟨contents, opened⟩, ?_, loads opened saved (by decide +kernel) (by decide +kernel)⟩
  rw [← saved]

/-- A stash without a name is saved to a file that does not count as a snapshot. -/
theorem unnamed_stash_not_loaded :
    let stash := (Stash.create 0 "" { snapshots := true }).after 0 (.set [1] [2])
    let next := (save {} 1 stash).2
    (save {} 1 stash).1 = .ok 1 ∧ next.directory.listing = [".snap"] ∧
      loadAll next.directory 1 = .ok [] ∧
      (Image.read 1 (next.content? ".snap" |>.getD [])).map Image.name = .ok "" := by
  decide +kernel

end Saved

end Archive

end Larder
