import Larder.Proofs.Snapshot.Layout

/-!
# Reading images back

An image whose parts fit into their fields is read back from its file as it was written, but for
the entries whose lifetime is over by then.
-/

namespace Larder

open Snapshot

/-- An entry that fits into its fields.  The time zero would read as no lifetime. -/
structure Stash.Entry.Fits (entry : Stash.Entry) : Prop where
  key : entry.key.length ≤ maxFieldLength
  value : entry.value.length ≤ maxFieldLength
  time : ∀ time, entry.expiresAt = some time → time ≠ 0 ∧ time ≤ Word64.largest

/-- An image that fits into its fields. -/
structure Image.Fits (image : Image) : Prop where
  name : (Bytes.ofText image.name).length ≤ maxFieldLength
  maxKeys : image.maxKeys ≤ Word64.largest
  count : image.entries.length < UInt32.size
  entries : ∀ entry ∈ image.entries, entry.Fits

namespace Image

/-- The image without the entries whose lifetime is over. -/
def liveAt (image : Image) (now : Nat) : Image :=
  { image with entries := image.entries.filter (isLive now) }

theorem lt_of_le_largest {number : Nat} (fits : number ≤ Word64.largest) : number < 256 ^ 8 :=
  Nat.lt_of_le_of_lt fits (by decide)

/-- An entry as it is written. -/
def StoredEntry.ofEntry (entry : Stash.Entry) : StoredEntry :=
  { key := entry.key
    value := entry.value
    time := .ofNat (entry.expiresAt.getD 0) }

/-- An image as it is written. -/
def layout (image : Image) : Layout :=
  { name := image.name
    maxKeys := .ofNat image.maxKeys
    flag := if image.offHeap then 1 else 0
    entries := image.entries.map StoredEntry.ofEntry
    rest := [] }

theorem StoredEntry.entry_ofEntry {entry : Stash.Entry} (fits : entry.Fits) :
    (ofEntry entry).entry = entry := by
  cases known : entry.expiresAt with
  | none =>
      have zero : (ofEntry entry).time = 0 := by simp only [ofEntry, known, Option.getD_none]; rfl
      rw [StoredEntry.entry, if_pos zero, ← known]
      rfl
  | some time =>
      rcases fits.time time known with ⟨positive, small⟩
      have same : (ofEntry entry).time.toNat = time := by
        simp only [ofEntry, known, Option.getD_some]
        exact Nat.mod_eq_of_lt (lt_of_le_largest small)
      have present : (ofEntry entry).time ≠ 0 := by
        intro zero
        rw [zero] at same
        exact positive same.symm
      rw [StoredEntry.entry, if_neg present, same, ← known]
      rfl

variable {image : Image}

theorem file_layout (image : Image) : image.layout.file = image.encode := by
  have entries : image.layout.entries.flatMap StoredEntry.encode =
      image.entries.flatMap fun entry => encodeFields (entryFields entry) :=
    List.flatMap_map _ _ _
  have body : image.layout.body = image.body := by
    rw [Layout.body, Image.body, entries]
    exact List.append_nil _
  rw [Layout.file, encode, body, layout, List.length_map]

theorem Fits.layout (fits : image.Fits) : image.layout.Fits where
  name := fits.name
  count := by
    rw [Image.layout, List.length_map]
    exact fits.count
  entries := by
    intro stored present
    rcases List.mem_map.mp present with ⟨entry, inside, rfl⟩
    exact ⟨(fits.entries entry inside).key, (fits.entries entry inside).value⟩

theorem Fits.imageAt_layout (fits : image.Fits) (now : Nat) :
    image.layout.imageAt now = image.liveAt now := by
  have maxKeys : image.layout.maxKeys.toNat = image.maxKeys :=
    Nat.mod_eq_of_lt (lt_of_le_largest fits.maxKeys)
  have flag : decide (image.layout.flag ≠ 0) = image.offHeap := by
    rw [Image.layout]
    cases image.offHeap <;> rfl
  have entries : image.layout.entries.map StoredEntry.entry = image.entries := by
    rw [Image.layout, List.map_map]
    apply (List.map_congr_left fun entry inside => ?_).trans (List.map_id _)
    exact StoredEntry.entry_ofEntry (fits.entries entry inside)
  rw [Layout.imageAt, liveAt, maxKeys, flag, entries]
  rfl

/-- What is written is what is read, but for the lifetimes that are over. -/
theorem read_encode (fits : image.Fits) (now : Nat) :
    read now image.encode = .ok (image.liveAt now) :=
  read_eq_ok_iff.mpr ⟨image.layout, fits.layout, file_layout image, fits.imageAt_layout now⟩

/-- What stands in front of the entries. -/
theorem exists_encode_eq (image : Image) : ∃ rest, image.encode =
    (Field.header.encode ++ countBytes image.entries.length) ++
      ((Field.bytes (Bytes.ofText image.name)).encode ++
        ((Field.word64 (.ofNat image.maxKeys)).encode ++
          ((Field.byte (if image.offHeap then 1 else 0)).encode ++ rest))) := by
  refine ⟨(image.entries.flatMap fun entry => encodeFields (entryFields entry)) ++
    checksumBytes image.entries.length image.body, ?_⟩
  simp [encode, body, encodeFields, settingFields]

/-- The settings of a stash of a name can be told from its file. -/
theorem settings_eq_of_encode {image other : Image} (same : image.encode = other.encode)
    (name : image.name = other.name) (fits : image.maxKeys ≤ Word64.largest)
    (fits' : other.maxKeys ≤ Word64.largest) :
    image.maxKeys = other.maxKeys ∧ image.offHeap = other.offHeap := by
  rcases exists_encode_eq image with ⟨rest, first⟩
  rcases exists_encode_eq other with ⟨more, second⟩
  rw [first, second, name] at same
  have front := List.append_inj_right same (by simp [countBytes, length_littleEndian])
  have numbers := List.append_inj (List.append_cancel_left front)
    (by simp [Field.encode, length_littleEndian])
  constructor
  · have read := readNumber_word64 (lt_of_le_largest fits) []
    rw [numbers.1, readNumber_word64 (lt_of_le_largest fits') []] at read
    exact (congrArg Prod.fst (Except.ok.inj read)).symm
  · have flags := (List.append_inj numbers.2 rfl).1
    cases here : image.offHeap <;> cases there : other.offHeap <;> rw [here, there] at flags
    all_goals cases flags

end Image

end Larder
