import Larder.Proofs.Snapshot.Reading
import Larder.Snapshot.Image

/-!
# Layouts of files

A file is read as an image exactly if it is the file of a layout: the header, the number of
entries, the settings, the entries and whatever follows them, and the checksum of all that stands
between it and the header.  The image is then what the layout says, without the entries whose
lifetime is over.

Before the entries are read their number is compared with the bytes that are left.  Entries that
can be read pass this check, so that it refuses nothing that would otherwise be accepted.
-/

namespace Larder

open Snapshot

namespace Image

/-- An entry as it stands in a file, where the time zero is no lifetime. -/
structure StoredEntry where
  key : Bytes
  value : Bytes
  time : UInt64
  deriving Repr, DecidableEq

namespace StoredEntry

def encode (stored : StoredEntry) : Bytes :=
  encodeFields [.bytes stored.key, .bytes stored.value, .word64 stored.time]

/-- The entry that is read. -/
def entry (stored : StoredEntry) : Stash.Entry :=
  { key := stored.key
    value := stored.value
    expiresAt := if stored.time = 0 then none else some stored.time.toNat }

structure Fits (stored : StoredEntry) : Prop where
  key : stored.key.length ≤ maxFieldLength
  value : stored.value.length ≤ maxFieldLength

end StoredEntry

/-- What is in a file. -/
structure Layout where
  name : String
  maxKeys : UInt64
  /-- Zero for stashes on the heap. -/
  flag : UInt8
  entries : List StoredEntry
  /-- What follows the last entry. -/
  rest : Bytes
  deriving Repr, DecidableEq

namespace Layout

def body (layout : Layout) : Bytes :=
  encodeFields [.bytes (Bytes.ofText layout.name), .word64 layout.maxKeys, .byte layout.flag] ++
    layout.entries.flatMap StoredEntry.encode ++ layout.rest

/-- The header, the number of entries, the body and the checksum of the last two. -/
def file (layout : Layout) : Bytes :=
  Field.header.encode ++ countBytes layout.entries.length ++ layout.body ++
    checksumBytes layout.entries.length layout.body

structure Fits (layout : Layout) : Prop where
  name : (Bytes.ofText layout.name).length ≤ maxFieldLength
  count : layout.entries.length < UInt32.size
  entries : ∀ stored ∈ layout.entries, stored.Fits

/-- The image that is read at a time. -/
def imageAt (layout : Layout) (now : Nat) : Image :=
  { name := layout.name
    maxKeys := layout.maxKeys.toNat
    offHeap := layout.flag ≠ 0
    entries := (layout.entries.map StoredEntry.entry).filter (isLive now) }

end Layout

section Entries

variable {now count : Nat} {source rest : Bytes} {entry : Stash.Entry}
  {earlier entries : List Stash.Entry}

theorem StoredEntry.encode_append (stored : StoredEntry) (rest : Bytes) :
    stored.encode ++ rest = (Field.bytes stored.key).encode ++
      ((Field.bytes stored.value).encode ++ ((Field.word64 stored.time).encode ++ rest)) := by
  simp only [encode, encodeFields, List.flatMap_cons, List.flatMap_nil, List.append_nil,
    List.append_assoc]

theorem readEntry_eq_ok_iff : readEntry source = .ok (entry, rest) ↔
    ∃ stored : StoredEntry, stored.Fits ∧ source = stored.encode ++ rest ∧
      stored.entry = entry := by
  constructor
  · intro read
    rcases bind_eq_ok_iff.mp read with ⟨⟨key, afterKey⟩, readKey, behindKey⟩
    rcases bind_eq_ok_iff.mp behindKey with ⟨⟨value, afterValue⟩, readValue, behindValue⟩
    rcases bind_eq_ok_iff.mp behindValue with ⟨⟨time, rest⟩, readTime, done⟩
    rcases readBytes_eq_ok_iff.mp readKey with ⟨keyFits, rfl⟩
    rcases readBytes_eq_ok_iff.mp readValue with ⟨valueFits, rfl⟩
    rcases readNumber_word64_eq_ok_iff.mp readTime with ⟨word, rfl, rfl⟩
    cases done
    refine ⟨⟨key, value, word⟩, ⟨keyFits, valueFits⟩, ?_, ?_⟩
    · exact (StoredEntry.encode_append ⟨key, value, word⟩ rest).symm
    · simp only [StoredEntry.entry, ← UInt64.toNat_inj, UInt64.toNat_zero]
  · rintro ⟨stored, fits, rfl, rfl⟩
    rw [StoredEntry.encode_append, readEntry]
    refine bind_eq_ok_iff.mpr ⟨_, readBytes_append fits.key _, ?_⟩
    refine bind_eq_ok_iff.mpr ⟨_, readBytes_append fits.value _, ?_⟩
    refine bind_eq_ok_iff.mpr ⟨_, readNumber_word64_eq_ok_iff.mpr ⟨stored.time, rfl, rfl⟩, ?_⟩
    simp only [StoredEntry.entry, ← UInt64.toNat_inj, UInt64.toNat_zero]
    rfl

/-- What is in front of the other entries once one is read. -/
theorem reverse_append_filter (now : Nat) (earlier : List Stash.Entry) (entry : Stash.Entry)
    (others : List Stash.Entry) :
    (if isLive now entry then entry :: earlier else earlier).reverse ++ others.filter (isLive now) =
      earlier.reverse ++ (entry :: others).filter (isLive now) := by
  by_cases live : isLive now entry = true <;> simp [live]

theorem readEntries_eq_ok_iff : readEntries now earlier count source = .ok entries ↔
    ∃ (stored : List StoredEntry) (rest : Bytes), stored.length = count ∧
      (∀ one ∈ stored, one.Fits) ∧ source = stored.flatMap StoredEntry.encode ++ rest ∧
      entries = earlier.reverse ++ (stored.map StoredEntry.entry).filter (isLive now) := by
  induction count generalizing earlier source with
  | zero =>
      constructor
      · intro read
        cases read
        exact ⟨[], source, rfl, by simp, rfl, by simp⟩
      · rintro ⟨stored, rest, none, fits, rfl, rfl⟩
        rw [List.length_eq_zero_iff.mp none]
        simp [readEntries]
  | succ count ih =>
      rw [readEntries, bind_eq_ok_iff]
      constructor
      · rintro ⟨⟨entry, after⟩, first, read⟩
        rcases readEntry_eq_ok_iff.mp first with ⟨one, fits, rfl, rfl⟩
        rcases ih.mp read with ⟨stored, rest, rfl, others, rfl, rfl⟩
        refine ⟨one :: stored, rest, rfl, List.forall_mem_cons.mpr ⟨fits, others⟩, ?_, ?_⟩
        · rw [List.flatMap_cons, List.append_assoc]
        · exact reverse_append_filter now earlier one.entry _
      · rintro ⟨stored, rest, counted, fits, rfl, rfl⟩
        cases stored with
        | nil => cases counted
        | cons one stored =>
            rw [List.forall_mem_cons] at fits
            rw [List.flatMap_cons, List.append_assoc]
            refine ⟨_, readEntry_eq_ok_iff.mpr ⟨one, fits.1, rfl, rfl⟩, ih.mpr ?_⟩
            refine ⟨stored, rest, Nat.succ.inj counted, fits.2, rfl, ?_⟩
            exact (reverse_append_filter now earlier one.entry _).symm

theorem StoredEntry.minEntryLength_le (stored : StoredEntry) :
    minEntryLength ≤ stored.encode.length := by
  simp only [encode, encodeFields, List.flatMap_cons, List.flatMap_nil, List.append_nil,
    Field.encode, List.length_append, length_littleEndian, minEntryLength]
  omega

theorem StoredEntry.le_length (stored : List StoredEntry) :
    stored.length * minEntryLength ≤ (stored.flatMap encode).length := by
  induction stored with
  | nil => exact Nat.zero_le _
  | cons one stored ih =>
      have := one.minEntryLength_le
      rw [List.flatMap_cons, List.length_append, List.length_cons, Nat.succ_mul]
      omega

/-- Entries that can be read have room in the bytes that are left. -/
theorem le_div_of_readEntries (read : readEntries now earlier count source = .ok entries) :
    count ≤ source.length / minEntryLength := by
  rcases readEntries_eq_ok_iff.mp read with ⟨stored, rest, rfl, _, rfl, _⟩
  have := StoredEntry.le_length stored
  rw [Nat.le_div_iff_mul_le (by decide), List.length_append]
  omega

end Entries

section Body

/-- A number of entries from the front, if there is room for as many. -/
def readEntriesWithin (now count : Nat) (bytes : Bytes) : Except Error (List Stash.Entry) :=
  if bytes.length / minEntryLength < count then .error (.countTooLarge count bytes.length)
  else readEntries now [] count bytes

/-- The image in a body, by a reader of its entries. -/
def readBodyWith (entriesOf : Nat → Bytes → Except Error (List Stash.Entry)) (count : Nat)
    (body : Bytes) : Except Error Image := do
  let (nameBytes, rest) ← readBytes body
  let name ← match nameBytes.toText? with
    | some name => .ok name
    | none => .error .nameNotText
  let (maxKeys, rest) ← readNumber 8 rest
  let (flag, rest) ← readNumber 1 rest
  let entries ← entriesOf count rest
  return { name, maxKeys, offHeap := flag ≠ 0, entries }

theorem readBody_eq (now count : Nat) (body : Bytes) :
    readBody now count body = readBodyWith (readEntriesWithin now) count body := by
  refine bind_congr fun ⟨nameBytes, rest⟩ => ?_
  cases named : nameBytes.toText? with
  | none => simp only [named, bind, Except.bind]
  | some name =>
      simp only [named]
      refine bind_congr fun name => bind_congr fun ⟨maxKeys, rest⟩ => ?_
      refine bind_congr fun ⟨flag, rest⟩ => ?_
      simp only [readEntriesWithin]
      split <;> rfl

theorem readEntriesWithin_eq_ok_iff {now count : Nat} {bytes : Bytes} {entries : List Stash.Entry} :
    readEntriesWithin now count bytes = .ok entries ↔
      readEntries now [] count bytes = .ok entries := by
  unfold readEntriesWithin
  split
  · next short =>
    constructor
    · intro read
      cases read
    · intro read
      exact absurd (le_div_of_readEntries read) (Nat.not_le.mpr short)
  · exact Iff.rfl

variable {entriesOf : Nat → Bytes → Except Error (List Stash.Entry)} {count : Nat} {body : Bytes}
  {image : Image}

theorem readBodyWith_eq_ok_iff : readBodyWith entriesOf count body = .ok image ↔
    ∃ (name : String) (maxKeys : UInt64) (flag : UInt8) (after : Bytes)
      (entries : List Stash.Entry),
      (Bytes.ofText name).length ≤ maxFieldLength ∧
      body = encodeFields [.bytes (Bytes.ofText name), .word64 maxKeys, .byte flag] ++ after ∧
      entriesOf count after = .ok entries ∧
      image = { name, maxKeys := maxKeys.toNat, offHeap := flag ≠ 0, entries } := by
  simp only [encodeFields, List.flatMap_cons, List.flatMap_nil, List.append_nil, List.append_assoc]
  constructor
  · intro read
    rcases bind_eq_ok_iff.mp read with ⟨⟨nameBytes, afterName⟩, readName, behindName⟩
    rcases readBytes_eq_ok_iff.mp readName with ⟨nameFits, rfl⟩
    cases named : nameBytes.toText? with
    | none =>
        simp only [named] at behindName
        cases behindName
    | some name =>
        simp only [named] at behindName
        rcases bind_eq_ok_iff.mp behindName with ⟨name, same, behindText⟩
        rcases bind_eq_ok_iff.mp behindText with ⟨⟨maxKeys, afterKeys⟩, readKeys, behindKeys⟩
        rcases bind_eq_ok_iff.mp behindKeys with ⟨⟨flag, after⟩, readFlag, behindFlag⟩
        rcases bind_eq_ok_iff.mp behindFlag with ⟨entries, found, done⟩
        rcases readNumber_word64_eq_ok_iff.mp readKeys with ⟨word, rfl, rfl⟩
        rcases readNumber_byte_eq_ok_iff.mp readFlag with ⟨byte, rfl, rfl⟩
        cases same
        cases done
        rw [Bytes.toText?_eq_some_iff] at named
        subst named
        refine ⟨name, word, byte, after, entries, nameFits, rfl, found, ?_⟩
        simp only [ne_eq, ← UInt8.toNat_inj, UInt8.toNat_zero]
  · rintro ⟨name, maxKeys, flag, after, entries, nameFits, rfl, found, rfl⟩
    refine bind_eq_ok_iff.mpr ⟨_, readBytes_append nameFits _, ?_⟩
    simp only [Bytes.toText?_ofText]
    refine bind_eq_ok_iff.mpr ⟨name, rfl, ?_⟩
    refine bind_eq_ok_iff.mpr ⟨_, readNumber_word64_eq_ok_iff.mpr ⟨maxKeys, rfl, rfl⟩, ?_⟩
    refine bind_eq_ok_iff.mpr ⟨_, readNumber_byte_eq_ok_iff.mpr ⟨flag, rfl, rfl⟩, ?_⟩
    refine bind_eq_ok_iff.mpr ⟨entries, found, ?_⟩
    simp only [ne_eq, ← UInt8.toNat_inj, UInt8.toNat_zero]
    rfl

end Body

section File

variable {entriesOf : Nat → Bytes → Except Error (List Stash.Entry)} {file : Bytes} {image : Image}

/-- The image in a file, by a reader of its entries. -/
def readWith (entriesOf : Nat → Bytes → Except Error (List Stash.Entry)) (file : Bytes) :
    Except Error Image := do
  let rest ← readHeader file
  let (count, rest) ← readNumber 4 rest
  if rest.length < checksumLength then .error .unexpectedEnd
  else
    let body := rest.take (rest.length - checksumLength)
    let expected := UInt32.ofNat (ofLittleEndian (rest.drop (rest.length - checksumLength)))
    let actual := Checksum.ofBytes (countBytes count ++ body)
    if expected ≠ actual then .error (.checksumMismatch expected actual)
    else readBodyWith entriesOf count body

theorem read_eq (now : Nat) (file : Bytes) :
    read now file = readWith (readEntriesWithin now) file := by
  unfold read readWith
  simp only [readBody_eq]

/-- How a file is read whose parts have the lengths that they should have. -/
theorem readWith_parts {front body foot : Bytes} (short : front.length = 4)
    (last : foot.length = checksumLength) :
    readWith entriesOf (Field.header.encode ++ (front ++ (body ++ foot))) =
      if UInt32.ofNat (ofLittleEndian foot) ≠ Checksum.ofBytes (front ++ body) then
        .error (.checksumMismatch (.ofNat (ofLittleEndian foot)) (Checksum.ofBytes (front ++ body)))
      else readBodyWith entriesOf (ofLittleEndian front) body := by
  have counted : readNumber 4 (front ++ (body ++ foot)) =
      .ok (ofLittleEndian front, body ++ foot) := by
    rw [readNumber_eq_ok_iff, ← short, littleEndian_ofLittleEndian]
    exact ⟨ofLittleEndian_lt front, rfl⟩
  have same : countBytes (ofLittleEndian front) = front := by
    rw [countBytes, ← short, littleEndian_ofLittleEndian]
  have enough : ¬(body ++ foot).length < checksumLength := by
    rw [List.length_append, last]
    omega
  have whole : (body ++ foot).length - checksumLength = body.length := by
    rw [List.length_append, last, Nat.add_sub_cancel]
  simp only [readWith, readHeader_append, counted, bind, Except.bind, if_neg enough, whole,
    List.take_left, List.drop_left, same]

theorem length_countBytes (count : Nat) : (countBytes count).length = 4 :=
  length_littleEndian _ _

theorem length_checksumBytes (count : Nat) (body : Bytes) :
    (checksumBytes count body).length = checksumLength :=
  length_littleEndian _ _

/-- The bytes of a checksum are those that stand for it. -/
theorem checksumBytes_eq_iff {foot : Bytes} {count : Nat} {body : Bytes}
    (last : foot.length = checksumLength) :
    UInt32.ofNat (ofLittleEndian foot) = Checksum.ofBytes (countBytes count ++ body) ↔
      foot = checksumBytes count body := by
  have fits : ofLittleEndian foot < UInt32.size := by
    have := ofLittleEndian_lt foot
    rwa [last] at this
  constructor
  · intro agree
    rw [checksumBytes, ← agree, UInt32.toNat_ofNat_of_lt' fits, ← last, littleEndian_ofLittleEndian]
  · rintro rfl
    rw [checksumBytes, ofLittleEndian_littleEndian (UInt32.toNat_lt _), UInt32.ofNat_toNat]

theorem readWith_eq_ok_iff : readWith entriesOf file = .ok image ↔
    ∃ (count : Nat) (body : Bytes), count < UInt32.size ∧
      file = Field.header.encode ++ (countBytes count ++ (body ++ checksumBytes count body)) ∧
      readBodyWith entriesOf count body = .ok image := by
  constructor
  · intro read
    rcases bind_eq_ok_iff.mp read with ⟨rest, header, behindHeader⟩
    rcases bind_eq_ok_iff.mp behindHeader with ⟨⟨count, after⟩, counted, behindCount⟩
    rcases readHeader_eq_ok_iff.mp header with rfl
    rcases readNumber_eq_ok_iff.mp counted with ⟨fits, rfl⟩
    have number : ofLittleEndian (countBytes count) = count := ofLittleEndian_littleEndian fits
    by_cases short : after.length < checksumLength
    · simp only [if_pos short] at behindCount
      cases behindCount
    · have last : (after.drop (after.length - checksumLength)).length = checksumLength := by
        rw [List.length_drop]
        omega
      rw [← List.take_append_drop (after.length - checksumLength) after] at read ⊢
      rw [← countBytes, readWith_parts (length_countBytes count) last, number] at read
      split at read
      · cases read
      · next agree =>
        rw [Decidable.not_not, checksumBytes_eq_iff last] at agree
        exact ⟨count, _, fits, by rw [countBytes, ← agree], read⟩
  · rintro ⟨count, body, fits, rfl, read⟩
    have number : ofLittleEndian (countBytes count) = count := ofLittleEndian_littleEndian fits
    have agree := (checksumBytes_eq_iff (length_checksumBytes count body)).mpr rfl
    rw [readWith_parts (length_countBytes count) (length_checksumBytes count body),
      if_neg (fun differs => differs agree), number]
    exact read

/-- The check of the number of entries refuses nothing that is read without it. -/
theorem readWith_within_eq_ok_iff {now : Nat} :
    readWith (readEntriesWithin now) file = .ok image ↔
      readWith (readEntries now []) file = .ok image := by
  simp only [readWith_eq_ok_iff, readBodyWith_eq_ok_iff, readEntriesWithin_eq_ok_iff]

theorem Layout.body_eq (layout : Layout) : layout.body =
    encodeFields [.bytes (Bytes.ofText layout.name), .word64 layout.maxKeys, .byte layout.flag] ++
      (layout.entries.flatMap StoredEntry.encode ++ layout.rest) := by
  rw [body, List.append_assoc]

theorem Layout.file_eq (layout : Layout) : layout.file =
    Field.header.encode ++ (countBytes layout.entries.length ++
      (layout.body ++ checksumBytes layout.entries.length layout.body)) := by
  simp only [file, List.append_assoc]

theorem read_eq_ok_iff {now : Nat} : read now file = .ok image ↔
    ∃ layout : Layout, layout.Fits ∧ layout.file = file ∧ layout.imageAt now = image := by
  rw [read_eq, readWith_within_eq_ok_iff, readWith_eq_ok_iff]
  simp only [readBodyWith_eq_ok_iff, readEntries_eq_ok_iff]
  constructor
  · rintro ⟨count, body, fits, rfl, name, maxKeys, flag, after, entries, nameFits, rfl, found, rfl⟩
    rcases found with ⟨stored, rest, rfl, entriesFit, rfl, rfl⟩
    let layout : Layout := { name, maxKeys, flag, entries := stored, rest }
    refine ⟨layout, ⟨nameFits, fits, entriesFit⟩, ?_, rfl⟩
    rw [layout.file_eq, layout.body_eq]
  · rintro ⟨layout, fits, rfl, rfl⟩
    exact ⟨layout.entries.length, layout.body, fits.count, layout.file_eq, layout.name,
      layout.maxKeys, layout.flag, _, _, fits.name, layout.body_eq,
      ⟨layout.entries, layout.rest, rfl, fits.entries, rfl, rfl⟩, rfl⟩

theorem Layout.le_div (layout : Layout) :
    layout.entries.length ≤ layout.body.length / minEntryLength := by
  have := StoredEntry.le_length layout.entries
  rw [Nat.le_div_iff_mul_le (by decide), layout.body_eq, List.length_append, List.length_append]
  omega

/-- What is behind the header of an accepted file begins with the number of its entries. -/
theorem Layout.readNumber_file {layout : Layout} (fits : layout.Fits) :
    readNumber 4 (layout.file.drop countPlace) = .ok (layout.entries.length,
      layout.body ++ checksumBytes layout.entries.length layout.body) := by
  have front : countPlace = Field.header.encode.length := rfl
  rw [layout.file_eq, front, List.drop_left]
  exact readNumber_append fits.count _

/-- A file is read as an image exactly if it is the file of a layout that fits, and the image is
what the layout says.  Without the check of the number of entries no other file is accepted, and a
number of entries that is accepted has room in the body. -/
theorem read_accepts_layouts (now : Nat) (file : Bytes) (image : Image) :
    (read now file = .ok image ↔
      ∃ layout : Layout, layout.Fits ∧ layout.file = file ∧ layout.imageAt now = image) ∧
    (read now file = .ok image ↔ readWith (readEntries now []) file = .ok image) ∧
    (read now file = .ok image → ∃ count rest,
      readNumber 4 (file.drop countPlace) = .ok (count, rest) ∧
      count ≤ (rest.length - checksumLength) / minEntryLength) := by
  refine ⟨read_eq_ok_iff, ?_, ?_⟩
  · rw [read_eq, readWith_within_eq_ok_iff]
  · intro accepted
    rcases read_eq_ok_iff.mp accepted with ⟨layout, fits, rfl, _⟩
    refine ⟨_, _, Layout.readNumber_file fits, ?_⟩
    rw [List.length_append, length_checksumBytes, Nat.add_sub_cancel]
    exact layout.le_div

end File

end Image

end Larder
