import Larder.Checksum
import Larder.Snapshot.Field
import Larder.Stash

/-!
# Images of stashes

What is kept of a stash on disk: its name, two of its settings and its entries.  The file of an
image is a header, the number of entries, the settings, the entries, and the checksum of all that
follows the header.  Reading it leaves out entries whose lifetime is over.
-/

namespace Larder

/-- A stash as it is kept on disk. -/
structure Image where
  name : String
  maxKeys : Nat
  offHeap : Bool
  entries : List Stash.Entry
  deriving Repr, DecidableEq

namespace Image

open Snapshot

/-- Where the number of entries stands in a file. -/
def countPlace : Nat := 5

/-- How many bytes the shortest entry has. -/
def minEntryLength : Nat := 16

def checksumLength : Nat := 4

def settingFields (name : String) (maxKeys : Nat) (offHeap : Bool) : List Field :=
  [.bytes (Bytes.ofText name), .word64 (.ofNat maxKeys), .byte (if offHeap then 1 else 0)]

/-- The fields of an entry.  No lifetime is written as the time zero. -/
def entryFields (entry : Stash.Entry) : List Field :=
  [.bytes entry.key, .bytes entry.value, .word64 (.ofNat (entry.expiresAt.getD 0))]

def encodeFields (fields : List Field) : Bytes :=
  fields.flatMap Field.encode

def body (image : Image) : Bytes :=
  encodeFields (settingFields image.name image.maxKeys image.offHeap) ++
    image.entries.flatMap (fun entry => encodeFields (entryFields entry))

/-- The bytes of a number of entries. -/
def countBytes (count : Nat) : Bytes :=
  littleEndian 4 count

/-- The checksum of a number of entries and a body, as it stands at the end of a file. -/
def checksumBytes (count : Nat) (body : Bytes) : Bytes :=
  littleEndian checksumLength (Checksum.ofBytes (countBytes count ++ body)).toNat

def encode (image : Image) : Bytes :=
  let count := image.entries.length
  Field.header.encode ++ countBytes count ++ image.body ++ checksumBytes count image.body

/-- An entry from the front. -/
def readEntry (bytes : Bytes) : Except Error (Stash.Entry × Bytes) := do
  let (key, rest) ← readBytes bytes
  let (value, rest) ← readBytes rest
  let (time, rest) ← readNumber 8 rest
  return ({ key, value, expiresAt := if time = 0 then none else some time }, rest)

/-- Whether the lifetime of an entry is not over. -/
def isLive (now : Nat) (entry : Stash.Entry) : Bool :=
  entry.expiresAt.all (now < ·)

/-- A number of entries from the front, without those whose lifetime is over, after some that are
given in reverse order. -/
def readEntries (now : Nat) (earlier : List Stash.Entry) :
    Nat → Bytes → Except Error (List Stash.Entry)
  | 0, _ => .ok earlier.reverse
  | count + 1, bytes => do
    let (entry, rest) ← readEntry bytes
    readEntries now (if isLive now entry then entry :: earlier else earlier) count rest

/-- The image in a body that has a number of entries.  What follows the last entry is ignored. -/
def readBody (now count : Nat) (body : Bytes) : Except Error Image := do
  let (nameBytes, rest) ← readBytes body
  let name ← match nameBytes.toText? with
    | some name => .ok name
    | none => .error .nameNotText
  let (maxKeys, rest) ← readNumber 8 rest
  let (flag, rest) ← readNumber 1 rest
  let remaining := rest.length
  if remaining / minEntryLength < count then .error (.countTooLarge count remaining)
  else
    let entries ← readEntries now [] count rest
    return { name, maxKeys, offHeap := flag ≠ 0, entries }

def read (now : Nat) (file : Bytes) : Except Error Image := do
  let rest ← readHeader file
  let (count, rest) ← readNumber 4 rest
  if rest.length < checksumLength then .error .unexpectedEnd
  else
    let body := rest.take (rest.length - checksumLength)
    let expected := UInt32.ofNat (ofLittleEndian (rest.drop (rest.length - checksumLength)))
    let actual := Checksum.ofBytes (countBytes count ++ body)
    if expected ≠ actual then .error (.checksumMismatch expected actual)
    else readBody now count body

end Image

end Larder
