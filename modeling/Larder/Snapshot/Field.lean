import Larder.Snapshot.Error

/-!
# Fields of snapshots

A snapshot is a sequence of fields: numbers of fixed width, lowest byte first, byte strings behind
their length, and the header.  No field says what it is, so a reader has to know the kinds.
-/

namespace Larder.Snapshot

/-- A number as a given count of bytes, lowest first. -/
def littleEndian : Nat → Nat → Bytes
  | 0, _ => []
  | width + 1, number => UInt8.ofNat number :: littleEndian width (number / 256)

/-- The number that some bytes stand for, lowest first. -/
def ofLittleEndian : Bytes → Nat
  | [] => 0
  | byte :: rest => byte.toNat + 256 * ofLittleEndian rest

def magic : Bytes := Bytes.ofText "STSN"

/-- The version that is written and read. -/
def version : UInt8 := 1

inductive Field where
  | byte (number : UInt8)
  | word32 (number : UInt32)
  | word64 (number : UInt64)
  | bytes (content : Bytes)
  | header
  deriving Repr, DecidableEq

/-- What a reader has to know about a field. -/
inductive Field.Kind where
  | byte
  | word32
  | word64
  | bytes
  | header
  deriving Repr, DecidableEq

namespace Field

def kind : Field → Kind
  | .byte _ => .byte
  | .word32 _ => .word32
  | .word64 _ => .word64
  | .bytes _ => .bytes
  | .header => .header

def encode : Field → Bytes
  | .byte number => [number]
  | .word32 number => littleEndian 4 number.toNat
  | .word64 number => littleEndian 8 number.toNat
  | .bytes content => littleEndian 4 content.length ++ content
  | .header => magic ++ [version]

end Field

/-- A given number of bytes from the front, and the rest. -/
def readExact (count : Nat) (bytes : Bytes) : Except Error (Bytes × Bytes) :=
  let front := bytes.take count
  if front.length < count then .error .unexpectedEnd else .ok (front, bytes.drop count)

/-- A number of a given width from the front. -/
def readNumber (width : Nat) (bytes : Bytes) : Except Error (Nat × Bytes) := do
  let (front, rest) ← readExact width bytes
  return (ofLittleEndian front, rest)

/-- A byte string from the front. -/
def readBytes (bytes : Bytes) : Except Error (Bytes × Bytes) := do
  let (length, rest) ← readNumber 4 bytes
  if maxFieldLength < length then .error (.fieldTooLong length) else readExact length rest

/-- What follows the header. -/
def readHeader (bytes : Bytes) : Except Error Bytes := do
  let (front, rest) ← readExact magic.length bytes
  if front ≠ magic then .error .invalidMagic
  else
    let (number, rest) ← readNumber 1 rest
    let found := UInt8.ofNat number
    if found ≠ version then .error (.unsupportedVersion found) else .ok rest

namespace Field

/-- A field of a given kind from the front. -/
def read (kind : Kind) (source : Bytes) : Except Error (Field × Bytes) :=
  match kind with
  | .byte => (readNumber 1 source).map fun (number, rest) => (.byte (.ofNat number), rest)
  | .word32 => (readNumber 4 source).map fun (number, rest) => (.word32 (.ofNat number), rest)
  | .word64 => (readNumber 8 source).map fun (number, rest) => (.word64 (.ofNat number), rest)
  | .bytes => (readBytes source).map fun (content, rest) => (.bytes content, rest)
  | .header => (readHeader source).map fun rest => (.header, rest)

/-- Fields of given kinds from the front, up to the first that cannot be read. -/
def readAll : List Kind → Bytes → List Field × Option Error
  | [], _ => ([], none)
  | kind :: kinds, source =>
    match read kind source with
    | .error error => ([], some error)
    | .ok (field, rest) =>
      let (fields, error) := readAll kinds rest
      (field :: fields, error)

end Field

end Larder.Snapshot
