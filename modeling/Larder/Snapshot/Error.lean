import Larder.FileOperation

/-!
# Errors of snapshots

Why a stash cannot be saved, or what is wrong with a saved one.
-/

namespace Larder.Snapshot

/-- The longest byte string that is read, so that a damaged length does no harm. -/
def maxFieldLength : Nat := 16777216

/-- Why a snapshot is not written or not read. -/
inductive Error where
  | unexpectedEnd
  /-- The bytes do not begin like a snapshot. -/
  | invalidMagic
  | unsupportedVersion (version : UInt8)
  /-- The bytes do not have the checksum that stands behind them. -/
  | checksumMismatch (expected actual : UInt32)
  /-- A byte string is longer than what is read. -/
  | fieldTooLong (length : Nat)
  | nameNotText
  /-- There is no room for as many entries. -/
  | countTooLarge (count remaining : Nat)
  /-- A byte string is longer than what can be written. -/
  | unwritable (length : Nat)
  | notOpen
  | file (error : FileError)
  deriving Repr, DecidableEq

/-- A word of 32 bits as eight hexadecimal digits. -/
def hexWord (word : UInt32) : String :=
  let digits := Nat.toDigits 16 word.toNat
  "0x" ++ String.ofList (List.replicate (8 - digits.length) '0' ++ digits)

def Error.message : Error → String
  | .unexpectedEnd => "unexpected end of file"
  | .invalidMagic => "invalid magic bytes"
  | .unsupportedVersion version => "unsupported format version: " ++ toString version
  | .checksumMismatch expected actual =>
    "crc32 mismatch (expected " ++ hexWord expected ++ ", got " ++ hexWord actual ++ ")"
  | .fieldTooLong length =>
    "invalid data: field length " ++ toString length ++ " exceeds maximum of " ++
      toString maxFieldLength
  | .nameNotText => "invalid data: stash name is not valid utf-8"
  | .countTooLarge count remaining =>
    "invalid data: entry count " ++ toString count ++ " does not fit in " ++
      toString remaining ++ " bytes"
  | .unwritable length => "io error: field length " ++ toString length ++ " exceeds u32::MAX"
  | .notOpen => "snapshot writer is not open"
  | .file error => "io error: " ++ error.message

end Larder.Snapshot
