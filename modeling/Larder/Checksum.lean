import Larder.Bytes

/-!
# Checksums

The cyclic redundancy check of 32 bits that is used for files everywhere: the bytes are divided,
lowest bit first, by a fixed polynomial over the field of two elements, and the remainder is
inverted before and after.
-/

namespace Larder.Checksum

/-- The divisor, lowest power in the highest bit. -/
def polynomial : UInt32 := 0xEDB88320

/-- Divides by one more power. -/
def shift (remainder : UInt32) : UInt32 :=
  if remainder &&& 1 = 1 then (remainder >>> 1) ^^^ polynomial else remainder >>> 1

/-- Divides by a number of powers. -/
def shifts : Nat → UInt32 → UInt32
  | 0, remainder => remainder
  | powers + 1, remainder => shifts powers (shift remainder)

/-- Divides by the eight powers of one more byte. -/
def step (remainder : UInt32) (byte : UInt8) : UInt32 :=
  shifts 8 (remainder ^^^ byte.toUInt32)

def remainder (start : UInt32) (bytes : Bytes) : UInt32 :=
  bytes.foldl step start

def ofBytes (bytes : Bytes) : UInt32 :=
  ~~~(remainder 0xFFFFFFFF bytes)

end Larder.Checksum
