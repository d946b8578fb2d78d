import Larder.Bytes

/-!
# Text from damaged bytes

Bytes that are meant to be text but are not valid UTF-8 are still shown: each longest piece that
begins a character without completing it, and each byte that can begin none, becomes one
replacement character.
-/

namespace Larder.Text

/-- What the first byte of a character announces. -/
structure Lead where
  /-- How many more bytes the character has. -/
  more : Nat
  bits : Nat
  /-- The least second byte that is allowed. -/
  lowest : UInt8 := 0x80
  /-- The greatest second byte that is allowed. -/
  highest : UInt8 := 0xBF

/-- The characters that a first byte can begin, if any.  The bounds on the second byte exclude
characters that have a shorter encoding, surrogates and numbers beyond the last code point. -/
def lead? (byte : UInt8) : Option Lead :=
  if byte < 0x80 then some { more := 0, bits := byte.toNat }
  else if byte < 0xC2 then none
  else if byte < 0xE0 then some { more := 1, bits := byte.toNat - 0xC0 }
  else if byte = 0xE0 then some { more := 2, bits := 0, lowest := 0xA0 }
  else if byte = 0xED then some { more := 2, bits := 13, highest := 0x9F }
  else if byte < 0xF0 then some { more := 2, bits := byte.toNat - 0xE0 }
  else if byte = 0xF0 then some { more := 3, bits := 0, lowest := 0x90 }
  else if byte < 0xF4 then some { more := 3, bits := byte.toNat - 0xF0 }
  else if byte = 0xF4 then some { more := 3, bits := 4, highest := 0x8F }
  else none

/-- The bytes at the front that continue the announced character, at most as many as it has. -/
def continuation (lead : Lead) (bytes : Bytes) : Bytes :=
  match bytes.take lead.more with
  | [] => []
  | second :: rest =>
    if lead.lowest ≤ second ∧ second ≤ lead.highest then
      second :: rest.takeWhile (fun byte => 0x80 ≤ byte && byte ≤ 0xBF)
    else []

/-- The character put in the place of bytes that encode none. -/
def replacement : Char := '\ufffd'

/-- The characters that the bytes show, from a given list of earlier ones in reverse order. -/
def lossyCharsFrom (shown : List Char) : Bytes → List Char
  | [] => shown.reverse
  | first :: rest =>
    match lead? first with
    | none => lossyCharsFrom (replacement :: shown) rest
    | some lead =>
      let further := continuation lead rest
      let character :=
        if further.length = lead.more then
          Char.ofNat (further.foldl (fun total byte => 64 * total + byte.toNat % 64) lead.bits)
        else replacement
      lossyCharsFrom (character :: shown) (rest.drop further.length)
termination_by bytes => bytes.length

/-- The text that the bytes encode, with replacement characters where they encode none. -/
def ofBytesLossy (bytes : Bytes) : String :=
  match bytes.toText? with
  | some text => text
  | none => String.ofList (lossyCharsFrom [] bytes)

end Larder.Text
