/-!
# Bytes, text and numbers of 64 bits

Keys, values and everything on the wire are byte strings.  Names and messages are text, and text
crosses the wire as its UTF-8 encoding.  Reading text accepts exactly the byte strings that
writing it produces.

Times, lifetimes and sizes are natural numbers that have to fit in 64 bits.  Sums of times stop at
the largest such number, sizes wrap around.
-/

namespace Larder

abbrev Bytes := List UInt8

namespace Bytes

def ofText (text : String) : Bytes :=
  text.toByteArray.data.toList

/-- The text whose UTF-8 encoding is given, if there is one. -/
def toText? (bytes : Bytes) : Option String :=
  String.fromUTF8? ⟨bytes.toArray⟩

/-- A carriage return followed by a line feed. -/
def crlf : Bytes := [13, 10]

/-- What follows a given beginning, if the byte string starts with it. -/
def after? (bytes beginning : Bytes) : Option Bytes :=
  if bytes.take beginning.length = beginning then some (bytes.drop beginning.length) else none

/-- Puts bytes over others at a place; what is skipped is filled with zeros. -/
def overwrite (content : Bytes) (place : Nat) (bytes : Bytes) : Bytes :=
  content.take place ++ List.replicate (place - content.length) 0 ++ bytes ++
    content.drop (place + bytes.length)

/-- Pieces of a given length, the last of which may be shorter. -/
def chunks (bytes : Bytes) (size : Nat) : List Bytes :=
  if bytes = [] then []
  else bytes.take (size - 1 + 1) :: chunks (bytes.drop (size - 1 + 1)) size
termination_by bytes.length
decreasing_by
  rename_i present
  have := List.length_pos_iff.2 present
  simp only [List.length_drop]
  omega

/-- An ASCII letter in its capital form; every other byte as it is. -/
def upperByte (byte : UInt8) : UInt8 :=
  if 97 ≤ byte ∧ byte ≤ 122 then byte - 32 else byte

/-- Whether two byte strings agree up to the case of ASCII letters. -/
def sameIgnoringCase (left right : Bytes) : Bool :=
  left.map upperByte == right.map upperByte

@[simp]
theorem toText?_ofText (text : String) : (ofText text).toText? = some text := by
  have valid : (⟨(ofText text).toArray⟩ : ByteArray).IsValidUTF8 := by
    simpa [ofText] using text.isValidUTF8
  simp only [toText?, String.fromUTF8?, valid, dif_pos]
  rfl

theorem ofText_of_toText? {bytes : Bytes} {text : String} (decoded : bytes.toText? = some text) :
    ofText text = bytes := by
  unfold toText? String.fromUTF8? at decoded
  split at decoded
  · cases decoded
    rfl
  · cases decoded

theorem toText?_eq_some_iff {bytes : Bytes} {text : String} :
    bytes.toText? = some text ↔ bytes = ofText text :=
  ⟨fun decoded => (ofText_of_toText? decoded).symm, fun h => h ▸ toText?_ofText text⟩

theorem ofText_append (left right : String) :
    ofText (left ++ right) = ofText left ++ ofText right := by
  simp [ofText]

theorem after?_eq_some_iff {beginning bytes rest : Bytes} :
    bytes.after? beginning = some rest ↔ bytes = beginning ++ rest := by
  unfold after?
  constructor
  · intro found
    split at found
    · next starts =>
      cases found
      conv => lhs; rw [← List.take_append_drop beginning.length bytes, starts]
    · cases found
  · rintro rfl
    simp

end Bytes

end Larder

namespace Larder.Word64

def largest : Nat := UInt64.size - 1

/-- The number below which numbers fit in 64 bits with a sign. -/
def signedBound : Nat := UInt64.size / 2

/-- Addition that stops at the largest number. -/
def addSaturating (left right : Nat) : Nat :=
  min (left + right) largest

/-- What is left of a number when only its low 64 bits are kept. -/
def wrap (number : Nat) : Nat :=
  number % UInt64.size

theorem addSaturating_le_largest (left right : Nat) : addSaturating left right ≤ largest :=
  Nat.min_le_right _ _

theorem wrap_le_largest (number : Nat) : wrap number ≤ largest :=
  Nat.le_sub_one_of_lt (Nat.mod_lt _ (by decide))

end Larder.Word64
