import Larder.Snapshot.Field
import Mathlib.Algebra.Group.Nat.Defs

/-!
# Reading fields back

A field is read back from the bytes it was written as, whatever follows it, provided that it fits:
numbers have to be small enough for their width, and byte strings no longer than what is read.
-/

namespace Larder.Snapshot

section Number

theorem length_littleEndian (width number : Nat) : (littleEndian width number).length = width := by
  induction width generalizing number with
  | zero => rfl
  | succ width ih => rw [littleEndian, List.length_cons, ih]

theorem ofLittleEndian_littleEndian {width number : Nat} (fits : number < 256 ^ width) :
    ofLittleEndian (littleEndian width number) = number := by
  induction width generalizing number with
  | zero =>
      rw [Nat.pow_zero, Nat.lt_one_iff] at fits
      exact fits.symm
  | succ width ih =>
      have high : number / 256 < 256 ^ width := by
        apply Nat.div_lt_of_lt_mul
        rwa [Nat.pow_succ'] at fits
      rw [littleEndian, ofLittleEndian, ih high]
      simp only [UInt8.toNat_ofNat']
      exact Nat.mod_add_div number 256

theorem readExact_append {front : Bytes} {count : Nat} (exact : front.length = count)
    (rest : Bytes) : readExact count (front ++ rest) = .ok (front, rest) := by
  subst exact
  simp [readExact]

theorem readNumber_append {width number : Nat} (fits : number < 256 ^ width) (rest : Bytes) :
    readNumber width (littleEndian width number ++ rest) = .ok (number, rest) := by
  rw [readNumber, readExact_append (length_littleEndian width number)]
  simp only [bind, Except.bind, pure, Except.pure, ofLittleEndian_littleEndian fits]

theorem readBytes_append {content : Bytes} (fits : content.length ≤ maxFieldLength)
    (rest : Bytes) :
    readBytes ((Field.bytes content).encode ++ rest) = .ok (content, rest) := by
  have within : content.length < 256 ^ 4 := Nat.lt_of_le_of_lt fits (by decide)
  rw [Field.encode, List.append_assoc, readBytes, readNumber_append within]
  simp only [bind, Except.bind, if_neg (Nat.not_lt.mpr fits)]
  exact readExact_append rfl rest

theorem readNumber_word64 {number : Nat} (fits : number < 256 ^ 8) (rest : Bytes) :
    readNumber 8 ((Field.word64 (.ofNat number)).encode ++ rest) = .ok (number, rest) := by
  have same : (UInt64.ofNat number).toNat = number := Nat.mod_eq_of_lt fits
  rw [Field.encode, same]
  exact readNumber_append fits rest

theorem readNumber_byte (number : UInt8) (rest : Bytes) :
    readNumber 1 ((Field.byte number).encode ++ rest) = .ok (number.toNat, rest) := by
  have front : readExact 1 ([number] ++ rest) = .ok ([number], rest) :=
    @readExact_append [number] 1 rfl rest
  rw [readNumber, Field.encode, front]
  simp only [bind, Except.bind, pure, Except.pure, ofLittleEndian, Nat.mul_zero, Nat.add_zero]

/-- What is said of something of the length of a header. -/
theorem readHeader_parts {mark : Bytes} (exact : mark.length = magic.length) (number : UInt8)
    (rest : Bytes) : readHeader (mark ++ number :: rest) =
      if mark ≠ magic then .error .invalidMagic
      else if number ≠ version then .error (.unsupportedVersion number) else .ok rest := by
  have counted : readNumber 1 (number :: rest) = .ok (number.toNat, rest) :=
    readNumber_byte number rest
  simp only [readHeader, readExact_append exact, bind, Except.bind, counted, UInt8.ofNat_toNat]

theorem readHeader_append (rest : Bytes) :
    readHeader (Field.header.encode ++ rest) = .ok rest := by
  have read := readHeader_parts (rfl : magic.length = _) version rest
  rw [if_neg (fun differs => differs rfl), if_neg (fun differs => differs rfl)] at read
  rw [Field.encode, List.append_assoc]
  exact read

end Number

end Larder.Snapshot
