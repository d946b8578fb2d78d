import Larder.Checksum
import Mathlib.Logic.Function.Basic

/-!
# Checksums of damaged bytes

Dividing by one more power can be undone: the divisor has its highest bit set, so that the highest
bit of a remainder tells whether the divisor was subtracted last.  Hence no two remainders become
one, whatever bytes follow, and byte strings that differ in one place have different checksums.
-/

namespace Larder.Checksum

section Shift

theorem toNat_shiftRight_one (remainder : UInt32) :
    (remainder >>> 1).toNat = remainder.toNat / 2 := by
  rw [UInt32.toNat_shiftRight]
  exact Nat.shiftRight_eq_div_pow _ 1

theorem and_one_eq_one_iff (remainder : UInt32) :
    remainder &&& 1 = 1 ↔ remainder.toNat % 2 = 1 := by
  rw [← UInt32.toNat_inj, UInt32.toNat_and]
  exact iff_of_eq (congrArg (· = 1) (Nat.and_one_is_mod _))

/-- The lowest bit goes into the highest. -/
theorem testBit_shift (remainder : UInt32) :
    (shift remainder).toNat.testBit 31 = decide (remainder &&& 1 = 1) := by
  have clear : (remainder >>> 1).toNat.testBit 31 = false := by
    apply Nat.testBit_lt_two_pow
    have := remainder.toNat_lt
    rw [toNat_shiftRight_one]
    omega
  unfold shift
  split
  · next odd =>
    rw [UInt32.toNat_xor, Nat.testBit_xor, clear, decide_eq_true odd]
    decide
  · next even => rw [clear, decide_eq_false even]

theorem shift_injective : Function.Injective shift := by
  intro remainder other same
  have low : remainder &&& 1 = 1 ↔ other &&& 1 = 1 := by
    have := testBit_shift remainder
    rw [same, testBit_shift] at this
    exact (decide_eq_decide.mp this).symm
  have high : remainder >>> 1 = other >>> 1 := by
    unfold shift at same
    by_cases odd : other &&& 1 = 1
    · rw [if_pos odd, if_pos (low.mpr odd)] at same
      exact (UInt32.xor_left_inj polynomial).mp same
    · rwa [if_neg odd, if_neg (mt low.mp odd)] at same
  rw [and_one_eq_one_iff, and_one_eq_one_iff] at low
  rw [← UInt32.toNat_inj, toNat_shiftRight_one, toNat_shiftRight_one] at high
  apply UInt32.toNat_inj.mp
  omega

theorem shifts_injective (powers : Nat) : Function.Injective (shifts powers) := by
  induction powers with
  | zero => exact Function.injective_id
  | succ powers ih => exact ih.comp shift_injective

end Shift

section Step

theorem step_injective (byte : UInt8) : Function.Injective (step · byte) := by
  intro remainder other same
  exact (UInt32.xor_left_inj byte.toUInt32).mp (shifts_injective 8 same)

theorem step_injective_right (remainder : UInt32) : Function.Injective (step remainder) := by
  intro byte other same
  have words := (UInt32.xor_right_inj remainder).mp (shifts_injective 8 same)
  exact UInt8.toUInt32_inj.mp words

theorem remainder_injective (bytes : Bytes) : Function.Injective (remainder · bytes) := by
  induction bytes with
  | nil => exact Function.injective_id
  | cons byte bytes ih => exact ih.comp (step_injective byte)

theorem ofBytes_ne_of_ne {byte other : UInt8} (differ : byte ≠ other) (front rest : Bytes) :
    ofBytes (front ++ byte :: rest) ≠ ofBytes (front ++ other :: rest) := by
  intro same
  have whole := UInt32.not_inj.mp same
  simp only [remainder, List.foldl_append, List.foldl_cons] at whole
  exact differ (step_injective_right _ (remainder_injective rest whole))

/-- Another byte in one place changes the checksum. -/
theorem ofBytes_set_ne {bytes : Bytes} {place : Nat} {byte : UInt8}
    (changed : bytes.set place byte ≠ bytes) : ofBytes (bytes.set place byte) ≠ ofBytes bytes := by
  have inside : place < bytes.length := by
    by_contra outside
    exact changed (List.set_eq_of_length_le (Nat.le_of_not_lt outside))
  have differ : byte ≠ bytes[place] := by
    rintro rfl
    exact changed (List.set_getElem_self inside)
  have before : bytes = bytes.take place ++ bytes[place] :: bytes.drop (place + 1) := by
    rw [← List.drop_eq_getElem_cons inside, List.take_append_drop]
  have after : bytes.set place byte = bytes.take place ++ byte :: bytes.drop (place + 1) := by
    rw [List.set_eq_take_append_cons_drop, if_pos inside]
  conv => rhs; rw [before]
  rw [after]
  exact ofBytes_ne_of_ne differ _ _

end Step

end Larder.Checksum
