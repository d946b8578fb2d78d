import Larder.Decimal
import Mathlib.Algebra.Group.Nat.Defs
import Mathlib.Data.List.Induction

/-!
# Digits of numbers

A number is written with digits only, and reading the digits gives the number back.  Numbers of 64
bits have at most twenty digits.  A run of digits is read exactly as the number that it stands for.
-/

namespace Larder.Decimal

theorem ofNat_of_lt {number : Nat} (small : number < 10) : ofNat number = [digit number] := by
  rw [ofNat, if_pos small]

theorem ofNat_of_not_lt {number : Nat} (large : ¬number < 10) :
    ofNat number = ofNat (number / 10) ++ [digit (number % 10)] := by
  rw [ofNat, if_neg large]

theorem toNat_digit {number : Nat} (small : number < 10) : (digit number).toNat = 48 + number := by
  simp only [digit, UInt8.toNat_add, UInt8.toNat_ofNat']
  have : (48 : UInt8).toNat = 48 := rfl
  omega

theorem isDigit_iff {byte : UInt8} : isDigit byte = true ↔ 48 ≤ byte.toNat ∧ byte.toNat ≤ 57 := by
  simp [isDigit, UInt8.le_iff_toNat_le]

theorem isDigit_digit {number : Nat} (small : number < 10) : isDigit (digit number) = true := by
  rw [isDigit_iff, toNat_digit small]
  omega

theorem value_append_digit (digits : Bytes) {number : Nat} (small : number < 10) :
    value (digits ++ [digit number]) = 10 * value digits + number := by
  have byte : (digit number - 48).toNat = number := by
    have whole := toNat_digit small
    have fits : (48 : UInt8) ≤ digit number := by
      simp [UInt8.le_iff_toNat_le, whole]
    rw [UInt8.toNat_sub_of_le _ _ fits, whole]
    simp
  simp [value, byte]

theorem value_ofNat (number : Nat) : value (ofNat number) = number := by
  induction number using ofNat.induct with
  | case1 number small =>
      rw [ofNat_of_lt small]
      simpa [value] using value_append_digit [] small
  | case2 number large ih =>
      have last := Nat.mod_lt number (show 0 < 10 by omega)
      rw [ofNat_of_not_lt large, value_append_digit _ last, ih]
      omega

theorem isDigit_of_mem_ofNat {number : Nat} {byte : UInt8} (present : byte ∈ ofNat number) :
    isDigit byte = true := by
  induction number using ofNat.induct with
  | case1 number small =>
      rw [ofNat_of_lt small, List.mem_singleton] at present
      exact present ▸ isDigit_digit small
  | case2 number large ih =>
      rw [ofNat_of_not_lt large, List.mem_append, List.mem_singleton] at present
      rcases present with front | rfl
      · exact ih front
      · exact isDigit_digit (Nat.mod_lt _ (by omega))

theorem ofNat_ne_nil (number : Nat) : ofNat number ≠ [] := by
  by_cases small : number < 10
  · simp [ofNat_of_lt small]
  · simp [ofNat_of_not_lt small]

theorem length_ofNat_le {number digits : Nat} (fits : number < 10 ^ (digits + 1)) :
    (ofNat number).length ≤ digits + 1 := by
  induction digits generalizing number with
  | zero => simp [ofNat_of_lt (show number < 10 by omega)]
  | succ digits ih =>
      by_cases small : number < 10
      · simp [ofNat_of_lt small]
      · rw [Nat.pow_succ] at fits
        have front := @ih (number / 10) (by omega)
        simp only [ofNat_of_not_lt small, List.length_append, List.length_singleton]
        omega

theorem length_ofNat_le_succ (number : Nat) : (ofNat number).length ≤ number + 1 := by
  have below : number < 10 ^ number := Nat.lt_pow_self (by decide)
  apply length_ofNat_le
  rw [Nat.pow_succ]
  omega

theorem ofText_digitChar {number : Nat} (small : number < 10) :
    Bytes.ofText (String.singleton number.digitChar) = [digit number] := by
  revert number
  decide +kernel

/-- A number is shown to people as it is sent. -/
theorem ofText_toString (number : Nat) : Bytes.ofText (toString number) = ofNat number := by
  rw [Nat.toString_eq_repr]
  induction number using ofNat.induct with
  | case1 number small =>
      rw [Nat.repr_of_lt small, ofNat_of_lt small, ofText_digitChar small]
  | case2 number large ih =>
      have last := ofText_digitChar (Nat.mod_lt number (show 0 < 10 by omega))
      rw [Nat.repr_of_ge (Nat.le_of_not_lt large), ofNat_of_not_lt large, Bytes.ofText_append, ih,
        last]

theorem digits?_ofNat (number : Nat) : digits? (ofNat number) = some number := by
  have all : (ofNat number).all isDigit = true :=
    List.all_eq_true.mpr fun _ present => isDigit_of_mem_ofNat present
  rw [digits?, if_pos ⟨ofNat_ne_nil number, all⟩, value_ofNat]

section Numeral

/-- Runs of digits and the numbers they stand for.  Zeros in front change nothing. -/
inductive Numeral : Bytes → Nat → Prop where
  | single {number : Nat} (small : number < 10) : Numeral [digit number] number
  | snoc {front : Bytes} {total number : Nat} (earlier : Numeral front total)
      (small : number < 10) : Numeral (front ++ [digit number]) (10 * total + number)

variable {bytes digits : Bytes} {number : Nat}

theorem exists_digit_of_isDigit {byte : UInt8} (isDigit : isDigit byte = true) :
    ∃ number < 10, byte = digit number := by
  have range := isDigit_iff.mp isDigit
  have small : byte.toNat - 48 < 10 := by omega
  refine ⟨byte.toNat - 48, small, ?_⟩
  apply UInt8.toNat_inj.mp
  rw [toNat_digit small]
  omega

namespace Numeral

theorem all_isDigit (numeral : Numeral digits number) : digits.all isDigit = true := by
  induction numeral with
  | single small => simp [isDigit_digit small]
  | snoc _ small ih => simp only [List.all_append, ih, List.all_cons, isDigit_digit small,
      List.all_nil, Bool.and_self]

theorem ne_nil (numeral : Numeral digits number) : digits ≠ [] := by
  cases numeral <;> simp

theorem value_eq (numeral : Numeral digits number) : value digits = number := by
  induction numeral with
  | single small => simpa [value] using value_append_digit [] small
  | snoc _ small ih => rw [value_append_digit _ small, ih]

theorem of_isDigit (present : digits ≠ []) (isDigit : digits.all isDigit = true) :
    Numeral digits (value digits) := by
  induction digits using List.reverseRecOn with
  | nil => exact absurd rfl present
  | append_singleton front byte ih =>
      simp only [List.all_append, List.all_cons, List.all_nil, Bool.and_true,
        Bool.and_eq_true] at isDigit
      rcases exists_digit_of_isDigit isDigit.2 with ⟨number, small, rfl⟩
      rw [value_append_digit front small]
      by_cases first : front = []
      · subst front
        simpa [value] using Numeral.single small
      · exact .snoc (ih first isDigit.1) small

end Numeral

theorem digits?_eq_some_iff : digits? bytes = some number ↔ Numeral bytes number := by
  rw [digits?]
  constructor
  · intro read
    split at read
    · next run =>
      cases read
      exact .of_isDigit run.1 run.2
    · cases read
  · intro numeral
    rw [if_pos ⟨numeral.ne_nil, numeral.all_isDigit⟩, numeral.value_eq]

theorem numeral_ofNat (number : Nat) : Numeral (ofNat number) number :=
  digits?_eq_some_iff.mp (digits?_ofNat number)

end Numeral

end Larder.Decimal
