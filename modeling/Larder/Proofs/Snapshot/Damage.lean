import Larder.Proofs.Checksum
import Larder.Proofs.Snapshot.Layout

/-!
# Damage to files

A file that is read as an image is not read any more, at any time, when one byte of it is changed.
A change of the header is seen right away, and every other change sets the checksum and what it is
of at variance, whether it is in one or in the other.
-/

namespace Larder

open Snapshot

namespace Image

theorem read_of_mark_ne {mark : Bytes} (exact : mark.length = magic.length) (differ : mark ≠ magic)
    (now : Nat) (number : UInt8) (rest : Bytes) :
    read now (mark ++ number :: rest) = .error .invalidMagic := by
  simp only [read, readHeader_parts exact, if_pos differ, bind, Except.bind]

theorem read_of_version_ne {number : UInt8} (differ : number ≠ version) (now : Nat)
    (rest : Bytes) : read now (magic ++ number :: rest) = .error (.unsupportedVersion number) := by
  simp only [read, readHeader_parts rfl, ne_eq, not_true, if_false, if_pos differ, bind,
    Except.bind]

/-- Bytes that do not have the checksum behind them are not read. -/
theorem read_of_mismatch {counted foot : Bytes} (enough : 4 ≤ counted.length)
    (last : foot.length = checksumLength)
    (differ : UInt32.ofNat (ofLittleEndian foot) ≠ Checksum.ofBytes counted) (now : Nat) :
    read now (Field.header.encode ++ (counted ++ foot)) =
      .error (.checksumMismatch (.ofNat (ofLittleEndian foot)) (Checksum.ofBytes counted)) := by
  have front : (counted.take 4).length = 4 := List.length_take_of_le enough
  rw [← List.take_append_drop 4 counted, List.append_assoc, read_eq, readWith_parts front last,
    List.take_append_drop, if_pos differ]

/-- Behind the header either the checksum is changed or what it is of, and not both. -/
theorem exists_read_set_eq {count : Nat} {body : Bytes} {place : Nat} {byte : UInt8}
    (changed : (countBytes count ++ body ++ checksumBytes count body).set place byte ≠
      countBytes count ++ body ++ checksumBytes count body) (now : Nat) :
    ∃ expected actual, expected ≠ actual ∧
      read now (Field.header.encode ++
          (countBytes count ++ body ++ checksumBytes count body).set place byte) =
        .error (.checksumMismatch expected actual) := by
  have enough : 4 ≤ (countBytes count ++ body).length := by
    rw [List.length_append, length_countBytes]
    exact Nat.le_add_right _ _
  have last := length_checksumBytes count body
  have agree := (checksumBytes_eq_iff last).mpr rfl
  rw [List.set_append] at changed ⊢
  split at changed
  · next within =>
    have differ : (countBytes count ++ body).set place byte ≠ countBytes count ++ body :=
      fun same => changed (by rw [same])
    have mismatch : UInt32.ofNat (ofLittleEndian (checksumBytes count body)) ≠
        Checksum.ofBytes ((countBytes count ++ body).set place byte) := by
      rw [agree]
      exact (Checksum.ofBytes_set_ne differ).symm
    rw [if_pos within]
    refine ⟨_, _, mismatch, read_of_mismatch ?_ last mismatch now⟩
    rwa [List.length_set]
  · next beyond =>
    have differ : (checksumBytes count body).set
        (place - (countBytes count ++ body).length) byte ≠ checksumBytes count body :=
      fun same => changed (by rw [same])
    have long : ((checksumBytes count body).set
        (place - (countBytes count ++ body).length) byte).length = checksumLength := by
      rw [List.length_set, last]
    have mismatch := mt (checksumBytes_eq_iff long).mp differ
    rw [if_neg beyond]
    exact ⟨_, _, mismatch, read_of_mismatch enough long mismatch now⟩

/-- A file that is read is not read with another byte in one place, and the error says where the
place is: in the mark at the front, in the version or behind it. -/
theorem damage_detected {now : Nat} {file : Bytes} {image : Image}
    (accepted : read now file = .ok image) {place : Nat} {byte : UInt8}
    (inside : place < file.length) (differs : byte ≠ file[place]) (later : Nat) :
    ∃ error, read later (file.set place byte) = .error error ∧
      (place < magic.length → error = .invalidMagic) ∧
      (place = magic.length → error = .unsupportedVersion byte) ∧
      (magic.length < place → ∃ expected actual, expected ≠ actual ∧
        error = .checksumMismatch expected actual) := by
  have changed : file.set place byte ≠ file := by
    intro same
    have here : (file.set place byte)[place]? = some byte := List.getElem?_set_self inside
    rw [same, List.getElem?_eq_getElem inside] at here
    exact differs (Option.some.inj here).symm
  rw [read_eq, readWith_eq_ok_iff] at accepted
  rcases accepted with ⟨count, body, _, rfl, _⟩
  have parts : Field.header.encode ++ (countBytes count ++ (body ++ checksumBytes count body)) =
      magic ++ version :: (countBytes count ++ body ++ checksumBytes count body) := by
    simp only [Field.encode, List.append_assoc, List.singleton_append]
  rw [parts] at changed ⊢
  rcases Nat.lt_trichotomy place magic.length with front | rfl | behind
  · rw [List.set_append_left _ _ front] at changed ⊢
    have differ : magic.set place byte ≠ magic := fun same => changed (by rw [same])
    refine ⟨_, read_of_mark_ne List.length_set differ _ _ _, fun _ => rfl, ?_, ?_⟩ <;> omega
  · rw [List.set_append_right _ _ (Nat.le_refl _), Nat.sub_self, List.set_cons_zero] at changed ⊢
    have differ : byte ≠ version := fun same => changed (by rw [same])
    refine ⟨_, read_of_version_ne differ _ _, ?_, fun _ => rfl, ?_⟩ <;> omega
  · rcases Nat.exists_eq_add_of_lt behind with ⟨after, rfl⟩
    rw [List.set_append_right _ _ (by omega), Nat.add_assoc, Nat.add_sub_cancel_left,
      List.set_cons_succ] at changed ⊢
    rcases exists_read_set_eq (fun same => changed (by rw [same])) later with
      ⟨expected, actual, differ, refused⟩
    refine ⟨.checksumMismatch expected actual, ?_, ?_, ?_, fun _ => ⟨_, _, differ, rfl⟩⟩
    · exact refused
    all_goals omega

/-- The key of the only entry is changed. -/
theorem damage_detected_in_key :
    let file : Bytes := [83, 84, 83, 78, 1, 1, 0, 0, 0, 1, 0, 0, 0, 115, 1, 0, 0, 0, 0, 0, 0, 0, 0,
      1, 0, 0, 0, 107, 1, 0, 0, 0, 118, 0, 0, 0, 0, 0, 0, 0, 0, 67, 43, 73, 80]
    read 0 file = .ok
      { name := "s", maxKeys := 1, offHeap := false, entries := [⟨[107], [118], none⟩] } ∧
    27 < file.length ∧ (106 : UInt8) ≠ file[27] ∧
    ∃ expected actual, expected ≠ actual ∧
      read 7 (file.set 27 106) = .error (.checksumMismatch expected actual) := by
  intro file
  let layout : Layout :=
    { name := "s", maxKeys := 1, flag := 0, entries := [⟨[107], [118], 0⟩], rest := [] }
  have fits : layout.Fits := by
    refine ⟨by decide +kernel, by decide, fun stored present => ?_⟩
    rw [List.mem_singleton.mp present]
    exact ⟨by decide, by decide⟩
  have accepted : read 0 file = .ok (layout.imageAt 0) :=
    read_eq_ok_iff.mpr ⟨layout, fits, by decide +kernel, rfl⟩
  have differs : (106 : UInt8) ≠ file[27] := by decide
  have inside : 27 < file.length := by decide
  rcases damage_detected accepted inside differs 7 with ⟨error, refused, _, _, behind⟩
  rcases behind (by decide) with ⟨expected, actual, differ, rfl⟩
  exact ⟨accepted, inside, differs, expected, actual, differ, refused⟩

end Image

end Larder
