import Larder.Proofs.Snapshot.Field

/-!
# What readers accept

A reader of a field accepts exactly the byte strings that begin with the encoding of something of
its kind, and returns that and what follows.  So whatever is read has one encoding only, and a
field that is read can be written as it was.
-/

namespace Larder.Snapshot

section Number

theorem ofLittleEndian_lt (bytes : Bytes) : ofLittleEndian bytes < 256 ^ bytes.length := by
  induction bytes with
  | nil => exact Nat.one_pos
  | cons byte bytes ih =>
      have low := byte.toNat_lt
      rw [ofLittleEndian, List.length_cons, Nat.pow_succ]
      omega

theorem littleEndian_ofLittleEndian (bytes : Bytes) :
    littleEndian bytes.length (ofLittleEndian bytes) = bytes := by
  induction bytes with
  | nil => rfl
  | cons byte bytes ih =>
      have low : UInt8.ofNat (byte.toNat + 256 * ofLittleEndian bytes) = byte := by
        apply UInt8.toNat_inj.mp
        rw [UInt8.toNat_ofNat', Nat.add_mul_mod_self_left]
        exact Nat.mod_eq_of_lt byte.toNat_lt
      have high : (byte.toNat + 256 * ofLittleEndian bytes) / 256 = ofLittleEndian bytes := by
        have := byte.toNat_lt
        omega
      rw [ofLittleEndian, List.length_cons, littleEndian, low, high, ih]

end Number

section Reader

variable {source rest : Bytes}

theorem bind_eq_ok_iff {α β : Type} {first : Except Error α} {next : α → Except Error β}
    {result : β} :
    first >>= next = .ok result ↔ ∃ value, first = .ok value ∧ next value = .ok result := by
  constructor
  · intro done
    cases first with
    | error error => cases done
    | ok value => exact ⟨value, rfl, done⟩
  · rintro ⟨value, rfl, done⟩
    exact done

theorem readExact_eq_ok_iff {count : Nat} {front : Bytes} :
    readExact count source = .ok (front, rest) ↔ front.length = count ∧ source = front ++ rest := by
  constructor
  · intro read
    by_cases short : (source.take count).length < count
    · rw [readExact, if_pos short] at read
      cases read
    · rw [readExact, if_neg short] at read
      cases read
      have := List.length_take_le count source
      exact ⟨by omega, (List.take_append_drop count source).symm⟩
  · rintro ⟨exact, rfl⟩
    exact readExact_append exact rest

theorem readNumber_eq_ok_iff {width number : Nat} :
    readNumber width source = .ok (number, rest) ↔
      number < 256 ^ width ∧ source = littleEndian width number ++ rest := by
  constructor
  · intro read
    rcases bind_eq_ok_iff.mp read with ⟨⟨front, rest⟩, exact, done⟩
    cases done
    rcases readExact_eq_ok_iff.mp exact with ⟨rfl, rfl⟩
    exact ⟨ofLittleEndian_lt front, by rw [littleEndian_ofLittleEndian]⟩
  · rintro ⟨fits, rfl⟩
    exact readNumber_append fits rest

theorem readBytes_eq_ok_iff {content : Bytes} :
    readBytes source = .ok (content, rest) ↔
      content.length ≤ maxFieldLength ∧ source = (Field.bytes content).encode ++ rest := by
  constructor
  · intro read
    rcases bind_eq_ok_iff.mp read with ⟨⟨length, rest⟩, counted, done⟩
    rcases readNumber_eq_ok_iff.mp counted with ⟨_, rfl⟩
    simp only at done
    split at done
    · cases done
    · next fits =>
      rcases readExact_eq_ok_iff.mp done with ⟨rfl, rfl⟩
      exact ⟨Nat.le_of_not_lt fits, by rw [Field.encode, List.append_assoc]⟩
  · rintro ⟨fits, rfl⟩
    exact readBytes_append fits rest

theorem readHeader_eq_ok_iff :
    readHeader source = .ok rest ↔ source = Field.header.encode ++ rest := by
  constructor
  · intro read
    rcases bind_eq_ok_iff.mp read with ⟨⟨front, after⟩, exact, done⟩
    rcases readExact_eq_ok_iff.mp exact with ⟨_, rfl⟩
    simp only at done
    split at done
    · cases done
    · next mark =>
      rcases bind_eq_ok_iff.mp done with ⟨⟨number, rest⟩, counted, last⟩
      rcases readNumber_eq_ok_iff.mp counted with ⟨_, rfl⟩
      by_cases found : UInt8.ofNat number = version
      · rw [if_neg (fun differs => differs found)] at last
        cases last
        rw [Field.encode, Decidable.not_not.mp mark, List.append_assoc, ← found]
        rfl
      · rw [if_pos found] at last
        cases last
  · rintro rfl
    exact readHeader_append rest

theorem readNumber_word64_eq_ok_iff {number : Nat} :
    readNumber 8 source = .ok (number, rest) ↔
      ∃ word : UInt64, word.toNat = number ∧ source = (Field.word64 word).encode ++ rest := by
  rw [readNumber_eq_ok_iff]
  constructor
  · rintro ⟨fits, rfl⟩
    have same : (UInt64.ofNat number).toNat = number := Nat.mod_eq_of_lt fits
    exact ⟨.ofNat number, same, by rw [Field.encode, same]⟩
  · rintro ⟨word, rfl, rfl⟩
    exact ⟨word.toNat_lt, rfl⟩

theorem readNumber_byte_eq_ok_iff {number : Nat} :
    readNumber 1 source = .ok (number, rest) ↔
      ∃ byte : UInt8, byte.toNat = number ∧ source = (Field.byte byte).encode ++ rest := by
  rw [readNumber_eq_ok_iff]
  constructor
  · rintro ⟨fits, rfl⟩
    exact ⟨.ofNat number, Nat.mod_eq_of_lt fits, rfl⟩
  · rintro ⟨byte, rfl, rfl⟩
    refine ⟨byte.toNat_lt, ?_⟩
    rw [littleEndian, littleEndian, UInt8.ofNat_toNat, Field.encode]

end Reader

end Larder.Snapshot
