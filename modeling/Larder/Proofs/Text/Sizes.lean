import Larder.Text.Lossy
import Larder.Text.Printable
import Mathlib.Data.Nat.Digits.Defs
import Mathlib.Data.String.Basic

/-!
# Sizes of texts

How many characters messages have, and how many bytes these take: one to four each.  Damaged bytes
show no more characters than they are, and quoting makes at most ten of each.
-/

namespace Larder

namespace Bytes

theorem length_ofText (text : String) : (ofText text).length = text.utf8ByteSize := by
  simp [ofText]

theorem ofText_ne_nil {text : String} (some : text ≠ "") : ofText text ≠ [] := by
  intro none
  apply some
  rw [← String.utf8ByteSize_eq_zero_iff, ← length_ofText, none, List.length_nil]

theorem length_ofText_ofList (characters : List Char) :
    (ofText (String.ofList characters)).length = (characters.map Char.utf8Size).sum := by
  rw [length_ofText, String.utf8ByteSize_ofList]
  induction characters with
  | nil => rfl
  | cons character characters ih =>
      rw [String.utf8Len_cons, ih, List.map_cons, List.sum_cons, Nat.add_comm]

theorem length_ofText_bounds (text : String) :
    text.length ≤ (ofText text).length ∧ (ofText text).length ≤ 4 * text.length := by
  rw [← String.ofList_toList (s := text), length_ofText_ofList, String.length_ofList]
  induction text.toList with
  | nil => simp
  | cons character characters ih =>
      have least := Char.utf8Size_pos character
      have most := Char.utf8Size_le_four character
      simp only [List.map_cons, List.sum_cons, List.length_cons]
      omega

theorem length_ofText_join (parts : List String) :
    (ofText (String.join parts)).length = (parts.map fun part => (ofText part).length).sum := by
  induction parts with
  | nil => rfl
  | cons part parts ih =>
      rw [String.join_cons, ofText_append, List.length_append, ih, List.map_cons, List.sum_cons]

end Bytes

namespace Text

section Brief

/-- A text that takes few bytes: a few words or a number. -/
def Brief (text : String) : Prop :=
  (Bytes.ofText text).length ≤ 160

instance (text : String) : Decidable (Brief text) :=
  inferInstanceAs (Decidable ((Bytes.ofText text).length ≤ 160))

theorem brief_nat {number : Nat} (fits : number < 10 ^ 40) : Brief (toString number) := by
  have digits : (toString number).length ≤ 40 := Nat.repr_length number 40 (by decide) fits
  have bytes := (Bytes.length_ofText_bounds (toString number)).2
  rw [Brief]
  omega

theorem brief_word (number : UInt64) : Brief (toString number) :=
  brief_nat (Nat.lt_trans number.toNat_lt (by decide))

theorem brief_flag (flag : Bool) : Brief (toString flag) := by
  cases flag <;> decide

theorem length_ofText_join_le {parts : List String} (brief : ∀ part ∈ parts, Brief part) :
    (Bytes.ofText (String.join parts)).length ≤ 160 * parts.length := by
  rw [Bytes.length_ofText_join]
  induction parts with
  | nil => simp
  | cons part parts ih =>
      rw [List.forall_mem_cons] at brief
      have first : (Bytes.ofText part).length ≤ 160 := brief.1
      have others := ih brief.2
      rw [List.map_cons, List.sum_cons, List.length_cons]
      omega

end Brief

section Quoted

theorem length_lossyCharsFrom_le (shown : List Char) (bytes : Bytes) :
    (lossyCharsFrom shown bytes).length ≤ shown.length + bytes.length := by
  induction shown, bytes using lossyCharsFrom.induct with
  | case1 shown => simp [lossyCharsFrom]
  | case2 shown first rest none ih =>
      rw [lossyCharsFrom, none]
      simp only [List.length_cons] at ih ⊢
      omega
  | case3 shown first rest lead some further character ih =>
      rw [lossyCharsFrom, some]
      simp only [List.length_cons, List.length_drop] at ih ⊢
      apply Nat.le_trans ih
      omega

/-- Damaged bytes show no more characters than they are. -/
theorem length_ofBytesLossy_le (bytes : Bytes) : (ofBytesLossy bytes).length ≤ bytes.length := by
  rw [ofBytesLossy]
  split
  · next text decoded =>
    rw [← Bytes.ofText_of_toText? decoded]
    exact (Bytes.length_ofText_bounds text).1
  · rw [String.length_ofList]
    simpa using length_lossyCharsFrom_le [] bytes

theorem length_escapeCodePoint_le (character : Char) : (escapeCodePoint character).length ≤ 10 := by
  have most : character.toNat < 16 ^ 6 := by
    have valid : character.toNat.isValidChar := character.valid
    rcases valid with low | high <;> omega
  have digits := Nat.toDigits_length 16 character.toNat 6 (by decide) most
  simp only [escapeCodePoint, List.length_append, List.length_cons, List.length_nil]
  omega

theorem length_escape_le (character : Char) : (escape character).length ≤ 10 := by
  unfold escape
  split
  case h_7 =>
    split
    · simp
    · exact length_escapeCodePoint_le character
  all_goals simp

/-- Quoting makes at most ten characters of each, and adds two. -/
theorem length_quoted_le (text : String) : (quoted text).length ≤ 10 * text.length + 2 := by
  have inside : (text.toList.flatMap escape).length ≤ 10 * text.toList.length := by
    induction text.toList with
    | nil => simp
    | cons character characters ih =>
        have first := length_escape_le character
        simp only [List.flatMap_cons, List.length_append, List.length_cons]
        omega
  rw [String.length_toList] at inside
  simp only [quoted, String.length_ofList, List.length_append, List.length_cons, List.length_nil]
  omega

end Quoted

end Text

end Larder
