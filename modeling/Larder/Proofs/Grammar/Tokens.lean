import Larder.Grammar
import Larder.Proofs.Decimal
import Mathlib.Data.List.Forall2
import Mathlib.Data.List.TakeWhile

/-!
# What tokens stand for

Numbers, truth values, names and options as they are written, by relations between a token and
what it stands for.  A reader of the grammar accepts a token exactly when it stands for something,
and returns that.
-/

namespace Larder

namespace Decimal

/-- Tokens that stand for a number of 64 bits: a run of digits, after a plus sign or not. -/
inductive Written : Bytes → Nat → Prop where
  | plain {digits : Bytes} {number : Nat} (numeral : Numeral digits number)
      (fits : number ≤ Word64.largest) : Written digits number
  | signed {digits : Bytes} {number : Nat} (numeral : Numeral digits number)
      (fits : number ≤ Word64.largest) : Written (43 :: digits) number

variable {bytes : Bytes} {number : Nat}

/-- A token is read as a number exactly if it stands for it. -/
theorem unsigned?_eq_some_iff : unsigned? bytes = some number ↔ Written bytes number := by
  unfold unsigned?
  rw [Option.filter_eq_some_iff, digits?_eq_some_iff, decide_eq_true_iff]
  constructor
  · rintro ⟨numeral, fits⟩
    split at numeral
    · exact .signed numeral fits
    · exact .plain numeral fits
  · intro written
    cases written with
    | signed numeral fits => exact ⟨numeral, fits⟩
    | plain numeral fits =>
        refine ⟨?_, fits⟩
        split
        · next rest =>
          -- a plus sign is not a digit
          have impossible := numeral.all_isDigit
          simp only [List.all_cons, Bool.and_eq_true] at impossible
          exact absurd impossible.1 (by decide)
        · exact numeral

end Decimal

namespace Bytes

/-- Spellings of a word, given in small letters: each letter may be small or capital. -/
def Spells (word : String) (token : Bytes) : Prop :=
  List.Forall₂ (fun byte letter => byte = letter ∨ byte + 32 = letter) token (ofText word)

theorem upperByte_eq_iff {byte letter : UInt8} (small : 97 ≤ letter ∧ letter ≤ 122) :
    upperByte byte = upperByte letter ↔ byte = letter ∨ byte + 32 = letter := by
  rw [upperByte, upperByte, if_pos small]
  have bounded := byte.toNat_lt
  simp only [UInt8.le_iff_toNat_le, ← UInt8.toNat_inj] at small ⊢
  split <;> simp only [UInt8.toNat_sub, UInt8.toNat_add, UInt8.reduceToNat] at * <;> omega

theorem sameIgnoringCase_iff {token : Bytes} {word : String}
    (small : ∀ letter ∈ ofText word, 97 ≤ letter ∧ letter ≤ 122) :
    token.sameIgnoringCase (ofText word) = true ↔ Spells word token := by
  rw [sameIgnoringCase, beq_iff_eq, Spells]
  generalize ofText word = letters at small
  induction token generalizing letters with
  | nil => cases letters <;> simp
  | cons byte token ih =>
      cases letters with
      | nil => simp
      | cons letter letters =>
          rw [List.map_cons, List.map_cons, List.cons.injEq, List.forall₂_cons,
            upperByte_eq_iff (small letter (List.mem_cons_self ..)),
            ih letters fun other present => small other (List.mem_cons_of_mem _ present)]

end Bytes

namespace Grammar

open Decimal (Written)

/-- Tokens that announce a number of options, at most sixteen. -/
def Announces (token : Bytes) (count : Nat) : Prop :=
  Written token count ∧ count ≤ 16

/-- Tokens with text on both sides of their first equals sign. -/
structure Splits (token key value : Bytes) : Prop where
  whole : token = key ++ 61 :: value
  first : 61 ∉ key
  named : key ≠ []
  valued : value ≠ []

/-- Tokens that set an option of a list to a value. -/
structure Sets (known : List OptionKey) (token : Bytes) (option : OptionKey × Bytes) : Prop where
  splits : Splits token (Bytes.ofText option.1.text) option.2
  listed : option.1 ∈ known

/-- Tokens that stand for a name that is not too long. -/
def Names (limits : Limits) (token : Bytes) (name : String) : Prop :=
  token = Bytes.ofText name ∧ token.length ≤ limits.maxNameLength

/-- Tokens that stand for a lifetime. -/
def Lasts (limits : Limits) (token : Bytes) (ttl : Nat) : Prop :=
  Written token ttl ∧ 1 ≤ ttl ∧ ttl ≤ limits.maxLifetime

/-- Tokens that stand for a truth value. -/
inductive Says : Bytes → Bool → Prop where
  | yes {token : Bytes} (spelled : Bytes.Spells "true" token) : Says token true
  | no {token : Bytes} (spelled : Bytes.Spells "false" token) : Says token false

/-- Tokens that stand for a number of keys. -/
def Bounds (token : Bytes) (count : Nat) : Prop :=
  Written token count ∧ 1 ≤ count

variable {limits : Limits} {token : Bytes}

theorem exists_of_bind {ε α β : Type} {first : Except ε α} {rest : α → Except ε β} {result : β}
    (done : first >>= rest = .ok result) : ∃ value, first = .ok value ∧ rest value = .ok result := by
  cases first with
  | error error => cases done
  | ok value => exact ⟨value, rfl, done⟩

theorem optionCount?_eq_some_iff {count : Nat} :
    optionCount? token = some count ↔ Announces token count := by
  rw [optionCount?, Option.filter_eq_some_iff, Decimal.unsigned?_eq_some_iff, decide_eq_true_iff]
  rfl

/-- A count that is written without needless digits announces itself, if it is not too large. -/
theorem announces_ofNat_iff {number count : Nat} :
    Announces (Decimal.ofNat number) count ↔ count = number ∧ number ≤ maxOptions := by
  constructor
  · rintro ⟨written, few⟩
    suffices same : count = number from ⟨same, same ▸ few⟩
    generalize digits : Decimal.ofNat number = token at written
    cases written with
    | plain numeral fits => rw [← numeral.value_eq, ← digits, Decimal.value_ofNat]
    | signed numeral fits =>
        have plus : 43 ∈ Decimal.ofNat number := digits ▸ List.mem_cons_self
        exact absurd (Decimal.isDigit_of_mem_ofNat plus) (by decide)
  · rintro ⟨rfl, few⟩
    have fits : maxOptions ≤ Word64.largest := by decide
    exact ⟨.plain (Decimal.numeral_ofNat count) (Nat.le_trans few fits), few⟩

theorem readKey_eq_ok_iff {key : Bytes} :
    readKey limits token = .ok key ↔ token = key ∧ token.length ≤ limits.maxKeyLength := by
  rw [readKey]
  split <;> grind

theorem readValue_eq_ok_iff {value : Bytes} :
    readValue limits token = .ok value ↔ token = value ∧ token.length ≤ limits.maxValueLength := by
  rw [readValue]
  split <;> grind

theorem readName_eq_ok_iff {name : String} :
    readName limits token = .ok name ↔ Names limits token name := by
  rw [readName, Names, ← Bytes.toText?_eq_some_iff]
  split
  · grind
  · split <;> grind

theorem readTtl_eq_ok_iff {ttl : Nat} : readTtl limits token = .ok ttl ↔ Lasts limits token ttl := by
  rw [readTtl, Lasts, ← Decimal.unsigned?_eq_some_iff]
  split <;> grind

theorem readMaxKeys_eq_ok_iff {count : Nat} : readMaxKeys token = .ok count ↔ Bounds token count := by
  rw [readMaxKeys, Bounds, ← Decimal.unsigned?_eq_some_iff]
  split <;> grind

theorem letters_of_truth :
    Bytes.ofText "true" = [116, 114, 117, 101] ∧
      Bytes.ofText "false" = [102, 97, 108, 115, 101] := by
  decide +kernel

theorem sameIgnoringCase_true_iff :
    token.sameIgnoringCase (Bytes.ofText "true") = true ↔ Bytes.Spells "true" token := by
  apply Bytes.sameIgnoringCase_iff
  simp [letters_of_truth.1]

theorem sameIgnoringCase_false_iff :
    token.sameIgnoringCase (Bytes.ofText "false") = true ↔ Bytes.Spells "false" token := by
  apply Bytes.sameIgnoringCase_iff
  simp [letters_of_truth.2]

/-- No spelling of one truth value is one of the other. -/
theorem not_spells_both (yes : Bytes.Spells "true" token) : ¬Bytes.Spells "false" token := by
  intro no
  have lengths := yes.length_eq.symm.trans no.length_eq
  rw [letters_of_truth.1, letters_of_truth.2] at lengths
  cases lengths

theorem readBoolean_eq_ok_iff {truth : Bool} :
    readBoolean token = .ok truth ↔ Says token truth := by
  constructor
  · intro read
    rw [readBoolean] at read
    split at read
    · next spelled =>
      cases read
      exact .yes (sameIgnoringCase_true_iff.mp spelled)
    · split at read
      · next spelled =>
        cases read
        exact .no (sameIgnoringCase_false_iff.mp spelled)
      · cases read
  · intro said
    cases said with
    | yes spelled => rw [readBoolean, if_pos (sameIgnoringCase_true_iff.mpr spelled)]
    | no spelled =>
        have other := fun yes => not_spells_both (sameIgnoringCase_true_iff.mp yes) spelled
        rw [readBoolean, if_neg other, if_pos (sameIgnoringCase_false_iff.mpr spelled)]

section Options

theorem splits_iff {key value : Bytes} :
    Splits token key value ↔
      token.takeWhile (· ≠ 61) = key ∧ (token.dropWhile (· ≠ 61)).drop 1 = value ∧
        key ≠ [] ∧ value ≠ [] := by
  constructor
  · rintro ⟨rfl, first, named, valued⟩
    have plain : ∀ byte ∈ key, decide (byte ≠ 61) = true := fun byte present =>
      decide_eq_true fun equals => first (equals ▸ present)
    rw [List.takeWhile_append_of_pos plain, List.dropWhile_append_of_pos plain]
    exact ⟨List.append_nil key, rfl, named, valued⟩
  · rintro ⟨rfl, rfl, named, valued⟩
    have first : (61 : UInt8) ∉ token.takeWhile (· ≠ 61) := by
      intro present
      have other := List.mem_takeWhile_imp present
      exact of_decide_eq_true other rfl
    refine ⟨?_, first, named, valued⟩
    have whole : token = token.takeWhile (· ≠ 61) ++ token.dropWhile (· ≠ 61) :=
      List.takeWhile_append_dropWhile.symm
    have stops := List.head?_dropWhile_not (fun byte : UInt8 => decide (byte ≠ 61)) token
    cases stopped : token.dropWhile (· ≠ 61) with
    | nil => exact absurd (congrArg (List.drop 1) stopped) valued
    | cons byte rest =>
        rw [stopped] at whole stops
        have equals : byte = 61 := by simpa using stops
        rwa [equals] at whole

theorem Splits.unique {key value other otherValue : Bytes} (splits : Splits token key value)
    (again : Splits token other otherValue) : key = other ∧ value = otherValue := by
  have first := splits_iff.mp splits
  have second := splits_iff.mp again
  exact ⟨first.1.symm.trans second.1, first.2.1.symm.trans second.2.1⟩

theorem OptionKey.text_inj {key other : OptionKey}
    (same : Bytes.ofText key.text = Bytes.ofText other.text) : key = other := by
  revert same
  cases key <;> cases other <;> decide +kernel

theorem setting_of_splits {known : List OptionKey} {key value : Bytes}
    (splits : Splits token key value) :
    setting known token =
      match known.find? (fun option => Bytes.ofText option.text == key) with
      | some option => .ok (option, value)
      | none => .error .unknownArgument := by
  rcases splits_iff.mp splits with ⟨rfl, rfl, named, valued⟩
  exact if_neg (not_or.mpr ⟨named, valued⟩)

theorem setting_of_not_splits {known : List OptionKey}
    (malformed : ¬∃ key value, Splits token key value) :
    setting known token = .error .malformedArgument := by
  refine if_pos (Decidable.byContradiction fun sides => ?_)
  rw [not_or] at sides
  exact malformed ⟨_, _, splits_iff.mpr ⟨rfl, rfl, sides.1, sides.2⟩⟩

theorem find?_text_eq_some_iff {known : List OptionKey} {key : Bytes} {option : OptionKey} :
    known.find? (fun option => Bytes.ofText option.text == key) = some option ↔
      option ∈ known ∧ Bytes.ofText option.text = key := by
  constructor
  · intro found
    have same := List.find?_some found
    exact ⟨List.mem_of_find?_eq_some found, beq_iff_eq.mp same⟩
  · rintro ⟨listed, rfl⟩
    cases found : known.find? (fun other => Bytes.ofText other.text == Bytes.ofText option.text) with
    | none => exact absurd (beq_self_eq_true _) (List.find?_eq_none.mp found option listed)
    | some other =>
        have same := List.find?_some found
        rw [OptionKey.text_inj (beq_iff_eq.mp same)]

theorem setting_eq_ok_iff {known : List OptionKey} {option : OptionKey × Bytes} :
    setting known token = .ok option ↔ Sets known token option := by
  constructor
  · intro read
    by_cases formed : ∃ key value, Splits token key value
    · rcases formed with ⟨key, value, splits⟩
      rw [setting_of_splits splits] at read
      split at read
      · next found =>
        cases read
        have listed := find?_text_eq_some_iff.mp found
        exact ⟨listed.2 ▸ splits, listed.1⟩
      · cases read
    · rw [setting_of_not_splits formed] at read
      cases read
  · rintro ⟨splits, listed⟩
    rw [setting_of_splits splits, find?_text_eq_some_iff.mpr ⟨listed, rfl⟩]

theorem settings_eq_ok_iff {known : List OptionKey} {tokens : List Bytes} {options : Settings} :
    settings known tokens = .ok options ↔ List.Forall₂ (Sets known) tokens options := by
  induction tokens generalizing options with
  | nil =>
      rw [settings, List.forall₂_nil_left_iff]
      exact ⟨fun read => by cases read; rfl, fun none => by rw [none]⟩
  | cons token tokens ih =>
      rw [settings]
      constructor
      · intro read
        rcases exists_of_bind read with ⟨first, formed, read⟩
        rcases exists_of_bind read with ⟨others, rest, read⟩
        cases read
        exact .cons (setting_eq_ok_iff.mp formed) (ih.mp rest)
      · intro set
        cases set with
        | cons formed rest => rw [setting_eq_ok_iff.mpr formed, ih.mpr rest]; rfl

end Options

end Grammar

end Larder
