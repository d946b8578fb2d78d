import Larder.Snapshot.Archive
import Mathlib.Data.List.TakeWhile

/-!
# Names of snapshot files

The file of a stash is named for the bytes of its name, so stashes of different names have
different files.  A draft has another ending, so it is never taken for a snapshot.
-/

namespace Larder.Path

theorem splitName_append {stem ending : String} (named : stem ≠ "") (ends : ending ≠ "")
    (plain : '.' ∉ ending.toList) :
    splitName (stem ++ "." ++ ending) = (stem, some ending) := by
  have characters : (stem ++ "." ++ ending).toList = stem.toList ++ '.' :: ending.toList := by
    simp
  have backwards : ((stem ++ "." ++ ending).toList.reverse.takeWhile (· ≠ '.')).reverse =
      ending.toList := by
    rw [characters, List.reverse_append, List.reverse_cons, List.append_assoc,
      List.takeWhile_append_of_pos]
    · simp
    · intro character present
      rw [List.mem_reverse] at present
      rw [decide_eq_true_eq]
      rintro rfl
      exact plain present
  have front : (stem ++ "." ++ ending).toList.take
      ((stem ++ "." ++ ending).toList.length - ending.toList.length - 1) = stem.toList := by
    have size : (stem ++ "." ++ ending).toList.length - ending.toList.length - 1 =
        stem.toList.length := by
      rw [characters, List.length_append, List.length_cons]
      omega
    rw [size, characters, List.take_left]
  have some : stem.toList ≠ [] := by
    simpa using named
  have behind : ending.toList ≠ [] := by
    simpa using ends
  have apart : stem ++ "." ++ ending ≠ ".." := by
    intro same
    have sizes := congrArg (List.length ∘ String.toList) same
    have stemSize := List.length_pos_iff.mpr some
    have endingSize := List.length_pos_iff.mpr behind
    simp only [Function.comp_apply, characters, List.length_append, List.length_cons] at sizes
    have points : "..".toList.length = 2 := rfl
    omega
  have longer : ending.toList.length ≠ (stem ++ "." ++ ending).toList.length := by
    rw [characters, List.length_append, List.length_cons]
    omega
  simp only [splitName, backwards, front, some, apart, longer, false_or, if_false,
    String.ofList_toList]

theorem parts?_of_plain {name : String} (plain : '/' ∉ name.toList) (named : ¬isIdle name) :
    parts? name = some { front := [], name, behind := [] } := by
  have whole : segments name = [name] := by
    rw [segments, cut_of_not_mem plain, List.map_singleton, String.ofList_toList]
  simp [parts?, whole, named]

theorem withEnding_of_plain {name ending : String} (plain : '/' ∉ name.toList)
    (named : ¬isIdle name) (nameStays : name ≠ "..") (stemStays : (splitName name).1 ≠ ".") :
    withEnding name ending = (splitName name).1 ++ "." ++ ending := by
  simp only [withEnding, parts?_of_plain plain named]
  rw [if_neg nameStays, if_neg (not_and_of_not_left _ stemStays), List.nil_append, ofSegments,
    String.intercalate_singleton]

end Larder.Path

namespace Larder.Archive

open Snapshot

/-- The bytes of a text as hexadecimal digits. -/
def hexText (text : String) : String :=
  String.ofList ((Bytes.ofText text).flatMap hexByte)

theorem fileName_eq (name : String) : fileName name = hexText name ++ "." ++ ending :=
  rfl

section Digits

theorem digitChar_injective (first second : Fin 16)
    (same : Nat.digitChar first = Nat.digitChar second) : first = second := by
  revert first second
  decide

theorem hexByte_injective {first second : UInt8} (same : hexByte first = hexByte second) :
    first = second := by
  have range (byte : UInt8) : byte.toNat / 16 < 16 := by
    have := byte.toNat_lt
    omega
  simp only [hexByte, List.cons.injEq, and_true] at same
  have high := digitChar_injective ⟨first.toNat / 16, range first⟩ ⟨second.toNat / 16, range second⟩
    same.1
  have low := digitChar_injective ⟨first.toNat % 16, Nat.mod_lt _ (by decide)⟩
    ⟨second.toNat % 16, Nat.mod_lt _ (by decide)⟩ same.2
  rw [Fin.mk.injEq] at high low
  apply UInt8.toNat_inj.mp
  omega

theorem flatMap_hexByte_injective {first second : Bytes}
    (same : first.flatMap hexByte = second.flatMap hexByte) : first = second := by
  induction first generalizing second with
  | nil =>
      cases second with
      | nil => rfl
      | cons byte rest => simp [hexByte] at same
  | cons byte rest ih =>
      cases second with
      | nil => simp [hexByte] at same
      | cons other others =>
          rw [List.flatMap_cons, List.flatMap_cons] at same
          rcases List.append_inj same rfl with ⟨front, behind⟩
          rw [hexByte_injective front, ih behind]

theorem length_flatMap_hexByte (bytes : Bytes) :
    (bytes.flatMap hexByte).length = 2 * bytes.length := by
  induction bytes with
  | nil => rfl
  | cons byte rest ih =>
      rw [List.flatMap_cons, List.length_append, ih, hexByte, List.length_cons]
      simp only [List.length_cons, List.length_nil]
      omega

theorem isHex_of_mem {text : String} {character : Char}
    (present : character ∈ (hexText text).toList) :
    ∃ digit : Fin 16, character = Nat.digitChar digit := by
  rw [hexText, String.toList_ofList, List.mem_flatMap] at present
  rcases present with ⟨byte, _, isDigit⟩
  have := byte.toNat_lt
  simp only [hexByte, List.mem_cons, List.not_mem_nil, or_false] at isDigit
  rcases isDigit with rfl | rfl
  · exact ⟨⟨byte.toNat / 16, by omega⟩, rfl⟩
  · exact ⟨⟨byte.toNat % 16, by omega⟩, rfl⟩

theorem notMem_hexText {character : Char}
    (other : ∀ digit : Fin 16, character ≠ Nat.digitChar digit) (text : String) :
    character ∉ (hexText text).toList := by
  intro present
  rcases isHex_of_mem present with ⟨digit, same⟩
  exact other digit same

theorem hexText_eq_empty_iff {text : String} : hexText text = "" ↔ text = "" := by
  constructor
  · intro empty
    have digits : (Bytes.ofText text).flatMap hexByte = (Bytes.ofText "").flatMap hexByte := by
      have := congrArg String.toList empty
      rwa [hexText, String.toList_ofList] at this
    have bytes := congrArg Bytes.toText? (flatMap_hexByte_injective digits)
    rwa [Bytes.toText?_ofText, Bytes.toText?_ofText, Option.some.injEq] at bytes
  · rintro rfl
    rfl

end Digits

section File

variable {name other : String}

theorem fileName_injective (same : fileName name = fileName other) : name = other := by
  have characters := congrArg String.toList same
  simp only [fileName, String.toList_append, String.toList_ofList, List.append_assoc] at characters
  have bytes := congrArg Bytes.toText?
    (flatMap_hexByte_injective (List.append_cancel_right characters))
  rwa [Bytes.toText?_ofText, Bytes.toText?_ofText, Option.some.injEq] at bytes

/-- Two digits for every byte of the name, and the ending. -/
theorem length_fileName (name : String) :
    (fileName name).length = 2 * (Bytes.ofText name).length + 5 := by
  rw [fileName_eq, hexText, String.length_append, String.length_append, String.length_ofList,
    length_flatMap_hexByte]
  rfl

theorem splitName_fileName (named : name ≠ "") :
    Path.splitName (fileName name) = (hexText name, some ending) := by
  rw [fileName_eq]
  apply Path.splitName_append
  · rwa [ne_eq, hexText_eq_empty_iff]
  · decide
  · decide

theorem isSnapshot_fileName (named : name ≠ "") : isSnapshot (fileName name) = true := by
  rw [isSnapshot, splitName_fileName named]
  rfl

theorem not_isIdle_of_length {text : String} (long : 1 < text.toList.length) :
    ¬Path.isIdle text := by
  intro idle
  rcases Bool.or_eq_true_iff.mp idle with same | same
  · rw [beq_iff_eq.mp same] at long
    exact absurd long (by decide)
  · rw [beq_iff_eq.mp same] at long
    exact absurd long (by decide)

/-- Writers of one file have one draft. -/
theorem draftFile_eq {current : Writer} (file : current.file = fileName name) :
    current.draftFile = (writer name).draftFile := by
  rw [Writer.draftFile, file]
  rfl

theorem ending_draftFile (name : String) :
    (Path.splitName (writer name).draftFile).2 = some "tmp" := by
  by_cases named : name = ""
  · subst named
    decide
  · have plain : '/' ∉ (fileName name).toList := by
      rw [fileName_eq, String.toList_append, String.toList_append, List.mem_append, List.mem_append,
        not_or, not_or]
      exact ⟨⟨notMem_hexText (by decide) name, by decide⟩, by decide⟩
    have points : '.' ∉ (hexText name).toList := notMem_hexText (by decide) name
    have long : 4 ≤ (fileName name).toList.length := by
      rw [fileName_eq, String.toList_append, List.length_append]
      exact Nat.le_add_left _ _
    have stem : (Path.splitName (fileName name)).1 = hexText name := by
      rw [splitName_fileName named]
    have file : (writer name).draftFile = hexText name ++ ".snap" ++ "." ++ "tmp" := by
      rw [Writer.draftFile, writer, Path.withEnding_of_plain plain, stem]
      · rw [String.append_assoc, String.append_assoc, String.append_assoc]
        rfl
      · exact not_isIdle_of_length (by omega)
      · intro same
        rw [same] at long
        exact absurd long (by decide)
      · rw [stem]
        intro same
        rw [same] at points
        exact points (by decide)
    rw [file, Path.splitName_append]
    · intro empty
      have := congrArg String.toList empty
      simp at this
    · decide
    · decide

/-- A draft never counts as a snapshot. -/
theorem not_isSnapshot_draftFile (name : String) : isSnapshot (writer name).draftFile = false := by
  rw [isSnapshot, ending_draftFile]
  decide

/-- The draft of a stash is no file of a stash. -/
theorem draftFile_ne_fileName (name other : String) : (writer name).draftFile ≠ fileName other := by
  intro same
  have draft := ending_draftFile name
  rw [same] at draft
  by_cases named : other = ""
  · subst named
    exact absurd draft (by decide)
  · rw [splitName_fileName named, Option.some.injEq] at draft
    exact absurd draft (by decide)

end File

end Larder.Archive
