import Larder.Proofs.FiniteMap
import Larder.Recency
import Mathlib.Data.List.Perm.Basic

/-!
# Recency as a list without repetitions

The two maps of a well-formed order of use are inverse to each other, and every number in them was
given out before the next one.  So the order is that of a list without repetitions: a use moves a
key to its end, erasing takes a key out of it, and eviction takes away its head.
-/

namespace Larder.Recency

/-- Both maps say the same, and numbers to come are new. -/
structure WellFormed (recency : Recency) : Prop where
  /-- The number of a key leads back to that key. -/
  linked : ∀ key number,
    recency.index.get? key = some number ↔ recency.uses.get? number = some key
  below : ∀ number key, recency.uses.get? number = some key → number < recency.next

variable {recency : Recency}

theorem wellFormed_empty : WellFormed {} where
  linked := by
    intro key number
    constructor <;> exact nofun
  below := by
    intro number key found
    cases found

theorem WellFormed.get?_next (wellFormed : recency.WellFormed) :
    recency.uses.get? recency.next = none := by
  cases found : recency.uses.get? recency.next with
  | none => rfl
  | some key =>
      have := wellFormed.below _ _ found
      omega

theorem mem_toList_iff {key : Bytes} :
    key ∈ recency.toList ↔ ∃ number, recency.uses.get? number = some key := by
  simp [toList, FiniteMap.values, ← FiniteMap.mem_entries_iff]

theorem WellFormed.mem_toList (wellFormed : recency.WellFormed) {key : Bytes} :
    key ∈ recency.toList ↔ recency.contains key = true := by
  simp only [mem_toList_iff, ← wellFormed.linked, contains, FiniteMap.contains_eq_true_iff]

/-- A key is used once: two numbers of the same key are the same. -/
theorem WellFormed.nodup_toList (wellFormed : recency.WellFormed) : recency.toList.Nodup := by
  apply List.nodup_reverse.mpr
  apply List.Nodup.map_on
  · rintro ⟨first, key⟩ firstMem ⟨second, other⟩ secondMem same
    obtain rfl : key = other := same
    have firstNumber := (wellFormed.linked _ _).mpr (FiniteMap.mem_entries_iff.mp firstMem)
    have secondNumber := (wellFormed.linked _ _).mpr (FiniteMap.mem_entries_iff.mp secondMem)
    rw [firstNumber] at secondNumber
    cases secondNumber
    rfl
  · exact recency.uses.nodup.of_map

theorem WellFormed.length_toList (wellFormed : recency.WellFormed) :
    recency.toList.length = recency.size := by
  rw [size, ← FiniteMap.length_keys]
  apply List.Perm.length_eq
  apply (List.perm_ext_iff_of_nodup wellFormed.nodup_toList recency.index.nodup_keys).mpr
  intro key
  rw [wellFormed.mem_toList, FiniteMap.mem_keys_iff]
  rfl

section Erase

/-- Taking away the entry of a key's number takes away exactly that key. -/
theorem WellFormed.values_erase (wellFormed : recency.WellFormed) {key : Bytes} {number : Nat}
    (used : recency.index.get? key = some number) :
    (recency.uses.erase number).values = recency.uses.values.filter (· ≠ key) := by
  simp only [FiniteMap.values, FiniteMap.erase, List.filter_map]
  congr 1
  apply List.filter_congr
  rintro ⟨place, other⟩ present
  have link := (wellFormed.linked other place).mpr (FiniteMap.mem_entries_iff.mp present)
  simp only [Function.comp_apply, decide_eq_decide, ne_eq, not_iff_not]
  constructor
  · rintro rfl
    have unlink := (wellFormed.linked _ _).mp used
    rw [FiniteMap.mem_entries_iff.mp present] at unlink
    exact Option.some.inj unlink
  · rintro rfl
    rw [used] at link
    exact (Option.some.inj link).symm

theorem WellFormed.toList_erase (wellFormed : recency.WellFormed) (key : Bytes) :
    (recency.erase key).toList = recency.toList.filter (· ≠ key) := by
  cases used : recency.index.get? key with
  | some number =>
      simp only [erase, used, toList, wellFormed.values_erase used, List.filter_reverse]
  | none =>
      simp only [erase, used]
      symm
      apply List.filter_eq_self.mpr
      intro other present
      rcases mem_toList_iff.mp present with ⟨number, found⟩
      have link := (wellFormed.linked _ _).mpr found
      simp only [ne_eq, decide_eq_true_eq]
      rintro rfl
      simp [used] at link

theorem WellFormed.erase (wellFormed : recency.WellFormed) (key : Bytes) :
    (recency.erase key).WellFormed := by
  cases used : recency.index.get? key with
  | none => simpa only [Recency.erase, used] using wellFormed
  | some number =>
      simp only [Recency.erase, used]
      have unlink := (wellFormed.linked _ _).mp used
      refine ⟨?_, ?_⟩
      · intro other place
        simp only [FiniteMap.get?_erase]
        by_cases sameKey : other = key
        · subst other
          by_cases sameNumber : place = number
          · simp [sameNumber]
          · simp only [if_true, sameNumber, if_false, ← wellFormed.linked, used]
            simp [Ne.symm sameNumber]
        · simp only [sameKey, if_false, wellFormed.linked]
          by_cases sameNumber : place = number
          · subst place
            simp [unlink, Ne.symm sameKey]
          · simp [sameNumber]
      · intro place other found
        simp only [FiniteMap.get?_erase] at found
        split at found
        · cases found
        · exact wellFormed.below _ _ found

@[simp]
theorem next_erase (key : Bytes) : (recency.erase key).next = recency.next := by
  unfold Recency.erase
  split <;> rfl

@[simp]
theorem index_erase (key : Bytes) : (recency.erase key).index = recency.index.erase key := by
  cases used : recency.index.get? key with
  | some number => simp only [erase, used]
  | none => simp only [erase, used, FiniteMap.erase_eq_self used]

end Erase

section Use

/-- A use erases the key and puts it under the next number. -/
theorem WellFormed.uses_use (wellFormed : recency.WellFormed) (key : Bytes) :
    (recency.use key).uses.entries =
      (recency.next, key) :: (recency.erase key).uses.entries := by
  have fresh : (recency.erase key).uses.get? recency.next = none := by
    have := (wellFormed.erase key).get?_next
    rwa [next_erase] at this
  have same : (recency.use key).uses = (recency.erase key).uses.insert recency.next key := by
    cases used : recency.index.get? key with
    | some number => simp only [Recency.use, Recency.erase, used]
    | none => simp only [Recency.use, Recency.erase, used]
  rw [same]
  simp only [FiniteMap.insert, FiniteMap.erase_eq_self fresh]

theorem WellFormed.toList_use (wellFormed : recency.WellFormed) (key : Bytes) :
    (recency.use key).toList = recency.toList.filter (· ≠ key) ++ [key] := by
  rw [← wellFormed.toList_erase]
  simp [toList, FiniteMap.values, wellFormed.uses_use]

theorem WellFormed.get?_uses_use (wellFormed : recency.WellFormed) (key : Bytes) (number : Nat) :
    (recency.use key).uses.get? number =
      if number = recency.next then some key else (recency.erase key).uses.get? number := by
  simp only [FiniteMap.get?, wellFormed.uses_use]
  by_cases same : number = recency.next
  · simp [same]
  · simp [same, Ne.symm same]

@[simp]
theorem next_use (key : Bytes) : (recency.use key).next = recency.next + 1 :=
  rfl

theorem WellFormed.use (wellFormed : recency.WellFormed) (key : Bytes) :
    (recency.use key).WellFormed := by
  have erased := wellFormed.erase key
  have index (other : Bytes) : (recency.use key).index.get? other =
      if other = key then some recency.next else (recency.erase key).index.get? other := by
    by_cases same : other = key <;> simp [Recency.use, same]
  refine ⟨?_, ?_⟩
  · intro other number
    rw [index, wellFormed.get?_uses_use]
    by_cases sameKey : other = key
    · subst other
      by_cases sameNumber : number = recency.next
      · simp [sameNumber]
      · simp only [if_true, sameNumber, if_false, ← erased.linked]
        simp [Ne.symm sameNumber]
    · simp only [sameKey, if_false]
      by_cases sameNumber : number = recency.next
      · subst number
        have fresh := erased.get?_next
        rw [next_erase] at fresh
        simp only [erased.linked, fresh, if_true, Option.some.injEq]
        constructor
        · intro impossible
          cases impossible
        · exact fun same => absurd same.symm sameKey
      · simp only [sameNumber, if_false]
        exact erased.linked other number
  · intro number other found
    rw [wellFormed.get?_uses_use] at found
    rw [next_use]
    split at found
    · omega
    · have := erased.below _ _ found
      rw [next_erase] at this
      omega

end Use

section Evict

/-- The key that is evicted is the head of the list, and evicting erases it. -/
theorem WellFormed.evict?_eq_some (wellFormed : recency.WellFormed) {key : Bytes}
    {keys : List Bytes} (order : recency.toList = key :: keys) :
    recency.evict? = some (key, recency.erase key) := by
  have reversed : recency.uses.entries.map Prod.snd = keys.reverse ++ [key] := by
    simpa [toList, FiniteMap.values, List.reverse_eq_iff] using order
  rcases List.map_eq_append_iff.mp reversed with ⟨init, last, split, _, lastKey⟩
  rcases List.map_eq_singleton_iff.mp lastKey with ⟨⟨number, other⟩, rfl, sameKey⟩
  obtain rfl : other = key := sameKey
  have used : recency.index.get? other = some number := by
    apply (wellFormed.linked _ _).mpr
    apply FiniteMap.mem_entries_iff.mp
    simp [split]
  simp [evict?, oldest?, split, Recency.erase, used]

/-- Erasing the key that is evicted leaves the keys behind it. -/
theorem WellFormed.toList_erase_of_cons (wellFormed : recency.WellFormed) {key : Bytes}
    {keys : List Bytes} (order : recency.toList = key :: keys) :
    (recency.erase key).toList = keys := by
  have distinct := wellFormed.nodup_toList
  rw [order, List.nodup_cons] at distinct
  rw [wellFormed.toList_erase, order, List.filter_cons_of_neg (by simp)]
  apply List.filter_eq_self.mpr
  intro other present
  simp only [ne_eq, decide_eq_true_eq]
  rintro rfl
  exact distinct.1 present

theorem evict?_eq_none (order : recency.toList = []) : recency.evict? = none := by
  have noUses : recency.uses.entries = [] := by
    simpa [toList, FiniteMap.values] using order
  simp [evict?, oldest?, noUses]

end Evict

section Clear

theorem wellFormed_clear : recency.clear.WellFormed where
  linked := wellFormed_empty.linked
  below := by
    intro number key found
    cases found

end Clear

end Larder.Recency
