import Larder.FiniteMap
import Mathlib.Data.List.Nodup
import Mathlib.Data.List.Perm.Subperm

/-!
# Keys of finite maps

How inserting and erasing change the keys of a map and their number.  A map in which a key is
missing is the same without it.
-/

namespace Larder.FiniteMap

variable {Key Value : Type} (map : FiniteMap Key Value)

theorem nodup_keys : map.keys.Nodup :=
  map.nodup

theorem length_keys : map.keys.length = map.size := by
  simp [keys, size]

variable [DecidableEq Key]

@[simp]
theorem contains_erase (key other : Key) :
    (map.erase key).contains other = (decide (other ≠ key) && map.contains other) := by
  by_cases same : other = key <;> simp [contains, same]

@[simp]
theorem contains_insert (key other : Key) (value : Value) :
    (map.insert key value).contains other = (decide (other = key) || map.contains other) := by
  by_cases same : other = key <;> simp [contains, same]

theorem get?_foldl_erase (keys : List Key) (key : Key) [member : Decidable (key ∈ keys)] :
    (keys.foldl erase map).get? key = if key ∈ keys then none else map.get? key := by
  revert member
  induction keys generalizing map with
  | nil => simp
  | cons first rest ih =>
      intro member
      rw [List.foldl_cons, ih, get?_erase]
      by_cases same : key = first <;> simp [same]

variable {map}

theorem contains_eq_true_iff {key : Key} :
    map.contains key = true ↔ ∃ value, map.get? key = some value :=
  Option.isSome_iff_exists

theorem contains_of_get? {key : Key} {value : Value} (held : map.get? key = some value) :
    map.contains key = true :=
  contains_eq_true_iff.mpr ⟨value, held⟩

theorem erase_eq_self {key : Key} (absent : map.get? key = none) : map.erase key = map := by
  apply ext
  apply List.filter_eq_self.mpr
  rintro ⟨first, value⟩ present
  have held := mem_entries_iff.mp present
  simp only [ne_eq, decide_eq_true_eq]
  rintro rfl
  simp [absent] at held

theorem size_insert_of_absent {key : Key} (absent : map.contains key = false) (value : Value) :
    (map.insert key value).size = map.size + 1 := by
  rw [contains, Option.isSome_eq_false_iff, Option.isNone_iff_eq_none] at absent
  exact congrArg (·.size + 1) (erase_eq_self absent)

theorem size_erase_le (map : FiniteMap Key Value) (key : Key) : (map.erase key).size ≤ map.size :=
  List.length_filter_le _ _

theorem size_le_of_contains {Other : Type} {other : FiniteMap Key Other}
    (inside : ∀ key, map.contains key = true → other.contains key = true) :
    map.size ≤ other.size := by
  rw [← length_keys, ← length_keys]
  apply List.Subperm.length_le
  apply List.subperm_of_subset map.nodup_keys
  intro key present
  rw [mem_keys_iff] at present ⊢
  exact inside key present

/-- What a map holds does not depend on the order of its entries. -/
theorem get?_of_perm {other : FiniteMap Key Value} (same : map.entries.Perm other.entries)
    (key : Key) : map.get? key = other.get? key := by
  apply Option.ext
  intro value
  rw [← mem_entries_iff, ← mem_entries_iff]
  exact same.mem_iff

theorem contains_of_perm {other : FiniteMap Key Value} (same : map.entries.Perm other.entries)
    (key : Key) : map.contains key = other.contains key := by
  rw [contains, contains, get?_of_perm same]

end Larder.FiniteMap
