/-!
# Finite maps

A finite map is a list of pairs in which no key occurs twice, the pair written last in front.  What
a map holds under a key is its view; `get?_insert` and `get?_erase` say what the operations do to
it.
-/

namespace Larder

/-- A list of pairs of a key and a value, in which no key occurs twice. -/
structure FiniteMap (Key Value : Type) where
  entries : List (Key × Value) := []
  /-- No key occurs twice. -/
  nodup : (entries.map Prod.fst).Nodup := by exact List.nodup_nil

namespace FiniteMap

variable {Key Value : Type}

instance : Inhabited (FiniteMap Key Value) := ⟨{}⟩

instance : EmptyCollection (FiniteMap Key Value) := ⟨{}⟩

theorem ext {left right : FiniteMap Key Value} (same : left.entries = right.entries) :
    left = right := by
  cases left
  cases right
  cases same
  rfl

instance [DecidableEq Key] [DecidableEq Value] : DecidableEq (FiniteMap Key Value) :=
  fun left right =>
    decidable_of_iff (left.entries = right.entries) ⟨ext, fun same => same ▸ rfl⟩

instance [Repr Key] [Repr Value] : Repr (FiniteMap Key Value) :=
  ⟨fun map => reprPrec map.entries⟩

def keys (map : FiniteMap Key Value) : List Key :=
  map.entries.map Prod.fst

def values (map : FiniteMap Key Value) : List Value :=
  map.entries.map Prod.snd

def size (map : FiniteMap Key Value) : Nat :=
  map.entries.length

def isEmpty (map : FiniteMap Key Value) : Bool :=
  map.entries.isEmpty

variable [DecidableEq Key]

/-- What a map holds under a key. -/
def get? (map : FiniteMap Key Value) (key : Key) : Option Value :=
  (map.entries.find? (fun entry => entry.1 = key)).map Prod.snd

/-- Whether a map holds anything under a key. -/
def contains (map : FiniteMap Key Value) (key : Key) : Bool :=
  (map.get? key).isSome

def erase (map : FiniteMap Key Value) (key : Key) : FiniteMap Key Value where
  entries := map.entries.filter (fun entry => entry.1 ≠ key)
  nodup := map.nodup.sublist (List.filter_sublist.map _)

/-- The map with a value under a key, in the place of an earlier one. -/
def insert (map : FiniteMap Key Value) (key : Key) (value : Value) : FiniteMap Key Value where
  entries := (key, value) :: (map.erase key).entries
  nodup := by
    refine List.nodup_cons.2 ⟨?_, (map.erase key).nodup⟩
    simp [erase]

/-- The map with another value under a key that is there, in the same place. -/
def replace (map : FiniteMap Key Value) (key : Key) (value : Value) : FiniteMap Key Value where
  entries := map.entries.map fun entry => (entry.1, if entry.1 = key then value else entry.2)
  nodup := by simpa [Function.comp_def] using map.nodup

/-- The map with a value under a key.  A key that is there keeps its place. -/
def put (map : FiniteMap Key Value) (key : Key) (value : Value) : FiniteMap Key Value :=
  if map.contains key then map.replace key value else map.insert key value

@[simp]
theorem get?_empty (key : Key) : (∅ : FiniteMap Key Value).get? key = none :=
  rfl

@[simp]
theorem get?_erase (map : FiniteMap Key Value) (key other : Key) :
    (map.erase key).get? other = if other = key then none else map.get? other := by
  unfold get? erase
  rw [List.find?_filter]
  split
  · next same =>
    subst same
    rw [List.find?_eq_none.2 (by simp)]
    rfl
  · next different =>
    congr 2
    funext entry
    by_cases found : entry.1 = other <;> simp [found, different]

@[simp]
theorem get?_insert (map : FiniteMap Key Value) (key other : Key) (value : Value) :
    (map.insert key value).get? other = if other = key then some value else map.get? other := by
  by_cases same : other = key
  · subst same
    simp [get?, insert]
  · have erased := get?_erase map key other
    simp only [same, if_false] at erased ⊢
    rw [← erased]
    simp [get?, insert, Ne.symm same]

@[simp]
theorem get?_replace (map : FiniteMap Key Value) (key other : Key) (value : Value) :
    (map.replace key value).get? other =
      if other = key then (map.get? other).map (fun _ => value) else map.get? other := by
  unfold get? replace
  rw [List.find?_map]
  by_cases same : other = key
  · subst same
    simp only [Function.comp_def, Option.map_map, if_true]
    cases found : map.entries.find? (fun entry => entry.1 = other) with
    | none => rfl
    | some entry =>
      have := List.find?_some found
      simp_all
  · simp only [Function.comp_def, Option.map_map, same, if_false]
    cases found : map.entries.find? (fun entry => entry.1 = other) with
    | none => rfl
    | some entry =>
      have : entry.1 = other := by simpa using List.find?_some found
      simp [this, same]

@[simp]
theorem get?_put (map : FiniteMap Key Value) (key other : Key) (value : Value) :
    (map.put key value).get? other = if other = key then some value else map.get? other := by
  unfold put
  split
  · next present =>
    rw [get?_replace]
    by_cases same : other = key
    · subst same
      obtain ⟨held, found⟩ := Option.isSome_iff_exists.1 present
      simp [found]
    · simp [same]
  · exact get?_insert map key other value

theorem mem_entries_iff {map : FiniteMap Key Value} {key : Key} {value : Value} :
    (key, value) ∈ map.entries ↔ map.get? key = some value := by
  obtain ⟨entries, nodup⟩ := map
  unfold get?
  dsimp only
  induction entries with
  | nil => simp
  | cons entry entries ih =>
    obtain ⟨first, content⟩ := entry
    simp only [List.map_cons, List.nodup_cons] at nodup
    by_cases same : first = key
    · subst same
      have absent : (first, value) ∉ entries := fun present =>
        nodup.1 (List.mem_map_of_mem present)
      simp [absent, eq_comm]
    · simp [same, Ne.symm same, ih nodup.2]

theorem mem_keys_iff {map : FiniteMap Key Value} {key : Key} :
    key ∈ map.keys ↔ map.contains key = true := by
  simp only [keys, contains, Option.isSome_iff_exists, ← mem_entries_iff, List.mem_map]
  constructor
  · rintro ⟨⟨_, value⟩, present, rfl⟩
    exact ⟨value, present⟩
  · rintro ⟨value, present⟩
    exact ⟨(key, value), present, rfl⟩

end FiniteMap

end Larder
