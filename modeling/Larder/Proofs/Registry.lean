import Larder.Proofs.FiniteMap
import Larder.Proofs.Stash.Restoring
import Larder.Registry

/-!
# Restoring a registry

Names that are registered lead to stashes of their own.  So images of different names, for which
there is room, are restored one after another, each into a stash that the others leave alone.
-/

namespace Larder.Registry

/-- Every name that is registered leads to a stash, and no other name leads to that one. -/
structure Separate (registry : Registry) : Prop where
  known : ∀ {name handle}, registry.names.get? name = some handle →
    handle < registry.stashes.length
  apart : ∀ {name other handle}, registry.names.get? name = some handle →
    registry.names.get? other = some handle → name = other

variable {registry : Registry} {name other : String} {handle : Handle}

theorem find?_of_get? (led : registry.names.get? name = some handle) :
    registry.find? name = registry.stashes[handle]? := by
  rw [find?, handle?, led]
  rfl

theorem find?_of_absent (absent : registry.names.get? name = none) :
    registry.find? name = none := by
  rw [find?, handle?, absent]
  rfl

theorem put_self {stash : Stash} (found : registry.stashes[handle]? = some stash) :
    registry.put handle stash = registry := by
  rcases List.getElem?_eq_some_iff.mp found with ⟨inside, same⟩
  rw [put, ← same, List.set_getElem_self]

section Refused

variable {next : Registry} {error : Error}

/-- A refused creation leaves the registry as it was. -/
theorem eq_of_create_error {now : Nat} {options : Stash.Options}
    (refused : registry.create now name options = (.error error, next)) : next = registry := by
  rw [create] at refused
  split at refused
  · cases refused
  · split at refused <;> cases refused
    rfl

/-- To take out a name that is not there changes nothing. -/
theorem drop_of_absent (another : name ≠ defaultName) (absent : registry.names.get? name = none) :
    registry.drop name = (.error .notFound, registry) := by
  simp only [drop, if_neg another, handle?, absent, FiniteMap.erase_eq_self absent]

/-- A stash that is not dropped stays, and so does everything else. -/
theorem eq_of_drop_error (refused : registry.drop name = (.error error, next)) :
    next = registry := by
  by_cases isDefault : name = defaultName
  · rw [drop, if_pos isDefault] at refused
    cases refused
    rfl
  · cases led : registry.names.get? name with
    | none =>
        rw [drop_of_absent isDefault led] at refused
        cases refused
        rfl
    | some handle =>
        simp only [drop, if_neg isDefault, handle?, led] at refused
        cases refused

end Refused

namespace Separate

theorem isSome_find? (separate : registry.Separate) (name : String) :
    (registry.find? name).isSome = registry.names.contains name := by
  rw [FiniteMap.contains]
  cases led : registry.names.get? name with
  | none =>
      rw [find?_of_absent led]
      rfl
  | some handle =>
      rw [find?_of_get? led, List.getElem?_eq_getElem (separate.known led)]
      rfl

section Register

variable (separate : registry.Separate) (now : Nat) (name : String) (options : Stash.Options)

include separate

theorem register : (registry.register now name options).Separate where
  known {other handle} led := by
    simp only [Registry.register, FiniteMap.get?_insert, List.length_append,
      List.length_singleton] at led ⊢
    split at led
    · cases led
      exact Nat.lt_succ_self _
    · exact Nat.lt_succ_of_lt (separate.known led)
  apart {first second handle} led again := by
    simp only [Registry.register, FiniteMap.get?_insert] at led again
    split at led
    · next same =>
      split at again
      · next same' => exact same.trans same'.symm
      · cases led
        exact absurd (separate.known again) (Nat.lt_irrefl _)
    · split at again
      · cases again
        exact absurd (separate.known led) (Nat.lt_irrefl _)
      · exact separate.apart led again

theorem find?_register (other : String) :
    (registry.register now name options).find? other =
      if other = name then some (Stash.create now name options) else registry.find? other := by
  have led : (registry.register now name options).names.get? other =
      if other = name then some registry.stashes.length else registry.names.get? other :=
    FiniteMap.get?_insert _ _ _ _
  by_cases same : other = name
  · rw [if_pos same] at led ⊢
    rw [find?_of_get? led]
    exact List.getElem?_concat_length
  · rw [if_neg same] at led ⊢
    cases before : registry.names.get? other with
    | none => rw [find?_of_absent before, find?_of_absent (led.trans before)]
    | some handle =>
        rw [find?_of_get? before, find?_of_get? (led.trans before)]
        exact List.getElem?_append_left (separate.known before)

end Register

theorem put (separate : registry.Separate) (handle : Handle) (stash : Stash) :
    (registry.put handle stash).Separate where
  known led := by
    rw [Registry.put, List.length_set]
    exact separate.known led
  apart := separate.apart

theorem find?_put (separate : registry.Separate) (led : registry.names.get? name = some handle)
    (stash : Stash) (other : String) :
    (registry.put handle stash).find? other =
      if other = name then some stash else registry.find? other := by
  by_cases same : other = name
  · subst same
    rw [if_pos rfl]
    refine (@find?_of_get? (registry.put handle stash) _ _ led).trans ?_
    exact List.getElem?_set_self (separate.known led)
  · rw [if_neg same]
    cases before : registry.names.get? other with
    | none =>
        rw [find?_of_absent before]
        exact @find?_of_absent (registry.put handle stash) _ before
    | some place =>
        have different : handle ≠ place := by
          rintro rfl
          exact same (separate.apart before led)
        rw [find?_of_get? before]
        refine (@find?_of_get? (registry.put handle stash) _ _ before).trans ?_
        exact List.getElem?_set_ne different

end Separate

section Start

variable (now maxStashes : Nat) (defaults : StashDefaults) (persistent : Bool)

/-- A registry in which no name is registered. -/
def vacant (maxStashes : Nat) (defaults : StashDefaults) (persistent : Bool) : Registry :=
  { limit := max 1 maxStashes, defaults, persistent }

theorem separate_vacant : (vacant maxStashes defaults persistent).Separate := by
  constructor
  · intro name handle led
    cases led
  · intro name other handle led
    cases led

theorem separate_start : (start now maxStashes defaults persistent).Separate :=
  (separate_vacant maxStashes defaults persistent).register now defaultName _

theorem contains_start (name : String) :
    (start now maxStashes defaults persistent).names.contains name = decide (name = defaultName) :=
  (FiniteMap.contains_insert _ _ _ _).trans (Bool.or_false _)

theorem find?_start (name : String) :
    (start now maxStashes defaults persistent).find? name =
      if name = defaultName then
        some (Stash.create now defaultName
          { maxKeys := defaults.maxKeys, snapshots := defaults.snapshots })
      else none :=
  (separate_vacant maxStashes defaults persistent).find?_register now defaultName _ name

end Start

section Restore

/-- What becomes of a registry into which a stash is restored. -/
structure Restored (registry : Registry) (now : Nat) (image : Image) (next : Registry) : Prop where
  separate : next.Separate
  limit : next.limit = registry.limit
  size : next.names.size = registry.names.size +
    if registry.names.contains image.name then 0 else 1
  contains : ∀ name, next.names.contains name =
    (decide (name = image.name) || registry.names.contains name)
  find? : ∀ name, next.find? name =
    if name = image.name then
      some (((registry.find? image.name).getD
        (Stash.create now image.name (restoredOptions image))).restoreAll image.entries)
    else registry.find? name

theorem restoreImage_of_create {now : Nat} {image : Image} {ready : Registry} {stash : Stash}
    (created : registry.create now image.name (restoredOptions image) = (.ok (), ready))
    (led : ready.names.get? image.name = some handle)
    (found : ready.find? image.name = some stash) :
    registry.restoreImage now image =
      (true, ready.put handle (stash.restoreAll image.entries)) := by
  rw [find?_of_get? led] at found
  simp only [restoreImage, created, handle?, led, restoreEntries, stash?, found]
  rfl

/-- A stash is restored if it is registered or there is room for another one. -/
theorem Separate.exists_restoreImage (separate : registry.Separate) (now : Nat) {image : Image}
    (room : registry.names.contains image.name = true ∨ registry.names.size < registry.limit) :
    ∃ next, registry.restoreImage now image = (true, next) ∧ registry.Restored now image next := by
  cases present : registry.names.contains image.name with
  | true =>
      rcases FiniteMap.contains_eq_true_iff.mp present with ⟨handle, led⟩
      have known := separate.isSome_find? image.name
      rw [present] at known
      rcases Option.isSome_iff_exists.mp known with ⟨stash, found⟩
      refine ⟨_, restoreImage_of_create (if_pos present) led found, separate.put _ _, rfl, ?_, ?_,
        ?_⟩
      · rw [if_pos present]
        rfl
      · intro name
        change registry.names.contains name = _
        by_cases same : name = image.name
        · rw [same, present, Bool.or_true]
        · simp [same]
      · intro name
        rw [separate.find?_put led, found, Option.getD_some]
  | false =>
      rw [present] at room
      have fits := Nat.not_le.mpr (room.resolve_left Bool.false_ne_true)
      have absent : registry.find? image.name = none := by
        rw [← Option.isNone_iff_eq_none, ← Option.isSome_eq_false_iff, separate.isSome_find?]
        exact present
      have created : registry.create now image.name (restoredOptions image) =
          (.ok (), registry.register now image.name (restoredOptions image)) := by
        rw [create, present, if_neg Bool.false_ne_true, if_neg fits]
      have registered := separate.register now image.name (restoredOptions image)
      have led : (registry.register now image.name (restoredOptions image)).names.get?
          image.name = some registry.stashes.length :=
        (FiniteMap.get?_insert _ _ _ _).trans (if_pos rfl)
      have found : (registry.register now image.name (restoredOptions image)).find? image.name =
          some (Stash.create now image.name (restoredOptions image)) :=
        (separate.find?_register now image.name _ image.name).trans (if_pos rfl)
      refine ⟨_, restoreImage_of_create created led found, registered.put _ _, rfl, ?_, ?_, ?_⟩
      · rw [present, if_neg Bool.false_ne_true]
        exact FiniteMap.size_insert_of_absent present _
      · intro name
        exact FiniteMap.contains_insert _ _ _ _
      · intro name
        rw [registered.find?_put led, absent, Option.getD_none, separate.find?_register]
        split <;> rfl

/-- The image of a restored stash, put into the stash that was registered, or into a new one. -/
def restoredStash (registry : Registry) (now : Nat) (image : Image) : Stash :=
  ((registry.find? image.name).getD
    (Stash.create now image.name (restoredOptions image))).restoreAll image.entries

/-- After an image was restored there is room for the others. -/
theorem Restored.room {now : Nat} {image : Image} {images : List Image} {next : Registry}
    (done : registry.Restored now image next)
    (elsewhere : ∀ other ∈ images, other.name ≠ image.name)
    (room : registry.names.size +
      ((image :: images).filter fun image => !registry.names.contains image.name).length ≤
        registry.limit) :
    next.names.size +
      (images.filter fun image => !next.names.contains image.name).length ≤ next.limit := by
  have same : (images.filter fun image => !next.names.contains image.name) =
      images.filter fun image => !registry.names.contains image.name := by
    apply List.filter_congr
    intro other present
    rw [done.contains, decide_eq_false (elsewhere other present), Bool.false_or]
  rw [same, done.size, done.limit]
  cases present : registry.names.contains image.name <;>
    simp only [present, List.filter_cons, Bool.not_true, Bool.not_false, if_true, if_false,
      Bool.false_eq_true, List.length_cons] at room ⊢ <;> omega

theorem Separate.exists_restoreFrom (separate : registry.Separate) (now : Nat)
    {images : List Image} (distinct : (images.map Image.name).Nodup)
    (room : registry.names.size +
      (images.filter fun image => !registry.names.contains image.name).length ≤ registry.limit)
    (count : Nat) :
    ∃ last, images.foldl
        (fun (count, registry) image =>
          let (restored, rest) := registry.restoreImage now image
          (count + restored.toNat, rest))
        (count, registry) = (count + images.length, last) ∧
      (∀ image ∈ images, last.find? image.name = some (registry.restoredStash now image)) ∧
      ∀ name ∉ images.map Image.name, last.find? name = registry.find? name := by
  induction images generalizing registry count with
  | nil => exact ⟨registry, rfl, nofun, fun _ _ => rfl⟩
  | cons image images ih =>
      rw [List.map_cons, List.nodup_cons] at distinct
      have here : registry.names.contains image.name = true ∨
          registry.names.size < registry.limit := by
        cases present : registry.names.contains image.name with
        | true => exact .inl rfl
        | false =>
            rw [List.filter_cons_of_pos (by simp [present]), List.length_cons] at room
            exact .inr (by omega)
      rcases separate.exists_restoreImage now here with ⟨next, restored, done⟩
      have elsewhere {other : Image} (present : other ∈ images) : other.name ≠ image.name := by
        intro same
        exact distinct.1 (same ▸ List.mem_map_of_mem present)
      have stillRoom := done.room (fun _ => elsewhere) room
      rcases ih done.separate distinct.2 stillRoom (count + 1) with ⟨last, all, found, others⟩
      refine ⟨last, ?_, ?_, ?_⟩
      · simp only [List.foldl_cons, restored]
        rw [List.length_cons, Nat.add_comm images.length, ← Nat.add_assoc]
        exact all
      · intro other present
        rcases List.mem_cons.mp present with rfl | present
        · rw [others _ distinct.1, done.find?, if_pos rfl]
          rfl
        · rw [found other present, restoredStash, done.find?, if_neg (elsewhere present)]
          rfl
      · intro name absent
        rw [List.map_cons, List.mem_cons, not_or] at absent
        rw [others name absent.2, done.find?, if_neg absent.1]

/-- Images of different names are all restored, in whatever order, if there is room for those that
are not registered. -/
theorem Separate.exists_restore (separate : registry.Separate) (now : Nat) {images : List Image}
    (distinct : (images.map Image.name).Nodup)
    (room : registry.names.size +
      (images.filter fun image => !registry.names.contains image.name).length ≤ registry.limit) :
    ∃ last, registry.restore now images = (images.length, last) ∧
      ∀ image ∈ images, last.find? image.name = some (registry.restoredStash now image) := by
  rcases separate.exists_restoreFrom now distinct room 0 with ⟨last, all, found, _⟩
  rw [Nat.zero_add] at all
  exact ⟨last, all, found⟩

end Restore

end Larder.Registry
