import Larder.Proofs.Registry
import Larder.Proofs.Stash.Reached

/-!
# Registries in use

The registries that a server can have: what it starts with, and what comes of that by creating and
dropping stashes, by calls to stashes, registered or not, and by deleting files.  In all of them
names lead to stashes of their own that are not dropped and keep their limits, and there are no
more of these than the registry has room for.
-/

namespace Larder.Registry

inductive Reached : Registry → Prop where
  | start (now : Nat) {maxStashes : Nat} {defaults : StashDefaults} (persistent : Bool)
      (few : maxStashes ≤ Word64.largest) (bounded : defaults.maxKeys ≤ Word64.largest) :
      Reached (start now maxStashes defaults persistent)
  | restart {registry : Registry} (reached : Reached registry) (now : Nat) :
      Reached (registry.restart now)
  | create {registry next : Registry} {now : Nat} {name : String} {options : Stash.Options}
      (reached : Reached registry) (bounded : options.maxKeys ≤ Word64.largest)
      (created : registry.create now name options = (.ok (), next)) : Reached next
  | drop {registry next : Registry} {name : String} (reached : Reached registry)
      (dropped : registry.drop name = (.ok (), next)) : Reached next
  /-- A call by whoever has a handle. -/
  | call {registry : Registry} {handle : Handle} {stash : Stash} (reached : Reached registry)
      (found : registry.stashes[handle]? = some stash) (now : Nat) {call : Stash.Call}
      (usual : call.Usual) : Reached (registry.put handle (stash.after now call))
  /-- A stash counts as changed again when saving it failed. -/
  | mark {registry : Registry} {handle : Handle} {stash : Stash} (reached : Reached registry)
      (found : registry.stashes[handle]? = some stash) :
      Reached (registry.put handle stash.markDirty)
  /-- The files of dropped stashes are deleted. -/
  | settle {registry : Registry} (reached : Reached registry) :
      Reached { registry with deletions := [] }

/-- What holds of the names and the registered stashes of a server. -/
structure Sound (registry : Registry) : Prop where
  separate : registry.Separate
  room : 1 ≤ registry.limit
  size_le : registry.names.size ≤ registry.limit
  limit_le : registry.limit ≤ Word64.largest
  defaults_le : registry.defaults.maxKeys ≤ Word64.largest
  healthy : ∀ {name stash}, registry.find? name = some stash →
    ∃ contents, stash.Healthy contents

variable {registry next : Registry} {name : String} {handle : Handle} {stash : Stash} {now : Nat}

section Drop

/-- A stash is dropped only if it is registered. -/
theorem exists_of_drop (dropped : registry.drop name = (.ok (), next)) :
    ∃ handle, registry.names.get? name = some handle ∧
      next.names = registry.names.erase name ∧
      next.stashes = registry.stashes.modify handle Stash.close ∧
      next.limit = registry.limit ∧ next.defaults = registry.defaults := by
  rw [drop] at dropped
  split at dropped
  · cases dropped
  · split at dropped
    · cases dropped
    · next handle led =>
      cases dropped
      exact ⟨handle, led, rfl, rfl, rfl, rfl⟩

theorem Separate.drop (separate : registry.Separate)
    (dropped : registry.drop name = (.ok (), next)) : next.Separate := by
  rcases exists_of_drop dropped with ⟨handle, _, names, stashes, _⟩
  constructor
  · intro other place led
    rw [names, FiniteMap.get?_erase] at led
    split at led
    · cases led
    · rw [stashes, List.length_modify]
      exact separate.known led
  · intro first second place led again
    rw [names, FiniteMap.get?_erase] at led again
    split at led
    · cases led
    · split at again
      · cases again
      · exact separate.apart led again

/-- Dropping a stash leaves the others as they are. -/
theorem Separate.find?_drop (separate : registry.Separate)
    (dropped : registry.drop name = (.ok (), next)) (other : String) :
    next.find? other = if other = name then none else registry.find? other := by
  rcases exists_of_drop dropped with ⟨handle, led, names, stashes, _⟩
  have erased : next.names.get? other =
      if other = name then none else registry.names.get? other := by
    rw [names, FiniteMap.get?_erase]
  by_cases same : other = name
  · rw [if_pos same] at erased ⊢
    exact find?_of_absent erased
  · rw [if_neg same] at erased ⊢
    cases before : registry.names.get? other with
    | none => rw [find?_of_absent before, find?_of_absent (erased.trans before)]
    | some place =>
        have different : handle ≠ place := by
          rintro rfl
          exact same (separate.apart before led)
        rw [find?_of_get? before, find?_of_get? (erased.trans before), stashes,
          List.getElem?_modify_ne _ _ different]

end Drop

namespace Sound

theorem register (sound : registry.Sound) (absent : registry.names.contains name = false)
    (free : registry.names.size < registry.limit) (now : Nat) {options : Stash.Options}
    (bounded : options.maxKeys ≤ Word64.largest) : (registry.register now name options).Sound where
  separate := sound.separate.register now name options
  room := sound.room
  size_le := by
    apply Nat.le_trans (Nat.le_of_eq _) (Nat.succ_le_of_lt free)
    exact FiniteMap.size_insert_of_absent absent registry.stashes.length
  limit_le := sound.limit_le
  defaults_le := sound.defaults_le
  healthy {other stash} found := by
    rw [sound.separate.find?_register] at found
    split at found
    · cases found
      exact ⟨_, .create now name bounded⟩
    · exact sound.healthy found

/-- Without its names a registry has room for the default stash. -/
theorem restart (sound : registry.Sound) (now : Nat) : (registry.restart now).Sound := by
  have vacant : Sound { registry with names := ∅ } := by
    refine ⟨⟨?_, ?_⟩, sound.room, Nat.zero_le _, sound.limit_le, sound.defaults_le, ?_⟩
    · intro name handle led
      cases led
    · intro name other handle led
      cases led
    · intro name stash found
      cases found
  exact vacant.register rfl sound.room now sound.defaults_le

theorem create (sound : registry.Sound) {options : Stash.Options}
    (bounded : options.maxKeys ≤ Word64.largest)
    (created : registry.create now name options = (.ok (), next)) : next.Sound := by
  rw [Registry.create] at created
  split at created
  · cases created
    exact sound
  · next absent =>
    split at created
    · cases created
    · next free =>
      cases created
      exact sound.register (Bool.eq_false_iff.mpr absent) (Nat.not_le.mp free) now bounded

theorem drop (sound : registry.Sound) (dropped : registry.drop name = (.ok (), next)) :
    next.Sound := by
  rcases exists_of_drop dropped with ⟨handle, _, names, _, limit, defaults⟩
  refine ⟨sound.separate.drop dropped, ?_, ?_, ?_, ?_, ?_⟩
  · rw [limit]
    exact sound.room
  · rw [limit, names]
    exact Nat.le_trans (FiniteMap.size_erase_le _ _) sound.size_le
  · rw [limit]
    exact sound.limit_le
  · rw [defaults]
    exact sound.defaults_le
  · intro other stash found
    rw [sound.separate.find?_drop dropped] at found
    split at found
    · cases found
    · exact sound.healthy found

/-- Another stash may take the place of one if it is healthy provided that the first was. -/
theorem put (sound : registry.Sound) (found : registry.stashes[handle]? = some stash)
    {last : Stash}
    (heals : ∀ contents, stash.Healthy contents → ∃ rest, last.Healthy rest) :
    (registry.put handle last).Sound := by
  refine ⟨sound.separate.put handle last, sound.room, sound.size_le, sound.limit_le,
    sound.defaults_le, ?_⟩
  intro name other present
  rcases Option.bind_eq_some_iff.mp present with ⟨place, led, there⟩
  have before : registry.find? name = registry.stashes[place]? := find?_of_get? led
  by_cases same : handle = place
  · subst same
    rcases sound.healthy (before.trans found) with ⟨contents, healthy⟩
    have inside := (List.getElem?_eq_some_iff.mp found).1
    cases there.symm.trans (List.getElem?_set_self inside)
    exact heals contents healthy
  · apply sound.healthy
    rw [before, ← there]
    exact (List.getElem?_set_ne same).symm

end Sound

theorem sound_start {maxStashes : Nat} {defaults : StashDefaults} (persistent : Bool)
    (few : maxStashes ≤ Word64.largest) (bounded : defaults.maxKeys ≤ Word64.largest) :
    (start now maxStashes defaults persistent).Sound := by
  have room : 1 ≤ max 1 maxStashes := Nat.le_max_left _ _
  have vacant : (vacant maxStashes defaults persistent).Sound := by
    refine ⟨separate_vacant .., room, Nat.zero_le _, Nat.max_le.mpr ⟨by decide, few⟩, bounded, ?_⟩
    intro name stash found
    cases found
  exact vacant.register rfl room now bounded

namespace Reached

theorem sound (reached : registry.Reached) : registry.Sound := by
  induction reached with
  | start now persistent few bounded => exact sound_start persistent few bounded
  | restart _ now ih => exact ih.restart now
  | create _ bounded created ih => exact ih.create bounded created
  | drop _ dropped ih => exact ih.drop dropped
  | call _ found now usual ih =>
      apply ih.put found
      intro contents healthy
      exact healthy.exists_after now usual
  | mark _ found ih =>
      apply ih.put found
      intro contents healthy
      exact ⟨contents, healthy.markDirty⟩
  | settle _ ih =>
      exact ⟨⟨ih.separate.known, ih.separate.apart⟩, ih.room, ih.size_le, ih.limit_le,
        ih.defaults_le, ih.healthy⟩

end Reached

end Larder.Registry
