import Larder.Proofs.Registry.Sweep
import Larder.Proofs.Stash.Stored

/-!
# The sizes of what a registry stores

Names and values of registered stashes keep the limits of a server as long as only such names are
created and only such values are stored.  What a registry counts has few digits.
-/

namespace Larder.Registry

/-- Whether the names and the values of all registered stashes keep the limits. -/
structure Within (limits : Limits) (registry : Registry) : Prop where
  names : ∀ {name}, registry.names.contains name = true →
    (Bytes.ofText name).length ≤ limits.maxNameLength
  stashes : ∀ {name stash}, registry.find? name = some stash → stash.Within limits

variable {limits : Limits} {registry next : Registry} {name : String} {handle : Handle}
  {now : Nat} {options : Stash.Options}

namespace Within

theorem put (within : registry.Within limits) (separate : registry.Separate)
    (led : registry.names.get? name = some handle) {stash : Stash}
    (stashWithin : stash.Within limits) : (registry.put handle stash).Within limits where
  names := within.names
  stashes {other found} present := by
    rw [separate.find?_put led] at present
    split at present
    · cases present
      exact stashWithin
    · exact within.stashes present

theorem create (within : registry.Within limits) (separate : registry.Separate)
    (short : (Bytes.ofText name).length ≤ limits.maxNameLength)
    (created : registry.create now name options = (.ok (), next)) : next.Within limits := by
  rw [Registry.create] at created
  split at created
  · cases created
    exact within
  split at created
  · cases created
  cases created
  constructor
  · intro other present
    rw [register, FiniteMap.contains_insert, Bool.or_eq_true, decide_eq_true_eq] at present
    rcases present with rfl | old
    · exact short
    · exact within.names old
  · intro other stash present
    rw [separate.find?_register] at present
    split at present
    · cases present
      exact .create now options short
    · exact within.stashes present

theorem drop (within : registry.Within limits) (separate : registry.Separate)
    (dropped : registry.drop name = (.ok (), next)) : next.Within limits where
  names {other} present := by
    rcases exists_of_drop dropped with ⟨_, _, names, _⟩
    rw [names, FiniteMap.contains_erase, Bool.and_eq_true] at present
    exact within.names present.2
  stashes {other stash} present := by
    rw [separate.find?_drop dropped] at present
    split at present
    · cases present
    · exact within.stashes present

theorem sweep (within : registry.Within limits) (sound : registry.Sound) (now : Nat) :
    (registry.sweep now).2.Within limits where
  names {other} present := by
    rw [snd_sweep] at present
    exact within.names present
  stashes {other stash} present := by
    rw [sound.separate.find?_sweep] at present
    rcases Option.map_eq_some_iff.mp present with ⟨before, found, rfl⟩
    refine (@Stash.kept_by_sweep before now
      (fun stash => stash.Within limits ∧ ∃ contents, stash.Healthy contents) ?_ _
      ⟨within.stashes found, sound.healthy found⟩).1
    rintro stash ⟨kept, contents, healthy⟩
    have usual : Stash.Call.Usual .expireKeys := ⟨nofun, nofun⟩
    exact ⟨kept.after healthy now usual nofun, healthy.exists_after now usual⟩

theorem start (now maxStashes : Nat) (defaults : StashDefaults) (persistent : Bool)
    (short : (Bytes.ofText defaultName).length ≤ limits.maxNameLength) :
    (Registry.start now maxStashes defaults persistent).Within limits where
  names {name} present := by
    rw [contains_start, decide_eq_true_eq] at present
    exact present ▸ short
  stashes {name stash} found := by
    rw [find?_start] at found
    split at found
    · cases found
      exact .create now _ short
    · cases found

end Within

section Count

theorem exists_find?_of_mem_registered {stash : Stash}
    (present : stash ∈ registry.registered) : ∃ name, registry.find? name = some stash := by
  rcases List.mem_filterMap.mp present with ⟨handle, isHandle, found⟩
  rcases List.mem_map.mp isHandle with ⟨⟨name, place⟩, entry, rfl⟩
  exact ⟨name, (find?_of_get? (FiniteMap.mem_entries_iff.mp entry)).trans found⟩

/-- There are no more keys than the stashes have room for. -/
theorem Sound.totalKeys_le (sound : registry.Sound) :
    registry.totalKeys ≤ registry.limit * Word64.largest := by
  have few : registry.registered.length ≤ registry.limit := by
    apply Nat.le_trans (List.length_filterMap_le _ _)
    rw [handles, FiniteMap.values, List.length_map]
    exact sound.size_le
  have each : ∀ stash ∈ registry.registered, stash.size.toOption.getD 0 ≤ Word64.largest := by
    intro stash present
    rcases exists_find?_of_mem_registered present with ⟨name, found⟩
    rcases sound.healthy found with ⟨contents, healthy⟩
    rw [Stash.size_of_open healthy.opened]
    exact Nat.le_trans healthy.size_le healthy.bounded
  apply Nat.le_trans _ (Nat.mul_le_mul_right Word64.largest few)
  rw [totalKeys]
  clear few
  generalize registry.registered = stashes at each
  induction stashes with
  | nil => simp
  | cons stash stashes ih =>
      rw [List.forall_mem_cons] at each
      have first := each.1
      have others := ih each.2
      rw [List.foldr_cons, List.length_cons, Nat.add_mul, Nat.one_mul]
      omega

end Count

end Larder.Registry
