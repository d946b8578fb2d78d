import Larder.Proofs.Registry.Sweep
import Larder.Snapshot.Pass

/-!
# Registries in order

A registry is in order if the default stash is registered, every name leads to a stash of its own,
which has that name and is not dropped, and there are no more names than there is room for.  Names
come and go in different places: a stash is created or restored only if there is room, and dropped
only if it is not the default one, and its name goes before its contents do.
-/

namespace Larder

namespace Stash

/-- A stash of a name that is not dropped. -/
structure InUse (name : String) (stash : Stash) : Prop where
  named : stash.name = name
  opened : ∃ contents, stash.contents = some contents

namespace InUse

variable {name : String} {stash : Stash}

theorem create (now : Nat) (name : String) (options : Options) :
    (Stash.create now name options).InUse name :=
  ⟨rfl, _, rfl⟩

theorem withContents (used : stash.InUse name) (contents : Contents) :
    (stash.withContents contents).InUse name :=
  ⟨used.named, contents, rfl⟩

theorem markDirty (used : stash.InUse name) : stash.markDirty.InUse name :=
  ⟨used.named, used.opened⟩

theorem takeDirty (used : stash.InUse name) : stash.takeDirty.2.InUse name :=
  ⟨used.named, used.opened⟩

/-- No call but the last one drops a stash. -/
theorem after (used : stash.InUse name) (now : Nat) {call : Call} (kept : call ≠ .close) :
    (stash.after now call).InUse name := by
  rcases used.opened with ⟨contents, opened⟩
  cases call with
  | set key value =>
      rw [Stash.after, respond, set_of_open opened]
      exact (used.withContents _).markDirty
  | setWithTtl key value ttl =>
      rw [Stash.after, respond, setWithTtl_of_open opened]
      exact (used.withContents _).markDirty
  | restore entry =>
      rw [Stash.after, respond, restore_of_open opened]
      exact used.withContents _
  | get key =>
      rw [Stash.after, respond, get_of_open opened]
      by_cases past : contents.isExpired now key = true
      · rw [if_pos past]
        exact (used.withContents _).markDirty
      · rw [if_neg past]
        cases contents.values.get? key with
        | some value => exact used.withContents _
        | none => exact used
  | delete key =>
      rw [Stash.after, respond, delete_of_open opened]
      cases contents.values.contains key with
      | true => exact (used.withContents _).markDirty
      | false => exact used.withContents _
  | updateTtl key ttl =>
      rw [Stash.after, respond, updateTtl_of_open opened]
      by_cases live : (contents.values.contains key && !contents.isExpired now key) = true
      · rw [if_pos live]
        exact (used.withContents _).markDirty
      · rw [if_neg live]
        exact used
  | evictKeys =>
      rw [Stash.after, respond, evictKeys_of_open opened]
      exact used.withContents _
  | expireKeys =>
      rw [Stash.after, respond, expireKeys_of_open opened]
      by_cases nothing : (contents.expiry.expire now).1 = []
      · rw [if_pos nothing]
        exact used.withContents _
      · rw [if_neg nothing]
        exact (used.withContents _).markDirty
  | peek | contains | entries | size =>
      simp only [Stash.after, respond, peek_of_open opened, contains_of_open opened,
        entries_of_open opened, size_of_open opened]
      exact used
  | takeDirty => exact used.takeDirty
  | close => exact absurd rfl kept

theorem restoreAll (used : stash.InUse name) (entries : List Entry) :
    (stash.restoreAll entries).InUse name := by
  induction entries generalizing stash with
  | nil => exact used
  | cons entry entries ih =>
      rcases used.opened with ⟨contents, opened⟩
      have restored := restore_of_open opened entry
      rw [Stash.restoreAll, List.foldl_cons, restored]
      exact ih (used.withContents _)

end InUse

end Stash

namespace Registry

/-- A registry with room for a number of stashes, in which everything is in its place. -/
structure Orderly (limit : Nat) (registry : Registry) : Prop where
  limit_eq : registry.limit = limit
  size_le : registry.names.size ≤ registry.limit
  separate : registry.Separate
  default : registry.names.contains defaultName = true
  inUse : ∀ {name stash}, registry.find? name = some stash → stash.InUse name

variable {limit : Nat} {registry next : Registry} {name : String} {handle : Handle}
  {stash : Stash} {now : Nat}

section Put

/-- What a name leads to after a stash was replaced. -/
theorem find?_put_cases (found : registry.stashes[handle]? = some stash) {last other : Stash}
    (present : (registry.put handle last).find? name = some other) :
    registry.find? name = some other ∨ registry.find? name = some stash ∧ other = last := by
  rcases Option.bind_eq_some_iff.mp present with ⟨place, led, there⟩
  have before : registry.find? name = registry.stashes[place]? := find?_of_get? led
  by_cases same : handle = place
  · subst same
    have inside := (List.getElem?_eq_some_iff.mp found).1
    cases there.symm.trans (List.getElem?_set_self inside)
    exact .inr ⟨before.trans found, rfl⟩
  · left
    rw [before, ← there]
    exact (List.getElem?_set_ne same).symm

end Put

namespace Orderly

/-- Every name leads to a stash. -/
theorem exists_find? (orderly : registry.Orderly limit)
    (present : registry.names.contains name = true) :
    ∃ stash, registry.find? name = some stash ∧ stash.InUse name := by
  rw [← orderly.separate.isSome_find?, Option.isSome_iff_exists] at present
  rcases present with ⟨stash, found⟩
  exact ⟨stash, found, orderly.inUse found⟩

theorem start (now maxStashes : Nat) (defaults : StashDefaults) (persistent : Bool) :
    (start now maxStashes defaults persistent).Orderly (max 1 maxStashes) where
  limit_eq := rfl
  size_le := Nat.le_max_left _ _
  separate := separate_start now maxStashes defaults persistent
  default := by
    rw [contains_start, decide_eq_true rfl]
  inUse {name stash} found := by
    rw [find?_start] at found
    split at found
    · next same =>
      cases found
      exact same ▸ .create now defaultName _
    · cases found

/-- Another stash may take the place of one of the same name if it is not dropped either. -/
theorem put (orderly : registry.Orderly limit) (found : registry.stashes[handle]? = some stash)
    {last : Stash} (keeps : ∀ {name}, stash.InUse name → last.InUse name) :
    (registry.put handle last).Orderly limit where
  limit_eq := orderly.limit_eq
  size_le := orderly.size_le
  separate := orderly.separate.put handle last
  default := orderly.default
  inUse present := by
    rcases find?_put_cases found present with before | ⟨before, rfl⟩
    · exact orderly.inUse before
    · exact keeps (orderly.inUse before)

theorem create (orderly : registry.Orderly limit) {options : Stash.Options}
    (created : registry.create now name options = (.ok (), next)) : next.Orderly limit := by
  rw [Registry.create] at created
  split at created
  · cases created
    exact orderly
  next absent =>
  split at created
  · cases created
  next free =>
  cases created
  refine ⟨orderly.limit_eq, ?_, orderly.separate.register now name options, ?_, ?_⟩
  · apply Nat.le_trans (Nat.le_of_eq _) (Nat.succ_le_of_lt (Nat.not_le.mp free))
    exact FiniteMap.size_insert_of_absent (Bool.eq_false_iff.mpr absent) registry.stashes.length
  · rw [register, FiniteMap.contains_insert, orderly.default, Bool.or_true]
  · intro other stash found
    rw [orderly.separate.find?_register] at found
    split at found
    · next same =>
      cases found
      exact same ▸ .create now name options
    · exact orderly.inUse found

theorem drop (orderly : registry.Orderly limit) (dropped : registry.drop name = (.ok (), next)) :
    next.Orderly limit := by
  have another : defaultName ≠ name := by
    rintro rfl
    rw [Registry.drop, if_pos rfl] at dropped
    cases dropped
  rcases exists_of_drop dropped with ⟨_, _, names, _, sameLimit, _⟩
  refine ⟨sameLimit.trans orderly.limit_eq, ?_, orderly.separate.drop dropped, ?_, ?_⟩
  · rw [names, sameLimit]
    exact Nat.le_trans (FiniteMap.size_erase_le _ _) orderly.size_le
  · rw [names, FiniteMap.contains_erase, decide_eq_true another, orderly.default, Bool.and_self]
  · intro other stash found
    rw [orderly.separate.find?_drop dropped] at found
    split at found
    · cases found
    · exact orderly.inUse found

theorem sweep (orderly : registry.Orderly limit) (now : Nat) :
    (registry.sweep now).2.Orderly limit := by
  have found? := orderly.separate.find?_sweep now
  have length := length_sweep registry now
  rw [snd_sweep] at found? length ⊢
  refine ⟨orderly.limit_eq, orderly.size_le, ⟨?_, orderly.separate.apart⟩, orderly.default, ?_⟩
  · intro name handle led
    rw [length]
    exact orderly.separate.known led
  · intro name stash found
    rw [found?] at found
    rcases Option.map_eq_some_iff.mp found with ⟨before, present, rfl⟩
    exact Stash.kept_by_sweep (fun used => used.after now nofun) _ (orderly.inUse present)

section Restore

theorem restoreImage (orderly : registry.Orderly limit) (now : Nat) (image : Image) :
    (registry.restoreImage now image).2.Orderly limit := by
  rw [Registry.restoreImage]
  split
  · next refused =>
    rw [eq_of_create_error refused]
    exact orderly
  next ready created =>
  have readied := orderly.create created
  split
  · exact readied
  · simp only [restoreEntries]
    split
    · exact readied
    · next found => exact readied.put found fun used => used.restoreAll image.entries

theorem restore (orderly : registry.Orderly limit) (now : Nat) (images : List Image) :
    (registry.restore now images).2.Orderly limit := by
  rw [Registry.restore]
  generalize 0 = count
  induction images generalizing registry count with
  | nil => exact orderly
  | cons image images ih =>
      rw [List.foldl_cons]
      exact ih (orderly.restoreImage now image) _

end Restore

section Save

theorem saveAt (orderly : registry.Orderly limit) (disk : Disk) (now : Nat) (handle : Handle) :
    (registry.saveAt disk now handle).2.1.Orderly limit := by
  rw [Registry.saveAt]
  split
  · exact orderly
  next stash found =>
  dsimp only
  split
  · split
    · exact orderly.put found Stash.InUse.takeDirty
    · exact orderly.put found fun used => used.takeDirty.markDirty
  · exact orderly

/-- A pass through the stashes leaves their names and their contents. -/
theorem saveDirty (orderly : registry.Orderly limit) (disk : Disk) (now : Nat) :
    (registry.saveDirty disk now).2.1.Orderly limit := by
  rw [Registry.saveDirty]
  generalize registry.handles = handles
  generalize 0 = count
  induction handles generalizing registry disk count with
  | nil => exact orderly
  | cons handle handles ih =>
      rw [List.foldl_cons]
      exact ih (orderly.saveAt disk now handle) _ _

end Save

end Orderly

end Registry

end Larder
