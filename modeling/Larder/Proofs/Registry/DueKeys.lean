import Larder.Proofs.Registry.Sweep
import Larder.Proofs.Stash.DueKeys
import Mathlib.Algebra.GroupWithZero.Nat

/-!
# Due keys of a registry

A sweep takes out of every registered stash the keys whose lifetime is over, up to a cap, and
touches nothing else.  It counts what it takes, and what it leaves is left to the next one: as many
sweeps as the cap fits into the greatest number of due keys of one stash leave no due key.
-/

namespace Larder.Registry

/-- The registries that come of a new one, also by those who drop a stash behind its back. -/
inductive Arises : Registry → Prop where
  | start (now maxStashes : Nat) (defaults : StashDefaults) (persistent : Bool) :
      Arises (start now maxStashes defaults persistent)
  | restart {registry : Registry} (arises : Arises registry) (now : Nat) :
      Arises (registry.restart now)
  | create {registry next : Registry} {now : Nat} {name : String} {options : Stash.Options}
      (arises : Arises registry) (created : registry.create now name options = (.ok (), next)) :
      Arises next
  | drop {registry next : Registry} {name : String} (arises : Arises registry)
      (dropped : registry.drop name = (.ok (), next)) : Arises next
  | sweep {registry : Registry} (arises : Arises registry) (now : Nat) :
      Arises (registry.sweep now).2
  | restore {registry : Registry} (arises : Arises registry) (now : Nat) (images : List Image) :
      Arises (registry.restore now images).2
  /-- A call by whoever has a handle. -/
  | call {registry : Registry} {handle : Handle} {stash : Stash} (arises : Arises registry)
      (found : registry.stash? handle = some stash) (now : Nat) (call : Stash.Call) :
      Arises (registry.put handle (stash.after now call))
  /-- A stash counts as changed again when saving it failed. -/
  | mark {registry : Registry} {handle : Handle} {stash : Stash} (arises : Arises registry)
      (found : registry.stash? handle = some stash) :
      Arises (registry.put handle stash.markDirty)
  /-- The files of dropped stashes are deleted. -/
  | settle {registry : Registry} (arises : Arises registry) :
      Arises { registry with deletions := [] }

/-- A registry whose names lead to stashes of their own, and all of whose stashes are steady. -/
structure Steady (registry : Registry) : Prop where
  separate : registry.Separate
  stashes : ∀ stash ∈ registry.stashes, stash.Steady

variable {registry next : Registry} {name : String} {handle : Handle} {stash : Stash} {now : Nat}

section Steady

/-- What a change keeps holds of all stashes when it is made to one of them. -/
theorem forall_modify {holds : Stash → Prop} {change : Stash → Stash}
    (step : ∀ {stash : Stash}, holds stash → holds (change stash)) {stashes : List Stash}
    (first : ∀ stash ∈ stashes, holds stash) (handle : Handle) :
    ∀ stash ∈ stashes.modify handle change, holds stash := by
  intro stash present
  rcases List.mem_iff_getElem?.mp present with ⟨place, found⟩
  rw [List.getElem?_modify] at found
  rcases Option.map_eq_some_iff.mp found with ⟨before, found', rfl⟩
  have held := first before (List.mem_of_getElem? found')
  split
  · exact step held
  · exact held

namespace Steady

theorem put (steady : registry.Steady) (stashSteady : stash.Steady) (handle : Handle) :
    (registry.put handle stash).Steady where
  separate := steady.separate.put handle stash
  stashes other present := by
    rcases List.mem_or_eq_of_mem_set present with before | rfl
    · exact steady.stashes other before
    · exact stashSteady

theorem register (steady : registry.Steady) (now : Nat) (name : String) (options : Stash.Options) :
    (registry.register now name options).Steady where
  separate := steady.separate.register now name options
  stashes other present := by
    rcases List.mem_append.mp present with before | new
    · exact steady.stashes other before
    · rw [List.mem_singleton.mp new]
      exact Stash.steady_create now name options

theorem restart (steady : registry.Steady) (now : Nat) : (registry.restart now).Steady := by
  have vacant : Steady { registry with names := ∅ } := by
    refine ⟨⟨?_, ?_⟩, steady.stashes⟩
    · intro name handle led
      cases led
    · intro name other handle led
      cases led
  exact vacant.register now defaultName _

theorem create {options : Stash.Options} (steady : registry.Steady)
    (created : registry.create now name options = (.ok (), next)) : next.Steady := by
  rw [Registry.create] at created
  split at created
  · cases created
    exact steady
  split at created
  · cases created
  cases created
  exact steady.register now name options

theorem drop (steady : registry.Steady) (dropped : registry.drop name = (.ok (), next)) :
    next.Steady where
  separate := steady.separate.drop dropped
  stashes := by
    rcases exists_of_drop dropped with ⟨handle, _, _, stashes, _⟩
    rw [stashes]
    exact @forall_modify Stash.Steady _ Stash.Steady.close _ steady.stashes handle

theorem sweep (steady : registry.Steady) (now : Nat) : (registry.sweep now).2.Steady := by
  have separate := steady.separate
  have length := length_sweep registry now
  rw [snd_sweep] at length ⊢
  refine ⟨⟨fun led => ?_, separate.apart⟩, ?_⟩
  · rw [length]
    exact separate.known led
  have step {stash : Stash} (before : stash.Steady) : (Stash.swept now stash).Steady :=
    Stash.kept_by_sweep (fun kept => kept.after now .expireKeys) _ before
  have stashes := steady.stashes
  generalize registry.stashes = all at stashes ⊢
  generalize registry.handles = handles
  induction handles generalizing all with
  | nil => exact stashes
  | cons handle handles ih => exact ih _ (@forall_modify Stash.Steady _ step _ stashes handle)

theorem restoreImage (steady : registry.Steady) (now : Nat) (image : Image) :
    (registry.restoreImage now image).2.Steady := by
  rw [Registry.restoreImage]
  split
  · next refused =>
    rw [eq_of_create_error refused]
    exact steady
  next ready created =>
  have readied := steady.create created
  split
  · exact readied
  simp only [restoreEntries]
  split
  · exact readied
  · next stash found =>
    have before := readied.stashes stash (List.mem_of_getElem? found)
    exact readied.put (before.restoreAll image.entries) _

theorem restore (steady : registry.Steady) (now : Nat) (images : List Image) :
    (registry.restore now images).2.Steady := by
  rw [Registry.restore]
  generalize 0 = count
  induction images generalizing registry count with
  | nil => exact steady
  | cons image images ih =>
      rw [List.foldl_cons]
      exact ih (steady.restoreImage now image) _

end Steady

theorem steady_start (now maxStashes : Nat) (defaults : StashDefaults) (persistent : Bool) :
    (start now maxStashes defaults persistent).Steady := by
  have vacant : (vacant maxStashes defaults persistent).Steady :=
    ⟨separate_vacant maxStashes defaults persistent, nofun⟩
  exact vacant.register now defaultName _

theorem Arises.steady (arises : registry.Arises) : registry.Steady := by
  induction arises with
  | start now maxStashes defaults persistent =>
      exact steady_start now maxStashes defaults persistent
  | restart _ now ih => exact ih.restart now
  | create _ created ih => exact ih.create created
  | drop _ dropped ih => exact ih.drop dropped
  | sweep _ now ih => exact ih.sweep now
  | restore _ now images ih => exact ih.restore now images
  | call _ found now call ih =>
      exact ih.put ((ih.stashes _ (List.mem_of_getElem? found)).after now call) _
  | mark _ found ih => exact ih.put (ih.stashes _ (List.mem_of_getElem? found)).markDirty _
  | settle _ ih => exact ⟨⟨ih.separate.known, ih.separate.apart⟩, ih.stashes⟩

end Steady

section Sweep

/-- How many keys a sweep takes out of one stash at most. -/
def sweepCap : Nat := sweepRounds * ExpiryWheel.defaultBatchLimit

/-- A registry after a number of sweeps while the clock stands still. -/
def sweeps (now : Nat) : Nat → Registry → Registry
  | 0, registry => registry
  | count + 1, registry => sweeps now count (registry.sweep now).2

theorem Separate.stash?_sweep (separate : registry.Separate) (now : Nat) (handle : Handle) :
    (registry.sweep now).2.stash? handle =
      if handle ∈ registry.handles then (registry.stash? handle).map (Stash.swept now)
      else registry.stash? handle := by
  rw [snd_sweep]
  exact getElem?_foldl_modify _ separate.nodup_handles _ _

theorem Separate.registered_sweep (separate : registry.Separate) (now : Nat) :
    (registry.sweep now).2.registered = registry.registered.map (Stash.swept now) := by
  have handles : (registry.sweep now).2.handles = registry.handles := by
    rw [snd_sweep]
    rfl
  rw [registered, registered, handles, List.map_filterMap]
  apply List.filterMap_congr
  intro handle present
  rw [separate.stash?_sweep, if_pos present]

/-- How many keys a sweep takes out of the stash that a handle leads to. -/
def takenAt (registry : Registry) (now : Nat) (handle : Handle) : Nat :=
  (registry.stash? handle).elim 0 fun stash => (stash.sweep now sweepRounds).1

theorem fst_sweepAt (registry : Registry) (now : Nat) (handle : Handle) :
    (registry.sweepAt now handle).1 = registry.takenAt now handle := by
  rw [sweepAt, takenAt]
  cases registry.stash? handle <;> rfl

theorem takenAt_sweepAt {other : Handle} (different : other ≠ handle) :
    (registry.sweepAt now other).2.takenAt now handle = registry.takenAt now handle := by
  rw [takenAt, takenAt, snd_sweepAt]
  simp only [stash?, List.getElem?_modify_ne _ _ different]

/-- Sweeping one stash does not change what is taken out of the others. -/
theorem fst_foldl_sweepAt {handles : List Handle} (distinct : handles.Nodup)
    (registry : Registry) (total : Nat) :
    (handles.foldl
        (fun (total, registry) handle =>
          let (count, rest) := Registry.sweepAt registry now handle
          (total + count, rest))
        (total, registry)).1 =
      total + (handles.map (registry.takenAt now)).sum := by
  induction handles generalizing registry total with
  | nil => rfl
  | cons handle handles ih =>
      rw [List.nodup_cons] at distinct
      have others : handles.map ((registry.sweepAt now handle).2.takenAt now) =
          handles.map (registry.takenAt now) := by
        apply List.map_congr_left
        intro other present
        exact takenAt_sweepAt fun same => distinct.1 (same ▸ present)
      refine (ih distinct.2 (registry.sweepAt now handle).2
        (total + (registry.sweepAt now handle).1)).trans ?_
      rw [others, fst_sweepAt, List.map_cons, List.sum_cons, Nat.add_assoc]

theorem sum_takenAt (handles : List Handle) :
    (handles.map (registry.takenAt now)).sum =
      ((handles.filterMap registry.stash?).map fun stash =>
        (stash.sweep now sweepRounds).1).sum := by
  induction handles with
  | nil => rfl
  | cons handle handles ih =>
      rw [List.map_cons, List.sum_cons, ih, takenAt, List.filterMap_cons]
      cases registry.stash? handle with
      | none => exact Nat.zero_add _
      | some stash => rfl

theorem mem_stashes_of_mem_registered (present : stash ∈ registry.registered) :
    stash ∈ registry.stashes := by
  rcases List.mem_filterMap.mp present with ⟨handle, _, found⟩
  exact List.mem_of_getElem? found

theorem mem_stashes_of_find? (found : registry.find? name = some stash) :
    stash ∈ registry.stashes := by
  rcases Option.bind_eq_some_iff.mp found with ⟨handle, _, there⟩
  exact List.mem_of_getElem? there

/-- A sweep counts what it takes out. -/
theorem Steady.fst_sweep (steady : registry.Steady) (now : Nat) :
    (registry.sweep now).1 =
      (registry.registered.map fun stash => min sweepCap (stash.dueKeys now).length).sum := by
  rw [Registry.sweep, fst_foldl_sweepAt steady.separate.nodup_handles, Nat.zero_add, sum_takenAt]
  congr 1
  apply List.map_congr_left
  intro stash present
  have stashSteady := steady.stashes stash (mem_stashes_of_mem_registered present)
  rcases stashSteady.exists_lost_sweep now sweepRounds with ⟨keys, _, _, _, count, length⟩
  exact count.trans length

/-- Every sweep takes the cap from the due keys that each registered stash has. -/
theorem Steady.exists_of_mem_sweeps (steady : registry.Steady) (now count : Nat)
    (present : stash ∈ (sweeps now count registry).registered) :
    ∃ before ∈ registry.registered,
      (stash.dueKeys now).length = (before.dueKeys now).length - count * sweepCap := by
  induction count generalizing registry with
  | zero => exact ⟨stash, present, by rw [Nat.zero_mul, Nat.sub_zero]⟩
  | succ count ih =>
      rcases ih (steady.sweep now) present with ⟨middle, inMiddle, left⟩
      rw [steady.separate.registered_sweep] at inMiddle
      rcases List.mem_map.mp inMiddle with ⟨before, inFirst, rfl⟩
      have stashSteady := steady.stashes before (mem_stashes_of_mem_registered inFirst)
      refine ⟨before, inFirst, ?_⟩
      rw [left, Stash.swept, stashSteady.length_dueKeys_sweep, Nat.succ_mul, Nat.sub_sub,
        Nat.add_comm]
      rfl

/--
A sweep takes out of every registered stash keys that are due, all of them or as many as the cap
allows, from its values, its lifetimes and its order of use; all other keys keep these.  It marks
the stashes that are saved to disk and lost a key as changed, and leaves all other marks, stashes
and names as they were.  It counts the keys that it takes out.  After as many sweeps as the cap
fits into the greatest number of due keys, no registered stash has a due key.
-/
theorem sweep_takes_due_keys {registry : Registry} (arises : registry.Arises) (now : Nat) :
    (∀ name stash, registry.find? name = some stash →
      ∃ rest keys, (registry.sweep now).2.find? name = some rest ∧ stash.Lost rest keys ∧
        keys.Nodup ∧ keys ⊆ stash.dueKeys now ∧
        keys.length = min sweepCap (stash.dueKeys now).length) ∧
      (∀ handle, handle ∉ registry.handles →
        (registry.sweep now).2.stash? handle = registry.stash? handle) ∧
      (registry.sweep now).2 = { registry with stashes := (registry.sweep now).2.stashes } ∧
      (registry.sweep now).1 =
        (registry.registered.map fun stash => min sweepCap (stash.dueKeys now).length).sum ∧
      ∀ most, (∀ stash ∈ registry.registered, (stash.dueKeys now).length ≤ most) →
        ∀ stash ∈ (sweeps now ((most + (sweepCap - 1)) / sweepCap) registry).registered,
          stash.dueKeys now = [] := by
  have steady := arises.steady
  refine ⟨?_, ?_, ?_, steady.fst_sweep now, ?_⟩
  · intro name stash found
    have stashSteady := steady.stashes stash (mem_stashes_of_find? found)
    rcases stashSteady.exists_lost_sweep now sweepRounds with
      ⟨keys, lost, distinct, due, _, length⟩
    refine ⟨stash.swept now, keys, ?_, lost, distinct, due, length⟩
    rw [steady.separate.find?_sweep, found]
    rfl
  · intro handle elsewhere
    rw [steady.separate.stash?_sweep, if_neg elsewhere]
  · rw [snd_sweep]
  · intro most bounded stash present
    rcases steady.exists_of_mem_sweeps now _ present with ⟨before, inFirst, left⟩
    have fits := bounded before inFirst
    apply List.length_eq_zero_iff.mp
    rw [left]
    have enough : most ≤ (most + (sweepCap - 1)) / sweepCap * sweepCap := by
      rw [sweepCap, sweepRounds, ExpiryWheel.defaultBatchLimit]
      omega
    omega

/-- Of two stashes one has two keys with lifetimes, and one of these is due. -/
theorem sweep_takes_due_keys_of_one_key :
    let created := Stash.create 0 "a" { snapshots := true }
    let first := created.after 0 (.setWithTtl [1] [1] 5)
    let second := first.after 0 (.setWithTtl [2] [2] 100)
    let stash := second.after 0 .takeDirty
    let others := (start 0 4 {} true).register 0 "a" { snapshots := true }
    let registry := ((others.put 1 first).put 1 second).put 1 stash
    registry.Arises ∧ stash.dirty = false ∧ stash.dueKeys 10 = [[1]] ∧
      (registry.sweep 10).1 = 1 ∧
      (∃ rest, (registry.sweep 10).2.find? "a" = some rest ∧ rest.dirty = true ∧
        stash.Lost rest [[1]]) ∧
      ∀ stash ∈ (sweeps 10 1 registry).registered, stash.dueKeys 10 = [] := by
  intro created first second stash others registry
  have isCreated : (start 0 4 {} true).create 0 "a" { snapshots := true } = (.ok (), others) := rfl
  have led : others.stash? 1 = some created := rfl
  have led' : (others.put 1 first).stash? 1 = some first := rfl
  have led'' : ((others.put 1 first).put 1 second).stash? 1 = some second := rfl
  have arises : registry.Arises :=
    ((((Arises.start 0 4 {} true).create isCreated).call led 0 (.setWithTtl [1] [1] 5)).call led' 0
      (.setWithTtl [2] [2] 100)).call led'' 0 .takeDirty
  rcases sweep_takes_due_keys arises 10 with ⟨swept, _, _, count, enough⟩
  have due : stash.dueKeys 10 = [[1]] := by decide +kernel
  have found : registry.find? "a" = some stash := by decide +kernel
  rcases swept "a" stash found with ⟨rest, keys, left, lost, _, inside, length⟩
  rw [due] at inside length
  have keys_eq : keys = [[1]] := by
    rcases List.length_eq_one_iff.mp length with ⟨key, rfl⟩
    rw [List.mem_singleton.mp (inside (List.mem_singleton_self key))]
  rw [keys_eq] at lost
  refine ⟨arises, by decide +kernel, due, ?_, ⟨rest, left, ?_, lost⟩, enough 1 ?_⟩
  · rw [count]
    decide +kernel
  · rw [lost.dirty]
    decide +kernel
  · decide +kernel

end Sweep

end Larder.Registry
