import Larder.Proofs.Registry.Reached

/-!
# Sweeps

A sweep takes batches of keys out of every registered stash, and touches nothing else.  What every
batch keeps is kept by a sweep.
-/

namespace Larder

namespace Stash

/-- A stash after it was swept. -/
def swept (now : Nat) (stash : Stash) : Stash :=
  (stash.sweep now Registry.sweepRounds).2

variable {stash : Stash} {now : Nat}

theorem after_expireKeys {count : Nat} {rest : Stash}
    (taken : stash.expireKeys now = .ok (count, rest)) : stash.after now .expireKeys = rest := by
  simp only [after, respond, taken, bind, Except.bind, pure, Except.pure]

theorem kept_by_sweep {kept : Stash → Prop}
    (step : ∀ {stash}, kept stash → kept (stash.after now .expireKeys)) (rounds : Nat)
    (first : kept stash) : kept (stash.sweep now rounds).2 := by
  induction rounds generalizing stash with
  | zero => exact first
  | succ rounds ih =>
      simp only [sweep]
      split
      · exact first
      · next count rest taken =>
        have next : kept rest := after_expireKeys taken ▸ step first
        split
        · exact next
        · exact ih next

end Stash

namespace Registry

variable {registry : Registry} {name : String} {now : Nat}

theorem snd_sweepAt (handle : Handle) :
    (registry.sweepAt now handle).2 =
      { registry with stashes := registry.stashes.modify handle (Stash.swept now) } := by
  simp only [sweepAt, stash?]
  cases found : registry.stashes[handle]? with
  | none =>
      have outside := List.getElem?_eq_none_iff.mp found
      simp only [List.modify_eq_self outside]
  | some stash =>
      simp only [put, List.modify_eq_set_getElem?, found]
      rfl

theorem snd_foldl_sweepAt (handles : List Handle) (total : Nat) :
    (handles.foldl
        (fun (total, registry) handle =>
          let (count, rest) := Registry.sweepAt registry now handle
          (total + count, rest))
        (total, registry)).2 =
      handles.foldl (fun registry handle => (registry.sweepAt now handle).2) registry := by
  induction handles generalizing registry total with
  | nil => rfl
  | cons handle handles ih => exact ih _

/-- A sweep changes the stashes that are registered and nothing else. -/
theorem snd_sweep (registry : Registry) (now : Nat) :
    (registry.sweep now).2 =
      { registry with
        stashes := registry.handles.foldl
          (fun stashes handle => stashes.modify handle (Stash.swept now)) registry.stashes } := by
  rw [sweep, snd_foldl_sweepAt]
  generalize registry.handles = handles
  induction handles generalizing registry with
  | nil => rfl
  | cons handle handles ih =>
      simp only [List.foldl_cons]
      rw [snd_sweepAt, ih]

theorem length_sweep (registry : Registry) (now : Nat) :
    (registry.sweep now).2.stashes.length = registry.stashes.length := by
  rw [snd_sweep]
  simp only
  generalize registry.stashes = stashes
  generalize registry.handles = handles
  induction handles generalizing stashes with
  | nil => rfl
  | cons handle handles ih => rw [List.foldl_cons, ih, List.length_modify]

theorem getElem?_foldl_modify {α : Type} (change : α → α) {places : List Nat}
    (distinct : places.Nodup) (list : List α) (place : Nat) :
    (places.foldl (fun list place => list.modify place change) list)[place]? =
      if place ∈ places then list[place]?.map change else list[place]? := by
  induction places generalizing list with
  | nil => simp
  | cons first places ih =>
      rw [List.nodup_cons] at distinct
      rw [List.foldl_cons, ih distinct.2]
      by_cases here : first = place
      · subst here
        simp [distinct.1]
      · simp [Ne.symm here, List.getElem?_modify_ne change list here]

namespace Separate

variable (separate : registry.Separate)

include separate

theorem nodup_handles : registry.handles.Nodup := by
  apply List.Nodup.map_on
  · rintro ⟨name, handle⟩ present ⟨other, place⟩ present' rfl
    have same := separate.apart (FiniteMap.mem_entries_iff.mp present)
      (FiniteMap.mem_entries_iff.mp present')
    simp [same]
  · exact registry.names.nodup.of_map

/-- A sweep sweeps every registered stash once. -/
theorem find?_sweep (now : Nat) (name : String) :
    (registry.sweep now).2.find? name = (registry.find? name).map (Stash.swept now) := by
  rw [snd_sweep]
  simp only [find?, handle?]
  cases led : registry.names.get? name with
  | none => rfl
  | some handle =>
      have present : handle ∈ registry.handles :=
        List.mem_map_of_mem (FiniteMap.mem_entries_iff.mpr led)
      simp only [Option.bind_some, stash?]
      rw [getElem?_foldl_modify _ separate.nodup_handles, if_pos present]

end Separate

theorem Reached.sweep (reached : registry.Reached) (now : Nat) :
    (registry.sweep now).2.Reached := by
  rw [Registry.sweep, snd_foldl_sweepAt]
  generalize registry.handles = handles
  induction handles generalizing registry with
  | nil => exact reached
  | cons handle handles ih =>
      rw [List.foldl_cons]
      apply ih
      rw [sweepAt]
      split
      · exact reached
      · next stash found =>
        have inside := (List.getElem?_eq_some_iff.mp found).1
        have step {stash : Stash} (before : (registry.put handle stash).Reached) :
            (registry.put handle (stash.after now .expireKeys)).Reached := by
          have usual : Stash.Call.Usual .expireKeys := ⟨nofun, nofun⟩
          have called := before.call (List.getElem?_set_self inside) now usual
          rwa [put, put, List.set_set] at called
        apply @Stash.kept_by_sweep stash now (fun stash => (registry.put handle stash).Reached) step
        rwa [put_self found]

end Registry

end Larder
