import Larder.Proofs.Registry.DueKeys
import Larder.Proofs.Snapshot.Upkeep

/-!
# Small steps of a registry

All that is done to a registry is done in small steps: a stash is registered or dropped, or one
stash takes a call.  Sweeps, restored images and passes are many of these in a row, so what every
small step keeps is kept by all of them.
-/

namespace Larder.Registry

open Relation

/-- A change of one thing. -/
inductive Step : Registry → Registry → Prop where
  | register {registry : Registry} {name : String} (absent : registry.handle? name = none)
      (now : Nat) (options : Stash.Options) : Step registry (registry.register now name options)
  | drop {registry next : Registry} {name : String}
      (dropped : registry.drop name = (.ok (), next)) :
      Step registry next
  /-- A call by whoever has a handle. -/
  | call {registry : Registry} {handle : Handle} {stash : Stash}
      (found : registry.stash? handle = some stash) (now : Nat) (call : Stash.Call) :
      Step registry (registry.put handle (stash.after now call))
  /-- A stash counts as changed again when saving it failed. -/
  | mark {registry : Registry} {handle : Handle} {stash : Stash}
      (found : registry.stash? handle = some stash) :
      Step registry (registry.put handle stash.markDirty)
  /-- The files of dropped stashes are deleted. -/
  | settle (registry : Registry) : Step registry { registry with deletions := [] }

def Steps : Registry → Registry → Prop :=
  ReflTransGen Step

variable {registry next : Registry} {name : String} {handle : Handle} {stash last : Stash}
  {now : Nat}

section Steps

theorem steps_of_create {options : Stash.Options}
    (created : registry.create now name options = (.ok (), next)) : registry.Steps next := by
  rcases eq_of_create created with rfl | ⟨absent, rfl⟩
  · exact .refl
  · exact .single (.register absent now options)

/-- A stash that takes one more call after others. -/
theorem Steps.call (found : registry.stash? handle = some stash)
    (steps : registry.Steps (registry.put handle last)) (now : Nat) (call : Stash.Call) :
    registry.Steps (registry.put handle (last.after now call)) := by
  have again := steps.tail (.call (stash?_put_self found last) now call)
  rwa [put, put, List.set_set] at again

theorem steps_of_sweepAt (registry : Registry) (now : Nat) (handle : Handle) :
    registry.Steps (registry.sweepAt now handle).2 := by
  rw [sweepAt]
  split
  · exact .refl
  · next stash found =>
    refine @Stash.kept_by_sweep stash now (fun last => registry.Steps (registry.put handle last))
      (fun steps => steps.call found now .expireKeys) _ ?_
    rw [put_self found]
    exact .refl

theorem steps_of_sweep (registry : Registry) (now : Nat) :
    registry.Steps (registry.sweep now).2 := by
  rw [sweep, snd_foldl_sweepAt]
  generalize registry.handles = handles
  induction handles generalizing registry with
  | nil => exact .refl
  | cons handle handles ih => exact (steps_of_sweepAt registry now handle).trans (ih _)

theorem steps_of_restoreEntries (registry : Registry) (handle : Handle)
    (entries : List Stash.Entry) : registry.Steps (registry.restoreEntries handle entries) := by
  rw [restoreEntries]
  split
  · exact .refl
  · next stash found =>
    have first : registry.Steps (registry.put handle stash) := by
      rw [put_self found]
      exact .refl
    generalize stash = last at first
    induction entries generalizing last with
    | nil => exact first
    | cons entry entries ih =>
        have called := first.call found 0 (.restore entry)
        rw [Stash.after_restore] at called
        exact ih _ called

theorem steps_of_restoreImage (registry : Registry) (now : Nat) (image : Image) :
    registry.Steps (registry.restoreImage now image).2 := by
  rw [restoreImage]
  split
  · next refused =>
    rw [eq_of_create_error refused]
    exact .refl
  next ready created =>
  have readied := steps_of_create created
  split
  · exact readied
  · exact readied.trans (steps_of_restoreEntries ready _ _)

theorem steps_of_restore (registry : Registry) (now : Nat) (images : List Image) :
    registry.Steps (registry.restore now images).2 := by
  rw [restore]
  generalize 0 = count
  induction images generalizing registry count with
  | nil => exact .refl
  | cons image images ih =>
      rw [List.foldl_cons]
      exact (steps_of_restoreImage registry now image).trans (ih _ _)

theorem steps_of_saveAt (registry : Registry) (disk : Disk) (now : Nat) (handle : Handle) :
    registry.Steps (registry.saveAt disk now handle).2.1 := by
  rw [saveAt]
  split
  · exact .refl
  next stash found =>
  have taken : registry.Steps (registry.put handle stash.takeDirty.2) :=
    .single (.call found now .takeDirty)
  dsimp only
  split
  · split
    · exact taken
    · have marked := taken.tail (.mark (stash?_put_self found stash.takeDirty.2))
      rwa [put, put, List.set_set] at marked
  · exact .refl

theorem steps_of_saveDirty (registry : Registry) (disk : Disk) (now : Nat) :
    registry.Steps (registry.saveDirty disk now).2.1 := by
  rw [saveDirty]
  generalize registry.handles = handles
  generalize 0 = count
  induction handles generalizing registry disk count with
  | nil => exact .refl
  | cons handle handles ih =>
      rw [List.foldl_cons]
      exact (steps_of_saveAt registry disk now handle).trans (ih _ _ _)

theorem Steps.separate (steps : registry.Steps next) (separate : registry.Separate) :
    next.Separate := by
  induction steps with
  | refl => exact separate
  | tail _ step ih =>
      cases step with
      | register _ now options => exact ih.register now _ options
      | drop dropped => exact ih.drop dropped
      | call _ now call => exact ih.put _ _
      | mark _ => exact ih.put _ _
      | settle => exact ⟨ih.known, ih.apart⟩

end Steps

section Stashes

/-- What holds of new stashes and is kept by every call. -/
structure Lasting (holds : Stash → Prop) : Prop where
  create : ∀ now name options, holds (Stash.create now name options)
  after : ∀ {stash : Stash}, holds stash → ∀ now call, holds (stash.after now call)
  mark : ∀ {stash : Stash}, holds stash → holds stash.markDirty

variable {holds : Stash → Prop}

theorem Lasting.register (lasting : Lasting holds) (all : ∀ stash ∈ registry.stashes, holds stash)
    (now : Nat) (name : String) (options : Stash.Options) :
    ∀ stash ∈ (registry.register now name options).stashes, holds stash := by
  intro stash present
  rcases List.mem_append.mp present with before | new
  · exact all stash before
  · rw [List.mem_singleton.mp new]
    exact lasting.create now name options

theorem Lasting.step (lasting : Lasting holds) (step : registry.Step next)
    (all : ∀ stash ∈ registry.stashes, holds stash) : ∀ stash ∈ next.stashes, holds stash := by
  have put {handle : Handle} {last : Stash} (one : holds last) :
      ∀ stash ∈ (registry.put handle last).stashes, holds stash := by
    intro stash present
    rcases List.mem_or_eq_of_mem_set present with before | rfl
    · exact all stash before
    · exact one
  cases step with
  | register _ now options => exact lasting.register all now _ options
  | drop dropped =>
      rcases exists_of_drop dropped with ⟨handle, _, _, stashes, _⟩
      rw [stashes]
      exact @forall_modify holds _ (fun held => lasting.after held 0 .close) _ all handle
  | call found now call => exact put (lasting.after (all _ (List.mem_of_getElem? found)) now call)
  | mark found => exact put (lasting.mark (all _ (List.mem_of_getElem? found)))
  | settle => exact all

theorem Lasting.steps (lasting : Lasting holds) (steps : registry.Steps next)
    (all : ∀ stash ∈ registry.stashes, holds stash) : ∀ stash ∈ next.stashes, holds stash := by
  induction steps with
  | refl => exact all
  | tail _ step ih => exact lasting.step step ih

/-- What holds of new stashes and is kept by every call holds of all stashes that ever were. -/
theorem Lasting.arises (lasting : Lasting holds) (arises : registry.Arises) :
    ∀ stash ∈ registry.stashes, holds stash := by
  induction arises with
  | start now maxStashes defaults persistent =>
      exact @Lasting.register (vacant maxStashes defaults persistent) _ lasting nofun now _ _
  | @restart registry _ now ih =>
      exact @Lasting.register { registry with names := ∅ } _ lasting ih now _ _
  | create _ created ih => exact lasting.steps (steps_of_create created) ih
  | drop _ dropped ih => exact lasting.step (.drop dropped) ih
  | sweep _ now ih => exact lasting.steps (steps_of_sweep _ now) ih
  | restore _ now images ih => exact lasting.steps (steps_of_restore _ now images) ih
  | call _ found now call ih => exact lasting.step (.call found now call) ih
  | mark _ found ih => exact lasting.step (.mark found) ih
  | settle _ ih => exact ih

theorem lasting_saves : Lasting fun stash =>
    stash.Steady ∧ (stash.dirty = true → stash.options.snapshots = true) where
  create now name options := ⟨Stash.steady_create now name options, nofun⟩
  after {stash} held now call := by
    rcases held with ⟨steady, saves⟩
    refine ⟨steady.after now call, ?_⟩
    by_cases isDirty : call = .takeDirty
    · subst isDirty
      exact nofun
    by_cases isClose : call = .close
    · subst isClose
      exact saves
    cases opened : stash.contents with
    | none =>
        rw [Stash.after, Stash.respond_of_closed opened now isDirty isClose]
        exact saves
    | some contents =>
        rcases Stash.exists_change opened (steady.coherent opened) (steady.size_le opened) now
          isClose with ⟨next, marks, _, became⟩
        intro marked
        rw [became.options]
        cases marks with
        | true =>
            rw [became.marked rfl] at marked
            exact (Bool.or_eq_true_iff.mp marked).elim saves id
        | false =>
            rw [became.unmarked rfl isDirty] at marked
            exact saves marked
  mark {stash} held :=
    ⟨held.1.markDirty, fun marked => (Bool.or_eq_true_iff.mp marked).elim held.2 id⟩

/-- A stash that is marked is one that is saved to disk. -/
theorem Arises.saves (arises : registry.Arises) (found : registry.stash? handle = some stash)
    (marked : stash.dirty = true) : stash.options.snapshots = true :=
  (lasting_saves.arises arises stash (List.mem_of_getElem? found)).2 marked

end Stashes

end Larder.Registry
