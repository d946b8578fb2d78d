import Larder.Proofs.Server.Work
import Larder.Proofs.Snapshot.Successors
import Larder.Server

/-!
# Whole passes and the end of a server

A pass saves one registered stash after the other, and then a server that stops deletes the files of
dropped stashes that are still there.  Both are made of steps that can happen at any time.  A pass
after which no stash is marked has saved all stashes that were.
-/

namespace Larder

namespace Upkeep

open Archive

variable {limits : Limits} {limit : Nat} {state next : Upkeep} {handle : Handle} {stash : Stash}
  {contents : Stash.Contents} {later : Nat}

/-- A stash is still to be saved, or was not saved too early. -/
def Safe (state : Upkeep) (handle : Handle) : Prop :=
  handle ∉ state.overtaken ∨ ∃ stash, state.registry.stash? handle = some stash ∧ stash.dirty = true

/-- What a pass through some stashes makes of a registry and its files. -/
structure Passed (limits : Limits) (state : Upkeep) (registry : Registry) (disk : Disk)
    (overtaken : List Handle) : Prop where
  reaches : Reaches limits state { state with registry, disk, overtaken }
  names : registry.names = state.registry.names
  deletions : registry.deletions = state.registry.deletions
  stays : ∀ {handle stash}, state.registry.stash? handle = some stash →
    ∃ last, registry.stash? handle = some last ∧ last.name = stash.name ∧
      last.options = stash.options
  safe : ∀ {handle stash}, state.registry.stash? handle = some stash →
    stash.name ∉ state.registry.deletions → state.Safe handle →
    Safe { state with registry, disk, overtaken } handle

theorem Passed.refl (limits : Limits) (state : Upkeep) :
    Passed limits state state.registry state.disk state.overtaken where
  reaches := .refl
  names := rfl
  deletions := rfl
  stays found := ⟨_, found, rfl, rfl⟩
  safe _ _ safe := safe

theorem Passed.trans {registry last : Registry} {disk later : Disk}
    {overtaken final : List Handle} (first : Passed limits state registry disk overtaken)
    (rest : Passed limits { state with registry, disk, overtaken } last later final) :
    Passed limits state last later final where
  reaches := first.reaches.trans rest.reaches
  names := rest.names.trans first.names
  deletions := rest.deletions.trans first.deletions
  stays found := by
    rcases first.stays found with ⟨between, there, name, options⟩
    rcases rest.stays there with ⟨again, there', name', options'⟩
    exact ⟨again, there', name'.trans name, options'.trans options⟩
  safe found settled safe := by
    rcases first.stays found with ⟨between, there, name, _⟩
    refine rest.safe there ?_ (first.safe found settled safe)
    rw [name]
    exact first.deletions ▸ settled

/-- Saving a registered stash. -/
theorem exists_passed_saveAt (order : state.InOrder limit) (free : state.stage = .free)
    {name : String} (led : state.registry.handle? name = some handle) :
    ∃ overtaken, Passed limits state (state.registry.saveAt state.disk state.now handle).2.1
      (state.registry.saveAt state.disk state.now handle).2.2 overtaken := by
  rw [Registry.saveAt]
  split
  · exact ⟨_, .refl limits state⟩
  next stash found =>
  rcases (order.exists_contents led found).2 with ⟨contents, opened⟩
  cases marked : stash.dirty with
  | false =>
      simp only [Stash.takeDirty, marked, if_neg Bool.false_ne_true]
      exact ⟨_, .refl limits state⟩
  | true =>
      have saves := (order.sits found).saves marked
      have dirty : stash.takeDirty.1 = true := marked
      have saved := @save_of_open stash.takeDirty.2 contents opened state.disk state.now
      simp only [dirty, if_true, saved]
      rcases written : write state.disk
        (imageOf stash.takeDirty.2 (contents.entries state.now)) with ⟨error | _, disk⟩
      · have unsaved := @reaches_unsaved limits state handle stash contents free found marked opened
          error disk written
        rw [← free] at unsaved
        refine ⟨state.overtaken, unsaved, rfl, rfl,
          fun known => Registry.exists_stash?_put found id known ⟨rfl, rfl⟩, ?_⟩
        intro other rest known _ safe
        refine safe.imp_right ?_
        rintro ⟨again, there, dirty⟩
        exact Registry.exists_stash?_put found (fun _ => Stash.dirty_markDirty saves) there dirty
      · have done := @reaches_saved limits state handle stash contents free found marked opened disk
          written
        rw [← free] at done
        refine ⟨_, done, rfl, rfl,
          fun known => Registry.exists_stash?_put found id known ⟨rfl, rfl⟩, ?_⟩
        intro other rest known settled safe
        by_cases same : other = handle
        · subst same
          cases known.symm.trans found
          left
          rw [show Upkeep.overtaken _ = _ from if_neg settled]
          exact fun present => of_decide_eq_true (List.mem_filter.mp present).2 rfl
        · refine safe.imp ?_ ?_
          · intro fresh present
            dsimp only at present
            split at present
            · exact fresh ((List.mem_cons.mp present).resolve_left same)
            · exact fresh (List.mem_filter.mp present).1
          · rintro ⟨again, there, dirty⟩
            exact ⟨again, (Registry.stash?_put_ne (Ne.symm same) _).trans there, dirty⟩

/-- A pass through all registered stashes. -/
theorem exists_passed_saveDirty (order : state.InOrder limit) (free : state.stage = .free) :
    ∃ overtaken, Passed limits state (state.registry.saveDirty state.disk state.now).2.1
      (state.registry.saveDirty state.disk state.now).2.2 overtaken := by
  have led : ∀ handle ∈ state.registry.handles,
      ∃ name, state.registry.handle? name = some handle := by
    intro handle present
    rcases List.mem_map.mp present with ⟨⟨name, place⟩, entry, rfl⟩
    exact ⟨name, FiniteMap.mem_entries_iff.mp entry⟩
  rw [Registry.saveDirty]
  generalize state.registry.handles = handles at led
  generalize 0 = count
  induction handles generalizing state count with
  | nil => exact ⟨_, .refl limits state⟩
  | cons handle handles ih =>
      rcases led handle List.mem_cons_self with ⟨name, ledHere⟩
      rcases @exists_passed_saveAt limits limit state handle order free name ledHere with
        ⟨overtaken, first⟩
      rw [List.foldl_cons]
      have ready := first.reaches.inOrder order
      rcases ih ready free (fun other present => by
        rcases led other (.tail _ present) with ⟨name, led⟩
        refine ⟨name, ?_⟩
        rw [Registry.handle?, first.names]
        exact led) _ with ⟨final, rest⟩
      exact ⟨final, first.trans rest⟩

/-- Deleting all files that are still to be deleted. -/
theorem exists_reaches_runDeletions (limits : Limits) (state : Upkeep) :
    ∃ stuck, Reaches limits state { state with
        registry := (state.registry.runDeletions state.disk).1
        disk := (state.registry.runDeletions state.disk).2
        stuck } ∧
      ∀ name ∈ stuck, name ∈ state.stuck ∨ name ∈ state.registry.deletions := by
  rw [Registry.runDeletions]
  induction due : state.registry.deletions generalizing state with
  | nil =>
      have same : { state.registry with deletions := [] } = state.registry := by rw [← due]
      refine ⟨state.stuck, ?_, fun name present => .inl present⟩
      rw [same]
      exact .refl
  | cons name rest ih =>
      have delete : Step limits state _ := .delete (due ▸ List.mem_cons_self)
      rw [due, List.erase_cons_head] at delete
      rcases ih { state with
        registry := { state.registry with deletions := rest }
        disk := (Archive.delete state.disk name).2
        stuck := state.stuckAfter name (Archive.delete state.disk name).2 } rfl with
        ⟨stuck, reaches, known⟩
      refine ⟨stuck, .head delete reaches, ?_⟩
      intro other present
      rcases known other present with left | later
      · rw [stuckAfter] at left
        split at left
        · exact .inl left
        · rcases List.mem_cons.mp left with rfl | old
          · exact .inr List.mem_cons_self
          · exact .inl old
      · exact .inr (.tail _ later)

/-- What a server that stops leaves behind. -/
structure Stopped (limits : Limits) (state : Upkeep) (server : Server) (clock : Clock)
    (last : Upkeep) : Prop where
  reaches : Reaches limits state last
  disk : last.disk = server.stop clock
  free : last.stage = .free
  stored : last.stored = state.stored
  settled : last.registry.deletions = []
  names : last.registry.names = state.registry.names
  registered : last.registry.registered = (server.savePass clock).engine.registry.registered
  stuck : ∀ name ∈ last.stuck, name ∈ state.stuck ∨ name ∈ state.registry.deletions
  stays : ∀ {handle stash}, state.registry.stash? handle = some stash →
    ∃ again, last.registry.stash? handle = some again ∧ again.name = stash.name ∧
      again.options = stash.options
  safe : ∀ {handle stash}, state.registry.stash? handle = some stash →
    stash.name ∉ state.registry.deletions → state.Safe handle → last.Safe handle

theorem exists_stopped (order : state.InOrder limit) (free : state.stage = .free) {server : Server}
    (registry : server.engine.registry = state.registry) (disk : server.disk = state.disk)
    (scheduled : server.scheduler.isSome = true) {clock : Clock}
    (ordered : state.now ≤ clock.now) : ∃ last, Stopped limits state server clock last := by
  have waits := @reaches_later limits limit state order clock.now ordered
  rcases @exists_passed_saveDirty limits limit { state with now := clock.now } (waits.inOrder order)
    free with ⟨overtaken, passed⟩
  rcases exists_reaches_runDeletions limits { state with
    now := clock.now
    registry := (state.registry.saveDirty state.disk clock.now).2.1
    disk := (state.registry.saveDirty state.disk clock.now).2.2
    overtaken } with ⟨stuck, deleted, known⟩
  rcases Option.isSome_iff_exists.mp scheduled with ⟨scheduler, isThere⟩
  refine ⟨_, (waits.trans passed.reaches).trans deleted, ?_, free, rfl, rfl, passed.names, ?_, ?_,
    passed.stays, passed.safe⟩
  · rw [Server.stop, isThere]
    simp only [Server.savePass, Server.settle, Server.withRegistry, registry, disk]
  · simp only [Server.savePass, Server.withRegistry, registry, disk]
    rfl
  · intro name present
    rw [← passed.deletions]
    exact known name present

end Upkeep

end Larder
