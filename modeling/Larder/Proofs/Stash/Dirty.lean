import Larder.Proofs.Stash.Reached

/-!
# The mark of a change

A call that changes what a stash lists, now or at any later time, marks it as changed.
-/

namespace Larder.Stash

/-- Calls that are no part of saving, of restoring or of dropping a stash. -/
structure Call.Ordinary (call : Call) : Prop where
  notClose : call ≠ .close
  notTaking : call ≠ .takeDirty
  notRestore : ∀ entry, call ≠ .restore entry

theorem Call.Ordinary.size : Call.size.Ordinary :=
  ⟨nofun, nofun, nofun⟩

theorem Call.Ordinary.expireKeys : Call.expireKeys.Ordinary :=
  ⟨nofun, nofun, nofun⟩

theorem Call.Ordinary.set (key value : Bytes) : (Call.set key value).Ordinary :=
  ⟨nofun, nofun, nofun⟩

theorem Call.Ordinary.usual {call : Call} (ordinary : call.Ordinary) : call.Usual :=
  ⟨ordinary.notClose, fun entry isRestore => absurd isRestore (ordinary.notRestore entry)⟩

namespace Contents

variable {contents rest : Contents}

/-- Contents that list the same entries at any time. -/
def ListsLike (contents rest : Contents) : Prop :=
  ∀ now, (rest.entries now).Perm (contents.entries now)

theorem listsLike_refl (contents : Contents) : contents.ListsLike contents :=
  fun _ => .refl _

theorem Coherent.listsLike_of_records (coherent : contents.Coherent) (coherent' : rest.Coherent)
    (same : rest.records = contents.records) : contents.ListsLike rest := by
  intro now
  have left := coherent'.perm_entries now
  rw [same] at left
  exact left.trans (coherent.perm_entries now).symm

/-- What does not mark a stash, and is not read from the disk, does not change what is listed. -/
theorem Change.listsLike {limit now : Nat} {call : Call}
    (change : contents.Change limit now call rest false) (coherent : contents.Coherent)
    (notRestore : ∀ entry, call ≠ .restore entry) : contents.ListsLike rest := by
  cases change with
  | none => exact contents.listsLike_refl
  | use _ =>
      -- Nothing that is listed depends on the order of use.
      exact fun _ => .refl _
  | store _ _ restored =>
      rcases restored rfl with ⟨entry, isRestore⟩
      exact absurd isRestore (notRestore entry)
  | lose lost absent =>
      apply coherent.listsLike_of_records (lost.coherent coherent)
      rw [lost.records]
      exact coherent.filter_records_of_absent (absent rfl)

end Contents

variable {stash : Stash} {contents : Contents}

theorem dirty_markDirty (saves : stash.options.snapshots = true) :
    stash.markDirty.dirty = true := by
  rw [markDirty, saves, Bool.or_true]

/-- After a call, a stash that is saved to disk is marked or lists what it did before. -/
theorem Became.marked_or_listsLike {limit now : Nat} {call : Call} {next : Contents} {marks : Bool}
    {last : Stash} (became : stash.Became call next marks last)
    (change : contents.Change limit now call next marks) (coherent : contents.Coherent)
    (saves : stash.options.snapshots = true) (ordinary : call.Ordinary) :
    last.dirty = true ∨ last.dirty = stash.dirty ∧ contents.ListsLike next := by
  cases marks with
  | true =>
      left
      rw [became.marked rfl, saves, Bool.or_true]
  | false =>
      right
      exact ⟨became.unmarked rfl ordinary.notTaking, change.listsLike coherent ordinary.notRestore⟩

end Larder.Stash
