import Larder.Proofs.ExpiryRounds
import Larder.Proofs.Stash.Invariant
import Larder.Proofs.Stash.Refinement
import Larder.Proofs.Stash.Restoring
import Larder.Registry

/-!
# Due keys of a stash

A stash that is swept loses the keys whose lifetime is over, as many of them as the batches have
room for, and nothing else.  That a batch is not full shows that nothing is left to take, since a
batch goes on where the last one ended.
-/

namespace Larder

/-- The keys whose lifetime is over. -/
def ExpiryWheel.dueKeys (wheel : ExpiryWheel) (now : Nat) : List Bytes :=
  (wheel.index.entries.filter fun entry => entry.2 ≤ now).map Prod.fst

theorem ExpiryWheel.mem_dueKeys {wheel : ExpiryWheel} {now : Nat} {key : Bytes} :
    key ∈ wheel.dueKeys now ↔ wheel.isExpired now key = true := by
  simp only [dueKeys, List.mem_map, List.mem_filter, Prod.exists, exists_and_right,
    exists_eq_right, FiniteMap.mem_entries_iff, isExpired, time?, Option.any_eq_true]

theorem ExpiryWheel.WellFormed.perm_dueKeys {wheel : ExpiryWheel} (wellFormed : wheel.WellFormed)
    (now : Nat) :
    (wheel.dueKeys now).Perm ((wheel.dueAhead now bucketCount).map Prod.snd) := by
  apply (List.perm_ext_iff_of_nodup ?_ ?_).mpr
  · intro key
    rw [mem_dueKeys, wellFormed.mem_keys_dueAhead]
  · exact wheel.index.nodup.sublist (List.filter_sublist.map _)
  · exact wellFormed.nodup_keys_dueAhead now (Nat.le_refl _)

namespace Stash

/-- The keys of a stash whose lifetime is over.  A stash that is dropped has none. -/
def dueKeys (stash : Stash) (now : Nat) : List Bytes :=
  stash.contents.elim [] fun contents => contents.expiry.dueKeys now

/-- A stash that has lost some keys, and is marked by this as changed. -/
structure Lost (stash rest : Stash) (keys : List Bytes) : Prop where
  name : rest.name = stash.name
  options : rest.options = stash.options
  opened : ∀ {contents}, stash.contents = some contents →
    ∃ left, rest.contents = some left ∧ Contents.Without contents left keys
  closed : stash.contents = none → rest.contents = none
  dirty : rest.dirty = (stash.dirty || stash.options.snapshots && !keys.isEmpty)

/-- A stash whose structures agree, unless it is dropped, and that keeps its limit. -/
structure Steady (stash : Stash) : Prop where
  room : 1 ≤ stash.options.maxKeys
  coherent : ∀ {contents}, stash.contents = some contents → contents.Coherent
  size_le : ∀ {contents}, stash.contents = some contents →
    contents.values.size ≤ stash.options.maxKeys

variable {stash middle rest : Stash} {contents : Contents} {now : Nat}

section Lost

theorem Steady.lost_nil (steady : stash.Steady) : stash.Lost stash [] where
  name := rfl
  options := rfl
  opened held := ⟨_, held, (steady.coherent held).without_nil⟩
  closed gone := gone
  dirty := by simp

theorem Lost.trans {first second : List Bytes} (left : stash.Lost middle first)
    (right : middle.Lost rest second) : stash.Lost rest (first ++ second) where
  name := right.name.trans left.name
  options := right.options.trans left.options
  opened held := by
    rcases left.opened held with ⟨between, held', lost⟩
    rcases right.opened held' with ⟨last, held'', lost'⟩
    exact ⟨last, held'', lost.trans lost'⟩
  closed gone := right.closed (left.closed gone)
  dirty := by
    rw [right.dirty, left.dirty, left.options]
    cases first <;> cases second <;> simp

theorem Lost.steady {keys : List Bytes} (lost : stash.Lost rest keys) (steady : stash.Steady) :
    rest.Steady := by
  have kept {left : Contents} (held : rest.contents = some left) :
      left.Coherent ∧ left.values.size ≤ stash.options.maxKeys := by
    cases before : stash.contents with
    | none =>
        rw [lost.closed before] at held
        cases held
    | some contents =>
        rcases lost.opened before with ⟨left, held', without⟩
        cases held.symm.trans held'
        have coherent := steady.coherent before
        exact ⟨without.coherent coherent,
          Nat.le_trans (without.size_le coherent) (steady.size_le before)⟩
  refine ⟨?_, fun held => (kept held).1, fun held => ?_⟩
  · rw [lost.options]
    exact steady.room
  · rw [lost.options]
    exact (kept held).2

end Lost

section Sweep

/-- The entries that are due, in the order in which they are taken out. -/
def dueAhead (stash : Stash) (now : Nat) : List Expiry :=
  stash.contents.elim [] fun contents => contents.expiry.dueAhead now ExpiryWheel.bucketCount

theorem dueAhead_of_open (opened : stash.contents = some contents) (now : Nat) :
    stash.dueAhead now = contents.expiry.dueAhead now ExpiryWheel.bucketCount := by
  simp only [dueAhead, opened, Option.elim_some]

theorem dueAhead_of_closed (gone : stash.contents = none) (now : Nat) :
    stash.dueAhead now = [] := by
  simp only [dueAhead, gone, Option.elim_none]

theorem Steady.perm_dueKeys (steady : stash.Steady) (now : Nat) :
    (stash.dueKeys now).Perm ((stash.dueAhead now).map Prod.snd) := by
  cases held : stash.contents with
  | none => simp only [dueKeys, dueAhead, held, Option.elim_none, List.map_nil, List.Perm.refl]
  | some contents =>
      simp only [dueKeys, dueAhead, held, Option.elim_some]
      exact (steady.coherent held).expiry.perm_dueKeys now

theorem Steady.nodup_dueKeys (steady : stash.Steady) (now : Nat) :
    (stash.dueKeys now).Nodup := by
  rw [(steady.perm_dueKeys now).nodup_iff]
  cases held : stash.contents with
  | none => simp only [dueAhead_of_closed held, List.map_nil, List.nodup_nil]
  | some contents =>
      rw [dueAhead_of_open held]
      exact (steady.coherent held).expiry.nodup_keys_dueAhead now (Nat.le_refl _)

/-- Taking out a batch marks the stash if the batch is not empty. -/
theorem exists_expired (opened : stash.contents = some contents) (coherent : contents.Coherent)
    (now : Nat) :
    ∃ rest, stash.expireKeys now = .ok ((contents.expiry.expire now).1.length, rest) ∧
      rest.contents = some (contents.expired now) ∧
      stash.Lost rest (contents.expiry.expire now).1 := by
  refine ⟨_, expireKeys_of_open opened now, by split <;> rfl, by split <;> rfl, by split <;> rfl,
    ?_, ?_, ?_⟩
  · intro others held
    cases opened.symm.trans held
    exact ⟨contents.expired now, by split <;> rfl, coherent.without_expired now⟩
  · intro gone
    rw [opened] at gone
    cases gone
  · cases (contents.expiry.expire now).1 with
    | nil => simp [withContents]
    | cons key batch => simp [withContents, markDirty]

/-- A batch takes the front of what is due and leaves the rest of it. -/
theorem Steady.exists_expireKeys (steady : stash.Steady)
    (opened : stash.contents = some contents) (now : Nat) :
    let taken := (stash.dueAhead now).take ExpiryWheel.defaultBatchLimit
    ∃ rest, stash.expireKeys now = .ok (taken.length, rest) ∧
      stash.Lost rest (taken.map Prod.snd) ∧
      rest.dueAhead now = (stash.dueAhead now).drop ExpiryWheel.defaultBatchLimit := by
  intro taken
  have coherent := steady.coherent opened
  have batch := (coherent.expiry.expire now).1
  have behind := coherent.expiry.dueAhead_expire now
  rw [coherent.batchLimit, ← dueAhead_of_open opened] at batch behind
  rcases exists_expired opened coherent now with ⟨rest, expired, held, lost⟩
  rw [batch] at expired lost
  rw [List.length_map] at expired
  exact ⟨rest, expired, lost, (dueAhead_of_open held now).trans behind⟩

/-- A sweep takes the front of what is due and leaves the rest of it. -/
theorem Steady.sweep (steady : stash.Steady) (now rounds : Nat) :
    let taken := (stash.dueAhead now).take (rounds * ExpiryWheel.defaultBatchLimit)
    (stash.sweep now rounds).1 = taken.length ∧
      stash.Lost (stash.sweep now rounds).2 (taken.map Prod.snd) ∧
      (stash.sweep now rounds).2.dueAhead now =
        (stash.dueAhead now).drop (rounds * ExpiryWheel.defaultBatchLimit) := by
  induction rounds generalizing stash with
  | zero => simpa [Stash.sweep] using steady.lost_nil
  | succ rounds ih =>
      cases opened : stash.contents with
      | none =>
          have closed : stash.expireKeys now = .error .closed := by
            rw [expireKeys, open?, opened]
            rfl
          simp only [Stash.sweep, closed, dueAhead_of_closed opened, List.take_nil, List.drop_nil]
          exact ⟨rfl, steady.lost_nil, trivial⟩
      | some contents =>
          rcases steady.exists_expireKeys opened now with ⟨rest, expired, lost, behind⟩
          simp only [Stash.sweep, expired]
          by_cases short : ((stash.dueAhead now).take ExpiryWheel.defaultBatchLimit).length <
              ExpiryWheel.defaultBatchLimit
          · -- A batch that is not full has taken everything.
            rw [List.length_take] at short
            have enough : (stash.dueAhead now).length ≤
                (rounds + 1) * ExpiryWheel.defaultBatchLimit := by
              rw [Nat.succ_mul]
              omega
            rw [List.take_of_length_le (by omega)] at lost
            rw [List.drop_eq_nil_of_le (by omega)] at behind
            rw [List.length_take, if_pos short, List.take_of_length_le enough,
              List.drop_eq_nil_of_le enough]
            exact ⟨by omega, lost, behind⟩
          · rcases ih (lost.steady steady) with ⟨count, lost', behind'⟩
            rw [behind] at count lost' behind'
            rw [if_neg short]
            rw [ExpiryWheel.take_succ_mul, List.length_append, List.map_append, Nat.succ_mul,
              Nat.add_comm (_ * _), ← List.drop_drop]
            exact ⟨congrArg _ count, lost.trans lost', behind'⟩

/-- A sweep takes as many due keys as it has room for. -/
theorem Steady.exists_lost_sweep (steady : stash.Steady) (now rounds : Nat) :
    ∃ keys, stash.Lost (stash.sweep now rounds).2 keys ∧ keys.Nodup ∧
      keys ⊆ stash.dueKeys now ∧ (stash.sweep now rounds).1 = keys.length ∧
      keys.length =
        min (rounds * ExpiryWheel.defaultBatchLimit) (stash.dueKeys now).length := by
  rcases steady.sweep now rounds with ⟨count, lost, _⟩
  have due := steady.perm_dueKeys now
  have distinct := due.nodup_iff.mp (steady.nodup_dueKeys now)
  refine ⟨_, lost, distinct.sublist ((List.take_sublist _ _).map _), ?_, ?_, ?_⟩
  · intro key present
    exact due.mem_iff.mpr (List.map_subset _ (List.take_subset _ _) present)
  · rw [count, List.length_map]
  · rw [List.length_map, List.length_take, due.length_eq, List.length_map]

theorem Steady.length_dueKeys_sweep (steady : stash.Steady) (now rounds : Nat) :
    ((stash.sweep now rounds).2.dueKeys now).length =
      (stash.dueKeys now).length - rounds * ExpiryWheel.defaultBatchLimit := by
  rcases steady.sweep now rounds with ⟨_, lost, behind⟩
  have left := ((lost.steady steady).perm_dueKeys now).length_eq
  have due := (steady.perm_dueKeys now).length_eq
  rw [List.length_map] at left due
  rw [left, behind, List.length_drop, due]

end Sweep

section Calls

theorem steady_create (now : Nat) (name : String) (options : Options) :
    (create now name options).Steady where
  room := Nat.le_max_left _ _
  coherent held := by
    cases held
    exact Contents.coherent_empty now
  size_le held := by
    cases held
    exact Nat.zero_le _

theorem steady_of_closed (room : 1 ≤ stash.options.maxKeys) (gone : stash.contents = none) :
    stash.Steady := by
  constructor
  · exact room
  · intro contents held
    rw [gone] at held
    cases held
  · intro contents held
    rw [gone] at held
    cases held

theorem after_restore (stash : Stash) (now : Nat) (entry : Entry) :
    stash.after now (.restore entry) = (stash.restore entry).toOption.getD stash := by
  cases restored : stash.restore entry with
  | ok next => simp only [after, respond, restored, bind, Except.bind, pure, Except.pure]; rfl
  | error error => simp only [after, respond, restored, bind, Except.bind]; rfl

namespace Steady

theorem markDirty (steady : stash.Steady) : stash.markDirty.Steady :=
  ⟨steady.room, steady.coherent, steady.size_le⟩

theorem close (steady : stash.Steady) : stash.close.Steady :=
  steady_of_closed steady.room rfl

/-- Every call keeps the structures in agreement, or drops the stash. -/
theorem after (steady : stash.Steady) (now : Nat) (call : Call) :
    (stash.after now call).Steady := by
  by_cases isClose : call = .close
  · subst isClose
    exact steady.close
  cases opened : stash.contents with
  | some contents =>
      have sound : contents.Sound stash.options.maxKeys contents.recency.next :=
        ⟨steady.coherent opened, steady.size_le opened, Nat.le_refl _⟩
      rcases exists_sound_after opened steady.room sound now isClose with
        ⟨next, held, options, left⟩
      refine ⟨options ▸ steady.room, ?_, ?_⟩
      · intro others held'
        cases held.symm.trans held'
        exact left.coherent
      · intro others held'
        cases held.symm.trans held'
        exact options ▸ left.size_le
  | none =>
      by_cases isDirty : call = .takeDirty
      · subst isDirty
        exact steady_of_closed steady.room opened
      · rw [Stash.after, respond_of_closed opened now isDirty isClose]
        exact steady

theorem restoreAll (steady : stash.Steady) (entries : List Entry) :
    (stash.restoreAll entries).Steady := by
  induction entries generalizing stash with
  | nil => exact steady
  | cons entry entries ih =>
      rw [Stash.restoreAll, List.foldl_cons]
      exact ih (after_restore stash 0 entry ▸ steady.after 0 (.restore entry))

end Steady

end Calls

end Stash

end Larder
