import Larder.Proofs.Stash.Change

/-!
# What holds of a stash after any calls

Until it is dropped, a stash keeps its three structures in agreement and holds no more keys than
its limit, whatever it is asked and however the clock moves.  So there is never anything to evict
between two calls, and a call that stores a key does not evict that key.
-/

namespace Larder.Stash

/-- Contents whose structures agree, that keep a limit, and that gave out few numbers of use. -/
structure Contents.Sound (limit uses : Nat) (contents : Contents) : Prop where
  coherent : contents.Coherent
  size_le : contents.values.size ≤ limit
  next_le : contents.recency.next ≤ uses

namespace Contents

variable {contents rest : Contents} {limit uses : Nat}

theorem sound_empty (now : Nat) : (empty now).Sound limit 0 :=
  ⟨coherent_empty now, Nat.zero_le _, Nat.le_refl _⟩

namespace Sound

theorem succ (sound : contents.Sound limit uses) : contents.Sound limit (uses + 1) :=
  ⟨sound.coherent, sound.size_le, Nat.le_succ_of_le sound.next_le⟩

theorem without {keys : List Bytes} (sound : contents.Sound limit uses)
    (lost : Without contents rest keys) : rest.Sound limit (uses + 1) where
  coherent := lost.coherent sound.coherent
  size_le := Nat.le_trans (lost.size_le sound.coherent) sound.size_le
  next_le := lost.next ▸ Nat.le_succ_of_le sound.next_le

theorem store (sound : contents.Sound limit uses) (room : 1 ≤ limit) {key value : Bytes}
    {expiry : ExpiryWheel} (relabels : contents.Relabels key expiry) :
    (contents.store limit key value expiry).Sound limit (uses + 1) := by
  rcases sound.coherent.store relabels room value with ⟨coherent, size_le, _, next⟩
  exact ⟨coherent, size_le, next ▸ Nat.succ_le_succ sound.next_le⟩

end Sound

theorem Change.sound {now : Nat} {call : Call} {marks : Bool}
    (change : contents.Change limit now call rest marks) (sound : contents.Sound limit uses)
    (room : 1 ≤ limit) : rest.Sound limit (uses + 1) := by
  cases change with
  | none => exact sound.succ
  | use present =>
      exact ⟨sound.coherent.use present, sound.size_le, Nat.succ_le_succ sound.next_le⟩
  | store relabels => exact sound.store room relabels
  | renew relabels _ present =>
      exact ⟨sound.coherent.renew relabels present, sound.size_le, sound.succ.next_le⟩
  | lose lost => exact sound.without lost

end Contents

/-- Every call but the last one leaves a stash open and its contents sound. -/
theorem exists_sound_after {stash : Stash} {contents : Contents} {uses : Nat}
    (opened : stash.contents = some contents) (room : 1 ≤ stash.options.maxKeys)
    (sound : contents.Sound stash.options.maxKeys uses) (now : Nat) {call : Call}
    (kept : call ≠ .close) :
    ∃ next, (stash.after now call).contents = some next ∧
      (stash.after now call).options = stash.options ∧
      next.Sound stash.options.maxKeys (uses + 1) := by
  rcases exists_change opened sound.coherent sound.size_le now kept with
    ⟨next, marks, change, became⟩
  exact ⟨next, became.contents, became.options, change.sound sound room⟩

section Run

variable {stash : Stash} {contents : Contents}

theorem exists_sound_run {uses : Nat} {calls : List (Nat × Call)}
    (opened : stash.contents = some contents) (room : 1 ≤ stash.options.maxKeys)
    (sound : contents.Sound stash.options.maxKeys uses)
    (kept : ∀ step ∈ calls, step.2 ≠ .close) :
    ∃ last, (stash.run calls).2.contents = some last ∧
      (stash.run calls).2.options = stash.options ∧
      last.Sound stash.options.maxKeys (uses + calls.length) := by
  induction calls generalizing stash contents uses with
  | nil => exact ⟨contents, opened, rfl, sound⟩
  | cons step calls ih =>
      rcases step with ⟨now, call⟩
      rcases exists_sound_after opened room sound now (kept _ List.mem_cons_self) with
        ⟨next, nextOpened, options, nextSound⟩
      rw [← options] at room nextSound
      rcases ih nextOpened room nextSound fun step present => kept step (.tail _ present) with
        ⟨last, lastOpened, lastOptions, lastSound⟩
      refine ⟨last, lastOpened, lastOptions.trans options, ?_⟩
      rw [options] at lastSound
      rwa [List.length_cons, Nat.add_comm calls.length, ← Nat.add_assoc]

def Holds (stash : Stash) (key value : Bytes) : Prop :=
  ∃ contents, stash.contents = some contents ∧ contents.values.get? key = some value

/--
Whatever a new stash was asked, at whatever readings of the clock, as long as it is not dropped:
its values, its order of use and its lifetimes are about the same keys, and no more of them than
its limit.  So eviction finds nothing to do, and no call evicts the key that it stores.  Numbers of
use are unbounded, and every call gives out at most one.
-/
theorem structures_agree_after_calls (now : Nat) (name : String) (options : Options)
    (calls : List (Nat × Call)) (kept : ∀ step ∈ calls, step.2 ≠ .close) :
    let stash := ((create now name options).run calls).2
    ∃ contents, stash.contents = some contents ∧
      (∀ key, contents.values.contains key = true ↔ contents.recency.contains key = true) ∧
      (∀ key, contents.values.contains key = true ↔ key ∈ contents.recency.toList) ∧
      (∀ key time, contents.expiry.time? key = some time → contents.values.contains key = true) ∧
      (∀ place time key, (time, key) ∈ contents.expiry.bucket place →
        contents.values.contains key = true) ∧
      contents.values.size ≤ max 1 options.maxKeys ∧
      contents.recency.next ≤ calls.length ∧
      stash.evictKeys = .ok (0, stash) ∧
      (∀ clock key value, ∃ next, stash.set clock key value = .ok next ∧ next.Holds key value) ∧
      (∀ clock key value ttl,
        ∃ next, stash.setWithTtl clock key value ttl = .ok next ∧ next.Holds key value) ∧
      ∀ entry, ∃ next, stash.restore entry = .ok next ∧ next.Holds entry.key entry.value := by
  intro stash
  have room : 1 ≤ (create now name options).options.maxKeys := Nat.le_max_left _ _
  have opened : (create now name options).contents = some (.empty now) := rfl
  rcases exists_sound_run opened room (Contents.sound_empty now) kept with
    ⟨contents, opened, sameOptions, sound⟩
  have coherent := sound.coherent
  have size_le : contents.values.size ≤ max 1 options.maxKeys := sound.size_le
  rw [← sameOptions] at room sound
  have next_le := sound.next_le
  rw [Nat.zero_add] at next_le
  refine ⟨contents, opened, ?_, fun key => (coherent.tracked key).symm, coherent.timed, ?_,
    size_le, next_le, ?_, ?_, ?_, ?_⟩
  · intro key
    rw [← coherent.tracked, coherent.recency.mem_toList]
  · intro place time key stored
    exact coherent.timed key time ((coherent.expiry.stored _ _ _).mp stored).1
  · rw [evictKeys_of_open opened, Contents.evict_of_size_le sound.size_le,
      withContents_of_open opened]
  · intro clock key value
    refine ⟨_, set_of_open opened clock key value, _, rfl, ?_⟩
    exact (coherent.store (coherent.relabels_expiryKept clock key) room value).2.2.1
  · intro clock key value ttl
    refine ⟨_, setWithTtl_of_open opened clock key value ttl, _, rfl, ?_⟩
    exact (coherent.store (coherent.relabels_add clock key ttl) room value).2.2.1
  · intro entry
    refine ⟨_, restore_of_open opened entry, _, rfl, ?_⟩
    exact (coherent.store (coherent.relabels_expiryRestored _ _) room entry.value).2.2.1

/-- A stash with room for two keys that stores a third gives up the first. -/
theorem structures_agree_after_three_keys :
    let calls : List (Nat × Call) :=
      [(5, .set [1] [1]), (3, .setWithTtl [2] [2] 10), (9, .set [3] [3])]
    let stash := ((create 0 "three" { maxKeys := 2 }).run calls).2
    (∀ step ∈ calls, step.2 ≠ .close) ∧ stash.evictKeys = .ok (0, stash) ∧
      stash.contents.map (·.recency.toList) = some [[2], [3]] := by
  intro calls stash
  have kept : ∀ step ∈ calls, step.2 ≠ .close := by decide
  rcases structures_agree_after_calls 0 "three" { maxKeys := 2 } calls kept with
    ⟨_, _, _, _, _, _, _, _, nothing, _⟩
  exact ⟨kept, nothing, by decide⟩

end Run

end Larder.Stash
