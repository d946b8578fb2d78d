import Larder.Proofs.Stash.Operation

/-!
# What a call can do

A call to a stash that is not dropped leaves its contents, uses, stores or renews one key, or takes
keys out.  What calls keep is shown for these few changes, and not call by call.
-/

namespace Larder.Stash

/-- When the lifetime ends that a call gives. -/
def Call.end? (now : Nat) : Call → Option Nat
  | .setWithTtl _ _ ttl | .updateTtl _ ttl => some (Word64.addSaturating now ttl)
  | .restore entry => entry.expiresAt
  | _ => none

namespace Contents

/-- Times that are those of contents, but for those that a call gives. -/
def Retimes (contents : Contents) (now : Nat) (call : Call) (expiry : ExpiryWheel) : Prop :=
  ∀ key time, expiry.time? key = some time →
    contents.expiry.time? key = some time ∨ call.end? now = some time

/-- What a call makes of contents that have a limit, and whether the stash is marked by it. -/
inductive Change (contents : Contents) (limit now : Nat) (call : Call) :
    Contents → Bool → Prop where
  | none : Change contents limit now call contents false
  | use {key : Bytes} (present : contents.values.contains key = true) :
      Change contents limit now call { contents with recency := contents.recency.use key } false
  /-- Only what is restored from the disk is no change to what is on the disk. -/
  | store {key value : Bytes} {expiry : ExpiryWheel} {marks : Bool}
      (relabels : contents.Relabels key expiry) (retimes : contents.Retimes now call expiry)
      (restored : marks = false → ∃ entry, call = .restore entry) :
      Change contents limit now call (contents.store limit key value expiry) marks
  | renew {key : Bytes} {expiry : ExpiryWheel} (relabels : contents.Relabels key expiry)
      (retimes : contents.Retimes now call expiry)
      (present : contents.values.contains key = true) :
      Change contents limit now call { contents with expiry } true
  | lose {rest : Contents} {keys : List Bytes} {marks : Bool} (lost : Without contents rest keys)
      (absent : marks = false → ∀ key ∈ keys, contents.values.get? key = .none) :
      Change contents limit now call rest marks

variable {contents : Contents}

theorem Change.loss {limit now : Nat} {call : Call} {rest : Contents} {keys : List Bytes}
    (lost : Without contents rest keys) : contents.Change limit now call rest true :=
  .lose lost nofun

theorem retimes_expiryKept (now : Nat) (call : Call) (key : Bytes) :
    contents.Retimes now call (contents.expiryKept now key) := by
  intro other time known
  rw [time?_expiryKept] at known
  split at known
  · next same => exact .inl (same ▸ (Option.filter_eq_some_iff.mp known).1)
  · exact .inl known

theorem retimes_add {now ttl : Nat} {call : Call}
    (given : call.end? now = some (Word64.addSaturating now ttl)) (key : Bytes) :
    contents.Retimes now call (contents.expiry.add now key ttl) := by
  intro other time known
  rw [ExpiryWheel.time?_add] at known
  split at known
  · exact .inr (given.trans known)
  · exact .inl known

theorem retimes_expiryRestored {now : Nat} {call : Call} (key : Bytes) :
    contents.Retimes now call (contents.expiryRestored key (call.end? now)) := by
  intro other time known
  rw [time?_expiryRestored] at known
  split at known
  · exact .inr known
  · exact .inl known

end Contents

/-- A stash after a call that made other contents of its contents. -/
structure Became (stash : Stash) (call : Call) (next : Contents) (marks : Bool) (last : Stash) :
    Prop where
  contents : last.contents = some next
  name : last.name = stash.name
  options : last.options = stash.options
  marked : marks = true → last.dirty = (stash.dirty || stash.options.snapshots)
  unmarked : marks = false → call ≠ .takeDirty → last.dirty = stash.dirty

variable {stash : Stash} {contents : Contents} {call : Call}

theorem became_marked (next : Contents) :
    stash.Became call next true (stash.withContents next).markDirty :=
  ⟨rfl, rfl, rfl, fun _ => rfl, nofun⟩

theorem became_unmarked (next : Contents) :
    stash.Became call next false (stash.withContents next) :=
  ⟨rfl, rfl, rfl, nofun, fun _ _ => rfl⟩

theorem became_self (opened : stash.contents = some contents) :
    stash.Became call contents false stash :=
  ⟨opened, rfl, rfl, nofun, fun _ _ => rfl⟩

theorem became_takeDirty (opened : stash.contents = some contents) :
    stash.Became .takeDirty contents false stash.takeDirty.2 :=
  ⟨opened, rfl, rfl, nofun, fun _ notTaking => absurd rfl notTaking⟩

/-- Every call but the last one makes one of the changes. -/
theorem exists_change (opened : stash.contents = some contents) (coherent : contents.Coherent)
    (size_le : contents.values.size ≤ stash.options.maxKeys) (now : Nat) (kept : call ≠ .close) :
    ∃ next marks, contents.Change stash.options.maxKeys now call next marks ∧
      stash.Became call next marks (stash.after now call) := by
  cases call with
  | set key value =>
      rw [after, respond, set_of_open opened]
      exact ⟨_, true, .store (coherent.relabels_expiryKept now key)
        (Contents.retimes_expiryKept now _ key) nofun, became_marked _⟩
  | setWithTtl key value ttl =>
      rw [after, respond, setWithTtl_of_open opened]
      exact ⟨_, true, .store (coherent.relabels_add now key ttl)
        (Contents.retimes_add rfl key) nofun, became_marked _⟩
  | restore entry =>
      rw [after, respond, restore_of_open opened]
      exact ⟨_, false, .store (coherent.relabels_expiryRestored entry.key _)
        (@Contents.retimes_expiryRestored contents now (.restore entry) entry.key)
        (fun _ => ⟨entry, rfl⟩), became_unmarked _⟩
  | get key =>
      rw [after, respond, get_of_open opened]
      by_cases past : contents.isExpired now key = true
      · rw [if_pos past]
        exact ⟨_, true, .loss (coherent.without_erase key), became_marked _⟩
      · rw [if_neg past]
        cases held : contents.values.get? key with
        | some value =>
            exact ⟨_, false, .use (FiniteMap.contains_of_get? held), became_unmarked _⟩
        | none => exact ⟨_, false, .none, became_self opened⟩
  | delete key =>
      rw [after, respond, delete_of_open opened]
      have lost := coherent.without_erase key
      cases held : contents.values.get? key with
      | some value =>
          have present := FiniteMap.contains_of_get? held
          simp only [present, if_true]
          exact ⟨_, true, .loss lost, became_marked _⟩
      | none =>
          have absent : contents.values.contains key = false := by
            rw [FiniteMap.contains, held]
            rfl
          simp only [absent, if_neg Bool.false_ne_true]
          exact ⟨_, false, .lose lost fun _ => List.forall_mem_singleton.mpr held,
            became_unmarked _⟩
  | updateTtl key ttl =>
      rw [after, respond, updateTtl_of_open opened]
      by_cases live : (contents.values.contains key && !contents.isExpired now key) = true
      · rw [if_pos live]
        exact ⟨_, true, .renew (coherent.relabels_add now key ttl) (Contents.retimes_add rfl key)
          (Bool.and_eq_true_iff.mp live).1, became_marked _⟩
      · rw [if_neg live]
        exact ⟨_, false, .none, became_self opened⟩
  | evictKeys =>
      rw [after, respond, evictKeys_of_open opened, Contents.evict_of_size_le size_le]
      exact ⟨_, false, .none, became_unmarked _⟩
  | expireKeys =>
      rw [after, respond, expireKeys_of_open opened]
      have lost := coherent.without_expired now
      by_cases nothing : (contents.expiry.expire now).1 = []
      · rw [if_pos nothing]
        rw [nothing] at lost
        exact ⟨_, false, .lose lost fun _ => List.forall_mem_nil _, became_unmarked _⟩
      · rw [if_neg nothing]
        exact ⟨_, true, .loss lost, became_marked _⟩
  | peek | contains | entries | size =>
      simp only [after, respond, peek_of_open opened, contains_of_open opened,
        entries_of_open opened, size_of_open opened]
      exact ⟨_, false, .none, became_self opened⟩
  | takeDirty => exact ⟨_, false, .none, became_takeDirty opened⟩
  | close => exact absurd rfl kept

end Larder.Stash
