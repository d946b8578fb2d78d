import Larder.Proofs.Stash.Answers
import Larder.Proofs.Stash.Invariant

/-!
# Stashes in use

The stashes that a server can have, as long as they are not dropped: new ones, and those that come
from them by calls.  The order in which their values are listed is left open.  Limits and times are
numbers of 64 bits, and stay so.
-/

namespace Larder.Stash

/-- Calls that do not drop the stash and whose times have 64 bits. -/
def Call.Usual (call : Call) : Prop :=
  call ≠ .close ∧
    ∀ entry, call = .restore entry → ∀ time, entry.expiresAt = some time → time ≤ Word64.largest

theorem Call.Usual.end?_le {call : Call} (usual : call.Usual) (now time : Nat)
    (given : call.end? now = some time) : time ≤ Word64.largest := by
  cases call with
  | setWithTtl _ _ ttl | updateTtl _ ttl =>
      cases given
      exact Word64.addSaturating_le_largest now ttl
  | restore entry => exact usual.2 entry rfl time given
  | _ => cases given

inductive Reached : Stash → Prop where
  | create (now : Nat) (name : String) {options : Options}
      (bounded : options.maxKeys ≤ Word64.largest) : Reached (create now name options)
  | after {stash : Stash} (reached : Reached stash) (now : Nat) {call : Call}
      (usual : call.Usual) : Reached (stash.after now call)
  | reorder {stash : Stash} {contents : Contents} {values : FiniteMap Bytes Bytes}
      (reached : Reached stash) (opened : stash.contents = some contents)
      (same : values.entries.Perm contents.values.entries) :
      Reached (stash.withContents { contents with values })

namespace Contents

variable {contents rest : Contents} {limit : Nat} {key : Bytes} {expiry : ExpiryWheel}

/-- No lifetime ends after the last time of 64 bits. -/
def Timely (contents : Contents) : Prop :=
  ∀ key time, contents.expiry.time? key = some time → time ≤ Word64.largest

theorem timely_empty (now : Nat) : (empty now).Timely :=
  nofun

theorem Timely.without {keys : List Bytes} (timely : contents.Timely)
    (lost : Without contents rest keys) : rest.Timely := by
  intro key time known
  rw [lost.time?] at known
  split at known
  · cases known
  · exact timely key time known

/-- Storing a value gives lifetimes only as it is told. -/
theorem Coherent.timely_store (coherent : contents.Coherent)
    (relabels : contents.Relabels key expiry) (value : Bytes)
    (timely : ∀ key time, expiry.time? key = some time → time ≤ Word64.largest) :
    (contents.store limit key value expiry).Timely := by
  have whole : (contents.put key value expiry).Timely := timely
  exact whole.without ((coherent.put relabels).evict limit).2

theorem Timely.retimes {now : Nat} {call : Call} (timely : contents.Timely)
    (given : ∀ time, call.end? now = some time → time ≤ Word64.largest)
    (retimes : contents.Retimes now call expiry) (key : Bytes) (time : Nat)
    (known : expiry.time? key = some time) : time ≤ Word64.largest :=
  (retimes key time known).elim (timely key time) (given time)

theorem Change.timely {now : Nat} {call : Call} {marks : Bool}
    (change : contents.Change limit now call rest marks) (coherent : contents.Coherent)
    (timely : contents.Timely)
    (given : ∀ time, call.end? now = some time → time ≤ Word64.largest) : rest.Timely := by
  cases change with
  | none | use _ => exact timely
  | store relabels retimes =>
      exact coherent.timely_store relabels _ (timely.retimes given retimes)
  | renew _ retimes => exact timely.retimes given retimes
  | lose lost => exact timely.without lost

theorem Coherent.reorder (coherent : contents.Coherent) {values : FiniteMap Bytes Bytes}
    (same : values.entries.Perm contents.values.entries) :
    { contents with values }.Coherent where
  recency := coherent.recency
  expiry := coherent.expiry
  tracked key := by
    rw [coherent.tracked, FiniteMap.contains_of_perm same]
  timed key time known := by
    rw [FiniteMap.contains_of_perm same]
    exact coherent.timed key time known
  batchLimit := coherent.batchLimit

end Contents

/-- A stash that is not dropped, whose structures agree, and whose numbers have 64 bits. -/
structure Healthy (stash : Stash) (contents : Contents) : Prop where
  opened : stash.contents = some contents
  room : 1 ≤ stash.options.maxKeys
  bounded : stash.options.maxKeys ≤ Word64.largest
  coherent : contents.Coherent
  size_le : contents.values.size ≤ stash.options.maxKeys
  timely : contents.Timely

/-- Lifetimes that can be written down: their ends have 64 bits, and none ends at the time zero,
which stands for no lifetime. -/
def TimesFit (entries : List Entry) : Prop :=
  ∀ entry ∈ entries, ∀ time, entry.expiresAt = some time → time ≠ 0 ∧ time ≤ Word64.largest

namespace Healthy

variable {stash : Stash} {contents : Contents}

theorem create (now : Nat) (name : String) {options : Options}
    (bounded : options.maxKeys ≤ Word64.largest) :
    (create now name options).Healthy (.empty now) :=
  ⟨rfl, Nat.le_max_left _ _, Nat.max_le.mpr ⟨by decide, bounded⟩, Contents.coherent_empty now,
    Nat.zero_le _, Contents.timely_empty now⟩

theorem change (healthy : stash.Healthy contents) {now : Nat} {call : Call} {next : Contents}
    {marks : Bool} {last : Stash}
    (change : contents.Change stash.options.maxKeys now call next marks)
    (became : stash.Became call next marks last) (usual : call.Usual) : last.Healthy next := by
  rcases healthy with ⟨_, room, bounded, coherent, size_le, timely⟩
  have sound := change.sound ⟨coherent, size_le, Nat.le_refl _⟩ room
  rw [← became.options] at room bounded sound
  exact ⟨became.contents, room, bounded, sound.coherent, sound.size_le,
    change.timely coherent timely (usual.end?_le now)⟩

/-- Every call but the last one keeps a stash healthy. -/
theorem exists_after (healthy : stash.Healthy contents) (now : Nat) {call : Call}
    (usual : call.Usual) : ∃ next, (stash.after now call).Healthy next := by
  rcases exists_change healthy.opened healthy.coherent healthy.size_le now usual.1 with
    ⟨next, marks, change, became⟩
  exact ⟨next, healthy.change change became usual⟩

theorem options_after (healthy : stash.Healthy contents) (now : Nat) {call : Call}
    (usual : call.Usual) : (stash.after now call).options = stash.options := by
  rcases exists_change healthy.opened healthy.coherent healthy.size_le now usual.1 with
    ⟨_, _, _, became⟩
  exact became.options

theorem markDirty (healthy : stash.Healthy contents) : stash.markDirty.Healthy contents :=
  ⟨healthy.opened, healthy.room, healthy.bounded, healthy.coherent, healthy.size_le,
    healthy.timely⟩

/-- A lifetime that is not over does not end at the time zero. -/
theorem timesFit_entries (healthy : stash.Healthy contents) (now : Nat) :
    TimesFit (contents.entries now) := by
  intro entry present time known
  rw [healthy.coherent.mem_entries] at present
  rcases present with ⟨found, live⟩
  constructor
  · rintro rfl
    rw [Entry.isLive, known] at live
    simp at live
  · rcases Option.map_eq_some_iff.mp found with ⟨value, _, same⟩
    rw [← same] at known
    exact healthy.timely _ time known

end Healthy

theorem Reached.exists_healthy {stash : Stash} (reached : Reached stash) :
    ∃ contents, stash.Healthy contents := by
  induction reached with
  | create now name bounded => exact ⟨_, .create now name bounded⟩
  | @after stash _ now call usual ih =>
      rcases ih with ⟨contents, healthy⟩
      exact healthy.exists_after now usual
  | @reorder stash contents values _ opened same ih =>
      rcases ih with ⟨_, opened', room, bounded, coherent, size_le, timely⟩
      cases opened.symm.trans opened'
      refine ⟨_, rfl, room, bounded, coherent.reorder same, ?_, timely⟩
      exact Nat.le_trans (Nat.le_of_eq same.length_eq) size_le

end Larder.Stash
