import Larder.Proofs.ExpiryRounds
import Mathlib.Logic.Function.Basic

/-!
# The expiry wheel as a plain map

A wheel keeps every lifetime twice, as an entry in a bucket and as a time in the index.  Whatever is
called on it, the two say the same, and so it answers as a map does that has, for each key, the time
that was set last.  Which of the due keys a batch takes is up to the wheel: the map only says which
batches there may be.
-/

namespace Larder

namespace ExpiryWheel

/-- What changes a wheel. -/
inductive Call where
  | add (now : Nat) (key : Bytes) (ttl : Nat)
  | insert (key : Bytes) (time : Nat)
  | remove (key : Bytes)
  | expire (now : Nat)
  | clear
  deriving Repr, DecidableEq

inductive Answer where
  | done
  /-- Whether a key had a lifetime. -/
  | known (before : Bool)
  | batch (keys : List Bytes)
  deriving Repr, DecidableEq

/-- Answers a call. -/
def respond (wheel : ExpiryWheel) : Call → Answer × ExpiryWheel
  | .add now key ttl => (.done, wheel.add now key ttl)
  | .insert key time => (.done, wheel.insert key time)
  | .remove key => (wheel.remove key).map .known id
  | .expire now => (wheel.expire now).map .batch id
  | .clear => (.done, wheel.clear)

/-- Answers calls one after another. -/
def run (wheel : ExpiryWheel) : List Call → List Answer × ExpiryWheel
  | [] => ([], wheel)
  | call :: calls =>
    let (answer, next) := wheel.respond call
    let (answers, last) := run next calls
    (answer :: answers, last)

/-- The entries of all buckets. -/
def entries (wheel : ExpiryWheel) : List Expiry :=
  (List.range bucketCount).flatMap wheel.bucket

end ExpiryWheel

/-- A plain map from keys to the times at which their lifetimes are over. -/
def ExpiryTimes :=
  Bytes → Option Nat

namespace ExpiryTimes

open ExpiryWheel (Call Answer)

def empty : ExpiryTimes :=
  fun _ => none

def set (times : ExpiryTimes) (key : Bytes) (time : Nat) : ExpiryTimes :=
  Function.update times key (some time)

def without (times : ExpiryTimes) (keys : List Bytes) : ExpiryTimes :=
  fun key => if keys.contains key then none else times key

def isDue (times : ExpiryTimes) (now : Nat) (key : Bytes) : Bool :=
  (times key).any (· ≤ now)

/-- One call, its answer and the map afterwards, where a batch holds a limited number of keys. -/
inductive Step (limit : Nat) : ExpiryTimes → Call → Answer → ExpiryTimes → Prop where
  | add (times : ExpiryTimes) (now : Nat) (key : Bytes) (ttl : Nat) :
      Step limit times (.add now key ttl) .done (times.set key (Word64.addSaturating now ttl))
  | insert (times : ExpiryTimes) (key : Bytes) (time : Nat) :
      Step limit times (.insert key time) .done (times.set key time)
  | remove (times : ExpiryTimes) (key : Bytes) :
      Step limit times (.remove key) (.known (times key).isSome) (times.without [key])
  /-- A batch that is not full has every key that is due. -/
  | expire {times : ExpiryTimes} {now : Nat} {keys : List Bytes} (distinct : keys.Nodup)
      (due : ∀ key ∈ keys, times.isDue now key = true) (within : keys.length ≤ limit)
      (all : keys.length < limit → ∀ key, times.isDue now key = true → key ∈ keys) :
      Step limit times (.expire now) (.batch keys) (times.without keys)
  | clear (times : ExpiryTimes) : Step limit times .clear .done empty

inductive Run (limit : Nat) : ExpiryTimes → List Call → List Answer → ExpiryTimes → Prop where
  | nil (times : ExpiryTimes) : Run limit times [] [] times
  | cons {times next last : ExpiryTimes} {call : Call} {calls : List Call} {answer : Answer}
      {answers : List Answer} (first : Step limit times call answer next)
      (rest : Run limit next calls answers last) :
      Run limit times (call :: calls) (answer :: answers) last

end ExpiryTimes

namespace ExpiryWheel

variable {wheel rest : ExpiryWheel}

section Views

/-- The map that a wheel stands for. -/
def times (wheel : ExpiryWheel) : ExpiryTimes :=
  wheel.time?

theorem times_insert (key : Bytes) (time : Nat) :
    (wheel.insert key time).times = wheel.times.set key time := by
  funext other
  simp [times, ExpiryTimes.set, Function.update_apply]

theorem times_erase (key : Bytes) : (wheel.erase key).times = wheel.times.without [key] := by
  funext other
  simp [times, ExpiryTimes.without]

theorem Without.times {keys : List Bytes} (lost : Without wheel rest keys) :
    rest.times = wheel.times.without keys := by
  funext key
  simp [ExpiryWheel.times, ExpiryTimes.without, lost.time?]

end Views

section Calls

theorem WellFormed.respond (wellFormed : wheel.WellFormed) (call : Call) :
    (wheel.respond call).2.WellFormed := by
  cases call with
  | add now key ttl => exact wellFormed.insert key _
  | insert key time => exact wellFormed.insert key time
  | remove key => exact wellFormed.erase key
  | expire now => exact (wellFormed.expire now).2.wellFormed wellFormed
  | clear => exact wellFormed.clear

theorem WellFormed.batchLimit_respond (wellFormed : wheel.WellFormed) (call : Call) :
    (wheel.respond call).2.batchLimit = wheel.batchLimit := by
  cases call with
  | add now key ttl => exact batchLimit_insert key _
  | insert key time => exact batchLimit_insert key time
  | remove key => exact batchLimit_erase key
  | expire now => exact (wellFormed.expire now).2.batchLimit
  | clear => rfl

/-- A batch of the wheel is one that the map allows. -/
theorem WellFormed.step_expire (wellFormed : wheel.WellFormed) (now : Nat) :
    ExpiryTimes.Step wheel.batchLimit wheel.times (.expire now) (.batch (wheel.expire now).1)
      (wheel.expire now).2.times := by
  rcases wellFormed.expire now with ⟨batch, lost⟩
  rw [batch, lost.times]
  have distinct := wellFormed.nodup_keys_dueAhead now (Nat.le_refl _)
  refine .expire (distinct.sublist ((List.take_sublist _ _).map _)) ?_ ?_ ?_
  · intro key taken
    have due := List.map_subset _ (List.take_subset _ _) taken
    exact wellFormed.mem_keys_dueAhead.mp due
  · rw [List.length_map]
    exact List.length_take_le _ _
  · intro short key isDue
    rw [List.length_map, List.length_take] at short
    rw [List.take_of_length_le (by omega)]
    exact wellFormed.mem_keys_dueAhead.mpr isDue

theorem WellFormed.step (wellFormed : wheel.WellFormed) (call : Call) :
    ExpiryTimes.Step wheel.batchLimit wheel.times call (wheel.respond call).1
      (wheel.respond call).2.times := by
  cases call with
  | add now key ttl =>
      change ExpiryTimes.Step _ _ _ .done (wheel.insert key _).times
      rw [times_insert]
      exact .add _ now key ttl
  | insert key time =>
      change ExpiryTimes.Step _ _ _ .done (wheel.insert key time).times
      rw [times_insert]
      exact .insert _ key time
  | remove key =>
      change ExpiryTimes.Step _ _ _ (.known _) (wheel.erase key).times
      rw [times_erase]
      exact .remove _ key
  | expire now => exact wellFormed.step_expire now
  | clear => exact .clear _

/-- Whatever is called on a wheel, its answers are those of the map it stands for. -/
theorem WellFormed.run (wellFormed : wheel.WellFormed) (calls : List Call) :
    (wheel.run calls).2.WellFormed ∧
      ExpiryTimes.Run wheel.batchLimit wheel.times calls (wheel.run calls).1
        (wheel.run calls).2.times := by
  induction calls generalizing wheel with
  | nil => exact ⟨wellFormed, .nil _⟩
  | cons call calls ih =>
      rcases ih (wellFormed.respond call) with ⟨wellFormed', rest⟩
      rw [wellFormed.batchLimit_respond] at rest
      exact ⟨wellFormed', .cons (wellFormed.step call) rest⟩

end Calls

section Entries

theorem WellFormed.mem_entries (wellFormed : wheel.WellFormed) {time : Nat} {key : Bytes} :
    (time, key) ∈ wheel.entries ↔ wheel.time? key = some time := by
  simp only [entries, List.mem_flatMap, List.mem_range, wellFormed.stored]
  constructor
  · rintro ⟨_, _, known, _⟩
    exact known
  · intro known
    exact ⟨bucketOf time, bucketOf_lt time, known, rfl⟩

theorem WellFormed.nodup_keys_entries (wellFormed : wheel.WellFormed) :
    (wheel.entries.map Prod.snd).Nodup :=
  wellFormed.nodup_keys_flatMap List.nodup_range

/-- The index has the keys of the entries. -/
theorem WellFormed.size_eq (wellFormed : wheel.WellFormed) :
    wheel.size = wheel.entries.length := by
  have same : wheel.index.keys.Perm (wheel.entries.map Prod.snd) := by
    apply (List.perm_ext_iff_of_nodup wheel.index.nodup_keys wellFormed.nodup_keys_entries).mpr
    intro key
    rw [FiniteMap.mem_keys_iff, FiniteMap.contains, Option.isSome_iff_exists, List.mem_map]
    simp only [Prod.exists, exists_eq_right, wellFormed.mem_entries, time?]
  rw [size, ← FiniteMap.length_keys, same.length_eq, List.length_map]

end Entries

/--
Whatever is called on a new wheel, an entry is in the bucket of its minute of the day exactly if the
index has its time under its key, and in no other bucket.  So no key has two entries, and there are
as many entries as keys.  The wheel has answered as a plain map from keys to the times set last
would, and what it says of a key from here on is what that map says.
-/
theorem answers_as_plain_map (now limit : Nat) (calls : List Call) :
    let answers := ((empty now limit).run calls).1
    let wheel := ((empty now limit).run calls).2
    (∀ place time key, (time, key) ∈ wheel.bucket place ↔
        wheel.time? key = some time ∧ place = time / 60000 % 1440) ∧
      (wheel.entries.map Prod.snd).Nodup ∧
      wheel.size = wheel.entries.length ∧
      ∃ times, ExpiryTimes.Run (max 1 limit) ExpiryTimes.empty calls answers times ∧
        (∀ key, wheel.time? key = times key) ∧
        (∀ now key, wheel.isExpired now key = times.isDue now key) ∧
        ∀ key, (wheel.remove key).1 = (times key).isSome := by
  intro answers wheel
  rcases (wellFormed_empty now limit).run calls with ⟨wellFormed, run⟩
  exact ⟨wellFormed.stored, wellFormed.nodup_keys_entries, wellFormed.size_eq, wheel.times, run,
    fun _ => rfl, fun _ _ => rfl, fun _ => rfl⟩

end ExpiryWheel

end Larder
