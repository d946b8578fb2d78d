import Larder.Proofs.Stash.Coherence

/-!
# Operations on a stash

What each operation does to a stash that is not dropped, in terms of what it holds; and the calls
that a stash takes, with their answers, one by one and in a row.
-/

namespace Larder.Stash

/-- The lifetimes under which a value is stored that is given none: a lifetime that is over is
forgotten. -/
def Contents.expiryKept (contents : Contents) (now : Nat) (key : Bytes) : ExpiryWheel :=
  if contents.isExpired now key then contents.expiry.erase key else contents.expiry

def Contents.expiryRestored (contents : Contents) (key : Bytes) : Option Nat → ExpiryWheel
  | some time => contents.expiry.insert key time
  | none => contents.expiry.erase key

section Lifetimes

namespace Contents

theorem time?_expiryKept (contents : Contents) (now : Nat) (key other : Bytes) :
    (contents.expiryKept now key).time? other =
      if other = key then (contents.expiry.time? key).filter (now < ·)
      else contents.expiry.time? other := by
  cases known : contents.expiry.time? key with
  | none =>
      simp only [expiryKept, isExpired, ExpiryWheel.isExpired, known, Option.any_none]
      by_cases same : other = key <;> simp [same, known]
  | some time =>
      simp only [expiryKept, isExpired, ExpiryWheel.isExpired, known, Option.any_some]
      rw [Option.filter_some]
      by_cases past : time ≤ now
      · by_cases same : other = key <;> simp [same, past, Nat.not_lt.mpr past]
      · by_cases same : other = key <;> simp [same, past, known, Nat.lt_of_not_le past]

theorem time?_expiryRestored (contents : Contents) (key other : Bytes) (expiresAt : Option Nat) :
    (contents.expiryRestored key expiresAt).time? other =
      if other = key then expiresAt else contents.expiry.time? other := by
  cases expiresAt <;> simp [expiryRestored]

variable {contents : Contents} (coherent : contents.Coherent) (now : Nat) (key : Bytes)

include coherent

theorem Coherent.relabels_expiryKept : contents.Relabels key (contents.expiryKept now key) := by
  refine ⟨?_, ?_, ?_⟩
  · rw [expiryKept]
    split
    · exact coherent.expiry.erase key
    · exact coherent.expiry
  · intro other different
    rw [time?_expiryKept, if_neg different]
  · rw [expiryKept]
    split
    · exact ExpiryWheel.batchLimit_erase key
    · rfl

theorem Coherent.relabels_add (ttl : Nat) :
    contents.Relabels key (contents.expiry.add now key ttl) := by
  refine ⟨coherent.expiry.insert key _, ?_, ExpiryWheel.batchLimit_insert key _⟩
  intro other different
  rw [ExpiryWheel.time?_add, if_neg different]

theorem Coherent.relabels_expiryRestored (expiresAt : Option Nat) :
    contents.Relabels key (contents.expiryRestored key expiresAt) := by
  refine ⟨?_, ?_, ?_⟩
  · cases expiresAt with
    | some time => exact coherent.expiry.insert key time
    | none => exact coherent.expiry.erase key
  · intro other different
    rw [time?_expiryRestored, if_neg different]
  · cases expiresAt with
    | some time => exact ExpiryWheel.batchLimit_insert key time
    | none => exact ExpiryWheel.batchLimit_erase key

end Contents

end Lifetimes

section Open

variable {stash : Stash} {contents : Contents} (opened : stash.contents = some contents)

include opened

theorem open?_of_open : stash.open? = .ok contents := by
  rw [open?, opened]

theorem withContents_of_open : stash.withContents contents = stash := by
  cases stash
  cases opened
  rfl

theorem set_of_open (now : Nat) (key value : Bytes) :
    stash.set now key value = .ok (stash.withContents (contents.store stash.options.maxKeys key
      value (contents.expiryKept now key))).markDirty := by
  rw [set, open?_of_open opened]
  rfl

theorem setWithTtl_of_open (now : Nat) (key value : Bytes) (ttl : Nat) :
    stash.setWithTtl now key value ttl = .ok (stash.withContents (contents.store
      stash.options.maxKeys key value (contents.expiry.add now key ttl))).markDirty := by
  rw [setWithTtl, open?_of_open opened]
  rfl

theorem restore_of_open (entry : Entry) :
    stash.restore entry = .ok (stash.withContents (contents.store stash.options.maxKeys entry.key
      entry.value (contents.expiryRestored entry.key entry.expiresAt))) := by
  rw [restore, open?_of_open opened]
  rfl

theorem get_of_open (now : Nat) (key : Bytes) :
    stash.get now key =
      if contents.isExpired now key then
        .ok (none, (stash.withContents (contents.erase key)).markDirty)
      else
        match contents.values.get? key with
        | some value => .ok (some value,
            stash.withContents { contents with recency := contents.recency.use key })
        | none => .ok (none, stash) := by
  rw [get, open?_of_open opened]
  rfl

theorem peek_of_open (now : Nat) (key : Bytes) :
    stash.peek now key =
      .ok (if contents.isExpired now key then none else contents.values.get? key) := by
  rw [peek, open?_of_open opened]
  rfl

theorem contains_of_open (now : Nat) (key : Bytes) :
    stash.contains now key =
      .ok (contents.values.contains key && !contents.isExpired now key) := by
  rw [contains, open?_of_open opened]
  rfl

theorem delete_of_open (key : Bytes) :
    stash.delete key = .ok (contents.values.contains key,
      if contents.values.contains key then (stash.withContents (contents.erase key)).markDirty
      else stash.withContents (contents.erase key)) := by
  rw [delete, open?_of_open opened]
  cases present : contents.values.contains key
  · exact if_neg (by simp [present])
  · exact if_pos present

theorem updateTtl_of_open (now : Nat) (key : Bytes) (ttl : Nat) :
    stash.updateTtl now key ttl =
      if contents.values.contains key && !contents.isExpired now key then
        .ok (true, (stash.withContents
          { contents with expiry := contents.expiry.add now key ttl }).markDirty)
      else .ok (false, stash) := by
  rw [updateTtl, open?_of_open opened]
  rfl

theorem evictKeys_of_open :
    stash.evictKeys = .ok ((contents.evict stash.options.maxKeys).1,
      stash.withContents (contents.evict stash.options.maxKeys).2) := by
  rw [evictKeys, open?_of_open opened]
  rfl

theorem size_of_open : stash.size = .ok contents.values.size := by
  rw [size, open?_of_open opened]
  rfl

theorem entries_of_open (now : Nat) : stash.entries now = .ok (contents.entries now) := by
  rw [entries, open?_of_open opened]
  rfl

theorem expireKeys_of_open (now : Nat) :
    stash.expireKeys now = .ok ((contents.expiry.expire now).1.length,
      if (contents.expiry.expire now).1 = [] then stash.withContents (contents.expired now)
      else (stash.withContents (contents.expired now)).markDirty) := by
  rw [expireKeys, open?_of_open opened]
  rfl

end Open

/-- A look-up finds the same whether or not the key is used by it. -/
theorem map_fst_get (stash : Stash) (now : Nat) (key : Bytes) :
    (stash.get now key).map Prod.fst = stash.peek now key := by
  cases held : stash.contents with
  | none => simp [get, peek, open?, held, bind, Except.bind, Except.map]
  | some contents =>
      rw [get_of_open held, peek_of_open held]
      split
      · rfl
      · split <;> simp_all [Except.map]

inductive Call where
  | set (key value : Bytes)
  | setWithTtl (key value : Bytes) (ttl : Nat)
  | restore (entry : Entry)
  | get (key : Bytes)
  | peek (key : Bytes)
  | contains (key : Bytes)
  | delete (key : Bytes)
  | updateTtl (key : Bytes) (ttl : Nat)
  | evictKeys
  | expireKeys
  | entries
  | size
  | takeDirty
  | close
  deriving Repr, DecidableEq

inductive Answer where
  | done
  | flag (holds : Bool)
  | count (number : Nat)
  | value (found : Option Bytes)
  | entries (listed : List Entry)
  deriving Repr, DecidableEq

/-- Answers a call at a reading of the clock. -/
def respond (stash : Stash) (now : Nat) : Call → Except Error (Answer × Stash)
  | .set key value => do return (.done, ← stash.set now key value)
  | .setWithTtl key value ttl => do return (.done, ← stash.setWithTtl now key value ttl)
  | .restore entry => do return (.done, ← stash.restore entry)
  | .get key => do
      let (found, next) ← stash.get now key
      return (.value found, next)
  | .peek key => do return (.value (← stash.peek now key), stash)
  | .contains key => do return (.flag (← stash.contains now key), stash)
  | .delete key => do
      let (found, next) ← stash.delete key
      return (.flag found, next)
  | .updateTtl key ttl => do
      let (found, next) ← stash.updateTtl now key ttl
      return (.flag found, next)
  | .evictKeys => do
      let (number, next) ← stash.evictKeys
      return (.count number, next)
  | .expireKeys => do
      let (number, next) ← stash.expireKeys now
      return (.count number, next)
  | .entries => do return (.entries (← stash.entries now), stash)
  | .size => do return (.count (← stash.size), stash)
  | .takeDirty => .ok (.flag stash.takeDirty.1, stash.takeDirty.2)
  | .close => .ok (.done, stash.close)

/-- The stash after a call.  A call that fails leaves no trace. -/
def after (stash : Stash) (now : Nat) (call : Call) : Stash :=
  match stash.respond now call with
  | .ok (_, next) => next
  | .error _ => stash

/-- Answers calls one after another, each at its own reading of the clock. -/
def run (stash : Stash) : List (Nat × Call) → List (Except Error Answer) × Stash
  | [] => ([], stash)
  | (now, call) :: calls =>
      let (answers, last) := (stash.after now call).run calls
      ((stash.respond now call).map Prod.fst :: answers, last)

end Larder.Stash
