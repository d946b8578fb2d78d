import Larder.Proofs.Stash.Answers
import Larder.Proofs.Stash.Reached

/-!
# Stashes without some of what is over

One stash may lack keys of another, as long as their lifetime is over.  Nobody who looks a key up
can tell the two apart, and every call leaves them so, unless one of them has to give up keys for
its limit: the leaner one has room for longer.
-/

namespace Larder.Stash

namespace Contents

/-- The keys and values of contents whose lifetime is not over, and no other keys than theirs. -/
structure Leaner (now : Nat) (leaner contents : Contents) : Prop where
  live? : ∀ key, leaner.live? now key = contents.live? now key
  keys : ∀ key, leaner.values.contains key = true → contents.values.contains key = true

variable {contents leaner rest : Contents} {now : Nat} {key : Bytes}

section Lookup

theorem live?_later {later : Nat} (ordered : now ≤ later) (key : Bytes) :
    contents.live? later key = (contents.live? now key).filter (Entry.isLive later) := by
  simp only [live?, Option.filter_filter]
  congr 1
  funext record
  cases live : record.isLive later with
  | false => simp
  | true => simp [Entry.isLive_of_le ordered live]

theorem get?_of_live? {record : Entry} (live : contents.live? now key = some record) :
    contents.values.get? key = some record.value := by
  rw [← map_value_record?, (Option.filter_eq_some_iff.mp live).1]
  rfl

theorem Without.live? {keys : List Bytes} (lost : Without contents rest keys) (key : Bytes) :
    rest.live? now key = if key ∈ keys then none else contents.live? now key := by
  simp only [Contents.live?, lost.record?]
  split <;> rfl

theorem live?_put {expiry : ExpiryWheel} (relabels : contents.Relabels key expiry) (value : Bytes)
    (other : Bytes) :
    (contents.put key value expiry).live? now other =
      if other = key then (some ⟨key, value, expiry.time? key⟩).filter (Entry.isLive now)
      else contents.live? now other := by
  by_cases same : other = key
  · subst same
    simp [Contents.live?, record?, put, entry]
  · simp only [Contents.live?, record?, put, FiniteMap.get?_insert, if_neg same]
    congr 2
    funext value'
    simp only [entry, relabels.time? other same]

theorem live?_renew {expiry : ExpiryWheel} (relabels : contents.Relabels key expiry)
    (other : Bytes) :
    Contents.live? { contents with expiry } now other =
      if other = key then ((contents.values.get? key).map fun value =>
        (⟨key, value, expiry.time? key⟩ : Entry)).filter (Entry.isLive now)
      else contents.live? now other := by
  by_cases same : other = key
  · subst same
    rw [if_pos rfl]
    rfl
  · simp only [Contents.live?, record?, if_neg same]
    congr 2
    funext value'
    simp only [entry, relabels.time? other same]

/-- A lifetime that is not over belongs to a key that has a value. -/
theorem Coherent.filter_time? (coherent : contents.Coherent) (now : Nat) (key : Bytes) :
    (contents.expiry.time? key).filter (now < ·) =
      (contents.live? now key).bind Entry.expiresAt := by
  rw [Contents.live?, filter_isLive_record?, isExpired, ExpiryWheel.isExpired]
  cases known : contents.expiry.time? key with
  | none =>
      cases held : contents.values.get? key <;> simp [record?, held, entry, known]
  | some time =>
      have present := coherent.timed key time known
      rcases FiniteMap.contains_eq_true_iff.mp present with ⟨value, held⟩
      rw [Option.any_some, Option.filter_some]
      by_cases past : time ≤ now
      · simp [past, Nat.not_lt.mpr past]
      · simp [past, Nat.lt_of_not_le past, record?, held, entry, known]

end Lookup

namespace Leaner

theorem refl (now : Nat) (contents : Contents) : Leaner now contents contents :=
  ⟨fun _ => rfl, fun _ => id⟩

theorem later (fewer : Leaner now leaner contents) {later : Nat} (ordered : now ≤ later) :
    Leaner later leaner contents := by
  refine ⟨?_, fewer.keys⟩
  intro key
  rw [live?_later ordered, live?_later ordered, fewer.live?]

theorem size_le (fewer : Leaner now leaner contents) :
    leaner.values.size ≤ contents.values.size :=
  FiniteMap.size_le_of_contains fewer.keys

/-- Taking out a batch of keys makes contents leaner. -/
theorem expired (fewer : Leaner now leaner contents) (coherent : leaner.Coherent) :
    Leaner now (leaner.expired now) contents := by
  have lost := coherent.without_expired now
  constructor
  · intro key
    rw [lost.live?, ← fewer.live?]
    split
    · next taken =>
      rcases coherent.expiry.expire now with ⟨batch, _⟩
      rw [batch] at taken
      rcases List.mem_map.mp taken with ⟨⟨time, _⟩, present, rfl⟩
      have ahead := (List.take_sublist _ _).subset present
      rcases coherent.expiry.mem_dueAhead.mp ahead with ⟨known, past⟩
      rw [Contents.live?, filter_isLive_record?, if_pos]
      simp [isExpired, ExpiryWheel.isExpired, known, past]
    · rfl
  · intro key present
    exact fewer.keys key ((lost.contains key).mp present).2

theorem erase (fewer : Leaner now leaner contents) (coherent : leaner.Coherent)
    (coherent' : contents.Coherent) (key : Bytes) :
    Leaner now (leaner.erase key) (contents.erase key) := by
  have lost := coherent.without_erase key
  have lost' := coherent'.without_erase key
  constructor
  · intro other
    rw [lost.live?, lost'.live?, fewer.live?]
  · intro other present
    rw [lost.contains] at present
    rw [lost'.contains]
    exact ⟨present.1, fewer.keys other present.2⟩

theorem put (fewer : Leaner now leaner contents) {expiry expiry' : ExpiryWheel}
    (relabels : leaner.Relabels key expiry) (relabels' : contents.Relabels key expiry')
    (same : expiry.time? key = expiry'.time? key) (value : Bytes) :
    Leaner now (leaner.put key value expiry) (contents.put key value expiry') := by
  constructor
  · intro other
    rw [live?_put relabels, live?_put relabels', same, fewer.live?]
  · intro other present
    simp only [Contents.put, FiniteMap.contains_insert, Bool.or_eq_true] at present ⊢
    exact present.imp id (fewer.keys other)

theorem renew (fewer : Leaner now leaner contents) {expiry expiry' : ExpiryWheel}
    (relabels : leaner.Relabels key expiry) (relabels' : contents.Relabels key expiry')
    (same : expiry.time? key = expiry'.time? key)
    (held : leaner.values.get? key = contents.values.get? key) :
    Leaner now { leaner with expiry } { contents with expiry := expiry' } := by
  refine ⟨?_, fewer.keys⟩
  intro other
  rw [live?_renew relabels, live?_renew relabels', same, held, fewer.live?]

end Leaner

theorem Coherent.size_le_of_evict (coherent : contents.Coherent) {limit : Nat}
    (nothing : (contents.evict limit).1 = 0) : contents.values.size ≤ limit := by
  have excess := (coherent.evict limit).1
  rw [nothing, coherent.length_toList] at excess
  omega

/-- If nothing is given up for the limit, what is stored stays with all the rest. -/
theorem Coherent.store_of_evict {limit : Nat} {value : Bytes} {expiry : ExpiryWheel}
    (coherent : contents.Coherent) (relabels : contents.Relabels key expiry)
    (nothing : ((contents.put key value expiry).evict limit).1 = 0) :
    contents.store limit key value expiry = contents.put key value expiry := by
  have whole : (contents.put key value expiry).Coherent := coherent.put relabels
  rw [store_eq, evict_of_size_le (whole.size_le_of_evict nothing)]

/-- Contents with what a call stores, before any key is given up for the limit. -/
def filled (contents : Contents) (now : Nat) : Call → Contents
  | .set key value => contents.put key value (contents.expiryKept now key)
  | .setWithTtl key value ttl => contents.put key value (contents.expiry.add now key ttl)
  | .restore entry =>
    contents.put entry.key entry.value (contents.expiryRestored entry.key entry.expiresAt)
  | _ => contents

theorem Coherent.filled (coherent : contents.Coherent) (now : Nat) (call : Call) :
    (contents.filled now call).Coherent := by
  cases call with
  | set key value => exact coherent.put (coherent.relabels_expiryKept now key)
  | setWithTtl key value ttl => exact coherent.put (coherent.relabels_add now key ttl)
  | restore entry => exact coherent.put (coherent.relabels_expiryRestored _ _)
  | _ => exact coherent

theorem Leaner.filled (fewer : Leaner now leaner contents) (coherent : leaner.Coherent)
    (coherent' : contents.Coherent) (call : Call) :
    Leaner now (leaner.filled now call) (contents.filled now call) := by
  cases call with
  | set key value =>
      apply fewer.put (coherent.relabels_expiryKept now key) (coherent'.relabels_expiryKept now key)
      rw [time?_expiryKept, time?_expiryKept, if_pos rfl, if_pos rfl, coherent.filter_time?,
        coherent'.filter_time?, fewer.live?]
  | setWithTtl key value ttl =>
      apply fewer.put (coherent.relabels_add now key ttl) (coherent'.relabels_add now key ttl)
      rw [ExpiryWheel.time?_add, ExpiryWheel.time?_add, if_pos rfl, if_pos rfl]
  | restore entry =>
      apply fewer.put (coherent.relabels_expiryRestored entry.key entry.expiresAt)
        (coherent'.relabels_expiryRestored entry.key entry.expiresAt)
      rw [time?_expiryRestored, time?_expiryRestored, if_pos rfl, if_pos rfl]
  | _ => exact fewer

end Contents

/-- How many keys a stash gives up for its limit when it is called. -/
def evictions (stash : Stash) (now : Nat) (call : Call) : Nat :=
  match stash.contents with
  | some contents => ((contents.filled now call).evict stash.options.maxKeys).1
  | none => 0

section After

variable {stash : Stash} {contents : Contents} (opened : stash.contents = some contents)
  (now : Nat) (key : Bytes)

include opened

/-- A look-up leaves what it finds, and takes the key out that it does not find. -/
theorem exists_after_get (coherent : contents.Coherent) :
    ∃ next, (stash.after now (.get key)).contents = some next ∧
      (∀ other, next.live? now other = contents.live? now other) ∧
      ∀ other, next.values.contains other = true ↔ contents.values.contains other = true ∧
        (other = key → (contents.live? now key).isSome = true) := by
  rw [after, respond, get_of_open opened]
  have found := @Contents.isSome_live? contents now key
  by_cases past : contents.isExpired now key = true
  · have lost := coherent.without_erase key
    rw [past, Bool.not_true, Bool.and_false] at found
    rw [if_pos past]
    refine ⟨_, rfl, ?_, ?_⟩
    · intro other
      rw [lost.live?]
      split
      · next gone =>
        rw [List.mem_singleton] at gone
        subst gone
        exact (Option.not_isSome_iff_eq_none.mp (by simp [found])).symm
      · rfl
    · intro other
      rw [lost.contains, found]
      simp [and_comm]
  · rw [if_neg past]
    cases held : contents.values.get? key with
    | some value =>
        have present := FiniteMap.contains_of_get? held
        refine ⟨_, rfl, fun _ => rfl, ?_⟩
        intro other
        rw [found, present]
        simp [past]
    | none =>
        refine ⟨contents, opened, fun _ => rfl, ?_⟩
        intro other
        constructor
        · intro there
          refine ⟨there, ?_⟩
          rintro rfl
          rw [FiniteMap.contains, held] at there
          cases there
        · exact And.left

theorem contents_after_delete :
    (stash.after now (.delete key)).contents = some (contents.erase key) := by
  rw [after, respond, delete_of_open opened]
  cases contents.values.contains key <;> rfl

theorem contents_after_updateTtl (ttl : Nat) :
    (stash.after now (.updateTtl key ttl)).contents =
      if (contents.live? now key).isSome then
        some { contents with expiry := contents.expiry.add now key ttl }
      else some contents := by
  rw [after, respond, updateTtl_of_open opened, Contents.isSome_live?]
  by_cases live : (contents.values.contains key && !contents.isExpired now key) = true
  · rw [if_pos live, if_pos live]
    rfl
  · rw [if_neg live, if_neg live]
    exact opened

/-- What is stored stays with all the rest, if nothing is given up for the limit. -/
theorem contents_after_set (coherent : contents.Coherent) {value : Bytes}
    (room : stash.evictions now (.set key value) = 0) :
    (stash.after now (.set key value)).contents =
      some (contents.filled now (.set key value)) := by
  rw [evictions, opened] at room
  rw [after, respond, set_of_open opened]
  exact congrArg some (coherent.store_of_evict (coherent.relabels_expiryKept now key) room)

theorem contents_after_setWithTtl (coherent : contents.Coherent) {value : Bytes} {ttl : Nat}
    (room : stash.evictions now (.setWithTtl key value ttl) = 0) :
    (stash.after now (.setWithTtl key value ttl)).contents =
      some (contents.filled now (.setWithTtl key value ttl)) := by
  rw [evictions, opened] at room
  rw [after, respond, setWithTtl_of_open opened]
  exact congrArg some (coherent.store_of_evict (coherent.relabels_add now key ttl) room)

omit key in
theorem contents_after_restore (coherent : contents.Coherent) {entry : Entry}
    (room : stash.evictions now (.restore entry) = 0) :
    (stash.after now (.restore entry)).contents =
      some (contents.filled now (.restore entry)) := by
  rw [evictions, opened] at room
  rw [after, respond, restore_of_open opened]
  exact congrArg some (coherent.store_of_evict (coherent.relabels_expiryRestored _ _) room)

end After

/-- A stash with the settings of another that lacks some of what is over. -/
structure Leaner (now : Nat) (leaner stash : Stash) : Prop where
  options : leaner.options = stash.options
  contents : ∀ {few all}, leaner.contents = some few → stash.contents = some all →
    few.Leaner now all

namespace Leaner

variable {leaner stash : Stash} {few all : Contents} {now : Nat} {call : Call}

theorem later (fewer : Leaner now leaner stash) {later : Nat} (ordered : now ≤ later) :
    Leaner later leaner stash :=
  ⟨fewer.options, fun opened opened' => (fewer.contents opened opened').later ordered⟩

theorem of_contents (options : leaner.options = stash.options) (opened : leaner.contents = some few)
    (opened' : stash.contents = some all) (fewer : few.Leaner now all) :
    Leaner now leaner stash := by
  refine ⟨options, ?_⟩
  intro first second found found'
  cases opened.symm.trans found
  cases opened'.symm.trans found'
  exact fewer

theorem refl (healthy : stash.Healthy all) (now : Nat) : Leaner now stash stash :=
  of_contents rfl healthy.opened healthy.opened (.refl now all)

/-- Taking out a batch of keys makes a stash leaner. -/
theorem after_expireKeys (fewer : Leaner now leaner stash) (healthy : leaner.Healthy few)
    (healthy' : stash.Healthy all) : Leaner now (leaner.after now .expireKeys) stash := by
  have usual : Call.Usual .expireKeys := ⟨nofun, nofun⟩
  have rest : (leaner.after now .expireKeys).contents = some (few.expired now) := by
    rw [after, respond, expireKeys_of_open healthy.opened]
    by_cases nothing : (few.expiry.expire now).1 = []
    · rw [if_pos nothing]
      rfl
    · rw [if_neg nothing]
      rfl
  apply of_contents ((healthy.options_after now usual).trans fewer.options) rest healthy'.opened
  exact (fewer.contents healthy.opened healthy'.opened).expired healthy.coherent

section Calls

variable (fewer : Leaner now leaner stash) (healthy : leaner.Healthy few)
  (healthy' : stash.Healthy all)

include fewer healthy healthy'

/-- The leaner of two stashes has room as long as the other has. -/
theorem evictions_eq_zero (nothing : stash.evictions now call = 0) :
    leaner.evictions now call = 0 := by
  have filled := (fewer.contents healthy.opened healthy'.opened).filled healthy.coherent
    healthy'.coherent call
  simp only [evictions, healthy.opened, healthy'.opened] at nothing ⊢
  have fits := (healthy'.coherent.filled now call).size_le_of_evict nothing
  rw [fewer.options, Contents.evict_of_size_le (Nat.le_trans filled.size_le fits)]

/-- Every call but a batch leaves the leaner of two stashes leaner. -/
theorem after {call : Call} (usual : call.Usual) (noBatch : call ≠ .expireKeys)
    (nothing : stash.evictions now call = 0) :
    Leaner now (leaner.after now call) (stash.after now call) := by
  have lean := fewer.contents healthy.opened healthy'.opened
  have room := fewer.evictions_eq_zero healthy healthy' nothing
  have options : (leaner.after now call).options = (stash.after now call).options := by
    rw [healthy.options_after now usual, healthy'.options_after now usual, fewer.options]
  have filled := lean.filled healthy.coherent healthy'.coherent call
  cases call with
  | set key value =>
      exact of_contents options (contents_after_set healthy.opened now key healthy.coherent room)
        (contents_after_set healthy'.opened now key healthy'.coherent nothing) filled
  | setWithTtl key value ttl =>
      exact of_contents options
        (contents_after_setWithTtl healthy.opened now key healthy.coherent room)
        (contents_after_setWithTtl healthy'.opened now key healthy'.coherent nothing) filled
  | restore entry =>
      exact of_contents options (contents_after_restore healthy.opened now healthy.coherent room)
        (contents_after_restore healthy'.opened now healthy'.coherent nothing) filled
  | get key =>
      rcases exists_after_get healthy.opened now key healthy.coherent with
        ⟨next, opened, live, keys⟩
      rcases exists_after_get healthy'.opened now key healthy'.coherent with
        ⟨next', opened', live', keys'⟩
      apply of_contents options opened opened'
      constructor
      · intro other
        rw [live, live', lean.live?]
      · intro other present
        rw [keys, lean.live?] at present
        rw [keys']
        exact ⟨lean.keys other present.1, present.2⟩
  | delete key =>
      exact of_contents options (contents_after_delete healthy.opened now key)
        (contents_after_delete healthy'.opened now key)
        (lean.erase healthy.coherent healthy'.coherent key)
  | updateTtl key ttl =>
      have renewed := contents_after_updateTtl healthy.opened now key ttl
      have renewed' := contents_after_updateTtl healthy'.opened now key ttl
      rw [lean.live?] at renewed
      cases live : (all.live? now key).isSome with
      | true =>
          rw [live] at renewed renewed'
          apply of_contents options renewed renewed'
          apply lean.renew (healthy.coherent.relabels_add now key ttl)
            (healthy'.coherent.relabels_add now key ttl)
          · rw [ExpiryWheel.time?_add, ExpiryWheel.time?_add, if_pos rfl, if_pos rfl]
          · rcases Option.isSome_iff_exists.mp live with ⟨record, live⟩
            rw [Contents.get?_of_live? live, Contents.get?_of_live? ((lean.live? key).trans live)]
      | false =>
          rw [live] at renewed renewed'
          exact of_contents options renewed renewed' lean
  | evictKeys =>
      simp only [Stash.after, respond, evictKeys_of_open healthy.opened,
        evictKeys_of_open healthy'.opened, Contents.evict_of_size_le healthy.size_le,
        Contents.evict_of_size_le healthy'.size_le, withContents_of_open healthy.opened,
        withContents_of_open healthy'.opened]
      exact fewer
  | peek | contains | entries | size =>
      simp only [Stash.after, respond, peek_of_open healthy.opened, peek_of_open healthy'.opened,
        contains_of_open healthy.opened, contains_of_open healthy'.opened,
        entries_of_open healthy.opened, entries_of_open healthy'.opened,
        size_of_open healthy.opened, size_of_open healthy'.opened]
      exact fewer
  | takeDirty => exact of_contents fewer.options healthy.opened healthy'.opened lean
  | expireKeys => exact absurd rfl noBatch
  | close => exact absurd rfl usual.1

end Calls

end Leaner

end Larder.Stash
