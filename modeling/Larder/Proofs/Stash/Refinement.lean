import Larder.Proofs.Stash.Invariant
import Larder.Proofs.Stash.Records

/-!
# Stashes are ledgers

Seen through its answers, a stash is a ledger: to every row of calls, at any readings of the clock,
it gives answers that a ledger gives.  The records of the stash and of the ledger stay the same, in
the same order, up to the moment the stash is dropped.
-/

namespace Larder.Stash

/-- A stash whose records are those of a ledger, or one that is dropped. -/
inductive Shows (stash : Stash) : Option Ledger → Prop where
  | closed (gone : stash.contents = none) : Shows stash none
  | opened {contents : Contents} {ledger : Ledger} (opened : stash.contents = some contents)
      (records : ledger.records = contents.records)
      (limit : ledger.limit = stash.options.maxKeys) : Shows stash (some ledger)

section Lookup

variable {contents : Contents} {ledger : Ledger} (coherent : contents.Coherent)
  (records : ledger.records = contents.records)

include coherent records

theorem Ledger.find?_eq (key : Bytes) : ledger.find? key = contents.record? key := by
  rw [find?, records, coherent.find?_records]

theorem Ledger.live?_eq (now : Nat) (key : Bytes) :
    ledger.live? now key =
      if contents.isExpired now key then none else contents.record? key := by
  rw [live?, find?_eq coherent records, Contents.filter_isLive_record?]

theorem Ledger.map_value_live?_eq (now : Nat) (key : Bytes) :
    (ledger.live? now key).map Entry.value =
      if contents.isExpired now key then none else contents.values.get? key := by
  rw [live?_eq coherent records, ← Contents.map_value_record?]
  split <;> rfl

theorem Ledger.isSome_live?_eq (now : Nat) (key : Bytes) :
    (ledger.live? now key).isSome =
      (contents.values.contains key && !contents.isExpired now key) := by
  rw [live?_eq coherent records, ← Contents.isSome_record?]
  cases contents.isExpired now key <;> simp

/-- A lifetime that is not over belongs to a record that is live. -/
theorem Ledger.bind_live?_eq (now : Nat) (key : Bytes) :
    (ledger.live? now key).bind Entry.expiresAt =
      (contents.expiry.time? key).filter (now < ·) := by
  rw [live?_eq coherent records, Contents.isExpired, ExpiryWheel.isExpired]
  cases known : contents.expiry.time? key with
  | none =>
      cases held : contents.values.get? key <;>
        simp [Contents.record?, held, Contents.entry, known]
  | some time =>
      have present := coherent.timed key time known
      rcases FiniteMap.contains_eq_true_iff.mp present with ⟨value, held⟩
      rw [Option.any_some, Option.filter_some]
      by_cases past : time ≤ now
      · simp [past, Nat.not_lt.mpr past]
      · simp [past, Nat.lt_of_not_le past, Contents.record?, held, Contents.entry, known]

end Lookup

section Step

variable {stash : Stash} {contents : Contents} {ledger : Ledger}

theorem exists_step_get (opened : stash.contents = some contents) (coherent : contents.Coherent)
    (records : ledger.records = contents.records) (limit : ledger.limit = stash.options.maxKeys)
    (now : Nat) (key : Bytes) :
    ∃ next, Ledger.Step now (some ledger) (.get key)
        ((stash.respond now (.get key)).map Prod.fst) next ∧
      (stash.after now (.get key)).Shows next := by
  have live := Ledger.live?_eq coherent records now key
  rw [after, respond, get_of_open opened]
  cases past : contents.isExpired now key with
  | true =>
      refine ⟨_, .getNone (by rw [live, past, if_pos rfl]), .opened rfl ?_ limit⟩
      rw [(coherent.without_erase key).records, ← records]
      rfl
  | false =>
      cases held : contents.values.get? key with
      | none =>
          refine ⟨_, .getNone ?_, .opened opened ?_ limit⟩
          · rw [live, past, if_neg Bool.false_ne_true, Contents.record?, held, Option.map_none]
          · exact (congrArg _ records).trans
              (coherent.filter_records_of_absent (List.forall_mem_singleton.mpr held))
      | some value =>
          have found : contents.record? key = some (contents.entry key value) := by
            rw [Contents.record?, held, Option.map_some]
          have used : Contents.records { contents with recency := contents.recency.use key } =
              contents.entry key value ::
                contents.records.filter fun record => record.key ∉ [key] :=
            Contents.records_of_use (coherent.recency.toList_use key) (fun _ _ => rfl) found
          refine ⟨_, .getLive (contents.entry key value) ?_, .opened rfl ?_ limit⟩
          · rw [live, past, if_neg Bool.false_ne_true, found]
          · rw [used, ← records]
            rfl

theorem exists_step_expireKeys (opened : stash.contents = some contents)
    (coherent : contents.Coherent) (records : ledger.records = contents.records)
    (limit : ledger.limit = stash.options.maxKeys) (now : Nat) :
    ∃ next, Ledger.Step now (some ledger) .expireKeys
        ((stash.respond now .expireKeys).map Prod.fst) next ∧
      (stash.after now .expireKeys).Shows next := by
  rw [after, respond, expireKeys_of_open opened]
  have same := coherent.perm_due now
  rw [← records] at same
  rcases coherent.expiry.expire now with ⟨batch, _⟩
  refine ⟨_, .expireKeys ?_ ?_ ?_, ?_⟩
  · rw [batch]
    exact (coherent.expiry.nodup_keys_dueAhead now (Nat.le_refl _)).sublist
      ((List.take_sublist _ _).map _)
  · intro key taken
    rw [batch] at taken
    exact same.mem_iff.mp (((List.take_sublist _ _).map _).subset taken)
  · have length : (contents.expiry.dueAhead now ExpiryWheel.bucketCount).length =
        (ledger.due now).length := by
      simpa only [List.length_map, Ledger.due] using same.length_eq
    rw [batch, List.length_map, List.length_take, coherent.batchLimit, length]
  · have left : (ledger.without (contents.expiry.expire now).1).records =
        (contents.expired now).records := by
      rw [(coherent.without_expired now).records, ← records]
      rfl
    by_cases nothing : (contents.expiry.expire now).1 = []
    · rw [if_pos nothing]
      exact .opened rfl left limit
    · rw [if_neg nothing]
      exact .opened rfl left limit

/-- A stash that is open answers as its ledger does, and goes on showing what becomes of it. -/
theorem exists_step_of_open {uses : Nat} (opened : stash.contents = some contents)
    (sound : contents.Sound stash.options.maxKeys uses)
    (records : ledger.records = contents.records) (limit : ledger.limit = stash.options.maxKeys)
    (now : Nat) (call : Call) :
    ∃ next, Ledger.Step now (some ledger) call ((stash.respond now call).map Prod.fst) next ∧
      (stash.after now call).Shows next := by
  have coherent := sound.coherent
  cases call with
  | set key value =>
      rw [after, respond, set_of_open opened]
      refine ⟨_, .set ledger key value, .opened rfl ?_ limit⟩
      rw [coherent.records_store (coherent.relabels_expiryKept now key),
        Contents.time?_expiryKept, if_pos rfl, ← Ledger.bind_live?_eq coherent records, ← records,
        ← limit]
      rfl
  | setWithTtl key value ttl =>
      rw [after, respond, setWithTtl_of_open opened]
      refine ⟨_, .setWithTtl ledger key value ttl, .opened rfl ?_ limit⟩
      rw [coherent.records_store (coherent.relabels_add now key ttl), ExpiryWheel.time?_add,
        if_pos rfl, ← records, ← limit]
      rfl
  | restore entry =>
      rw [after, respond, restore_of_open opened]
      refine ⟨_, .restore ledger entry, .opened rfl ?_ limit⟩
      rw [coherent.records_store (coherent.relabels_expiryRestored _ _),
        Contents.time?_expiryRestored, if_pos rfl, ← records, ← limit]
      rfl
  | get key => exact exists_step_get opened coherent records limit now key
  | peek key =>
      rw [after, respond, peek_of_open opened, ← Ledger.map_value_live?_eq coherent records]
      exact ⟨_, .peek ledger key, .opened opened records limit⟩
  | contains key =>
      rw [after, respond, contains_of_open opened, ← Ledger.isSome_live?_eq coherent records]
      exact ⟨_, .contains ledger key, .opened opened records limit⟩
  | delete key =>
      have found : (ledger.find? key).isSome = contents.values.contains key := by
        rw [Ledger.find?_eq coherent records, Contents.isSome_record?]
      have erased : (ledger.without [key]).records = (contents.erase key).records := by
        rw [(coherent.without_erase key).records, ← records]
        rfl
      rw [after, respond, delete_of_open opened, ← found]
      refine ⟨_, .delete ledger key, ?_⟩
      cases (ledger.find? key).isSome <;> exact .opened rfl erased limit
  | updateTtl key ttl =>
      rw [after, respond, updateTtl_of_open opened, ← Ledger.isSome_live?_eq coherent records]
      cases isLive : (ledger.live? now key).isSome with
      | true =>
          refine ⟨_, .updateLive ttl isLive, .opened rfl ?_ limit⟩
          rw [ExpiryWheel.add, Contents.Coherent.records_renew, ← records]
          rfl
      | false =>
          refine ⟨_, .updateNone ttl ?_, .opened opened records limit⟩
          exact Option.isSome_eq_false_iff.mp isLive |> Option.isNone_iff_eq_none.mp
  | evictKeys =>
      rw [after, respond, evictKeys_of_open opened, Contents.evict_of_size_le sound.size_le,
        withContents_of_open opened]
      exact ⟨_, .evictKeys ledger, .opened opened records limit⟩
  | expireKeys => exact exists_step_expireKeys opened coherent records limit now
  | entries =>
      rw [after, respond, entries_of_open opened]
      refine ⟨_, .entries ?_, .opened opened records limit⟩
      rw [records]
      exact coherent.perm_entries now
  | size =>
      rw [after, respond, size_of_open opened, ← coherent.length_records, ← records]
      exact ⟨_, .size ledger, .opened opened records limit⟩
  | takeDirty => exact ⟨_, .takeDirty _ _, .opened opened records limit⟩
  | close => exact ⟨_, .close _, .closed rfl⟩

/-- A stash that is dropped refuses every call but two. -/
theorem respond_of_closed (gone : stash.contents = none) (now : Nat) {call : Call}
    (notDirty : call ≠ .takeDirty) (notClose : call ≠ .close) :
    stash.respond now call = .error .closed := by
  have refused : stash.open? = .error .closed := by
    rw [open?, gone]
  cases call with
  | takeDirty => exact absurd rfl notDirty
  | close => exact absurd rfl notClose
  | _ =>
      simp only [respond, set, setWithTtl, restore, get, peek, contains, delete, updateTtl,
        evictKeys, expireKeys, entries, size, refused]
      rfl

theorem step_of_closed (gone : stash.contents = none) (now : Nat) (call : Call) :
    Ledger.Step now none call ((stash.respond now call).map Prod.fst) none ∧
      (stash.after now call).contents = none := by
  by_cases isDirty : call = .takeDirty
  · subst isDirty
    exact ⟨.takeDirty none _, gone⟩
  by_cases isClose : call = .close
  · subst isClose
    exact ⟨.close none, rfl⟩
  rw [after, respond_of_closed gone now isDirty isClose]
  exact ⟨.closed isDirty isClose, gone⟩

end Step

section Run

variable {stash : Stash}

theorem run_of_closed (gone : stash.contents = none) (calls : List (Nat × Call)) :
    Ledger.Run none calls (stash.run calls).1 none ∧ (stash.run calls).2.contents = none := by
  induction calls generalizing stash with
  | nil => exact ⟨.nil none, gone⟩
  | cons step calls ih =>
      rcases step with ⟨now, call⟩
      rcases step_of_closed gone now call with ⟨first, stillGone⟩
      rcases ih stillGone with ⟨rest, lastGone⟩
      exact ⟨.cons first rest, lastGone⟩

theorem exists_run_of_open {contents : Contents} {ledger : Ledger} {uses : Nat}
    (opened : stash.contents = some contents) (room : 1 ≤ stash.options.maxKeys)
    (sound : contents.Sound stash.options.maxKeys uses)
    (records : ledger.records = contents.records) (limit : ledger.limit = stash.options.maxKeys)
    (calls : List (Nat × Call)) :
    ∃ last, Ledger.Run (some ledger) calls (stash.run calls).1 last ∧
      (stash.run calls).2.Shows last := by
  induction calls generalizing stash contents ledger uses with
  | nil => exact ⟨some ledger, .nil _, .opened opened records limit⟩
  | cons step calls ih =>
      rcases step with ⟨now, call⟩
      rcases exists_step_of_open opened sound records limit now call with ⟨next, first, shows⟩
      cases shows with
      | closed gone =>
          rcases run_of_closed gone calls with ⟨rest, lastGone⟩
          exact ⟨none, .cons first rest, .closed lastGone⟩
      | opened nextOpened nextRecords nextLimit =>
          -- Only a stash that was dropped loses its contents, so this call was not the last one.
          have kept : call ≠ .close := by
            rintro rfl
            exact Option.some_ne_none _ nextOpened.symm
          rcases exists_sound_after opened room sound now kept with
            ⟨_, sameOpened, options, nextSound⟩
          obtain rfl := Option.some.inj (sameOpened.symm.trans nextOpened)
          rw [← options] at room nextSound
          rcases ih nextOpened room nextSound nextRecords nextLimit with ⟨last, rest, lastShows⟩
          exact ⟨last, .cons first rest, lastShows⟩

/--
A new stash answers every row of calls, at whatever readings of the clock, as a ledger does that
has no records and the bound of the stash; afterwards both have the same records in the same order,
or the stash is dropped.
-/
theorem run_refines_ledger (now : Nat) (name : String) (options : Options)
    (calls : List (Nat × Call)) :
    ∃ last,
      Ledger.Run (some (Ledger.empty (max 1 options.maxKeys))) calls
        ((create now name options).run calls).1 last ∧
      ((create now name options).run calls).2.Shows last :=
  exists_run_of_open rfl (Nat.le_max_left _ _) (Contents.sound_empty now) rfl rfl calls

end Run

end Larder.Stash
