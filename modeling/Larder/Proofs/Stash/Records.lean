import Larder.Proofs.Stash.Ledger

/-!
# Records of a stash

The contents of a stash as the list of its records in the order of their use.  Losing keys filters
the list, a use moves a record to its front, and eviction cuts its end.
-/

namespace Larder.Stash

namespace Contents

def record? (contents : Contents) (key : Bytes) : Option Entry :=
  (contents.values.get? key).map (contents.entry key)

/-- All records, the one that was used last in front. -/
def records (contents : Contents) : List Entry :=
  contents.recency.toList.reverse.filterMap contents.record?

variable {contents rest : Contents}

section Record

theorem key_of_record? {key : Bytes} {record : Entry}
    (found : contents.record? key = some record) : record.key = key := by
  rcases Option.map_eq_some_iff.mp found with ⟨value, _, rfl⟩
  rfl

theorem isSome_record? (key : Bytes) :
    (contents.record? key).isSome = contents.values.contains key := by
  rw [record?, Option.isSome_map]
  rfl

theorem isLive_of_record? {key : Bytes} {record : Entry} (now : Nat)
    (found : contents.record? key = some record) :
    record.isLive now = !contents.isExpired now key := by
  rcases Option.map_eq_some_iff.mp found with ⟨value, _, rfl⟩
  simp only [Entry.isLive, entry, isExpired, ExpiryWheel.isExpired]
  cases contents.expiry.time? key with
  | none => rfl
  | some time =>
      rw [Option.all_some, Option.any_some, ← decide_not]
      exact decide_eq_decide.mpr Nat.not_le.symm

/-- A record is found live unless its lifetime is over. -/
theorem filter_isLive_record? (now : Nat) (key : Bytes) :
    (contents.record? key).filter (Entry.isLive now) =
      if contents.isExpired now key then none else contents.record? key := by
  cases found : contents.record? key with
  | none => simp
  | some record =>
      rw [Option.filter_some, isLive_of_record? now found]
      cases contents.isExpired now key <;> rfl

theorem map_value_record? (key : Bytes) :
    (contents.record? key).map Entry.value = contents.values.get? key := by
  rw [record?, Option.map_map]
  exact Option.map_id'

end Record

section Records

theorem filter_filterMap_record? (keep : Bytes → Bool) (keys : List Bytes) :
    (keys.filterMap contents.record?).filter (fun record => keep record.key) =
      (keys.filter keep).filterMap contents.record? := by
  rw [List.filter_filterMap, List.filterMap_filter]
  apply List.filterMap_congr
  intro key _
  cases found : contents.record? key with
  | none => simp
  | some record => simp [Option.filter, key_of_record? found]

/-- The records of contents that have lost some keys. -/
theorem records_of_toList {keys : List Bytes}
    (order : rest.recency.toList = contents.recency.toList.filter fun key => key ∉ keys)
    (same : ∀ key, key ∉ keys → rest.record? key = contents.record? key) :
    rest.records = contents.records.filter fun record => record.key ∉ keys := by
  rw [records, records, filter_filterMap_record? fun key => decide (key ∉ keys), order,
    List.filter_reverse]
  apply List.filterMap_congr
  intro key present
  rw [List.mem_reverse, List.mem_filter, decide_eq_true_eq] at present
  exact same key present.2

theorem Without.record? {keys : List Bytes} (lost : Without contents rest keys) (key : Bytes) :
    rest.record? key = if key ∈ keys then none else contents.record? key := by
  rw [Contents.record?, lost.get?]
  by_cases gone : key ∈ keys
  · simp [gone]
  · simp only [gone, if_false, Contents.record?]
    congr 1
    funext value
    simp only [entry, lost.time?, gone, if_false]

theorem Without.records {keys : List Bytes} (lost : Without contents rest keys) :
    rest.records = contents.records.filter fun record => record.key ∉ keys := by
  apply records_of_toList lost.toList
  intro key stays
  rw [lost.record?, if_neg stays]

theorem records_of_use {key : Bytes} {record : Entry}
    (order : rest.recency.toList = contents.recency.toList.filter (· ≠ key) ++ [key])
    (same : ∀ other, other ≠ key → rest.record? other = contents.record? other)
    (found : rest.record? key = some record) :
    rest.records = record :: contents.records.filter fun record => record.key ∉ [key] := by
  rw [records, order, List.reverse_append, List.reverse_singleton, List.singleton_append,
    List.filterMap_cons_some found, records,
    filter_filterMap_record? fun other => decide (other ∉ [key]), List.filter_reverse]
  congr 1
  have keep : (fun other : Bytes => decide (other ∉ [key])) =
      fun other => decide (other ≠ key) := by
    simp
  rw [keep]
  apply List.filterMap_congr
  intro other present
  rw [List.mem_reverse, List.mem_filter, decide_eq_true_eq] at present
  exact same other present.2

namespace Coherent

variable (coherent : contents.Coherent)

include coherent

theorem map_key_records : contents.records.map Entry.key = contents.recency.toList.reverse := by
  conv => rhs; rw [← @List.filterMap_some _ contents.recency.toList.reverse]
  rw [records, List.map_filterMap]
  apply List.filterMap_congr
  intro key present
  rw [List.mem_reverse, coherent.tracked, ← isSome_record?] at present
  rcases Option.isSome_iff_exists.mp present with ⟨record, found⟩
  rw [found, Option.map_some, key_of_record? found]

theorem distinct_records : (contents.records.map Entry.key).Nodup := by
  rw [coherent.map_key_records]
  exact List.nodup_reverse.mpr coherent.recency.nodup_toList

theorem length_records : contents.records.length = contents.values.size := by
  rw [← coherent.length_toList, ← contents.recency.toList.length_reverse,
    ← coherent.map_key_records, List.length_map]

theorem mem_records {record : Entry} :
    record ∈ contents.records ↔ contents.record? record.key = some record := by
  rw [records, List.mem_filterMap]
  constructor
  · rintro ⟨key, _, found⟩
    rwa [key_of_record? found]
  · intro found
    refine ⟨record.key, ?_, found⟩
    rw [List.mem_reverse, coherent.tracked, ← isSome_record?, found]
    rfl

theorem find?_records (key : Bytes) :
    contents.records.find? (fun record => record.key = key) = contents.record? key := by
  cases search : contents.records.find? fun record => record.key = key with
  | some record =>
      have sameKey : record.key = key := by simpa using List.find?_some search
      have found := coherent.mem_records.mp (List.mem_of_find?_eq_some search)
      rw [← sameKey, found]
  | none =>
      cases found : contents.record? key with
      | none => rfl
      | some record =>
          have sameKey := key_of_record? found
          have present := coherent.mem_records.mpr (sameKey ▸ found)
          have missed := List.find?_eq_none.mp search record present
          simp [sameKey] at missed

theorem filter_records_of_absent {keys : List Bytes}
    (absent : ∀ key ∈ keys, contents.values.get? key = none) :
    (contents.records.filter fun record => record.key ∉ keys) = contents.records := by
  apply List.filter_eq_self.mpr
  intro record present
  have found := coherent.mem_records.mp present
  rw [decide_eq_true_eq]
  intro gone
  rw [record?, absent _ gone] at found
  cases found

/-- Eviction cuts the records behind the limit. -/
theorem records_evict (limit : Nat) :
    (Contents.evict contents limit).2.records = contents.records.take limit := by
  have behind : contents.recency.toList.take (contents.recency.toList.length - limit) =
      ((contents.records.drop limit).map Entry.key).reverse := by
    rw [List.map_drop, coherent.map_key_records, List.drop_reverse, List.reverse_reverse]
  have distinct := coherent.distinct_records
  rw [← List.take_append_drop limit contents.records] at distinct
  have front := DistinctKeys.filter_back distinct
  rw [List.take_append_drop] at front
  rw [(coherent.evict limit).2.records, behind]
  simpa only [List.mem_reverse] using front

/-- Storing puts a record in front and cuts the records behind the limit. -/
theorem records_store {key value : Bytes} {expiry : ExpiryWheel}
    (relabels : contents.Relabels key expiry) (limit : Nat) :
    (contents.store limit key value expiry).records =
      (⟨key, value, expiry.time? key⟩ ::
        contents.records.filter fun record => record.key ∉ [key]).take limit := by
  have whole : (contents.put key value expiry).Coherent := coherent.put relabels
  rw [store_eq, whole.records_evict]
  congr 1
  apply records_of_use (coherent.recency.toList_use key)
  · intro other different
    rw [record?, record?, Contents.put, FiniteMap.get?_insert, if_neg different]
    congr 1
    funext value'
    rw [entry, entry, relabels.time? other different]
  · rw [record?, Contents.put, FiniteMap.get?_insert, if_pos rfl]
    rfl

omit coherent in
theorem records_renew (key : Bytes) (time : Nat) :
    Contents.records { contents with expiry := contents.expiry.insert key time } =
      contents.records.map fun record =>
        if record.key = key then { record with expiresAt := some time } else record := by
  rw [records, records, List.map_filterMap]
  apply List.filterMap_congr
  intro other _
  rw [record?, record?, Option.map_map]
  congr 1
  funext value
  simp only [Function.comp_apply, entry, ExpiryWheel.time?_insert]
  by_cases same : other = key <;> simp [same]

/-- What is listed for a snapshot are the records whose lifetime is not over, in some order. -/
theorem perm_entries (now : Nat) :
    (Contents.entries contents now).Perm (contents.records.filter (Entry.isLive now)) := by
  apply (List.perm_ext_iff_of_nodup ?_ ?_).mpr
  · intro record
    rw [List.mem_filter, coherent.mem_records]
    constructor
    · intro listed
      rcases List.mem_map.mp listed with ⟨⟨key, value⟩, kept, same⟩
      rcases List.mem_filter.mp kept with ⟨held, live⟩
      obtain rfl : contents.entry key value = record := same
      have found : contents.record? key = some (contents.entry key value) :=
        congrArg (Option.map (contents.entry key)) (FiniteMap.mem_entries_iff.mp held)
      exact ⟨found, (isLive_of_record? now found).trans live⟩
    · rintro ⟨found, live⟩
      rw [isLive_of_record? now found] at live
      rcases Option.map_eq_some_iff.mp found with ⟨value, held, same⟩
      apply List.mem_map.mpr
      exact ⟨(record.key, value),
        List.mem_filter.mpr ⟨FiniteMap.mem_entries_iff.mpr held, live⟩, same⟩
  · apply List.Nodup.of_map Entry.key
    rw [Contents.entries, List.map_map]
    exact contents.values.nodup.sublist (List.filter_sublist.map Prod.fst)
  · exact (coherent.distinct_records.of_map _).filter _

/-- What is due are the records whose lifetime is over. -/
theorem perm_due (now : Nat) :
    ((contents.expiry.dueAhead now ExpiryWheel.bucketCount).map Prod.snd).Perm
      ((contents.records.filter fun record => !record.isLive now).map Entry.key) := by
  apply (List.perm_ext_iff_of_nodup ?_ ?_).mpr
  · intro key
    constructor
    · intro isDue
      rcases List.mem_map.mp isDue with ⟨⟨time, _⟩, ahead, rfl⟩
      rcases coherent.expiry.mem_dueAhead.mp ahead with ⟨known, past⟩
      have present := coherent.timed _ _ known
      rw [← isSome_record?] at present
      rcases Option.isSome_iff_exists.mp present with ⟨record, found⟩
      have sameKey := key_of_record? found
      refine List.mem_map.mpr ⟨record, List.mem_filter.mpr ⟨?_, ?_⟩, sameKey⟩
      · exact coherent.mem_records.mpr (sameKey.symm ▸ found)
      · rw [isLive_of_record? now found, Bool.not_not, isExpired, ExpiryWheel.isExpired, known]
        exact decide_eq_true past
    · intro isOver
      rcases List.mem_map.mp isOver with ⟨record, kept, rfl⟩
      rcases List.mem_filter.mp kept with ⟨present, past⟩
      rw [isLive_of_record? now (coherent.mem_records.mp present), Bool.not_not, isExpired,
        ExpiryWheel.isExpired, Option.any_eq_true] at past
      rcases past with ⟨time, known, past⟩
      apply List.mem_map.mpr
      exact ⟨(time, record.key),
        coherent.expiry.mem_dueAhead.mpr ⟨known, of_decide_eq_true past⟩, rfl⟩
  · exact coherent.expiry.nodup_keys_dueAhead now (Nat.le_refl _)
  · exact coherent.distinct_records.sublist (List.filter_sublist.map _)

end Coherent

end Records

end Contents

end Larder.Stash
