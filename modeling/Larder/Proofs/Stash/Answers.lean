import Larder.Proofs.Stash.Records

/-!
# Answers and entries

What a stash says about its keys is determined by the entries that it lists: two stashes that list
the same entries, in any order, give the same answers to those who look a key up.
-/

namespace Larder.Stash

namespace Contents

variable {contents : Contents} {now : Nat} {key : Bytes} {record : Entry}

/-- The record of a key, if its lifetime is not over. -/
def live? (contents : Contents) (now : Nat) (key : Bytes) : Option Entry :=
  (contents.record? key).filter (Entry.isLive now)

theorem Coherent.mem_entries (coherent : contents.Coherent) :
    record ∈ contents.entries now ↔
      contents.record? record.key = some record ∧ record.isLive now = true := by
  rw [(coherent.perm_entries now).mem_iff, List.mem_filter, coherent.mem_records]

theorem Coherent.live?_eq_some_iff (coherent : contents.Coherent) :
    contents.live? now key = some record ↔ record ∈ contents.entries now ∧ record.key = key := by
  rw [coherent.mem_entries, live?, Option.filter_eq_some_iff]
  constructor
  · rintro ⟨found, live⟩
    obtain rfl := key_of_record? found
    exact ⟨⟨found, live⟩, rfl⟩
  · rintro ⟨found, rfl⟩
    exact found

theorem Coherent.live?_eq_of_perm {others : Contents} (coherent : contents.Coherent)
    (coherent' : others.Coherent) (same : (contents.entries now).Perm (others.entries now))
    (key : Bytes) : contents.live? now key = others.live? now key := by
  apply Option.ext
  intro record
  rw [coherent.live?_eq_some_iff, coherent'.live?_eq_some_iff, same.mem_iff]

theorem Coherent.distinct_entries (coherent : contents.Coherent) (now : Nat) :
    ((contents.entries now).map Entry.key).Nodup := by
  apply ((coherent.perm_entries now).map Entry.key).nodup_iff.mpr
  exact coherent.distinct_records.sublist (List.filter_sublist.map _)

theorem Coherent.length_entries_le (coherent : contents.Coherent) (now : Nat) :
    (contents.entries now).length ≤ contents.values.size := by
  rw [(coherent.perm_entries now).length_eq, ← coherent.length_records]
  exact List.length_filter_le _ _

theorem map_value_live? :
    (contents.live? now key).map Entry.value =
      if contents.isExpired now key then none else contents.values.get? key := by
  rw [live?, filter_isLive_record?, ← map_value_record?]
  split <;> rfl

theorem isSome_live? :
    (contents.live? now key).isSome =
      (contents.values.contains key && !contents.isExpired now key) := by
  rw [live?, filter_isLive_record?, ← isSome_record?]
  cases contents.isExpired now key <;> simp

end Contents

section Answers

variable {stash : Stash} {contents : Contents} (opened : stash.contents = some contents)
  (now : Nat) (key : Bytes)

include opened

theorem peek_eq_live? : stash.peek now key = .ok ((contents.live? now key).map Entry.value) := by
  rw [peek_of_open opened, Contents.map_value_live?]

theorem contains_eq_live? : stash.contains now key = .ok (contents.live? now key).isSome := by
  rw [contains_of_open opened, Contents.isSome_live?]

end Answers

/-- Stashes that list the same entries give the same answers. -/
theorem answers_of_perm {first second : Stash} {contents others : Contents}
    (opened : first.contents = some contents) (opened' : second.contents = some others)
    (coherent : contents.Coherent) (coherent' : others.Coherent) {now : Nat}
    (same : (contents.entries now).Perm (others.entries now)) (key : Bytes) :
    first.peek now key = second.peek now key ∧
      (first.get now key).map Prod.fst = (second.get now key).map Prod.fst ∧
      first.contains now key = second.contains now key := by
  have live := coherent.live?_eq_of_perm coherent' same key
  have peeked : first.peek now key = second.peek now key := by
    rw [peek_eq_live? opened, peek_eq_live? opened', live]
  refine ⟨peeked, ?_, ?_⟩
  · rw [map_fst_get, map_fst_get, peeked]
  · rw [contains_eq_live? opened, contains_eq_live? opened', live]

end Larder.Stash
