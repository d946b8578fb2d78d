import Larder.Proofs.ExpiryBatch
import Larder.Proofs.Recency
import Larder.Stash

/-!
# Coherence of a stash

The values, the lifetimes and the order of use of a stash agree on the keys that there are.  Every
operation on contents either takes some keys out of all three structures (`Contents.Without`) or
puts one key into them, and both keep them in agreement.  Since the order of use has every key,
taking out the keys that were used least recently does not stop before the limit is kept.
-/

namespace Larder.Stash.Contents

/-- The three structures agree on the keys that there are. -/
structure Coherent (contents : Contents) : Prop where
  recency : contents.recency.WellFormed
  expiry : contents.expiry.WellFormed
  /-- Exactly the keys that have a value have an order of use. -/
  tracked : ∀ key, key ∈ contents.recency.toList ↔ contents.values.contains key = true
  timed : ∀ key time, contents.expiry.time? key = some time →
    contents.values.contains key = true
  batchLimit : contents.expiry.batchLimit = ExpiryWheel.defaultBatchLimit

/-- Contents that have lost some keys and nothing else. -/
structure Without (contents rest : Contents) (keys : List Bytes) : Prop where
  get? : ∀ key, rest.values.get? key = if key ∈ keys then none else contents.values.get? key
  time? : ∀ key, rest.expiry.time? key = if key ∈ keys then none else contents.expiry.time? key
  toList : rest.recency.toList = contents.recency.toList.filter fun key => key ∉ keys
  recency : rest.recency.WellFormed
  expiry : rest.expiry.WellFormed
  batchLimit : rest.expiry.batchLimit = contents.expiry.batchLimit
  /-- No key is used by this. -/
  next : rest.recency.next = contents.recency.next

/-- Lifetimes that differ from those of some contents at one key at most. -/
structure Relabels (contents : Contents) (key : Bytes) (expiry : ExpiryWheel) : Prop where
  wellFormed : expiry.WellFormed
  time? : ∀ other, other ≠ key → expiry.time? other = contents.expiry.time? other
  batchLimit : expiry.batchLimit = contents.expiry.batchLimit

variable {contents middle rest : Contents}

theorem coherent_empty (now : Nat) : (empty now).Coherent where
  recency := Recency.wellFormed_empty
  expiry := ExpiryWheel.wellFormed_empty _ _
  tracked _ := ⟨nofun, nofun⟩
  timed _ _ known := nomatch known
  batchLimit := rfl

namespace Coherent

theorem length_toList (coherent : contents.Coherent) :
    contents.recency.toList.length = contents.values.size := by
  rw [← FiniteMap.length_keys]
  apply List.Perm.length_eq
  apply (List.perm_ext_iff_of_nodup coherent.recency.nodup_toList contents.values.nodup_keys).mpr
  intro key
  rw [coherent.tracked, FiniteMap.mem_keys_iff]

theorem without_nil (coherent : contents.Coherent) : Without contents contents [] where
  get? key := by simp
  time? key := by simp
  toList := by simp
  recency := coherent.recency
  expiry := coherent.expiry
  batchLimit := rfl
  next := rfl

theorem without_erase (coherent : contents.Coherent) (key : Bytes) :
    Without contents (contents.erase key) [key] where
  get? other := by simp [Contents.erase]
  time? other := by simp [Contents.erase]
  toList := by simp [Contents.erase, coherent.recency.toList_erase]
  recency := coherent.recency.erase key
  expiry := coherent.expiry.erase key
  batchLimit := ExpiryWheel.batchLimit_erase key
  next := Recency.next_erase key

end Coherent

namespace Without

theorem trans {first second : List Bytes} (left : Without contents middle first)
    (right : Without middle rest second) : Without contents rest (first ++ second) where
  get? key := by
    rw [right.get?, left.get?]
    by_cases inFirst : key ∈ first <;> simp [inFirst]
  time? key := by
    rw [right.time?, left.time?]
    by_cases inFirst : key ∈ first <;> simp [inFirst]
  toList := by
    rw [right.toList, left.toList, List.filter_filter]
    apply List.filter_congr
    intro key _
    simp [Bool.and_comm]
  recency := right.recency
  expiry := right.expiry
  batchLimit := right.batchLimit.trans left.batchLimit
  next := right.next.trans left.next

theorem contains {keys : List Bytes} (lost : Without contents rest keys) (key : Bytes) :
    rest.values.contains key = true ↔ key ∉ keys ∧ contents.values.contains key = true := by
  rw [FiniteMap.contains, lost.get?, FiniteMap.contains]
  by_cases gone : key ∈ keys <;> simp [gone]

theorem coherent {keys : List Bytes} (lost : Without contents rest keys)
    (coherent : contents.Coherent) : rest.Coherent where
  recency := lost.recency
  expiry := lost.expiry
  tracked key := by
    rw [lost.toList, lost.contains, List.mem_filter, coherent.tracked, decide_eq_true_eq, and_comm]
  timed key time known := by
    rw [lost.time?] at known
    split at known
    · cases known
    · next left => exact (lost.contains key).mpr ⟨left, coherent.timed key time known⟩
  batchLimit := lost.batchLimit.trans coherent.batchLimit

theorem size_le {keys : List Bytes} (lost : Without contents rest keys)
    (coherent : contents.Coherent) : rest.values.size ≤ contents.values.size := by
  rw [← coherent.length_toList, ← (lost.coherent coherent).length_toList, lost.toList]
  exact List.length_filter_le _ _

end Without

section Evict

/-- Rounds of eviction take the keys that were used least recently, until the limit is kept. -/
theorem Coherent.evictRounds (coherent : contents.Coherent) (limit : Nat) {rounds : Nat}
    (enough : contents.recency.toList.length ≤ rounds) :
    let excess := contents.recency.toList.length - limit
    (Contents.evictRounds limit rounds contents).1 = excess ∧
      Without contents (Contents.evictRounds limit rounds contents).2
        (contents.recency.toList.take excess) := by
  induction rounds generalizing contents with
  | zero =>
      have none : contents.recency.toList = [] := List.length_eq_zero_iff.mp (by omega)
      simpa [Contents.evictRounds, none] using coherent.without_nil
  | succ rounds ih =>
      have size := coherent.length_toList
      simp only [Contents.evictRounds]
      split
      · next fits =>
          have noExcess : contents.recency.toList.length - limit = 0 := by omega
          simpa [noExcess] using coherent.without_nil
      · next tooMany =>
          rcases order : contents.recency.toList with _ | ⟨victim, keys⟩
          · simp only [order, List.length_nil] at size
            omega
          · have lost := coherent.without_erase victim
            have later : (contents.erase victim).recency.toList = keys :=
              coherent.recency.toList_erase_of_cons order
            rw [order, List.length_cons] at enough size
            have evicted := ih (lost.coherent coherent) (by rw [later]; omega)
            rw [later] at evicted
            have excess : (victim :: keys).length - limit = keys.length - limit + 1 := by
              rw [List.length_cons]
              omega
            rw [coherent.recency.evict?_eq_some order, excess, List.take_succ_cons]
            exact ⟨congrArg (· + 1) evicted.1, lost.trans evicted.2⟩

theorem Coherent.evict (coherent : contents.Coherent) (limit : Nat) :
    let excess := contents.recency.toList.length - limit
    (Contents.evict contents limit).1 = excess ∧
      Without contents (Contents.evict contents limit).2 (contents.recency.toList.take excess) :=
  coherent.evictRounds limit (Nat.le_of_eq coherent.recency.length_toList)

/-- Eviction cuts the front of the order of use. -/
theorem Coherent.toList_evict (coherent : contents.Coherent) (limit : Nat) :
    (Contents.evict contents limit).2.recency.toList =
      contents.recency.toList.drop (contents.recency.toList.length - limit) := by
  rw [(coherent.evict limit).2.toList]
  generalize contents.recency.toList.length - limit = excess
  have distinct := coherent.recency.nodup_toList
  generalize contents.recency.toList = keys at distinct ⊢
  rw [← List.map_id keys, ← List.take_append_drop excess keys] at distinct
  simpa using DistinctKeys.filter_front distinct

theorem evict_of_size_le {limit : Nat} (fits : contents.values.size ≤ limit) :
    contents.evict limit = (0, contents) := by
  rw [Contents.evict]
  cases contents.recency.size with
  | zero => rfl
  | succ rounds => simp only [Contents.evictRounds, fits, if_true]

end Evict

section Expire

theorem wellFormed_foldl_erase {recency : Recency} (wellFormed : recency.WellFormed)
    (keys : List Bytes) :
    (keys.foldl Recency.erase recency).WellFormed ∧
      (keys.foldl Recency.erase recency).next = recency.next ∧
      (keys.foldl Recency.erase recency).toList =
        recency.toList.filter fun key => key ∉ keys := by
  induction keys generalizing recency with
  | nil => simpa using wellFormed
  | cons key keys ih =>
      rcases ih (wellFormed.erase key) with ⟨wellFormed', next, toList⟩
      refine ⟨wellFormed', next.trans (Recency.next_erase key), ?_⟩
      rw [List.foldl_cons, toList, wellFormed.toList_erase, List.filter_filter]
      apply List.filter_congr
      intro other _
      by_cases same : other = key <;> simp [same]

/-- Contents after a batch of keys whose lifetime is over has been taken out. -/
def expired (contents : Contents) (now : Nat) : Contents where
  values := (contents.expiry.expire now).1.foldl FiniteMap.erase contents.values
  expiry := (contents.expiry.expire now).2
  recency := (contents.expiry.expire now).1.foldl Recency.erase contents.recency

theorem Coherent.without_expired (coherent : contents.Coherent) (now : Nat) :
    Without contents (contents.expired now) (contents.expiry.expire now).1 := by
  rcases coherent.expiry.expire now with ⟨batch, lost⟩
  rw [← batch] at lost
  rcases wellFormed_foldl_erase coherent.recency (contents.expiry.expire now).1 with
    ⟨wellFormed, next, toList⟩
  exact ⟨fun key => FiniteMap.get?_foldl_erase _ _ key, lost.time?, toList, wellFormed,
    lost.wellFormed coherent.expiry, lost.batchLimit, next⟩

end Expire

section Put

/-- Contents with a value under a key, which is used by this, and with given lifetimes. -/
def put (contents : Contents) (key value : Bytes) (expiry : ExpiryWheel) : Contents where
  values := contents.values.insert key value
  expiry := expiry
  recency := contents.recency.use key

variable {key value : Bytes} {expiry : ExpiryWheel} {limit : Nat}

theorem store_eq : contents.store limit key value expiry =
    ((contents.put key value expiry).evict limit).2 :=
  rfl

theorem Coherent.put (coherent : contents.Coherent) (relabels : contents.Relabels key expiry) :
    (contents.put key value expiry).Coherent where
  recency := coherent.recency.use key
  expiry := relabels.wellFormed
  tracked other := by
    simp only [Contents.put, coherent.recency.toList_use, FiniteMap.contains_insert]
    by_cases same : other = key <;> simp [same, coherent.tracked]
  timed other time known := by
    simp only [Contents.put, FiniteMap.contains_insert] at known ⊢
    by_cases same : other = key
    · simp [same]
    · rw [relabels.time? other same] at known
      simp [coherent.timed other time known]
  batchLimit := relabels.batchLimit.trans coherent.batchLimit

/-- Storing keeps the three structures in agreement, keeps the limit, and keeps what is stored. -/
theorem Coherent.store (coherent : contents.Coherent) (relabels : contents.Relabels key expiry)
    (room : 1 ≤ limit) (value : Bytes) :
    (contents.store limit key value expiry).Coherent ∧
      (contents.store limit key value expiry).values.size ≤ limit ∧
      (contents.store limit key value expiry).values.get? key = some value ∧
      (contents.store limit key value expiry).recency.next = contents.recency.next + 1 := by
  have whole : (contents.put key value expiry).Coherent := coherent.put relabels
  have order : (contents.put key value expiry).recency.toList =
      contents.recency.toList.filter (· ≠ key) ++ [key] := coherent.recency.toList_use key
  rcases whole.evict limit with ⟨_, lost⟩
  have left := lost.coherent whole
  rw [store_eq]
  refine ⟨left, ?_, ?_, lost.next⟩
  · rw [← left.length_toList, whole.toList_evict, List.length_drop]
    omega
  · -- At least one key stays, and the key that is stored was used last.
    have stays : key ∈ ((contents.put key value expiry).evict limit).2.recency.toList := by
      rw [whole.toList_evict, order, List.drop_append_of_le_length]
      · exact List.mem_append_right _ (List.mem_singleton_self key)
      · rw [List.length_append, List.length_singleton]
        omega
    rw [lost.toList, List.mem_filter, decide_eq_true_eq] at stays
    rw [lost.get?, if_neg stays.2]
    exact (FiniteMap.get?_insert _ _ _ _).trans (if_pos rfl)

theorem Coherent.use (coherent : contents.Coherent)
    (present : contents.values.contains key = true) :
    { contents with recency := contents.recency.use key }.Coherent where
  recency := coherent.recency.use key
  expiry := coherent.expiry
  tracked other := by
    simp only [coherent.recency.toList_use]
    by_cases same : other = key <;> simp [same, coherent.tracked, present]
  timed := coherent.timed
  batchLimit := coherent.batchLimit

theorem Coherent.renew (coherent : contents.Coherent) (relabels : contents.Relabels key expiry)
    (present : contents.values.contains key = true) :
    { contents with expiry := expiry }.Coherent where
  recency := coherent.recency
  expiry := relabels.wellFormed
  tracked := coherent.tracked
  timed other time known := by
    by_cases same : other = key
    · exact same ▸ present
    · exact coherent.timed other time (relabels.time? other same ▸ known)
  batchLimit := relabels.batchLimit.trans coherent.batchLimit

end Put

end Larder.Stash.Contents
