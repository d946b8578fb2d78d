import Larder.Proofs.ExpiryBatch
import Mathlib.Data.List.Sort

/-!
# Batch after batch

A wheel comes past its entries bucket by bucket from the cursor on, and inside a bucket in its
order.  A batch that is full leaves the cursor at the bucket of its last key, and one that is not
full leaves it where it was, after a whole turn.  In both cases the next batch goes on in the same
order, behind the keys that are gone.  So batches in a row, while the clock stands still, take
every due key once.
-/

namespace Larder.ExpiryWheel

/-- The wheels that come of an empty one. -/
inductive Reached : ExpiryWheel → Prop where
  | empty (now batchLimit : Nat) : Reached (empty now batchLimit)
  | add {wheel : ExpiryWheel} (reached : Reached wheel) (now : Nat) (key : Bytes) (ttl : Nat) :
      Reached (wheel.add now key ttl)
  | insert {wheel : ExpiryWheel} (reached : Reached wheel) (key : Bytes) (time : Nat) :
      Reached (wheel.insert key time)
  | erase {wheel : ExpiryWheel} (reached : Reached wheel) (key : Bytes) :
      Reached (wheel.erase key)
  | expire {wheel : ExpiryWheel} (reached : Reached wheel) (now : Nat) :
      Reached (wheel.expire now).2
  | clear {wheel : ExpiryWheel} (reached : Reached wheel) : Reached wheel.clear

variable {wheel rest : ExpiryWheel}

theorem WellFormed.clear (wellFormed : wheel.WellFormed) : wheel.clear.WellFormed where
  stored := by
    intro place time key
    constructor
    · exact nofun
    · exact fun found => nomatch found.1
  sorted place := List.Pairwise.nil
  cursor_lt := wellFormed.cursor_lt
  one_le_batchLimit := wellFormed.one_le_batchLimit

theorem Reached.wellFormed (reached : wheel.Reached) : wheel.WellFormed := by
  induction reached with
  | empty now batchLimit => exact wellFormed_empty now batchLimit
  | add _ now key ttl ih => exact ih.insert key _
  | insert _ key time ih => exact ih.insert key time
  | erase _ key ih => exact ih.erase key
  | expire _ now ih => exact (ih.expire now).2.wellFormed ih
  | clear _ ih => exact ih.clear

section Order

/-- Through how many buckets the wheel turns to the bucket of a time. -/
def ahead (wheel : ExpiryWheel) (time : Nat) : Nat :=
  (bucketOf time + bucketCount - wheel.cursor) % bucketCount

/-- Whether the wheel comes past one entry before it comes past another. -/
def Passes (wheel : ExpiryWheel) (earlier later : Expiry) : Prop :=
  wheel.ahead earlier.1 < wheel.ahead later.1 ∨
    wheel.ahead earlier.1 = wheel.ahead later.1 ∧ earlier.before later = true

theorem passes_irrefl (wheel : ExpiryWheel) (entry : Expiry) : ¬wheel.Passes entry entry := by
  rintro (nearer | ⟨_, before⟩)
  · exact Nat.lt_irrefl _ nearer
  · exact Expiry.ne_of_before before rfl

theorem passes_asymm {earlier later : Expiry} (first : wheel.Passes earlier later) :
    ¬wheel.Passes later earlier := by
  rintro (nearer | ⟨same, before⟩)
  · rcases first with nearer' | ⟨same, _⟩ <;> omega
  · rcases first with nearer | ⟨_, before'⟩
    · omega
    · exact Expiry.ne_of_before (Expiry.before_trans before before') rfl

instance (wheel : ExpiryWheel) : Std.Irrefl wheel.Passes :=
  ⟨wheel.passes_irrefl⟩

instance (wheel : ExpiryWheel) : Std.Antisymm wheel.Passes :=
  ⟨fun _ _ first second => absurd second (passes_asymm first)⟩

theorem bucketOf_of_mem_dueAt (wellFormed : wheel.WellFormed) {now place : Nat} {entry : Expiry}
    (present : entry ∈ wheel.dueAt now place) : bucketOf entry.1 = place :=
  ((wellFormed.stored _ _ _).mp (List.mem_of_mem_filter present)).2.symm

theorem WellFormed.ahead_eq (wellFormed : wheel.WellFormed) {now step : Nat} {entry : Expiry}
    (inside : step < bucketCount)
    (present : entry ∈ wheel.dueAt now ((wheel.cursor + step) % bucketCount)) :
    wheel.ahead entry.1 = step := by
  have place := bucketOf_of_mem_dueAt wellFormed present
  have cursor := wellFormed.cursor_lt
  rw [ahead, place]
  simp only [bucketCount] at *
  omega

theorem WellFormed.pairwise_dueAhead (wellFormed : wheel.WellFormed) (now : Nat) :
    (wheel.dueAhead now bucketCount).Pairwise wheel.Passes := by
  rw [dueAhead, List.pairwise_flatMap]
  constructor
  · intro step inside
    rw [List.mem_range] at inside
    apply ((wellFormed.sorted _).filter _).imp_of_mem
    intro earlier later present present' before
    refine Or.inr ⟨?_, before⟩
    rw [wellFormed.ahead_eq inside present, wellFormed.ahead_eq inside present']
  · apply List.pairwise_lt_range.imp_of_mem
    intro step next inside inside' nearer earlier present later present'
    rw [List.mem_range] at inside inside'
    left
    rwa [wellFormed.ahead_eq inside present, wellFormed.ahead_eq inside' present']

end Order

section Cursor

/-- The wheel stops at the bucket of the entry that fills the batch, or when it has turned far
enough. -/
theorem WellFormed.cursor_turn (wellFormed : wheel.WellFormed) (now : Nat) {buckets : Nat}
    (once : buckets ≤ bucketCount) {batch : List Bytes} (room : batch.length < wheel.batchLimit) :
    (ExpiryWheel.turn now buckets wheel batch).2.cursor =
      (((wheel.dueAhead now buckets)[wheel.batchLimit - batch.length - 1]?).map
        fun last => bucketOf last.1).getD ((wheel.cursor + buckets) % bucketCount) := by
  induction buckets generalizing wheel batch with
  | zero => simpa [ExpiryWheel.turn, dueAhead] using (Nat.mod_eq_of_lt wellFormed.cursor_lt).symm
  | succ buckets ih =>
      have lost := wellFormed.without_afterTaking now (wheel.batchLimit - batch.length)
      simp only [wellFormed.turn_succ, dueAhead_succ wellFormed.cursor_lt]
      by_cases full : wheel.batchLimit - batch.length ≤ (wheel.dueAt now wheel.cursor).length
      · -- The entry that fills the batch is in the bucket at the cursor.
        rw [if_pos (by simp only [List.length_append, List.length_map, List.length_take]; omega),
          List.getElem?_append_left (by omega), List.getElem?_eq_getElem (by omega)]
        change (wheel.afterTaking _).cursor = _
        rw [cursor_afterTaking]
        exact (bucketOf_of_mem_dueAt wellFormed (List.getElem_mem _)).symm
      · -- The wheel turns on, and the entry is as many places further on in the buckets behind.
        have whole : (wheel.dueAt now wheel.cursor).take (wheel.batchLimit - batch.length) =
            wheel.dueAt now wheel.cursor := List.take_of_length_le (by omega)
        rw [whole] at lost
        rw [whole, if_neg (by simp only [List.length_append, List.length_map]; omega),
          List.getElem?_append_right (by omega)]
        have limit := lost.advance.batchLimit
        have turned := @ih _ (lost.advance.wellFormed wellFormed) (Nat.le_of_succ_le once)
          (batch ++ (wheel.dueAt now wheel.cursor).map Prod.snd)
          (by simp only [List.length_append, List.length_map]; omega)
        rw [turned, wellFormed.dueAhead_onward now (Nat.lt_of_succ_le once), limit,
          List.length_append, List.length_map]
        have place : wheel.batchLimit - (batch.length + (wheel.dueAt now wheel.cursor).length) - 1 =
            wheel.batchLimit - batch.length - 1 - (wheel.dueAt now wheel.cursor).length := by
          omega
        have turned' : ((wheel.afterTaking (wheel.dueAt now wheel.cursor)).advance.cursor +
            buckets) % bucketCount = (wheel.cursor + (buckets + 1)) % bucketCount := by
          change ((_ + 1) % bucketCount + buckets) % bucketCount = _
          rw [cursor_afterTaking, Nat.mod_add_mod, Nat.add_assoc, Nat.add_comm 1]
        rw [place, turned']

/-- A full batch leaves the cursor at the bucket of its last key, another one where it was. -/
theorem WellFormed.cursor_expire (wellFormed : wheel.WellFormed) (now : Nat) :
    (wheel.expire now).2.cursor =
      (((wheel.dueAhead now bucketCount)[wheel.batchLimit - 1]?).map
        fun last => bucketOf last.1).getD wheel.cursor := by
  rw [ExpiryWheel.expire]
  split
  · next blank =>
    rw [wellFormed.dueAhead_of_isEmpty blank]
    rfl
  · have turned := @WellFormed.cursor_turn _ wellFormed now _ (Nat.le_refl _) []
      wellFormed.one_le_batchLimit
    rw [List.length_nil, Nat.sub_zero, Nat.add_mod_right,
      Nat.mod_eq_of_lt wellFormed.cursor_lt] at turned
    exact turned

end Cursor

section Rounds

/-- The entries behind a full batch keep their order: the wheel has come closer to all of them by
as much. -/
theorem Passes.of_cursor {entry earlier later : Expiry} (cursor_lt : wheel.cursor < bucketCount)
    (stopped : rest.cursor = bucketOf entry.1)
    (behind : wheel.ahead entry.1 ≤ wheel.ahead earlier.1) (passes : wheel.Passes earlier later) :
    rest.Passes earlier later := by
  have places := bucketOf_lt entry.1
  have places' := bucketOf_lt earlier.1
  have places'' := bucketOf_lt later.1
  simp only [Passes, ahead, stopped, bucketCount] at *
  rcases passes with nearer | ⟨same, before⟩
  · left
    omega
  · refine Or.inr ⟨?_, before⟩
    omega

theorem WellFormed.pairwise_behind (wellFormed : wheel.WellFormed) (now : Nat) :
    ((wheel.dueAhead now bucketCount).drop wheel.batchLimit).Pairwise
      (wheel.expire now).2.Passes := by
  have order := wellFormed.pairwise_dueAhead now
  have cursor := wellFormed.cursor_expire now
  cases found : (wheel.dueAhead now bucketCount)[wheel.batchLimit - 1]? with
  | none =>
      have short := List.getElem?_eq_none_iff.mp found
      have limit := wellFormed.one_le_batchLimit
      rw [List.drop_eq_nil_of_le (by omega)]
      exact List.Pairwise.nil
  | some last =>
      rw [found, Option.map_some, Option.getD_some] at cursor
      rcases List.getElem?_eq_some_iff.mp found with ⟨inside, rfl⟩
      apply (order.sublist (List.drop_sublist _ _)).imp_of_mem
      intro earlier later present _ passes
      refine passes.of_cursor wellFormed.cursor_lt cursor ?_
      rcases List.mem_iff_getElem.mp present with ⟨place, inside', rfl⟩
      rw [List.getElem_drop]
      have limit := wellFormed.one_le_batchLimit
      have first := List.pairwise_iff_getElem.mp order (wheel.batchLimit - 1)
        (wheel.batchLimit + place) inside (by rw [List.length_drop] at inside'; omega) (by omega)
      rcases first with nearer | ⟨same, _⟩ <;> omega

/-- What is due after a batch is what was due behind it, in the same order. -/
theorem WellFormed.dueAhead_expire (wellFormed : wheel.WellFormed) (now : Nat) :
    (wheel.expire now).2.dueAhead now bucketCount =
      (wheel.dueAhead now bucketCount).drop wheel.batchLimit := by
  have lost := (wellFormed.expire now).2
  have left := lost.wellFormed wellFormed
  apply (left.pairwise_dueAhead now).eq_of_mem_iff (wellFormed.pairwise_behind now)
  rintro ⟨time, key⟩
  have distinct := wellFormed.nodup_keys_dueAhead now (Nat.le_refl _)
  rw [← List.take_append_drop wheel.batchLimit (wheel.dueAhead now bucketCount)] at distinct
  have behind := DistinctKeys.filter_front distinct
  rw [List.take_append_drop] at behind
  rw [← behind, List.mem_filter, left.mem_dueAhead, wellFormed.mem_dueAhead, lost.time?]
  generalize ((wheel.dueAhead now bucketCount).take wheel.batchLimit).map Prod.snd = keys
  by_cases gone : key ∈ keys <;> simp [gone]

theorem take_succ_mul {α : Type} (rounds limit : Nat) (list : List α) :
    list.take ((rounds + 1) * limit) =
      list.take limit ++ (list.drop limit).take (rounds * limit) := by
  rw [Nat.succ_mul, Nat.add_comm, List.take_add]

/-- Takes out a number of batches while the clock stands still. -/
def expireRounds (now : Nat) : Nat → ExpiryWheel → List (List Bytes) × ExpiryWheel
  | 0, wheel => ([], wheel)
  | rounds + 1, wheel =>
    let (batch, rest) := wheel.expire now
    let (batches, last) := expireRounds now rounds rest
    (batch :: batches, last)

/-- Batches in a row are the front of what is due, cut into batches. -/
theorem WellFormed.expireRounds (wellFormed : wheel.WellFormed) (now rounds : Nat) :
    let taken := (wheel.dueAhead now bucketCount).take (rounds * wheel.batchLimit)
    (ExpiryWheel.expireRounds now rounds wheel).1.flatten = taken.map Prod.snd ∧
      Without wheel (ExpiryWheel.expireRounds now rounds wheel).2 (taken.map Prod.snd) := by
  induction rounds generalizing wheel with
  | zero => simpa [ExpiryWheel.expireRounds] using wellFormed.without_nil
  | succ rounds ih =>
      rcases wellFormed.expire now with ⟨batch, lost⟩
      rcases ih (lost.wellFormed wellFormed) with ⟨batches, lost'⟩
      rw [lost.batchLimit, wellFormed.dueAhead_expire] at batches lost'
      simp only [ExpiryWheel.expireRounds]
      rw [List.flatten_cons, batch, batches, take_succ_mul, List.map_append]
      exact ⟨rfl, lost.trans lost'⟩

end Rounds

section Taken

/-- The keys that are due are those whose lifetime is over. -/
theorem WellFormed.mem_keys_dueAhead (wellFormed : wheel.WellFormed) {now : Nat} {key : Bytes} :
    key ∈ (wheel.dueAhead now bucketCount).map Prod.snd ↔ wheel.isExpired now key = true := by
  simp only [isExpired, Option.any_eq_true, decide_eq_true_eq, List.mem_map, Prod.exists,
    exists_eq_right, wellFormed.mem_dueAhead]

/-- An entry goes with its key. -/
theorem WellFormed.mem_keys_iff (wellFormed : wheel.WellFormed) {now place : Nat}
    {taken : List Expiry} (inside : taken ⊆ wheel.dueAhead now bucketCount) {entry : Expiry}
    (present : entry ∈ wheel.bucket place) : entry.2 ∈ taken.map Prod.snd ↔ entry ∈ taken := by
  refine ⟨fun gone => ?_, List.mem_map_of_mem⟩
  rcases List.mem_map.mp gone with ⟨⟨time, key⟩, inTaken, rfl⟩
  have known := (wellFormed.mem_dueAhead.mp (inside inTaken)).1
  have known' := ((wellFormed.stored _ _ _).mp present).1
  rw [known] at known'
  cases known'
  exact inTaken

theorem WellFormed.bucket_expire (wellFormed : wheel.WellFormed) (now place : Nat) :
    (wheel.expire now).2.bucket place = (wheel.bucket place).filter fun entry =>
      entry ∉ (wheel.dueAhead now bucketCount).take wheel.batchLimit := by
  rw [(wellFormed.expire now).2.bucket]
  apply List.filter_congr
  intro entry present
  exact decide_eq_decide.mpr (not_congr (wellFormed.mem_keys_iff (List.take_subset _ _) present))

/-- The cursor after a batch that is full. -/
theorem WellFormed.exists_last (wellFormed : wheel.WellFormed) {now : Nat}
    (full : wheel.batchLimit ≤ (wheel.dueAhead now bucketCount).length) :
    ∃ last, ((wheel.dueAhead now bucketCount).take wheel.batchLimit).getLast? = some last ∧
      (wheel.expire now).2.cursor = bucketOf last.1 := by
  have limit := wellFormed.one_le_batchLimit
  have cursor := wellFormed.cursor_expire now
  have within : wheel.batchLimit - 1 < (wheel.dueAhead now bucketCount).length := by omega
  have last := List.getElem?_eq_getElem within
  rw [last] at cursor
  refine ⟨_, ?_, cursor⟩
  rw [List.getLast?_take, if_neg (by omega), last, Option.some_or]

end Taken

/--
A batch is the front of the list of what is due, in the order in which the wheel comes past it, as
much of it as fits.  These entries go, from the buckets and from the index, and nothing else does.
A batch that is not full leaves the cursor where it was, and a full one leaves it at the bucket of
its last key.  So batches in a row, while the clock stands still, have no key twice and none that
is not due, and enough of them have all that are.
-/
theorem batches_take_what_is_due {wheel : ExpiryWheel} (reached : wheel.Reached) (now : Nat) :
    let due := wheel.dueAhead now bucketCount
    let taken := due.take wheel.batchLimit
    let rest := (wheel.expire now).2
    (∀ time key, (time, key) ∈ due ↔ wheel.time? key = some time ∧ time ≤ now) ∧
      due.Pairwise wheel.Passes ∧
      (wheel.expire now).1 = taken.map Prod.snd ∧
      (∀ place, rest.bucket place = (wheel.bucket place).filter fun entry => entry ∉ taken) ∧
      (∀ key, rest.time? key = if key ∈ (wheel.expire now).1 then none else wheel.time? key) ∧
      rest.batchLimit = wheel.batchLimit ∧
      (due.length < wheel.batchLimit → rest.cursor = wheel.cursor) ∧
      (wheel.batchLimit ≤ due.length →
        ∃ last, taken.getLast? = some last ∧ rest.cursor = bucketOf last.1) ∧
      ∀ rounds, let keys := (expireRounds now rounds wheel).1.flatten
        keys.Nodup ∧ (∀ key ∈ keys, wheel.isExpired now key = true) ∧
          (due.length ≤ rounds * wheel.batchLimit →
            ∀ key, key ∈ keys ↔ wheel.isExpired now key = true) := by
  intro due taken rest
  have wellFormed := reached.wellFormed
  have distinct := wellFormed.nodup_keys_dueAhead now (Nat.le_refl _)
  rcases wellFormed.expire now with ⟨batch, lost⟩
  refine ⟨fun _ _ => wellFormed.mem_dueAhead, wellFormed.pairwise_dueAhead now, batch,
    wellFormed.bucket_expire now, ?_, lost.batchLimit, ?_, fun full => wellFormed.exists_last full,
    ?_⟩
  · rw [batch]
    exact lost.time?
  · intro short
    have cursor := wellFormed.cursor_expire now
    rw [List.getElem?_eq_none (Nat.le_sub_one_of_lt short)] at cursor
    exact cursor
  · intro rounds keys
    have keysTaken : keys = (due.take (rounds * wheel.batchLimit)).map Prod.snd :=
      (wellFormed.expireRounds now rounds).1
    rw [keysTaken]
    refine ⟨distinct.sublist ((List.take_sublist _ _).map _), ?_, ?_⟩
    · intro key present
      exact wellFormed.mem_keys_dueAhead.mp (List.map_subset _ (List.take_subset _ _) present)
    · intro enough key
      rw [List.take_of_length_le enough]
      exact wellFormed.mem_keys_dueAhead

/-- Of four keys two are taken first and one after them; it has a lifetime of more than a turn and
the same bucket as the second. -/
theorem batches_take_what_is_due_of_four_keys :
    let wheel := ((((empty 0 2).add 0 [4] 90000000).insert [3] 86470000).add 1 [2] 60000).insert
      [1] 5
    wheel.Reached ∧ (wheel.expire 86500000).1 = [[1], [2]] ∧
      (wheel.expire 86500000).2.cursor = 1 ∧
      (expireRounds 86500000 2 wheel).1 = [[[1], [2]], [[3]]] ∧
      ∀ key, key ∈ [[1], [2], [3]] ↔ wheel.isExpired 86500000 key = true := by
  intro wheel
  have reached : wheel.Reached :=
    ((((Reached.empty 0 2).add 0 [4] 90000000).insert [3] 86470000).add 1 [2] 60000).insert [1] 5
  rcases batches_take_what_is_due reached 86500000 with ⟨_, _, _, _, _, _, _, full, rounds⟩
  have three : (wheel.dueAhead 86500000 bucketCount).length = 3 := by decide +kernel
  have limit : wheel.batchLimit = 2 := by decide +kernel
  have batches : (expireRounds 86500000 2 wheel).1 = [[[1], [2]], [[3]]] := by decide +kernel
  rcases full (by omega) with ⟨last, isLast, cursor⟩
  have taken := (rounds 2).2.2 (by omega)
  rw [batches] at taken
  refine ⟨reached, by decide +kernel, ?_, batches, taken⟩
  have last_eq : ((wheel.dueAhead 86500000 bucketCount).take wheel.batchLimit).getLast? =
      some (60001, [2]) := by decide +kernel
  rw [last_eq] at isLast
  cases isLast
  exact cursor

end Larder.ExpiryWheel
