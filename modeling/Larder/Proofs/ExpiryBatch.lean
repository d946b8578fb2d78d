import Larder.Proofs.DistinctKeys
import Larder.Proofs.ExpiryWheel

/-!
# Batches of due keys

From the cursor on the buckets hold their due entries in the order in which a batch takes them.
A batch is the front of this list, as much of it as fits, and the wheel loses the keys of the batch
and nothing else.
-/

namespace Larder.ExpiryWheel

def dueAt (wheel : ExpiryWheel) (now place : Nat) : List Expiry :=
  (wheel.bucket place).filter fun entry => entry.1 ≤ now

/-- The entries that are due in a number of buckets from the cursor on. -/
def dueAhead (wheel : ExpiryWheel) (now buckets : Nat) : List Expiry :=
  (List.range buckets).flatMap fun step => wheel.dueAt now ((wheel.cursor + step) % bucketCount)

/-- A wheel that has lost some keys and nothing else; it may have turned. -/
structure Without (wheel rest : ExpiryWheel) (keys : List Bytes) : Prop where
  bucket : ∀ place, rest.bucket place = (wheel.bucket place).filter fun entry => entry.2 ∉ keys
  time? : ∀ key, rest.time? key = if key ∈ keys then none else wheel.time? key
  cursor_lt : rest.cursor < bucketCount
  batchLimit : rest.batchLimit = wheel.batchLimit

variable {wheel middle rest : ExpiryWheel}

section Without

theorem WellFormed.without_nil (wellFormed : wheel.WellFormed) : Without wheel wheel [] where
  bucket place := by simp
  time? key := by simp
  cursor_lt := wellFormed.cursor_lt
  batchLimit := rfl

theorem Without.trans {first second : List Bytes} (left : Without wheel middle first)
    (right : Without middle rest second) : Without wheel rest (first ++ second) where
  bucket place := by
    rw [right.bucket, left.bucket, List.filter_filter]
    apply List.filter_congr
    intro entry _
    simp [Bool.and_comm]
  time? key := by
    rw [right.time?, left.time?]
    by_cases inFirst : key ∈ first <;> simp [inFirst]
  cursor_lt := right.cursor_lt
  batchLimit := right.batchLimit.trans left.batchLimit

theorem Without.wellFormed {keys : List Bytes} (lost : Without wheel rest keys)
    (wellFormed : wheel.WellFormed) : rest.WellFormed where
  stored place time key := by
    rw [lost.bucket, lost.time?, List.mem_filter, wellFormed.stored]
    by_cases gone : key ∈ keys <;> simp [gone]
  sorted place := by
    rw [lost.bucket]
    exact (wellFormed.sorted place).filter _
  cursor_lt := lost.cursor_lt
  one_le_batchLimit := lost.batchLimit ▸ wellFormed.one_le_batchLimit

theorem Without.advance {keys : List Bytes} (lost : Without wheel rest keys) :
    Without wheel rest.advance keys where
  bucket := lost.bucket
  time? := lost.time?
  cursor_lt := Nat.mod_lt _ (by decide)
  batchLimit := lost.batchLimit

end Without

section DueEntries

/-- In a sorted bucket the due entries stand in front. -/
theorem due_eq {content : List Expiry} (sorted : Sorted content) (now room : Nat) :
    due now room content = (content.filter fun entry => entry.1 ≤ now).take room := by
  induction content generalizing room with
  | nil => simp [due]
  | cons first rest ih =>
      rcases List.pairwise_cons.mp sorted with ⟨firstBefore, restSorted⟩
      cases room with
      | zero => simp [due]
      | succ room =>
          have later := ih restSorted room
          simp only [due] at later ⊢
          by_cases isDue : first.1 ≤ now
          · simp [isDue, later]
          · have noneDue : rest.filter (fun entry => decide (entry.1 ≤ now)) = [] := by
              apply List.filter_eq_nil_iff.mpr
              intro entry present
              have := Expiry.time_le_of_before (firstBefore entry present)
              simp only [decide_eq_true_eq]
              omega
            simp [isDue, noneDue]

theorem WellFormed.place_unique (wellFormed : wheel.WellFormed) {first second firstTime secondTime}
    {key : Bytes} (inFirst : (firstTime, key) ∈ wheel.bucket first)
    (inSecond : (secondTime, key) ∈ wheel.bucket second) : first = second := by
  rw [wellFormed.stored] at inFirst inSecond
  have sameTime := inFirst.1.symm.trans inSecond.1
  rw [inFirst.2, inSecond.2, Option.some.inj sameTime]

theorem WellFormed.nodup_keys_bucket (wellFormed : wheel.WellFormed) (place : Nat) :
    ((wheel.bucket place).map Prod.snd).Nodup := by
  apply List.Nodup.map_on
  · rintro ⟨first, key⟩ firstMem ⟨second, other⟩ secondMem same
    obtain rfl : key = other := same
    rw [wellFormed.stored] at firstMem secondMem
    rw [Option.some.inj (firstMem.1.symm.trans secondMem.1)]
  · exact (wellFormed.sorted place).imp Expiry.ne_of_before

/-- No key has entries in two buckets. -/
theorem WellFormed.nodup_keys_flatMap (wellFormed : wheel.WellFormed) {places : List Nat}
    (distinct : places.Nodup) : ((places.flatMap wheel.bucket).map Prod.snd).Nodup := by
  rw [List.map_flatMap]
  apply List.nodup_flatMap.mpr
  refine ⟨fun place _ => wellFormed.nodup_keys_bucket place, distinct.imp ?_⟩
  intro first second different
  change List.Disjoint _ _
  rw [List.disjoint_left]
  intro key inFirst inSecond
  rcases List.mem_map.mp inFirst with ⟨⟨firstTime, _⟩, firstMem, rfl⟩
  rcases List.mem_map.mp inSecond with ⟨⟨secondTime, _⟩, secondMem, rfl⟩
  exact different (wellFormed.place_unique firstMem secondMem)

theorem WellFormed.nodup_keys_dueAhead (wellFormed : wheel.WellFormed) (now : Nat) {buckets : Nat}
    (turn : buckets ≤ bucketCount) : ((wheel.dueAhead now buckets).map Prod.snd).Nodup := by
  have places : ((List.range buckets).map fun step => (wheel.cursor + step) % bucketCount).Nodup := by
    apply List.Nodup.map_on _ List.nodup_range
    intro first firstMem second secondMem same
    rw [List.mem_range] at firstMem secondMem
    have := wellFormed.cursor_lt
    simp only [bucketCount] at *
    omega
  have front : wheel.dueAhead now buckets = (((List.range buckets).map fun step =>
      (wheel.cursor + step) % bucketCount).flatMap wheel.bucket).filter fun entry =>
        entry.1 ≤ now := by
    rw [List.filter_flatMap, List.flatMap_map]
    rfl
  rw [front]
  exact (wellFormed.nodup_keys_flatMap places).sublist (List.filter_sublist.map _)

/-- A whole turn comes past every key that is due. -/
theorem WellFormed.mem_dueAhead (wellFormed : wheel.WellFormed) {now time : Nat} {key : Bytes} :
    (time, key) ∈ wheel.dueAhead now bucketCount ↔ wheel.time? key = some time ∧ time ≤ now := by
  simp only [dueAhead, dueAt, List.mem_flatMap, List.mem_range, List.mem_filter, wellFormed.stored,
    decide_eq_true_eq]
  constructor
  · rintro ⟨step, _, ⟨known, _⟩, isDue⟩
    exact ⟨known, isDue⟩
  · rintro ⟨known, isDue⟩
    have inside := bucketOf_lt time
    have cursor := wellFormed.cursor_lt
    refine ⟨(bucketOf time + bucketCount - wheel.cursor) % bucketCount, ?_, ⟨known, ?_⟩, isDue⟩
    · exact Nat.mod_lt _ (by decide)
    · simp only [bucketCount] at *
      omega

theorem dueAhead_succ (cursor_lt : wheel.cursor < bucketCount) (now buckets : Nat) :
    wheel.dueAhead now (buckets + 1) =
      wheel.dueAt now wheel.cursor ++ wheel.advance.dueAhead now buckets := by
  rw [dueAhead, List.range_succ_eq_map, List.flatMap_cons, List.flatMap_map, Nat.add_zero,
    Nat.mod_eq_of_lt cursor_lt, dueAhead]
  congr 1
  apply List.flatMap_congr
  intro step _
  have samePlace : (wheel.cursor + step.succ) % bucketCount =
      ((wheel.cursor + 1) % bucketCount + step) % bucketCount := by
    rw [Nat.mod_add_mod, Nat.succ_eq_add_one, Nat.add_assoc, Nat.add_comm 1]
  rw [samePlace]
  rfl

/-- Losing keys of the bucket at the cursor changes nothing in the buckets behind it. -/
theorem WellFormed.dueAhead_advance (wellFormed : wheel.WellFormed) {keys : List Bytes}
    (lost : Without wheel rest keys) (here : ∀ key ∈ keys, ∃ time, (time, key) ∈
      wheel.bucket wheel.cursor) (still : rest.cursor = wheel.cursor) (now : Nat) {buckets : Nat}
    (turn : buckets < bucketCount) :
    rest.advance.dueAhead now buckets = wheel.advance.dueAhead now buckets := by
  rw [dueAhead, dueAhead]
  apply List.flatMap_congr
  intro step inside
  have sameCursor : rest.advance.cursor = wheel.advance.cursor := by
    simp only [ExpiryWheel.advance, still]
  rw [sameCursor, dueAt, dueAt]
  congr 1
  change rest.bucket _ = wheel.bucket _
  rw [lost.bucket]
  apply List.filter_eq_self.mpr
  rintro ⟨time, key⟩ present
  simp only [decide_eq_true_eq]
  intro gone
  rcases here key gone with ⟨time', atCursor⟩
  have samePlace := wellFormed.place_unique present atCursor
  have cursor := wellFormed.cursor_lt
  rw [List.mem_range] at inside
  simp only [ExpiryWheel.advance, bucketCount] at *
  omega

end DueEntries

section Turn

/-- Taking entries off the front of the bucket at the cursor loses their keys. -/
theorem WellFormed.without_takeDue (wellFormed : wheel.WellFormed) {taken left : List Expiry}
    (front : wheel.bucket wheel.cursor = taken ++ left) :
    Without wheel (wheel.takeDue taken) (taken.map Prod.snd) where
  bucket place := by
    change (wheel.setBucket _ _).bucket place = _
    rw [bucket_setBucket]
    split
    · next here =>
        have distinct := wellFormed.nodup_keys_bucket wheel.cursor
        rw [front] at distinct
        rw [here, front, List.drop_left, DistinctKeys.filter_front distinct]
    · next elsewhere =>
        symm
        apply List.filter_eq_self.mpr
        rintro ⟨time, key⟩ present
        rw [decide_eq_true_eq]
        intro gone
        rcases List.mem_map.mp gone with ⟨⟨time', other⟩, inTaken, same⟩
        obtain rfl : other = key := same
        have atCursor : (time', other) ∈ wheel.bucket wheel.cursor := by
          rw [front]
          exact List.mem_append_left _ inTaken
        exact elsewhere (wellFormed.place_unique present atCursor)
  time? key := by
    have erased := FiniteMap.get?_foldl_erase wheel.index (taken.map Prod.snd) key
    rw [List.foldl_map] at erased
    exact erased
  cursor_lt := wellFormed.cursor_lt
  batchLimit := rfl

/-- The wheel after due entries have been taken off the bucket at the cursor. -/
def afterTaking (wheel : ExpiryWheel) (taken : List Expiry) : ExpiryWheel :=
  if taken = [] then wheel else wheel.takeDue taken

theorem cursor_afterTaking (taken : List Expiry) :
    (wheel.afterTaking taken).cursor = wheel.cursor := by
  simp only [afterTaking]
  split <;> rfl

theorem WellFormed.without_afterTaking (wellFormed : wheel.WellFormed) (now room : Nat) :
    Without wheel (wheel.afterTaking ((wheel.dueAt now wheel.cursor).take room))
      (((wheel.dueAt now wheel.cursor).take room).map Prod.snd) := by
  rw [afterTaking]
  split
  · next none => simpa [none] using wellFormed.without_nil
  · rw [dueAt, ← due_eq (wellFormed.sorted _), due]
    rcases (List.takeWhile_prefix _).trans (List.take_prefix room _) with ⟨left, front⟩
    exact wellFormed.without_takeDue front.symm

/-- Where the whole bucket at the cursor has been seen to, the buckets behind it are as before. -/
theorem WellFormed.dueAhead_onward (wellFormed : wheel.WellFormed) (now : Nat) {buckets : Nat}
    (turn : buckets < bucketCount) :
    (wheel.afterTaking (wheel.dueAt now wheel.cursor)).advance.dueAhead now buckets =
      wheel.advance.dueAhead now buckets := by
  have lost := wellFormed.without_afterTaking now (wheel.dueAt now wheel.cursor).length
  rw [List.take_length] at lost
  refine wellFormed.dueAhead_advance lost ?_ (cursor_afterTaking _) now turn
  intro key gone
  rcases List.mem_map.mp gone with ⟨⟨time, other⟩, present, rfl⟩
  exact ⟨time, List.mem_of_mem_filter present⟩

theorem WellFormed.turn_succ (wellFormed : wheel.WellFormed) (now buckets : Nat)
    (batch : List Bytes) :
    turn now (buckets + 1) wheel batch =
      let taken := (wheel.dueAt now wheel.cursor).take (wheel.batchLimit - batch.length)
      let batch := batch ++ taken.map Prod.snd
      if wheel.batchLimit ≤ batch.length then (batch, wheel.afterTaking taken)
      else turn now buckets (wheel.afterTaking taken).advance batch := by
  rw [ExpiryWheel.turn, due_eq (wellFormed.sorted _)]
  rfl

/-- Turning through buckets takes the front of what is due in them. -/
theorem WellFormed.turn (wellFormed : wheel.WellFormed) (now : Nat) {buckets : Nat}
    (once : buckets ≤ bucketCount) {batch : List Bytes} (room : batch.length < wheel.batchLimit) :
    let taken := (wheel.dueAhead now buckets).take (wheel.batchLimit - batch.length)
    (ExpiryWheel.turn now buckets wheel batch).1 = batch ++ taken.map Prod.snd ∧
      Without wheel (ExpiryWheel.turn now buckets wheel batch).2 (taken.map Prod.snd) := by
  induction buckets generalizing wheel batch with
  | zero => simpa [ExpiryWheel.turn, dueAhead] using wellFormed.without_nil
  | succ buckets ih =>
      have lost := wellFormed.without_afterTaking now (wheel.batchLimit - batch.length)
      simp only [wellFormed.turn_succ, dueAhead_succ wellFormed.cursor_lt]
      by_cases full : wheel.batchLimit - batch.length ≤ (wheel.dueAt now wheel.cursor).length
      · -- The bucket at the cursor fills the batch.
        rw [if_pos (by simp only [List.length_append, List.length_map, List.length_take]; omega),
          List.take_append_of_le_length full]
        exact ⟨rfl, lost⟩
      · -- Nothing that is due is left in the bucket, and the wheel turns on.
        have whole : (wheel.dueAt now wheel.cursor).take (wheel.batchLimit - batch.length) =
            wheel.dueAt now wheel.cursor := List.take_of_length_le (by omega)
        rw [whole] at lost
        rw [whole, if_neg (by simp only [List.length_append, List.length_map]; omega),
          List.take_append, whole]
        have ahead := wellFormed.dueAhead_onward now (Nat.lt_of_succ_le once)
        have limit := lost.advance.batchLimit
        have turned := @ih _ (lost.advance.wellFormed wellFormed) (Nat.le_of_succ_le once)
          (batch ++ (wheel.dueAt now wheel.cursor).map Prod.snd)
          (by simp only [List.length_append, List.length_map]; omega)
        simp only [ahead, limit, List.length_append, List.length_map, Nat.sub_add_eq] at turned
        rw [List.map_append, ← List.append_assoc]
        exact ⟨turned.1, lost.advance.trans turned.2⟩

theorem WellFormed.dueAhead_of_isEmpty (wellFormed : wheel.WellFormed)
    (blank : wheel.isEmpty = true) (now : Nat) : wheel.dueAhead now bucketCount = [] := by
  apply List.eq_nil_iff_forall_not_mem.mpr
  rintro ⟨time, key⟩ present
  have known := (wellFormed.mem_dueAhead.mp present).1
  have noEntries : wheel.index.entries = [] := List.isEmpty_iff.mp blank
  simp [ExpiryWheel.time?, FiniteMap.get?, noEntries] at known

/-- A batch is the front of what is due in a whole turn. -/
theorem WellFormed.expire (wellFormed : wheel.WellFormed) (now : Nat) :
    let taken := (wheel.dueAhead now bucketCount).take wheel.batchLimit
    (ExpiryWheel.expire wheel now).1 = taken.map Prod.snd ∧
      Without wheel (ExpiryWheel.expire wheel now).2 (taken.map Prod.snd) := by
  rw [ExpiryWheel.expire]
  split
  · next blank =>
      rw [wellFormed.dueAhead_of_isEmpty blank]
      simpa using wellFormed.without_nil
  · simpa using @WellFormed.turn _ wellFormed now _ (Nat.le_refl _) []
      wellFormed.one_le_batchLimit

end Turn

end Larder.ExpiryWheel
