import Larder.ExpiryWheel
import Larder.Proofs.FiniteMap

/-!
# The expiry wheel as a map from keys to times

In a well-formed wheel an entry is in a bucket exactly if the index has its time under its key and
the bucket is the one of that time.  So the wheel answers as its index does, and no bucket keeps
anything that the index has forgotten.
-/

namespace Larder

namespace Expiry

variable {left middle right : Expiry}

theorem before_iff :
    left.before right = true ↔ left.1 < right.1 ∨ left.1 = right.1 ∧ left.2 < right.2 := by
  simp [before]

theorem before_trans (first : left.before middle = true) (second : middle.before right = true) :
    left.before right = true := by
  rw [before_iff] at *
  rcases first with earlier | ⟨sameTime, smaller⟩
  · left
    rcases second with later | ⟨sameTime, _⟩ <;> omega
  · rcases second with later | ⟨sameTime', greater⟩
    · left
      omega
    · exact Or.inr ⟨sameTime.trans sameTime', List.lt_trans smaller greater⟩

theorem before_of_not_before (different : left ≠ right) (not_before : ¬left.before right = true) :
    right.before left = true := by
  simp only [before_iff, not_or, not_and] at not_before ⊢
  rcases not_before with ⟨notEarlier, notSmaller⟩
  rcases Nat.lt_or_eq_of_le (Nat.le_of_not_lt notEarlier) with later | sameTime
  · exact Or.inl later
  · refine Or.inr ⟨sameTime, ?_⟩
    rcases List.le_iff_lt_or_eq.mp (List.not_lt.mp (notSmaller sameTime.symm)) with smaller | same
    · exact smaller
    · exact absurd (Prod.ext sameTime.symm same.symm) different

theorem time_le_of_before (first : left.before right = true) : left.1 ≤ right.1 := by
  rcases before_iff.mp first with earlier | ⟨sameTime, _⟩ <;> omega

theorem ne_of_before (first : left.before right = true) : left ≠ right := by
  rintro rfl
  rcases before_iff.mp first with earlier | ⟨_, smaller⟩
  · exact Nat.lt_irrefl _ earlier
  · exact List.lt_irrefl _ smaller

end Expiry

namespace ExpiryWheel

/-- Entries that follow one another in the order of a bucket. -/
def Sorted (content : List Expiry) : Prop :=
  content.Pairwise fun earlier later => earlier.before later = true

/-- Buckets and index say the same, and every bucket is in order. -/
structure WellFormed (wheel : ExpiryWheel) : Prop where
  /-- An entry is in the bucket of its time, and nowhere else. -/
  stored : ∀ place time key, (time, key) ∈ wheel.bucket place ↔
    wheel.time? key = some time ∧ place = bucketOf time
  sorted : ∀ place, Sorted (wheel.bucket place)
  cursor_lt : wheel.cursor < bucketCount
  one_le_batchLimit : 1 ≤ wheel.batchLimit

theorem bucketOf_lt (time : Nat) : bucketOf time < bucketCount :=
  Nat.mod_lt _ (by decide)

theorem wellFormed_empty (now batchLimit : Nat) : (empty now batchLimit).WellFormed where
  stored := by
    intro place time key
    constructor
    · exact nofun
    · exact fun found => nomatch found.1
  sorted place := List.Pairwise.nil
  cursor_lt := bucketOf_lt now
  one_le_batchLimit := Nat.le_max_left _ _

section Bucket

variable (wheel : ExpiryWheel)

@[simp]
theorem bucket_setBucket (place other : Nat) (content : List Expiry) :
    (wheel.setBucket place content).bucket other =
      if other = place then content else wheel.bucket other := by
  by_cases blank : content = []
  · by_cases same : other = place <;> simp [bucket, setBucket, blank, same]
  · by_cases same : other = place <;> simp [bucket, setBucket, blank, same]

@[simp]
theorem cursor_setBucket (place : Nat) (content : List Expiry) :
    (wheel.setBucket place content).cursor = wheel.cursor :=
  rfl

@[simp]
theorem batchLimit_setBucket (place : Nat) (content : List Expiry) :
    (wheel.setBucket place content).batchLimit = wheel.batchLimit :=
  rfl

end Bucket

variable {wheel : ExpiryWheel}

section Erase

@[simp]
theorem time?_erase (key other : Bytes) :
    (wheel.erase key).time? other = if other = key then none else wheel.time? other := by
  cases known : wheel.time? key with
  | some time =>
      simp only [erase, known]
      exact FiniteMap.get?_erase _ _ _
  | none =>
      simp only [erase, known]
      split
      · next same => rw [same, known]
      · rfl

@[simp]
theorem cursor_erase (key : Bytes) : (wheel.erase key).cursor = wheel.cursor := by
  cases known : wheel.time? key <;> simp [erase, known]

@[simp]
theorem batchLimit_erase (key : Bytes) : (wheel.erase key).batchLimit = wheel.batchLimit := by
  cases known : wheel.time? key <;> simp [erase, known]

/-- Erasing a key takes its entry out of the only bucket that has one. -/
theorem WellFormed.bucket_erase (wellFormed : wheel.WellFormed) (key : Bytes) (place : Nat) :
    (ExpiryWheel.erase wheel key).bucket place =
      (wheel.bucket place).filter fun entry => entry.2 ≠ key := by
  cases known : wheel.time? key with
  | none =>
      simp only [ExpiryWheel.erase, known]
      symm
      apply List.filter_eq_self.mpr
      rintro ⟨time, other⟩ present
      simp only [ne_eq, decide_eq_true_eq]
      rintro rfl
      simp [((wellFormed.stored _ _ _).mp present).1] at known
  | some time =>
      simp only [ExpiryWheel.erase, known]
      change (wheel.setBucket _ _).bucket place = _
      rw [bucket_setBucket]
      split
      · next here =>
          subst place
          apply List.filter_congr
          rintro ⟨time', other⟩ present
          have stored := ((wellFormed.stored _ _ _).mp present).1
          simp only [ne_eq, decide_eq_decide, not_iff_not, Prod.mk.injEq]
          refine ⟨fun same => same.2, ?_⟩
          rintro rfl
          rw [known] at stored
          exact ⟨(Option.some.inj stored).symm, rfl⟩
      · next elsewhere =>
          symm
          apply List.filter_eq_self.mpr
          rintro ⟨time', other⟩ present
          have stored := (wellFormed.stored _ _ _).mp present
          simp only [ne_eq, decide_eq_true_eq]
          rintro rfl
          rw [known] at stored
          exact elsewhere (Option.some.inj stored.1 ▸ stored.2)

theorem WellFormed.erase (wellFormed : wheel.WellFormed) (key : Bytes) :
    (wheel.erase key).WellFormed where
  stored := by
    intro place time other
    rw [wellFormed.bucket_erase, List.mem_filter, wellFormed.stored, time?_erase]
    by_cases same : other = key <;> simp [same]
  sorted place := by
    rw [wellFormed.bucket_erase]
    exact (wellFormed.sorted place).filter _
  cursor_lt := by simpa using wellFormed.cursor_lt
  one_le_batchLimit := by simpa using wellFormed.one_le_batchLimit

end Erase

section Insert

theorem mem_place {entry other : Expiry} {content : List Expiry} :
    other ∈ place entry content ↔ other = entry ∨ other ∈ content := by
  induction content with
  | nil => simp [place]
  | cons first rest ih =>
      simp only [place]
      split
      · simp
      · simp only [List.mem_cons, ih]
        tauto

theorem sorted_place {entry : Expiry} {content : List Expiry} (sorted : Sorted content)
    (fresh : entry ∉ content) : Sorted (place entry content) := by
  induction content with
  | nil => exact List.pairwise_singleton _ _
  | cons first rest ih =>
      rcases List.pairwise_cons.mp sorted with ⟨firstBefore, restSorted⟩
      simp only [place]
      split
      · next entryBefore =>
          refine List.pairwise_cons.mpr ⟨?_, sorted⟩
          intro other present
          rcases List.mem_cons.mp present with rfl | present
          · exact entryBefore
          · exact Expiry.before_trans entryBefore (firstBefore other present)
      · next notBefore =>
          have different : entry ≠ first := fun same => fresh (same ▸ List.mem_cons_self)
          refine List.pairwise_cons.mpr
            ⟨?_, ih restSorted fun present => fresh (List.mem_cons_of_mem _ present)⟩
          intro other present
          rcases mem_place.mp present with rfl | present
          · exact Expiry.before_of_not_before different notBefore
          · exact firstBefore other present

@[simp]
theorem time?_insert (key other : Bytes) (time : Nat) :
    (wheel.insert key time).time? other = if other = key then some time else wheel.time? other := by
  have erased := @time?_erase wheel key other
  simp only [time?] at erased
  by_cases same : other = key
  · simp [insert, time?, same]
  · simp [insert, time?, same, erased]

theorem bucket_insert (key : Bytes) (time other : Nat) :
    (wheel.insert key time).bucket other =
      if other = bucketOf time then place (time, key) ((wheel.erase key).bucket other)
      else (wheel.erase key).bucket other := by
  change ((wheel.erase key).setBucket _ _).bucket other = _
  rw [bucket_setBucket]
  split
  · next here => rw [here]
  · rfl

theorem WellFormed.insert (wellFormed : wheel.WellFormed) (key : Bytes) (time : Nat) :
    (wheel.insert key time).WellFormed where
  stored := by
    intro other time' key'
    have erased := (wellFormed.erase key).stored other time' key'
    rw [time?_erase] at erased
    rw [bucket_insert, time?_insert]
    by_cases here : other = bucketOf time
    · simp only [here, if_true] at erased ⊢
      rw [mem_place, erased]
      by_cases same : key' = key
      · simp only [same, if_true, Prod.mk.injEq, and_true, Option.some.injEq]
        constructor
        · rintro (rfl | ⟨impossible, _⟩)
          · exact ⟨rfl, rfl⟩
          · cases impossible
        · rintro ⟨rfl, _⟩
          exact Or.inl rfl
      · simp [same]
    · simp only [here, if_false]
      rw [erased]
      by_cases same : key' = key
      · simp only [same, if_true, reduceCtorEq, false_and, Option.some.injEq, false_iff]
        rintro ⟨rfl, here'⟩
        exact here here'
      · simp [same]
  sorted other := by
    rw [bucket_insert]
    have erased := (wellFormed.erase key).sorted other
    split
    · apply sorted_place erased
      rw [(wellFormed.erase key).stored]
      simp
    · exact erased
  cursor_lt := by
    change (wheel.erase key).cursor < _
    simpa using wellFormed.cursor_lt
  one_le_batchLimit := by
    change 1 ≤ (wheel.erase key).batchLimit
    simpa using wellFormed.one_le_batchLimit

@[simp]
theorem batchLimit_insert (key : Bytes) (time : Nat) :
    (wheel.insert key time).batchLimit = wheel.batchLimit := by
  change (wheel.erase key).batchLimit = _
  exact batchLimit_erase key

@[simp]
theorem time?_add (now : Nat) (key other : Bytes) (ttl : Nat) :
    (wheel.add now key ttl).time? other =
      if other = key then some (Word64.addSaturating now ttl) else wheel.time? other :=
  time?_insert key other _

end Insert

end ExpiryWheel

end Larder
