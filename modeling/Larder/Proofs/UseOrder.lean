import Larder.Proofs.Recency
import Mathlib.Data.List.Count

/-!
# The order of use as a list of keys

The order of use is kept in two maps and a counter.  Whatever is called on it, it answers as a list
of keys without repetitions does: a use moves its key to the end, and eviction takes the front away.
The number of a key is the place of its last use among all uses so far, and the list has its keys in
the order of their numbers, so the key in front is the one used least recently.
-/

namespace Larder

namespace Recency

/-- What changes an order of use. -/
inductive Call where
  | use (key : Bytes)
  | remove (key : Bytes)
  | evict
  | clear
  deriving Repr, DecidableEq

inductive Answer where
  | done
  /-- Whether a key was among the keys. -/
  | known (before : Bool)
  /-- The key that was evicted, if there was one. -/
  | evicted (key : Option Bytes)
  deriving Repr, DecidableEq

/-- Answers a call. -/
def respond (recency : Recency) : Call → Answer × Recency
  | .use key => (.done, recency.use key)
  | .remove key => (recency.remove key).map .known id
  | .evict =>
    match recency.evict? with
    | some (key, rest) => (.evicted (some key), rest)
    | none => (.evicted none, recency)
  | .clear => (.done, recency.clear)

/-- Answers calls one after another. -/
def run (recency : Recency) : List Call → List Answer × Recency
  | [] => ([], recency)
  | call :: calls =>
    let (answer, next) := recency.respond call
    let (answers, last) := run next calls
    (answer :: answers, last)

/-- The key that a call uses. -/
def Call.used : Call → List Bytes
  | .use key => [key]
  | .remove _ | .evict | .clear => []

/-- The keys that calls use, once for each use. -/
def usedKeys (calls : List Call) : List Bytes :=
  calls.flatMap Call.used

end Recency

/-- Keys without repetitions, the one used least recently in front. -/
structure UseOrder where
  keys : List Bytes := []
  nodup : keys.Nodup := by exact List.nodup_nil

namespace UseOrder

open Recency (Call Answer)

variable {order : UseOrder}

theorem ext {left right : UseOrder} (same : left.keys = right.keys) : left = right := by
  cases left
  cases right
  cases same
  rfl

def without (order : UseOrder) (key : Bytes) : UseOrder where
  keys := order.keys.filter (· ≠ key)
  nodup := order.nodup.filter _

/-- The order with a key at its end. -/
def use (order : UseOrder) (key : Bytes) : UseOrder where
  keys := (order.without key).keys ++ [key]
  nodup := by
    refine List.nodup_append.mpr ⟨(order.without key).nodup, List.nodup_singleton key, ?_⟩
    intro other present last isLast
    rw [List.mem_singleton.mp isLast]
    simpa using (List.mem_filter.mp present).2

/-- The order without the key in front. -/
def tail (order : UseOrder) : UseOrder where
  keys := order.keys.tail
  nodup := order.nodup.tail

/-- Answers a call. -/
def respond (order : UseOrder) : Call → Answer × UseOrder
  | .use key => (.done, order.use key)
  | .remove key => (.known (order.keys.contains key), order.without key)
  | .evict => (.evicted order.keys.head?, order.tail)
  | .clear => (.done, {})

/-- Answers calls one after another. -/
def run (order : UseOrder) : List Call → List Answer × UseOrder
  | [] => ([], order)
  | call :: calls =>
    let (answer, next) := order.respond call
    let (answers, last) := run next calls
    (answer :: answers, last)

section Evictions

variable {key : Bytes}

theorem respond_of_absent {call : Call} (absent : key ∉ order.keys) (unused : .use key ≠ call) :
    .evicted (some key) ≠ (order.respond call).1 ∧ key ∉ (order.respond call).2.keys := by
  cases call with
  | use other =>
      have different : key ≠ other := by
        rintro rfl
        exact unused rfl
      simp [respond, use, without, absent, different]
  | remove other => simp [respond, without, absent]
  | evict =>
      constructor
      · intro evicted
        injection evicted with front
        exact absent (List.mem_of_head? front.symm)
      · exact fun present => absent (List.mem_of_mem_tail present)
  | clear => simp [respond]

/-- A key that is not there is not evicted unless it is used. -/
theorem not_evicted {calls : List Call} (absent : key ∉ order.keys) (unused : .use key ∉ calls) :
    .evicted (some key) ∉ (order.run calls).1 := by
  induction calls generalizing order with
  | nil => exact List.not_mem_nil
  | cons call calls ih =>
      rw [List.mem_cons, not_or] at unused
      rcases respond_of_absent absent unused.1 with ⟨notNow, absentNext⟩
      simp only [run, List.mem_cons, not_or]
      exact ⟨notNow, ih absentNext unused.2⟩

/-- Evicted again and again, keys come in order, and then none. -/
theorem run_evictions (order : UseOrder) (rounds : Nat) :
    (order.run (List.replicate rounds .evict)).1 =
      (order.keys.take rounds).map (fun key => .evicted (some key)) ++
        List.replicate (rounds - order.keys.length) (.evicted none) := by
  induction rounds generalizing order with
  | zero => simp [run]
  | succ rounds ih =>
      simp only [List.replicate_succ, run, respond, ih, tail]
      cases order.keys with
      | nil => simp [List.replicate_succ]
      | cons key keys => simp

/-- With as many evictions as keys, each key is evicted once. -/
theorem count_evictions (order : UseOrder) {rounds : Nat} (enough : order.keys.length ≤ rounds)
    (key : Bytes) :
    (order.run (List.replicate rounds .evict)).1.count (.evicted (some key)) =
      if key ∈ order.keys then 1 else 0 := by
  have injective : Function.Injective fun key : Bytes => Answer.evicted (some key) := by
    intro first second same
    injection same with same
    exact Option.some.inj same
  have noneLater : (List.replicate (rounds - order.keys.length) (Answer.evicted none)).count
      (.evicted (some key)) = 0 := by
    apply List.count_eq_zero.mpr
    simp [List.mem_replicate]
  rw [run_evictions, List.take_of_length_le enough, List.count_append, noneLater,
    List.count_map_of_injective _ _ injective, Nat.add_zero]
  exact List.Nodup.count order.nodup

end Evictions

end UseOrder

namespace Recency

variable {recency : Recency}

section Refinement

/-- The list that a well-formed order of use stands for. -/
def WellFormed.order (wellFormed : recency.WellFormed) : UseOrder where
  keys := recency.toList
  nodup := wellFormed.nodup_toList

theorem WellFormed.contains_eq (wellFormed : recency.WellFormed) (key : Bytes) :
    recency.contains key = recency.toList.contains key := by
  rw [Bool.eq_iff_iff, List.contains_iff_mem]
  exact wellFormed.mem_toList.symm

theorem respond_evict_of_nil (order : recency.toList = []) :
    recency.respond .evict = (.evicted none, recency) := by
  rw [respond, evict?_eq_none order]

theorem WellFormed.respond_evict_of_cons (wellFormed : recency.WellFormed) {key : Bytes}
    {keys : List Bytes} (order : recency.toList = key :: keys) :
    recency.respond .evict = (.evicted (some key), recency.erase key) := by
  rw [respond, wellFormed.evict?_eq_some order]

theorem WellFormed.respond (wellFormed : recency.WellFormed) (call : Call) :
    (recency.respond call).2.WellFormed := by
  cases call with
  | use key => exact wellFormed.use key
  | remove key => exact wellFormed.erase key
  | evict =>
      cases order : recency.toList with
      | nil => rwa [respond_evict_of_nil order]
      | cons key keys =>
          rw [wellFormed.respond_evict_of_cons order]
          exact wellFormed.erase key
  | clear => exact wellFormed_clear

/-- A call on an order of use is that call on its list. -/
theorem WellFormed.respond_order (wellFormed : recency.WellFormed) (call : Call) :
    wellFormed.order.respond call =
      ((recency.respond call).1, (wellFormed.respond call).order) := by
  cases call with
  | use key =>
      refine Prod.ext rfl (UseOrder.ext ?_)
      exact (wellFormed.toList_use key).symm
  | remove key =>
      refine Prod.ext ?_ (UseOrder.ext ?_)
      · exact congrArg Answer.known (wellFormed.contains_eq key).symm
      · exact (wellFormed.toList_erase key).symm
  | evict =>
      cases order : recency.toList with
      | nil =>
          refine Prod.ext ?_ (UseOrder.ext ?_)
          · simp [UseOrder.respond, order, WellFormed.order, respond_evict_of_nil order]
          · simp [UseOrder.respond, UseOrder.tail, order, WellFormed.order,
              respond_evict_of_nil order]
      | cons key keys =>
          refine Prod.ext ?_ (UseOrder.ext ?_)
          · simp [UseOrder.respond, order, WellFormed.order,
              wellFormed.respond_evict_of_cons order]
          · simp [UseOrder.respond, UseOrder.tail, order, WellFormed.order,
              wellFormed.respond_evict_of_cons order, wellFormed.toList_erase_of_cons order]
  | clear => rfl

/-- Whatever is called on an order of use, its answers are those of its list. -/
theorem WellFormed.run (wellFormed : recency.WellFormed) (calls : List Call) :
    ∃ last : (recency.run calls).2.WellFormed,
      wellFormed.order.run calls = ((recency.run calls).1, last.order) := by
  induction calls generalizing recency with
  | nil => exact ⟨wellFormed, rfl⟩
  | cons call calls ih =>
      rcases ih (wellFormed.respond call) with ⟨last, same⟩
      refine ⟨last, ?_⟩
      simp only [UseOrder.run, wellFormed.respond_order, same]
      rfl

theorem WellFormed.not_evicted_of_removed (wellFormed : recency.WellFormed) {key : Bytes}
    {later : List Call} (unused : .use key ∉ later) :
    .evicted (some key) ∉ ((recency.remove key).2.run later).1 := by
  have erased := wellFormed.erase key
  have absent : key ∉ erased.order.keys := by
    simp [WellFormed.order, wellFormed.toList_erase]
  rcases erased.run later with ⟨_, same⟩
  have never := UseOrder.not_evicted absent unused
  rwa [same] at never

theorem WellFormed.count_evictions (wellFormed : recency.WellFormed) {rounds : Nat}
    (enough : recency.size ≤ rounds) (key : Bytes) :
    (recency.run (List.replicate rounds .evict)).1.count (.evicted (some key)) =
      if recency.contains key then 1 else 0 := by
  rcases wellFormed.run (List.replicate rounds .evict) with ⟨_, same⟩
  rw [← wellFormed.length_toList] at enough
  have counted := wellFormed.order.count_evictions enough key
  rw [same] at counted
  rw [counted]
  exact if_congr wellFormed.mem_toList rfl rfl

end Refinement

section Numbers

/-- Of the uses of a key, the one with a given number is the last. -/
def LastUse (used : List Bytes) (key : Bytes) (number : Nat) : Prop :=
  used[number]? = some key ∧ key ∉ used.drop (number + 1)

/-- One key was used for the last time before another. -/
def UsedBefore (used : List Bytes) (first second : Bytes) : Prop :=
  ∃ earlier later, LastUse used first earlier ∧ LastUse used second later ∧ earlier < later

/-- Numbers count the uses so far, and the number of each key is that of its last use. -/
structure Numbered (used : List Bytes) (recency : Recency) : Prop where
  next : recency.next = used.length
  last : ∀ key number, recency.index.get? key = some number → LastUse used key number
  /-- Uses are kept with the greatest number in front. -/
  descending : recency.uses.keys.Pairwise (· > ·)

variable {used : List Bytes} {key : Bytes}

theorem lastUse_append_self (used : List Bytes) (key : Bytes) :
    LastUse (used ++ [key]) key used.length := by
  constructor
  · rw [List.getElem?_append_right (Nat.le_refl _), Nat.sub_self]
    rfl
  · rw [List.drop_of_length_le (by simp)]
    exact List.not_mem_nil

theorem LastUse.append {other : Bytes} {number : Nat} (lastUse : LastUse used key number)
    (different : key ≠ other) : LastUse (used ++ [other]) key number := by
  have inside : number < used.length := (List.getElem?_eq_some_iff.mp lastUse.1).1
  constructor
  · rw [List.getElem?_append_left inside]
    exact lastUse.1
  · rw [List.drop_append_of_le_length inside, List.mem_append, not_or, List.mem_singleton]
    exact ⟨lastUse.2, different⟩

theorem numbered_empty : Numbered [] {} where
  next := rfl
  last := by
    intro key number found
    cases found
  descending := List.Pairwise.nil

namespace Numbered

theorem erase (numbered : Numbered used recency) (key : Bytes) :
    Numbered used (recency.erase key) where
  next := (next_erase key).trans numbered.next
  last := by
    intro other number found
    rw [index_erase, FiniteMap.get?_erase] at found
    split at found
    · cases found
    · exact numbered.last other number found
  descending := by
    unfold Recency.erase
    split
    · exact numbered.descending.sublist (List.filter_sublist.map _)
    · exact numbered.descending

theorem use (numbered : Numbered used recency) (wellFormed : recency.WellFormed) (key : Bytes) :
    Numbered (used ++ [key]) (recency.use key) where
  next := by simp [numbered.next]
  last := by
    intro other number found
    simp only [Recency.use, FiniteMap.get?_insert] at found
    split at found
    · next same =>
        cases found
        rw [same, numbered.next]
        exact lastUse_append_self used key
    · next different => exact (numbered.last other number found).append different
  descending := by
    have below := (wellFormed.erase key).below
    rw [FiniteMap.keys, wellFormed.uses_use, List.map_cons, List.pairwise_cons]
    refine ⟨?_, (numbered.erase key).descending⟩
    intro number present
    rcases List.mem_map.mp present with ⟨⟨_, other⟩, stored, rfl⟩
    have earlier := below _ _ (FiniteMap.mem_entries_iff.mp stored)
    rwa [next_erase] at earlier

theorem clear (numbered : Numbered used recency) : Numbered used recency.clear where
  next := numbered.next
  last := by
    intro key number found
    cases found
  descending := List.Pairwise.nil

theorem respond (numbered : Numbered used recency) (wellFormed : recency.WellFormed)
    (call : Call) : Numbered (used ++ call.used) (recency.respond call).2 := by
  cases call with
  | use key => exact numbered.use wellFormed key
  | remove key =>
      rw [Call.used, List.append_nil]
      exact numbered.erase key
  | evict =>
      rw [Call.used, List.append_nil]
      cases order : recency.toList with
      | nil => rwa [respond_evict_of_nil order]
      | cons key keys =>
          rw [wellFormed.respond_evict_of_cons order]
          exact numbered.erase key
  | clear =>
      rw [Call.used, List.append_nil]
      exact numbered.clear

theorem run (numbered : Numbered used recency) (wellFormed : recency.WellFormed)
    (calls : List Call) : Numbered (used ++ usedKeys calls) (recency.run calls).2 := by
  induction calls generalizing recency used with
  | nil => rwa [usedKeys, List.flatMap_nil, List.append_nil]
  | cons call calls ih =>
      have rest := ih (numbered.respond wellFormed call) (wellFormed.respond call)
      rwa [List.append_assoc] at rest

/-- The list has its keys in the order of their last use. -/
theorem pairwise_toList (numbered : Numbered used recency) (wellFormed : recency.WellFormed) :
    recency.toList.Pairwise (UsedBefore used) := by
  rw [toList, List.pairwise_reverse, FiniteMap.values, List.pairwise_map]
  have descending := numbered.descending
  rw [FiniteMap.keys, List.pairwise_map] at descending
  refine List.Pairwise.imp_of_mem ?_ descending
  rintro ⟨later, second⟩ ⟨earlier, first⟩ secondStored firstStored before
  have lastUse {key : Bytes} {number : Nat} (stored : (number, key) ∈ recency.uses.entries) :
      LastUse used key number :=
    numbered.last _ _ ((wellFormed.linked _ _).mpr (FiniteMap.mem_entries_iff.mp stored))
  exact ⟨earlier, later, lastUse firstStored, lastUse secondStored, before⟩

end Numbered

end Numbers

/--
Whatever is called on a new order of use, its two maps are inverse to each other, and the number of
a key is the place of its last use among all uses.  The next number is how many uses there were, so
numbers fit in 64 bits while there are fewer than 2 ^ 64 uses.  It has answered as the list of its
keys would, from the least recent use to the most recent one, and has the keys of that list.  So a
key that is removed is not evicted unless it is used again, and evicting again and again gives each
key once.
-/
theorem answers_as_list_of_keys (calls : List Call) :
    let used := usedKeys calls
    let answers := (({} : Recency).run calls).1
    let recency := (({} : Recency).run calls).2
    let order := (({} : UseOrder).run calls).2
    (∀ key number,
        recency.index.get? key = some number ↔ recency.uses.get? number = some key) ∧
      (∀ number key, recency.uses.get? number = some key →
        number < recency.next ∧ LastUse used key number) ∧
      recency.next = used.length ∧
      answers = (({} : UseOrder).run calls).1 ∧
      recency.toList = order.keys ∧
      order.keys.Pairwise (UsedBefore used) ∧
      (∀ key, recency.contains key = order.keys.contains key) ∧
      recency.size = order.keys.length ∧
      (∀ key later, .use key ∉ later →
        .evicted (some key) ∉ ((recency.remove key).2.run later).1) ∧
      ∀ key rounds, recency.size ≤ rounds →
        (recency.run (List.replicate rounds .evict)).1.count (.evicted (some key)) =
          if recency.contains key then 1 else 0 := by
  intro used answers recency order
  rcases wellFormed_empty.run calls with ⟨wellFormed, same⟩
  have numbered : Numbered used recency := numbered_empty.run wellFormed_empty calls
  -- The list that a new order of use stands for is the empty one.
  change ({} : UseOrder).run calls = _ at same
  have sameOrder : order = wellFormed.order := congrArg Prod.snd same
  rw [sameOrder]
  refine ⟨wellFormed.linked, ?_, numbered.next, (congrArg Prod.fst same).symm, rfl,
    numbered.pairwise_toList wellFormed, ?_, wellFormed.length_toList.symm, ?_, ?_⟩
  · intro number key stored
    exact ⟨wellFormed.below _ _ stored,
      numbered.last _ _ ((wellFormed.linked _ _).mpr stored)⟩
  · exact wellFormed.contains_eq
  · intro key later unused
    exact wellFormed.not_evicted_of_removed unused
  · intro key rounds enough
    exact wellFormed.count_evictions enough key

/-- A key that is used again goes behind the others. -/
example : (({} : Recency).run [.use [1], .use [2], .use [1], .evict, .remove [2], .evict]).1 =
    [.done, .done, .done, .evicted (some [2]), .known false, .evicted (some [1])] := by
  decide

end Recency

end Larder
