import Larder.Limits
import Larder.Proofs.Stash.Reached
import Larder.Proofs.Stash.Refinement

/-!
# The sizes of what a stash stores

A stash holds no value but those that calls store in it.  So if these are not empty and not too
long, no value that it holds is, and neither is its name, which never changes.
-/

namespace Larder.Stash

/-- The value that a call stores. -/
def Call.value? : Call → Option Bytes
  | .set _ value | .setWithTtl _ value _ => some value
  | .restore entry => some entry.value
  | _ => none

/-- The key and the value that a call stores. -/
def Call.stored? : Call → Option (Bytes × Bytes)
  | .set key value | .setWithTtl key value _ => some (key, value)
  | .restore entry => some (entry.key, entry.value)
  | _ => none

theorem Call.value?_of_stored? {call : Call} {key value : Bytes}
    (stored : call.stored? = some (key, value)) : call.value? = some value := by
  cases call <;> cases stored <;> rfl

/-- A record of a ledger after a call has the key and the value of one from before, or those that
are stored. -/
theorem Ledger.Step.pair_of_mem {now : Nat} {ledger next : Ledger} {call : Call}
    {answer : Except Error Answer} (step : Step now (some ledger) call answer (some next))
    {record : Entry} (present : record ∈ next.records) :
    (∃ earlier ∈ ledger.records, earlier.key = record.key ∧ earlier.value = record.value) ∨
      call.stored? = some (record.key, record.value) := by
  have among {added : Entry} (stored : record ∈ (ledger.toFront added).records) :
      record = added ∨ record ∈ ledger.records := by
    rcases List.mem_cons.mp stored with same | other
    · exact .inl same
    · exact .inr (List.mem_filter.mp other).1
  cases step with
  | set | setWithTtl | restore =>
      rcases among (List.mem_of_mem_take present) with rfl | old
      · exact .inr rfl
      · exact .inl ⟨record, old, rfl, rfl⟩
  | getLive found live =>
      rcases among present with rfl | old
      · have inside := (Option.filter_eq_some_iff.mp live).1
        exact .inl ⟨record, List.mem_of_find?_eq_some inside, rfl, rfl⟩
      · exact .inl ⟨record, old, rfl, rfl⟩
  | getNone | delete | expireKeys => exact .inl ⟨record, (List.mem_filter.mp present).1, rfl, rfl⟩
  | updateLive =>
      rcases List.mem_map.mp present with ⟨earlier, old, rfl⟩
      refine .inl ⟨earlier, old, ?_⟩
      split <;> exact ⟨rfl, rfl⟩
  | peek | contains | updateNone | evictKeys | entries | size | takeDirty =>
      exact .inl ⟨record, present, rfl, rfl⟩

section Holds

variable {stash : Stash} {contents : Contents} {key value : Bytes}

theorem holds_iff_get? (opened : stash.contents = some contents) :
    stash.Holds key value ↔ contents.values.get? key = some value := by
  constructor
  · rintro ⟨others, again, held⟩
    cases opened.symm.trans again
    exact held
  · intro held
    exact ⟨contents, opened, held⟩

/-- A stash that is healthy holds the keys and values of its records. -/
theorem Healthy.holds_iff (healthy : stash.Healthy contents) :
    stash.Holds key value ↔
      ∃ record ∈ contents.records, record.key = key ∧ record.value = value := by
  constructor
  · intro holds
    have held := (holds_iff_get? healthy.opened).mp holds
    refine ⟨contents.entry key value, ?_, rfl, rfl⟩
    rw [healthy.coherent.mem_records]
    exact congrArg (Option.map (contents.entry key)) held
  · rintro ⟨record, present, rfl, rfl⟩
    refine (holds_iff_get? healthy.opened).mpr ?_
    rw [← Contents.map_value_record?, healthy.coherent.mem_records.mp present, Option.map_some]

/-- What a stash holds after a call it held before, or the call stored it. -/
theorem Healthy.holds_or_stored (healthy : stash.Healthy contents) (now : Nat) {call : Call}
    (usual : call.Usual) (holds : (stash.after now call).Holds key value) :
    stash.Holds key value ∨ call.stored? = some (key, value) := by
  let ledger : Ledger :=
    ⟨stash.options.maxKeys, contents.records, healthy.coherent.distinct_records⟩
  have sound : contents.Sound stash.options.maxKeys contents.recency.next :=
    ⟨healthy.coherent, healthy.size_le, Nat.le_refl _⟩
  rcases healthy.exists_after now usual with ⟨rest, healed⟩
  rcases @exists_step_of_open stash contents ledger _ healthy.opened sound rfl rfl now call with
    ⟨shown, step, shows⟩
  cases shows with
  | closed gone => cases gone.symm.trans healed.opened
  | @opened others next opened records _ =>
      cases opened.symm.trans healed.opened
      rcases healed.holds_iff.mp holds with ⟨record, present, rfl, rfl⟩
      rw [← records] at present
      rcases step.pair_of_mem present with ⟨earlier, old, same⟩ | stored
      · exact .inl (healthy.holds_iff.mpr ⟨earlier, old, same⟩)
      · exact .inr stored

/-- A call stores one key at most. -/
theorem Healthy.size_after_le (healthy : stash.Healthy contents) (now : Nat) {call : Call}
    (usual : call.Usual) {rest : Contents} (opened : (stash.after now call).contents = some rest) :
    rest.values.size ≤ contents.values.size + call.stored?.isSome.toNat := by
  have held {key : Bytes} (there : rest.values.contains key = true) :
      contents.values.contains key = true ∨ ∃ value, call.stored? = some (key, value) := by
    rcases FiniteMap.contains_eq_true_iff.mp there with ⟨value, found⟩
    rcases healthy.holds_or_stored now usual ((holds_iff_get? opened).mpr found) with old | stored
    · exact .inl (FiniteMap.contains_of_get? ((holds_iff_get? healthy.opened).mp old))
    · exact .inr ⟨value, stored⟩
  cases stored : call.stored? with
  | none =>
      refine FiniteMap.size_le_of_contains fun key there => ?_
      rcases held there with old | ⟨_, new⟩
      · exact old
      · cases stored.symm.trans new
  | some pair =>
      have grown : rest.values.size ≤ (contents.values.insert pair.1 pair.2).size := by
        refine FiniteMap.size_le_of_contains fun key there => ?_
        rw [FiniteMap.contains_insert, Bool.or_eq_true, decide_eq_true_eq]
        rcases held there with old | ⟨_, new⟩
        · exact .inr old
        · cases stored.symm.trans new
          exact .inl rfl
      exact Nat.le_trans grown (Nat.succ_le_succ (FiniteMap.size_erase_le _ _))

theorem Healthy.holds_after (healthy : stash.Healthy contents) (now : Nat) {call : Call}
    (usual : call.Usual) (holds : (stash.after now call).Holds key value) :
    (∃ earlier, stash.Holds earlier value) ∨ call.value? = some value := by
  rcases healthy.holds_or_stored now usual holds with held | stored
  · exact .inl ⟨key, held⟩
  · exact .inr (Call.value?_of_stored? stored)

end Holds

/-- A value that a client may store: not empty, and not too long. -/
def Storable (limits : Limits) (value : Bytes) : Prop :=
  1 ≤ value.length ∧ value.length ≤ limits.maxValueLength

/-- A stash with a name and values that keep the limits. -/
structure Within (limits : Limits) (stash : Stash) : Prop where
  name : (Bytes.ofText stash.name).length ≤ limits.maxNameLength
  values : ∀ {key value}, stash.Holds key value → Storable limits value

namespace Within

variable {limits : Limits} {stash : Stash} {contents : Contents}

theorem create (now : Nat) {name : String} (options : Options)
    (short : (Bytes.ofText name).length ≤ limits.maxNameLength) :
    (Stash.create now name options).Within limits where
  name := short
  values holds := by
    rcases holds with ⟨contents, opened, held⟩
    cases opened
    cases held

/-- A call that stores only what may be stored. -/
theorem after (within : stash.Within limits) (healthy : stash.Healthy contents) (now : Nat)
    {call : Call} (usual : call.Usual)
    (storable : ∀ value, call.value? = some value → Storable limits value) :
    (stash.after now call).Within limits where
  name := by
    rcases exists_change healthy.opened healthy.coherent healthy.size_le now usual.1 with
      ⟨_, _, _, became⟩
    rw [became.name]
    exact within.name
  values holds := by
    rcases healthy.holds_after now usual holds with ⟨earlier, old⟩ | stored
    · exact within.values old
    · exact storable _ stored

end Within

end Larder.Stash
