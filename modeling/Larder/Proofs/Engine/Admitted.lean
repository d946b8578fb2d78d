import Larder.Engine
import Larder.Proofs.Engine.Parsing
import Larder.Proofs.Grammar.Tokens

/-!
# What the grammar lets through

Values and names in a command that is not refused are tokens of the queue and keep the limits, and
limits that it sets have 64 bits.
-/

namespace Larder

/-- What holds of the values, the names and the numbers in commands behind some tokens. -/
def Command.Admitted (limits : Limits) (tokens : List Bytes) : Command → Prop
  | .set _ value _ _ => value ∈ tokens ∧ value.length ≤ limits.maxValueLength
  | .create name options =>
      (Bytes.ofText name).length ≤ limits.maxNameLength ∧
        ∀ count, options.maxKeys = some count → count ≤ Word64.largest
  | _ => True

theorem Command.Admitted.mono {command : Command} {others : List Bytes}
    (admitted : command.Admitted limits tokens) (more : tokens ⊆ others) :
    command.Admitted limits others := by
  cases command with
  | set => exact ⟨more admitted.1, admitted.2⟩
  | _ => exact admitted

namespace Grammar

variable {limits : Limits} {readOnly : Bool} {verb : Command.Verb} {tokens : List Bytes}

theorem length_ofText_readName {token : Bytes} {name : String}
    (accepted : readName limits token = .ok name) :
    (Bytes.ofText name).length ≤ limits.maxNameLength := by
  rw [readName] at accepted
  split at accepted
  · cases accepted
  · next short =>
    split at accepted
    · next decoded =>
      cases accepted
      rw [Bytes.ofText_of_toText? decoded]
      exact Nat.le_of_not_lt short
    · cases accepted

theorem le_largest_of_unsigned? {token : Bytes} {number : Nat}
    (written : Decimal.unsigned? token = some number) : number ≤ Word64.largest := by
  have small := (Option.filter_eq_some_iff.mp written).2
  exact of_decide_eq_true small

theorem le_largest_of_readSetting {options : Settings} {count : Nat}
    (accepted : readSetting options .maxKeys readMaxKeys = .ok (some count)) :
    count ≤ Word64.largest := by
  rw [readSetting] at accepted
  split at accepted
  · next token _ =>
    cases number : Decimal.unsigned? token with
    | none =>
        simp only [readMaxKeys, number] at accepted
        cases accepted
    | some most =>
        simp only [readMaxKeys, number] at accepted
        split at accepted
        · cases accepted
          exact le_largest_of_unsigned? number
        · cases accepted
  · cases accepted

theorem admitted_of_build {arguments : List Bytes} {options : Settings} {command : Command}
    (given : arguments.length = verb.arity)
    (built : build limits verb arguments options = .ok command) :
    command.Admitted limits arguments := by
  cases verb with
  | set =>
      rcases exists_of_bind built with ⟨key, _, built⟩
      rcases exists_of_bind built with ⟨value, accepted, built⟩
      rcases exists_of_bind built with ⟨ttl, _, built⟩
      rcases exists_of_bind built with ⟨name, _, built⟩
      cases built
      simp only [readValue] at accepted
      split at accepted
      · cases accepted
      · next short =>
        cases accepted
        have inside : 1 < arguments.length := by
          rw [given]
          decide
        refine ⟨?_, Nat.le_of_not_lt short⟩
        rw [List.getD_eq_getElem _ _ inside]
        exact List.getElem_mem inside
  | create =>
      rcases exists_of_bind built with ⟨name, named, built⟩
      rcases exists_of_bind built with ⟨offHeap, _, built⟩
      rcases exists_of_bind built with ⟨maxKeys, limited, built⟩
      rcases exists_of_bind built with ⟨snapshots, _, built⟩
      cases built
      refine ⟨length_ofText_readName named, ?_⟩
      intro count asked
      cases asked
      exact le_largest_of_readSetting limited
  | _ =>
      simp only [build, bind, Except.bind, pure, Except.pure] at built
      repeat' split at built
      all_goals cases built
      all_goals trivial

/-- The command that tokens were parsed to is admitted. -/
theorem admitted_of_parse {consumed : Nat} {command : Command}
    (verdict : parse limits readOnly verb tokens = .parsed consumed command) :
    command.Admitted limits tokens := by
  simp only [parse] at verdict
  split at verdict
  · cases verdict
  split at verdict
  · cases verdict
  next extent known =>
  split at verdict
  · cases verdict
  next enough =>
  split at verdict
  · cases verdict
  split at verdict
  · next readable =>
    cases verdict
    rcases exists_of_bind readable with ⟨options, _, built⟩
    have atLeast := minTokens_le_extent known
    apply (admitted_of_build _ built).mono
    · intro token present
      exact List.mem_of_mem_take (List.mem_of_mem_drop (List.mem_of_mem_take present))
    · simp only [Command.Verb.minTokens] at atLeast
      simp only [List.length_take, List.length_drop]
      omega
  · cases verdict

end Grammar

end Larder
