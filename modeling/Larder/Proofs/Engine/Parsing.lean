import Larder.Grammar
import Mathlib.Data.List.GetD

/-!
# Commands and the tokens behind them

A verdict on the command at the front of a queue looks at the tokens of that command only.  So it
takes no more tokens than there are, and it stands whatever arrives later; only a command that is
not complete yet is judged anew.
-/

namespace Larder.Grammar

/-- How many tokens a verdict takes off the queue. -/
def Verdict.consumed : Verdict → Nat
  | .incomplete => 0
  | .invalid consumed _ => consumed
  | .parsed consumed _ => consumed

variable {verb : Command.Verb} {tokens : List Bytes}

/-- The count of options is one of the tokens that every command of the name has. -/
theorem extent?_append (enough : verb.minTokens ≤ tokens.length) (more : List Bytes) :
    extent? verb (tokens ++ more) = extent? verb tokens := by
  simp only [extent?]
  cases options : verb.hasOptions with
  | false => rfl
  | true =>
      have inside : 1 + verb.arity < tokens.length := by
        rw [Command.Verb.minTokens, options, Bool.toNat_true] at enough
        omega
      rw [List.getD_append _ _ _ _ inside]

theorem consumed_parse_le (limits : Limits) (readOnly : Bool) (verb : Command.Verb)
    (tokens : List Bytes) : (parse limits readOnly verb tokens).consumed ≤ tokens.length := by
  rw [parse]
  by_cases few : tokens.length < verb.minTokens
  · rw [if_pos few]
    exact Nat.zero_le _
  rw [if_neg few]
  cases extent? verb tokens with
  | none => exact Nat.le_of_not_lt few
  | some consumed =>
      by_cases fewer : tokens.length < consumed
      · simp only [if_pos fewer]
        exact Nat.zero_le _
      have enough := Nat.le_of_not_lt fewer
      simp only [if_neg fewer]
      split
      · exact enough
      · cases read limits verb (tokens.take consumed) <;> exact enough

/-- A verdict on a command that is complete stands when more tokens arrive. -/
theorem parse_append {limits : Limits} {readOnly : Bool}
    (complete : parse limits readOnly verb tokens ≠ .incomplete) (more : List Bytes) :
    parse limits readOnly verb (tokens ++ more) = parse limits readOnly verb tokens := by
  have longer : tokens.length ≤ (tokens ++ more).length := by simp
  rw [parse] at complete ⊢
  rw [parse]
  by_cases few : tokens.length < verb.minTokens
  · rw [if_pos few] at complete
    exact absurd rfl complete
  have enough := Nat.le_of_not_lt few
  rw [if_neg few] at complete ⊢
  rw [if_neg (Nat.not_lt_of_le (Nat.le_trans enough longer)), extent?_append enough]
  cases known : extent? verb tokens with
  | none => rfl
  | some consumed =>
      simp only [known] at complete ⊢
      by_cases fewer : tokens.length < consumed
      · rw [if_pos fewer] at complete
        exact absurd rfl complete
      have whole := Nat.le_of_not_lt fewer
      rw [if_neg fewer, if_neg (Nat.not_lt_of_le (Nat.le_trans whole longer)),
        List.take_append_of_le_length whole]

end Larder.Grammar
