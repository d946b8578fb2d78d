import Larder.Proofs.Engine.Streaming

/-!
# One command at a time

A queue that is one command, neither less nor more, is answered once and used up.  Of such a queue
no part is answered that does not hold all of it.
-/

namespace Larder

namespace Grammar

/-- Whether tokens are one complete command, of which the verdict takes every token. -/
def IsCommand (limits : Limits) (readOnly : Bool) (tokens : List Bytes) : Prop :=
  ∃ name rest verb, tokens = name :: rest ∧ Command.Verb.ofToken? name = some verb ∧
    (parse limits readOnly verb tokens).consumed = tokens.length

variable {limits : Limits} {readOnly : Bool} {verb : Command.Verb} {part more : List Bytes}

/-- As long as tokens of a command are missing, there is no verdict on it. -/
theorem parse_of_part (missing : more ≠ [])
    (whole : (parse limits readOnly verb (part ++ more)).consumed = (part ++ more).length) :
    parse limits readOnly verb part = .incomplete := by
  apply Classical.byContradiction
  intro complete
  rw [parse_append complete, List.length_append] at whole
  have within := consumed_parse_le limits readOnly verb part
  have := List.length_pos_iff.mpr missing
  omega

end Grammar

namespace Engine

variable {engine : Engine} {clock : Clock} {readOnly : Bool} {tokens part more : List Bytes}

/-- A command that is there as a whole is answered once. -/
theorem exists_handle_of_isCommand
    (command : Grammar.IsCommand engine.limits readOnly tokens) (clock : Clock) :
    ∃ response next, engine.handle clock readOnly tokens = ⟨[response], next, []⟩ := by
  rcases command with ⟨name, rest, verb, rfl, known, whole⟩
  have answered {turn : Turn} {response : Response}
      (taken : engine.turn? clock readOnly (name :: rest) = some turn) (last : turn.rest = [])
      (told : turn.response = some response) :
      engine.handle clock readOnly (name :: rest) = ⟨[response], turn.engine, []⟩ := by
    rw [handle, handleFrom_of_some taken, last, told]
    exact handleFrom_of_none rfl
  have nothing : (name :: rest).drop (name :: rest).length = [] := List.drop_length
  cases verdict : Grammar.parse engine.limits readOnly verb (name :: rest) with
  | incomplete =>
      rw [verdict] at whole
      cases whole
  | invalid consumed error =>
      rw [verdict] at whole
      refine ⟨_, _, answered (Takes.refuse known verdict).turn? ?_ rfl⟩
      rw [← nothing, ← whole]
      rfl
  | parsed consumed command =>
      rw [verdict] at whole
      refine ⟨_, _, answered (Takes.execute known verdict).turn? ?_ rfl⟩
      rw [← nothing, ← whole]
      rfl

/-- A command of which tokens are missing stays in the queue. -/
theorem handle_of_part (command : Grammar.IsCommand engine.limits readOnly (part ++ more))
    (missing : more ≠ []) (clock : Clock) :
    engine.handle clock readOnly part = ⟨[], engine, part⟩ := by
  apply handleFrom_of_none
  rcases command with ⟨name, rest, verb, split, known, whole⟩
  cases part with
  | nil => rfl
  | cons first part =>
      cases split
      simp only [turn?, known, Grammar.parse_of_part missing whole]

end Engine

end Larder
