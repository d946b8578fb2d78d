import Larder.Proofs.Engine.Parsing
import Larder.Proofs.Engine.Turns

/-!
# Queues in parts

What an engine makes of a queue does not depend on how much of it is there at once.  A step that it
takes on the first part it takes on the whole queue too, so it can answer the first part, keep what
is left of it, and go on when the rest arrives.
-/

namespace Larder.Engine

variable {engine : Engine} {clock : Clock} {readOnly : Bool} {tokens : List Bytes}

/-- A step stays the same when more tokens arrive, which are left behind the others. -/
theorem turn?_append {turn : Turn} (taken : engine.turn? clock readOnly tokens = some turn)
    (more : List Bytes) :
    engine.turn? clock readOnly (tokens ++ more) =
      some { turn with rest := turn.rest ++ more } := by
  have behind (verb : Command.Verb) (head : List Bytes) :=
    @List.drop_append_of_le_length _ head more _
      (Grammar.consumed_parse_le engine.limits readOnly verb head)
  have again {verb : Command.Verb} {head : List Bytes} {verdict : Grammar.Verdict}
      (first : Grammar.parse engine.limits readOnly verb head = verdict)
      (complete : verdict ≠ .incomplete) :
      Grammar.parse engine.limits readOnly verb (head ++ more) = verdict :=
    (Grammar.parse_append (first.trans_ne complete) more).trans first
  cases takes_of_turn? taken with
  | skip unknown => exact (Takes.skip unknown).turn?
  | @refuse name rest verb consumed error known verdict =>
      have sameRest := behind verb (name :: rest)
      rw [verdict] at sameRest
      exact (Takes.refuse known (again verdict (by simp))).turn?.trans
        (congrArg some (congrArg (Turn.mk _ _) sameRest))
  | @execute name rest verb consumed command known verdict =>
      have sameRest := behind verb (name :: rest)
      rw [verdict] at sameRest
      exact (Takes.execute known (again verdict (by simp))).turn?.trans
        (congrArg some (congrArg (Turn.mk _ _) sameRest))

section Handle

theorem handleFrom_of_none {earlier : List Response}
    (waits : engine.turn? clock readOnly tokens = none) :
    engine.handleFrom clock readOnly earlier tokens = ⟨earlier.reverse, engine, tokens⟩ := by
  rw [handleFrom]
  split
  next => rfl
  next again => rw [waits] at again; cases again

theorem handleFrom_of_some {earlier : List Response} {turn : Turn}
    (taken : engine.turn? clock readOnly tokens = some turn) :
    engine.handleFrom clock readOnly earlier tokens =
      turn.engine.handleFrom clock readOnly (turn.response.toList ++ earlier) turn.rest := by
  rw [handleFrom]
  split
  next again => rw [taken] at again; cases again
  next again => rw [taken] at again; cases again; rfl

/-- Responses from before stand in front of all others and change nothing else. -/
theorem handleFrom_append_earlier (recent earlier : List Response) :
    engine.handleFrom clock readOnly (recent ++ earlier) tokens =
      ⟨earlier.reverse ++ (engine.handleFrom clock readOnly recent tokens).responses,
        (engine.handleFrom clock readOnly recent tokens).engine,
        (engine.handleFrom clock readOnly recent tokens).left⟩ := by
  induction engine, recent, tokens using handleFrom.induct clock readOnly with
  | case1 engine recent tokens waits => simp [handleFrom_of_none waits]
  | case2 engine recent tokens turn taken ih =>
      rw [handleFrom_of_some taken, handleFrom_of_some taken, ← List.append_assoc]
      exact ih

/-- Answering a queue goes on with what was left of its first part. -/
theorem handleFrom_append (earlier : List Response) (more : List Bytes) :
    engine.handleFrom clock readOnly earlier (tokens ++ more) =
      (engine.handleFrom clock readOnly earlier tokens).engine.handleFrom clock readOnly
        (engine.handleFrom clock readOnly earlier tokens).responses.reverse
        ((engine.handleFrom clock readOnly earlier tokens).left ++ more) := by
  induction engine, earlier, tokens using handleFrom.induct clock readOnly with
  | case1 engine earlier tokens waits =>
      rw [handleFrom_of_none waits, List.reverse_reverse]
  | case2 engine earlier tokens turn taken ih =>
      rw [handleFrom_of_some taken, handleFrom_of_some (turn?_append taken more)]
      exact ih

/-- An engine that has answered the first part of a queue goes on with what is left of it. -/
theorem handle_append (engine : Engine) (clock : Clock) (readOnly : Bool)
    (tokens more : List Bytes) :
    let first := engine.handle clock readOnly tokens
    let second := first.engine.handle clock readOnly (first.left ++ more)
    engine.handle clock readOnly (tokens ++ more) =
      ⟨first.responses ++ second.responses, second.engine, second.left⟩ := by
  intro first second
  have behind := @handleFrom_append_earlier first.engine clock readOnly (first.left ++ more) []
    first.responses.reverse
  rw [List.nil_append, List.reverse_reverse] at behind
  exact (handleFrom_append [] more).trans behind

theorem getD_output (handled : Handled) :
    handled.output.getD [] = handled.responses.flatMap Response.encode := by
  rw [Handled.output]
  by_cases silent : handled.responses = []
  · rw [if_pos silent, silent]
    rfl
  · rw [if_neg silent]
    rfl

/--
An engine that answers the first part of a queue and goes on with what is left of it when the rest
has arrived writes the same bytes as one that has the whole queue from the beginning, leaves the
same tokens, and ends in the same state, counters and stashes included.
-/
theorem handle_in_parts (engine : Engine) (clock : Clock) (readOnly : Bool)
    (tokens more : List Bytes) :
    let first := engine.handle clock readOnly tokens
    let second := first.engine.handle clock readOnly (first.left ++ more)
    let whole := engine.handle clock readOnly (tokens ++ more)
    first.output.getD [] ++ second.output.getD [] = whole.output.getD [] ∧
      second.left = whole.left ∧ second.engine = whole.engine := by
  intro first second whole
  have onward : whole = ⟨first.responses ++ second.responses, second.engine, second.left⟩ :=
    handle_append engine clock readOnly tokens more
  refine ⟨?_, ?_, ?_⟩
  · rw [getD_output, getD_output, getD_output, onward, List.flatMap_append]
  · rw [onward]
  · rw [onward]

end Handle

end Larder.Engine
