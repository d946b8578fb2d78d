import Larder.Proofs.Engine.Turns
import Larder.Proofs.Engine.Visits

/-!
# Commands that are counted

A server counts the commands that it answers, and among them those that it refuses or that fail.
These counters go up by one with every response, and stay as they are when a token is skipped.
-/

namespace Larder

/-- Whether counters went up by the number of some responses, and of the errors among them. -/
structure Counters.Counts (counters last : Counters) (responses : List Response) : Prop where
  commands : last.commandsProcessed =
    counters.commandsProcessed + UInt64.ofNat responses.length
  errors : last.commandErrors =
    counters.commandErrors + UInt64.ofNat (responses.countP Response.isError)

namespace Counters.Counts

variable {counters next last : Counters} {responses others : List Response}

theorem nil (counters : Counters) : counters.Counts counters [] := by
  constructor <;> simp

theorem append (first : counters.Counts next responses) (second : next.Counts last others) :
    counters.Counts last (responses ++ others) where
  commands := by
    rw [second.commands, first.commands, List.length_append, UInt64.ofNat_add, UInt64.add_assoc]
  errors := by
    rw [second.errors, first.errors, List.countP_append, UInt64.ofNat_add, UInt64.add_assoc]

end Counters.Counts

namespace Engine

variable {engine : Engine} {clock : Clock} {readOnly : Bool} {tokens : List Bytes}

theorem counts_answered (engine : Engine) (response : Response) :
    engine.counters.Counts (engine.answered response).counters [response] := by
  constructor
  · rfl
  · cases fails : response.isError <;> simp [answered, Counters.commandAnswered, fails]

theorem counters_execute (command : Command) :
    (engine.execute clock readOnly command).2.counters = engine.counters := by
  rw [execute]
  split <;> rfl

theorem counts_turn? {turn : Turn} (taken : engine.turn? clock readOnly tokens = some turn) :
    engine.counters.Counts turn.engine.counters turn.response.toList := by
  cases takes_of_turn? taken with
  | skip => exact .nil engine.counters
  | refuse => exact counts_answered engine _
  | @execute _ _ _ _ command =>
      have counted := counts_answered (engine.execute clock readOnly command).2
        (engine.execute clock readOnly command).1
      rwa [counters_execute] at counted

theorem counts_handle (engine : Engine) (clock : Clock) (readOnly : Bool) (tokens : List Bytes) :
    engine.counters.Counts (engine.handle clock readOnly tokens).engine.counters
      (engine.handle clock readOnly tokens).responses := by
  rw [responses_handle]
  unfold handle
  generalize ([] : List Response) = earlier
  induction engine, earlier, tokens using handleFrom.induct clock readOnly with
  | case1 engine earlier tokens waits =>
      rw [handleFrom_of_none waits, visits_of_none waits]
      exact .nil engine.counters
  | case2 engine earlier tokens turn taken ih =>
      rw [handleFrom_of_some taken, visits_of_some taken]
      have counted := (counts_turn? taken).append ih
      cases told : turn.response <;> simpa [told] using counted

end Engine

end Larder
