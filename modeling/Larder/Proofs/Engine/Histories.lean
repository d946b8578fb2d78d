import Larder.Proofs.Engine.Reached
import Mathlib.Data.List.Forall2

/-!
# Histories of an engine

What happens to an engine, moment after moment: queues of tokens are answered, and keys whose
lifetime is over are taken out.  A history lists every turn that is taken on the way.  Two engines
that stay linked while they take the same turns have histories that agree turn by turn.
-/

namespace Larder

/-- What may happen to an engine. -/
inductive Event where
  | answer (readOnly : Bool) (tokens : List Bytes)
  | sweep
  deriving Repr, DecidableEq

/-- An event with the readings of the clock. -/
structure Moment where
  clock : Clock
  event : Event
  /-- Whether it is also there in a history from which others are left out. -/
  kept : Bool := true
  deriving Repr, DecidableEq

def Moment.isAnswer (moment : Moment) : Bool :=
  match moment.event with
  | .answer .. => true
  | .sweep => false

/-- A turn with the moment at which it is taken. -/
structure Occasion where
  moment : Moment
  readOnly : Bool
  visit : Engine.Visit
  deriving Repr, DecidableEq

namespace Occasion

/-- The command that is executed, if there is one. -/
def command? (occasion : Occasion) : Option Command :=
  Grammar.front? occasion.visit.engine.limits occasion.readOnly occasion.visit.waiting

/-- Two turns on the same tokens at the same moment, with the same response unless the command is
excused. -/
structure Alike (excused : Command → Prop) (occasion other : Occasion) : Prop where
  moment : occasion.moment = other.moment
  readOnly : occasion.readOnly = other.readOnly
  waiting : occasion.visit.waiting = other.visit.waiting
  rest : occasion.visit.turn.rest = other.visit.turn.rest
  command? : occasion.command? = other.command?
  response : (∀ command, occasion.command? = some command → ¬excused command) →
    occasion.visit.turn.response = other.visit.turn.response

end Occasion

namespace Engine

def occasions (engine : Engine) (moment : Moment) : List Occasion :=
  match moment.event with
  | .answer readOnly tokens =>
    (engine.visits moment.clock readOnly tokens).map fun visit => { moment, readOnly, visit }
  | .sweep => []

/-- The engine after a moment. -/
def next (engine : Engine) (moment : Moment) : Engine :=
  match moment.event with
  | .answer readOnly tokens => (engine.handle moment.clock readOnly tokens).engine
  | .sweep => (engine.sweep moment.clock).2

/-- The turns that an engine takes. -/
def history (engine : Engine) : List Moment → List Occasion
  | [] => []
  | moment :: moments => engine.occasions moment ++ (engine.next moment).history moments

variable {engine other : Engine}

theorem moment_of_mem_occasions {moment : Moment} {occasion : Occasion}
    (present : occasion ∈ engine.occasions moment) : occasion.moment = moment := by
  rw [occasions] at present
  split at present
  · rcases List.mem_map.mp present with ⟨visit, _, rfl⟩
    rfl
  · cases present

section Linked

variable {clock : Clock} {readOnly : Bool} {tokens : List Bytes}

/-- Engines that every turn leaves linked answer a queue alike.  What is asked of the turns of the
second engine may be given for granted. -/
theorem linked_handle {link : Engine → Engine → Prop} {fine : Visit → Prop}
    {alike : Visit → Visit → Prop}
    (limits : ∀ {engine other}, link engine other → engine.limits = other.limits)
    (step : ∀ {engine other tokens turn again}, link engine other →
      engine.turn? clock readOnly tokens = some turn →
      other.turn? clock readOnly tokens = some again → fine ⟨other, tokens, again⟩ →
      link turn.engine again.engine ∧ turn.rest = again.rest ∧
        alike ⟨engine, tokens, turn⟩ ⟨other, tokens, again⟩)
    (linked : link engine other)
    (granted : ∀ visit ∈ other.visits clock readOnly tokens, fine visit) :
    link (engine.handle clock readOnly tokens).engine
        (other.handle clock readOnly tokens).engine ∧
      List.Forall₂ alike (engine.visits clock readOnly tokens)
        (other.visits clock readOnly tokens) := by
  have behind (earlier before : List Response) :
      link (engine.handleFrom clock readOnly earlier tokens).engine
          (other.handleFrom clock readOnly before tokens).engine ∧
        List.Forall₂ alike (engine.visits clock readOnly tokens)
          (other.visits clock readOnly tokens) := by
    induction engine, earlier, tokens using handleFrom.induct clock readOnly
      generalizing other before with
    | case1 engine earlier tokens waits =>
        have waits' := turn?_eq_none_of_limits (limits linked) waits
        rw [handleFrom_of_none waits, handleFrom_of_none waits', visits_of_none waits,
          visits_of_none waits']
        exact ⟨linked, .nil⟩
    | case2 engine earlier tokens turn taken ih =>
        cases again : other.turn? clock readOnly tokens with
        | none =>
            rw [turn?_eq_none_of_limits (limits linked).symm again] at taken
            cases taken
        | some turn' =>
            rw [visits_of_some again, List.forall_mem_cons] at granted
            rcases step linked taken again granted.1 with ⟨stillLinked, rest, first⟩
            rw [← rest] at granted
            rw [handleFrom_of_some taken, handleFrom_of_some again, visits_of_some taken,
              visits_of_some again, ← rest]
            rcases ih stillLinked granted.2 _ with ⟨last, others⟩
            exact ⟨last, .cons first others⟩
  exact behind [] []

end Linked

end Engine

end Larder
