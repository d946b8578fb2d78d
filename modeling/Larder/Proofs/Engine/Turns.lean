import Larder.Engine

/-!
# Turns

A turn skips a token that is no command name, refuses a command, or executes one.  What turns keep
is shown for these three.
-/

namespace Larder

/-- The command at the front of a queue, if it is complete and the grammar does not refuse it. -/
def Grammar.front? (limits : Limits) (readOnly : Bool) : List Bytes → Option Command
  | [] => none
  | name :: rest =>
    match Command.Verb.ofToken? name with
    | none => none
    | some verb =>
      match parse limits readOnly verb (name :: rest) with
      | .parsed _ command => some command
      | _ => none

namespace Engine

/-- What a turn through a queue can be. -/
inductive Takes (engine : Engine) (clock : Clock) (readOnly : Bool) :
    List Bytes → Turn → Prop where
  | skip {name : Bytes} {rest : List Bytes} (unknown : Command.Verb.ofToken? name = none) :
      Takes engine clock readOnly (name :: rest) ⟨none, engine, rest⟩
  | refuse {name : Bytes} {rest : List Bytes} {verb : Command.Verb} {consumed : Nat}
      {error : Grammar.Error} (known : Command.Verb.ofToken? name = some verb)
      (verdict : Grammar.parse engine.limits readOnly verb (name :: rest) =
        .invalid consumed error) :
      Takes engine clock readOnly (name :: rest)
        ⟨some (.error error.code), engine.answered (.error error.code),
          (name :: rest).drop consumed⟩
  | execute {name : Bytes} {rest : List Bytes} {verb : Command.Verb} {consumed : Nat}
      {command : Command} (known : Command.Verb.ofToken? name = some verb)
      (verdict : Grammar.parse engine.limits readOnly verb (name :: rest) =
        .parsed consumed command) :
      Takes engine clock readOnly (name :: rest)
        ⟨some (engine.execute clock readOnly command).1,
          (engine.execute clock readOnly command).2.answered
            (engine.execute clock readOnly command).1,
          (name :: rest).drop consumed⟩

variable {engine : Engine} {clock : Clock} {readOnly : Bool} {tokens : List Bytes} {turn : Turn}

theorem takes_of_turn? (taken : engine.turn? clock readOnly tokens = some turn) :
    engine.Takes clock readOnly tokens turn := by
  cases tokens with
  | nil => cases taken
  | cons name rest =>
      simp only [turn?] at taken
      split at taken
      · next unknown =>
        cases taken
        exact .skip unknown
      · next verb known =>
        split at taken
        · cases taken
        · next verdict =>
          cases taken
          exact .refuse known verdict
        · next verdict =>
          cases taken
          exact .execute known verdict

theorem Takes.turn? (takes : engine.Takes clock readOnly tokens turn) :
    engine.turn? clock readOnly tokens = some turn := by
  cases takes with
  | skip unknown => simp only [Engine.turn?, unknown]
  | refuse known verdict => simp only [Engine.turn?, known, verdict]
  | execute known verdict => simp only [Engine.turn?, known, verdict]

/-- Whether a turn can be taken depends on the limits of the engine only. -/
theorem turn?_eq_none_of_limits {other : Engine} (same : engine.limits = other.limits)
    (waits : engine.turn? clock readOnly tokens = none) :
    other.turn? clock readOnly tokens = none := by
  rw [Option.eq_none_iff_forall_ne_some] at waits ⊢
  intro turn taken
  cases takes_of_turn? taken with
  | skip unknown => exact waits _ (Takes.skip unknown).turn?
  | refuse known verdict =>
      rw [← same] at verdict
      exact waits _ (Takes.refuse known verdict).turn?
  | execute known verdict =>
      rw [← same] at verdict
      exact waits _ (Takes.execute known verdict).turn?

end Engine

end Larder
