import Larder.Proofs.Engine.Histories
import Larder.Proofs.Registry.Related

/-!
# Two engines side by side

Two engines with the same limits whose registries are related take the same turns.  What they say
can differ only where a command asks for statistics or looks at stashes that tell it different
things.
-/

namespace Larder.Engine

open Registry (Related)

variable {related : String → Stash → Stash → Prop} {engine other : Engine} {clock : Clock}
  {readOnly : Bool} {command : Command}

section Execute

variable (both : Related related engine.registry other.registry)
  (separate : engine.registry.Separate) (separate' : other.registry.Separate)
  (fresh : ∀ name options, related name (Stash.create clock.now name options)
    (Stash.create clock.now name options))

include both separate separate'

/-- A command about one stash changes that stash, if it is registered. -/
theorem related_execute_target {name : String} (about : command.target? = some name)
    (step : ∀ {stash again}, engine.registry.find? name = some stash →
      other.registry.find? name = some again → related name stash again →
      related name (stash.leftBy clock.now readOnly command)
        (again.leftBy clock.now readOnly command)) :
    Related related (engine.execute clock readOnly command).2.registry
      (other.execute clock readOnly command).2.registry := by
  cases found : engine.registry.find? name with
  | none =>
      have found' := (both.find?_eq_none_iff separate separate').mp found
      rw [execute_of_absent about found, execute_of_absent about found']
      exact both
  | some stash =>
      rcases both.exists_of_find? separate separate' found with
        ⟨handle, again, led, there, led', there', found'⟩
      rw [execute_of_found about led there, execute_of_found about led' there']
      exact both.put separate separate' led (step found found' (both.stashes found found'))

theorem told_execute_target {name : String} (about : command.target? = some name)
    (told : ∀ {stash again}, engine.registry.find? name = some stash →
      other.registry.find? name = some again → related name stash again →
      stash.told clock.now readOnly command = again.told clock.now readOnly command) :
    (engine.execute clock readOnly command).1 = (other.execute clock readOnly command).1 := by
  cases found : engine.registry.find? name with
  | none =>
      have found' := (both.find?_eq_none_iff separate separate').mp found
      rw [execute_of_absent about found, execute_of_absent about found']
  | some stash =>
      rcases both.exists_of_find? separate separate' found with
        ⟨handle, again, led, there, led', there', found'⟩
      rw [execute_of_found about led there, execute_of_found about led' there']
      exact told found found' (both.stashes found found')

include fresh

/-- Commands about no stash that is there are carried out alike, but for statistics. -/
theorem related_execute_other (about : command.target? = none) :
    Related related (engine.execute clock readOnly command).2.registry
        (other.execute clock readOnly command).2.registry ∧
      (command ≠ .stats →
        (engine.execute clock readOnly command).1 = (other.execute clock readOnly command).1) := by
  cases command with
  | get | set | delete | expire | info => cases about
  | ping => exact ⟨both, fun _ => rfl⟩
  | stats => exact ⟨both, fun another => absurd rfl another⟩
  | create name options =>
      have same : requestedOptions engine.registry options =
          requestedOptions other.registry options := by
        simp only [requestedOptions, Registry.defaultOptions, both.defaults]
      rw [execute_create, execute_create, same]
      rcases both.create separate separate' (fresh name (requestedOptions other.registry options))
        with ⟨error, refused, refused'⟩ | ⟨next, last, created, created', related⟩
      · rw [refused, refused']
        exact ⟨both, fun _ => rfl⟩
      · rw [created, created']
        exact ⟨related, fun _ => rfl⟩
  | drop name =>
      rw [execute_drop, execute_drop]
      rcases @Related.drop _ _ _ name both separate separate' with
        ⟨error, refused, refused'⟩ | ⟨next, last, dropped, dropped', related⟩
      · rw [refused, refused']
        exact ⟨both, fun _ => rfl⟩
      · rw [dropped, dropped']
        exact ⟨related, fun _ => rfl⟩

end Execute

/-- Turns on the same tokens. -/
theorem alike_turn? {excused : Command → Prop} {moment : Moment} {tokens : List Bytes}
    {turn again : Turn} (limits : engine.limits = other.limits)
    (both : Related related engine.registry other.registry)
    (separate : engine.registry.Separate) (separate' : other.registry.Separate)
    (taken : engine.turn? moment.clock readOnly tokens = some turn)
    (taken' : other.turn? moment.clock readOnly tokens = some again)
    (fresh : ∀ name options, related name (Stash.create moment.clock.now name options)
      (Stash.create moment.clock.now name options))
    (statistics : excused .stats)
    (step : ∀ {command name first second},
      Grammar.front? other.limits readOnly tokens = some command →
      command.target? = some name → engine.registry.find? name = some first →
      other.registry.find? name = some second → related name first second →
      related name (first.leftBy moment.clock.now readOnly command)
          (second.leftBy moment.clock.now readOnly command) ∧
        (¬excused command → first.told moment.clock.now readOnly command =
          second.told moment.clock.now readOnly command)) :
    Related related turn.engine.registry again.engine.registry ∧ turn.rest = again.rest ∧
      Occasion.Alike excused ⟨moment, readOnly, ⟨engine, tokens, turn⟩⟩
        ⟨moment, readOnly, ⟨other, tokens, again⟩⟩ := by
  have sameCommand : Grammar.front? engine.limits readOnly tokens =
      Grammar.front? other.limits readOnly tokens := by
    rw [limits]
  cases takes_of_turn? taken with
  | skip unknown =>
      cases takes_of_turn? taken' with
      | skip => exact ⟨both, rfl, rfl, rfl, rfl, rfl, sameCommand, fun _ => rfl⟩
      | refuse known => cases unknown.symm.trans known
      | execute known => cases unknown.symm.trans known
  | refuse known verdict =>
      rw [limits] at verdict
      cases takes_of_turn? taken' with
      | skip unknown => cases unknown.symm.trans known
      | refuse known' verdict' =>
          cases known.symm.trans known'
          cases verdict.symm.trans verdict'
          exact ⟨both, rfl, rfl, rfl, rfl, rfl, sameCommand, fun _ => rfl⟩
      | execute known' verdict' =>
          cases known.symm.trans known'
          cases verdict.symm.trans verdict'
  | @execute name rest _ _ command known verdict =>
      rw [limits] at verdict
      cases takes_of_turn? taken' with
      | skip unknown => cases unknown.symm.trans known
      | refuse known' verdict' =>
          cases known.symm.trans known'
          cases verdict.symm.trans verdict'
      | execute known' verdict' =>
          cases known.symm.trans known'
          cases verdict.symm.trans verdict'
          have front : Grammar.front? other.limits readOnly (name :: rest) = some command := by
            simp only [Grammar.front?, known, verdict]
          have executed : Related related (engine.execute moment.clock readOnly command).2.registry
                (other.execute moment.clock readOnly command).2.registry ∧
              (¬excused command → (engine.execute moment.clock readOnly command).1 =
                (other.execute moment.clock readOnly command).1) := by
            cases about : command.target? with
            | none =>
                rcases @related_execute_other _ _ _ _ readOnly _ both separate separate' fresh
                  about with ⟨related, same⟩
                refine ⟨related, fun counts => same ?_⟩
                rintro rfl
                exact counts statistics
            | some name =>
                constructor
                · apply related_execute_target both separate separate' about
                  intro first second found found' before
                  exact (step front about found found' before).1
                · intro counts
                  apply told_execute_target both separate separate' about
                  intro first second found found' before
                  exact (step front about found found' before).2 counts
          refine ⟨executed.1, rfl, rfl, rfl, rfl, rfl, sameCommand, ?_⟩
          intro counts
          exact congrArg some (executed.2 (counts command (sameCommand.trans front)))

end Larder.Engine
