import Larder.Proofs.Engine.Admitted
import Larder.Proofs.Engine.Commands
import Larder.Proofs.Engine.Turns
import Larder.Proofs.Engine.Visits
import Larder.Proofs.Registry.Sweep
import Larder.Worker

/-!
# What commands and sweeps make of a registry

Commands that the grammar lets through lead from registries that a server can have to such
registries, and so do sweeps.
-/

namespace Larder

/-- No command drops a stash behind the back of the registry, or restores an entry. -/
theorem Command.usual_of_call? {command : Command} {readOnly : Bool} {call : Stash.Call}
    (asked : command.call? readOnly = some call) : call.Usual := by
  cases command with
  | get =>
      cases readOnly <;> cases asked <;> exact ⟨nofun, nofun⟩
  | set key value ttl =>
      cases ttl <;> cases asked <;> exact ⟨nofun, nofun⟩
  | delete | expire =>
      cases asked
      exact ⟨nofun, nofun⟩
  | ping | create | drop | info | stats => cases asked

namespace Engine

variable {engine : Engine} {clock : Clock} {readOnly : Bool} {tokens : List Bytes}

theorem requestedOptions_le (registry : Registry) {options : Command.CreateOptions}
    (defaults : registry.defaults.maxKeys ≤ Word64.largest)
    (asked : ∀ count, options.maxKeys = some count → count ≤ Word64.largest) :
    (requestedOptions registry options).maxKeys ≤ Word64.largest := by
  simp only [requestedOptions]
  cases given : options.maxKeys with
  | none => exact defaults
  | some count => exact asked count given

theorem reached_execute (reached : engine.registry.Reached) {limits : Limits} {command : Command}
    (admitted : command.Admitted limits tokens) :
    (engine.execute clock readOnly command).2.registry.Reached := by
  cases about : command.target? with
  | some name =>
      cases found : engine.registry.find? name with
      | none =>
          rw [execute_of_absent about found]
          exact reached
      | some stash =>
          rcases Option.bind_eq_some_iff.mp found with ⟨handle, led, there⟩
          rw [execute_of_found about led there, Stash.leftBy]
          cases asked : command.call? readOnly with
          | none =>
              simp only [Registry.put_self there]
              exact reached
          | some call => exact reached.call there clock.now (Command.usual_of_call? asked)
  | none =>
      cases command with
      | get | set | delete | expire | info => cases about
      | ping | stats => exact reached
      | create name options =>
          rw [execute_create]
          split
          · next created =>
            have bounded := requestedOptions_le _ reached.sound.defaults_le admitted.2
            exact reached.create bounded created
          · exact reached
      | drop name =>
          rw [execute_drop]
          split
          · next dropped => exact reached.drop dropped
          · exact reached

theorem reached_turn? {turn : Turn} (reached : engine.registry.Reached)
    (taken : engine.turn? clock readOnly tokens = some turn) : turn.engine.registry.Reached := by
  cases takes_of_turn? taken with
  | skip => exact reached
  | refuse => exact reached
  | execute _ verdict => exact reached_execute reached (Grammar.admitted_of_parse verdict)

theorem limits_turn? {turn : Turn} (taken : engine.turn? clock readOnly tokens = some turn) :
    turn.engine.limits = engine.limits := by
  cases takes_of_turn? taken with
  | skip | refuse => rfl
  | @execute _ _ _ _ command =>
      simp only [answered, Engine.execute]
      split <;> rfl

theorem reached_sweep (reached : engine.registry.Reached) :
    (engine.sweep clock).2.registry.Reached :=
  reached.sweep clock.now

end Engine

end Larder
