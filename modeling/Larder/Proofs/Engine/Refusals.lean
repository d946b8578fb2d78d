import Larder.Proofs.Engine.Reached
import Larder.Snapshot.Pass

/-!
# Commands that are told an error

A command is told an error by the grammar, by the registry or by its stash.  The grammar never
comes to the registry, but the registry and the stash say what they are after they refused: it is
what they were.  So every stash stays, and so do the files that wait to be deleted, and only the
command and its error are counted.  A value that looks like an error is none.
-/

namespace Larder.Engine

variable {engine : Engine} {clock : Clock} {readOnly : Bool} {tokens : List Bytes} {code : String}

/-- What a client is told as an error is the code of a failure. -/
theorem exists_failure {command : Command}
    (refused : (engine.execute clock readOnly command).1 = .error code) :
    ∃ failure : Failure, code = failure.code := by
  simp only [execute] at refused
  split at refused
  · next response registry performed =>
    have fine := isError_of_perform (congrArg Prod.fst performed)
    have told : response = .error code := refused
    rw [told] at fine
    cases fine
  · next failure registry performed =>
    cases refused
    exact ⟨failure, rfl⟩

/-- What is there after a command was told an error is what was there before: a stash that is not
found, one that refuses, and a registry that refuses to create or to drop. -/
theorem execute_of_error {command : Command}
    (refused : (engine.execute clock readOnly command).1 = .error code) :
    (engine.execute clock readOnly command).2 = engine := by
  cases about : command.target? with
  | some name =>
      cases found : engine.registry.find? name with
      | none => rw [execute_of_absent about found]
      | some stash =>
          rcases Option.bind_eq_some_iff.mp found with ⟨handle, led, there⟩
          rw [execute_of_found about led there] at refused ⊢
          rw [Stash.leftBy_of_error refused, Registry.put_self there]
  | none =>
      cases command with
      | get | set | delete | expire | info => cases about
      | ping | stats => rfl
      | create name options =>
          rw [execute_create] at refused ⊢
          split at refused
          · cases refused
          · rfl
      | drop name =>
          rw [execute_drop] at refused ⊢
          split at refused
          · cases refused
          · rfl

section Open

variable (opened : ∀ {name : String} {stash : Stash}, engine.registry.find? name = some stash →
  ∃ contents, stash.contents = some contents)

include opened

/-- Where all stashes are open, the only thing that one of them can refuse is a lifetime for a key
that it does not have. -/
theorem execute_ne_closed (command : Command) :
    (engine.execute clock readOnly command).1 ≠ .error Stash.Error.closed.message := by
  cases about : command.target? with
  | some name =>
      cases found : engine.registry.find? name with
      | none =>
          rw [execute_of_absent about found]
          simp [Registry.Error.message, Stash.Error.message]
      | some stash =>
          rcases Option.bind_eq_some_iff.mp found with ⟨handle, led, there⟩
          rcases opened found with ⟨contents, opened⟩
          rw [execute_of_found about led there]
          intro refused
          have code := Stash.code_of_told opened _ _ refused
          simp [Failure.code, Stash.Error.message] at code
  | none =>
      cases command with
      | get | set | delete | expire | info => cases about
      | ping | stats => nofun
      | create name options =>
          rw [execute_create]
          split
          · nofun
          · next error _ _ =>
            cases error <;> simp [Registry.Error.message, Stash.Error.message]
      | drop name =>
          rw [execute_drop]
          split
          · nofun
          · next error _ _ =>
            cases error <;> simp [Registry.Error.message, Stash.Error.message]

theorem response_ne_closed {turn : Turn}
    (taken : engine.turn? clock readOnly tokens = some turn) :
    turn.response ≠ some (.error Stash.Error.closed.message) := by
  cases takes_of_turn? taken with
  | skip => nofun
  | @refuse _ _ _ _ error =>
      cases error <;> simp [Grammar.Error.code, Stash.Error.message]
  | @execute _ _ _ _ command =>
      intro told
      exact execute_ne_closed opened command (Option.some.inj told)

end Open

/-- The engine after one more command that was refused. -/
def refusalCounted (engine : Engine) : Engine :=
  { engine with counters := { engine.counters with
      commandsProcessed := engine.counters.commandsProcessed + 1
      commandErrors := engine.counters.commandErrors + 1 } }

theorem turn?_of_error {turn : Turn} (taken : engine.turn? clock readOnly tokens = some turn)
    (refused : turn.response = some (.error code)) :
    turn.engine = engine.refusalCounted ∧
      ((∃ error : Grammar.Error, code = error.code) ∨
        ∃ failure : Failure, code = failure.code) := by
  cases takes_of_turn? taken with
  | skip => cases refused
  | @refuse _ _ _ _ error =>
      cases refused
      exact ⟨rfl, .inl ⟨error, rfl⟩⟩
  | @execute _ _ _ _ command =>
      have told := Option.some.inj refused
      refine ⟨?_, .inr (exists_failure told)⟩
      rw [execute_of_error told, told]
      rfl

/-- A command that finds its stash and is told an error asks for something that leaves the stash
as it is. -/
theorem leftBy_of_turn?_error {turn : Turn} {command : Command} {name : String} {stash : Stash}
    (taken : engine.turn? clock readOnly tokens = some turn)
    (refused : turn.response = some (.error code))
    (front : Grammar.front? engine.limits readOnly tokens = some command)
    (about : command.target? = some name) (found : engine.registry.find? name = some stash) :
    stash.leftBy clock.now readOnly command = stash := by
  have told : (engine.execute clock readOnly command).1 = .error code := by
    cases takes_of_turn? taken with
    | skip => cases refused
    | refuse known verdict =>
        simp only [Grammar.front?, known, verdict] at front
        cases front
    | execute known verdict =>
        simp only [Grammar.front?, known, verdict] at front
        cases front
        exact Option.some.inj refused
  rcases Option.bind_eq_some_iff.mp found with ⟨handle, led, there⟩
  rw [execute_of_found about led there] at told
  exact Stash.leftBy_of_error told

/--
Whenever a turn through a queue, in any state and on a connection of either kind, is answered with
an error, the engine stays as it was: all stashes, the names, and the files that are to be deleted.
Only the command and the error are counted.  A command that had found its stash asked it for
something that changes nothing; it is not that the stash was put back.  If the server has come to
its registry by commands and sweeps, no stash fails a call at all.
-/
theorem error_changes_nothing (engine : Engine) (clock : Clock) (readOnly : Bool)
    (tokens : List Bytes) (visit : Visit) (met : visit ∈ engine.visits clock readOnly tokens)
    (code : String) (refused : visit.turn.response = some (.error code)) :
    visit.turn.engine = { visit.engine with counters := { visit.engine.counters with
        commandsProcessed := visit.engine.counters.commandsProcessed + 1
        commandErrors := visit.engine.counters.commandErrors + 1 } } ∧
      (∀ disk, visit.turn.engine.registry.runDeletions disk =
        visit.engine.registry.runDeletions disk) ∧
      ((∃ error : Grammar.Error, code = error.code) ∨
        ∃ failure : Failure, code = failure.code) ∧
      (∀ command name stash,
        Grammar.front? visit.engine.limits readOnly visit.waiting = some command →
        command.target? = some name → visit.engine.registry.find? name = some stash →
        stash.leftBy clock.now readOnly command = stash) ∧
      (engine.registry.Reached → code ≠ Stash.Error.closed.message) := by
  have taken := ((@kept_by_handle engine clock readOnly tokens (fun _ => True)
    (fun _ _ => trivial) trivial).2 visit met).2
  rcases turn?_of_error taken refused with ⟨same, codes⟩
  refine ⟨same, ?_, codes, ?_, ?_⟩
  · intro disk
    rw [same]
    rfl
  · intro command name stash front about found
    exact leftBy_of_turn?_error taken refused front about found
  · intro reached
    have before := (@kept_by_handle engine clock readOnly tokens
      (fun engine => engine.registry.Reached) reached_turn? reached).2 visit met
    rintro rfl
    refine response_ne_closed ?_ taken refused
    intro name stash found
    rcases before.1.sound.healthy found with ⟨contents, healthy⟩
    exact ⟨contents, healthy.opened⟩

/-- A lifetime for a key that is there no longer, though it has not been taken out. -/
theorem error_changes_nothing_of_expired_key :
    let stored : Stash := ((Stash.create 0 "default" {}).setWithTtl 0 [107] [118] 10).toOption.getD
      (Stash.create 0 "default" {})
    let engine : Engine :=
      { registry := (Registry.start 0 1 {} true).put 0 stored, limits := {} }
    let tokens := ["EXPIRE", "k", "5", "0"].map Bytes.ofText
    ∃ visit ∈ engine.visits ⟨20, 0⟩ false tokens,
      visit.turn.response = some (.error "KEY_DOESNT_EXIST") ∧
        visit.turn.engine = engine.refusalCounted ∧
        visit.turn.engine.registry.find? "default" = some stored ∧ stored.size = .ok 1 := by
  intro stored engine tokens
  have taken : engine.turn? ⟨20, 0⟩ false tokens =
      some ⟨some (.error "KEY_DOESNT_EXIST"), engine.refusalCounted, []⟩ := by
    decide +kernel
  have met : ⟨engine, tokens, ⟨some (.error "KEY_DOESNT_EXIST"), engine.refusalCounted, []⟩⟩ ∈
      engine.visits ⟨20, 0⟩ false tokens := by
    rw [visits_of_some taken]
    exact List.mem_cons_self
  rcases error_changes_nothing engine ⟨20, 0⟩ false tokens _ met _ rfl with ⟨same, _⟩
  exact ⟨_, met, rfl, same, by decide +kernel, by decide +kernel⟩

end Larder.Engine
