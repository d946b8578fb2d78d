import Larder.Proofs.Engine.Commands
import Larder.Proofs.Engine.Visits
import Larder.Proofs.Engine.WholeCommands
import Larder.Proofs.Stash.Operation

/-!
# Connections that only read

The parser refuses commands that change something, and of the others only a look-up has two forms:
on a connection that only reads it leaves the stash alone.  So such a connection changes nothing
but the numbers of commands and of errors, and its look-ups find what others find.
-/

namespace Larder.Engine

variable {engine : Engine} {clock : Clock} {tokens : List Bytes}

section Execute

/-- A look-up gives a stash's answer whether or not it uses the key. -/
theorem told_get_readOnly (stash : Stash) (now : Nat) (key : Bytes) (name : Option String) :
    stash.told now true (.get key name) = stash.told now false (.get key name) := by
  cases opened : stash.contents with
  | none => simp [Stash.told, Command.call?, Stash.respond, Stash.peek, Stash.get, Stash.open?,
      opened, bind, Except.bind]
  | some contents => rw [Stash.told_get opened, Stash.told_get opened]

theorem leftBy_get_readOnly (stash : Stash) (now : Nat) (key : Bytes) (name : Option String) :
    stash.leftBy now true (.get key name) = stash := by
  simp only [Stash.leftBy, Command.call?, if_true, Stash.after, Stash.respond, bind, Except.bind,
    pure, Except.pure]
  cases stash.peek now key <;> rfl

theorem execute_readOnly_of_target {command : Command} {name : String}
    (about : command.target? = some name)
    (told : ∀ stash : Stash, stash.told clock.now true command = stash.told clock.now false command)
    (left : ∀ stash : Stash, stash.leftBy clock.now true command = stash) :
    engine.execute clock true command = ((engine.execute clock false command).1, engine) := by
  cases found : engine.registry.find? name with
  | none => rw [execute_of_absent about found, execute_of_absent about found]
  | some stash =>
      rcases Option.bind_eq_some_iff.mp found with ⟨handle, led, there⟩
      rw [execute_of_found about led there, execute_of_found about led there, told, left,
        Registry.put_self there]

/-- A command that changes nothing is answered alike on every connection, and on one that only reads
it leaves its stash as it is. -/
theorem execute_readOnly {command : Command} (reads : command.verb.writes = false) :
    engine.execute clock true command = ((engine.execute clock false command).1, engine) := by
  cases command with
  | ping | stats => rfl
  | get key name =>
      exact execute_readOnly_of_target rfl (fun stash => told_get_readOnly stash _ key name)
        (fun stash => leftBy_get_readOnly stash _ key name)
  | info name => exact execute_readOnly_of_target rfl (fun _ => rfl) (fun _ => rfl)
  | set | delete | expire | create | drop => simp [Command.verb, Command.Verb.writes] at reads

end Execute

section Turn

/-- Two engines that differ in the numbers of commands and of errors at most. -/
def DiffersInAnswers (engine other : Engine) : Prop :=
  other = { engine with counters := { engine.counters with
    commandsProcessed := other.counters.commandsProcessed
    commandErrors := other.counters.commandErrors } }

theorem DiffersInAnswers.registry {other : Engine} (alike : engine.DiffersInAnswers other) :
    other.registry = engine.registry := by
  unfold DiffersInAnswers at alike
  rw [alike]

theorem DiffersInAnswers.answered {other : Engine} (alike : engine.DiffersInAnswers other)
    (response : Response) : engine.DiffersInAnswers (other.answered response) := by
  unfold DiffersInAnswers at alike ⊢
  rw [alike]
  rfl

theorem turn?_readOnly {other : Engine} (alike : engine.DiffersInAnswers other) {turn : Turn}
    (taken : other.turn? clock true tokens = some turn) :
    engine.DiffersInAnswers turn.engine := by
  cases takes_of_turn? taken with
  | skip => exact alike
  | refuse => exact alike.answered _
  | execute known verdict =>
      rw [execute_readOnly (Grammar.verb_of_parse verdict ▸
        Grammar.not_writes_of_parse_readOnly verdict)]
      exact alike.answered _

theorem turn?_readOnly_of_whole {verb : Command.Verb} {command : List Bytes}
    (whole : Grammar.Whole verb command) (writes : verb.writes = true) (more : List Bytes) :
    engine.turn? clock true (command ++ more) =
      some ⟨some (.error "READ_ONLY_MODE"), engine.answered (.error "READ_ONLY_MODE"), more⟩ := by
  have verdict := @Grammar.parse_readOnly_of_whole verb engine.limits command whole writes more
  have left : (command ++ more).drop command.length = more := List.drop_left
  rcases whole.head? with ⟨rest, rfl⟩
  simp only [List.cons_append] at verdict left ⊢
  simp only [turn?, Command.Verb.ofToken?_text, verdict, left]
  rfl

/-- A command that changes nothing is answered as on a connection that may write. -/
theorem turn?_readOnly_of_not_writes {verb : Command.Verb} {rest : List Bytes}
    (reads : verb.writes = false) :
    (engine.turn? clock true (Bytes.ofText verb.text :: rest)).map (fun turn =>
        (turn.response, turn.rest)) =
      (engine.turn? clock false (Bytes.ofText verb.text :: rest)).map fun turn =>
        (turn.response, turn.rest) := by
  simp only [turn?, Command.Verb.ofToken?_text, Grammar.parse_readOnly_of_not_writes reads]
  cases verdict : Grammar.parse engine.limits false verb (Bytes.ofText verb.text :: rest) with
  | incomplete => rfl
  | invalid consumed error => rfl
  | parsed consumed command =>
      rw [← Grammar.verb_of_parse verdict] at reads
      simp only [execute_readOnly reads]
      rfl

end Turn

/--
Whatever is queued on a connection that only reads, in any state: only the numbers of commands and
of errors change.  The responses are those of the turns through the queue, each of which meets the
stashes as they were at the beginning.  A whole command that would change something is refused
there, and every other command, a look-up above all, gets the response that a connection that may
write would get.
-/
theorem handle_readOnly_changes_nothing (engine : Engine) (clock : Clock) (tokens : List Bytes) :
    let handled := engine.handle clock true tokens
    let visits := engine.visits clock true tokens
    handled.engine = { engine with counters := { engine.counters with
        commandsProcessed := handled.engine.counters.commandsProcessed
        commandErrors := handled.engine.counters.commandErrors } } ∧
      handled.responses = visits.filterMap (fun visit => visit.turn.response) ∧
      ∀ visit ∈ visits, visit.engine.registry = engine.registry ∧
        visit.engine.turn? clock true visit.waiting = some visit.turn ∧
        (∀ (verb : Command.Verb) (command more : List Bytes), verb.writes = true →
          Grammar.Whole verb command → visit.waiting = command ++ more →
          visit.turn.response = some (.error "READ_ONLY_MODE") ∧ visit.turn.rest = more) ∧
        ∀ (verb : Command.Verb) (more : List Bytes), verb.writes = false →
          visit.waiting = Bytes.ofText verb.text :: more →
          ∃ again, visit.engine.turn? clock false visit.waiting = some again ∧
            again.response = visit.turn.response ∧ again.rest = visit.turn.rest := by
  intro handled visits
  have step {other : Engine} {tokens : List Bytes} {turn : Turn}
      (alike : engine.DiffersInAnswers other)
      (taken : other.turn? clock true tokens = some turn) :
      engine.DiffersInAnswers turn.engine := turn?_readOnly alike taken
  rcases @kept_by_handle engine clock true tokens engine.DiffersInAnswers step rfl with
    ⟨last, met⟩
  refine ⟨last, responses_handle engine clock true tokens, ?_⟩
  intro visit present
  rcases met visit present with ⟨alike, taken⟩
  refine ⟨alike.registry, taken, ?_, ?_⟩
  · intro verb command more writes whole front
    rw [front, turn?_readOnly_of_whole whole writes] at taken
    rw [← Option.some.inj taken]
    exact ⟨rfl, rfl⟩
  · intro verb more reads front
    have same := @turn?_readOnly_of_not_writes visit.engine clock verb more reads
    rw [← front, taken, Option.map_some] at same
    rcases Option.map_eq_some_iff.mp same.symm with ⟨again, found, equal⟩
    simp only [Prod.mk.injEq] at equal
    exact ⟨again, found, equal⟩

end Larder.Engine
