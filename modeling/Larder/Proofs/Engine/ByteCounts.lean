import Larder.Proofs.Engine.Visits
import Larder.Proofs.Engine.WholeCommands
import Mathlib.Data.List.Forall2

/-!
# Numbers of bytes

How many bytes a server has read and written changes nothing that it does and shows in statistics
only.  Engines that differ in these numbers alone take the same turns, leave the same tokens, and
give the same responses up to the two numbers in a statistics text.
-/

namespace Larder

def Counters.withoutBytes (counters : Counters) : Counters :=
  { counters with bytesRead := 0, bytesWritten := 0 }

def Engine.withoutBytes (engine : Engine) : Engine :=
  { engine with counters := engine.counters.withoutBytes }

/-- The command that asks for statistics. -/
def Command.statistics : Bytes :=
  Bytes.ofText Command.Verb.stats.text

/-- Responses that are the same or, if statistics were asked for, are statistics that differ in the
numbers of bytes only. -/
inductive Response.AlikeBesidesBytes (asked : Prop) (clock : Clock) :
    Response → Response → Prop where
  | same (response : Response) : AlikeBesidesBytes asked clock response response
  | statistics {registry : Registry} {counters others : Counters} (isAsked : asked)
      (alike : counters.withoutBytes = others.withoutBytes) :
      AlikeBesidesBytes asked clock (.text (counters.render clock registry))
        (.text (others.render clock registry))

namespace Response.AlikeBesidesBytes

variable {asked : Prop} {clock : Clock} {first second : Response}

theorem mono {again : Prop} (implies : asked → again)
    (alike : AlikeBesidesBytes asked clock first second) :
    AlikeBesidesBytes again clock first second := by
  cases alike with
  | same => exact .same _
  | statistics isAsked counters => exact .statistics (implies isAsked) counters

theorem isError_eq (alike : AlikeBesidesBytes asked clock first second) :
    first.isError = second.isError := by
  cases alike <;> simp only [isError]

theorem isFatal_eq (alike : AlikeBesidesBytes asked clock first second) :
    first.isFatal = second.isFatal := by
  cases alike <;> simp only [isFatal]

theorem eq_of_not_asked (alike : AlikeBesidesBytes asked clock first second) (nobody : ¬asked) :
    first = second := by
  cases alike with
  | same => rfl
  | statistics isAsked => exact absurd isAsked nobody

end Response.AlikeBesidesBytes

namespace Engine

variable {engine other : Engine} {clock : Clock} {readOnly : Bool} {tokens : List Bytes}

section Turn

theorem withoutBytes_eq_iff : engine.withoutBytes = other.withoutBytes ↔
    engine.registry = other.registry ∧ engine.limits = other.limits ∧
      engine.counters.withoutBytes = other.counters.withoutBytes := by
  simp [withoutBytes]

theorem withoutBytes_answered (alike : engine.withoutBytes = other.withoutBytes)
    {response again : Response} (same : response.isError = again.isError) :
    (engine.answered response).withoutBytes = (other.answered again).withoutBytes := by
  rw [withoutBytes_eq_iff] at alike ⊢
  refine ⟨alike.1, alike.2.1, ?_⟩
  have counters := alike.2.2
  simp only [Counters.withoutBytes, Counters.mk.injEq] at counters
  simp [answered, Counters.commandAnswered, Counters.withoutBytes, same, counters]

theorem perform_eq_of_registry (same : engine.registry = other.registry) {command : Command}
    (another : command ≠ .stats) :
    engine.perform clock readOnly command = other.perform clock readOnly command := by
  cases command with
  | stats => exact absurd rfl another
  | _ => simp only [perform, same]

theorem execute_alike (alike : engine.withoutBytes = other.withoutBytes) (command : Command) :
    Response.AlikeBesidesBytes (command = .stats) clock
        (engine.execute clock readOnly command).1 (other.execute clock readOnly command).1 ∧
      (engine.execute clock readOnly command).2.withoutBytes =
        (other.execute clock readOnly command).2.withoutBytes := by
  rcases withoutBytes_eq_iff.mp alike with ⟨registry, limits, counters⟩
  by_cases stats : command = .stats
  · subst stats
    refine ⟨?_, alike⟩
    simp only [execute, perform, registry]
    exact .statistics trivial counters
  · simp only [execute, perform_eq_of_registry registry stats]
    rcases other.perform clock readOnly command with ⟨failure | response, registry⟩ <;>
      exact ⟨.same _, withoutBytes_eq_iff.mpr ⟨rfl, limits, counters⟩⟩

theorem turn?_alike (alike : engine.withoutBytes = other.withoutBytes) {turn : Turn}
    (taken : engine.turn? clock readOnly tokens = some turn) :
    ∃ again, other.turn? clock readOnly tokens = some again ∧
      turn.engine.withoutBytes = again.engine.withoutBytes ∧ turn.rest = again.rest ∧
      List.Forall₂ (Response.AlikeBesidesBytes (Command.statistics ∈ tokens) clock)
        turn.response.toList again.response.toList := by
  rcases withoutBytes_eq_iff.mp alike with ⟨_, limits, _⟩
  cases takes_of_turn? taken with
  | skip unknown => exact ⟨_, (Takes.skip unknown).turn?, alike, rfl, .nil⟩
  | refuse known verdict =>
      rw [limits] at verdict
      exact ⟨_, (Takes.refuse known verdict).turn?, withoutBytes_answered alike rfl, rfl,
        .cons (.same _) .nil⟩
  | @execute name rest verb consumed command known verdict =>
      rw [limits] at verdict
      rcases @execute_alike engine other clock readOnly alike command with ⟨response, engines⟩
      refine ⟨_, (Takes.execute known verdict).turn?,
        withoutBytes_answered engines response.isError_eq, rfl, .cons (response.mono ?_) .nil⟩
      rintro rfl
      rw [← Grammar.verb_of_parse verdict] at known
      exact List.mem_cons.mpr (.inl (Command.Verb.eq_text_of_ofToken? known).symm)

end Turn

section Handle

theorem handleFrom_alike (alike : engine.withoutBytes = other.withoutBytes) {asked : Prop}
    (asks : Command.statistics ∈ tokens → asked) {earlier before : List Response}
    (same : List.Forall₂ (Response.AlikeBesidesBytes asked clock) earlier before) :
    List.Forall₂ (Response.AlikeBesidesBytes asked clock)
        (engine.handleFrom clock readOnly earlier tokens).responses
        (other.handleFrom clock readOnly before tokens).responses ∧
      (engine.handleFrom clock readOnly earlier tokens).engine.withoutBytes =
        (other.handleFrom clock readOnly before tokens).engine.withoutBytes ∧
      (engine.handleFrom clock readOnly earlier tokens).left =
        (other.handleFrom clock readOnly before tokens).left := by
  induction engine, earlier, tokens using handleFrom.induct clock readOnly
    generalizing other before with
  | case1 engine earlier tokens waits =>
      have waits' := turn?_eq_none_of_limits (withoutBytes_eq_iff.mp alike).2.1 waits
      rw [handleFrom_of_none waits, handleFrom_of_none waits']
      exact ⟨List.forall₂_reverse_iff.mpr same, alike, rfl⟩
  | case2 engine earlier tokens turn taken ih =>
      rcases turn?_alike alike taken with ⟨again, found, engines, rest, response⟩
      rw [handleFrom_of_some taken, handleFrom_of_some found, ← rest]
      apply ih engines
      · intro present
        exact asks ((rest_suffix taken).subset present)
      · exact List.rel_append (response.imp fun _ _ alike => alike.mono asks) same

end Handle

end Engine

end Larder
