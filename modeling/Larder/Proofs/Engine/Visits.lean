import Larder.Proofs.Engine.Streaming

/-!
# The turns through a queue

What an engine does with a queue is a row of turns, each taken on what the last one left.  What
holds before the first turn and is kept by every turn holds at all of them.  No turn ends the
connection.
-/

namespace Larder.Engine

/-- A turn with the engine and the queue that it was taken on. -/
structure Visit where
  engine : Engine
  waiting : List Bytes
  turn : Turn
  deriving Repr, DecidableEq

/-- The turns that an engine takes through a queue, in order. -/
def visits (engine : Engine) (clock : Clock) (readOnly : Bool) (tokens : List Bytes) :
    List Visit :=
  match _taken : engine.turn? clock readOnly tokens with
  | none => []
  | some turn => ⟨engine, tokens, turn⟩ :: turn.engine.visits clock readOnly turn.rest
termination_by tokens.length
decreasing_by exact length_rest_lt _taken

variable {engine : Engine} {clock : Clock} {readOnly : Bool} {tokens : List Bytes}

theorem rest_suffix {turn : Turn} (taken : engine.turn? clock readOnly tokens = some turn) :
    turn.rest <:+ tokens := by
  cases takes_of_turn? taken with
  | @skip name rest => exact List.suffix_cons name rest
  | refuse | execute => exact List.drop_suffix _ _

/-- What is left of a queue is its end. -/
theorem left_suffix : (engine.handle clock readOnly tokens).left <:+ tokens := by
  unfold handle
  generalize ([] : List Response) = earlier
  induction engine, earlier, tokens using handleFrom.induct clock readOnly with
  | case1 engine earlier tokens waits =>
      rewrite [handleFrom_of_none waits]
      exact List.suffix_rfl
  | case2 engine earlier tokens turn taken ih =>
      rw [handleFrom_of_some taken]
      exact ih.trans (rest_suffix taken)

theorem visits_of_none (waits : engine.turn? clock readOnly tokens = none) :
    engine.visits clock readOnly tokens = [] := by
  rw [visits]
  split
  next => rfl
  next again => rw [waits] at again; cases again

theorem visits_of_some {turn : Turn} (taken : engine.turn? clock readOnly tokens = some turn) :
    engine.visits clock readOnly tokens =
      ⟨engine, tokens, turn⟩ :: turn.engine.visits clock readOnly turn.rest := by
  rw [visits]
  split
  next again => rw [taken] at again; cases again
  next again => rw [taken] at again; cases again; rfl

theorem waiting_suffix {visit : Visit} (met : visit ∈ engine.visits clock readOnly tokens) :
    visit.waiting <:+ tokens := by
  induction engine, tokens using visits.induct clock readOnly with
  | case1 engine tokens waits =>
      rw [visits_of_none waits] at met
      cases met
  | case2 engine tokens turn taken ih =>
      rw [visits_of_some taken, List.mem_cons] at met
      rcases met with rfl | later
      · exact List.suffix_rfl
      · exact (ih later).trans (rest_suffix taken)

/-- The responses to a queue are those of its turns. -/
theorem responses_handle (engine : Engine) (clock : Clock) (readOnly : Bool)
    (tokens : List Bytes) :
    (engine.handle clock readOnly tokens).responses =
      (engine.visits clock readOnly tokens).filterMap fun visit => visit.turn.response := by
  have behind (earlier : List Response) :
      (engine.handleFrom clock readOnly earlier tokens).responses = earlier.reverse ++
        (engine.visits clock readOnly tokens).filterMap fun visit => visit.turn.response := by
    induction engine, earlier, tokens using handleFrom.induct clock readOnly with
    | case1 engine earlier tokens waits =>
        simp [handleFrom_of_none waits, visits_of_none waits]
    | case2 engine earlier tokens turn taken ih =>
        rw [handleFrom_of_some taken, visits_of_some taken, ih]
        cases told : turn.response <;> simp [told]
  simpa [handle] using behind []

/-- What every turn keeps is kept by handling a queue, and holds at each turn on the way.  What is
asked of the turns themselves may be given for granted. -/
theorem kept_by_granted_handle {kept : Engine → Prop} {fine : Visit → Prop}
    (step : ∀ {engine tokens turn}, kept engine → engine.turn? clock readOnly tokens = some turn →
      fine ⟨engine, tokens, turn⟩ → kept turn.engine)
    (first : kept engine) (granted : ∀ visit ∈ engine.visits clock readOnly tokens, fine visit) :
    kept (engine.handle clock readOnly tokens).engine ∧
      ∀ visit ∈ engine.visits clock readOnly tokens,
        kept visit.engine ∧ visit.engine.turn? clock readOnly visit.waiting = some visit.turn := by
  unfold handle
  generalize ([] : List Response) = earlier
  induction engine, earlier, tokens using handleFrom.induct clock readOnly with
  | case1 engine earlier tokens waits =>
      simpa [handleFrom_of_none waits, visits_of_none waits] using first
  | case2 engine earlier tokens turn taken ih =>
      rw [visits_of_some taken, List.forall_mem_cons] at granted
      rcases ih (step first taken granted.1) granted.2 with ⟨last, others⟩
      rw [handleFrom_of_some taken, visits_of_some taken, List.forall_mem_cons]
      exact ⟨last, ⟨first, taken⟩, others⟩

theorem kept_by_handle {kept : Engine → Prop}
    (step : ∀ {engine tokens turn}, kept engine → engine.turn? clock readOnly tokens = some turn →
      kept turn.engine) (first : kept engine) :
    kept (engine.handle clock readOnly tokens).engine ∧
      ∀ visit ∈ engine.visits clock readOnly tokens,
        kept visit.engine ∧ visit.engine.turn? clock readOnly visit.waiting = some visit.turn :=
  @kept_by_granted_handle engine clock readOnly tokens kept (fun _ => True)
    (fun before taken _ => step before taken) first (fun _ _ => trivial)

section Fatal

variable {registry : Registry} {response : Response}

theorem isError_lookedUp (found : Option Bytes) : (lookedUp found).isError = false := by
  cases found <;> rfl

/-- A stash that answers has been asked and not failed the call. -/
theorem exists_of_ask {α : Type} {name : Option String} {call : Stash → Except Stash.Error α}
    {reply : Stash → α → Except Failure Response × Stash}
    (asked : (ask registry name fun stash => ofCall stash ((call stash).map (reply stash))).1 =
      .ok response) :
    ∃ stash value, (reply stash value).1 = .ok response := by
  simp only [ask] at asked
  split at asked
  · cases asked
  · next handle stash _ =>
    cases called : call stash with
    | error error =>
        rw [called] at asked
        cases asked
    | ok value =>
        rw [called] at asked
        exact ⟨stash, value, asked⟩

theorem eq_ok_of_ofRegistry {result : Except Registry.Error Unit × Registry}
    (answered : (ofRegistry result).1 = .ok response) : response = .ok := by
  rcases result with ⟨error | _, registry⟩
  · cases answered
  · cases answered
    rfl

/-- A command that is carried out is not answered with an error. -/
theorem isError_of_perform {command : Command}
    (performed : (engine.perform clock readOnly command).1 = .ok response) :
    response.isError = false := by
  cases command with
  | ping | stats =>
      cases performed
      rfl
  | create | drop =>
      rw [eq_ok_of_ofRegistry performed]
      rfl
  | get key name =>
      cases readOnly <;> rcases exists_of_ask performed with ⟨stash, value, told⟩ <;>
        cases told <;> exact isError_lookedUp _
  | set key value ttl name =>
      rcases exists_of_ask performed with ⟨stash, value, told⟩
      cases told
      rfl
  | delete key name =>
      rcases exists_of_ask performed with ⟨stash, value, told⟩
      cases told
      rfl
  | expire key ttl name =>
      rcases exists_of_ask performed with ⟨stash, ⟨found, rest⟩, told⟩
      cases found <;> cases told
      rfl
  | info name =>
      rcases exists_of_ask performed with ⟨stash, value, told⟩
      cases told
      rfl

theorem isFatal_execute (command : Command) :
    (engine.execute clock readOnly command).1.isFatal = false := by
  simp only [execute]
  split
  next response registry performed =>
    have fine := isError_of_perform (congrArg Prod.fst performed)
    cases response <;> first | rfl | cases fine
  next => rfl

theorem isFatal_of_turn? {turn : Turn} (taken : engine.turn? clock readOnly tokens = some turn)
    {response : Response} (told : turn.response = some response) : response.isFatal = false := by
  cases takes_of_turn? taken with
  | skip => cases told
  | refuse =>
      cases told
      rfl
  | execute =>
      cases told
      exact isFatal_execute _

/-- No response to a queue ends the connection. -/
theorem isFatal_of_mem_handle {response : Response}
    (present : response ∈ (engine.handle clock readOnly tokens).responses) :
    response.isFatal = false := by
  rw [responses_handle] at present
  rcases List.mem_filterMap.mp present with ⟨visit, met, told⟩
  have taken := (@kept_by_handle engine clock readOnly tokens (fun _ => True)
    (fun _ _ => trivial) trivial).2 visit met
  exact isFatal_of_turn? taken.2 told

end Fatal

end Larder.Engine
