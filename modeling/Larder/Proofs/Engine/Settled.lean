import Larder.Proofs.Engine.Visits
import Larder.Proofs.Engine.WholeCommands
import Larder.Proofs.Grammar.Sentences

/-!
# What is left of a queue

An engine goes on until nothing is left of a queue but the beginning of a command.  That is never
much, since a count of options is judged as soon as it is there.  Tokens that are left stay until
more arrive, however often the engine is asked again.
-/

namespace Larder

namespace Grammar

variable {verb : Command.Verb} {queue : List Bytes}

/-- Of a command that is not complete, there are fewer tokens than a command can have. -/
theorem Short.length_lt (short : Short verb queue) :
    queue.length < verb.minTokens + maxOptions := by
  cases short with
  | few few => exact Nat.lt_add_right _ few
  | @waiting arguments following count number optional given announced fewer =>
      have most : number ≤ maxOptions := announced.2
      simp only [List.length_cons, List.length_append, given, Command.Verb.minTokens, optional,
        Bool.toNat_true]
      omega

theorem parse_eq_incomplete_iff {limits : Limits} {readOnly : Bool} {rest : List Bytes} :
    parse limits readOnly verb (Bytes.ofText verb.text :: rest) = .incomplete ↔
      Short verb (Bytes.ofText verb.text :: rest) := by
  constructor
  · intro incomplete
    have judgement := judged limits readOnly verb rest
    rw [incomplete] at judgement
    cases judgement with
    | waits short => exact short
  · exact parse_of_short

end Grammar

namespace Engine

/-- Queues that an engine leaves as they are: with nothing in them, or with the beginning of one
command. -/
inductive Settled : List Bytes → Prop where
  | empty : Settled []
  | waiting {verb : Command.Verb} {rest : List Bytes}
      (short : Grammar.Short verb (Bytes.ofText verb.text :: rest)) :
      Settled (Bytes.ofText verb.text :: rest)

variable {engine : Engine} {clock : Clock} {readOnly : Bool} {tokens : List Bytes}

theorem turn?_eq_none_iff : engine.turn? clock readOnly tokens = none ↔ Settled tokens := by
  constructor
  · intro waits
    cases tokens with
    | nil => exact .empty
    | cons name rest =>
        cases known : Command.Verb.ofToken? name with
        | none => simp [turn?, known] at waits
        | some verb =>
            obtain rfl := Command.Verb.eq_text_of_ofToken? known
            simp only [turn?, known] at waits
            cases verdict : Grammar.parse engine.limits readOnly verb
                (Bytes.ofText verb.text :: rest) with
            | incomplete => exact .waiting (Grammar.parse_eq_incomplete_iff.mp verdict)
            | invalid | parsed => simp [verdict] at waits
  · intro settled
    cases settled with
    | empty => rfl
    | waiting short =>
        simp only [turn?, Command.Verb.ofToken?_text, Grammar.parse_of_short short]

theorem handle_of_settled (settled : Settled tokens) :
    engine.handle clock readOnly tokens = ⟨[], engine, tokens⟩ :=
  handleFrom_of_none (turn?_eq_none_iff.mpr settled)

theorem handle_of_turn? {turn : Turn} (taken : engine.turn? clock readOnly tokens = some turn) :
    engine.handle clock readOnly tokens =
      { turn.engine.handle clock readOnly turn.rest with
        responses := turn.response.toList ++
          (turn.engine.handle clock readOnly turn.rest).responses } := by
  have behind := @handleFrom_append_earlier turn.engine clock readOnly turn.rest []
    turn.response.toList
  rw [handle, handleFrom_of_some taken, List.append_nil]
  rw [List.nil_append] at behind
  rw [behind]
  cases turn.response <;> rfl

/-- Whatever an engine is given, it goes on until it can leave the rest as it is. -/
theorem settled_left (engine : Engine) (clock : Clock) (readOnly : Bool) (tokens : List Bytes) :
    Settled (engine.handle clock readOnly tokens).left := by
  induction engine, tokens using visits.induct clock readOnly with
  | case1 engine tokens waits =>
      have settled := turn?_eq_none_iff.mp waits
      rwa [handle_of_settled settled]
  | case2 engine tokens turn taken ih => rwa [handle_of_turn? taken]

/-- Every turn takes a token off at least, and no token is taken off twice. -/
theorem length_visits_add_left_le (engine : Engine) (clock : Clock) (readOnly : Bool)
    (tokens : List Bytes) :
    (engine.visits clock readOnly tokens).length +
      (engine.handle clock readOnly tokens).left.length ≤ tokens.length := by
  induction engine, tokens using visits.induct clock readOnly with
  | case1 engine tokens waits =>
      rw [visits_of_none waits, handle_of_settled (turn?_eq_none_iff.mp waits)]
      simp
  | case2 engine tokens turn taken ih =>
      have shorter := length_rest_lt taken
      rw [visits_of_some taken, handle_of_turn? taken, List.length_cons]
      dsimp only
      omega

section Silence

/-- Tokens that are no names of commands are skipped where a command should begin. -/
theorem handle_of_unknown {skipped : List Bytes}
    (unknown : ∀ name ∈ skipped, Command.Verb.ofToken? name = none) (rest : List Bytes) :
    engine.handle clock readOnly (skipped ++ rest) = engine.handle clock readOnly rest := by
  induction skipped with
  | nil => rfl
  | cons name skipped ih =>
      rw [List.forall_mem_cons] at unknown
      have taken := (@Takes.skip engine clock readOnly name (skipped ++ rest) unknown.1).turn?
      rw [List.cons_append, handle_of_turn? taken]
      exact ih unknown.2

/-- An engine answers nothing exactly if it only skips tokens. -/
theorem responses_handle_eq_nil_iff :
    (engine.handle clock readOnly tokens).responses = [] ↔
      ∃ skipped, tokens = skipped ++ (engine.handle clock readOnly tokens).left ∧
        ∀ name ∈ skipped, Command.Verb.ofToken? name = none := by
  constructor
  · intro silent
    induction engine, tokens using visits.induct clock readOnly with
    | case1 engine tokens waits =>
        rw [handle_of_settled (turn?_eq_none_iff.mp waits)]
        exact ⟨[], rfl, by simp⟩
    | case2 engine tokens turn taken ih =>
        rw [handle_of_turn? taken] at silent ⊢
        rcases List.append_eq_nil_iff.mp silent with ⟨untold, silentLater⟩
        cases takes_of_turn? taken with
        | refuse | execute => cases untold
        | @skip name rest unknown =>
            rcases ih silentLater with ⟨skipped, split, others⟩
            exact ⟨name :: skipped, congrArg (name :: ·) split,
              List.forall_mem_cons.mpr ⟨unknown, others⟩⟩
  · rintro ⟨skipped, split, unknown⟩
    have settled := settled_left engine clock readOnly tokens
    rw [split, handle_of_unknown unknown, handle_of_settled settled]

theorem output_eq_none_iff {handled : Handled} : handled.output = none ↔ handled.responses = [] := by
  rw [Handled.output]
  split
  · next silent => simp [silent]
  · next told => simp [told]

end Silence

/--
An engine comes to an end with every queue, after at most as many turns as it takes tokens off.
What it leaves is the end of the queue: nothing, or the beginning of one command, which is judged
incomplete and has fewer tokens than a command can have, so at most 19.  Asked again, at any time
and on a connection of either kind, it answers nothing and leaves everything as it is.  It answers
nothing exactly if no turn told a response, and so if it only took off tokens that are no names of
commands.
-/
theorem handle_settles (engine : Engine) (clock : Clock) (readOnly : Bool) (tokens : List Bytes) :
    let handled := engine.handle clock readOnly tokens
    let visits := engine.visits clock readOnly tokens
    visits.length + handled.left.length ≤ tokens.length ∧
      handled.left <:+ tokens ∧
      (handled.left = [] ∨
        ∃ verb rest, handled.left = Bytes.ofText verb.text :: rest ∧
          Grammar.parse engine.limits readOnly verb handled.left = .incomplete ∧
          handled.left.length ≤ verb.minTokens + Grammar.maxOptions - 1 ∧
          handled.left.length ≤ 19) ∧
      (∀ later mode,
        let again := handled.engine.handle later mode handled.left
        again.output = none ∧ again.left = handled.left ∧ again.engine = handled.engine) ∧
      (handled.output = none ↔ ∀ visit ∈ visits, visit.turn.response = none) ∧
      (handled.output = none ↔
        ∃ skipped, tokens = skipped ++ handled.left ∧
          ∀ name ∈ skipped, Command.Verb.ofToken? name = none) := by
  intro handled visits
  have settled : Settled handled.left := settled_left engine clock readOnly tokens
  refine ⟨length_visits_add_left_le engine clock readOnly tokens, left_suffix, ?_, ?_, ?_, ?_⟩
  · generalize handled.left = left at settled
    cases settled with
    | empty => exact .inl rfl
    | @waiting verb rest short =>
        have few := short.length_lt
        have least := verb.minTokens_le
        have most : Grammar.maxOptions = 16 := rfl
        refine .inr ⟨verb, rest, rfl, Grammar.parse_of_short short, ?_, ?_⟩ <;> omega
  · intro later mode again
    have same : again = ⟨[], handled.engine, handled.left⟩ := handle_of_settled settled
    rw [same]
    exact ⟨rfl, rfl, rfl⟩
  · rw [output_eq_none_iff, responses_handle, List.filterMap_eq_nil_iff]
  · rw [output_eq_none_iff]
    exact responses_handle_eq_nil_iff

end Engine

end Larder
