import Larder.Proofs.Engine.Related

/-!
# Stashes are on their own

What is done to one stash is of no consequence for another.  If commands about other stashes are
left out of a history, then every command about a stash is answered as before, and so is every
command that creates or drops one.
-/

namespace Larder

namespace Command

/-- Whether a command has nothing to do with a stash, nor with which stashes there are. -/
def Spares (name : String) (command : Command) : Prop :=
  command.verb ≠ .create ∧ command.verb ≠ .drop ∧ command.target? ≠ some name

instance (name : String) (command : Command) : Decidable (command.Spares name) :=
  inferInstanceAs (Decidable (_ ∧ _ ∧ _))

/-- Whether a command tells about other things than a stash. -/
def TellsOther (name : String) (command : Command) : Prop :=
  command = .stats ∨ ∃ other, command.target? = some other ∧ other ≠ name

end Command

namespace Engine

open Registry (Related)

variable {engine other : Engine} {name : String}

/-- Engines with the same limits, the same names, and the same stash of one name. -/
structure Agree (name : String) (engine other : Engine) : Prop where
  limits : engine.limits = other.limits
  reached : engine.registry.Reached
  reached' : other.registry.Reached
  registries : Related (fun named stash again => named = name → stash = again) engine.registry
    other.registry

namespace Agree

theorem refl (reached : engine.registry.Reached) : Agree name engine engine := by
  refine ⟨rfl, reached, reached, rfl, rfl, rfl, rfl, ?_⟩
  intro named stash again found found' _
  exact Option.some.inj (found.symm.trans found')

theorem turn? {moment : Moment} {readOnly : Bool} {tokens : List Bytes} {turn again : Turn}
    (agree : Agree name engine other)
    (taken : engine.turn? moment.clock readOnly tokens = some turn)
    (taken' : other.turn? moment.clock readOnly tokens = some again) :
    Agree name turn.engine again.engine ∧ turn.rest = again.rest ∧
      Occasion.Alike (Command.TellsOther name) ⟨moment, readOnly, ⟨engine, tokens, turn⟩⟩
        ⟨moment, readOnly, ⟨other, tokens, again⟩⟩ := by
  have alike : Related (fun named stash again => named = name → stash = again)
        turn.engine.registry again.engine.registry ∧ turn.rest = again.rest ∧
      Occasion.Alike (Command.TellsOther name) ⟨moment, readOnly, ⟨engine, tokens, turn⟩⟩
        ⟨moment, readOnly, ⟨other, tokens, again⟩⟩ := by
    apply alike_turn? agree.limits agree.registries agree.reached.sound.separate
      agree.reached'.sound.separate taken taken'
    · intro _ _ _
      rfl
    · exact .inl rfl
    · intro command named first second _ about _ _ same
      constructor
      · intro here
        rw [same here]
      · intro counts
        by_cases here : named = name
        · rw [same here]
        · exact absurd (.inr ⟨named, about, here⟩) counts
  refine ⟨⟨?_, ?_, ?_, alike.1⟩, alike.2⟩
  · rw [limits_turn? taken, limits_turn? taken', agree.limits]
  · exact reached_turn? agree.reached taken
  · exact reached_turn? agree.reached' taken'

/-- A command that has nothing to do with a stash may be left out. -/
theorem turn_left {clock : Clock} {readOnly : Bool} {tokens : List Bytes} {turn : Turn}
    (agree : Agree name engine other) (taken : engine.turn? clock readOnly tokens = some turn)
    (spared : ∀ command, Grammar.front? engine.limits readOnly tokens = some command →
      command.Spares name) : Agree name turn.engine other := by
  refine ⟨?_, reached_turn? agree.reached taken, agree.reached', ?_⟩
  · rw [limits_turn? taken, agree.limits]
  have registries := agree.registries
  cases takes_of_turn? taken with
  | skip => exact registries
  | refuse => exact registries
  | @execute first rest _ _ command known verdict =>
      have front : Grammar.front? engine.limits readOnly (first :: rest) = some command := by
        simp only [Grammar.front?, known, verdict]
      rcases spared command front with ⟨notCreate, notDrop, elsewhere⟩
      change Related _ (engine.execute clock readOnly command).2.registry other.registry
      cases about : command.target? with
      | none =>
          cases command with
          | ping | stats => exact registries
          | create => exact absurd rfl notCreate
          | drop => exact absurd rfl notDrop
          | get | set | delete | expire | info => cases about
      | some named =>
          have different : named ≠ name := by
            rintro rfl
            exact elsewhere about
          have separate := agree.reached.sound.separate
          have separate' := agree.reached'.sound.separate
          cases found : engine.registry.find? named with
          | none =>
              rw [execute_of_absent about found]
              exact registries
          | some stash =>
              rcases registries.exists_of_find? separate separate' found with
                ⟨handle, again, led, there, _, there', _⟩
              rw [execute_of_found about led there, ← Registry.put_self there']
              apply registries.put separate separate' led
              intro here
              exact absurd here different

theorem sweep (agree : Agree name engine other) (clock : Clock) :
    Agree name (engine.sweep clock).2 (other.sweep clock).2 := by
  refine ⟨agree.limits, reached_sweep agree.reached, reached_sweep agree.reached', ?_⟩
  apply agree.registries.sweep agree.reached.sound.separate agree.reached'.sound.separate
  intro named stash again same here
  rw [same here]

/-- A queue that both answer. -/
theorem answer {moment : Moment} {readOnly : Bool} {tokens : List Bytes}
    (agree : Agree name engine other) (answers : moment.event = .answer readOnly tokens) :
    Agree name (engine.next moment) (other.next moment) ∧
      List.Forall₂ (Occasion.Alike (Command.TellsOther name)) (engine.occasions moment)
        (other.occasions moment) := by
  have handled : Agree name (engine.handle moment.clock readOnly tokens).engine
        (other.handle moment.clock readOnly tokens).engine ∧
      List.Forall₂ (fun visit visit' => Occasion.Alike (Command.TellsOther name)
          ⟨moment, readOnly, visit⟩ ⟨moment, readOnly, visit'⟩)
        (engine.visits moment.clock readOnly tokens)
        (other.visits moment.clock readOnly tokens) := by
    apply @linked_handle engine other moment.clock readOnly tokens (Agree name) (fun _ => True)
    · exact Agree.limits
    · intro engine other tokens turn again agree taken taken' _
      exact agree.turn? taken taken'
    · exact agree
    · intro _ _
      trivial
  simp only [next, occasions, answers]
  refine ⟨handled.1, ?_⟩
  rw [List.forall₂_map_left_iff, List.forall₂_map_right_iff]
  exact handled.2

/-- A queue that is left out. -/
theorem answer_left {moment : Moment} {readOnly : Bool} {tokens : List Bytes}
    (agree : Agree name engine other) (answers : moment.event = .answer readOnly tokens)
    (spared : ∀ occasion ∈ engine.occasions moment, ∀ command,
      occasion.command? = some command → command.Spares name) :
    Agree name (engine.next moment) other := by
  simp only [next, occasions, answers] at spared ⊢
  rw [List.forall_mem_map] at spared
  exact (@kept_by_granted_handle engine moment.clock readOnly tokens
    (fun engine => Agree name engine other)
    (fun visit => ∀ command, Grammar.front? visit.engine.limits readOnly visit.waiting =
      some command → command.Spares name) turn_left agree spared).1

end Agree

/--
Take any row of queues and sweeps, each at any reading of the clock, and leave out some of the
queues, none of whose commands has to do with a stash, nor creates or drops one.  Then all that are
left are answered as before, but for commands that tell about other stashes.
-/
theorem answered_alike_without_others (engine : Engine) (reached : engine.registry.Reached)
    (name : String) (moments : List Moment)
    (sweeps : ∀ moment ∈ moments, moment.kept = false → moment.isAnswer = true)
    (spared : ∀ occasion ∈ engine.history moments, occasion.moment.kept = false →
      ∀ command, occasion.command? = some command → command.Spares name) :
    List.Forall₂ (Occasion.Alike (Command.TellsOther name))
      ((engine.history moments).filter fun occasion => occasion.moment.kept)
      (engine.history (moments.filter Moment.kept)) := by
  suffices ∀ other, Agree name engine other →
      List.Forall₂ (Occasion.Alike (Command.TellsOther name))
        ((engine.history moments).filter fun occasion => occasion.moment.kept)
        (other.history (moments.filter Moment.kept)) from this engine (.refl reached)
  clear reached
  induction moments generalizing engine with
  | nil =>
      intro other agree
      exact .nil
  | cons moment moments ih =>
      intro other agree
      rw [List.forall_mem_cons] at sweeps
      simp only [history, List.forall_mem_append] at spared
      have following := ih (engine.next moment) sweeps.2 spared.2
      simp only [history, List.filter_append]
      cases kept : moment.kept with
      | true =>
          have all : ((engine.occasions moment).filter fun occasion => occasion.moment.kept) =
              engine.occasions moment := by
            apply List.filter_eq_self.mpr
            intro occasion present
            rw [moment_of_mem_occasions present, kept]
          rw [all, List.filter_cons_of_pos kept, history]
          cases event : moment.event with
          | answer readOnly tokens =>
              rcases agree.answer event with ⟨still, first⟩
              exact List.rel_append first (following _ still)
          | sweep =>
              have still : Agree name (engine.next moment) (other.next moment) := by
                simp only [next, event]
                exact agree.sweep moment.clock
              simp only [occasions, event, List.nil_append]
              exact following _ still
      | false =>
          have none : ((engine.occasions moment).filter fun occasion => occasion.moment.kept) =
              [] := by
            apply List.filter_eq_nil_iff.mpr
            intro occasion present
            rw [moment_of_mem_occasions present, kept]
            exact Bool.false_ne_true
          rw [none, List.filter_cons_of_neg (by simp [kept]), List.nil_append]
          cases event : moment.event with
          | answer readOnly tokens =>
              apply following
              apply agree.answer_left event
              intro occasion present
              apply spared.1 occasion present
              rw [moment_of_mem_occasions present, kept]
          | sweep =>
              have answers := sweeps.1 kept
              rw [Moment.isAnswer, event] at answers
              cases answers

/-- A value of the default stash that is stored under the key of another one. -/
theorem answered_alike_without_one_value :
    let engine : Engine := { registry := .start 0 2 {} false, limits := {} }
    let queue (words : List String) : Event := .answer false (words.map Bytes.ofText)
    let moments : List Moment :=
      [⟨⟨5, 0⟩, queue ["CREATE", "b", "0", "SET", "k", "v", "1", "NAME=b"], true⟩,
        ⟨⟨3, 0⟩, queue ["SET", "k", "w", "0"], false⟩, ⟨⟨4, 0⟩, .sweep, true⟩,
        ⟨⟨4, 0⟩, queue ["GET", "k", "1", "NAME=b"], true⟩]
    (∀ occasion ∈ engine.history moments, occasion.moment.kept = false →
        ∀ command, occasion.command? = some command → command.Spares "b") ∧
      ((engine.history (moments.filter Moment.kept)).map (·.visit.turn.response)).getLast? =
        some (some (.value (Bytes.ofText "v"))) ∧
      List.Forall₂ (Occasion.Alike (Command.TellsOther "b"))
        ((engine.history moments).filter fun occasion => occasion.moment.kept)
        (engine.history (moments.filter Moment.kept)) := by
  intro engine queue moments
  have spared : ∀ occasion ∈ engine.history moments, occasion.moment.kept = false →
      ∀ command, occasion.command? = some command → command.Spares "b" := by
    have all : ∀ occasion ∈ engine.history moments, occasion.moment.kept = false →
        occasion.command?.all (fun command => decide (command.Spares "b")) = true := by
      decide +kernel
    intro occasion present left command executed
    have fine := all occasion present left
    rw [executed] at fine
    exact of_decide_eq_true fine
  have reached : engine.registry.Reached := .start 0 false (by decide) (by decide)
  have answers : ∀ moment ∈ moments, moment.kept = false → moment.isAnswer = true := by
    decide
  exact ⟨spared, by decide +kernel,
    answered_alike_without_others engine reached "b" moments answers spared⟩

end Engine

end Larder
