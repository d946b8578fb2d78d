import Larder.Proofs.Engine.Related
import Larder.Proofs.Stash.Leaner

/-!
# Sweeps go unnoticed

When keys whose lifetime is over are taken out, and how many of them, can be seen in numbers of
keys only.  Every other command is answered as if there had been no sweep, as long as no stash has
to give up keys for its limit: a stash that was swept has room for longer.
-/

namespace Larder

namespace Command

/-- Whether a command tells how many keys there are. -/
def TellsNumbers (command : Command) : Prop :=
  command.verb = .info ∨ command.verb = .stats

variable {command : Command} {readOnly : Bool} {call : Stash.Call}

theorem ne_expireKeys_of_call? (asked : command.call? readOnly = some call) :
    call ≠ .expireKeys := by
  cases command with
  | get => cases readOnly <;> cases asked <;> nofun
  | set key value ttl => cases ttl <;> cases asked <;> nofun
  | delete | expire => cases asked; nofun
  | ping | create | drop | info | stats => cases asked

end Command

namespace Stash.Leaner

variable {leaner stash : Stash} {few all : Stash.Contents} {now : Nat} {readOnly : Bool}
  {command : Command} (fewer : Leaner now leaner stash) (healthy : leaner.Healthy few)
  (healthy' : stash.Healthy all)

include fewer healthy healthy'

theorem leftBy
    (nothing : ∀ call, command.call? readOnly = some call → stash.evictions now call = 0) :
    Leaner now (leaner.leftBy now readOnly command) (stash.leftBy now readOnly command) := by
  rw [Stash.leftBy, Stash.leftBy]
  cases asked : command.call? readOnly with
  | none => exact fewer
  | some call =>
      exact fewer.after healthy healthy' (Command.usual_of_call? asked)
        (Command.ne_expireKeys_of_call? asked) (nothing call asked)

/-- Only the numbers of keys tell two such stashes apart. -/
theorem told_eq {name : String} (about : command.target? = some name)
    (quiet : ¬command.TellsNumbers) :
    leaner.told now readOnly command = stash.told now readOnly command := by
  have lean := fewer.contents healthy.opened healthy'.opened
  cases command with
  | ping | create | drop | stats => cases about
  | info => exact absurd (.inl rfl) quiet
  | get key => rw [told_get healthy.opened, told_get healthy'.opened, lean.live?]
  | set key value ttl => rw [told_set healthy.opened, told_set healthy'.opened]
  | delete key => rw [told_delete healthy.opened, told_delete healthy'.opened]
  | expire key ttl => rw [told_expire healthy.opened, told_expire healthy'.opened, lean.live?]

end Stash.Leaner

/-- How many keys a stash gives up for its limit when a command is executed. -/
def Occasion.evictions (occasion : Occasion) : Nat :=
  match occasion.command? with
  | none => 0
  | some command =>
    match command.target?.bind occasion.visit.engine.registry.find?,
      command.call? occasion.readOnly with
    | some stash, some call => stash.evictions occasion.moment.clock.now call
    | _, _ => 0

namespace Engine

open Registry (Related)

/-- Engines with the same limits and names, of which the first may have been swept. -/
structure Leaner (now : Nat) (engine other : Engine) : Prop where
  limits : engine.limits = other.limits
  reached : engine.registry.Reached
  reached' : other.registry.Reached
  registries : Related (fun _ leaner stash => leaner.Leaner now stash) engine.registry
    other.registry

namespace Leaner

variable {engine other : Engine} {now : Nat}

theorem refl (reached : engine.registry.Reached) (now : Nat) : Leaner now engine engine := by
  refine ⟨rfl, reached, reached, rfl, rfl, rfl, rfl, ?_⟩
  intro name stash again found found'
  cases found.symm.trans found'
  rcases reached.sound.healthy found with ⟨contents, healthy⟩
  exact .refl healthy now

theorem later (leaner : Leaner now engine other) {later : Nat} (ordered : now ≤ later) :
    Leaner later engine other :=
  { leaner with registries := leaner.registries.imp fun _ _ fewer => fewer.later ordered }

theorem turn? {moment : Moment} {readOnly : Bool} {tokens : List Bytes} {turn again : Turn}
    (leaner : Leaner moment.clock.now engine other)
    (taken : engine.turn? moment.clock readOnly tokens = some turn)
    (taken' : other.turn? moment.clock readOnly tokens = some again)
    (nothing : Occasion.evictions ⟨moment, readOnly, ⟨other, tokens, again⟩⟩ = 0) :
    Leaner moment.clock.now turn.engine again.engine ∧ turn.rest = again.rest ∧
      Occasion.Alike Command.TellsNumbers ⟨moment, readOnly, ⟨engine, tokens, turn⟩⟩
        ⟨moment, readOnly, ⟨other, tokens, again⟩⟩ := by
  have sound := leaner.reached.sound
  have sound' := leaner.reached'.sound
  have alike : Related (fun _ fewer stash => fewer.Leaner moment.clock.now stash)
        turn.engine.registry again.engine.registry ∧ turn.rest = again.rest ∧
      Occasion.Alike Command.TellsNumbers ⟨moment, readOnly, ⟨engine, tokens, turn⟩⟩
        ⟨moment, readOnly, ⟨other, tokens, again⟩⟩ := by
    apply alike_turn? leaner.limits leaner.registries sound.separate sound'.separate taken taken'
    · intro name options
      exact .of_contents rfl rfl rfl (.refl _ _)
    · exact .inr rfl
    · intro command name first second front about found found' fewer
      rcases sound.healthy found with ⟨few, healthy⟩
      rcases sound'.healthy found' with ⟨all, healthy'⟩
      constructor
      · apply fewer.leftBy healthy healthy'
        intro call asked
        simpa only [Occasion.evictions, Occasion.command?, front, about, Option.bind_some, found',
          asked] using nothing
      · exact fewer.told_eq healthy healthy' about
  refine ⟨⟨?_, ?_, ?_, alike.1⟩, alike.2⟩
  · rw [limits_turn? taken, limits_turn? taken', leaner.limits]
  · exact reached_turn? leaner.reached taken
  · exact reached_turn? leaner.reached' taken'

theorem answer {moment : Moment} {readOnly : Bool} {tokens : List Bytes}
    (leaner : Leaner moment.clock.now engine other)
    (answers : moment.event = .answer readOnly tokens)
    (nothing : ∀ occasion ∈ other.occasions moment, occasion.evictions = 0) :
    Leaner moment.clock.now (engine.next moment) (other.next moment) ∧
      List.Forall₂ (Occasion.Alike Command.TellsNumbers) (engine.occasions moment)
        (other.occasions moment) := by
  simp only [occasions, answers, List.forall_mem_map] at nothing
  have handled : Leaner moment.clock.now (engine.handle moment.clock readOnly tokens).engine
        (other.handle moment.clock readOnly tokens).engine ∧
      List.Forall₂ (fun visit visit' => Occasion.Alike Command.TellsNumbers
          ⟨moment, readOnly, visit⟩ ⟨moment, readOnly, visit'⟩)
        (engine.visits moment.clock readOnly tokens)
        (other.visits moment.clock readOnly tokens) := by
    apply linked_handle Leaner.limits _ leaner nothing
    intro engine other tokens turn again leaner taken taken' nothing
    exact leaner.turn? taken taken' nothing
  simp only [next, occasions, answers]
  refine ⟨handled.1, ?_⟩
  rw [List.forall₂_map_left_iff, List.forall₂_map_right_iff]
  exact handled.2

/-- A sweep of the first engine only. -/
theorem sweep {clock : Clock} (leaner : Leaner clock.now engine other) :
    Leaner clock.now (engine.sweep clock).2 other := by
  refine ⟨leaner.limits, reached_sweep leaner.reached, leaner.reached', ?_⟩
  have sound := leaner.reached.sound
  apply leaner.registries.sweep_left sound.separate
  intro name stash again found found' fewer
  rcases sound.healthy found with ⟨few, healthy⟩
  rcases leaner.reached'.sound.healthy found' with ⟨all, healthy'⟩
  have usual : Stash.Call.Usual .expireKeys := ⟨nofun, nofun⟩
  have swept := @Stash.kept_by_sweep stash clock.now
    (fun stash => stash.Leaner clock.now again ∧ ∃ few, stash.Healthy few)
    (fun ⟨fewer, few, healthy⟩ =>
      ⟨fewer.after_expireKeys healthy healthy', healthy.exists_after clock.now usual⟩)
    Registry.sweepRounds ⟨fewer, few, healthy⟩
  exact swept.1

end Leaner

/--
Take any row of queues and sweeps, whose readings of the clock do not decrease, in any state that a
server can have.  If no stash gives up a key for its limit when the sweeps are left out, then every
command but those that tell numbers of keys is answered as if there had been no sweep.
-/
theorem answered_alike_without_sweeps (engine : Engine) (reached : engine.registry.Reached)
    (moments : List Moment)
    (ordered : moments.Pairwise fun earlier later => earlier.clock.now ≤ later.clock.now)
    (room : ∀ occasion ∈ engine.history (moments.filter Moment.isAnswer),
      occasion.evictions = 0) :
    List.Forall₂ (Occasion.Alike Command.TellsNumbers) (engine.history moments)
      (engine.history (moments.filter Moment.isAnswer)) := by
  suffices ∀ now other, Leaner now engine other →
      (∀ moment ∈ moments, now ≤ moment.clock.now) →
      (∀ occasion ∈ other.history (moments.filter Moment.isAnswer),
        occasion.evictions = 0) →
      List.Forall₂ (Occasion.Alike Command.TellsNumbers) (engine.history moments)
        (other.history (moments.filter Moment.isAnswer)) from
    this 0 engine (.refl reached 0) (fun _ _ => Nat.zero_le _) room
  clear reached room
  induction moments generalizing engine with
  | nil =>
      intro now other leaner after room
      exact .nil
  | cons moment moments ih =>
      intro now other leaner after room
      rw [List.pairwise_cons] at ordered
      rw [List.forall_mem_cons] at after
      have present := leaner.later after.1
      cases event : moment.event with
      | answer readOnly tokens =>
          have isAnswer : moment.isAnswer = true := by rw [Moment.isAnswer, event]
          rw [List.filter_cons_of_pos isAnswer] at room ⊢
          simp only [history, List.forall_mem_append] at room ⊢
          rcases present.answer event room.1 with ⟨still, first⟩
          exact List.rel_append first (ih _ ordered.2 _ _ still ordered.1 room.2)
      | sweep =>
          have noAnswer : ¬moment.isAnswer = true := by
            rw [Moment.isAnswer, event]
            exact Bool.false_ne_true
          rw [List.filter_cons_of_neg noAnswer] at room ⊢
          simp only [history, occasions, next, event, List.nil_append]
          exact ih _ ordered.2 _ _ present.sweep ordered.1 room

/-- A key whose lifetime is over, with a sweep before it is looked up and stored again. -/
theorem answered_alike_without_one_sweep :
    let engine : Engine := { registry := .start 0 1 {} false, limits := {} }
    let queue (words : List String) : Event := .answer false (words.map Bytes.ofText)
    let moments : List Moment :=
      [⟨⟨0, 0⟩, queue ["SET", "k", "v", "1", "TTL=10"], true⟩, ⟨⟨20, 0⟩, .sweep, true⟩,
        ⟨⟨20, 0⟩, queue ["EXPIRE", "k", "9", "0", "SET", "k", "w", "0", "GET", "k", "0"], true⟩]
    moments.Pairwise (fun earlier later => earlier.clock.now ≤ later.clock.now) ∧
      (∀ occasion ∈ engine.history (moments.filter Moment.isAnswer), occasion.evictions = 0) ∧
      ((engine.history moments).map (·.visit.turn.response)) =
        [some .ok, some (.error "KEY_DOESNT_EXIST"), some .ok, some (.value (Bytes.ofText "w"))] ∧
      List.Forall₂ (Occasion.Alike Command.TellsNumbers) (engine.history moments)
        (engine.history (moments.filter Moment.isAnswer)) := by
  intro engine queue moments
  have reached : engine.registry.Reached := .start 0 false (by decide) (by decide)
  have ordered : moments.Pairwise fun earlier later => earlier.clock.now ≤ later.clock.now := by
    decide
  have room : ∀ occasion ∈ engine.history (moments.filter Moment.isAnswer),
      occasion.evictions = 0 := by
    decide +kernel
  exact ⟨ordered, room, by decide +kernel,
    answered_alike_without_sweeps engine reached moments ordered room⟩

end Engine

end Larder
