import Larder.Proofs.Engine.Histories
import Larder.Proofs.Engine.Refusals
import Larder.Proofs.Registry.Orderly

/-!
# Engines in order

Whatever queues are answered, and whatever is swept, saved and restored between them, the registry
stays in order.  So no command meets a stash that is dropped, the default stash is never dropped,
and to create a stash that is there changes nothing.
-/

namespace Larder

/-- What may happen to a server that restores and saves its stashes. -/
inductive Incident where
  | moment (moment : Moment)
  /-- A pass, on a disk in any state. -/
  | save (now : Nat) (disk : Disk)
  | restore (now : Nat) (images : List Image)
  /-- A call by whoever has a handle, who does not drop the stash behind the registry's back. -/
  | call (now : Nat) (handle : Handle) (call : Stash.Call) (kept : call ≠ .close)
  /-- The files of dropped stashes are deleted. -/
  | settle (disk : Disk)

namespace Engine

variable {engine : Engine} {clock : Clock} {readOnly : Bool} {tokens : List Bytes} {limit : Nat}

/-- The engine after something happened. -/
def undergo (engine : Engine) : Incident → Engine
  | .moment moment => engine.next moment
  | .save now disk => { engine with registry := (engine.registry.saveDirty disk now).2.1 }
  | .restore now images => { engine with registry := (engine.registry.restore now images).2 }
  | .call now handle call _ =>
    match engine.registry.stash? handle with
    | none => engine
    | some stash =>
      { engine with registry := engine.registry.put handle (stash.after now call) }
  | .settle disk => { engine with registry := (engine.registry.runDeletions disk).1 }

section Execute

/-- No command drops a stash behind the back of the registry. -/
theorem inUse_leftBy {name : String} {stash : Stash} (used : stash.InUse name) (now : Nat)
    (readOnly : Bool) (command : Command) : (stash.leftBy now readOnly command).InUse name := by
  rw [Stash.leftBy]
  split
  · next asked => exact used.after now (Command.usual_of_call? asked).1
  · exact used

theorem orderly_execute (orderly : engine.registry.Orderly limit) (command : Command) :
    (engine.execute clock readOnly command).2.registry.Orderly limit := by
  cases about : command.target? with
  | some name =>
      cases found : engine.registry.find? name with
      | none =>
          rw [execute_of_absent about found]
          exact orderly
      | some stash =>
          rcases Option.bind_eq_some_iff.mp found with ⟨handle, led, there⟩
          rw [execute_of_found about led there]
          exact orderly.put there fun used => inUse_leftBy used clock.now readOnly command
  | none =>
      cases command with
      | get | set | delete | expire | info => cases about
      | ping | stats => exact orderly
      | create name options =>
          rw [execute_create]
          split
          · next created => exact orderly.create created
          · exact orderly
      | drop name =>
          rw [execute_drop]
          split
          · next dropped => exact orderly.drop dropped
          · exact orderly

theorem orderly_turn? {turn : Turn} (orderly : engine.registry.Orderly limit)
    (taken : engine.turn? clock readOnly tokens = some turn) :
    turn.engine.registry.Orderly limit := by
  cases takes_of_turn? taken with
  | skip | refuse => exact orderly
  | execute => exact orderly_execute orderly _

end Execute

section Front

/-- A turn on a command that the grammar lets through executes it. -/
theorem eq_of_front? {turn : Turn} {command : Command}
    (taken : engine.turn? clock readOnly tokens = some turn)
    (front : Grammar.front? engine.limits readOnly tokens = some command) :
    turn.response = some (engine.execute clock readOnly command).1 ∧
      turn.engine.registry = (engine.execute clock readOnly command).2.registry := by
  cases takes_of_turn? taken with
  | skip unknown =>
      simp only [Grammar.front?, unknown] at front
      cases front
  | refuse known verdict =>
      simp only [Grammar.front?, known, verdict] at front
      cases front
  | execute known verdict =>
      simp only [Grammar.front?, known, verdict] at front
      cases front
      exact ⟨rfl, rfl⟩

theorem execute_drop_default (engine : Engine) (clock : Clock) (readOnly : Bool) :
    engine.execute clock readOnly (.drop Registry.defaultName) =
      (.error Registry.Error.cannotDropDefault.message, engine) := by
  rw [execute_drop, Registry.drop, if_pos rfl]

/-- What a client is told who wants to drop the default stash. -/
def defaultKept (limits : Limits) (readOnly : Bool) : String :=
  if readOnly then Grammar.Error.readOnlyMode.code
  else if limits.maxNameLength < (Bytes.ofText Registry.defaultName).length then
    Grammar.Error.nameTooLong.code
  else Registry.Error.cannotDropDefault.message

/-- Whatever comes behind it, a command to drop the default stash is refused, by the grammar or by
the registry. -/
theorem turn?_drop_default (engine : Engine) (clock : Clock) (readOnly : Bool)
    (more : List Bytes) :
    ∃ turn, engine.turn? clock readOnly
        (Bytes.ofText "DROP" :: Bytes.ofText Registry.defaultName :: more) = some turn ∧
      turn.response = some (.error (defaultKept engine.limits readOnly)) ∧
      turn.engine.registry = engine.registry ∧ turn.rest = more := by
  have known : Command.Verb.ofToken? (Bytes.ofText "DROP") = some .drop := by decide +kernel
  have decoded : (Bytes.ofText Registry.defaultName).toText? = some Registry.defaultName :=
    Bytes.toText?_ofText _
  have least : Command.Verb.drop.minTokens = 2 := rfl
  have enough : ¬more.length + 1 + 1 < 2 := by omega
  have extent : Grammar.extent? .drop
      (Bytes.ofText "DROP" :: Bytes.ofText Registry.defaultName :: more) = some 2 := rfl
  have verdict : Grammar.parse engine.limits readOnly .drop
      (Bytes.ofText "DROP" :: Bytes.ofText Registry.defaultName :: more) =
      if readOnly then .invalid 2 .readOnlyMode
      else if engine.limits.maxNameLength < (Bytes.ofText Registry.defaultName).length then
        .invalid 2 .nameTooLong
      else .parsed 2 (.drop Registry.defaultName) := by
    cases readOnly with
    | true => simp [Grammar.parse, least, enough, extent, Command.Verb.writes]
    | false =>
        by_cases long : engine.limits.maxNameLength < (Bytes.ofText Registry.defaultName).length
        · simp [Grammar.parse, least, enough, extent, Grammar.read, Grammar.settings, Grammar.build,
            Grammar.readName, long, Command.Verb.arity, bind, Except.bind]
        · simp [Grammar.parse, least, enough, extent, Grammar.read, Grammar.settings, Grammar.build,
            Grammar.readName, long, Command.Verb.arity, bind, Except.bind, pure, Except.pure,
            decoded]
  simp only [turn?, known, verdict, defaultKept]
  cases readOnly with
  | true => exact ⟨_, rfl, rfl, rfl, rfl⟩
  | false =>
      simp only [if_neg Bool.false_ne_true]
      by_cases long : engine.limits.maxNameLength < (Bytes.ofText Registry.defaultName).length
      · simp only [if_pos long]
        exact ⟨_, rfl, rfl, rfl, rfl⟩
      · simp only [if_neg long, execute_drop_default]
        exact ⟨_, rfl, rfl, rfl, rfl⟩

/-- It is of no consequence how many stashes there are. -/
theorem execute_create_of_contains {name : String}
    (present : engine.registry.names.contains name = true) (options : Command.CreateOptions) :
    engine.execute clock readOnly (.create name options) = (.ok, engine) := by
  rw [execute_create, Registry.create, if_pos present]

end Front

section Run

theorem orderly_handle (orderly : engine.registry.Orderly limit) (clock : Clock) (readOnly : Bool)
    (tokens : List Bytes) :
    (engine.handle clock readOnly tokens).engine.registry.Orderly limit ∧
      ∀ visit ∈ engine.visits clock readOnly tokens, visit.engine.registry.Orderly limit ∧
        visit.engine.turn? clock readOnly visit.waiting = some visit.turn :=
  @kept_by_handle engine clock readOnly tokens (fun engine => engine.registry.Orderly limit)
    orderly_turn? orderly

theorem orderly_undergo (orderly : engine.registry.Orderly limit) (incident : Incident) :
    (engine.undergo incident).registry.Orderly limit := by
  cases incident with
  | moment moment =>
      rw [undergo, next]
      split
      · exact (orderly_handle orderly moment.clock _ _).1
      · exact orderly.sweep moment.clock.now
  | save now disk => exact orderly.saveDirty disk now
  | restore now images => exact orderly.restore now images
  | call now handle call kept =>
      rw [undergo]
      split
      · exact orderly
      · next found => exact orderly.put found fun used => used.after now kept
  | settle =>
      exact ⟨orderly.limit_eq, orderly.size_le, ⟨orderly.separate.known, orderly.separate.apart⟩,
        orderly.default, orderly.inUse⟩

theorem orderly_run (orderly : engine.registry.Orderly limit) (incidents : List Incident) :
    (incidents.foldl undergo engine).registry.Orderly limit := by
  induction incidents generalizing engine with
  | nil => exact orderly
  | cons incident incidents ih => exact ih (orderly_undergo orderly incident)

theorem limits_handle (engine : Engine) (clock : Clock) (readOnly : Bool) (tokens : List Bytes) :
    (engine.handle clock readOnly tokens).engine.limits = engine.limits ∧
      ∀ visit ∈ engine.visits clock readOnly tokens, visit.engine.limits = engine.limits ∧
        visit.engine.turn? clock readOnly visit.waiting = some visit.turn :=
  @kept_by_handle engine clock readOnly tokens (fun other => other.limits = engine.limits)
    (fun same taken => (limits_turn? taken).trans same) rfl

theorem limits_undergo (engine : Engine) (incident : Incident) :
    (engine.undergo incident).limits = engine.limits := by
  cases incident with
  | moment moment =>
      rw [undergo, next]
      split
      · exact (limits_handle engine moment.clock _ _).1
      · rfl
  | call =>
      rw [undergo]
      split <;> rfl
  | save | restore | settle => rfl

theorem limits_run (engine : Engine) (incidents : List Incident) :
    (incidents.foldl undergo engine).limits = engine.limits := by
  induction incidents generalizing engine with
  | nil => rfl
  | cons incident incidents ih => exact (ih _).trans (limits_undergo engine incident)

/--
A server starts with the default stash and goes through any incidents: queues are answered on
connections of either kind, and stashes are swept, saved and restored.  Then the default stash is
registered, every name leads to a stash of that name that is not dropped, different names lead to
different stashes, and there are no more names than there is room for.  So no response tells that
a stash is dropped.  A command to drop the default stash is always refused, and a command to create
a stash that is there, if the grammar lets it through, is answered with success and changes no
stash, even if there is no room for another one.
-/
theorem registry_in_order (now maxStashes : Nat) (defaults : StashDefaults) (persistent : Bool)
    (limits : Limits) (counters : Counters) (incidents : List Incident) :
    let first : Engine :=
      { registry := .start now maxStashes defaults persistent, limits, counters }
    let engine := incidents.foldl undergo first
    (engine.registry.names.contains Registry.defaultName = true ∧
      (∀ name, engine.registry.names.contains name = true →
        ∃ stash contents, engine.registry.find? name = some stash ∧ stash.name = name ∧
          stash.contents = some contents) ∧
      (∀ name other handle, engine.registry.handle? name = some handle →
        engine.registry.handle? other = some handle → name = other) ∧
      engine.registry.names.keys.Nodup ∧ engine.registry.names.size ≤ max 1 maxStashes) ∧
    ∀ clock readOnly tokens,
      (engine.handle clock readOnly tokens).responses =
        (engine.visits clock readOnly tokens).filterMap (fun visit => visit.turn.response) ∧
      ∀ visit ∈ engine.visits clock readOnly tokens,
        visit.turn.response ≠ some (.error "DB_CLOSED") ∧
        (∀ more, visit.waiting = Bytes.ofText "DROP" :: Bytes.ofText "default" :: more →
          visit.turn.response = some (.error (defaultKept limits readOnly)) ∧
            visit.turn.engine.registry = visit.engine.registry ∧ visit.turn.rest = more) ∧
        ∀ name options,
          Grammar.front? limits readOnly visit.waiting = some (.create name options) →
          visit.engine.registry.names.contains name = true →
          visit.turn.response = some .ok ∧
            visit.turn.engine.registry = visit.engine.registry := by
  intro first engine
  have orderly : engine.registry.Orderly (max 1 maxStashes) :=
    orderly_run (.start now maxStashes defaults persistent) incidents
  have limited : engine.limits = limits := limits_run first incidents
  refine ⟨⟨orderly.default, ?_, fun _ _ _ => orderly.separate.apart,
    engine.registry.names.nodup_keys, ?_⟩, ?_⟩
  · intro name present
    rcases orderly.exists_find? present with ⟨stash, found, used⟩
    rcases used.opened with ⟨contents, opened⟩
    exact ⟨stash, contents, found, used.named, opened⟩
  · rw [← orderly.limit_eq]
    exact orderly.size_le
  intro clock readOnly tokens
  refine ⟨responses_handle engine clock readOnly tokens, ?_⟩
  intro visit met
  rcases (orderly_handle orderly clock readOnly tokens).2 visit met with ⟨before, taken⟩
  have same : visit.engine.limits = limits :=
    ((limits_handle engine clock readOnly tokens).2 visit met).1.trans limited
  refine ⟨response_ne_closed (fun found => (before.inUse found).opened) taken, ?_, ?_⟩
  · intro more waiting
    rcases turn?_drop_default visit.engine clock readOnly more with ⟨turn, refused, answer⟩
    have agrees : turn = visit.turn := by
      rw [waiting] at taken
      exact Option.some.inj (refused.symm.trans taken)
    rwa [agrees, same] at answer
  · intro name options front present
    rcases eq_of_front? taken (by rwa [same]) with ⟨response, registry⟩
    rw [response, registry, execute_create_of_contains present]
    exact ⟨rfl, rfl⟩

/-- On a connection that only reads, it is not the registry that keeps the default stash. -/
theorem drop_default_on_reader :
    let engine : Engine := { registry := .start 0 1 {} false, limits := {} }
    let answers := (engine.handle ⟨0, 0⟩ true (["DROP", "default"].map Bytes.ofText)).responses
    answers = [.error "READ_ONLY_MODE"] ∧ answers ≠ [.error "CANNOT_DROP_DEFAULT"] := by
  decide +kernel

end Run

end Engine

end Larder
