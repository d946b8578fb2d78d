import Larder.Proofs.Engine.Reached
import Larder.Proofs.Engine.WholeCommands
import Larder.Proofs.Grammar.Sentences
import Larder.Proofs.Snapshot.Owners

/-!
# What a server does while it runs

A server takes turns at the queues of its clients, sweeps, saves what changed and deletes the files
of dropped stashes.  Turns and sweeps are made of calls to registered stashes, and of stashes that
are created and dropped.
-/

namespace Larder

namespace Grammar

variable {limits : Limits} {readOnly : Bool} {verb : Command.Verb} {name : Bytes}
  {rest arguments options : List Bytes} {command : Command}

/-- A command that is parsed from a queue carries tokens of the queue. -/
theorem exists_carries {consumed : Nat} (known : Command.Verb.ofToken? name = some verb)
    (verdict : parse limits readOnly verb (name :: rest) = .parsed consumed command) :
    ∃ arguments options, arguments ⊆ name :: rest ∧
      Carries limits options verb arguments command := by
  obtain rfl := Command.Verb.eq_text_of_ofToken? known
  have judgement := judged limits readOnly verb rest
  rw [verdict] at judgement
  cases judgement with
  | @taken parts _ begins accepted =>
      refine ⟨parts.arguments, parts.options, ?_, accepted.carries⟩
      intro token present
      apply begins.subset
      rw [Parts.tokens]
      exact .tail _ (List.mem_append_left _ present)

theorem Carries.stored_le (carries : Carries limits options verb arguments command)
    {call : Stash.Call} (asked : command.call? readOnly = some call) {key value : Bytes}
    (stored : call.stored? = some (key, value)) :
    key.length ≤ limits.maxKeyLength ∧ value.length ≤ limits.maxValueLength := by
  cases carries with
  | @set _ _ ttl _ short fits =>
      cases ttl <;> cases asked <;> cases stored <;> exact ⟨short, fits⟩
  | get => cases readOnly <;> cases asked <;> cases stored
  | delete | expire =>
      cases asked
      cases stored
  | ping | stats | info | create | drop => cases asked

/-- No stash is created without a name, as no token is empty. -/
theorem Carries.name_ne_empty {created : String} {settings : Command.CreateOptions}
    (carries : Carries limits options verb arguments (.create created settings))
    (framed : [] ∉ arguments) : created ≠ "" := by
  cases carries with
  | create named =>
      rintro rfl
      rw [show _ = [] from named.1] at framed
      exact framed List.mem_cons_self

end Grammar

/-- No command saves or restores a stash, or drops one behind the back of the registry. -/
theorem Command.ordinary_of_call? {command : Command} {readOnly : Bool} {call : Stash.Call}
    (asked : command.call? readOnly = some call) : call.Ordinary := by
  cases command with
  | get =>
      cases readOnly <;> cases asked <;> exact ⟨nofun, nofun, nofun⟩
  | set key value ttl =>
      cases ttl <;> cases asked <;> exact ⟨nofun, nofun, nofun⟩
  | delete | expire =>
      cases asked
      exact ⟨nofun, nofun, nofun⟩
  | ping | create | drop | info | stats => cases asked

/-- Every stash that is registered has a name. -/
def Registry.AllNamed (registry : Registry) : Prop :=
  registry.handle? "" = none

/-- The stash that a command stored a value in, if the client was told so. -/
def Command.storedIn? (registry : Registry) (response : Response) : Command → Option Handle
  | .set _ _ _ name =>
    if response = .ok then registry.handle? (name.getD Registry.defaultName) else none
  | _ => none

/-- The stash that a turn stored a value in, if it did. -/
def Engine.storedBy? (engine : Engine) (readOnly : Bool) (tokens : List Bytes)
    (turn : Engine.Turn) : Option Handle := do
  let command ← Grammar.front? engine.limits readOnly tokens
  let response ← turn.response
  command.storedIn? engine.registry response

namespace Upkeep

/-- The engine of a server, whatever it has counted. -/
def engine (state : Upkeep) (limits : Limits) (counters : Counters) : Engine :=
  { registry := state.registry, limits, counters }

/-- What happens while a server runs. -/
inductive Work (limits : Limits) (state : Upkeep) : Upkeep → Prop where
  /-- A turn at the queue of some client.  No frame is empty. -/
  | turn {counters : Counters} {clock : Clock} {readOnly : Bool} {tokens : List Bytes}
      {turn : Engine.Turn} (ordered : state.now ≤ clock.now) (framed : [] ∉ tokens)
      (taken : (state.engine limits counters).turn? clock readOnly tokens = some turn) :
      Work limits state { state with
        now := clock.now
        registry := turn.engine.registry
        stored := ((state.engine limits counters).storedBy? readOnly tokens turn).toList ++
          state.stored }
  | sweep {counters : Counters} {clock : Clock} (ordered : state.now ≤ clock.now) :
      Work limits state { state with
        now := clock.now, registry := ((state.engine limits counters).sweep clock).2.registry }
  /-- Stashes are called, created and dropped by others, a pass goes on, or a file is deleted.  Nobody
  creates a stash without a name. -/
  | upkeep {next : Upkeep} (step : Step limits state next) (named : next.registry.AllNamed) :
      Work limits state next

variable {limits : Limits} {limit : Nat} {state next : Upkeep}

/-- A turn of an engine over the registry. -/
theorem Work.of_turn? {engine : Engine} (limited : engine.limits = limits)
    (registry : engine.registry = state.registry) {clock : Clock} (ordered : state.now ≤ clock.now)
    {readOnly : Bool} {tokens : List Bytes} (framed : [] ∉ tokens) {turn : Engine.Turn}
    (taken : engine.turn? clock readOnly tokens = some turn) :
    Work limits state { state with
      now := clock.now
      registry := turn.engine.registry
      stored := (engine.storedBy? readOnly tokens turn).toList ++ state.stored } := by
  rcases engine with ⟨_, _, counters⟩
  subst limited registry
  exact .turn ordered framed taken

theorem reaches_later (order : state.InOrder limit) {later : Nat} (ordered : state.now ≤ later) :
    Reaches limits state { state with now := later } := by
  rcases order.orderly.exists_find? order.orderly.default with ⟨stash, found, used⟩
  rcases Option.bind_eq_some_iff.mp found with ⟨handle, led, there⟩
  rcases used.opened with ⟨contents, opened⟩
  have same : stash.after later .size = stash := by
    rw [Stash.after, Stash.respond, Stash.size_of_open opened]
    rfl
  have call : Step limits state { state with
      now := later, registry := state.registry.put handle (stash.after later .size) } :=
    .call ordered led there .size fun _ _ stored => by cases stored
  rw [same, Registry.put_self there] at call
  exact .single call

section Turn

variable {counters : Counters} {clock : Clock} {readOnly : Bool} {command : Command}

/-- A client is told that a value was stored exactly if the call stored one. -/
theorem storedIn?_of_found {registry : Registry} {name : String} {handle : Handle} {stash : Stash}
    {contents : Stash.Contents} (about : command.target? = some name)
    (led : registry.handle? name = some handle) (opened : stash.contents = some contents)
    {call : Stash.Call} (asked : command.call? readOnly = some call) (now : Nat) :
    command.storedIn? registry (stash.told now readOnly command) =
      if call.stored?.isSome then some handle else none := by
  cases command with
  | set key value ttl named =>
      cases about
      have told := Stash.told_set opened now readOnly key named value ttl
      rw [Command.storedIn?, told, if_pos rfl, led]
      cases ttl <;> cases asked <;> rfl
  | get => cases readOnly <;> cases asked <;> rfl
  | delete | expire =>
      cases asked
      rfl
  | ping | create | drop | info | stats => cases asked

/-- A command that the grammar lets through is made of what can happen anyway. -/
theorem reaches_execute (order : state.InOrder limit) (ordered : state.now ≤ clock.now)
    {verb : Command.Verb} {arguments options tokens : List Bytes}
    (carries : Grammar.Carries limits options verb arguments command)
    (admitted : command.Admitted limits tokens) :
    let done := (state.engine limits counters).execute clock readOnly command
    Reaches limits state { state with
      now := clock.now
      registry := done.2.registry
      stored := (command.storedIn? state.registry done.1).toList ++ state.stored } := by
  intro done
  have waits := @reaches_later limits limit state order clock.now ordered
  cases about : command.target? with
  | some name =>
      cases found : state.registry.find? name with
      | none =>
          have refused : done = _ := Engine.execute_of_absent about found
          have unstored (code : String) : command.storedIn? state.registry (.error code) = none := by
            cases command <;> rfl
          rw [refused, unstored]
          exact waits
      | some stash =>
          rcases Option.bind_eq_some_iff.mp found with ⟨handle, led, there⟩
          rcases (order.exists_contents led there).2 with ⟨contents, opened⟩
          have executed : done = _ := Engine.execute_of_found about led there
          rw [executed, Stash.leftBy]
          cases asked : command.call? readOnly with
          | none =>
              have unstored (response : Response) :
                  command.storedIn? state.registry response = none := by
                cases command with
                | set _ _ ttl => cases ttl <;> cases asked
                | _ => rfl
              have same : state.registry.put handle stash = state.registry :=
                Registry.put_self there
              rw [unstored]
              rw [← same] at waits
              exact waits
          | some call =>
              have step : Step limits state _ :=
                .call ordered led there (Command.ordinary_of_call? asked)
                  fun _ _ => carries.stored_le asked
              rw [storedIn?_of_found about led opened asked]
              cases stores : call.stored?.isSome <;> rw [stores] at step <;> exact .single step
  | none =>
      cases command with
      | get | set | delete | expire | info => cases about
      | ping | stats => exact waits
      | create name settings =>
          have created : done = _ := Engine.execute_create name settings
          rw [created]
          split
          · next created =>
            have bounded := Engine.requestedOptions_le state.registry order.bounded admitted.2
            exact .single (.create ordered admitted.1 bounded created)
          · exact waits
      | drop name =>
          have executed : done = _ := Engine.execute_drop name
          rw [executed]
          split
          · next dropped => exact waits.tail (.drop dropped)
          · exact waits

theorem reaches_turn (order : state.InOrder limit) (ordered : state.now ≤ clock.now)
    {tokens : List Bytes} {turn : Engine.Turn}
    (taken : (state.engine limits counters).turn? clock readOnly tokens = some turn) :
    Reaches limits state { state with
      now := clock.now
      registry := turn.engine.registry
      stored := ((state.engine limits counters).storedBy? readOnly tokens turn).toList ++
        state.stored } := by
  cases Engine.takes_of_turn? taken with
  | skip unknown =>
      simp only [Engine.storedBy?, Grammar.front?, unknown]
      exact reaches_later order ordered
  | refuse known verdict =>
      simp only [Engine.storedBy?, Grammar.front?, known, verdict]
      exact reaches_later order ordered
  | execute known verdict =>
      simp only [Engine.storedBy?, Grammar.front?, known, verdict]
      rcases Grammar.exists_carries known verdict with ⟨arguments, options, _, carries⟩
      exact reaches_execute order ordered carries (Grammar.admitted_of_parse verdict)

end Turn

section Sweep

variable {later : Nat}

/-- Sweeping a stash is one call for each batch. -/
theorem reaches_sweepAt (order : state.InOrder limit) (ordered : state.now ≤ later)
    {name : String} {handle : Handle} (led : state.registry.handle? name = some handle) :
    Reaches limits state { state with
      now := later, registry := (state.registry.sweepAt later handle).2 } := by
  rw [Registry.sweepAt]
  split
  · exact reaches_later order ordered
  next stash found =>
  have batch {stash : Stash} (before : Reaches limits state { state with
      now := later, registry := state.registry.put handle stash }) :
      Reaches limits state { state with
        now := later, registry := state.registry.put handle (stash.after later .expireKeys) } := by
    have step := @Step.call limits { state with
        now := later, registry := state.registry.put handle stash } name handle stash later
      .expireKeys (Nat.le_refl _) led (Registry.stash?_put_self found stash) .expireKeys
      fun _ _ stored => by cases stored
    simp only [Registry.put, List.set_set] at step
    exact before.tail step
  refine @Stash.kept_by_sweep stash later (fun stash => Reaches limits state { state with
    now := later, registry := state.registry.put handle stash }) batch _ ?_
  rw [Registry.put_self found]
  exact reaches_later order ordered

theorem reaches_foldl_sweepAt {handles : List Handle} (order : state.InOrder limit)
    (ordered : state.now ≤ later)
    (led : ∀ handle ∈ handles, ∃ name, state.registry.handle? name = some handle) :
    Reaches limits state { state with
      now := later
      registry := handles.foldl (fun registry handle => (registry.sweepAt later handle).2)
        state.registry } := by
  induction handles generalizing state with
  | nil => exact reaches_later order ordered
  | cons handle handles ih =>
      rcases led handle List.mem_cons_self with ⟨name, ledHere⟩
      have first := @reaches_sweepAt limits limit state later order ordered name handle ledHere
      refine first.trans (ih (first.inOrder order) (Nat.le_refl _) fun other present => ?_)
      rw [Registry.snd_sweepAt]
      exact led other (.tail _ present)

theorem reaches_sweep (order : state.InOrder limit) (ordered : state.now ≤ later) :
    Reaches limits state { state with
      now := later, registry := (state.registry.sweep later).2 } := by
  rw [Registry.sweep, Registry.snd_foldl_sweepAt]
  refine reaches_foldl_sweepAt order ordered fun handle present => ?_
  rcases List.mem_map.mp present with ⟨⟨name, place⟩, entry, rfl⟩
  exact ⟨name, FiniteMap.mem_entries_iff.mp entry⟩

end Sweep

section Named

/-- A turn creates no stash without a name, as no token is empty. -/
theorem allNamed_turn? {engine : Engine} {clock : Clock} {readOnly : Bool} {tokens : List Bytes}
    {turn : Engine.Turn} (named : engine.registry.AllNamed) (framed : [] ∉ tokens)
    (taken : engine.turn? clock readOnly tokens = some turn) :
    turn.engine.registry.AllNamed := by
  cases Engine.takes_of_turn? taken with
  | skip => exact named
  | refuse => exact named
  | @execute _ _ _ _ command known verdict =>
      rcases Grammar.exists_carries known verdict with ⟨arguments, options, inside, carries⟩
      change (engine.execute clock readOnly command).2.registry.AllNamed
      cases about : command.target? with
      | some name =>
          cases found : engine.registry.find? name with
          | none =>
              rw [Engine.execute_of_absent about found]
              exact named
          | some stash =>
              rcases Option.bind_eq_some_iff.mp found with ⟨handle, led, there⟩
              rw [Engine.execute_of_found about led there]
              exact named
      | none =>
          cases command with
          | get | set | delete | expire | info => cases about
          | ping | stats => exact named
          | create name settings =>
              have another := carries.name_ne_empty fun empty => framed (inside empty)
              rw [Engine.execute_create]
              split
              · next created =>
                rcases Registry.eq_of_create created with rfl | ⟨_, rfl⟩
                · exact named
                · exact (FiniteMap.get?_insert _ _ _ _).trans ((if_neg another.symm).trans named)
              · exact named
          | drop name =>
              rw [Engine.execute_drop]
              split
              · next dropped =>
                rcases Registry.eq_of_drop dropped with ⟨_, handle, _, rfl⟩
                refine (FiniteMap.get?_erase _ _ _).trans ?_
                split
                · rfl
                · exact named
              · exact named

theorem Work.allNamed (work : Work limits state next) (named : state.registry.AllNamed) :
    next.registry.AllNamed := by
  cases work with
  | turn _ framed taken => exact allNamed_turn? named framed taken
  | sweep =>
      change (Registry.sweep _ _).2.AllNamed
      rw [Registry.snd_sweep]
      exact named
  | upkeep _ named => exact named

theorem allNamed_of_works (works : Relation.ReflTransGen (Work limits) state next)
    (named : state.registry.AllNamed) : next.registry.AllNamed := by
  induction works with
  | refl => exact named
  | tail _ work ih => exact work.allNamed ih

end Named

theorem Work.reaches (work : Work limits state next) (order : state.InOrder limit) :
    Reaches limits state next := by
  cases work with
  | turn ordered _ taken => exact reaches_turn order ordered taken
  | sweep ordered => exact reaches_sweep order ordered
  | upkeep step => exact .single step

/-- Whatever a server does while it runs can happen to a registry and its files. -/
theorem reaches_of_works (works : Relation.ReflTransGen (Work limits) state next)
    (order : state.InOrder limit) : Reaches limits state next := by
  induction works with
  | refl => exact .refl
  | tail _ work ih => exact ih.trans (work.reaches (ih.inOrder order))

end Upkeep

end Larder
