import Larder.Counters
import Larder.Grammar
import Larder.Response

/-!
# The command engine

An engine takes complete commands off the front of a queue of tokens and answers each of them.  A
token that is no command name where one should be is skipped, and a command that is not complete
stays until more tokens arrive.  A command that is refused changes nothing but the counters.
-/

namespace Larder

/-- The stashes of a server, the sizes it accepts, and what it counts. -/
structure Engine where
  registry : Registry
  limits : Limits
  counters : Counters := {}
  deriving Repr, DecidableEq

namespace Engine

/-- Why a complete command is not carried out. -/
inductive Failure where
  | stash (error : Stash.Error)
  | registry (error : Registry.Error)
  /-- There is no such key. -/
  | keyNotFound
  deriving Repr, DecidableEq

/-- The code of a failure on the wire. -/
def Failure.code : Failure → String
  | .stash error => error.message
  | .registry error => error.message
  | .keyNotFound => "KEY_DOESNT_EXIST"

/-- The stash that a command is about, with its handle; the default one if none is named. -/
def target (registry : Registry) (name : Option String) : Except Failure (Handle × Stash) :=
  let found := do
    let handle ← registry.handle? (name.getD Registry.defaultName)
    let stash ← registry.stash? handle
    return (handle, stash)
  match found with
  | some target => .ok target
  | none => .error (.registry .notFound)

/-- The settings of a stash whose creator asks for some of them. -/
def requestedOptions (registry : Registry) (options : Command.CreateOptions) : Stash.Options :=
  let defaults := registry.defaultOptions
  { maxKeys := options.maxKeys.getD defaults.maxKeys
    snapshots := options.snapshots.getD defaults.snapshots
    offHeap := options.offHeap.getD defaults.offHeap }

def lookedUp : Option Bytes → Response
  | some value => .value value
  | none => .null

/-- What a call to a stash leads to.  A stash that is dropped fails all calls. -/
def ofCall (stash : Stash) (called : Except Stash.Error (Except Failure Response × Stash)) :
    Except Failure Response × Stash :=
  match called with
  | .ok outcome => outcome
  | .error error => (.error (.stash error), stash)

/-- Asks the stash that a command is about.  What it is then takes its place, whatever it says. -/
def ask (registry : Registry) (name : Option String)
    (question : Stash → Except Failure Response × Stash) : Except Failure Response × Registry :=
  match target registry name with
  | .error failure => (.error failure, registry)
  | .ok (handle, stash) =>
    let (answer, rest) := question stash
    (answer, registry.put handle rest)

/-- What a registry says, as the answer to a command. -/
def ofRegistry : Except Registry.Error Unit × Registry → Except Failure Response × Registry
  | (.ok (), registry) => (.ok .ok, registry)
  | (.error error, registry) => (.error (.registry error), registry)

/-- Carries out a command, and says what the registry is then, also if the command fails.  A
connection that only reads does not use the keys that it looks up. -/
def perform (engine : Engine) (clock : Clock) (readOnly : Bool) (command : Command) :
    Except Failure Response × Registry :=
  let registry := engine.registry
  match command with
  | .ping => (.ok .pong, registry)
  | .get key name =>
    ask registry name fun stash => ofCall stash <|
      if readOnly then
        (stash.peek clock.now key).map fun value => (.ok (lookedUp value), stash)
      else
        (stash.get clock.now key).map fun (value, rest) => (.ok (lookedUp value), rest)
  | .set key value ttl name =>
    ask registry name fun stash =>
      let stored := match ttl with
        | some ttl => stash.setWithTtl clock.now key value ttl
        | none => stash.set clock.now key value
      ofCall stash (stored.map fun rest => (.ok .ok, rest))
  | .delete key name =>
    ask registry name fun stash => ofCall stash <|
      (stash.delete key).map fun (_, rest) => (.ok .ok, rest)
  | .expire key ttl name =>
    ask registry name fun stash => ofCall stash <|
      (stash.updateTtl clock.now key ttl).map fun (found, rest) =>
        (if found then .ok .ok else .error .keyNotFound, rest)
  | .create name options =>
    ofRegistry (registry.create clock.now name (requestedOptions registry options))
  | .drop name => ofRegistry (registry.drop name)
  | .info name =>
    ask registry name fun stash => ofCall stash <|
      stash.info.map fun text => (.ok (.text text), stash)
  | .stats => (.ok (.text (engine.counters.render clock registry)), registry)

/-- The engine after a response has been counted. -/
def answered (engine : Engine) (response : Response) : Engine :=
  { engine with counters := engine.counters.commandAnswered response.isError }

/-- Carries out a command, or answers why not. -/
def execute (engine : Engine) (clock : Clock) (readOnly : Bool) (command : Command) :
    Response × Engine :=
  match engine.perform clock readOnly command with
  | (.ok response, registry) => (response, { engine with registry })
  | (.error failure, registry) => (.error failure.code, { engine with registry })

/-- One step through a queue of tokens. -/
structure Turn where
  response : Option Response
  engine : Engine
  /-- The tokens after those that were taken off the queue. -/
  rest : List Bytes
  deriving Repr, DecidableEq

/-- Takes the first command or unknown token off a queue, unless the queue is empty or its first
command is not complete. -/
def turn? (engine : Engine) (clock : Clock) (readOnly : Bool) (tokens : List Bytes) :
    Option Turn :=
  match tokens with
  | [] => none
  | name :: rest =>
    match Command.Verb.ofToken? name with
    | none => some { response := none, engine, rest }
    | some verb =>
      match Grammar.parse engine.limits readOnly verb tokens with
      | .incomplete => none
      | .invalid consumed error =>
        let response := .error error.code
        some { response := some response
               engine := engine.answered response
               rest := tokens.drop consumed }
      | .parsed consumed command =>
        let (response, engine) := engine.execute clock readOnly command
        some { response := some response
               engine := engine.answered response
               rest := tokens.drop consumed }

end Engine

namespace Grammar

/-- A verdict on a complete command takes at least its name off the queue. -/
theorem minTokens_le_extent {verb : Command.Verb} {tokens : List Bytes} {consumed : Nat}
    (known : extent? verb tokens = some consumed) : verb.minTokens ≤ consumed := by
  unfold extent? at known
  split at known
  · obtain ⟨count, _, rfl⟩ := Option.map_eq_some_iff.1 known
    exact Nat.le_add_right _ _
  · cases known
    exact Nat.le_refl _

theorem one_le_minTokens (verb : Command.Verb) : 1 ≤ verb.minTokens := by
  unfold Command.Verb.minTokens
  omega

theorem one_le_consumed_of_invalid {limits : Limits} {readOnly : Bool} {verb : Command.Verb}
    {tokens : List Bytes} {consumed : Nat} {error : Error}
    (verdict : parse limits readOnly verb tokens = .invalid consumed error) : 1 ≤ consumed := by
  have atLeast := one_le_minTokens verb
  unfold parse at verdict
  split at verdict
  · cases verdict
  split at verdict
  · cases verdict
    exact atLeast
  · next extent known =>
    have := minTokens_le_extent known
    split at verdict
    · cases verdict
    split at verdict
    · cases verdict
      omega
    split at verdict
    · cases verdict
    · cases verdict
      omega

theorem one_le_consumed_of_parsed {limits : Limits} {readOnly : Bool} {verb : Command.Verb}
    {tokens : List Bytes} {consumed : Nat} {command : Command}
    (verdict : parse limits readOnly verb tokens = .parsed consumed command) : 1 ≤ consumed := by
  have atLeast := one_le_minTokens verb
  unfold parse at verdict
  split at verdict
  · cases verdict
  split at verdict
  · cases verdict
  · next extent known =>
    have := minTokens_le_extent known
    split at verdict
    · cases verdict
    split at verdict
    · cases verdict
    split at verdict
    · cases verdict
      omega
    · cases verdict

end Grammar

namespace Engine

/-- A step through a queue leaves fewer tokens. -/
theorem length_rest_lt {engine : Engine} {clock : Clock} {readOnly : Bool} {tokens : List Bytes}
    {turn : Turn} (taken : engine.turn? clock readOnly tokens = some turn) :
    turn.rest.length < tokens.length := by
  unfold turn? at taken
  split at taken
  · cases taken
  · next name rest =>
    split at taken
    · cases taken
      simp
    · split at taken
      · cases taken
      · next consumed error verdict =>
        have := Grammar.one_le_consumed_of_invalid verdict
        cases taken
        simp only [List.length_drop, List.length_cons]
        omega
      · next consumed command verdict =>
        have := Grammar.one_le_consumed_of_parsed verdict
        cases taken
        simp only [List.length_drop, List.length_cons]
        omega

/-- What a queue of tokens leads to. -/
structure Handled where
  /-- The responses, in the order of the commands. -/
  responses : List Response
  engine : Engine
  left : List Bytes
  deriving Repr, DecidableEq

/-- The frames of all responses, if there are any. -/
def Handled.output (handled : Handled) : Option Bytes :=
  if handled.responses = [] then none else some (handled.responses.flatMap Response.encode)

/-- Answers the complete commands at the front of a queue, after some responses that are given in
reverse order. -/
def handleFrom (engine : Engine) (clock : Clock) (readOnly : Bool) (earlier : List Response)
    (tokens : List Bytes) : Handled :=
  match _taken : engine.turn? clock readOnly tokens with
  | none => { responses := earlier.reverse, engine, left := tokens }
  | some turn =>
    handleFrom turn.engine clock readOnly (turn.response.toList ++ earlier) turn.rest
termination_by tokens.length
decreasing_by exact length_rest_lt _taken

/-- Answers the complete commands at the front of a queue. -/
def handle (engine : Engine) (clock : Clock) (readOnly : Bool) (tokens : List Bytes) : Handled :=
  handleFrom engine clock readOnly [] tokens

end Engine

end Larder
