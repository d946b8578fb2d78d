import Larder.Connection
import Larder.Worker
import Mathlib.Logic.Function.Basic
import Mathlib.Logic.Relation

/-!
# Connections that share a worker

Any number of connections that may write hand their queues over to one worker.  Requests wait in a
channel with little room and are served in the order in which they came; sweeps come the same way.
A connection that handed over its queue does nothing until the reply is there, and anything may
happen to the others meanwhile.  With the others at rest, a connection does what
`Connection.receive` does.
-/

namespace Larder

/-- A request in the channel; whoever handed over a queue waits for the reply. -/
inductive Letter (Peer : Type) where
  | queue (sender : Peer) (tokens : List Bytes)
  | sweep
  deriving Repr, DecidableEq

namespace Letter

variable {Peer : Type}

def sender? : Letter Peer → Option Peer
  | .queue sender _ => some sender
  | .sweep => none

def tokens : Letter Peer → List Bytes
  | .queue _ tokens => tokens
  | .sweep => []

def request : Letter Peer → Request
  | .queue _ tokens => .execute tokens
  | .sweep => .sweep

end Letter

/-- A request that was served, with the engine and the time that it was served at. -/
structure Service (Peer : Type) where
  letter : Letter Peer
  engine : Engine
  clock : Clock
  deriving Repr, DecidableEq

namespace Service

variable {Peer : Type}

/-- What the queue of the request led to. -/
def handled (service : Service Peer) : Engine.Handled :=
  service.engine.handle service.clock false service.letter.tokens

/-- The tokens that were taken off the queue. -/
def consumed (service : Service Peer) : List Bytes :=
  service.letter.tokens.take (service.letter.tokens.length - service.handled.left.length)

def frames (service : Service Peer) : Bytes :=
  service.handled.output.getD []

end Service

/-- What a connection waits for. -/
inductive Stage where
  /-- More bytes of the client. -/
  | reading
  /-- Room for its queue in the channel. -/
  | handing
  /-- The reply of the worker. -/
  | waiting
  /-- Nothing but its turn to take the reply. -/
  | answered (left : List Bytes) (output : Option Bytes)
  /-- Nothing, as the bytes of the client could not be framed.  After a crash the others need not go
  on either. -/
  | refused (error : Frame.Error)
  deriving Repr, DecidableEq

structure Caller where
  connection : Connection
  stage : Stage := .reading
  /-- The pieces that were read. -/
  pieces : List Bytes := []
  /-- The bytes that were sent to the client. -/
  output : Bytes := []
  deriving Repr, DecidableEq

namespace Caller

/-- The connection once a piece is framed. -/
def framed (caller : Caller) (piece : Bytes) : Connection :=
  let framed := caller.connection.framer.receive piece
  { caller.connection with
    framer := framed.framer, queue := caller.connection.queue ++ framed.tokens }

/-- A reply arrives.  Nobody waits for the number of keys that were swept. -/
def told (caller : Caller) : Reply → Caller
  | .executed left output => { caller with stage := .answered left output }
  | .swept _ => caller

/-- The tokens in a reply that is not taken yet. -/
def replied (caller : Caller) : List Bytes :=
  match caller.stage with
  | .answered left _ => left
  | _ => []

def undelivered (caller : Caller) : Bytes :=
  match caller.stage with
  | .answered _ output => output.getD []
  | _ => []

/-- What a client is told at last whose bytes could not be framed. -/
def farewell (caller : Caller) : Bytes :=
  match caller.stage with
  | .refused error => Connection.farewell error
  | _ => []

end Caller

/-- A worker with its engine, the requests that wait for it, and the connections. -/
structure Pool (Peer : Type) where
  engine : Engine
  channel : List (Letter Peer) := []
  callers : Peer → Caller
  /-- All requests so far, in order. -/
  posted : List (Letter Peer) := []
  /-- The requests that were served, in order. -/
  services : List (Service Peer) := []

namespace Pool

variable {Peer : Type} [DecidableEq Peer] {capacity : Nat} {pool : Pool Peer}

/-- New connections, and a worker with nothing to do. -/
def start (engine : Engine) : Pool Peer :=
  { engine, callers := fun _ => { connection := .start engine.limits false } }

def change (pool : Pool Peer) (peer : Peer) (caller : Caller) : Pool Peer :=
  { pool with callers := Function.update pool.callers peer caller }

def post (pool : Pool Peer) (letter : Letter Peer) : Pool Peer :=
  { pool with channel := pool.channel ++ [letter], posted := pool.posted ++ [letter] }

def read (pool : Pool Peer) (peer : Peer) (piece : Bytes) : Pool Peer :=
  let caller := pool.callers peer
  let connection := caller.framed piece
  let pieces := caller.pieces ++ [piece]
  let engine := { pool.engine with counters := pool.engine.counters.read piece.length }
  match (caller.connection.framer.receive piece).fault with
  | some error =>
    let refused := connection.refuse engine error
    { pool with engine := refused.engine }.change peer
      { connection, pieces, stage := .refused error, output := caller.output ++ refused.output }
  | none =>
    let stage := if connection.queue = [] then .reading else .handing
    { pool with engine }.change peer { caller with connection, pieces, stage }

def hand (pool : Pool Peer) (peer : Peer) : Pool Peer :=
  let caller := pool.callers peer
  (pool.post (.queue peer caller.connection.queue)).change peer
    { caller with connection := { caller.connection with queue := [] }, stage := .waiting }

/-- The worker serves a request, which leaves others in the channel. -/
def serve (pool : Pool Peer) (clock : Clock) (letter : Letter Peer)
    (others : List (Letter Peer)) : Pool Peer :=
  let service : Service Peer := ⟨letter, pool.engine, clock⟩
  let answer := pool.engine.serve clock letter.request
  let served :=
    { pool with
      engine := answer.2, channel := others, services := pool.services ++ [service] }
  match letter.sender? with
  | some peer => served.change peer ((pool.callers peer).told answer.1)
  | none => served

/-- A connection takes the reply, and sends the frames in it. -/
def deliver (pool : Pool Peer) (peer : Peer) (left : List Bytes) (output : Option Bytes) :
    Pool Peer :=
  let caller := pool.callers peer
  let taken : Connection.Outcome :=
    { connection := { caller.connection with queue := left }, engine := pool.engine }
  let sent := match output with
    | some frames => taken.send frames
    | none => taken
  { pool with engine := sent.engine }.change peer
    { caller with
      connection := sent.connection, stage := .reading, output := caller.output ++ sent.output }

/-- What can happen next.  The channel has room for as many requests as its capacity says. -/
inductive Step (capacity : Nat) : Pool Peer → Pool Peer → Prop where
  | read {pool : Pool Peer} {peer : Peer} {piece : Bytes}
      (reading : (pool.callers peer).stage = .reading) (some : piece ≠ [])
      (atOnce : piece.length ≤ Connection.readSize) : Step capacity pool (pool.read peer piece)
  | hand {pool : Pool Peer} {peer : Peer} (handing : (pool.callers peer).stage = .handing)
      (room : pool.channel.length < capacity) : Step capacity pool (pool.hand peer)
  | sweep {pool : Pool Peer} (room : pool.channel.length < capacity) :
      Step capacity pool (pool.post .sweep)
  | serve {pool : Pool Peer} {letter : Letter Peer} {others : List (Letter Peer)} (clock : Clock)
      (first : pool.channel = letter :: others) :
      Step capacity pool (pool.serve clock letter others)
  | deliver {pool : Pool Peer} {peer : Peer} {left : List Bytes} {output : Option Bytes}
      (answered : (pool.callers peer).stage = .answered left output) :
      Step capacity pool (pool.deliver peer left output)

def Reaches (capacity : Nat) : Pool Peer → Pool Peer → Prop :=
  Relation.ReflTransGen (Step capacity)

/-- The requests of one connection that are in the channel. -/
def flying (pool : Pool Peer) (peer : Peer) : List (Letter Peer) :=
  pool.channel.filter fun letter => letter.sender? = some peer

/-- The requests of one connection that were served. -/
def servicesOf (pool : Pool Peer) (peer : Peer) : List (Service Peer) :=
  pool.services.filter fun service => service.letter.sender? = some peer

/-- The tokens of one connection that wait: in its queue, in the channel, or in a reply. -/
def waiting (pool : Pool Peer) (peer : Peer) : List Bytes :=
  (pool.callers peer).connection.queue ++ (pool.flying peer).flatMap Letter.tokens ++
    (pool.callers peer).replied

section Change

@[simp] theorem callers_change_self (pool : Pool Peer) (peer : Peer) (caller : Caller) :
    (pool.change peer caller).callers peer = caller :=
  Function.update_self ..

theorem callers_change_of_ne {peer other : Peer} (another : other ≠ peer) (pool : Pool Peer)
    (caller : Caller) : (pool.change peer caller).callers other = pool.callers other :=
  Function.update_of_ne another ..

variable {peer : Peer} {piece : Bytes} {clock : Clock} {tokens : List Bytes}
  {others : List (Letter Peer)}

theorem read_of_fault {error : Frame.Error}
    (wrong : ((pool.callers peer).connection.framer.receive piece).fault = some error) :
    pool.read peer piece =
      let caller := pool.callers peer
      let refused := (caller.framed piece).refuse
        { pool.engine with counters := pool.engine.counters.read piece.length } error
      { pool with engine := refused.engine }.change peer
        { connection := caller.framed piece
          pieces := caller.pieces ++ [piece]
          stage := .refused error
          output := caller.output ++ refused.output } := by
  simp only [read, wrong]

theorem read_of_fine
    (fine : ((pool.callers peer).connection.framer.receive piece).fault = none) :
    pool.read peer piece =
      let caller := pool.callers peer
      { pool with
        engine :=
          { pool.engine with counters := pool.engine.counters.read piece.length } }.change peer
        { caller with
          connection := caller.framed piece
          pieces := caller.pieces ++ [piece]
          stage := if (caller.framed piece).queue = [] then .reading else .handing } := by
  simp only [read, fine]

theorem serve_sweep (pool : Pool Peer) (clock : Clock) (others : List (Letter Peer)) :
    pool.serve clock .sweep others =
      { pool with
        engine := (pool.engine.serve clock .sweep).2
        channel := others
        services := pool.services ++ [⟨.sweep, pool.engine, clock⟩] } :=
  rfl

theorem serve_queue (pool : Pool Peer) (clock : Clock) (peer : Peer) (tokens : List Bytes)
    (others : List (Letter Peer)) :
    pool.serve clock (.queue peer tokens) others =
      let service : Service Peer := ⟨.queue peer tokens, pool.engine, clock⟩
      { pool with
        engine := service.handled.engine
        channel := others
        services := pool.services ++ [service] }.change peer
        { pool.callers peer with
          stage := .answered service.handled.left service.handled.output } :=
  rfl

end Change

section Alone

/-- What a step of one connection led to, with nothing else going on. -/
structure Shows (pool later : Pool Peer) (peer : Peer) (outcome : Connection.Outcome) :
    Prop where
  channel : later.channel = []
  engine : later.engine = outcome.engine
  others : ∀ other, other ≠ peer → later.callers other = pool.callers other
  connection : (later.callers peer).connection = outcome.connection
  output : (later.callers peer).output = (pool.callers peer).output ++ outcome.output
  ending : outcome.ending =
    match (later.callers peer).stage with
    | .refused error => some (.protocol error)
    | _ => none

variable {peer : Peer} {piece : Bytes}

theorem reaches_dispatch (handing : (pool.callers peer).stage = .handing)
    (writes : (pool.callers peer).connection.readOnly = false)
    (queued : (pool.callers peer).connection.queue ≠ []) (quiet : pool.channel = [])
    (room : 0 < capacity) (clock : Clock) :
    ∃ later, Reaches capacity pool later ∧
      pool.Shows later peer ((pool.callers peer).connection.dispatch pool.engine clock true) := by
  let letter : Letter Peer := .queue peer (pool.callers peer).connection.queue
  let handled := pool.engine.handle clock false (pool.callers peer).connection.queue
  let served := (pool.hand peer).serve clock letter []
  have handed : Step capacity pool (pool.hand peer) := .hand handing (by rwa [quiet])
  have channel : (pool.hand peer).channel = [letter] := by
    simp [hand, post, change, quiet, letter]
  have answered : (served.callers peer).stage = .answered handled.left handled.output := by
    simp only [served, letter, serve_queue, callers_change_self]
    rfl
  refine ⟨_, ((Relation.ReflTransGen.single handed).tail (.serve clock channel)).tail
    (.deliver answered), ?_⟩
  have connection : (served.callers peer).connection =
      { (pool.callers peer).connection with queue := [] } := by
    simp [served, letter, serve_queue, hand]
  have output : (served.callers peer).output = (pool.callers peer).output := by
    simp [served, letter, serve_queue, hand]
  have others (other : Peer) (another : other ≠ peer) :
      served.callers other = pool.callers other := by
    simp only [served, letter, serve_queue, hand, callers_change_of_ne another, post]
  have engine : served.engine = handled.engine := rfl
  have dispatched : (pool.callers peer).connection.dispatch pool.engine clock true =
      let taken : Connection.Outcome :=
        { connection := { (pool.callers peer).connection with queue := handled.left }
          engine := handled.engine }
      match handled.output with
      | some frames => taken.send frames
      | none => taken := by
    have handles : pool.engine.handle clock (pool.callers peer).connection.readOnly
        (pool.callers peer).connection.queue = handled := by
      rw [writes]
    rw [Connection.dispatch, if_neg queued, if_pos (by simp)]
    exact handles ▸ rfl
  have taken : served.deliver peer handled.left handled.output =
      let outcome := (pool.callers peer).connection.dispatch pool.engine clock true
      { served with engine := outcome.engine }.change peer
        { served.callers peer with
          connection := outcome.connection
          stage := .reading
          output := (pool.callers peer).output ++ outcome.output } := by
    simp only [deliver, connection, output, engine, dispatched]
  rw [taken]
  refine ⟨rfl, rfl, ?_, ?_, ?_, ?_⟩
  · intro other another
    rw [callers_change_of_ne another]
    exact others other another
  · rw [callers_change_self]
  · rw [callers_change_self]
  · rw [callers_change_self, dispatched]
    cases handled.output <;> rfl

/-- With the others at rest and nothing in the channel, the steps of one connection come to what
`Connection.receive` does. -/
theorem reaches_receive (reading : (pool.callers peer).stage = .reading)
    (writes : (pool.callers peer).connection.readOnly = false) (quiet : pool.channel = [])
    (room : 0 < capacity) (some : piece ≠ []) (atOnce : piece.length ≤ Connection.readSize)
    (clock : Clock) :
    ∃ later, Reaches capacity pool later ∧ pool.Shows later peer
      ((pool.callers peer).connection.receive pool.engine clock true piece) := by
  have step : Step capacity pool (pool.read peer piece) := .read reading some atOnce
  cases fault : ((pool.callers peer).connection.framer.receive piece).fault with
  | some error =>
      refine ⟨_, .single step, ?_⟩
      simp only [read_of_fault fault, Connection.receive, fault]
      refine ⟨quiet, rfl, fun other another => callers_change_of_ne another _ _, ?_, ?_, ?_⟩ <;>
        rw [callers_change_self] <;> rfl
  | none =>
      let caller := pool.callers peer
      let engine := { pool.engine with counters := pool.engine.counters.read piece.length }
      have received : caller.connection.receive pool.engine clock true piece =
          (caller.framed piece).dispatch engine clock true := by
        simp only [Connection.receive, caller, fault]
        rfl
      have connection : ((pool.read peer piece).callers peer).connection = caller.framed piece := by
        rw [read_of_fine fault, callers_change_self]
      have output : ((pool.read peer piece).callers peer).output = caller.output := by
        rw [read_of_fine fault, callers_change_self]
      have others (other : Peer) (another : other ≠ peer) :
          (pool.read peer piece).callers other = pool.callers other := by
        rw [read_of_fine fault, callers_change_of_ne another]
      have engines : (pool.read peer piece).engine = engine := by
        rw [read_of_fine fault]
        rfl
      have channel : (pool.read peer piece).channel = [] := by
        rw [read_of_fine fault]
        exact quiet
      have stage : ((pool.read peer piece).callers peer).stage =
          if (caller.framed piece).queue = [] then .reading else .handing := by
        rw [read_of_fine fault, callers_change_self]
      rw [received]
      by_cases queued : (caller.framed piece).queue = []
      · rw [Connection.dispatch, if_pos queued]
        refine ⟨_, .single step, channel, engines, others, connection, ?_, ?_⟩
        · rw [output, List.append_nil]
        · rw [stage, if_pos queued]
      · rw [if_neg queued] at stage
        rcases @reaches_dispatch _ _ capacity _ peer stage (by rw [connection]; exact writes)
          (by rwa [connection]) channel room clock with ⟨later, run, shows⟩
        rw [connection, engines] at shows
        refine ⟨later, .head step run, shows.channel, shows.engine, ?_, shows.connection, ?_,
          shows.ending⟩
        · intro other another
          rw [shows.others other another, others other another]
        · rw [shows.output, output]

end Alone

end Pool

end Larder
