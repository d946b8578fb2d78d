import Larder.Framer
import Larder.Engine

/-!
# Connections

A connection frames what a client sends, has complete commands answered and sends the responses.
A connection that may write leaves its commands to the worker; one that only reads answers them by
itself.  When the bytes cannot be framed, the client is told so and the connection ends.
-/

namespace Larder

structure Connection where
  readOnly : Bool
  /-- The bytes that are not framed yet. -/
  framer : Framer
  /-- The tokens that are not part of a complete command yet. -/
  queue : List Bytes := []
  deriving Repr, DecidableEq

namespace Connection

/-- The most bytes that are read at once. -/
def readSize : Nat := 4096

inductive Ending where
  /-- The bytes of the client cannot be framed; or to frame them is a crash. -/
  | protocol (error : Frame.Error)
  | workerUnavailable
  /-- The client left, and owes nothing. -/
  | clientDisconnected
  /-- The client left in the middle of a frame or a command. -/
  | unexpectedEnd
  deriving Repr, DecidableEq

/-- The message about a worker that is gone. -/
def workerUnavailableMessage : String := "writer unavailable"

def Ending.message : Ending → String
  | .protocol error => "protocol error: " ++ error.message
  | .workerUnavailable => workerUnavailableMessage
  | .clientDisconnected => "Client disconnected"
  | .unexpectedEnd => "Unexpected end of stream"

/-- A new connection to a server that accepts the given sizes. -/
def start (limits : Limits) (readOnly : Bool) : Connection :=
  { readOnly, framer := .ofLimits limits }

/-- What a connection does in one step. -/
structure Outcome where
  connection : Connection
  engine : Engine
  /-- The bytes that are sent to the client. -/
  output : Bytes := []
  ending : Option Ending := none
  deriving Repr, DecidableEq

def Outcome.send (outcome : Outcome) (bytes : Bytes) : Outcome :=
  { outcome with
    output := outcome.output ++ bytes
    engine := { outcome.engine with
      counters := outcome.engine.counters.written bytes.length } }

/-- Has the complete commands at the front of the queue answered.  Commands that may change
something need the worker. -/
def dispatch (connection : Connection) (engine : Engine) (clock : Clock) (working : Bool) :
    Outcome :=
  if connection.queue = [] then { connection, engine }
  else if connection.readOnly || working then
    let handled := engine.handle clock connection.readOnly connection.queue
    let next : Outcome :=
      { connection := { connection with queue := handled.left }, engine := handled.engine }
    match handled.output with
    | some frames => next.send frames
    | none => next
  else
    { connection := { connection with queue := [] }, engine, ending := some .workerUnavailable }

/-- What a client is told whose bytes cannot be framed.  After a crash nobody tells it. -/
def farewell : Frame.Error → Bytes
  | .crash => []
  | error => (Response.fatal error.message).encode

theorem farewell_of_ne_crash {error : Frame.Error} (calm : error ≠ .crash) :
    farewell error = (Response.fatal error.message).encode := by
  cases error with
  | crash => exact absurd rfl calm
  | _ => rfl

/-- Ends a connection whose bytes cannot be framed. -/
def refuse (connection : Connection) (engine : Engine) (error : Frame.Error) : Outcome :=
  let told : Outcome := { connection, engine }
  { told.send (farewell error) with ending := some (.protocol error) }

/-- Takes in some bytes that were read at once.  Tokens that stand in front of bytes that cannot
be framed are not answered. -/
def receive (connection : Connection) (engine : Engine) (clock : Clock) (working : Bool)
    (bytes : Bytes) : Outcome :=
  let engine := { engine with counters := engine.counters.read bytes.length }
  let framed := connection.framer.receive bytes
  let next :=
    { connection with framer := framed.framer, queue := connection.queue ++ framed.tokens }
  match framed.fault with
  | some error => refuse next engine error
  | none => next.dispatch engine clock working

/-- Why a connection ends whose client left. -/
def atEnd (connection : Connection) : Ending :=
  if connection.framer.pending = [] ∧ connection.queue = [] then .clientDisconnected
  else .unexpectedEnd

/-- Takes in bytes that are read in several pieces, until the connection ends. -/
def receiveAll (connection : Connection) (engine : Engine) (clock : Clock) (working : Bool)
    (pieces : List Bytes) : Outcome :=
  pieces.foldl
    (fun outcome piece =>
      match outcome.ending with
      | some _ => outcome
      | none =>
        let next := outcome.connection.receive outcome.engine clock working piece
        { next with output := outcome.output ++ next.output })
    { connection, engine }

end Connection

end Larder
