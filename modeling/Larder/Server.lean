import Larder.Configuration
import Larder.Connection
import Larder.Snapshot.Pass
import Larder.Timer
import Larder.Worker

/-!
# Servers

A server restores the stashes that were saved, accepts connections, sweeps and saves from time to
time, and saves a last time when it stops.
-/

namespace Larder

structure Server where
  readOnlyListener : Bool := false
  working : Bool := true
  engine : Engine
  disk : Disk := {}
  sweeper : Option Sweeper := none
  scheduler : Option Scheduler := none
  deriving Repr, DecidableEq

namespace Server

/-- An engine over the default stash only. -/
def freshEngine (settings : Configuration) (persistent : Bool) (clock : Clock) : Engine :=
  { registry := .start clock.now settings.maxStashes settings.defaults persistent
    limits := settings.limits
    counters := { started := clock.elapsed } }

/-- A server without timers that saves nothing. -/
def idle (settings : Configuration) (clock : Clock) : Server :=
  { readOnlyListener := settings.readOnlyPort.isSome
    engine := freshEngine settings false clock }

/-- Starts a server that saves nothing. -/
def start (settings : Configuration) (clock : Clock) : Server :=
  { idle settings clock with sweeper := some (.start clock.elapsed settings.sweepInterval) }

/-- Starts a server that saves stashes and restores those that were saved. -/
def startPersistent (settings : Configuration) (disk : Disk) (clock : Clock) :
    Except Snapshot.Error Server :=
  match Archive.prepare disk with
  | (.error error, _) => .error (.file error)
  | (.ok (), disk) => do
    let images ← Archive.loadAll disk.directory clock.now
    let engine := freshEngine settings true clock
    let (_, registry) := engine.registry.restore clock.now images
    return { start settings clock with
      engine := { engine with registry }
      disk
      scheduler := Scheduler.start? clock.elapsed settings.snapshotInterval }

def withRegistry (server : Server) (registry : Registry) : Server :=
  { server with engine := { server.engine with registry } }

def settle (server : Server) : Server :=
  let (registry, disk) := server.engine.registry.runDeletions server.disk
  { server.withRegistry registry with disk }

def savePass (server : Server) (clock : Clock) : Server :=
  let (_, registry, disk) := server.engine.registry.saveDirty server.disk clock.now
  { server.withRegistry registry with disk }

/-- Sweeps all stashes, if there is a worker, and counts the keys that are taken out. -/
def sweep (server : Server) (clock : Clock) : Option (Nat × Server) :=
  if server.working then
    let (count, engine) := server.engine.sweep clock
    some (count, { server with engine })
  else none

/-- Sweeps if it is time.  A sweeper stops when the worker is gone. -/
def runSweeper (server : Server) (clock : Clock) : Server :=
  match server.sweeper with
  | none => server
  | some sweeper =>
    if sweeper.isDue clock.elapsed then
      match server.sweep clock with
      | some (_, next) => { next with sweeper := some (sweeper.pause clock.elapsed) }
      | none => { server with sweeper := none }
    else server

/-- Makes up for all passes that are due. -/
def runScheduler (server : Server) (clock : Clock) : Server :=
  match server.scheduler with
  | none => server
  | some scheduler =>
    let passes := scheduler.due clock.elapsed
    let saved := (List.range passes).foldl (fun server _ => server.savePass clock) server
    { saved with scheduler := some (scheduler.after passes) }

/-- Does what is due after time has passed. -/
def advance (server : Server) (clock : Clock) : Server :=
  (server.runSweeper clock).runScheduler clock

/-- Stops the server, whose scheduler, if there is one, saves a last time.  What remains is the
disk. -/
def stop (server : Server) (clock : Clock) : Disk :=
  match server.scheduler with
  | none => server.disk
  | some _ => (server.savePass clock).settle.disk

/-- Accepts a connection, if there is a listener for its kind. -/
def connect (server : Server) (readOnly : Bool) : Option (Connection × Server) :=
  if readOnly && !server.readOnlyListener then none
  else
    let engine := { server.engine with counters := server.engine.counters.connectionOpened }
    some (.start server.engine.limits readOnly, { server with engine })

/-- What becomes of a server and a connection. -/
structure Exchange where
  server : Server
  connection : Connection
  /-- The bytes that are sent to the client. -/
  output : Bytes := []
  ending : Option Connection.Ending := none
  deriving Repr, DecidableEq

def Exchange.closed (exchange : Exchange) : Exchange :=
  let server := exchange.server
  match exchange.ending with
  | none => exchange
  | some _ =>
    let engine := { server.engine with counters := server.engine.counters.connectionClosed }
    { exchange with server := { server with engine } }

/-- Takes in what a client sends, as much at once as is read at once. -/
def receive (server : Server) (clock : Clock) (connection : Connection) (bytes : Bytes) :
    Exchange :=
  let outcome := connection.receiveAll server.engine clock server.working
    (bytes.chunks Connection.readSize)
  let exchange : Exchange :=
    { server := { server with engine := outcome.engine }.settle
      connection := outcome.connection
      output := outcome.output
      ending := outcome.ending }
  exchange.closed

def leave (server : Server) (connection : Connection) : Exchange :=
  let exchange : Exchange := { server, connection, ending := some connection.atEnd }
  exchange.closed

end Server

end Larder
