import Larder.Limits

/-!
# Server configuration

Where a server listens, how many stashes it keeps, and how often it sweeps and saves.
-/

namespace Larder

structure Configuration where
  /-- The address that both listeners are bound to. -/
  host : String := "127.0.0.1"
  port : Nat := 7070
  /-- The port for connections that only read, if there is one. -/
  readOnlyPort : Option Nat := none
  /-- How many stashes there may be, the default one included. -/
  maxStashes : Nat := 64
  defaults : StashDefaults := {}
  limits : Limits := {}
  /-- Milliseconds between two saves of the stashes that changed. -/
  snapshotInterval : Nat := 60000
  /-- Milliseconds between two sweeps for keys whose lifetime is over. -/
  sweepInterval : Nat := 1000
  deriving Repr

namespace Configuration

/-- A host and a port as one text. -/
def address (host : String) (port : Nat) : String :=
  host ++ ":" ++ toString port

/-- Where connections that may write are accepted. -/
def bindAddress (configuration : Configuration) : String :=
  address configuration.host configuration.port

/-- Where connections that only read are accepted. -/
def readOnlyAddress (configuration : Configuration) : Option String :=
  configuration.readOnlyPort.map (address configuration.host)

end Configuration

end Larder
