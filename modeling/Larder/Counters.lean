import Larder.Registry

/-!
# Counters

What a server counts while it runs.  Counters have 64 bits and wrap around.

Lifetimes follow the wall clock, which may be set; running times and pauses follow a clock that
only moves forward.
-/

namespace Larder

/-- The readings of both clocks, in milliseconds. -/
structure Clock where
  /-- The wall clock, since the epoch. -/
  now : Nat
  /-- The clock that only moves forward. -/
  elapsed : Nat := 0
  deriving Repr, DecidableEq

structure Counters where
  connectionsAccepted : UInt64 := 0
  activeConnections : UInt64 := 0
  commandsProcessed : UInt64 := 0
  commandErrors : UInt64 := 0
  bytesRead : UInt64 := 0
  bytesWritten : UInt64 := 0
  keysExpired : UInt64 := 0
  /-- When counting began, on the clock that only moves forward. -/
  started : Nat := 0
  deriving Repr, DecidableEq

namespace Counters

def version : String := "0.1.0"

def connectionOpened (counters : Counters) : Counters :=
  { counters with
    connectionsAccepted := counters.connectionsAccepted + 1
    activeConnections := counters.activeConnections + 1 }

def connectionClosed (counters : Counters) : Counters :=
  { counters with activeConnections := counters.activeConnections - 1 }

/-- One more command, which may have been refused. -/
def commandAnswered (counters : Counters) (refused : Bool) : Counters :=
  { counters with
    commandsProcessed := counters.commandsProcessed + 1
    commandErrors := counters.commandErrors + if refused then 1 else 0 }

def read (counters : Counters) (count : Nat) : Counters :=
  { counters with bytesRead := counters.bytesRead + UInt64.ofNat count }

def written (counters : Counters) (count : Nat) : Counters :=
  { counters with bytesWritten := counters.bytesWritten + UInt64.ofNat count }

def swept (counters : Counters) (count : Nat) : Counters :=
  { counters with keysExpired := counters.keysExpired + UInt64.ofNat count }

def render (counters : Counters) (clock : Clock) (registry : Registry) : String :=
  String.join
    ["# Server\r\n",
      "stashkv_version:", version, "\r\n",
      "uptime_in_seconds:", toString ((clock.elapsed - counters.started) / 1000), "\r\n",
      "\r\n",
      "# Clients\r\n",
      "connections_accepted:", toString counters.connectionsAccepted, "\r\n",
      "active_connections:", toString counters.activeConnections, "\r\n",
      "\r\n",
      "# Stats\r\n",
      "commands_processed:", toString counters.commandsProcessed, "\r\n",
      "command_errors:", toString counters.commandErrors, "\r\n",
      "bytes_read:", toString counters.bytesRead, "\r\n",
      "bytes_written:", toString counters.bytesWritten, "\r\n",
      "keys_expired:", toString counters.keysExpired, "\r\n",
      "\r\n",
      "# Keyspace\r\n",
      "stashes:", toString registry.names.size, "\r\n",
      "max_stashes:", toString registry.limit, "\r\n",
      "keys:", toString registry.totalKeys, "\r\n"]

end Counters

end Larder
