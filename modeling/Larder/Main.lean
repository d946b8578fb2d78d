import Larder.Main.Arguments
import Larder.Main.Session

/-!
# The command line

Runs the shell with a server in the same process, which lives as long as the shell does.
-/

namespace Larder

/-- The time of the process, in milliseconds; lifetimes are measured by it. -/
def readClock : IO Clock := do
  let elapsed ← IO.monoMsNow
  return { now := elapsed, elapsed }

/-- Prints what a shell has to say, and gives its exit code. -/
def emit (transcript : Shell.Transcript) : IO UInt32 := do
  IO.print transcript.output
  IO.eprint transcript.errors
  (← IO.getStdout).flush
  return UInt32.ofNat (transcript.code.getD 0)

/-- Reads lines and answers them until the session ends. -/
partial def converse (address : String) (link : Shell.Link) : IO UInt32 := do
  IO.print (Shell.prompt address)
  (← IO.getStdout).flush
  let line ← (← IO.getStdin).getLine
  if line.isEmpty then
    IO.println ""
    return 0
  else
    let clock ← readClock
    let ready := { link with server := link.server.advance clock }
    let text := (Shell.withoutBreak (Bytes.ofText line)).toText?
    let (turn, next) := Shell.answer ready clock text
    let code ← emit turn
    if turn.code.isSome then return code else converse address next

def runShell (invocation : Shell.Invocation) : IO UInt32 := do
  let clock ← readClock
  let link := Shell.Link.connect (Server.start {} clock) false
  match invocation, link with
  | .run host port [], some link => converse (Configuration.address host port) link
  | .run host port _, _ =>
    let address := Configuration.address host port
    let dialled := match link with
      | some link => .ok link
      | none => .error .refused
    emit (invocation.transcript address clock dialled [])
  | _, _ => emit (invocation.transcript "" clock (.error .refused) [])

end Larder

def main (arguments : List String) : IO UInt32 :=
  Larder.runShell (Larder.Shell.readArguments {} arguments)
