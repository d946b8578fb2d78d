import Larder.Framer
import Larder.Response
import Larder.Shell.Words

/-!
# Clients

A client sends a command as frames and reads one response.  Responses are read from a stream that
arrives in chunks; each read takes as much of the first chunk as the read buffer has room for.
Frames that are complete are kept for later, so responses come in the order of the stream.  A read
that cannot be framed to its end is answered with what is wrong; the frames in front of it are kept
all the same, and come after it.
-/

namespace Larder

/-- Why no connection to a server comes about. -/
inductive DialError where
  /-- Nobody listens there. -/
  | refused
  /-- There is no way to get there. -/
  | unreachable
  deriving Repr, DecidableEq

/-- The message about a connection that does not come about. -/
def DialError.message : DialError → String
  | .refused => "Connection refused (os error 111)"
  | .unreachable => "Network is unreachable (os error 101)"

structure Client where
  /-- The bytes that are not framed yet. -/
  framer : Framer := .ofLimits {}
  /-- The payloads of responses that are not asked for yet. -/
  frames : List Bytes := []
  /-- What is left in the read buffer by a read that could not be framed. -/
  buffer : Bytes := []
  capacity : Nat := 4096
  deriving Repr, DecidableEq

namespace Client

inductive Error where
  | dial (error : DialError)
  /-- The bytes of the server cannot be framed. -/
  | protocol (error : Frame.Error)
  | disconnected
  /-- The response is not the one that is due. -/
  | unexpected (response : Response)
  | usage (mistake : Shell.Usage)
  deriving Repr, DecidableEq

def Error.message : Error → String
  | .dial error => "connection failed: " ++ error.message
  | .protocol error => "protocol error: " ++ error.message
  | .disconnected => "server disconnected"
  | .unexpected response => "unexpected response: " ++ response.display
  | .usage mistake => mistake.message

/-- The client with room in its read buffer, which doubles when it is full. -/
def reserve (client : Client) : Client :=
  if client.buffer.length < client.capacity then client
  else { client with capacity := 2 * client.capacity }

/-- How many bytes are read at most; always at least one. -/
def room (client : Client) : Nat :=
  client.capacity - client.buffer.length - 1 + 1

/-- Takes in bytes that were read.  The read buffer is emptied once they are handed on, also if no
frame can begin with them, but not if they are too many. -/
def take (client : Client) (bytes : Bytes) : Option Frame.Error × Client :=
  let buffer := client.buffer ++ bytes
  let fed := client.framer.feed buffer
  match fed.overflow? with
  | some error => (some error, { client with framer := fed, buffer })
  | none =>
    let found := fed.drained
    (found.fault,
      { client with framer := fed.drain, frames := client.frames ++ found.tokens, buffer := [] })

/-- Reads the next response from the chunks of a stream.  An empty chunk and the lack of one both
read as the end of the stream. -/
def readResponse (client : Client) (stream : List Bytes) :
    Except Error Response × Client × List Bytes :=
  match client.frames with
  | payload :: frames => (.ok (Response.ofPayload payload), { client with frames }, stream)
  | [] =>
    match stream with
    | [] => (.error .disconnected, client, [])
    | [] :: later => (.error .disconnected, client, later)
    | (first :: others) :: later =>
      let ready := client.reserve
      let chunk := first :: others
      let left := chunk.drop ready.room
      let next := if left = [] then later else left :: later
      match ready.take (chunk.take ready.room) with
      | (some error, client) => (.error (.protocol error), client, next)
      | (none, client) => readResponse client next
termination_by (stream.flatten.length, stream.length)
decreasing_by
  split
  · next consumed =>
    simp only [List.flatten_cons, List.length_append, List.length_cons]
    exact Prod.Lex.left _ _ (by omega)
  · simp only [List.flatten_cons, List.length_append, List.length_cons, List.length_drop, room]
    exact Prod.Lex.left _ _ (by omega)

def pingTokens : List Bytes := [Bytes.ofText "PING"]

def checkPong : Except Error Response → Except Error Response
  | .ok .pong => .ok .pong
  | .ok other => .error (.unexpected other)
  | .error error => .error error

end Client

end Larder
