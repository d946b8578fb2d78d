import Larder.Frame

/-!
# Responses

Every command is answered by one frame.  A few payloads have a fixed meaning, two beginnings mark
errors, and everything else is a value; so a client cannot tell a text from a value, nor a value
that looks like a fixed payload from that payload.
-/

namespace Larder

inductive Response where
  | ok
  /-- The server is alive. -/
  | pong
  /-- There is no such key. -/
  | null
  | value (bytes : Bytes)
  | text (content : String)
  | error (code : String)
  /-- The connection is closed after this. -/
  | fatal (reason : String)
  deriving Repr, DecidableEq

namespace Response

def okPayload : Bytes := Bytes.ofText "OK"

def pongPayload : Bytes := Bytes.ofText "PONG"

def nullPayload : Bytes := Bytes.ofText "*NULL"

/-- How the payload of an error begins. -/
def errorMark : Bytes := Bytes.ofText "ERROR "

/-- How the payload of a fatal error begins. -/
def fatalMark : Bytes := Bytes.ofText "FATAL "

/-- The bytes that stand for a response. -/
def payload : Response → Bytes
  | .ok => okPayload
  | .pong => pongPayload
  | .null => nullPayload
  | .value bytes => bytes
  | .text content => Bytes.ofText content
  | .error code => errorMark ++ Bytes.ofText code
  | .fatal reason => fatalMark ++ Bytes.ofText reason

def encode (response : Response) : Bytes :=
  Frame.encode response.payload

/-- What a client takes a payload to mean. -/
def ofPayload (payload : Bytes) : Response :=
  if payload = okPayload then .ok
  else if payload = pongPayload then .pong
  else if payload = nullPayload then .null
  else
    match payload.after? errorMark with
    | some code => .error (Text.ofBytesLossy code)
    | none =>
      match payload.after? fatalMark with
      | some reason => .fatal (Text.ofBytesLossy reason)
      | none => .value payload

/-- Whether the command was refused or the connection is closed. -/
def isError : Response → Bool
  | .error _ | .fatal _ => true
  | _ => false

/-- Whether the connection is closed after the response. -/
def isFatal : Response → Bool
  | .fatal _ => true
  | _ => false

/-- How a response is shown to people. -/
def display : Response → String
  | .ok => "OK"
  | .pong => "PONG"
  | .null => "(nil)"
  | .value bytes =>
    match bytes.toText? with
    | some written => "\"" ++ written ++ "\""
    | none => "(binary data, " ++ toString bytes.length ++ " bytes)"
  | .text content => content
  | .error code => "(error) " ++ code
  | .fatal reason => "(fatal) " ++ reason

end Response

end Larder
