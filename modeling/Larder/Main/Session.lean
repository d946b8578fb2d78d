import Larder.Client
import Larder.Server
import Larder.Main.Arguments

/-!
# Shell sessions

A session is a client that is connected to a server.  A typed command is sent after a ping, so that
a server that is gone is noticed before anything is sent to it.  A session prints a prompt, reads a
line, and prints the response, until the input ends, the user leaves or the connection is lost.
-/

namespace Larder.Shell

/-- A client and the server that it is connected to. -/
structure Link where
  client : Client := {}
  server : Server
  connection : Connection
  isOpen : Bool := true
  /-- What is on its way to the client. -/
  incoming : List Bytes := []
  deriving Repr, DecidableEq

namespace Link

/-- Connects a client to a server that accepts the connection. -/
def connect (server : Server) (readOnly : Bool) : Option Link :=
  (server.connect readOnly).map fun (connection, server) => { server, connection }

/-- Sends the tokens of a command, and reads one response. -/
def send (link : Link) (clock : Clock) (tokens : List Bytes) :
    Except Client.Error Response × Link :=
  let sent :=
    if link.isOpen then
      let exchange := link.server.receive clock link.connection (Frame.encodeAll tokens)
      let incoming :=
        if exchange.output = [] then link.incoming else link.incoming ++ [exchange.output]
      { link with
        server := exchange.server
        connection := exchange.connection
        isOpen := exchange.ending.isNone
        incoming }
    else link
  let (result, client, incoming) := sent.client.readResponse sent.incoming
  (result, { sent with client, incoming })

def ping (link : Link) (clock : Clock) : Except Client.Error Response × Link :=
  let (result, link) := link.send clock Client.pingTokens
  (Client.checkPong result, link)

/-- Carries out a typed command, after a ping. -/
def request (link : Link) (clock : Clock) (words : List String) :
    Except Client.Error Response × Link :=
  match tokens words with
  | .error usage => (.error (.usage usage), link)
  | .ok tokens =>
    match link.ping clock with
    | (.error error, link) => (.error error, link)
    | (.ok _, link) => link.send clock (tokens.map Bytes.ofText)

end Link

/-- What a shell prints, and the code that it ends with. -/
structure Transcript where
  output : String := ""
  errors : String := ""
  /-- The exit code, once the shell has ended. -/
  code : Option Nat := none
  deriving Repr, DecidableEq

namespace Transcript

def print (transcript : Transcript) (line : String) : Transcript :=
  { transcript with output := transcript.output ++ line ++ "\n" }

def report (transcript : Transcript) (line : String) : Transcript :=
  { transcript with errors := transcript.errors ++ line ++ "\n" }

def leave (transcript : Transcript) (code : Nat) : Transcript :=
  { transcript with code := some code }

end Transcript

def errorLine (error : Client.Error) : String :=
  "error: " ++ error.message

def runOnce (link : Link) (clock : Clock) (words : List String) : Transcript :=
  match (link.request clock words).1 with
  | .ok response =>
    (({} : Transcript).print response.display).leave (if response.isError then 1 else 0)
  | .error error => (({} : Transcript).report (errorLine error)).leave 1

def isFarewell (word : String) : Bool :=
  lowerAscii word = "exit" || lowerAscii word = "quit"

def prompt (address : String) : String :=
  address ++ "> "

/-- What a session does with a line.  A line that is not text ends it. -/
def answer (link : Link) (clock : Clock) (line : Option String) : Transcript × Link :=
  let silent : Transcript := {}
  match line.map words with
  | none => ((silent.report "Error: stream did not contain valid UTF-8").leave 1, link)
  | some (.error usage) => (silent.print usage.message, link)
  | some (.ok []) => (silent, link)
  | some (.ok (word :: arguments)) =>
    if isFarewell word then (silent.leave 0, link)
    else
      match link.request clock (word :: arguments) with
      | (.ok response, link) =>
        let printed := silent.print response.display
        (if response.isFatal then printed.leave 0 else printed, link)
      | (.error (.usage usage), link) => (silent.print usage.message, link)
      | (.error error, link) => ((silent.report (errorLine error)).leave 0, link)

/-- Runs a session over some lines, after what was printed before. -/
def converse (address : String) (clock : Clock) (link : Link) (printed : Transcript) :
    List (Option String) → Transcript
  | [] => ({ printed with output := printed.output ++ prompt address }.print "").leave 0
  | line :: lines =>
    let (turn, link) := answer link clock line
    let printed : Transcript :=
      { output := printed.output ++ prompt address ++ turn.output
        errors := printed.errors ++ turn.errors
        code := turn.code }
    match turn.code with
    | some _ => printed
    | none => converse address clock link printed lines

/-- The line without a line break at its end. -/
def withoutBreak (line : Bytes) : Bytes :=
  match line.reverse with
  | 10 :: 13 :: rest => rest.reverse
  | 10 :: rest => rest.reverse
  | _ => line

/-- Splits bytes behind each line feed, after a line that is given in reverse order. -/
def splitLines (line : Bytes) : Bytes → List Bytes
  | [] => if line = [] then [] else [line.reverse]
  | byte :: rest =>
    if byte = 10 then (byte :: line).reverse :: splitLines [] rest
    else splitLines (byte :: line) rest

/-- The lines of an input; those that are not text are none. -/
def lines (input : Bytes) : List (Option String) :=
  (splitLines [] input).map fun line => (withoutBreak line).toText?

/-- Runs a shell: one command if there is one, and a session over the input if not.  Without a
connection it says why, and ends. -/
def run (address : String) (clock : Clock) (dialled : Except DialError Link)
    (command : List String) (input : Bytes) : Transcript :=
  match dialled with
  | .error error =>
    let silent : Transcript := {}
    (silent.report
      ("could not connect to " ++ address ++ ": " ++ (Client.Error.dial error).message)).leave 1
  | .ok link =>
    if command = [] then converse address clock link {} (lines input)
    else runOnce link clock command

def Invocation.transcript (invocation : Invocation) (address : String) (clock : Clock)
    (dialled : Except DialError Link) (input : Bytes) : Transcript :=
  let silent : Transcript := {}
  match invocation with
  | .run _ _ command => Shell.run address clock dialled command input
  | .explain notice => { silent with output := notice.text }.leave 0
  | .invalid error => { silent with errors := error.message }.leave 2

end Larder.Shell
