import Larder.Configuration
import Larder.Decimal
import Larder.Main.Usage

/-!
# Arguments of the command line

Options come first; the first argument that is none begins the command, and everything behind it
belongs to the command, whatever it looks like.  An option and its value are held back until
something else is read, and only then does the option get its value; a fault in what is held back
is reported then.
-/

namespace Larder.Shell

/-- What the shell is asked to do. -/
inductive Invocation where
  /-- To run a command, or a session if there is none, with the server at an address. -/
  | run (host : String) (port : Nat) (command : List String)
  | explain (notice : Notice)
  | invalid (error : ArgumentError)
  deriving Repr, DecidableEq

inductive Argument where
  | separator
  /-- An option by its name, with what follows an equals sign. -/
  | long (name : String) (value : Option String)
  /-- An option by its letter, with what follows the letter. -/
  | short (letter : Char) (rest : List Char)
  /-- A value, or the beginning of the command. -/
  | word
  deriving Repr, DecidableEq

/-- Tells what an argument looks like.  A dash alone is a word. -/
def Argument.ofText (text : String) : Argument :=
  match text.toList with
  | ['-', '-'] => .separator
  | '-' :: '-' :: characters =>
    let name := characters.takeWhile (· ≠ '=')
    let value := match characters.drop name.length with
      | [] => none
      | _ :: value => some (String.ofList value)
    .long (String.ofList name) value
  | '-' :: letter :: rest => .short letter rest
  | _ => .word

/-- The value that follows the letter of an option in the same argument, without an equals sign
in front of it. -/
def attached? : List Char → Option String
  | [] => none
  | '=' :: value => some (String.ofList value)
  | value => some (String.ofList value)

def readPort (value : String) : Except PortError Nat :=
  let bytes := Bytes.ofText value
  let (negative, digits) : Bool × Bytes := match bytes with
    | 43 :: rest => (false, rest)
    | 45 :: rest => (true, rest)
    | _ => (false, bytes)
  if bytes = [] then .error .empty
  else
    match Decimal.digits? digits with
    | none => .error .noNumber
    | some number =>
      if negative then
        if number = 0 then .ok 0
        else if number ≤ Word64.signedBound then .error (.outOfRange (-number)) else .error .tooSmall
      else if number < 65536 then .ok number
      else if number < Word64.signedBound then .error (.outOfRange number) else .error .tooLarge

/-- The options, as far as they have been read. -/
structure Options where
  host : Option String := none
  port : Option Nat := none
  /-- The options that have their value, in the order in which they got it. -/
  used : List ValueOption := []
  /-- Whether any option ever got its value. -/
  begun : Bool := false
  /-- The option that was read last, with its value if that was read too. -/
  pending : Option (ValueOption × Option String) := none
  deriving Repr, DecidableEq

namespace Options

/-- Gives an option its value.  An option that has one already loses its place. -/
def give (options : Options) (option : ValueOption) (value : String) :
    Option ArgumentError × Options :=
  if options.used.contains option then
    (some (.repeated option), { options with used := options.used.erase option })
  else
    let next := { options with used := options.used ++ [option], begun := true }
    match option with
    | .host => (none, { next with host := some value })
    | .port =>
      match readPort value with
      | .ok port => (none, { next with port := some port })
      | .error error => (some (.invalidPort value error), next)

/-- Gives the option that was read last its value. -/
def settle (options : Options) : Option ArgumentError × Options :=
  match options.pending with
  | none => (none, options)
  | some (option, none) => (some (.valueMissing option), options)
  | some (option, some value) => { options with pending := none }.give option value

/-- Goes on reading, unless something is wrong. -/
def proceed : Option ArgumentError × Options → Except Invocation Options
  | (none, next) => .ok next
  | (some error, _) => .error (.invalid error)

/-- Prints a notice, if nothing before it is wrong. -/
def explain (options : Options) (notice : Notice) : Invocation :=
  match options.settle with
  | (none, _) => .explain notice
  | (some error, _) => .invalid error

/-- Takes in an option, with its value if that is part of the same argument. -/
def take (options : Options) (option : ValueOption) (value : Option String) :
    Except Invocation Options := do
  let settled ← proceed options.settle
  match value with
  | none => return { settled with pending := some (option, none) }
  | some value => proceed (settled.give option value)

/-- Takes in an option that is given by its name.  What is wrong before a name that is not known is
not reported. -/
def takeName (options : Options) (name : String) (value : Option String) :
    Except Invocation Options :=
  match Switch.named? name, value with
  | some (.withValue option), value => options.take option value
  | some (.forNotice notice), none => .error (options.explain notice)
  | some (.forNotice notice), some value =>
    .error (.invalid (.valueUnexpected notice value options.begun))
  | none, _ => .error (.invalid (.unknownName name options.settle.2.used))

/-- Takes in an option that is given by its letter. -/
def takeLetter (options : Options) (letter : Char) (rest : List Char) :
    Except Invocation Options :=
  match Switch.lettered? letter with
  | some (.withValue option) => options.take option (attached? rest)
  | some (.forNotice notice) => .error (options.explain notice)
  | none => .error (.invalid (.unknownLetter letter))

/-- Ends the options in front of a command. -/
def finish (options : Options) (command : List String) : Invocation :=
  let settings : Configuration := {}
  match options.settle with
  | (none, last) =>
    .run (last.host.getD settings.host) (last.port.getD settings.port) command
  | (some error, _) => .invalid error

end Options

/-- Reads the arguments of the command line. -/
def readArguments (options : Options) : List String → Invocation
  | [] => options.finish []
  | argument :: arguments =>
    let follow (step : Except Invocation Options) : Invocation :=
      match step with
      | .ok next => readArguments next arguments
      | .error invocation => invocation
    match Argument.ofText argument, options.pending with
    | .separator, _ => options.finish arguments
    | .long name value, _ => follow (options.takeName name value)
    | .short letter rest, _ => follow (options.takeLetter letter rest)
    | .word, some (option, none) =>
      readArguments { options with pending := some (option, some argument) } arguments
    | .word, _ => options.finish (argument :: arguments)

end Larder.Shell
