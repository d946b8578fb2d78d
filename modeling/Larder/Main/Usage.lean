import Larder.Main.Controls
import Larder.Main.Likeness

/-!
# Usage of the shell

The options of the command line, what is printed about them, and what is said about arguments that
are wrong.  Such arguments are shown without controls.  This and the reading of arguments are for
the program that `Larder.Main` makes; nothing else rests on them.
-/

namespace Larder.Shell

def programName : String := "stashkv-cli"

def programVersion : String := "0.1.0"

inductive ValueOption where
  | host
  | port
  deriving Repr, DecidableEq

/-- An option that asks for a notice. -/
inductive Notice where
  | help
  | version
  deriving Repr, DecidableEq

inductive Switch where
  | withValue (option : ValueOption)
  | forNotice (notice : Notice)
  deriving Repr, DecidableEq

/-- How an option is shown that takes a value. -/
def ValueOption.shown : ValueOption → String
  | .host => "--host <HOST>"
  | .port => "--port <PORT>"

namespace Switch

def all : List Switch :=
  [.withValue .host, .withValue .port, .forNotice .help, .forNotice .version]

/-- The name that stands behind two dashes. -/
def name : Switch → String
  | .withValue .host => "host"
  | .withValue .port => "port"
  | .forNotice .help => "help"
  | .forNotice .version => "version"

/-- The letter that stands behind one dash. -/
def letter : Switch → Char
  | .withValue .host => 'H'
  | .withValue .port => 'p'
  | .forNotice .help => 'h'
  | .forNotice .version => 'V'

def shown : Switch → String
  | .withValue option => option.shown
  | .forNotice notice => "--" ++ (forNotice notice).name

def named? (name : String) : Option Switch :=
  all.find? (·.name == name)

def lettered? (letter : Char) : Option Switch :=
  all.find? (·.letter == letter)

/-- The option that a name which is none was meant for: more than seven tenths of it agree. -/
def meant? (name : String) : Option Switch :=
  (Likeness.closest? 0.7 name (all.map Switch.name)).bind named?

end Switch

/-- The line about the usage, with what stands in front of the command. -/
def usageWith (options : List String) : String :=
  " ".intercalate (["Usage:", programName] ++ options ++ ["[COMMAND]..."])

def usageLine : String := usageWith ["[OPTIONS]"]

def helpText : String :=
  String.join
    ["An in-memory key-value server with named, independently limited stashes\n\n",
      usageLine, "\n\n",
      "Arguments:\n",
      "  [COMMAND]...  Command to run once. If omitted, starts the REPL\n\n",
      "Options:\n",
      "  -H, --host <HOST>  Server host [default: 127.0.0.1]\n",
      "  -p, --port <PORT>  Server port [default: 7070]\n",
      "  -h, --help         Print help\n",
      "  -V, --version      Print version\n"]

def Notice.text : Notice → String
  | .help => helpText
  | .version => programName ++ " " ++ programVersion ++ "\n"

inductive PortError where
  | empty
  | noNumber
  /-- The number is not below 2^63. -/
  | tooLarge
  /-- The number is below -2^63. -/
  | tooSmall
  | outOfRange (number : Int)
  deriving Repr, DecidableEq

/-- The message about a text that is no port. -/
def PortError.message : PortError → String
  | .empty => "cannot parse integer from empty string"
  | .noNumber => "invalid digit found in string"
  | .tooLarge => "number too large to fit in target type"
  | .tooSmall => "number too small to fit in target type"
  | .outOfRange number => toString number ++ " is not in 0..=65535"

inductive ArgumentError where
  | valueMissing (option : ValueOption)
  | invalidPort (value : String) (error : PortError)
  | repeated (option : ValueOption)
  /-- An option that takes no value has one.  The usage depends on whether any option got its
  value before. -/
  | valueUnexpected (notice : Notice) (value : String) (begun : Bool)
  /-- No option has the name.  The usage shows the options that have their value. -/
  | unknownName (name : String) (used : List ValueOption)
  | unknownLetter (letter : Char)
  deriving Repr, DecidableEq

namespace ArgumentError

/-- What is said about an argument that is not known, with a hint at the option that was meant. -/
def unexpected (argument : String) (meant : Option Switch) (usage : String) : String :=
  let shown := Controls.shown argument
  let hint := match meant with
    | some switch => "  tip: a similar argument exists: '--" ++ switch.name ++ "'\n"
    | none => ""
  "unexpected argument '" ++ shown ++ "' found\n\n" ++ hint ++ "  tip: to pass '" ++ shown ++
    "' as a value, use '-- " ++ shown ++ "'\n\n" ++ usage

/-- The usage of the options that have their value, and of the one that was meant. -/
def usageOf (used : List ValueOption) (meant : Option Switch) : String :=
  let switches := used.map Switch.withValue
  let shown := switches ++ meant.toList.filter (!switches.contains ·)
  if shown = [] then usageLine else usageWith (shown.map Switch.shown)

def reason : ArgumentError → String
  | .valueMissing option =>
    "a value is required for '" ++ option.shown ++ "' but none was supplied"
  | .invalidPort value error =>
    let value := match error with
      | .outOfRange number => toString number
      | _ => Controls.shown value
    "invalid value '" ++ value ++ "' for '" ++ ValueOption.port.shown ++ "': " ++ error.message
  | .repeated option =>
    "the argument '" ++ option.shown ++ "' cannot be used multiple times\n\n" ++ usageLine
  | .valueUnexpected notice value begun =>
    let shown := (Switch.forNotice notice).shown
    let usage :=
      if begun then
        "Usage: " ++ programName ++ " " ++ shown ++ " <--host <HOST>|--port <PORT>|COMMAND>"
      else usageWith [shown]
    "unexpected value '" ++ Controls.shown value ++ "' for '" ++ shown ++
      "' found; no more were expected\n\n" ++ usage
  | .unknownName name used =>
    let meant := Switch.meant? name
    unexpected ("--" ++ name) meant (usageOf used meant)
  | .unknownLetter letter => unexpected ("-" ++ letter.toString) none usageLine

def message (error : ArgumentError) : String :=
  "error: " ++ error.reason ++ "\n\nFor more information, try '--help'.\n"

end ArgumentError

end Larder.Shell
