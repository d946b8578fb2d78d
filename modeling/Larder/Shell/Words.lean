/-!
# Command lines

A line is split into words at spaces and tabs.  Double quotes group what stands between them, also
in the middle of a word, and between quotes a backslash takes the next character as it is.  The
words become the tokens of a command by a table of their own: how many words the name of a command
takes, and whether options follow.
-/

namespace Larder.Shell

/-- How a command is typed, and what is sent for it. -/
structure Form where
  /-- The name in small letters; it may be typed in letters of either case. -/
  typed : String
  /-- The name as it is sent. -/
  name : String
  /-- How many words follow the name. -/
  arity : Nat
  /-- Whether options may follow these words; their count is sent in front of them. -/
  hasOptions : Bool
  usage : String
  deriving Repr, DecidableEq

def forms : List Form :=
  [⟨"ping", "PING", 0, false, "ping"⟩,
    ⟨"get", "GET", 1, true, "get <key> [name=x]"⟩,
    ⟨"set", "SET", 2, true, "set <key> <value> [name=x] [ttl=ms]"⟩,
    ⟨"delete", "DELETE", 1, true, "delete <key> [name=x]"⟩,
    ⟨"expire", "EXPIRE", 2, true, "expire <key> <ttl_ms> [name=x]"⟩,
    ⟨"create", "CREATE", 1, true, "create <name> [off_heap=b] [max_keys=k] [snapshots=b]"⟩,
    ⟨"drop", "DROP", 1, false, "drop <name>"⟩,
    ⟨"info", "INFO", 0, true, "info [name=x]"⟩,
    ⟨"stats", "STATS", 0, false, "stats"⟩]

/-- Why a line is not a command. -/
inductive Usage where
  | unmatchedQuote
  /-- A backslash between quotes has nothing to take. -/
  | trailingBackslash
  | emptyCommand
  /-- The first word, in small letters, is no command. -/
  | unknownCommand (name : String)
  | mismatch (form : Form)
  /-- A word should be an option and has no equals sign. -/
  | notAnOption (word : String)
  deriving Repr, DecidableEq

/-- The message about a line that is not a command. -/
def Usage.message : Usage → String
  | .unmatchedQuote => "unmatched double quote"
  | .trailingBackslash => "trailing backslash"
  | .emptyCommand => "empty command"
  | .unknownCommand name => "unknown command '" ++ name ++ "'"
  | .mismatch form => "usage: " ++ form.usage
  | .notAnOption word => "expected key=value, got '" ++ word ++ "'"

def isBlank (character : Char) : Bool :=
  character = ' ' || character = '\t'

/-- Where the reading of a line stands. -/
structure Reading where
  /-- The words that are complete, the last one first. -/
  words : List String := []
  /-- The characters of the word that is begun, the last one first. -/
  word : Option (List Char) := none

namespace Reading

def push (reading : Reading) (character : Char) : Reading :=
  { reading with word := some (character :: reading.word.getD []) }

/-- The word is begun, though it may have no characters. -/
def start (reading : Reading) : Reading :=
  { reading with word := some (reading.word.getD []) }

/-- The word is complete, if one is begun. -/
def finish (reading : Reading) : Reading :=
  match reading.word with
  | some characters => { words := String.ofList characters.reverse :: reading.words }
  | none => reading

end Reading

def readWords (quoted : Bool) (reading : Reading) : List Char → Except Usage (List String)
  | [] => if quoted then .error .unmatchedQuote else .ok reading.finish.words.reverse
  | character :: rest =>
    if quoted then
      if character = '"' then readWords false reading rest
      else if character = '\\' then
        match rest with
        | [] => .error .trailingBackslash
        | escaped :: rest => readWords true (reading.push escaped) rest
      else readWords true (reading.push character) rest
    else if isBlank character then readWords false reading.finish rest
    else if character = '"' then readWords true reading.start rest
    else readWords false (reading.push character) rest

def words (line : String) : Except Usage (List String) :=
  readWords false {} line.toList

/-- An ASCII letter in its small form; every other character as it is. -/
def lowerAscii (text : String) : String :=
  text.map Char.toLower

/-- An ASCII letter in its capital form; every other character as it is. -/
def upperAscii (text : String) : String :=
  text.map Char.toUpper

/-- The form of the command whose name is typed. -/
def form? (word : String) : Option Form :=
  forms.find? (·.typed = lowerAscii word)

/-- The token of an option that is typed as `key=value`: its key in capital letters. -/
def optionToken (word : String) : Except Usage String :=
  let key := word.toList.takeWhile (· ≠ '=')
  let rest := word.toList.dropWhile (· ≠ '=')
  if rest = [] then .error (.notAnOption word)
  else .ok (upperAscii (String.ofList key) ++ String.ofList rest)

/-- The tokens of the command that some words make up, with the count of its options. -/
def tokens : List String → Except Usage (List String)
  | [] => .error .emptyCommand
  | word :: arguments =>
    match form? word with
    | none => .error (.unknownCommand (lowerAscii word))
    | some form =>
      let options := arguments.drop form.arity
      if arguments.length < form.arity ∨ (form.hasOptions = false ∧ options ≠ []) then
        .error (.mismatch form)
      else if form.hasOptions then do
        let written ← options.mapM optionToken
        return form.name :: arguments.take form.arity ++ toString options.length :: written
      else .ok (form.name :: arguments.take form.arity)

end Larder.Shell
