import Larder.Command
import Larder.Decimal
import Larder.Limits

/-!
# The grammar of commands

A command is its name, its arguments and, if it takes options, their count and that many tokens
of the form `KEY=VALUE`; a later option overrides an earlier one of the same key.  `Grammar.parse`
looks at the tokens that have arrived: they may be too few, make up a command that has to be
refused, or make up a command.
-/

namespace Larder.Grammar

inductive Error where
  | invalidArgCount
  | readOnlyMode
  | malformedArgument
  | unknownArgument
  | keyTooLong
  | valueTooLong
  | nameTooLong
  | invalidName
  | invalidTtl
  | invalidBoolean
  | invalidMaxKeys
  deriving Repr, DecidableEq

/-- The code of an error on the wire. -/
def Error.code : Error → String
  | .invalidArgCount => "INVALID_ARG_COUNT"
  | .readOnlyMode => "READ_ONLY_MODE"
  | .malformedArgument => "MALFORMED_ARGUMENT"
  | .unknownArgument => "UNKNOWN_ARGUMENT"
  | .keyTooLong => "KEY_TOO_LONG"
  | .valueTooLong => "VALUE_TOO_LONG"
  | .nameTooLong => "NAME_TOO_LONG"
  | .invalidName => "INVALID_NAME"
  | .invalidTtl => "INVALID_TTL"
  | .invalidBoolean => "INVALID_BOOLEAN"
  | .invalidMaxKeys => "INVALID_MAX_KEYS"

/-- The most options that a command may have, repeated ones included. -/
def maxOptions : Nat := 16

/-- What the tokens at the front of a queue amount to. -/
inductive Verdict where
  /-- More tokens are needed. -/
  | incomplete
  /-- This many tokens are a command that is refused. -/
  | invalid (consumed : Nat) (error : Error)
  /-- This many tokens are a command. -/
  | parsed (consumed : Nat) (command : Command)
  deriving Repr, DecidableEq

/-- The options of a command with their values, in the order of arrival. -/
abbrev Settings := List (OptionKey × Bytes)

/-- The number of options that a token announces. -/
def optionCount? (token : Bytes) : Option Nat :=
  (Decimal.unsigned? token).filter (· ≤ maxOptions)

/-- Splits an option at its first equals sign.  Neither side may be empty. -/
def setting (known : List OptionKey) (token : Bytes) : Except Error (OptionKey × Bytes) :=
  let key := token.takeWhile (· ≠ 61)
  let value := (token.dropWhile (· ≠ 61)).drop 1
  if key = [] ∨ value = [] then .error .malformedArgument
  else
    match known.find? (fun option => Bytes.ofText option.text == key) with
    | some option => .ok (option, value)
    | none => .error .unknownArgument

/-- Reads the options of a command that knows the given ones. -/
def settings (known : List OptionKey) : List Bytes → Except Error Settings
  | [] => .ok []
  | token :: tokens => do
    let first ← setting known token
    let others ← settings known tokens
    return first :: others

/-- The value of an option: of several, the last. -/
def lastValue? (options : Settings) (key : OptionKey) : Option Bytes :=
  (options.reverse.find? (fun option => option.1 = key)).map Prod.snd

def readKey (limits : Limits) (token : Bytes) : Except Error Bytes :=
  if limits.maxKeyLength < token.length then .error .keyTooLong else .ok token

def readValue (limits : Limits) (token : Bytes) : Except Error Bytes :=
  if limits.maxValueLength < token.length then .error .valueTooLong else .ok token

def readName (limits : Limits) (token : Bytes) : Except Error String :=
  if limits.maxNameLength < token.length then .error .nameTooLong
  else
    match token.toText? with
    | some name => .ok name
    | none => .error .invalidName

/-- Reads a lifetime of at least one millisecond. -/
def readTtl (limits : Limits) (token : Bytes) : Except Error Nat :=
  match Decimal.unsigned? token with
  | some ttl => if 1 ≤ ttl ∧ ttl ≤ limits.maxLifetime then .ok ttl else .error .invalidTtl
  | none => .error .invalidTtl

/-- Reads a truth value, in letters of either case. -/
def readBoolean (token : Bytes) : Except Error Bool :=
  if token.sameIgnoringCase (Bytes.ofText "true") then .ok true
  else if token.sameIgnoringCase (Bytes.ofText "false") then .ok false
  else .error .invalidBoolean

/-- Reads a number of keys, at least one. -/
def readMaxKeys (token : Bytes) : Except Error Nat :=
  match Decimal.unsigned? token with
  | some count => if 1 ≤ count then .ok count else .error .invalidMaxKeys
  | none => .error .invalidMaxKeys

/-- Reads the value of an option if the option is given. -/
def readSetting {α : Type} (options : Settings) (key : OptionKey)
    (read : Bytes → Except Error α) : Except Error (Option α) :=
  match lastValue? options key with
  | some value => (read value).map some
  | none => .ok none

/-- The command that a name, its arguments and its options make up.  Arguments are read in the
order in which they are written, then options. -/
def build (limits : Limits) (verb : Command.Verb) (arguments : List Bytes) (options : Settings) :
    Except Error Command :=
  let argument (place : Nat) : Bytes := arguments.getD place []
  let stash := readSetting options .name (readName limits)
  match verb with
  | .ping => .ok .ping
  | .stats => .ok .stats
  | .info => do
    return .info (← stash)
  | .get => do
    let key ← readKey limits (argument 0)
    return .get key (← stash)
  | .delete => do
    let key ← readKey limits (argument 0)
    return .delete key (← stash)
  | .set => do
    let key ← readKey limits (argument 0)
    let value ← readValue limits (argument 1)
    let ttl ← readSetting options .ttl (readTtl limits)
    return .set key value ttl (← stash)
  | .expire => do
    let key ← readKey limits (argument 0)
    let ttl ← readTtl limits (argument 1)
    return .expire key ttl (← stash)
  | .create => do
    let name ← readName limits (argument 0)
    let offHeap ← readSetting options .offHeap readBoolean
    let maxKeys ← readSetting options .maxKeys readMaxKeys
    let snapshots ← readSetting options .snapshots readBoolean
    return .create name { offHeap, maxKeys, snapshots }
  | .drop => do
    return .drop (← readName limits (argument 0))

/-- The command in tokens that are known to be all of it.  The form of the options is checked
before anything else. -/
def read (limits : Limits) (verb : Command.Verb) (tokens : List Bytes) : Except Error Command := do
  let options ← settings verb.options (tokens.drop verb.minTokens)
  build limits verb ((tokens.drop 1).take verb.arity) options

/-- How many tokens the command at the front has, once its count of options has arrived. -/
def extent? (verb : Command.Verb) (tokens : List Bytes) : Option Nat :=
  if verb.hasOptions then
    (optionCount? (tokens.getD (1 + verb.arity) [])).map (verb.minTokens + ·)
  else some verb.minTokens

/-- Judges the tokens at the front of a queue whose first token is the given name. -/
def parse (limits : Limits) (readOnly : Bool) (verb : Command.Verb) (tokens : List Bytes) :
    Verdict :=
  if tokens.length < verb.minTokens then .incomplete
  else
    match extent? verb tokens with
    | none => .invalid verb.minTokens .invalidArgCount
    | some consumed =>
      if tokens.length < consumed then .incomplete
      else if readOnly && verb.writes then .invalid consumed .readOnlyMode
      else
        match read limits verb (tokens.take consumed) with
        | .ok command => .parsed consumed command
        | .error error => .invalid consumed error

end Larder.Grammar
