import Larder.Bytes

/-!
# Commands

The commands of a server: their names, how many arguments they take and which options they know,
and what a complete command asks for.
-/

namespace Larder

inductive OptionKey where
  | name
  | ttl
  | offHeap
  | maxKeys
  | snapshots
  deriving Repr, DecidableEq

/-- How an option is written before its equals sign. -/
def OptionKey.text : OptionKey → String
  | .name => "NAME"
  | .ttl => "TTL"
  | .offHeap => "OFF_HEAP"
  | .maxKeys => "MAX_KEYS"
  | .snapshots => "SNAPSHOTS"

namespace Command

inductive Verb where
  | ping
  | get
  | set
  | delete
  | expire
  | create
  | drop
  | info
  | stats
  deriving Repr, DecidableEq

namespace Verb

def all : List Verb :=
  [ping, get, set, delete, expire, create, drop, info, stats]

/-- How a command name is written; case matters. -/
def text : Verb → String
  | ping => "PING"
  | get => "GET"
  | set => "SET"
  | delete => "DELETE"
  | expire => "EXPIRE"
  | create => "CREATE"
  | drop => "DROP"
  | info => "INFO"
  | stats => "STATS"

def arity : Verb → Nat
  | ping | info | stats => 0
  | get | delete | create | drop => 1
  | set | expire => 2

/-- The options of a command that takes any.  Such a command has a count of options after its
arguments, and then the options. -/
def options? : Verb → Option (List OptionKey)
  | ping | drop | stats => none
  | get | delete | expire | info => some [.name]
  | set => some [.name, .ttl]
  | create => some [.offHeap, .maxKeys, .snapshots]

def options (verb : Verb) : List OptionKey :=
  verb.options?.getD []

/-- Whether a count of options follows the arguments. -/
def hasOptions (verb : Verb) : Bool :=
  verb.options?.isSome

def writes : Verb → Bool
  | set | delete | expire | create | drop => true
  | ping | get | info | stats => false

/-- The fewest tokens that make up the command: its name, its arguments and the count. -/
def minTokens (verb : Verb) : Nat :=
  1 + verb.arity + verb.hasOptions.toNat

/-- The command whose name a token is. -/
def ofToken? (token : Bytes) : Option Verb :=
  all.find? (fun verb => Bytes.ofText verb.text == token)

end Verb

/-- What the creator of a stash asks for; the rest comes from the defaults of the server. -/
structure CreateOptions where
  offHeap : Option Bool := none
  maxKeys : Option Nat := none
  snapshots : Option Bool := none
  deriving Repr, DecidableEq

end Command

/-- A complete command.  A stash that is not named is the default one; lifetimes are in
milliseconds. -/
inductive Command where
  | ping
  | get (key : Bytes) (stash : Option String)
  | set (key value : Bytes) (ttl : Option Nat) (stash : Option String)
  | delete (key : Bytes) (stash : Option String)
  | expire (key : Bytes) (ttl : Nat) (stash : Option String)
  | create (name : String) (options : Command.CreateOptions)
  | drop (name : String)
  | info (stash : Option String)
  | stats
  deriving Repr, DecidableEq

def Command.verb : Command → Command.Verb
  | .ping => .ping
  | .get .. => .get
  | .set .. => .set
  | .delete .. => .delete
  | .expire .. => .expire
  | .create .. => .create
  | .drop .. => .drop
  | .info .. => .info
  | .stats => .stats

end Larder
