/-!
# Controls in a text

Terminals take control characters, and the sequences that an escape character begins, for orders.
A message goes without them, so that a text in it cannot give any.  Tabs, line ends and form feeds
are shown, even within a sequence, which then rests until the next control.
-/

namespace Larder.Shell.Controls

/-- The sequence that a character stands in. -/
inductive Sequence where
  /-- None. -/
  | none
  /-- One that is a single character long so far. -/
  | escape
  /-- One with a character in front of its last. -/
  | longEscape
  /-- One with parameters. -/
  | control
  /-- The beginning of a string for a device. -/
  | device
  /-- The parameters of a string for a device. -/
  | deviceParameters
  /-- What is between these parameters and the string. -/
  | deviceIntermediate
  /-- A string that ends with the byte of a terminator. -/
  | string
  /-- A string that ends with a bell. -/
  | command
  deriving Repr, DecidableEq

/-- Whether a character is shown where there is no sequence. -/
def isShown (character : Char) : Bool :=
  character ∈ ['\t', '\n', '\x0c', '\r'] || ' ' ≤ character && character != '\x7f'

/-- Whether the byte of a terminator is in the encoding of a character. -/
def terminates (character : Char) : Bool :=
  (String.utf8EncodeChar character).contains 0x9c

namespace Sequence

/-- Whether a character is shown in a sequence. -/
def shows (sequence : Sequence) (character : Char) : Bool :=
  match sequence with
  | none => isShown character
  | escape | longEscape | control => isShown character && character < ' '
  | _ => false

/-- The sequence after an escape character and another one. -/
def begun (character : Char) : Sequence :=
  match character with
  | '[' => control
  | ']' => command
  | 'P' => device
  | 'X' | '^' | '_' => string
  | _ => none

/-- The sequence behind a character.  Three control characters end any sequence, and one of them
begins another. -/
def next (sequence : Sequence) (character : Char) : Sequence :=
  let among (first last : Char) : Bool := first ≤ character && character ≤ last
  if character = '\x1b' then escape
  else if character = '\x18' ∨ character = '\x1a' then none
  else
    match sequence with
    | none => none
    | escape =>
      if among ' ' '/' then longEscape else if among '0' '~' then begun character else escape
    | longEscape => if among '0' '~' then none else longEscape
    | control => if among '@' '~' then none else control
    | device =>
      if among ' ' '/' then deviceIntermediate
      else if among '0' '?' then deviceParameters
      else if among '@' '~' then string else device
    | deviceParameters =>
      if among ' ' '/' then deviceIntermediate
      else if among '<' '~' then string else deviceParameters
    | deviceIntermediate => if among '0' '~' then string else deviceIntermediate
    | string => if terminates character then none else string
    | command => if character = '\x07' then none else command

end Sequence

/-- What is shown of a text that stands in a sequence.  A sequence rests while characters behind a
blank in it are shown, and is forgotten when one of them is not ASCII. -/
def shownFrom (sequence : Sequence) (rests : Bool) : List Char → List Char
  | [] => []
  | character :: text =>
    if rests && isShown character then
      character :: shownFrom (if character.toNat < 128 then sequence else .none) true text
    else if sequence.shows character then
      character :: shownFrom (sequence.next character) true text
    else shownFrom (sequence.next character) false text

def shown (text : String) : String :=
  String.ofList (shownFrom .none false text.toList)

end Larder.Shell.Controls
