import Larder.Decimal
import Larder.Text.Lossy
import Larder.Text.Printable

/-!
# Frames

A token travels as its length in decimal digits, a line break, and its bytes; nothing follows the
bytes, so frames stand end to end.  `Frame.encode` writes one frame and `Frame.scan` looks for one
at the front of the bytes that have arrived so far.
-/

namespace Larder.Frame

/-- Why bytes cannot be the beginning of a frame, or cannot be kept. -/
inductive Error where
  /-- The length is not one to twenty digits that fit in 64 bits. -/
  | invalidLength (written : String)
  | empty
  | tooLarge (size limit : Nat)
  /-- More bytes wait to be framed than may. -/
  | overflow (size limit : Nat)
  /-- The place where the frame ends is not a number of 64 bits.  Nobody is told: to add up to it, or
  to take so many bytes, is where the program stops. -/
  | crash
  deriving Repr, DecidableEq

def Error.message : Error → String
  | .invalidLength written => "invalid length prefix: " ++ Text.quoted written
  | .empty => "frame size must be at least 1"
  | .tooLarge size limit =>
    "frame too large: " ++ toString size ++ " bytes (max: " ++ toString limit ++ ")"
  | .overflow size limit =>
    "buffer overflow: " ++ toString size ++ " bytes buffered (max: " ++ toString limit ++ ")"
  | .crash => "attempt to add with overflow"

/-- The most digits that a length may have. -/
def maxLengthDigits : Nat := 20

def encode (token : Bytes) : Bytes :=
  Decimal.ofNat token.length ++ Bytes.crlf ++ token

/-- The frames of some tokens, end to end. -/
def encodeAll (tokens : List Bytes) : Bytes :=
  tokens.flatMap encode

/-- How many bytes stand before the first line break, counted on from a given number. -/
def lineBreakFrom (passed : Nat) : Bytes → Option Nat
  | [] => none
  | byte :: rest =>
    if byte = 13 ∧ rest.head? = some 10 then some passed else lineBreakFrom (passed + 1) rest

/-- How many bytes stand before the first line break. -/
def lineBreak? (bytes : Bytes) : Option Nat :=
  lineBreakFrom 0 bytes

/-- The length that the bytes before a line break declare. -/
def declared (written : Bytes) : Except Error Nat :=
  match Decimal.digits? written with
  | some size =>
    if written.length ≤ maxLengthDigits ∧ size ≤ Word64.largest then .ok size
    else .error (.invalidLength (Text.ofBytesLossy written))
  | none => .error (.invalidLength (Text.ofBytesLossy written))

/-- What stands at the front of the bytes that have arrived. -/
inductive Scan where
  /-- Nothing is wrong, but the frame is not complete. -/
  | incomplete
  /-- A complete frame with its token, and what follows it. -/
  | token (token rest : Bytes)
  /-- No frame can begin like this. -/
  | fault (error : Error)
  deriving Repr, DecidableEq

/-- Looks for a frame at the front, with tokens up to a given length.  Without a line break the
length may still grow, up to one byte more than the digits that it may have.  With one, the place
where the frame ends is found before it is known whether the bytes reach it. -/
def scan (limit : Nat) (bytes : Bytes) : Scan :=
  match lineBreak? bytes with
  | none =>
    if maxLengthDigits + 1 < bytes.length then
      .fault (.invalidLength (Text.ofBytesLossy (bytes.take maxLengthDigits)))
    else .incomplete
  | some digits =>
    match declared (bytes.take digits) with
    | .error error => .fault error
    | .ok size =>
      if size = 0 then .fault .empty
      else if limit < size then .fault (.tooLarge size limit)
      else
        let start := digits + Bytes.crlf.length
        if Word64.largest < start + size then .fault .crash
        else
          let body := bytes.drop start
          if body.length < size then .incomplete else .token (body.take size) (body.drop size)

theorem lineBreakFrom_lt {passed place : Nat} {bytes : Bytes}
    (found : lineBreakFrom passed bytes = some place) :
    passed ≤ place ∧ place < passed + bytes.length := by
  induction bytes generalizing passed with
  | nil => cases found
  | cons byte rest ih =>
    unfold lineBreakFrom at found
    split at found
    · cases found
      simp
    · have := ih found
      simp only [List.length_cons]
      omega

/-- What follows a complete frame is shorter than what it was found in. -/
theorem length_rest_lt {limit : Nat} {bytes token rest : Bytes}
    (found : scan limit bytes = .token token rest) : rest.length < bytes.length := by
  unfold scan at found
  split at found
  · split at found <;> cases found
  · next digits broken =>
    have inside := (lineBreakFrom_lt broken).2
    split at found
    · cases found
    · dsimp only at found
      split at found
      · cases found
      split at found
      · cases found
      split at found
      · cases found
      split at found
      · cases found
      cases found
      simp only [List.length_drop]
      have : Bytes.crlf.length = 2 := rfl
      omega

end Larder.Frame
