import Larder.Frame
import Larder.Limits

/-!
# Framing a stream

A framer collects the bytes of a stream, which arrive in any pieces, and yields the tokens of the
frames that are complete.  Bytes that do not make up a frame yet stay until more arrive, and so do
bytes that no frame can begin with.
-/

namespace Larder

/-- The bytes of a stream that are not framed yet. -/
structure Framer where
  maxBuffered : Nat
  maxToken : Nat
  pending : Bytes := []
  deriving Repr, DecidableEq

namespace Framer

/-- An empty framer for the given limits. -/
def ofLimits (limits : Limits) : Framer :=
  { maxBuffered := limits.maxBuffered, maxToken := limits.maxToken }

/-- The framer after more bytes have arrived. -/
def feed (framer : Framer) (bytes : Bytes) : Framer :=
  { framer with pending := framer.pending ++ bytes }

/-- What is wrong with a framer that holds too many bytes. -/
def overflow? (framer : Framer) : Option Frame.Error :=
  let size := framer.pending.length
  if framer.maxBuffered < size then some (.overflow size framer.maxBuffered) else none

/-- What taking the complete frames out of a framer yields. -/
structure Drained where
  /-- The tokens of the complete frames, in order. -/
  tokens : List Bytes
  /-- What is wrong with the bytes that are left, if they cannot begin a frame. -/
  fault : Option Frame.Error
  pending : Bytes
  deriving Repr, DecidableEq

/-- Takes complete frames off the front, after some tokens that are given in reverse order. -/
def drainFrom (limit : Nat) (earlier : List Bytes) (bytes : Bytes) : Drained :=
  match _scanned : Frame.scan limit bytes with
  | .token token rest => drainFrom limit (token :: earlier) rest
  | .incomplete => ⟨earlier.reverse, none, bytes⟩
  | .fault error => ⟨earlier.reverse, some error, bytes⟩
termination_by bytes.length
decreasing_by exact Frame.length_rest_lt _scanned

/-- The tokens of all complete frames that wait. -/
def drained (framer : Framer) : Drained :=
  drainFrom framer.maxToken [] framer.pending

/-- The framer without the frames that are complete. -/
def drain (framer : Framer) : Framer :=
  { framer with pending := framer.drained.pending }

/-- Takes complete frames off the front and puts their tokens behind a queue, counting on. -/
def drainIntoFrom (framer : Framer) (count : Nat) (queue : List Bytes) :
    Except Frame.Error Nat × List Bytes × Framer :=
  match _scanned : Frame.scan framer.maxToken framer.pending with
  | .token token rest =>
    drainIntoFrom { framer with pending := rest } (count + 1) (queue ++ [token])
  | .incomplete => (.ok count, queue, framer)
  | .fault error => (.error error, queue, framer)
termination_by framer.pending.length
decreasing_by exact Frame.length_rest_lt _scanned

/-- Puts the tokens of all complete frames behind a queue, and counts them.  Tokens in front of
bytes that cannot begin a frame stay in the queue. -/
def drainInto (framer : Framer) (queue : List Bytes) :
    Except Frame.Error Nat × List Bytes × Framer :=
  framer.drainIntoFrom 0 queue

/-- Takes complete frames off the front, behind some tokens. -/
def drainTokensFrom (framer : Framer) (tokens : List Bytes) :
    Except Frame.Error (List Bytes) × Framer :=
  match _scanned : Frame.scan framer.maxToken framer.pending with
  | .token token rest => drainTokensFrom { framer with pending := rest } (tokens ++ [token])
  | .incomplete => (.ok tokens, framer)
  | .fault error => (.error error, framer)
termination_by framer.pending.length
decreasing_by exact Frame.length_rest_lt _scanned

/-- Takes out the tokens of all complete frames.  In front of bytes that cannot begin a frame they
are lost. -/
def drainTokens (framer : Framer) : Except Frame.Error (List Bytes) × Framer :=
  framer.drainTokensFrom []

/-- How far a framer got with the pieces of a stream. -/
structure Progress where
  tokens : List Bytes
  /-- What was wrong with the last piece, if it was refused. -/
  fault : Option Frame.Error
  framer : Framer
  deriving Repr, DecidableEq

/-- Takes in one piece of a stream and takes the complete frames out.  A piece that is too much is
kept, and nothing is taken out. -/
def receive (framer : Framer) (piece : Bytes) : Progress :=
  let fed := framer.feed piece
  match fed.overflow? with
  | some error => ⟨[], some error, fed⟩
  | none => ⟨fed.drained.tokens, fed.drained.fault, fed.drain⟩

/-- Takes in pieces one after another, behind some earlier tokens, and stops at the first piece that
is refused.  The tokens in front of what is wrong with that piece count. -/
def run (framer : Framer) (tokens : List Bytes) : List Bytes → Progress
  | [] => ⟨tokens, none, framer⟩
  | piece :: pieces =>
    let next := framer.receive piece
    match next.fault with
    | some _ => { next with tokens := tokens ++ next.tokens }
    | none => next.framer.run (tokens ++ next.tokens) pieces

/-- Takes in pieces one after another, behind some earlier tokens, and stops at the first piece that
is refused.  No token of that piece counts. -/
def runWhole (framer : Framer) (tokens : List Bytes) : List Bytes → Progress
  | [] => ⟨tokens, none, framer⟩
  | piece :: pieces =>
    let next := framer.receive piece
    match next.fault with
    | some _ => { next with tokens }
    | none => next.framer.runWhole (tokens ++ next.tokens) pieces

end Framer

end Larder
