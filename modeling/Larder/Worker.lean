import Larder.Engine

/-!
# The worker

Everything that changes stashes is done by one worker, which serves requests in the order in which
they were made.  A connection hands over its queue of tokens and gets back what is left of it.
-/

namespace Larder

inductive Request where
  /-- To answer the complete commands at the front of a queue. -/
  | execute (tokens : List Bytes)
  /-- To take out keys whose lifetime is over. -/
  | sweep
  deriving Repr, DecidableEq

inductive Reply where
  /-- What is left of a queue, and the frames of the responses, if there are any. -/
  | executed (left : List Bytes) (output : Option Bytes)
  | swept (count : Nat)
  deriving Repr, DecidableEq

namespace Engine

/-- Takes out keys whose lifetime is over, and counts them. -/
def sweep (engine : Engine) (clock : Clock) : Nat × Engine :=
  let (count, registry) := engine.registry.sweep clock.now
  (count, { engine with registry, counters := engine.counters.swept count })

def serve (engine : Engine) (clock : Clock) : Request → Reply × Engine
  | .execute tokens =>
    let handled := engine.handle clock false tokens
    (.executed handled.left handled.output, handled.engine)
  | .sweep =>
    let (count, engine) := engine.sweep clock
    (.swept count, engine)

end Engine

end Larder
