/-!
# Timers

Two kinds of work happen by themselves.  A sweeper pauses after each sweep, so a long absence makes
up for one sweep only.  A scheduler keeps to fixed times and makes up for all of those it missed;
its times are apart, so there is none for an interval of zero.  Times are those of the clock that
only moves forward.
-/

namespace Larder

structure Sweeper where
  /-- The pause after a sweep, in milliseconds. -/
  interval : Nat
  next : Nat
  deriving Repr, DecidableEq

namespace Sweeper

/-- A sweeper that pauses first. -/
def start (elapsed interval : Nat) : Sweeper :=
  { interval, next := elapsed + interval }

def isDue (sweeper : Sweeper) (elapsed : Nat) : Bool :=
  sweeper.next ≤ elapsed

def pause (sweeper : Sweeper) (elapsed : Nat) : Sweeper :=
  start elapsed sweeper.interval

end Sweeper

structure Scheduler where
  /-- The time between two passes, in milliseconds. -/
  interval : Nat
  next : Nat
  deriving Repr, DecidableEq

namespace Scheduler

/-- A scheduler whose first pass is due after one interval, if the interval is not zero. -/
def start? (elapsed interval : Nat) : Option Scheduler :=
  if 0 < interval then some { interval, next := elapsed + interval } else none

def due (scheduler : Scheduler) (elapsed : Nat) : Nat :=
  if scheduler.next ≤ elapsed then
    (elapsed - scheduler.next) / scheduler.interval + 1
  else 0

def after (scheduler : Scheduler) (passes : Nat) : Scheduler :=
  { scheduler with next := scheduler.next + passes * scheduler.interval }

end Scheduler

end Larder
