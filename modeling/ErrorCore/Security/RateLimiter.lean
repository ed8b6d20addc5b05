import ErrorCore.Context.EventClock
import ErrorCore.Foundation.Transition
import Mathlib.Data.Int.Basic

/-!
# Rate limiter

`src/security/rate-limiter.ts`: at most `maxCaptures` calls are admitted within
`windowMs`; the others are counted until the next summary. The counters stop at
the largest safe integer.

The history of the calls is not in the code: the times of the admitted and of
the denied calls, and the denials that each summary covers.
-/

namespace ErrorCore

namespace RateLimiter

structure Config where
  maxCaptures : Nat := 10
  windowMs : Nat := 60000
  deriving DecidableEq, Repr

structure DropSummary where
  droppedCount : Nat
  firstDropMs : Option Int
  lastDropMs : Option Int
  deriving DecidableEq, Repr

/-- The fields of a limiter. -/
structure Limiter where
  timestamps : List Int := []
  droppedCount : Nat := 0
  droppedSinceLastAcquire : Nat := 0
  firstDropTimestamp : Option Int := none
  lastDropTimestamp : Option Int := none
  deriving DecidableEq, Repr

/-- A counter that stops at the largest safe integer. -/
def saturate (count : Nat) : Nat := if count < maxSafeInteger then count + 1 else count

def tryAcquire (config : Config) (limiter : Limiter) (now : Int) : Bool × Limiter :=
  let cutoff := now - config.windowMs
  let timestamps := limiter.timestamps.filter fun timestamp => cutoff < timestamp
  if timestamps.length < config.maxCaptures then
    (true, { limiter with timestamps := timestamps ++ [now] })
  else
    (false,
      { limiter with
        timestamps
        droppedCount := saturate limiter.droppedCount
        droppedSinceLastAcquire := saturate limiter.droppedSinceLastAcquire
        firstDropTimestamp := limiter.firstDropTimestamp.or (some now)
        lastDropTimestamp := some now })

def getAndResetDropSummary (limiter : Limiter) : Option DropSummary × Limiter :=
  if limiter.droppedSinceLastAcquire = 0 then (none, limiter)
  else
    (some
      { droppedCount := limiter.droppedSinceLastAcquire
        firstDropMs := limiter.firstDropTimestamp
        lastDropMs := limiter.lastDropTimestamp },
      { limiter with
        droppedSinceLastAcquire := 0
        firstDropTimestamp := none
        lastDropTimestamp := none })

/-! ## Runs -/

/-- A summary and the denials since the one before it. -/
structure Covered where
  summary : DropSummary
  denials : List Int
  deriving DecidableEq, Repr

structure State where
  limiter : Limiter := {}
  /-- The time of the last call. -/
  clock : Int
  admitted : List Int := []
  denied : List Int := []
  summaries : List Covered := []
  /-- The denials since the last summary. -/
  outstanding : List Int := []
  deriving DecidableEq, Repr

inductive Call
  | tryAcquire (now : Int)
  | getAndResetDropSummary
  deriving DecidableEq, Repr

def acquire (config : Config) (s : State) (now : Int) : State :=
  match tryAcquire config s.limiter now with
  | (true, limiter) => { s with limiter, clock := now, admitted := s.admitted ++ [now] }
  | (false, limiter) =>
      { s with
        limiter
        clock := now
        denied := s.denied ++ [now]
        outstanding := s.outstanding ++ [now] }

def summarize (s : State) : State :=
  match getAndResetDropSummary s.limiter with
  | (none, limiter) => { s with limiter }
  | (some summary, limiter) =>
      { s with
        limiter
        summaries := s.summaries ++ [⟨summary, s.outstanding⟩]
        outstanding := [] }

/-- The clock does not go back. -/
def step (config : Config) (s : State) : Call → Option State
  | .tryAcquire now => if s.clock ≤ now then some (acquire config s now) else none
  | .getAndResetDropSummary => some (summarize s)

def system (config : Config) : Transition.System State Call where
  init s := ∃ clock, s = { clock }
  step := step config

end RateLimiter

end ErrorCore
