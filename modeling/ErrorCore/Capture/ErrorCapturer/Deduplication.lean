import ErrorCore.Foundation.InsertionMap
import ErrorCore.Foundation.Text
import ErrorCore.Security.RateLimiter

/-!
# Deduplication and admission of captures

The first part of `capture` in `src/capture/error-capturer.ts`: a capture whose
key was admitted within the window is suppressed, the rate limiter decides about
the others, and an admitted capture becomes the anchor of its key.

The fingerprint of an error is data of the call, and so are the two clocks that
`capture` and the rate limiter read. The log of the admitted keys, the newest
first, is not in the code.
-/

namespace ErrorCore

namespace Deduplication

open InsertionMap

def dedupWindowNs : Nat := 10000000000

def dedupMaxEntries : Nat := 64

structure RequestContext where
  traceId : Text
  requestId : Text
  deriving DecidableEq, Repr

structure CaptureCall where
  context : Option RequestContext
  dedupFingerprint : Option Text
  errorEventHrtimeNs : Int
  /-- `Date.now()`. -/
  now : Int
  deriving DecidableEq, Repr

/-- The fields of the capturer that the decision reads. -/
structure Capturer where
  recentCaptures : List (Text × Int) := []
  rateLimiter : RateLimiter.Limiter := {}
  deriving DecidableEq, Repr

inductive Decision
  | deduplicated
  | rateLimited
  | admitted (rateLimiterDrops : Option RateLimiter.DropSummary)
  deriving DecidableEq, Repr

def dedupScope : Option RequestContext → Text
  | none => "background"
  | some context => context.traceId ++ '|' :: context.requestId

def dedupKey (call : CaptureCall) : Option Text :=
  match call.dedupFingerprint with
  | none => none
  | some fingerprint =>
      if fingerprint = [] then none
      else some (dedupScope call.context ++ '|' :: fingerprint)

/-- Whether the key was admitted within the window, as the map remembers it. -/
def isDuplicate (recentCaptures : List (Text × Int)) (key : Text) (now : Int) : Bool :=
  match get? recentCaptures key with
  | none => false
  | some previousNs => now - previousNs < dedupWindowNs

/-- The anchor of an admitted capture; the first key goes when there are too many. -/
def register (recentCaptures : List (Text × Int)) (key : Text) (now : Int) :
    List (Text × Int) :=
  let recentCaptures := set recentCaptures key now
  if dedupMaxEntries < recentCaptures.length then
    match recentCaptures.head? with
    | none => recentCaptures
    | some (oldestKey, _) => delete recentCaptures oldestKey
  else recentCaptures

/-- What follows the check for duplicates. -/
def acquire (config : RateLimiter.Config) (capturer : Capturer) (key : Option Text)
    (call : CaptureCall) : Decision × Capturer :=
  match RateLimiter.tryAcquire config capturer.rateLimiter call.now with
  | (false, rateLimiter) => (.rateLimited, { capturer with rateLimiter })
  | (true, rateLimiter) =>
      match RateLimiter.getAndResetDropSummary rateLimiter with
      | (rateLimiterDrops, rateLimiter) =>
          (.admitted rateLimiterDrops,
            { recentCaptures :=
                match key with
                | none => capturer.recentCaptures
                | some key => register capturer.recentCaptures key call.errorEventHrtimeNs
              rateLimiter })

def capture (config : RateLimiter.Config) (capturer : Capturer) (call : CaptureCall) :
    Decision × Capturer :=
  match dedupKey call with
  | none => acquire config capturer none call
  | some key =>
      if isDuplicate capturer.recentCaptures key call.errorEventHrtimeNs then
        (.deduplicated, capturer)
      else acquire config capturer (some key) call

/-! ## Runs -/

structure State where
  capturer : Capturer := {}
  /-- The high-resolution time of the last call. -/
  clock : Int
  /-- The admitted keys and their times, the newest first. -/
  log : List (Text × Int) := []
  deriving DecidableEq, Repr

/-- What a call adds to the log. -/
def logged (call : CaptureCall) : Decision → List (Text × Int)
  | .admitted _ =>
      match dedupKey call with
      | none => []
      | some key => [(key, call.errorEventHrtimeNs)]
  | .deduplicated | .rateLimited => []

/-- The high-resolution clock does not go back. -/
def step (config : RateLimiter.Config) (s : State) (call : CaptureCall) : Option State :=
  if s.clock ≤ call.errorEventHrtimeNs then
    some
      { capturer := (capture config s.capturer call).2
        clock := call.errorEventHrtimeNs
        log := logged call (capture config s.capturer call).1 ++ s.log }
  else none

def system (config : RateLimiter.Config) : Transition.System State CaptureCall where
  init s := ∃ clock, s = { clock }
  step := step config

end Deduplication

end ErrorCore
