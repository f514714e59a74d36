import BuildWorker.Failure
import BuildWorker.Retry.Backoff

/-!
# Retried calls

A call that fails for a passing reason is made again after a delay, up to a number of attempts.
`RetryPolicy.execute` is the loop. It runs over a state that calls and waiting change, so it can
say what happens meanwhile without knowing what that is.
-/

namespace BuildWorker

/-- How often and how fast a call is made again. -/
structure RetryPolicy where
  /-- The greatest number of attempts, the first one included. -/
  maxAttempts : UInt32
  /-- The delay after the first failed attempt. -/
  initialDelay : Duration
  /-- The greatest delay. -/
  maxDelay : Duration
  /-- The growth from one delay to the next. -/
  multiplier : Float
  /-- The fraction by which delays are spread. -/
  jitter : Float

/-- Why a retried call was given up. -/
inductive RetryError
  /-- The last attempt allowed failed like those before it. -/
  | exhausted (attempts : Nat) (last : BackplaneError)
  /-- An attempt failed for good. -/
  | fatal (error : BackplaneError)
  deriving DecidableEq, Repr

namespace RetryError

/-- The last failure. -/
def last : RetryError → BackplaneError
  | .exhausted _ e => e
  | .fatal e => e

/-- The form shown to users. -/
def display : RetryError → String
  | .exhausted attempts e =>
    "Maximum retry attempts (" ++ toString attempts ++ ") exceeded. Last error: " ++ e.display
  | .fatal e => "Non-retryable error: " ++ e.display

/-- What the failure is to an execution: that of the last attempt. -/
def surfaced (e : RetryError) : ExecutionError := .backplane e.last

end RetryError

namespace RetryPolicy

/-- The policy for calls that change the backplane: five attempts, from 100 ms doubling to 5 s. -/
def backplane : RetryPolicy where
  maxAttempts := 5
  initialDelay := .ofMillis 100
  maxDelay := .ofMillis 5000
  multiplier := 2.0
  jitter := 0.1

/-- The same policy with exact delays. -/
def exact (p : RetryPolicy) : RetryPolicy := { p with jitter := 0 }

/-- The schedule of delays. -/
def backoff (p : RetryPolicy) : Backoff :=
  .ofSettings p.initialDelay p.maxDelay p.multiplier p.jitter

/-- Whether two policies are the same; floating-point numbers count by their value. -/
def same (p q : RetryPolicy) : Bool :=
  p.maxAttempts == q.maxAttempts && p.initialDelay == q.initialDelay &&
    p.maxDelay == q.maxDelay && p.multiplier == q.multiplier && p.jitter == q.jitter

variable {σ α : Type}

/-- Make attempt number `attempt`, with `remaining` more allowed after it. -/
def attemptFrom (b : Backoff) (position : Nat → Float)
    (call : σ → Except BackplaneError α × σ) (sleep : Duration → σ → σ) :
    Nat → Nat → σ → Except RetryError α × σ
  | remaining, attempt, s =>
    match call s with
    | (.ok a, s) => (.ok a, s)
    | (.error e, s) =>
      if !e.isRetryable then (.error (.fatal e), s)
      else match remaining with
        | 0 => (.error (.exhausted attempt e), s)
        | remaining + 1 =>
          attemptFrom b position call sleep remaining (attempt + 1)
            (sleep (b.delay (position attempt) attempt) s)

/-- Make a call until it succeeds, fails for good or the attempts are used up. There is always a
first attempt. `position` draws where in its range each delay lies. -/
def execute (p : RetryPolicy) (position : Nat → Float)
    (call : σ → Except BackplaneError α × σ) (sleep : Duration → σ → σ) (s : σ) :
    Except RetryError α × σ :=
  attemptFrom p.backoff position call sleep (p.maxAttempts.toNat - 1) 1 s

end RetryPolicy

end BuildWorker
