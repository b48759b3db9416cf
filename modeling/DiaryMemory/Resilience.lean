import DiaryMemory.Binary64

/-!
# Bounded retries

`run_with_retries` calls an operation until it succeeds, fails for good or has been called as
often as the policy allows, and sleeps between two calls (`runWithRetries`). What a call gives, how
its failure is classified, what the server asks to wait, what the jitter draws and what `sleep`
refuses may differ from call to call (`Attempt`).

The wait after a failure is computed and slept while its exception is handled, so an error of that
computation, or of `sleep`, takes its place (`RetryExn`).
-/

namespace DiaryMemory

/-- How one attempt ended. -/
inductive OutcomeClass where
  | success
  | retryableFailure
  | nonRetryableFailure
  deriving DecidableEq

/-- The policy of the settings : at least one attempt, and positive seconds. -/
structure RetryPolicy where
  maxAttempts : ℕ
  backoffBaseSeconds : Binary64
  backoffCapSeconds : Binary64
  attempts_pos : 1 ≤ maxAttempts
  base_pos : (Binary64.finite (.ofNat 0 (by decide))).lt backoffBaseSeconds
  cap_pos : (Binary64.finite (.ofNat 0 (by decide))).lt backoffCapSeconds

/-- What `sleep` raises. -/
structure SleepExn where
  className : String
  message : String

/-- One call of the operation. -/
structure Attempt (E T : Type) where
  outcome : Except E T
  /-- What `classify` says of the exception. -/
  verdict : OutcomeClass
  /-- What `retry_after` reads from the exception. -/
  serverDelay : Option Binary64
  delay_nonneg : serverDelay ≠ some .nan
  /-- What `random.random` draws. -/
  draw : Double
  draw_lt : draw.value < 1
  /-- What `sleep` raises on a delay, if it does; `time.sleep` refuses one that its clock can not
  hold. -/
  sleep : Binary64 → Option SleepExn

/-- What leaves `run_with_retries` : the exception of an operation, or one of its own. -/
inductive RetryExn (E : Type) where
  | operation (exc : E)
  | overflowError (message : String)
  | valueError (message : String)
  | sleepError (exc : SleepExn)
  | assertionError

variable {E T : Type}

/-- `2.0 ** n`. -/
def powTwo (n : ℕ) : Except (RetryExn E) Binary64 :=
  if h : n < 1024 then pure (.finite (.twoPow n h))
  else throw (.overflowError "(34, 'Numerical result out of range')")

/-- `int(x)`. -/
def pyInt : Binary64 → Except (RetryExn E) ℤ
  | .finite x => pure ⌊x.value⌋
  | .inf => throw (.overflowError "cannot convert float infinity to integer")
  | .nan => throw (.valueError "cannot convert float NaN to integer")

/-- `min(a, b)`. -/
def pyMin (a b : Binary64) : Binary64 := if b.lt a then b else a

/-- `compute_backoff`. -/
def computeBackoff (attempt : ℕ) (policy : RetryPolicy) (draw : Double) :
    Except (RetryExn E) Binary64 := do
  let power ← powTwo (attempt - 1)
  let exponential := policy.backoffBaseSeconds.mul power
  let capped := pyMin exponential policy.backoffCapSeconds
  pure ((Binary64.finite draw).mul capped)

/-- `_resolve_delay`. -/
def resolveDelay (a : Attempt E T) (attempt : ℕ) (policy : RetryPolicy) :
    Except (RetryExn E) (Binary64 × String) :=
  match a.serverDelay with
  | some serverDelay => pure (pyMin serverDelay policy.backoffCapSeconds, "retry_after")
  | none => do
    let delay ← computeBackoff attempt policy a.draw
    pure (delay, "computed")

/-- The wait after an attempt : its log line takes it in milliseconds before the sleep. -/
def waitAfter (a : Attempt E T) (attempt : ℕ) (policy : RetryPolicy) :
    Except (RetryExn E) Binary64 := do
  let (delay, _) ← resolveDelay a attempt policy
  let _ ← pyInt (delay.mul (.finite (.ofNat 1000 (by decide))))
  match a.sleep delay with
  | none => pure delay
  | some exc => throw (.sleepError exc)

/-- What `run_with_retries` does to the outside. -/
inductive RetryEvent where
  | called (attempt : ℕ)
  | slept (delay : Binary64)
  deriving DecidableEq

/-- The loop of `run_with_retries` over the attempts that are left. -/
def attemptsFrom (policy : RetryPolicy) (script : ℕ → Attempt E T) :
    List ℕ → Option E → Except (RetryExn E) T × List RetryEvent
  | [], none => (.error .assertionError, [])
  | [], some lastError => (.error (.operation lastError), [])
  | attempt :: rest, _ =>
    match (script attempt).outcome with
    | .ok result => (.ok result, [.called attempt])
    | .error exc =>
      if (script attempt).verdict = .nonRetryableFailure then
        (.error (.operation exc), [.called attempt])
      else if attempt = policy.maxAttempts then
        let (out, events) := attemptsFrom policy script rest (some exc)
        (out, .called attempt :: events)
      else
        match waitAfter (script attempt) attempt policy with
        | .error e => (.error e, [.called attempt])
        | .ok delay =>
          let (out, events) := attemptsFrom policy script rest (some exc)
          (out, .called attempt :: .slept delay :: events)

/-- `run_with_retries`. -/
def runWithRetries (policy : RetryPolicy) (script : ℕ → Attempt E T) :
    Except (RetryExn E) T × List RetryEvent :=
  attemptsFrom policy script (List.range' 1 policy.maxAttempts) none

end DiaryMemory
