import BuildWorker.Retry.Policy

/-!
# The attempts of a retried call

A retried call ends with the first attempt that succeeds, fails for good or is the last one allowed
(`RetryPolicy.IsLast`), and its result is that of this attempt (`RetryPolicy.conclude`).

The loop runs over any state. Which attempt is the last one, and in which state it is made, is said
for all of them in `RetryPolicy.execute_eq`; the state in which an attempt is made is the one that
all attempts and delays before it have left (`RetryPolicy.stateAfter`). Of a state that is a log of
attempts and delays this tells what is done for a call, and in which order
(`RetryPolicy.execute_attempts`).
-/

namespace BuildWorker

namespace RetryPolicy

variable {σ α : Type}

/-! ### The end of the attempts -/

/-- Whether the answer to an attempt is a reason to make another one. -/
def isPassing : Except BackplaneError α → Bool
  | .ok _ => false
  | .error e => e.isRetryable

/-- What a call comes to whose last attempt, of a number, has an answer. -/
def conclude (attempt : Nat) : Except BackplaneError α → Except RetryError α
  | .ok a => .ok a
  | .error e => .error (if e.isRetryable then .exhausted attempt e else .fatal e)

/-- Whether attempt number `i` is followed by no other: it succeeds, it fails for good, or no more
attempts are allowed. -/
def Ends (p : RetryPolicy) (outcome : Nat → Except BackplaneError α) (i : Nat) : Prop :=
  1 ≤ i ∧ ((∃ a, outcome i = .ok a) ∨ (∃ e, outcome i = .error e ∧ e.isRetryable = false) ∨
    p.maxAttempts.toNat ≤ i)

theorem ends_iff {p : RetryPolicy} {outcome : Nat → Except BackplaneError α} {i : Nat} :
    p.Ends outcome i ↔ 1 ≤ i ∧ (isPassing (outcome i) = false ∨ p.maxAttempts.toNat ≤ i) := by
  unfold Ends
  cases outcome i with
  | ok a => simp [isPassing]
  | error e => simp [isPassing]

/-- Attempt number `k` is the last one made: the first that is followed by no other. -/
structure IsLast (p : RetryPolicy) (outcome : Nat → Except BackplaneError α) (k : Nat) : Prop where
  ends : p.Ends outcome k
  first : ∀ i, p.Ends outcome i → k ≤ i

/-- The last attempt has a number of 32 bits, as the policy's number of attempts has. -/
theorem IsLast.lt_size {p : RetryPolicy} {outcome : Nat → Except BackplaneError α} {k : Nat}
    (last : p.IsLast outcome k) : k < UInt32.size := by
  have used : p.Ends outcome (max 1 p.maxAttempts.toNat) :=
    ends_iff.2 ⟨Nat.le_max_left _ _, .inr (Nat.le_max_right _ _)⟩
  have le : k ≤ max 1 p.maxAttempts.toNat := last.first _ used
  have bound : p.maxAttempts.toNat < UInt32.size := p.maxAttempts.toNat_lt
  have one : 1 < UInt32.size := by decide
  omega

/-- Which attempt is the last one does not hang on what later ones would come to. -/
theorem IsLast.congr {β : Type} {p : RetryPolicy} {outcome : Nat → Except BackplaneError α}
    {outcome' : Nat → Except BackplaneError β} {k n : Nat} (last : p.IsLast outcome k)
    (positive : 1 ≤ n) (stops : isPassing (outcome n) = false)
    (same : ∀ i, 1 ≤ i → i ≤ n → isPassing (outcome' i) = isPassing (outcome i)) :
    p.IsLast outcome' k := by
  have le : k ≤ n := last.first n (ends_iff.2 ⟨positive, .inl stops⟩)
  refine ⟨ends_iff.2 ?_, fun i ends => ?_⟩
  · rw [same k last.ends.1 le]
    exact ends_iff.1 last.ends
  · refine Nat.le_of_not_lt fun lt => ?_
    have ends := ends_iff.1 ends
    rw [same i ends.1 (by omega)] at ends
    have before := last.first i (ends_iff.2 ends)
    omega

/-! ### The loop -/

/-- The state that a number of attempts leave, each with the delay after it, the first of which has
the number `attempt`. -/
def stateAfter (b : Backoff) (position : Nat → Float) (call : σ → Except BackplaneError α × σ)
    (sleep : Duration → σ → σ) : Nat → Nat → σ → σ
  | _, 0, s => s
  | attempt, n + 1, s =>
    stateAfter b position call sleep (attempt + 1) n
      (sleep (b.delay (position attempt) attempt) (call s).2)

section

variable (b : Backoff) (position : Nat → Float) (call : σ → Except BackplaneError α × σ)
  (sleep : Duration → σ → σ)

/-- One pass of the loop. -/
theorem attemptFrom_step (remaining attempt : Nat) (s : σ) :
    attemptFrom b position call sleep remaining attempt s =
      if isPassing (call s).1 ∧ 0 < remaining then
        attemptFrom b position call sleep (remaining - 1) (attempt + 1)
          (sleep (b.delay (position attempt) attempt) (call s).2)
      else (conclude attempt (call s).1, (call s).2) := by
  rcases called : call s with ⟨answer, s'⟩
  rw [attemptFrom.eq_def]
  dsimp only
  rw [called]
  cases answer with
  | ok a => simp [isPassing, conclude]
  | error e =>
      cases retryable : e.isRetryable with
      | false => simp [isPassing, conclude, retryable]
      | true =>
          cases remaining with
          | zero => simp [isPassing, conclude, retryable]
          | succ remaining => simp [isPassing, retryable]

/-- What every call and every delay keeps, a call that is made again and again keeps. -/
theorem attemptFrom_keeps {R : σ → σ → Prop} (trans : ∀ {s t u}, R s t → R t u → R s u)
    (calls : ∀ s, R s (call s).2) (sleeps : ∀ delay s, R s (sleep delay s))
    (remaining attempt : Nat) (s : σ) :
    R s (attemptFrom b position call sleep remaining attempt s).2 := by
  induction remaining generalizing attempt s with
  | zero =>
      rw [attemptFrom_step, if_neg (by simp)]
      exact calls s
  | succ remaining ih =>
      rw [attemptFrom_step]
      split
      · exact trans (trans (calls s) (sleeps _ _)) (ih _ _)
      · exact calls s

/-- The loop goes on as long as attempts fail for passing reasons and more are allowed. -/
theorem attemptFrom_eq (remaining attempt : Nat) (s : σ) :
    let answer (n : Nat) := (call (stateAfter b position call sleep attempt n s)).1
    ∃ n, n ≤ remaining ∧ (∀ m, m < n → isPassing (answer m) = true) ∧
      (isPassing (answer n) = false ∨ n = remaining) ∧
      attemptFrom b position call sleep remaining attempt s =
        (conclude (attempt + n) (answer n),
          (call (stateAfter b position call sleep attempt n s)).2) := by
  induction remaining generalizing attempt s with
  | zero =>
      refine ⟨0, Nat.le_refl 0, fun m before => absurd before (Nat.not_lt_zero m), .inr rfl, ?_⟩
      rw [attemptFrom_step, if_neg (by simp)]
      rfl
  | succ remaining ih =>
      cases passing : isPassing (call s).1 with
      | false =>
          refine ⟨0, Nat.zero_le _, fun m before => absurd before (Nat.not_lt_zero m),
            .inl passing, ?_⟩
          rw [attemptFrom_step, if_neg (by simp [passing])]
          rfl
      | true =>
          obtain ⟨n, le, before, ends, eq⟩ :=
            ih (attempt + 1) (sleep (b.delay (position attempt) attempt) (call s).2)
          refine ⟨n + 1, Nat.succ_le_succ le, fun m lt => ?_, ends.imp_right (congrArg (· + 1)), ?_⟩
          · cases m with
            | zero => exact passing
            | succ m => exact before m (Nat.lt_of_succ_lt_succ lt)
          · rw [attemptFrom_step, if_pos ⟨passing, Nat.succ_pos remaining⟩, Nat.add_sub_cancel, eq,
              Nat.add_assoc, Nat.add_comm 1 n]
            rfl

end

/-- **A retried call ends with its last attempt**: the first one that succeeds, fails for good or is
the last one allowed. Nothing is done after it. -/
theorem execute_eq (p : RetryPolicy) (position : Nat → Float)
    (call : σ → Except BackplaneError α × σ) (sleep : Duration → σ → σ) (s : σ) :
    let before (i : Nat) := stateAfter p.backoff position call sleep 1 (i - 1) s
    ∃ k, p.IsLast (fun i => (call (before i)).1) k ∧
      p.execute position call sleep s = (conclude k (call (before k)).1, (call (before k)).2) := by
  intro before
  obtain ⟨n, le, passing, ends, eq⟩ := attemptFrom_eq p.backoff position call sleep
    (p.maxAttempts.toNat - 1) 1 s
  have last : before (1 + n) = stateAfter p.backoff position call sleep 1 n s := by
    dsimp only [before]
    rw [Nat.add_sub_cancel_left]
  refine ⟨1 + n, ⟨ends_iff.2 ⟨Nat.le_add_right 1 n, ?_⟩, fun i ended => ?_⟩, ?_⟩
  · rw [last]
    rcases ends with ends | rfl
    · exact .inl ends
    · exact .inr (by omega)
  · obtain ⟨positive, ended⟩ := ends_iff.1 ended
    refine Nat.le_of_not_lt fun lt => ?_
    rcases ended with ended | used
    · have again : isPassing (call (before i)).1 = true := passing (i - 1) (by omega)
      rw [ended] at again
      cases again
    · omega
  · rw [last]
    exact eq

/-! ### A log of what is done -/

/-- What is done for a retried call. -/
inductive Step
  /-- An attempt is made. -/
  | attempt
  /-- Some time is waited. -/
  | wait (delay : Duration)
  deriving DecidableEq, Repr

/-- Make an attempt, which is answered by its number, and note it. -/
def attemptLogged (outcome : Nat → Except BackplaneError α) (log : List Step) :
    Except BackplaneError α × List Step :=
  (outcome (log.count .attempt + 1), log ++ [.attempt])

/-- Note that some time is waited. -/
def waitLogged (delay : Duration) (log : List Step) : List Step := log ++ [.wait delay]

/-- Attempts of some numbers, each with the delay after it. -/
def attemptsLogged (b : Backoff) (position : Nat → Float) (numbers : List Nat) : List Step :=
  numbers.flatMap fun i => [.attempt, .wait (b.delay (position i) i)]

theorem stateAfter_logged (b : Backoff) (position : Nat → Float)
    (outcome : Nat → Except BackplaneError α) (attempt n : Nat) (log : List Step) :
    stateAfter b position (attemptLogged outcome) waitLogged attempt n log =
      log ++ attemptsLogged b position (List.range' attempt n) := by
  induction n generalizing attempt log with
  | zero => exact (List.append_nil log).symm
  | succ n ih => simp [stateAfter, ih, attemptLogged, waitLogged, attemptsLogged, List.range'_succ]

theorem count_attemptsLogged (b : Backoff) (position : Nat → Float) (numbers : List Nat) :
    (attemptsLogged b position numbers).count .attempt = numbers.length := by
  induction numbers with
  | nil => rfl
  | cons i numbers ih =>
      rw [attemptsLogged, List.flatMap_cons, List.count_append, List.length_cons, Nat.add_comm,
        ← ih]
      rfl

/-- **What is done for a retried call.** Whatever the attempts come to, let `k` be the number of the
first one that succeeds, fails for good or is the last one allowed. Then `k` attempts are made, with
the delay of each but the last after it, and no delay after the last. Attempts are counted up to
`k`, which 32 bits hold. The result is that of attempt `k`; when it is a failure, what surfaces of
it is the failure of that attempt. -/
theorem execute_attempts (p : RetryPolicy) (position : Nat → Float)
    (outcome : Nat → Except BackplaneError α) :
    let run := p.execute position (attemptLogged outcome) waitLogged []
    ∃ k, p.IsLast outcome k ∧ k < UInt32.size ∧
      run.2 = attemptsLogged p.backoff position (List.range' 1 (k - 1)) ++ [.attempt] ∧
      run.2.count .attempt = k ∧
      (∀ a, outcome k = .ok a → run.1 = .ok a) ∧
      (∀ e, outcome k = .error e → e.isRetryable = false → run.1 = .error (.fatal e)) ∧
      (∀ e, outcome k = .error e → e.isRetryable = true → run.1 = .error (.exhausted k e)) ∧
      ∀ failure, run.1 = .error failure → ∃ e, outcome k = .error e ∧ failure.last = e ∧
        failure.surfaced = .backplane e := by
  intro run
  obtain ⟨k, last, eq⟩ := p.execute_eq position (attemptLogged outcome) waitLogged []
  have state (i : Nat) :
      stateAfter p.backoff position (attemptLogged outcome) waitLogged 1 (i - 1) [] =
        attemptsLogged p.backoff position (List.range' 1 (i - 1)) := by
    rw [stateAfter_logged, List.nil_append]
  have answer (i : Nat) (positive : 1 ≤ i) :
      (attemptLogged outcome (attemptsLogged p.backoff position (List.range' 1 (i - 1)))).1 =
        outcome i := by
    rw [attemptLogged, count_attemptsLogged, List.length_range', Nat.sub_add_cancel positive]
  simp only [state] at last eq
  have positive : 1 ≤ k := last.ends.1
  -- The numbers in the log are those of the attempts.
  have last : p.IsLast outcome k := by
    refine ⟨?_, fun i ends => last.first i ?_⟩
    · have ends := last.ends
      rw [Ends, answer k positive] at ends
      exact ends
    · rw [Ends, answer i ends.1]
      exact ends
  have log : run.2 = attemptsLogged p.backoff position (List.range' 1 (k - 1)) ++ [.attempt] :=
    congrArg Prod.snd eq
  have result : run.1 = conclude k (outcome k) := by
    rw [← answer k positive]
    exact congrArg Prod.fst eq
  refine ⟨k, last, last.lt_size, log, ?_, fun a ok => ?_, fun e failed fatal => ?_,
    fun e failed passing => ?_, fun failure failed => ?_⟩
  · rw [log, List.count_append, count_attemptsLogged, List.length_range', List.count_singleton_self,
      Nat.sub_add_cancel positive]
  · rw [result, ok, conclude]
  · rw [result, failed, conclude, fatal]
    rfl
  · rw [result, failed, conclude, passing]
    rfl
  · rw [result] at failed
    cases answered : outcome k with
    | ok a =>
        rw [answered] at failed
        cases failed
    | error e =>
        rw [answered] at failed
        cases failed
        have same : (if e.isRetryable then RetryError.exhausted k e else .fatal e).last = e := by
          split <;> rfl
        exact ⟨e, rfl, same, congrArg ExecutionError.backplane same⟩

end RetryPolicy

end BuildWorker
