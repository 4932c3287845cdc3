import Ctem.Foundation.BoundedRetry
import Ctem.Resilience.HttpPolicy

/-!
# One call with its retry budget

`InternalHttpPolicy.execute` on its own: nobody else uses the circuit while the call
waits.  Here an error is what was thrown, with the fields `isRetryableError` looks at
and the chain of its causes.

* `settle` is the body of the loop: what an attempt ends the call with, if it does.
* `execute` runs the whole call and keeps what it did to the circuit after `enter`.
* `execute_run`: in the model of overlapping calls the call does the same.
* `execute_accounts`: the budget is kept, and every admitted call records one outcome
  and leaves once.
-/

namespace Ctem
namespace Resilience

open Foundation

/-! ## Errors -/

/-- The fields of an error object, `name` and `code` as `String` shows them. -/
structure ErrorFields where
  /-- `err instanceof TypeError`. -/
  isTypeError : Bool := false
  name : Option String := none
  code : Option String := none
  message : String := ""
deriving DecidableEq

/-- What an attempt throws: anything but an object, or an object without or with a
`cause`. -/
inductive Thrown where
  | value
  | error (fields : ErrorFields)
  | caused (fields : ErrorFields) (cause : Thrown)
deriving DecidableEq

/-- The object's own fields make it a timeout. -/
def ErrorFields.isTimeout (fields : ErrorFields) : Bool :=
  decide (fields.name.getD "" ∈ ["TimeoutError", "AbortError"]) ||
    decide (fields.code.getD "" ∈ ["ABORT_ERR", "UND_ERR_CONNECT_TIMEOUT"])

def isTimeoutError : Thrown → Bool
  | .value => false
  | .error fields => fields.isTimeout
  | .caused fields cause => fields.isTimeout || isTimeoutError cause

/-- The codes of a transport error. -/
def transportCodes : List String :=
  ["ECONNREFUSED", "ENOTFOUND", "ECONNRESET", "ETIMEDOUT", "EAI_AGAIN"]

/-- The text holds the word, in letters of either case. -/
def mentions (text word : String) : Bool :=
  (text.toList.map Char.toLower).tails.any fun rest =>
    (word.toList.map Char.toLower).isPrefixOf rest

/-- A `TypeError` whose message speaks of the transport. -/
def ErrorFields.isTransport (fields : ErrorFields) : Bool :=
  fields.isTypeError && ("fetch" :: "network" :: transportCodes).any (mentions fields.message)

/-- The error is an object with the code of a transport error. -/
def Thrown.hasTransportCode : Thrown → Bool
  | .value => false
  | .error fields => fields.code.any fun code => decide (code ∈ transportCodes)
  | .caused fields _ => fields.code.any fun code => decide (code ∈ transportCodes)

def isRetryableError : Thrown → Bool
  | .value => false
  | .error fields => fields.isTimeout || fields.isTransport
  | .caused fields cause =>
      isTimeoutError (.caused fields cause) || fields.isTransport || cause.hasTransportCode ||
        isRetryableError cause

example : isRetryableError (.caused {} (.error { code := some "ENOTFOUND" })) = true := by
  decide

/-! ## The call -/

variable {Body : Type}

/-- A response of the upstream. -/
structure Response (Body : Type) where
  status : Nat
  body : Body

/-- What an attempt comes back with. -/
inductive Outcome (Body : Type) where
  | response (res : Response Body)
  | thrown (err : Thrown)

/-- The same, with what the policy reads of it. -/
def Outcome.result : Outcome Body → AttemptResult
  | .response res => .response res.status
  | .thrown err => .failed (isRetryableError err)

/-- How a call ends. -/
inductive Completion (Body : Type) where
  | returned (res : Response Body)
  | rethrown (err : Thrown)
  /-- `retry budget exhausted`. -/
  | exhausted
  /-- `CircuitOpenError`. -/
  | circuitOpen

/-- What a call does to the circuit once it has entered. -/
inductive CircuitCall where
  | recordSuccess | recordFailure | leave
deriving DecidableEq

def CircuitCall.apply (config : CircuitBreakerConfig) (now : Int) (c : CircuitBreaker) :
    CircuitCall → CircuitBreaker
  | .recordSuccess => c.recordSuccess config now
  | .recordFailure => c.recordFailure config now
  | .leave => c.leave

/-- What the loop calls on the circuit before it stops or goes on. -/
def Verdict.calls : Verdict → List CircuitCall
  | .success => [.recordSuccess]
  | .failure => [.recordFailure]
  | .retry => []

/-- The body of the loop: what attempt `i` records and ends the call with, or `none`
when it sleeps and tries again. -/
def settle (budget i : Nat) : Outcome Body → Option (Verdict × Completion Body)
  | .response res =>
      if responseOk res.status || !isRetryableHttpStatus res.status then
        some (recordHttpOutcome res.status, .returned res)
      else if i = budget then some (.failure, .returned res)
      else none
  | .thrown err =>
      if !isRetryableError err || decide (i = budget) then some (.failure, .rethrown err)
      else none

/-- A call from end to end. -/
structure Execution (Body : Type) where
  attempts : List (Outcome Body)
  /-- What it did to the circuit after `enter`, in order. -/
  calls : List CircuitCall
  circuit : CircuitBreaker
  completion : Completion Body

/-- `execute`: attempt `i` would come back with `outcomes i` when the clock shows
`clock i`; `clock 0` is the time of entry. -/
def execute (config : CircuitBreakerConfig) (clock : Nat → Int) (outcomes : Nat → Outcome Body)
    (c : CircuitBreaker) : Execution Body :=
  let entered := c.enter config (clock 0)
  if entered.2 then
    let read := entered.1.state config (clock 0)
    let budget := if read.2 = .halfOpen then 1 else config.maxAttempts
    let run := tryUpTo outcomes (settle budget) budget 1
    -- only a budget of zero falls out of the loop: no attempt has thrown anything then
    let settled := run.2.getD (.failure, .exhausted)
    let calls := settled.1.calls ++ [.leave]
    { attempts := run.1
      calls := calls
      circuit := calls.foldl (CircuitCall.apply config (clock run.1.length)) read.1
      completion := settled.2 }
  else
    { attempts := [], calls := [], circuit := entered.1, completion := .circuitOpen }

/-! ## What ends a call -/

/-- The status or the error after which the loop may go on. -/
def Outcome.isRetryable : Outcome Body → Bool
  | .response res => isRetryableHttpStatus res.status
  | .thrown err => isRetryableError err

/-- The response is returned, the error is thrown again. -/
def Outcome.completion : Outcome Body → Completion Body
  | .response res => .returned res
  | .thrown err => .rethrown err

/-- The call returns a response with a status below 500. -/
def Completion.reachedUpstream : Completion Body → Bool
  | .returned res => decide (res.status < 500)
  | _ => false

/-- The one outcome a completed call owes the circuit. -/
def Completion.owed (completion : Completion Body) : CircuitCall :=
  if completion.reachedUpstream then .recordSuccess else .recordFailure

theorem le_of_isRetryableHttpStatus {status : Nat} (h : isRetryableHttpStatus status = true) :
    500 ≤ status := by
  simp only [isRetryableHttpStatus, List.mem_cons, List.not_mem_nil, or_false,
    decide_eq_true_eq] at h
  omega

/-- A retryable status is no `ok`: only the other ones leave the loop at once. -/
theorem responseOk_of_isRetryableHttpStatus {status : Nat}
    (h : isRetryableHttpStatus status = true) : responseOk status = false := by
  have hle := le_of_isRetryableHttpStatus h
  simp only [responseOk, Bool.and_eq_false_iff, decide_eq_false_iff_not]
  omega

theorem settle_of_not_isRetryable (budget i : Nat) {o : Outcome Body}
    (h : o.isRetryable = false) :
    ∃ verdict, settle budget i o = some (verdict, o.completion) ∧
      verdict.calls = [o.completion.owed] := by
  cases o with
  | response res =>
      have hstatus : isRetryableHttpStatus res.status = false := h
      refine ⟨recordHttpOutcome res.status, by simp [settle, hstatus, Outcome.completion], ?_⟩
      by_cases hle : res.status ≥ 500
      · have hlt : ¬ res.status < 500 := by omega
        simp [recordHttpOutcome, hle, Verdict.calls, Outcome.completion, Completion.owed,
          Completion.reachedUpstream, hlt]
      · have hlt : res.status < 500 := by omega
        simp [recordHttpOutcome, hle, Verdict.calls, Outcome.completion, Completion.owed,
          Completion.reachedUpstream, hlt]
  | thrown err =>
      have herr : isRetryableError err = false := h
      exact ⟨.failure, by simp [settle, herr, Outcome.completion], rfl⟩

theorem settle_of_isRetryable (budget i : Nat) {o : Outcome Body} (h : o.isRetryable = true) :
    settle budget i o = if i = budget then some (.failure, o.completion) else none := by
  cases o with
  | response res =>
      have hstatus : isRetryableHttpStatus res.status = true := h
      simp [settle, hstatus, responseOk_of_isRetryableHttpStatus hstatus, Outcome.completion]
  | thrown err =>
      have herr : isRetryableError err = true := h
      simp [settle, herr, Outcome.completion]

/-- A call that ends with a retryable outcome owes a failure. -/
theorem owed_of_isRetryable {o : Outcome Body} (h : o.isRetryable = true) :
    o.completion.owed = .recordFailure := by
  cases o with
  | response res =>
      have hle : ¬ res.status < 500 := Nat.not_lt.mpr (le_of_isRetryableHttpStatus h)
      simp [Outcome.completion, Completion.owed, Completion.reachedUpstream, hle]
  | thrown err => rfl

/-- Whatever ends the call: it completes with the outcome at hand, and records what
this completion owes. -/
theorem settle_eq_some {budget i : Nat} {o : Outcome Body} {settled : Verdict × Completion Body}
    (h : settle budget i o = some settled) :
    settled.2 = o.completion ∧ settled.1.calls = [o.completion.owed] := by
  cases hretry : o.isRetryable with
  | false =>
      obtain ⟨verdict, hsettle, hcalls⟩ := settle_of_not_isRetryable budget i hretry
      obtain rfl : (verdict, o.completion) = settled := Option.some.inj (hsettle.symm.trans h)
      exact ⟨rfl, hcalls⟩
  | true =>
      rw [settle_of_isRetryable budget i hretry] at h
      split at h
      · obtain rfl := Option.some.inj h
        exact ⟨rfl, by rw [owed_of_isRetryable hretry]; rfl⟩
      · cases h

theorem isRetryable_of_settle_eq_none {budget i : Nat} {o : Outcome Body}
    (h : settle budget i o = none) : o.isRetryable = true := by
  cases hretry : o.isRetryable with
  | true => rfl
  | false =>
      obtain ⟨verdict, hsettle, -⟩ := settle_of_not_isRetryable budget i hretry
      rw [hsettle] at h
      cases h

/-- The last attempt of the budget always ends the call. -/
theorem settle_last (budget : Nat) (o : Outcome Body) : (settle budget budget o).isSome = true := by
  cases hretry : o.isRetryable with
  | false =>
      obtain ⟨verdict, hsettle, -⟩ := settle_of_not_isRetryable budget budget hretry
      rw [hsettle]
      rfl
  | true =>
      rw [settle_of_isRetryable budget budget hretry, if_pos rfl]
      rfl

/-! ## The whole call -/

/-- The attempts a call may make: one for the half-open probe. -/
def budgetOf (config : CircuitBreakerConfig) (entered : CircuitBreaker) : Nat :=
  if entered.current = .halfOpen then 1 else config.maxAttempts

/-- What an admitted call promises, `entered` being the circuit it was admitted to. -/
structure KeepsBudget (config : CircuitBreakerConfig) (now : Int) (outcomes : Nat → Outcome Body)
    (entered : CircuitBreaker) (e : Execution Body) : Prop where
  /-- The attempts are the first outcomes, in order. -/
  attempts : e.attempts = triesFrom outcomes e.attempts.length 1
  atLeast : 1 ≤ e.attempts.length
  atMost : e.attempts.length ≤ budgetOf config entered
  /-- Every attempt but the last one was worth another. -/
  retried : ∀ k, k + 1 < e.attempts.length → (outcomes (k + 1)).isRetryable = true
  /-- The call ends as its last attempt did. -/
  completion : ∃ last, e.attempts.getLast? = some last ∧ e.completion = last.completion
  /-- It records the one outcome its completion owes, and leaves. -/
  calls : e.calls = [e.completion.owed, .leave]
  circuit : e.circuit = e.calls.foldl (CircuitCall.apply config now) entered

theorem execute_of_rejected {config : CircuitBreakerConfig} {clock : Nat → Int}
    {c : CircuitBreaker} (outcomes : Nat → Outcome Body)
    (h : (c.enter config (clock 0)).2 = false) :
    execute config clock outcomes c =
      { attempts := [], calls := [], circuit := (c.enter config (clock 0)).1
        completion := .circuitOpen } := by
  simp [execute, h]

/-- A circuit that has just admitted a call shows the state it admitted it in. -/
theorem state_of_admitted {config : CircuitBreakerConfig} {now : Int} {c : CircuitBreaker}
    (h : (c.enter config now).2 = true) :
    (c.enter config now).1.state config now =
      ((c.enter config now).1, (c.enter config now).1.current) := by
  have hne : (c.enter config now).1.current ≠ .opened := by
    rcases CircuitBreaker.enter_cases config now c with
      hreject | ⟨hclosed, hadmitted⟩ | ⟨hhalf, -, hadmitted⟩
    · rw [hreject] at h
      cases h
    · rw [hadmitted, hclosed]
      exact CircuitState.noConfusion
    · rw [hadmitted, hhalf]
      exact CircuitState.noConfusion
  unfold CircuitBreaker.state
  rw [CircuitBreaker.transitionIfCooldownElapsed_of_ne hne]

/-- The call as a loop within its budget. -/
theorem execute_of_admitted {config : CircuitBreakerConfig} {clock : Nat → Int}
    {c : CircuitBreaker} (outcomes : Nat → Outcome Body)
    (h : (c.enter config (clock 0)).2 = true) :
    execute config clock outcomes c =
      let entered := (c.enter config (clock 0)).1
      let run := tryUpTo outcomes (settle (budgetOf config entered)) (budgetOf config entered) 1
      let settled := run.2.getD (.failure, .exhausted)
      let calls := settled.1.calls ++ [CircuitCall.leave]
      { attempts := run.1
        calls := calls
        circuit := calls.foldl (CircuitCall.apply config (clock run.1.length)) entered
        completion := settled.2 } := by
  simp only [execute, state_of_admitted h, h, if_true, budgetOf]

theorem budgetOf_pos {config : CircuitBreakerConfig} (hbudget : 1 ≤ config.maxAttempts)
    (entered : CircuitBreaker) : 1 ≤ budgetOf config entered := by
  unfold budgetOf
  split <;> omega

/-- An admitted call stops at some attempt `k + 1` of its budget, and everything it
leaves behind follows from what settles it there. -/
theorem execute_settles {config : CircuitBreakerConfig} (hbudget : 1 ≤ config.maxAttempts)
    (clock : Nat → Int) {c : CircuitBreaker} (outcomes : Nat → Outcome Body)
    (h : (c.enter config (clock 0)).2 = true) :
    let entered := (c.enter config (clock 0)).1
    let budget := budgetOf config entered
    ∃ k settled, k + 1 ≤ budget ∧ execute config clock outcomes c =
      { attempts := triesFrom outcomes (k + 1) 1
        calls := settled.1.calls ++ [CircuitCall.leave]
        circuit := (settled.1.calls ++ [CircuitCall.leave]).foldl
          (CircuitCall.apply config (clock (k + 1))) entered
        completion := settled.2 } ∧
      settle budget (1 + k) (outcomes (1 + k)) = some settled ∧
        ∀ j < k, settle budget (1 + j) (outcomes (1 + j)) = none := by
  intro entered budget
  have hpos : 1 ≤ budget := budgetOf_pos hbudget entered
  -- the budget is positive, so the loop is one of `left` tries and a last one
  obtain ⟨left, hleft⟩ : ∃ left, budget = left + 1 := ⟨budget - 1, by omega⟩
  obtain ⟨k, hk, settled, hrun, hsettled, hbefore⟩ :=
    tryUpTo_spec outcomes (settle budget) left 1
      (fun o => by
        rw [Nat.add_comm, ← hleft]
        exact settle_last budget o)
  refine ⟨k, settled, by omega, ?_, hsettled, hbefore⟩
  have hloop : tryUpTo outcomes (settle (budgetOf config (c.enter config (clock 0)).1))
      (budgetOf config (c.enter config (clock 0)).1) 1 =
      (triesFrom outcomes (k + 1) 1, some settled) := by
    rw [← hrun, ← hleft]
  rw [execute_of_admitted outcomes h]
  simp only [hloop, Option.getD_some, length_triesFrom]
  rfl

theorem execute_keepsBudget {config : CircuitBreakerConfig} (hbudget : 1 ≤ config.maxAttempts)
    {clock : Nat → Int} {c : CircuitBreaker} (outcomes : Nat → Outcome Body)
    (h : (c.enter config (clock 0)).2 = true) :
    KeepsBudget config (clock (execute config clock outcomes c).attempts.length) outcomes
      (c.enter config (clock 0)).1 (execute config clock outcomes c) := by
  obtain ⟨k, settled, hk, hrun, hsettled, hbefore⟩ := execute_settles hbudget clock outcomes h
  obtain ⟨hcompletion, hcalls⟩ := settle_eq_some hsettled
  rw [hrun, hcalls, hcompletion]
  exact
    { attempts := by simp
      atLeast := by simp
      atMost := by simpa using hk
      retried := by
        intro j hj
        rw [length_triesFrom] at hj
        rw [Nat.add_comm]
        exact isRetryable_of_settle_eq_none (hbefore j (by omega))
      completion := ⟨outcomes (1 + k), getLast?_triesFrom k 1, rfl⟩
      calls := rfl
      circuit := by simp }

/-! ## The call among the overlapping ones -/

/-- The verdict of the overlapping calls is the one the loop settles with. -/
theorem verdict_eq_settle (call : Call) (hle : call.attempt ≤ call.budget) (o : Outcome Body) :
    verdict call o.result =
      (settle call.budget call.attempt o).elim .retry Prod.fst := by
  cases o with
  | response res =>
      simp only [verdict, Outcome.result, settle]
      split
      · rfl
      · by_cases hlast : call.attempt = call.budget
        · simp [hlast]
        · have hnext : call.attempt + 1 ≤ call.budget := by omega
          simp [hlast, hnext]
  | thrown err =>
      simp only [verdict, Outcome.result, settle]
      by_cases hlast : call.attempt = call.budget
      · simp [hlast]
      · have hnext : call.attempt + 1 ≤ call.budget := by omega
        cases isRetryableError err <;> simp [hlast, hnext]

/-- The clock of a call that waits `waits i` for its attempt `i`. -/
def clockFrom (now : Int) (waits : Nat → Nat) : Nat → Int
  | 0 => now
  | i + 1 => clockFrom now waits i + waits (i + 1)

@[simp] theorem clockFrom_zero (now : Int) (waits : Nat → Nat) : clockFrom now waits 0 = now := rfl

/-- What happens to a call that is alone: time passes and its attempts come back. -/
def soloEvents (id : Nat) (waits : Nat → Nat) (outcomes : Nat → Outcome Body) :
    Nat → Nat → List PolicyEvent
  | 0, _ => []
  | n + 1, i =>
      .pass (waits i) :: .attempt id (outcomes i).result :: soloEvents id waits outcomes n (i + 1)

/-- A call is alone on the circuit and waits for attempt `i + 1`. -/
def waiting (clock : Nat → Int) (circuit : CircuitBreaker) (call : Call) (nextCall i : Nat) :
    HttpPolicy :=
  { now := clock i, circuit := circuit, calls := [{ call with attempt := i + 1 }]
    nextCall := nextCall }

section

variable (config : CircuitBreakerConfig) (now : Int) (waits : Nat → Nat)
  (circuit : CircuitBreaker) (nextCall : Nat) {outcomes : Nat → Outcome Body} {call : Call}
  {i : Nat}

theorem run_attempt_of_none (hle : i + 1 ≤ call.budget)
    (h : settle call.budget (i + 1) (outcomes (i + 1)) = none) :
    (HttpPolicy.system config).run (waiting (clockFrom now waits) circuit call nextCall i)
        [.pass (waits (i + 1)), .attempt call.id (outcomes (i + 1)).result] =
      waiting (clockFrom now waits) circuit call nextCall (i + 1) := by
  have hverdict := verdict_eq_settle { call with attempt := i + 1 } hle (outcomes (i + 1))
  rw [h] at hverdict
  simp [System.run, HttpPolicy.system, HttpPolicy.step, HttpPolicy.attempt, waiting, hverdict,
    HttpPolicy.retry, clockFrom]

theorem run_attempt_of_some (hle : i + 1 ≤ call.budget) {settled : Verdict × Completion Body}
    (h : settle call.budget (i + 1) (outcomes (i + 1)) = some settled) :
    (HttpPolicy.system config).run (waiting (clockFrom now waits) circuit call nextCall i)
        [.pass (waits (i + 1)), .attempt call.id (outcomes (i + 1)).result] =
      { now := clockFrom now waits (i + 1)
        circuit := (settled.1.calls ++ [CircuitCall.leave]).foldl
          (CircuitCall.apply config (clockFrom now waits (i + 1))) circuit
        calls := []
        nextCall := nextCall } := by
  have hverdict := verdict_eq_settle { call with attempt := i + 1 } hle (outcomes (i + 1))
  have hcalls := (settle_eq_some h).2
  rw [h] at hverdict
  cases hsettled : settled.1 with
  | retry =>
      rw [hsettled] at hcalls
      cases hcalls
  | success | failure =>
      simp [System.run, HttpPolicy.system, HttpPolicy.step, HttpPolicy.attempt, waiting, hverdict,
        HttpPolicy.settle, clockFrom, hsettled, Verdict.calls, CircuitCall.apply]

/-- From the attempt it waits for, the call goes on to the one that settles it. -/
theorem run_soloEvents {k : Nat} (hle : i + k + 1 ≤ call.budget)
    {settled : Verdict × Completion Body}
    (hsettled : settle call.budget (i + 1 + k) (outcomes (i + 1 + k)) = some settled)
    (hbefore : ∀ j < k, settle call.budget (i + 1 + j) (outcomes (i + 1 + j)) = none) :
    (HttpPolicy.system config).run (waiting (clockFrom now waits) circuit call nextCall i)
        (soloEvents call.id waits outcomes (k + 1) (i + 1)) =
      { now := clockFrom now waits (i + 1 + k)
        circuit := (settled.1.calls ++ [CircuitCall.leave]).foldl
          (CircuitCall.apply config (clockFrom now waits (i + 1 + k))) circuit
        calls := []
        nextCall := nextCall } := by
  induction k generalizing i with
  | zero => exact run_attempt_of_some config now waits circuit nextCall (by omega) hsettled
  | succ k ih =>
      have hfirst := run_attempt_of_none config now waits circuit nextCall (by omega)
        (hbefore 0 (by omega))
      have hshift : ∀ j, i + 1 + (j + 1) = i + 1 + 1 + j := fun j => by omega
      rw [show soloEvents call.id waits outcomes (k + 1 + 1) (i + 1) =
          [.pass (waits (i + 1)), .attempt call.id (outcomes (i + 1)).result] ++
            soloEvents call.id waits outcomes (k + 1) (i + 1 + 1) from rfl,
        System.run_append, hfirst, hshift k]
      refine ih (by omega) (hshift k ▸ hsettled) ?_
      intro j hj
      exact hshift j ▸ hbefore (j + 1) (by omega)

end

/-- An admitted call waits for its first attempt. -/
theorem step_execute_of_admitted {config : CircuitBreakerConfig}
    (hbudget : 1 ≤ config.maxAttempts) {p : HttpPolicy} (hcalls : p.calls = [])
    (h : (p.circuit.enter config p.now).2 = true) (waits : Nat → Nat) :
    HttpPolicy.step config p .execute =
      waiting (clockFrom p.now waits) (p.circuit.enter config p.now).1
        ⟨p.nextCall, (p.circuit.enter config p.now).1.current,
          budgetOf config (p.circuit.enter config p.now).1, 1⟩ (p.nextCall + 1) 0 := by
  have hpos : budgetOf config (p.circuit.enter config p.now).1 ≠ 0 := by
    unfold budgetOf
    split <;> omega
  have hsame := state_of_admitted h
  simp only [budgetOf] at hpos
  simp [HttpPolicy.step, HttpPolicy.execute, h, hsame, hpos, hcalls, waiting, clockFrom, budgetOf]

/-- Alone on the circuit, `execute` is the run of the overlapping model in which the
attempts it makes come back one after the other. -/
theorem execute_run {config : CircuitBreakerConfig} (hbudget : 1 ≤ config.maxAttempts)
    {p : HttpPolicy} (hcalls : p.calls = []) (h : (p.circuit.enter config p.now).2 = true)
    (waits : Nat → Nat) (outcomes : Nat → Outcome Body) :
    let e := execute config (clockFrom p.now waits) outcomes p.circuit
    (HttpPolicy.system config).run p
        (.execute :: soloEvents p.nextCall waits outcomes e.attempts.length 1) =
      { now := clockFrom p.now waits e.attempts.length, circuit := e.circuit, calls := []
        nextCall := p.nextCall + 1 } := by
  intro e
  obtain ⟨k, settled, hk, hrun, hsettled, hbefore⟩ :=
    execute_settles hbudget (clockFrom p.now waits) outcomes h
  have he : e = _ := hrun
  rw [he, length_triesFrom, System.run_cons,
    show (HttpPolicy.system config).step p .execute = HttpPolicy.step config p .execute from rfl,
    step_execute_of_admitted hbudget hcalls h waits]
  let call : Call := ⟨p.nextCall, (p.circuit.enter config p.now).1.current,
    budgetOf config (p.circuit.enter config p.now).1, 1⟩
  have hle : 0 + k + 1 ≤ call.budget := by simpa using hk
  have hsettled' : settle call.budget (0 + 1 + k) (outcomes (0 + 1 + k)) = some settled := by
    simpa using hsettled
  have hgo := run_soloEvents config p.now waits (p.circuit.enter config p.now).1 (p.nextCall + 1)
    hle hsettled' (by simpa using hbefore)
  simpa [Nat.add_comm 1 k] using hgo

/-! ## The budget and the accounts -/

/-- A rejected call makes no attempt and touches nothing more of the circuit.  An
admitted one keeps its budget, which is a single attempt for the half-open probe. -/
theorem execute_accounts (config : CircuitBreakerConfig) (hbudget : 1 ≤ config.maxAttempts)
    (clock : Nat → Int) (outcomes : Nat → Outcome Body) (c : CircuitBreaker) :
    let entered := c.enter config (clock 0)
    let e := execute config clock outcomes c
    (entered.2 = false →
      e.attempts = [] ∧ e.calls = [] ∧ e.circuit = entered.1 ∧ e.completion = .circuitOpen) ∧
    (entered.2 = true →
      KeepsBudget config (clock e.attempts.length) outcomes entered.1 e ∧
      (entered.1.current = .halfOpen → e.attempts.length = 1) ∧
      e.attempts.length ≤ config.maxAttempts) := by
  intro entered e
  constructor
  · intro hrejected
    have he : e = _ := execute_of_rejected outcomes hrejected
    rw [he]
    exact ⟨rfl, rfl, rfl, rfl⟩
  · intro hadmitted
    have hkeeps : KeepsBudget config (clock e.attempts.length) outcomes entered.1 e :=
      execute_keepsBudget hbudget outcomes hadmitted
    have hatLeast := hkeeps.atLeast
    have hatMost := hkeeps.atMost
    unfold budgetOf at hatMost
    refine ⟨hkeeps, ?_, ?_⟩
    · intro hhalf
      rw [if_pos hhalf] at hatMost
      omega
    · split at hatMost <;> omega

/-- A timeout, a 503 and then nothing but 200. -/
def slowStart (i : Nat) : Outcome Unit :=
  if i = 1 then .thrown (.error { name := some "TimeoutError" })
  else .response ⟨if i = 2 then 503 else 200, ()⟩

theorem execute_accounts_slowStart :
    (execute ⟨5, 60000, 30000, 3⟩ (fun i => i) slowStart {}).attempts.length ≤ 3 ∧
      (execute ⟨5, 60000, 30000, 3⟩ (fun i => i) slowStart {}).calls = [.recordSuccess, .leave] :=
  ⟨((execute_accounts ⟨5, 60000, 30000, 3⟩ (by decide) (fun i => i) slowStart {}).2 rfl).2.2,
    by decide⟩

end Resilience
end Ctem
