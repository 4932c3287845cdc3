import Ctem.Foundation.Runs
import Ctem.Resilience.CircuitBreaker
import Mathlib.Data.List.Nodup

/-!
# Overlapping calls on one circuit

`InternalHttpPolicy.execute` on one circuit name.  A call enters, then waits for
one attempt after the other; the attempt that settles it records an outcome and
leaves in one stretch of code without an `await`.  Between two attempts anything
may happen: other calls enter and settle, and time passes.

* `Call` is an `execute` that waits for an attempt; it remembers the state it was
  admitted in, which the circuit itself does not.
* `verdict` is what the loop does with the outcome of an attempt.
* `KeepsProtocol` is what the breaker promises of one step.
* `execute_protocol_iff`: along a run the promise is kept precisely when no call
  settles in a state of the circuit that is none of its business.
-/

namespace Ctem
namespace Resilience

open Foundation

/-- What one `attempt(signal)` comes back with: a response, or an error with what
`isRetryableError` says of it. -/
inductive AttemptResult where
  | response (status : Nat)
  | failed (retryable : Bool)

/-- `RETRYABLE_HTTP_STATUSES`. -/
def isRetryableHttpStatus (status : Nat) : Bool :=
  decide (status ∈ [502, 503, 504])

/-- `Response.ok`. -/
def responseOk (status : Nat) : Bool :=
  decide (200 ≤ status) && decide (status ≤ 299)

/-- An `execute` that waits for an attempt. -/
structure Call where
  id : Nat
  /-- The state of the circuit `enter` admitted the call in. -/
  admitted : CircuitState
  budget : Nat
  /-- The attempt it waits for, counted from one. -/
  attempt : Nat := 1
deriving DecidableEq

/-- The call was admitted as the half-open probe. -/
def Call.isProbe (call : Call) : Bool :=
  decide (call.admitted = .halfOpen)

/-- What the loop does with an attempt: record a success, record a failure, or
try again. -/
inductive Verdict where
  | success | failure | retry
deriving DecidableEq

/-- `recordHttpOutcome`. -/
def recordHttpOutcome (status : Nat) : Verdict :=
  if status ≥ 500 then .failure else .success

def verdict (call : Call) : AttemptResult → Verdict
  | .response status =>
      if responseOk status || !isRetryableHttpStatus status then recordHttpOutcome status
      else if call.attempt = call.budget then .failure
      else if call.attempt + 1 ≤ call.budget then .retry
      else .failure
  | .failed retryable =>
      if !retryable || decide (call.attempt = call.budget) then .failure
      else if call.attempt + 1 ≤ call.budget then .retry
      else .failure

/-- One circuit and the calls in flight on it. -/
structure HttpPolicy where
  now : Int := 0
  circuit : CircuitBreaker := {}
  calls : List Call := []
  nextCall : Nat := 0
deriving DecidableEq

inductive PolicyEvent where
  | pass (ms : Nat)
  | execute
  | attempt (id : Nat) (result : AttemptResult)

namespace HttpPolicy

variable (config : CircuitBreakerConfig)

/-- The calls in flight that were admitted in `half_open`. -/
def probes (p : HttpPolicy) : List Call :=
  p.calls.filter Call.isProbe

/-- `execute` up to its first `await`.  A budget of zero records a failure at once. -/
def execute (p : HttpPolicy) : HttpPolicy :=
  let entered := p.circuit.enter config p.now
  if entered.2 then
    let read := entered.1.state config p.now
    let budget := if read.2 = .halfOpen then 1 else config.maxAttempts
    if budget = 0 then -- the loop makes no attempt, and falls through to the failure
      { p with circuit := (read.1.recordFailure config p.now).leave, nextCall := p.nextCall + 1 }
    else
      { p with
        circuit := read.1
        calls := ⟨p.nextCall, entered.1.current, budget, 1⟩ :: p.calls
        nextCall := p.nextCall + 1 }
  else { p with circuit := entered.1 }

/-- The call records an outcome, runs its `finally` and returns. -/
def settle (p : HttpPolicy) (id : Nat) (recorded : CircuitBreaker) : HttpPolicy :=
  { p with
    circuit := recorded.leave
    calls := p.calls.filter fun call => decide (call.id ≠ id) }

/-- The call sleeps and tries again. -/
def retry (p : HttpPolicy) (id : Nat) : HttpPolicy :=
  { p with
    calls := p.calls.map fun call =>
      if call.id = id then { call with attempt := call.attempt + 1 } else call }

/-- An attempt of the call comes back. -/
def attempt (p : HttpPolicy) (id : Nat) (result : AttemptResult) : HttpPolicy :=
  match p.calls.find? fun call => decide (call.id = id) with
  | none => p
  | some call =>
      match verdict call result with
      | .success => p.settle id (p.circuit.recordSuccess config p.now)
      | .failure => p.settle id (p.circuit.recordFailure config p.now)
      | .retry => p.retry id

def step (p : HttpPolicy) : PolicyEvent → HttpPolicy
  | .pass ms => { p with now := p.now + ms }
  | .execute => p.execute config
  | .attempt id result => p.attempt config id result

/-- The calls on one circuit: any event may come at any time. -/
def system : System HttpPolicy PolicyEvent where
  step := step config
  allowed := fun _ _ => True

/-! ## The promise and the condition -/

/-- The event is the attempt that settles the call with the verdict. -/
def Settles (e : PolicyEvent) (call : Call) (outcome : Verdict) : Prop :=
  outcome ≠ .retry ∧ ∃ result, e = .attempt call.id result ∧ verdict call result = outcome

/-- What the breaker promises of a step. -/
structure KeepsProtocol (p : HttpPolicy) (e : PolicyEvent) : Prop where
  /-- At most one call admitted in `half_open` is in flight. -/
  oneProbe : (step config p e).probes.length ≤ 1
  /-- The circuit leaves `open` only after the cooldown and only to `half_open`. -/
  leavesOpen : p.circuit.current = .opened → (step config p e).circuit.current ≠ .opened →
    (step config p e).circuit.current = .halfOpen ∧
      p.circuit.cooldownElapsed config p.now = true
  /-- It returns to `closed` only through the success of the probe. -/
  closes : p.circuit.current ≠ .closed → (step config p e).circuit.current = .closed →
    ∃ call ∈ p.calls, call.admitted = .halfOpen ∧ Settles e call .success
  /-- A call admitted in `closed` closes nothing and keeps the slot of a probe. -/
  bystander : ∀ call ∈ p.calls, call.admitted = .closed → ∀ outcome, Settles e call outcome →
    (p.circuit.current ≠ .closed → (step config p e).circuit.current ≠ .closed) ∧
      (p.circuit.probeInFlight = true → (step config p e).circuit.probeInFlight = true)

/-- The event settles no call that is not concerned: a call admitted in `closed`
settles only while no probe is in flight, and a success is recorded only by a call
of a closed circuit or by the probe of a half-open one. -/
def Undisturbed (p : HttpPolicy) (e : PolicyEvent) : Prop :=
  ∀ call ∈ p.calls, ∀ outcome, Settles e call outcome →
    (call.admitted = .closed → p.probes = []) ∧
      (outcome = .success →
        p.circuit.current = .closed ∨
          (p.circuit.current = .halfOpen ∧ call.admitted = .halfOpen))

/-- What links the calls in flight to the fields of the circuit. -/
structure Consistent (p : HttpPolicy) : Prop where
  fresh : ∀ call ∈ p.calls, call.id < p.nextCall
  distinct : (p.calls.map Call.id).Nodup
  admitted : ∀ call ∈ p.calls, call.admitted = .closed ∨ call.admitted = .halfOpen
  oneProbe : p.probes.length ≤ 1
  slot : p.circuit.probeInFlight = true ↔ p.probes ≠ []
  tripped : p.probes ≠ [] → p.circuit.current ≠ .closed

theorem consistent_init (now : Int) : Consistent { now := now } where
  fresh := by simp
  distinct := by simp
  admitted := by simp
  oneProbe := by simp [probes]
  slot := by simp [probes]
  tripped := by simp [probes]

/-! ## What a step can do -/

variable {config} {p : HttpPolicy}

/-- `execute` rejects, or admits in `closed` and leaves the circuit alone (unless
there is no budget), or admits the probe. -/
theorem execute_cases (config : CircuitBreakerConfig) (p : HttpPolicy) :
    (p.execute config =
        { p with circuit := p.circuit.transitionIfCooldownElapsed config p.now }) ∨
      (p.circuit.current = .closed ∧ p.execute config =
        { p with
          circuit := (p.circuit.recordFailure config p.now).leave
          nextCall := p.nextCall + 1 }) ∨
      (p.circuit.current = .closed ∧ p.execute config =
        { p with
          calls := ⟨p.nextCall, .closed, config.maxAttempts, 1⟩ :: p.calls
          nextCall := p.nextCall + 1 }) ∨
      ((p.circuit.transitionIfCooldownElapsed config p.now).current = .halfOpen ∧
        p.circuit.probeInFlight = false ∧ p.execute config =
        { p with
          circuit :=
            { p.circuit.transitionIfCooldownElapsed config p.now with probeInFlight := true }
          calls := ⟨p.nextCall, .halfOpen, 1, 1⟩ :: p.calls
          nextCall := p.nextCall + 1 }) := by
  unfold execute
  rcases CircuitBreaker.enter_cases config p.now p.circuit with
    hreject | ⟨hclosed, hadmitted⟩ | ⟨hhalf, hfree, hadmitted⟩
  · exact Or.inl (by simp [hreject])
  · have hsame : p.circuit.transitionIfCooldownElapsed config p.now = p.circuit :=
      CircuitBreaker.transitionIfCooldownElapsed_of_ne (by simp [hclosed])
    by_cases hbudget : config.maxAttempts = 0
    · exact Or.inr (Or.inl ⟨hclosed, by simp [hadmitted, CircuitBreaker.state, hsame, hclosed,
        hbudget]⟩)
    · exact Or.inr (Or.inr (Or.inl ⟨hclosed, by simp [hadmitted, CircuitBreaker.state, hsame,
        hclosed, hbudget]⟩))
  · -- a half-open circuit stays half-open when `execute` reads its state for the budget
    refine Or.inr (Or.inr (Or.inr ⟨hhalf, hfree, ?_⟩))
    generalize p.circuit.transitionIfCooldownElapsed config p.now = entered at hhalf hadmitted ⊢
    obtain ⟨current, failures, openedAt, probeInFlight⟩ := entered
    obtain rfl : current = .halfOpen := hhalf
    simp [hadmitted, CircuitBreaker.state, CircuitBreaker.transitionIfCooldownElapsed]

/-- The attempt belongs to no call in flight, or to one which records a success or
a failure and is gone, or tries again. -/
theorem attempt_cases (config : CircuitBreakerConfig) (p : HttpPolicy) (id : Nat)
    (result : AttemptResult) :
    (p.attempt config id result = p ∧ ∀ call ∈ p.calls, call.id ≠ id) ∨
      ∃ call ∈ p.calls, call.id = id ∧
        ((verdict call result = .success ∧ p.attempt config id result =
            p.settle id (p.circuit.recordSuccess config p.now)) ∨
          (verdict call result = .failure ∧ p.attempt config id result =
            p.settle id (p.circuit.recordFailure config p.now)) ∨
          (verdict call result = .retry ∧ p.attempt config id result = p.retry id)) := by
  unfold attempt
  cases hfind : p.calls.find? fun call => decide (call.id = id) with
  | none =>
      refine Or.inl ⟨rfl, ?_⟩
      intro call hcall
      simpa using List.find?_eq_none.mp hfind call hcall
  | some call =>
      have hid : call.id = id := by simpa using List.find?_some hfind
      refine Or.inr ⟨call, List.mem_of_find?_eq_some hfind, hid, ?_⟩
      cases hverdict : verdict call result <;> simp [hverdict]

/-- Two calls in flight with one id are one call. -/
theorem Consistent.eq_of_id_eq (h : p.Consistent) {call call' : Call} (hcall : call ∈ p.calls)
    (hcall' : call' ∈ p.calls) (hid : call.id = call'.id) : call = call' :=
  List.inj_on_of_nodup_map h.distinct hcall hcall' hid

theorem mem_probes {call : Call} :
    call ∈ p.probes ↔ call ∈ p.calls ∧ call.admitted = .halfOpen := by
  simp [probes, Call.isProbe]

/-- The only probe in flight is the one that settles. -/
theorem Consistent.probes_settle_of_probe (h : p.Consistent) {call : Call}
    (hcall : call ∈ p.calls) (hprobe : call.admitted = .halfOpen) (recorded : CircuitBreaker) :
    (p.settle call.id recorded).probes = [] := by
  have hmem : call ∈ p.probes := mem_probes.mpr ⟨hcall, hprobe⟩
  rw [List.eq_nil_iff_forall_not_mem]
  intro other hother
  obtain ⟨hleft, hhalf⟩ := mem_probes.mp hother
  obtain ⟨hin, hne⟩ := List.mem_filter.mp hleft
  have hmem' : other ∈ p.probes := mem_probes.mpr ⟨hin, hhalf⟩
  -- both are in a list of at most one element
  match hprobes : p.probes, h.oneProbe with
  | [], _ =>
      rw [hprobes] at hmem
      cases hmem
  | [only], _ =>
      rw [hprobes, List.mem_singleton] at hmem hmem'
      rw [hmem, hmem'] at hne
      simp at hne

/-- A call that is no probe leaves the probes as they are. -/
theorem Consistent.probes_settle_of_closed (h : p.Consistent) {call : Call}
    (hcall : call ∈ p.calls) (hclosed : call.admitted = .closed) (recorded : CircuitBreaker) :
    (p.settle call.id recorded).probes = p.probes := by
  unfold probes settle
  rw [List.filter_filter]
  apply List.filter_congr
  intro other hother
  by_cases hid : other.id = call.id
  · have hsame : other = call := h.eq_of_id_eq hother hcall hid
    simp [hsame, Call.isProbe, hclosed]
  · simp [hid]

theorem probes_retry (id : Nat) : (p.retry id).probes.length = p.probes.length := by
  unfold probes retry
  rw [List.filter_map, List.length_map]
  congr 1
  apply List.filter_congr
  intro call _
  simp only [Function.comp_apply]
  split <;> rfl

/-! ## What a step keeps -/

/-- A call settles without leaving a probe behind: the books stay consistent. -/
theorem Consistent.settle (h : p.Consistent) {call : Call} (hcall : call ∈ p.calls)
    (hend : call.admitted = .closed → p.probes = []) (recorded : CircuitBreaker) :
    (p.settle call.id recorded).Consistent := by
  have hprobes : (p.settle call.id recorded).probes = [] := by
    rcases h.admitted call hcall with hclosed | hprobe
    · rw [h.probes_settle_of_closed hcall hclosed recorded]
      exact hend hclosed
    · exact h.probes_settle_of_probe hcall hprobe recorded
  have hsub : (p.settle call.id recorded).calls.Sublist p.calls := List.filter_sublist
  exact
    { fresh := fun other hother => h.fresh other (hsub.subset hother)
      distinct := h.distinct.sublist (hsub.map Call.id)
      admitted := fun other hother => h.admitted other (hsub.subset hother)
      oneProbe := by simp [hprobes]
      slot := by
        rw [hprobes]
        constructor
        · intro hslot
          cases hslot
        · exact fun hne => absurd rfl hne
      tripped := fun hne => absurd hprobes hne }

theorem Consistent.retry (h : p.Consistent) (id : Nat) : (p.retry id).Consistent := by
  have hlength := probes_retry (p := p) id
  have hne : (p.retry id).probes ≠ [] ↔ p.probes ≠ [] := by
    rw [← List.length_pos_iff, ← List.length_pos_iff, hlength]
  have hids : (p.retry id).calls.map Call.id = p.calls.map Call.id := by
    unfold HttpPolicy.retry
    rw [List.map_map]
    apply List.map_congr_left
    intro call _
    simp only [Function.comp_apply]
    split <;> rfl
  have hmem : ∀ call ∈ (p.retry id).calls, ∃ old ∈ p.calls,
      call.id = old.id ∧ call.admitted = old.admitted := by
    intro call hcall
    obtain ⟨old, hold, rfl⟩ := List.mem_map.mp hcall
    refine ⟨old, hold, ?_⟩
    split <;> exact ⟨rfl, rfl⟩
  refine ⟨?_, hids ▸ h.distinct, ?_, hlength ▸ h.oneProbe, h.slot.trans hne.symm, ?_⟩
  · intro call hcall
    obtain ⟨old, hold, hid, -⟩ := hmem call hcall
    exact hid ▸ h.fresh old hold
  · intro call hcall
    obtain ⟨old, hold, -, hadmitted⟩ := hmem call hcall
    rw [hadmitted]
    exact h.admitted old hold
  · exact fun hprobes => h.tripped (hne.mp hprobes)

/-- A call that is taken in has an id of its own. -/
theorem Consistent.enrolled (h : p.Consistent) {call : Call} (hid : call.id = p.nextCall)
    (hadmitted : call.admitted = .closed ∨ call.admitted = .halfOpen) :
    (∀ c ∈ call :: p.calls, c.id < p.nextCall + 1) ∧ ((call :: p.calls).map Call.id).Nodup ∧
      ∀ c ∈ call :: p.calls, c.admitted = .closed ∨ c.admitted = .halfOpen := by
  refine ⟨?_, ?_, ?_⟩
  · intro c hc
    rcases List.mem_cons.mp hc with rfl | hc
    · omega
    · exact Nat.lt_succ_of_lt (h.fresh c hc)
  · rw [List.map_cons, List.nodup_cons]
    refine ⟨?_, h.distinct⟩
    intro hmem
    obtain ⟨c, hc, hsame⟩ := List.mem_map.mp hmem
    have hlt : c.id < p.nextCall := h.fresh c hc
    omega
  · intro c hc
    rcases List.mem_cons.mp hc with rfl | hc
    · exact hadmitted
    · exact h.admitted c hc

/-- A closed circuit has no probe in flight. -/
theorem Consistent.probes_of_closed (h : p.Consistent) (hclosed : p.circuit.current = .closed) :
    p.probes = [] := by
  by_contra hne
  exact h.tripped hne hclosed

/-- Nobody holds a slot that is free. -/
theorem Consistent.probes_of_free (h : p.Consistent) (hfree : p.circuit.probeInFlight = false) :
    p.probes = [] := by
  by_contra hne
  rw [h.slot.mpr hne] at hfree
  cases hfree

/-- A call that enters takes a new id, and the slot if it is the probe. -/
theorem Consistent.execute (h : p.Consistent) : (p.execute config).Consistent := by
  rcases execute_cases config p with
    heq | ⟨hclosed, heq⟩ | ⟨hclosed, heq⟩ | ⟨hhalf, hfree, heq⟩
  · -- rejected: at most the cooldown has acted
    rw [heq]
    rcases CircuitBreaker.transitionIfCooldownElapsed_cases config p.now p.circuit with
      hsame | ⟨-, -, hmoved⟩
    · rw [hsame]
      exact h
    · rw [hmoved]
      exact ⟨h.fresh, h.distinct, h.admitted, h.oneProbe, h.slot, fun _ hc => by cases hc⟩
  · -- no budget: settled on the spot
    have hnone := h.probes_of_closed hclosed
    rw [heq]
    refine ⟨?_, h.distinct, h.admitted, h.oneProbe, ?_, ?_⟩
    · intro call hcall
      exact Nat.lt_succ_of_lt (h.fresh call hcall)
    · constructor
      · intro hslot
        cases hslot
      · exact fun hne => absurd hnone hne
    · exact fun hne => absurd hnone hne
  · -- admitted in `closed`
    rw [heq]
    obtain ⟨hfresh, hdistinct, hadmitted⟩ :=
      h.enrolled (show (⟨p.nextCall, .closed, config.maxAttempts, 1⟩ : Call).id = p.nextCall from rfl)
        (Or.inl rfl)
    exact ⟨hfresh, hdistinct, hadmitted, h.oneProbe, h.slot, h.tripped⟩
  · -- admitted as the probe: nobody holds the slot
    have hprobes : (p.execute config).probes = [⟨p.nextCall, .halfOpen, 1, 1⟩] := by
      rw [heq]
      change List.filter Call.isProbe (_ :: p.calls) = _
      rw [List.filter_cons_of_pos rfl]
      exact congrArg _ (h.probes_of_free hfree)
    obtain ⟨hfresh, hdistinct, hadmitted⟩ :=
      h.enrolled (show (⟨p.nextCall, .halfOpen, 1, 1⟩ : Call).id = p.nextCall from rfl)
        (Or.inr rfl)
    refine ⟨?_, ?_, ?_, by simp [hprobes], ?_, ?_⟩
    · rw [heq]
      exact hfresh
    · rw [heq]
      exact hdistinct
    · rw [heq]
      exact hadmitted
    · rw [hprobes, heq]
      simp
    · intro _
      rw [heq]
      simp [hhalf]

/-- The calls stay consistent as long as none settles out of turn. -/
theorem Consistent.step (h : p.Consistent) {e : PolicyEvent} (hcond : Undisturbed p e) :
    (step config p e).Consistent := by
  cases e with
  | pass ms => exact ⟨h.fresh, h.distinct, h.admitted, h.oneProbe, h.slot, h.tripped⟩
  | execute => exact h.execute
  | attempt id result =>
      change (p.attempt config id result).Consistent
      rcases attempt_cases config p id result with
        ⟨heq, -⟩ | ⟨call, hcall, rfl, ⟨hverdict, heq⟩ | ⟨hverdict, heq⟩ | ⟨-, heq⟩⟩
      · rw [heq]
        exact h
      · rw [heq]
        have hend := hcond call hcall .success ⟨by simp, result, rfl, hverdict⟩
        exact h.settle hcall hend.1 _
      · rw [heq]
        have hend := hcond call hcall .failure ⟨by simp, result, rfl, hverdict⟩
        exact h.settle hcall hend.1 _
      · rw [heq]
        exact h.retry call.id

/-- Only the call whose attempt comes back settles. -/
theorem Consistent.settles_attempt (h : p.Consistent) {call other : Call} (hcall : call ∈ p.calls)
    (hother : other ∈ p.calls) {result : AttemptResult} {outcome : Verdict}
    (hsettles : Settles (.attempt call.id result) other outcome) :
    other = call ∧ verdict call result = outcome ∧ outcome ≠ .retry := by
  obtain ⟨hne, result', heq, hverdict⟩ := hsettles
  obtain ⟨hid, rfl⟩ := PolicyEvent.attempt.inj heq
  obtain rfl := h.eq_of_id_eq hother hcall hid.symm
  exact ⟨rfl, hverdict, hne⟩

/-- The state a circuit can come to without a recorded success: its own, open, or
half-open behind the cooldown. -/
def Uncleared (config : CircuitBreakerConfig) (p : HttpPolicy) (current : CircuitState) : Prop :=
  current = p.circuit.current ∨ current = .opened ∨
    (p.circuit.current = .opened ∧ p.circuit.cooldownElapsed config p.now = true ∧
      current = .halfOpen)

theorem uncleared_cooldown (config : CircuitBreakerConfig) (p : HttpPolicy) :
    Uncleared config p (p.circuit.transitionIfCooldownElapsed config p.now).current := by
  rcases CircuitBreaker.transitionIfCooldownElapsed_cases config p.now p.circuit with
    hsame | ⟨hopen, helapsed, hmoved⟩
  · exact Or.inl (by rw [hsame])
  · exact Or.inr (Or.inr ⟨hopen, helapsed, by rw [hmoved]⟩)

theorem uncleared_failure (config : CircuitBreakerConfig) (p : HttpPolicy) :
    Uncleared config p (p.circuit.recordFailure config p.now).current := by
  rcases CircuitBreaker.recordFailure_current config p.now p.circuit with
    hopened | ⟨hwas, hclosed⟩
  · exact Or.inr (Or.inl hopened)
  · exact Or.inl (hclosed.trans hwas.symm)

/-- Every step but a recorded success leaves the circuit uncleared. -/
theorem uncleared_or_success (config : CircuitBreakerConfig) (p : HttpPolicy) (e : PolicyEvent) :
    Uncleared config p (HttpPolicy.step config p e).circuit.current ∨
      ∃ call ∈ p.calls, Settles e call .success := by
  cases e with
  | pass ms => exact Or.inl (Or.inl rfl)
  | execute =>
      left
      change Uncleared config p (p.execute config).circuit.current
      rcases execute_cases config p with heq | ⟨-, heq⟩ | ⟨-, heq⟩ | ⟨-, -, heq⟩
      · rw [heq]
        exact uncleared_cooldown config p
      · rw [heq]
        exact uncleared_failure config p
      · rw [heq]
        exact Or.inl rfl
      · rw [heq]
        exact uncleared_cooldown config p
  | attempt id result =>
      change Uncleared config p (p.attempt config id result).circuit.current ∨ _
      rcases attempt_cases config p id result with
        ⟨heq, -⟩ | ⟨call, hcall, rfl, ⟨hverdict, -⟩ | ⟨-, heq⟩ | ⟨-, heq⟩⟩
      · rw [heq]
        exact Or.inl (Or.inl rfl)
      · exact Or.inr ⟨call, hcall, by simp, result, rfl, hverdict⟩
      · rw [heq]
        exact Or.inl (uncleared_failure config p)
      · rw [heq]
        exact Or.inl (Or.inl rfl)

theorem Uncleared.ne_closed {current : CircuitState} (h : Uncleared config p current)
    (hne : p.circuit.current ≠ .closed) : current ≠ .closed := by
  rintro rfl
  rcases h with hsame | hopened | ⟨-, -, hhalf⟩
  · exact hne hsame.symm
  · cases hopened
  · cases hhalf

theorem Uncleared.leavesOpen {current : CircuitState} (h : Uncleared config p current)
    (hopen : p.circuit.current = .opened) (hleft : current ≠ .opened) :
    current = .halfOpen ∧ p.circuit.cooldownElapsed config p.now = true := by
  rcases h with hsame | hopened | ⟨-, helapsed, hhalf⟩
  · exact absurd (hsame.trans hopen) hleft
  · exact absurd hopened hleft
  · exact ⟨hhalf, helapsed⟩

/-- A step that settles nobody out of turn keeps the promise. -/
theorem Consistent.keepsProtocol_of_undisturbed (h : p.Consistent) {e : PolicyEvent}
    (hcond : Undisturbed p e) : KeepsProtocol config p e := by
  have hone : (HttpPolicy.step config p e).probes.length ≤ 1 := (h.step hcond).oneProbe
  -- whoever settles from `closed` meets no probe, and so no taken slot
  have hslot : ∀ call ∈ p.calls, call.admitted = .closed → ∀ outcome, Settles e call outcome →
      p.circuit.probeInFlight ≠ true := by
    intro call hcall hadmitted outcome hsettles htaken
    exact h.slot.mp htaken ((hcond call hcall outcome hsettles).1 hadmitted)
  rcases uncleared_or_success config p e with hstays | ⟨call, hcall, hsettles⟩
  · refine ⟨hone, hstays.leavesOpen, ?_, ?_⟩
    · intro hne hclosed
      exact absurd hclosed (hstays.ne_closed hne)
    · intro other hother hadmitted outcome hother_settles
      refine ⟨hstays.ne_closed, ?_⟩
      intro htaken
      exact absurd htaken (hslot other hother hadmitted outcome hother_settles)
  · -- a success: of a closed circuit, or of the probe of a half-open one
    have hturn := (hcond call hcall .success hsettles).2 rfl
    refine ⟨hone, ?_, ?_, ?_⟩
    · intro hopen
      rcases hturn with hclosed | ⟨hhalf, -⟩
      · rw [hopen] at hclosed
        cases hclosed
      · rw [hopen] at hhalf
        cases hhalf
    · intro hne _
      rcases hturn with hclosed | ⟨-, hprobe⟩
      · exact absurd hclosed hne
      · exact ⟨call, hcall, hprobe, hsettles⟩
    · intro other hother hadmitted outcome hother_settles
      constructor
      · obtain ⟨-, result, rfl, -⟩ := hsettles
        obtain ⟨rfl, -, -⟩ := h.settles_attempt hcall hother hother_settles
        intro hne
        rcases hturn with hclosed | ⟨-, hprobe⟩
        · exact absurd hclosed hne
        · rw [hadmitted] at hprobe
          cases hprobe
      · intro htaken
        exact absurd htaken (hslot other hother hadmitted outcome hother_settles)

/-- A step that keeps the promise settles nobody out of turn. -/
theorem Consistent.undisturbed_of_keepsProtocol (h : p.Consistent) {e : PolicyEvent}
    (hkeeps : KeepsProtocol config p e) : Undisturbed p e := by
  intro call hcall outcome hsettles
  have hsettled := hsettles
  obtain ⟨hne, result, rfl, hverdict⟩ := hsettles
  -- the step is the settlement of this very call
  have hstep : ∃ recorded, HttpPolicy.step config p (.attempt call.id result) =
      p.settle call.id recorded ∧ (outcome = .success → recorded.current = .closed) := by
    change ∃ recorded, p.attempt config call.id result = _ ∧ _
    rcases attempt_cases config p call.id result with
      ⟨-, hnone⟩ | ⟨other, hother, hid, hcases⟩
    · exact absurd rfl (hnone call hcall)
    · obtain rfl := h.eq_of_id_eq hother hcall hid
      rcases hcases with ⟨-, heq⟩ | ⟨hfailed, heq⟩ | ⟨hagain, -⟩
      · exact ⟨_, heq, fun _ => CircuitBreaker.recordSuccess_current⟩
      · refine ⟨_, heq, ?_⟩
        intro hsuccess
        rw [← hverdict, hfailed] at hsuccess
        cases hsuccess
      · exact absurd (hverdict.symm.trans hagain) hne
  obtain ⟨recorded, hstep, hclosed⟩ := hstep
  constructor
  · intro hadmitted
    by_contra hprobes
    have hkept := (hkeeps.bystander call hcall hadmitted outcome hsettled).2 (h.slot.mpr hprobes)
    rw [hstep] at hkept
    cases hkept
  · intro hsuccess
    have hafter : (HttpPolicy.step config p (.attempt call.id result)).circuit.current =
        .closed := by
      rw [hstep]
      exact hclosed hsuccess
    cases hcurrent : p.circuit.current with
    | closed => exact Or.inl rfl
    | opened =>
        have hleft := (hkeeps.leavesOpen hcurrent (by simp [hafter])).1
        rw [hafter] at hleft
        cases hleft
    | halfOpen =>
        obtain ⟨other, hother, hprobe, hother_settles⟩ :=
          hkeeps.closes (by simp [hcurrent]) hafter
        obtain ⟨rfl, -, -⟩ := h.settles_attempt hcall hother hother_settles
        exact Or.inr ⟨rfl, hprobe⟩

/-- **Overlapping calls.**  Along a run of any calls on one circuit every step keeps
the breaker's promise precisely when no call settles in a state that is none of its
business: one admitted in `closed` while a probe is in flight, or with a success
that meets an open circuit or, without being the probe, a half-open one. -/
theorem execute_protocol_iff (config : CircuitBreakerConfig) (now : Int)
    (es : List PolicyEvent) :
    (system config).AllSteps (KeepsProtocol config) { now := now } es ↔
      (system config).AllSteps Undisturbed { now := now } es := by
  apply System.allSteps_congr (I := Consistent)
  · intro p e h hkeeps
    exact h.step (h.undisturbed_of_keepsProtocol hkeeps)
  · intro p e h
    exact ⟨h.undisturbed_of_keepsProtocol, h.keepsProtocol_of_undisturbed⟩
  · exact consistent_init now

/-- Two calls enter a closed circuit.  One fails and opens it, the other succeeds and
closes it again without a cooldown and without a probe. -/
theorem execute_late_success_closes_open_circuit :
    ¬ ∀ (config : CircuitBreakerConfig) (now : Int) (es : List PolicyEvent),
      (system config).AllSteps (KeepsProtocol config) { now := now } es := by
  intro hall
  have hrun := hall ⟨1, 10000, 1000, 1⟩ 0
    [.execute, .execute, .attempt 0 (.response 500), .attempt 1 (.response 200)]
  obtain ⟨-, -, -, hlate, -⟩ := hrun
  have hleft := (hlate.leavesOpen (by decide) (by decide)).1
  exact absurd hleft (by decide)

end HttpPolicy

end Resilience
end Ctem
