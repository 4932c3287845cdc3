import Mathlib.Data.List.Basic

/-!
# The circuit breaker

`CircuitBreaker` of `libs/resilience`: closed until `failureThreshold` failures
fall into `windowMs`, open for `cooldownMs`, then half-open until a recorded
outcome decides.  The object has no notion of a call: `recordSuccess`,
`recordFailure` and `leave` look at nothing but the fields.

`enter_cases` says once what admission can do; the recorded outcomes have one
lemma per state of the circuit.
-/

namespace Ctem
namespace Resilience

/-- `'closed' | 'open' | 'half_open'`. -/
inductive CircuitState where
  | closed | opened | halfOpen
deriving DecidableEq, Repr

/-- The knobs the breaker and the retry loop read. -/
structure CircuitBreakerConfig where
  failureThreshold : Nat
  windowMs : Nat
  cooldownMs : Nat
  maxAttempts : Nat

/-- The fields of a circuit; times are readings of its clock. -/
structure CircuitBreaker where
  current : CircuitState := .closed
  failures : List Int := []
  openedAt : Int := 0
  probeInFlight : Bool := false
deriving DecidableEq

namespace CircuitBreaker

variable (config : CircuitBreakerConfig) (now : Int) (c : CircuitBreaker)

/-- An open circuit has waited its cooldown. -/
def cooldownElapsed : Bool :=
  decide (now - c.openedAt ≥ config.cooldownMs)

def transitionIfCooldownElapsed : CircuitBreaker :=
  if c.current = .opened ∧ cooldownElapsed config now c = true then
    { c with current := .halfOpen }
  else c

/-- The getter `state`, with the circuit it leaves behind. -/
def state : CircuitBreaker × CircuitState :=
  (transitionIfCooldownElapsed config now c, (transitionIfCooldownElapsed config now c).current)

/-- `enter`: the circuit behind it, and whether the call was admitted. -/
def enter : CircuitBreaker × Bool :=
  let c := transitionIfCooldownElapsed config now c
  match c.current with
  | .opened => (c, false)
  | .halfOpen =>
      if c.probeInFlight then (c, false)
      else ({ c with probeInFlight := true }, true)
  | .closed => (c, true)

def leave : CircuitBreaker :=
  { c with probeInFlight := false }

def prune : CircuitBreaker :=
  if c.failures.isEmpty then c
  else { c with failures := c.failures.filter fun ts => decide (ts > now - config.windowMs) }

/-- The private `open`. -/
def trip : CircuitBreaker :=
  { c with current := .opened, openedAt := now, failures := [] }

def recordSuccess : CircuitBreaker :=
  match c.current with
  | .closed => prune config now c
  | _ => { c with current := .closed, failures := [] }

def recordFailure : CircuitBreaker :=
  match c.current with
  | .halfOpen => trip now c
  | _ =>
      let pruned := prune config now c
      let counted := { pruned with failures := pruned.failures ++ [now] }
      if counted.failures.length ≥ config.failureThreshold then trip now counted else counted

/-! ## What each operation leaves of the state and of the probe slot -/

@[simp] theorem leave_current : (leave c).current = c.current := rfl

@[simp] theorem leave_probeInFlight : (leave c).probeInFlight = false := rfl

@[simp] theorem prune_current : (prune config now c).current = c.current := by
  unfold prune
  split <;> rfl

@[simp] theorem prune_probeInFlight : (prune config now c).probeInFlight = c.probeInFlight := by
  unfold prune
  split <;> rfl

variable {config now c}

theorem transitionIfCooldownElapsed_of_ne (h : c.current ≠ .opened) :
    transitionIfCooldownElapsed config now c = c :=
  if_neg fun hopen => h hopen.1

/-- The cooldown moves the circuit only from open to half-open, and leaves the
probe slot alone. -/
theorem transitionIfCooldownElapsed_cases (config : CircuitBreakerConfig) (now : Int)
    (c : CircuitBreaker) :
    transitionIfCooldownElapsed config now c = c ∨
      (c.current = .opened ∧ cooldownElapsed config now c = true ∧
        transitionIfCooldownElapsed config now c = { c with current := .halfOpen }) := by
  by_cases h : c.current = .opened ∧ cooldownElapsed config now c = true
  · exact Or.inr ⟨h.1, h.2, if_pos h⟩
  · exact Or.inl (if_neg h)

/-- `enter` rejects and at most lets the cooldown act, or admits in `closed` and
changes nothing, or admits in `half_open` and takes the free probe slot. -/
theorem enter_cases (config : CircuitBreakerConfig) (now : Int) (c : CircuitBreaker) :
    (enter config now c = (transitionIfCooldownElapsed config now c, false)) ∨
      (c.current = .closed ∧ enter config now c = (c, true)) ∨
      ((transitionIfCooldownElapsed config now c).current = .halfOpen ∧ c.probeInFlight = false ∧
        enter config now c =
          ({ transitionIfCooldownElapsed config now c with probeInFlight := true }, true)) := by
  have hslot : (transitionIfCooldownElapsed config now c).probeInFlight = c.probeInFlight := by
    unfold transitionIfCooldownElapsed
    split <;> rfl
  unfold enter
  cases hcurrent : (transitionIfCooldownElapsed config now c).current with
  | opened => simp [hcurrent]
  | halfOpen =>
      cases hprobe : c.probeInFlight with
      | true => simp [hcurrent, hslot, hprobe]
      | false => simp [hcurrent, hslot, hprobe]
  | closed =>
      -- the cooldown never leads to `closed`, so nothing has moved
      rcases transitionIfCooldownElapsed_cases config now c with
        hsame | ⟨-, -, hmoved⟩
      · rw [hsame] at hcurrent ⊢
        simp [hcurrent]
      · rw [hmoved] at hcurrent
        cases hcurrent

theorem recordSuccess_current : (recordSuccess config now c).current = .closed := by
  unfold recordSuccess
  cases hcurrent : c.current with
  | closed => simp [hcurrent]
  | opened => rfl
  | halfOpen => rfl

/-- A recorded failure never closes the circuit, and keeps an open one open. -/
theorem recordFailure_current (config : CircuitBreakerConfig) (now : Int) (c : CircuitBreaker) :
    (recordFailure config now c).current = .opened ∨
      (c.current = .closed ∧ (recordFailure config now c).current = .closed) := by
  unfold recordFailure
  cases hcurrent : c.current with
  | halfOpen => exact Or.inl rfl
  | closed =>
      simp only
      split
      · exact Or.inl rfl
      · exact Or.inr ⟨trivial, by simp [hcurrent]⟩
  | opened =>
      simp only
      split
      · exact Or.inl rfl
      · exact Or.inl (by simp [hcurrent])

end CircuitBreaker

end Resilience
end Ctem
