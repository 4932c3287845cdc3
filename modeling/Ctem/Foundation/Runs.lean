import Mathlib.Data.List.Basic
import Mathlib.Tactic.Cases

/-!
# Runs of a guarded transition system

A service that reacts to messages is a state together with a total step
function: a message that is refused, or whose transaction rolls back, leaves the
state as it is.  What the environment may send is a relation between the state
and the event, so a run is a list of events each of which was allowed where it
happened.

* `states` lists every state a run visits, the first and the last included.
* `AllSteps P` says that every step of the run satisfies `P` in the state it
  starts from; `Legal` is `AllSteps` of what the environment may send.
* `forall_states_of_allSteps` is the induction on runs for an invariant that
  holds only as long as the steps are well behaved.
* `forall_states_iff_allSteps` is its exact form: if, from a good state, a step
  stays good precisely when it satisfies `P`, then a run visits good states only
  precisely when all its steps satisfy `P`.  `allSteps_congr` is the same for a
  property of the steps themselves.
-/

namespace Ctem
namespace Foundation

universe u v

/-- A state machine and what its environment may do to it. -/
structure System (σ : Type u) (ε : Type v) where
  /-- The effect of one event. -/
  step : σ → ε → σ
  /-- The events the environment can produce in a state. -/
  allowed : σ → ε → Prop

namespace System

variable {σ : Type u} {ε : Type v} (S : System σ ε)

/-- The state after all the events. -/
def run : σ → List ε → σ
  | s, [] => s
  | s, e :: es => run (S.step s e) es

/-- Every state the run visits, the first and the last included. -/
def states : σ → List ε → List σ
  | s, [] => [s]
  | s, e :: es => s :: states (S.step s e) es

/-- Every step of the run satisfies `P` in the state it starts from. -/
def AllSteps (P : σ → ε → Prop) : σ → List ε → Prop
  | _, [] => True
  | s, e :: es => P s e ∧ AllSteps P (S.step s e) es

/-- Whether all steps satisfy a decidable guard can be computed. -/
instance decidableAllSteps (P : σ → ε → Prop) [∀ s e, Decidable (P s e)] :
    (s : σ) → (es : List ε) → Decidable (S.AllSteps P s es)
  | _, [] => isTrue trivial
  | s, e :: es =>
      have := decidableAllSteps P (S.step s e) es
      inferInstanceAs (Decidable (P s e ∧ S.AllSteps P (S.step s e) es))

/-- A run of the system: every event is one the environment can produce. -/
def Legal (s : σ) (es : List ε) : Prop :=
  S.AllSteps S.allowed s es

@[simp] theorem run_nil (s : σ) : S.run s [] = s := rfl

@[simp] theorem run_cons (s : σ) (e : ε) (es : List ε) :
    S.run s (e :: es) = S.run (S.step s e) es := rfl

theorem run_append (s : σ) (es es' : List ε) : S.run s (es ++ es') = S.run (S.run s es) es' := by
  induction es generalizing s with
  | nil => rfl
  | cons e es ih => exact ih (S.step s e)

@[simp] theorem states_nil (s : σ) : S.states s [] = [s] := rfl

@[simp] theorem states_cons (s : σ) (e : ε) (es : List ε) :
    S.states s (e :: es) = s :: S.states (S.step s e) es := rfl

@[simp] theorem allSteps_nil (P : σ → ε → Prop) (s : σ) : S.AllSteps P s [] := trivial

@[simp] theorem allSteps_cons (P : σ → ε → Prop) (s : σ) (e : ε) (es : List ε) :
    S.AllSteps P s (e :: es) ↔ P s e ∧ S.AllSteps P (S.step s e) es := Iff.rfl

@[simp] theorem legal_cons (s : σ) (e : ε) (es : List ε) :
    S.Legal s (e :: es) ↔ S.allowed s e ∧ S.Legal (S.step s e) es := Iff.rfl

/-- Where the environment may do anything, every list of events is a run. -/
theorem legal_of_forall_allowed (hall : ∀ s e, S.allowed s e) (s : σ) (es : List ε) :
    S.Legal s es := by
  induction es generalizing s with
  | nil => exact trivial
  | cons e es ih => exact ⟨hall s e, ih (S.step s e)⟩

/-- A run visits the state it starts from. -/
theorem mem_states_self (s : σ) (es : List ε) : s ∈ S.states s es := by
  cases es with
  | nil => simp
  | cons e es => simp

/-- A run visits the state it ends in. -/
theorem run_mem_states (s : σ) (es : List ε) : S.run s es ∈ S.states s es := by
  induction es generalizing s with
  | nil => simp
  | cons e es ih =>
      rw [run_cons, states_cons]
      exact List.mem_cons_of_mem s (ih (S.step s e))

/-- The induction on runs: an invariant that every well-behaved step preserves
holds in every state of a run of well-behaved steps. -/
theorem forall_states_of_allSteps {I : σ → Prop} {P : σ → ε → Prop}
    (hstep : ∀ s e, I s → P s e → I (S.step s e))
    {s : σ} {es : List ε} (hinit : I s) (hsteps : S.AllSteps P s es) :
    ∀ t ∈ S.states s es, I t := by
  induction es generalizing s with
  | nil =>
      intro t ht
      rw [states_nil, List.mem_singleton] at ht
      exact ht ▸ hinit
  | cons e es ih =>
      obtain ⟨hfirst, hrest⟩ := hsteps
      intro t ht
      rw [states_cons, List.mem_cons] at ht
      rcases ht with rfl | ht
      · exact hinit
      · exact ih (hstep s e hinit hfirst) hrest t ht

/-- An invariant holds in the state a run of well-behaved steps ends in. -/
theorem run_of_allSteps {I : σ → Prop} {P : σ → ε → Prop}
    (hstep : ∀ s e, I s → P s e → I (S.step s e))
    {s : σ} {es : List ε} (hinit : I s) (hsteps : S.AllSteps P s es) :
    I (S.run s es) :=
  S.forall_states_of_allSteps hstep hinit hsteps _ (S.run_mem_states s es)

/-- What holds in every state holds at first and behind every step. -/
theorem forall_states_iff {Q : σ → Prop} {s : σ} {es : List ε} :
    (∀ t ∈ S.states s es, Q t) ↔ Q s ∧ S.AllSteps (fun s e => Q (S.step s e)) s es := by
  induction es generalizing s with
  | nil => simp
  | cons e es ih => rw [states_cons, List.forall_mem_cons, allSteps_cons, ih]

/-- **Exactness.**  `I` holds along every legal run.  If from a state with `I`
and `Q` an allowed step keeps `Q` precisely when it satisfies `P`, then a legal
run visits states with `Q` only precisely when each of its steps satisfies `P`. -/
theorem forall_states_iff_allSteps {I Q : σ → Prop} {P : σ → ε → Prop}
    (hinv : ∀ s e, I s → S.allowed s e → I (S.step s e))
    (hexact : ∀ s e, I s → Q s → S.allowed s e → (Q (S.step s e) ↔ P s e))
    {s : σ} {es : List ε} (hI : I s) (hQ : Q s) (hlegal : S.Legal s es) :
    (∀ t ∈ S.states s es, Q t) ↔ S.AllSteps P s es := by
  induction es generalizing s with
  | nil => simp [hQ]
  | cons e es ih =>
      obtain ⟨hallowed, hrest⟩ := hlegal
      have hI' : I (S.step s e) := hinv s e hI hallowed
      have hnow : Q (S.step s e) ↔ P s e := hexact s e hI hQ hallowed
      rw [states_cons, List.forall_mem_cons, allSteps_cons]
      constructor
      · rintro ⟨-, hall⟩
        have hQ' : Q (S.step s e) := hall _ (S.mem_states_self _ _)
        exact ⟨hnow.mp hQ', (ih hI' hQ' hrest).mp hall⟩
      · rintro ⟨hP, hsteps⟩
        have hQ' : Q (S.step s e) := hnow.mpr hP
        exact ⟨hQ, (ih hI' hQ' hrest).mpr hsteps⟩

/-- **Exactness, by the first step that breaks the property.**  Steps that satisfy `P` keep
`I`, which implies `Q`, and a step that does not satisfy `P` leads from `I` out of `Q`: then
a run visits states with `Q` only precisely when each of its steps satisfies `P`. -/
theorem forall_states_iff_of_breaks {I Q : σ → Prop} {P : σ → ε → Prop}
    (hkeep : ∀ s e, I s → P s e → I (S.step s e)) (hgood : ∀ s, I s → Q s)
    (hbreak : ∀ s e, I s → ¬ P s e → ¬ Q (S.step s e)) {s : σ} {es : List ε} (hI : I s) :
    (∀ t ∈ S.states s es, Q t) ↔ S.AllSteps P s es := by
  constructor
  · intro hall
    induction es generalizing s with
    | nil => exact trivial
    | cons e es ih =>
        rw [states_cons, List.forall_mem_cons] at hall
        have hP : P s e := by
          by_contra hnot
          exact hbreak s e hI hnot (hall.2 _ (S.mem_states_self _ _))
        exact ⟨hP, ih (hkeep s e hI hP) hall.2⟩
  · intro hsteps t ht
    exact hgood t (S.forall_states_of_allSteps hkeep hI hsteps t ht)

/-- Two guards hold along a run precisely when their conjunction does. -/
theorem allSteps_and {P P' : σ → ε → Prop} {s : σ} {es : List ε} :
    S.AllSteps (fun s e => P s e ∧ P' s e) s es ↔ S.AllSteps P s es ∧ S.AllSteps P' s es := by
  induction es generalizing s with
  | nil => simp
  | cons e es ih =>
      simp only [allSteps_cons, ih]
      tauto

/-- The steps of a run that goes on are those of the run and those behind it. -/
theorem allSteps_append {P : σ → ε → Prop} {s : σ} {es es' : List ε} :
    S.AllSteps P s (es ++ es') ↔ S.AllSteps P s es ∧ S.AllSteps P (S.run s es) es' := by
  induction es generalizing s with
  | nil => simp
  | cons e es ih => rw [List.cons_append, allSteps_cons, allSteps_cons, ih, run_cons, and_assoc]

/-- What every step satisfies under a guard, in a state with the invariant, it
satisfies along the whole run. -/
theorem AllSteps.imp {I : σ → Prop} {P P' : σ → ε → Prop}
    (hstep : ∀ s e, I s → P s e → I (S.step s e)) (himp : ∀ s e, I s → P s e → P' s e)
    {s : σ} {es : List ε} (hinit : I s) (hsteps : S.AllSteps P s es) :
    S.AllSteps P' s es := by
  induction es generalizing s with
  | nil => simp
  | cons e es ih =>
      obtain ⟨hfirst, hrest⟩ := hsteps
      exact ⟨himp s e hinit hfirst, ih (hstep s e hinit hfirst) hrest⟩

/-- Two guards that agree wherever an invariant of the guarded steps holds, hold
along the same runs. -/
theorem allSteps_congr {I : σ → Prop} {P P' : σ → ε → Prop}
    (hstep : ∀ s e, I s → P s e → I (S.step s e)) (hiff : ∀ s e, I s → (P s e ↔ P' s e))
    {s : σ} {es : List ε} (hinit : I s) : S.AllSteps P s es ↔ S.AllSteps P' s es := by
  constructor
  · exact AllSteps.imp S hstep (fun s e hI hP => (hiff s e hI).mp hP) hinit
  · refine AllSteps.imp S ?_ (fun s e hI hP' => (hiff s e hI).mpr hP') hinit
    intro s e hI hP'
    exact hstep s e hI ((hiff s e hI).mpr hP')

end System

end Foundation
end Ctem
