import Mathlib.Data.List.Basic

/-!
# Stores that answer requests against one clock

A `TimedStore` answers a request at a time, and may change by itself as time passes:
`elapse now` is what the clock reaching `now` does to it.  A run is a list of requests,
each after a wait; its `ledger` says when each was served and with what answer.

`ledger_eq_of_simulation`: a relation that both ways of changing keep, and under which
the answers are equal, gives two stores the same ledger on every run.
-/

namespace Ctem
namespace Foundation

universe u v w

structure TimedStore (σ : Type u) (ι : Type v) (ο : Type w) where
  elapse : Nat → σ → σ
  serve : Nat → σ → ι → σ × ο

/-- A request as it was answered. -/
structure Served (ι : Type v) (ο : Type w) where
  time : Nat
  request : ι
  answer : ο
deriving DecidableEq

namespace TimedStore

variable {σ τ : Type u} {ι : Type v} {ο : Type w} (m : TimedStore σ ι ο)

/-- A request that comes `wait` after `now`. -/
def next (now : Nat) (s : σ) (wait : Nat) (i : ι) : σ × ο :=
  m.serve (now + wait) (m.elapse (now + wait) s) i

def ledger : Nat → σ → List (Nat × ι) → List (Served ι ο)
  | _, _, [] => []
  | now, s, (wait, i) :: rest =>
      ⟨now + wait, i, (m.next now s wait i).2⟩ ::
        ledger (now + wait) (m.next now s wait i).1 rest

/-- The time and the store behind a run. -/
def afterwards : Nat → σ → List (Nat × ι) → Nat × σ
  | now, s, [] => (now, s)
  | now, s, (wait, i) :: rest => afterwards (now + wait) (m.next now s wait i).1 rest

theorem ledger_append (now : Nat) (s : σ) (before after : List (Nat × ι)) :
    m.ledger now s (before ++ after) =
      m.ledger now s before ++
        m.ledger (m.afterwards now s before).1 (m.afterwards now s before).2 after := by
  induction before generalizing now s with
  | nil => rfl
  | cons first rest ih => simp [ledger, afterwards, ih]

theorem length_ledger (now : Nat) (s : σ) (calls : List (Nat × ι)) :
    (m.ledger now s calls).length = calls.length := by
  induction calls generalizing now s with
  | nil => rfl
  | cons first rest ih => simp [ledger, ih]

/-- What is left of the ledger after the first requests is the ledger of the others. -/
theorem drop_ledger (now : Nat) (s : σ) (before after : List (Nat × ι)) :
    (m.ledger now s (before ++ after)).drop before.length =
      m.ledger (m.afterwards now s before).1 (m.afterwards now s before).2 after := by
  rw [m.ledger_append, ← m.length_ledger now s before, List.drop_left]

/-- The clock does not run backwards. -/
theorem le_time {now : Nat} {s : σ} {calls : List (Nat × ι)} {served : Served ι ο}
    (h : served ∈ m.ledger now s calls) : now ≤ served.time := by
  induction calls generalizing now s with
  | nil => cases h
  | cons first rest ih =>
      rcases List.mem_cons.mp h with rfl | hrest
      · exact Nat.le_add_right now first.1
      · exact Nat.le_trans (Nat.le_add_right now first.1) (ih hrest)

/-- A relation between two stores at a time. -/
structure Simulation (m : TimedStore σ ι ο) (m' : TimedStore τ ι ο) (R : Nat → σ → τ → Prop) :
    Prop where
  elapse : ∀ now wait s t, R now s t →
    R (now + wait) (m.elapse (now + wait) s) (m'.elapse (now + wait) t)
  answer : ∀ now s t i, R now s t → (m.serve now s i).2 = (m'.serve now t i).2
  serve : ∀ now s t i, R now s t → R now (m.serve now s i).1 (m'.serve now t i).1

variable {m} {m' : TimedStore τ ι ο} {R : Nat → σ → τ → Prop}

theorem ledger_eq_of_simulation (h : Simulation m m' R) {now : Nat} {s : σ} {t : τ}
    (hstart : R now s t) (calls : List (Nat × ι)) :
    m.ledger now s calls = m'.ledger now t calls := by
  induction calls generalizing now s t with
  | nil => rfl
  | cons first rest ih =>
      obtain ⟨wait, i⟩ := first
      have helapsed := h.elapse now wait s t hstart
      have hanswer : (m.next now s wait i).2 = (m'.next now t wait i).2 :=
        h.answer (now + wait) _ _ i helapsed
      have hserved : R (now + wait) (m.next now s wait i).1 (m'.next now t wait i).1 :=
        h.serve (now + wait) _ _ i helapsed
      simp only [ledger, hanswer, ih hserved]

theorem afterwards_of_simulation (h : Simulation m m' R) {now : Nat} {s : σ} {t : τ}
    (hstart : R now s t) (calls : List (Nat × ι)) :
    (m.afterwards now s calls).1 = (m'.afterwards now t calls).1 ∧
      R (m.afterwards now s calls).1 (m.afterwards now s calls).2
        (m'.afterwards now t calls).2 := by
  induction calls generalizing now s t with
  | nil => exact ⟨rfl, hstart⟩
  | cons first rest ih =>
      obtain ⟨wait, i⟩ := first
      exact ih (h.serve (now + wait) _ _ i (h.elapse now wait s t hstart))

end TimedStore

end Foundation
end Ctem
