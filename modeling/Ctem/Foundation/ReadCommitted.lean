import Mathlib.Data.List.Basic
import Mathlib.Logic.Function.Basic

/-!
# Rows and locks under read committed

`VersionedRow` is a row as concurrent transactions see it: the last committed version,
and the version the transaction that holds the row lock has written.  Readers see their
own version, else the committed one, and never wait; a second writer waits for the lock.
Whoever waits is simply not yet able to write, so an attempt to write a locked row
changes nothing and may be made again.

`Locks` are the locks alone, for transactions that write a key once and whose writes a
model applies when they commit: between the two nobody else writes the key.

Every operation comes with what it does to the committed version, to the holder of the
lock and to what a transaction reads.
-/

namespace Ctem
namespace Foundation

universe u v

/-- A row with the version written under its lock, if a transaction holds it. -/
structure VersionedRow (τ : Type u) (ρ : Type v) where
  committed : ρ
  written : Option (τ × ρ) := none

namespace VersionedRow

variable {τ : Type u} {ρ : Type v} [DecidableEq τ]

/-- The transaction holds the row lock. -/
def heldBy (r : VersionedRow τ ρ) (t : τ) : Bool :=
  match r.written with
  | some w => decide (w.1 = t)
  | none => false

/-- Another transaction holds the row lock. -/
def lockedFor (r : VersionedRow τ ρ) (t : τ) : Bool :=
  match r.written with
  | some w => decide (w.1 ≠ t)
  | none => false

/-- The version the transaction sees. -/
def read (r : VersionedRow τ ρ) (t : τ) : ρ :=
  match r.written with
  | some w => if w.1 = t then w.2 else r.committed
  | none => r.committed

/-- The transaction rewrites the version it sees, unless the row is locked. -/
def write (r : VersionedRow τ ρ) (t : τ) (f : ρ → ρ) : VersionedRow τ ρ :=
  if r.lockedFor t then r else { r with written := some (t, f (r.read t)) }

/-- The transaction's version becomes the committed one. -/
def commit (r : VersionedRow τ ρ) (t : τ) : VersionedRow τ ρ :=
  if r.heldBy t then ⟨r.read t, none⟩ else r

/-- The transaction's version is discarded. -/
def rollback (r : VersionedRow τ ρ) (t : τ) : VersionedRow τ ρ :=
  if r.heldBy t then ⟨r.committed, none⟩ else r

variable {r : VersionedRow τ ρ} {t t' : τ} {f : ρ → ρ} {v : ρ}

theorem heldBy_iff : r.heldBy t = true ↔ ∃ v, r.written = some (t, v) := by
  unfold heldBy
  cases hwritten : r.written with
  | none => simp
  | some w =>
      obtain ⟨t', v⟩ := w
      simp

theorem heldBy_of_written (h : r.written = some (t, v)) : r.heldBy t = true :=
  heldBy_iff.mpr ⟨v, h⟩

theorem read_of_written (h : r.written = some (t, v)) : r.read t = v := by
  simp [read, h]

/-- Who does not hold the lock reads the committed version. -/
theorem read_of_not_heldBy (h : r.heldBy t = false) : r.read t = r.committed := by
  unfold heldBy at h
  unfold read
  cases hwritten : r.written with
  | none => rfl
  | some w =>
      rw [hwritten] at h
      simp only [decide_eq_false_iff_not] at h
      exact if_neg h

@[simp] theorem committed_write : (r.write t f).committed = r.committed := by
  unfold write
  split <;> rfl

/-- A write that is not held up takes the lock. -/
theorem written_write (h : r.lockedFor t = false) :
    (r.write t f).written = some (t, f (r.read t)) := by
  simp [write, h]

/-- Two transactions never hold the lock at once. -/
theorem lockedFor_of_heldBy_ne (h : r.heldBy t' = true) (hne : t' ≠ t) :
    r.lockedFor t = true := by
  obtain ⟨v, hwritten⟩ := heldBy_iff.mp h
  simp [lockedFor, hwritten, hne]

theorem commit_of_written (h : r.written = some (t, v)) : r.commit t = ⟨v, none⟩ := by
  rw [commit, if_pos (heldBy_of_written h), read_of_written h]

theorem commit_of_not_heldBy (h : r.heldBy t = false) : r.commit t = r := by
  simp [commit, h]

@[simp] theorem committed_rollback : (r.rollback t).committed = r.committed := by
  unfold rollback
  split <;> rfl

/-- A lock left behind by a rollback is that of another transaction. -/
theorem written_rollback (h : (r.rollback t).written = some (t', v)) :
    r.written = some (t', v) ∧ t' ≠ t := by
  unfold rollback at h
  split at h
  · cases h
  · rename_i hheld
    refine ⟨h, ?_⟩
    intro heq
    subst heq
    exact hheld (heldBy_of_written h)

end VersionedRow

/-! ## Open transactions -/

section Open

variable {τ : Type u} {α : Type v} [DecidableEq τ] {txs : τ → Option α} {t t' : τ} {a b : α}

/-- A transaction that is open after another one went on is that one or was open. -/
theorem update_some_eq_some (h : Function.update txs t (some a) t' = some b) :
    (t' = t ∧ b = a) ∨ (t' ≠ t ∧ txs t' = some b) := by
  by_cases heq : t' = t
  · subst heq
    rw [Function.update_self] at h
    exact Or.inl ⟨rfl, (Option.some.inj h).symm⟩
  · rw [Function.update_of_ne heq] at h
    exact Or.inr ⟨heq, h⟩

/-- A transaction that is open after another one ended was open. -/
theorem update_none_eq_some (h : Function.update txs t none t' = some b) :
    t' ≠ t ∧ txs t' = some b := by
  by_cases heq : t' = t
  · subst heq
    rw [Function.update_self] at h
    cases h
  · rw [Function.update_of_ne heq] at h
    exact ⟨heq, h⟩

end Open

/-! ## Locks -/

/-- The keys that transactions have locked, each until its transaction ends. -/
structure Locks (κ : Type u) (τ : Type v) where
  holder : κ → Option τ

namespace Locks

variable {κ : Type u} {τ : Type v} [DecidableEq κ] [DecidableEq τ]

/-- No key is locked. -/
def empty : Locks κ τ := ⟨fun _ => none⟩

/-- No other transaction has locked the key. -/
def freeFor (l : Locks κ τ) (k : κ) (t : τ) : Bool :=
  match l.holder k with
  | some t' => decide (t' = t)
  | none => true

/-- The transaction locks the key. -/
def acquire (l : Locks κ τ) (k : κ) (t : τ) : Locks κ τ :=
  ⟨Function.update l.holder k (some t)⟩

/-- The transaction ends. -/
def release (l : Locks κ τ) (t : τ) : Locks κ τ :=
  ⟨fun k => if l.holder k = some t then none else l.holder k⟩

end Locks

end Foundation
end Ctem
