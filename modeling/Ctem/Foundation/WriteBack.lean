import Ctem.Foundation.ReadCommitted
import Ctem.Foundation.Runs

/-!
# Finding a row and writing all of it back

A call finds a row and then writes every column of it: the ones it carries a value for,
and the others as it has found them.  Calls on one row run side by side, each in a
transaction at read committed, so that between the find and the write of one call
another may commit.

* `WriteBack` is such a call: what it carries, and what it writes over the row of the
  moment, by the row it has found.
* `WriteBack.World` is the row, the calls that are open, and the calls that have
  committed.
* `keepsCarried_iff`: no value that was carried is lost precisely when each call commits
  over a row that still has, in the columns the call does not carry, what it has found.
-/

namespace Ctem
namespace Foundation

universe u v w x

/-- Calls of type `γ` that find and write rows of type `ρ`, with columns `χ`; a column
that is `none` is null. -/
structure WriteBack (γ : Type u) (ρ : Type v) (χ : Type w) (V : χ → Type x) where
  /-- The value the call carries for a column. -/
  carried : (c : χ) → γ → Option (V c)
  column : (c : χ) → ρ → Option (V c)
  /-- What a new row gets for a column that the call does not carry. -/
  fallback : (c : χ) → Option (V c)
  /-- The row after the write: by the call, the row it has found and the row it writes
  over. -/
  data : γ → Option ρ → Option ρ → ρ
  column_data : ∀ c call existing current, column c (data call existing current) =
    (carried c call).or ((existing.bind (column c)).or (fallback c))

namespace WriteBack

variable {γ : Type u} {ρ : Type v} {χ : Type w} {V : χ → Type x}

/-- How far a call is. -/
inductive Stage (ρ : Type v) where
  | begun
  | found (existing : Option ρ)
  /-- The write is made; `existing` is what the find returned. -/
  | wrote (existing : Option ρ)

/-- The row, the open calls, and those that have committed. -/
structure World (γ : Type u) (ρ : Type v) where
  row : VersionedRow Nat (Option ρ)
  calls : Nat → Option (γ × Stage ρ) := fun _ => none
  committed : List γ := []

inductive Event (γ : Type u) where
  | start (id : Nat) (call : γ)
  | find (id : Nat)
  | write (id : Nat)
  | commit (id : Nat)
  | rollback (id : Nat)

namespace World

/-- The call goes on, or is over. -/
def withCall (w : World γ ρ) (id : Nat) (call : Option (γ × Stage ρ)) : World γ ρ :=
  { w with calls := Function.update w.calls id call }

@[simp] theorem withCall_row (w : World γ ρ) (id : Nat) (call : Option (γ × Stage ρ)) :
    (w.withCall id call).row = w.row := rfl

@[simp] theorem withCall_committed (w : World γ ρ) (id : Nat) (call : Option (γ × Stage ρ)) :
    (w.withCall id call).committed = w.committed := rfl

end World

variable (B : WriteBack γ ρ χ V)

def step (w : World γ ρ) : Event γ → World γ ρ
  | .start id call =>
      match w.calls id with
      | none => w.withCall id (some (call, .begun))
      | some _ => w
  | .find id =>
      match w.calls id with
      | some (call, .begun) => w.withCall id (some (call, .found (w.row.read id)))
      | _ => w
  | .write id =>
      match w.calls id with
      | some (call, .found existing) =>
          if w.row.lockedFor id then w
          else
            { w.withCall id (some (call, .wrote existing)) with
              row := w.row.write id (fun current => some (B.data call existing current)) }
      | _ => w
  | .commit id =>
      match w.calls id with
      | some (call, .wrote _) =>
          { w.withCall id none with
            row := w.row.commit id
            committed := call :: w.committed }
      | _ => w
  | .rollback id => { w.withCall id none with row := w.row.rollback id }

/-- The calls on one row: any statement may come at any time. -/
def system : System (World γ ρ) (Event γ) where
  step := B.step
  allowed := fun _ _ => True

/-- A column that some committed call has carried has a value that one of them carried. -/
def KeepsCarried (w : World γ ρ) : Prop :=
  ∀ c, (∃ call ∈ w.committed, B.carried c call ≠ none) →
    ∃ call ∈ w.committed, B.carried c call ≠ none ∧
      w.row.committed.bind (B.column c) = B.carried c call

/-- The commit of a call leaves the columns of a row alone that the call does not carry. -/
def LeavesOthers (w : World γ ρ) (e : Event γ) : Prop :=
  ∀ id call existing, e = .commit id → w.calls id = some (call, .wrote existing) →
    ∀ c, B.carried c call = none → ∀ row, w.row.committed = some row →
      (B.step w e).row.committed.bind (B.column c) = B.column c row

/-- A call that commits over a row has found it, in the columns that it does not carry,
as it is now. -/
def Fresh (w : World γ ρ) (e : Event γ) : Prop :=
  ∀ id call existing, e = .commit id → w.calls id = some (call, .wrote existing) →
    ∀ c, B.carried c call = none → ∀ row, w.row.committed = some row →
      B.column c row = (existing.bind (B.column c)).or (B.fallback c)

/-! ## The lock and the open calls -/

/-- The row is locked by the call that has written it. -/
structure Coherent (w : World γ ρ) : Prop where
  holder : ∀ id version, w.row.written = some (id, version) → ∃ call existing current,
    w.calls id = some (call, .wrote existing) ∧ version = some (B.data call existing current)
  holds : ∀ id call existing, w.calls id = some (call, .wrote existing) →
    w.row.heldBy id = true

theorem coherent_start (row : Option ρ) : B.Coherent { row := ⟨row, none⟩ } where
  holder := by simp
  holds := by simp

variable {B} {w : World γ ρ} {id : Nat}

/-- A call that has not written does not hold the lock. -/
theorem Coherent.not_held (h : B.Coherent w)
    (hstage : ∀ call existing, w.calls id ≠ some (call, .wrote existing)) :
    w.row.heldBy id = false := by
  cases hheld : w.row.heldBy id with
  | false => rfl
  | true =>
      obtain ⟨version, hwritten⟩ := VersionedRow.heldBy_iff.mp hheld
      obtain ⟨call, existing, current, hcall, -⟩ := h.holder id version hwritten
      exact absurd hcall (hstage call existing)

/-- A call that has not written goes on without writing. -/
theorem Coherent.withCall (h : B.Coherent w) {call : γ} {stage : Stage ρ}
    (hstage : ∀ call existing, w.calls id ≠ some (call, .wrote existing))
    (hnew : ∀ existing, stage ≠ .wrote existing) :
    B.Coherent (w.withCall id (some (call, stage))) := by
  refine ⟨?_, ?_⟩
  · intro i version hwritten
    obtain ⟨call', existing, current, hcall, hversion⟩ := h.holder i version hwritten
    have hne : i ≠ id := by
      intro heq
      subst heq
      exact hstage call' existing hcall
    refine ⟨call', existing, current, ?_, hversion⟩
    rw [← hcall]
    exact Function.update_of_ne hne ..
  · intro i call' existing hcall
    rcases update_some_eq_some hcall with ⟨-, heq⟩ | ⟨-, hold⟩
    · exact absurd (Prod.mk.inj heq).2.symm (hnew existing)
    · exact h.holds i call' existing hold

/-- The write of a call takes the lock. -/
theorem Coherent.write (h : B.Coherent w) {call : γ} {existing : Option ρ}
    (hcall : w.calls id = some (call, .found existing)) (hfree : w.row.lockedFor id = false) :
    B.Coherent { w.withCall id (some (call, .wrote existing)) with
      row := w.row.write id (fun current => some (B.data call existing current)) } := by
  have hwritten := VersionedRow.written_write
    (f := fun current => some (B.data call existing current)) hfree
  refine ⟨?_, ?_⟩
  · intro i version hversion
    obtain ⟨rfl, rfl⟩ := Prod.mk.inj (Option.some.inj (hwritten.symm.trans hversion))
    refine ⟨call, existing, w.row.read id, ?_, rfl⟩
    exact Function.update_self ..
  · intro i call' existing' hcall'
    rcases update_some_eq_some hcall' with ⟨rfl, -⟩ | ⟨hne, hold⟩
    · exact VersionedRow.heldBy_of_written hwritten
    · -- the lock was free, so no other call had written
      have hlocked := VersionedRow.lockedFor_of_heldBy_ne (h.holds i call' existing' hold) hne
      rw [hfree] at hlocked
      cases hlocked

/-- A call that ends gives its lock back. -/
theorem Coherent.release (h : B.Coherent w) {row : VersionedRow Nat (Option ρ)}
    (committed : List γ)
    (hwritten : ∀ i version, row.written = some (i, version) ↔
      w.row.written = some (i, version) ∧ i ≠ id) :
    B.Coherent { w.withCall id none with row := row, committed := committed } := by
  refine ⟨?_, ?_⟩
  · intro i version hversion
    obtain ⟨hold, hne⟩ := (hwritten i version).mp hversion
    obtain ⟨call, existing, current, hcall, heq⟩ := h.holder i version hold
    refine ⟨call, existing, current, ?_, heq⟩
    rw [← hcall]
    exact Function.update_of_ne hne ..
  · intro i call existing hcall
    obtain ⟨hne, hold⟩ := update_none_eq_some hcall
    obtain ⟨version, hversion⟩ := VersionedRow.heldBy_iff.mp (h.holds i call existing hold)
    exact VersionedRow.heldBy_of_written ((hwritten i version).mpr ⟨hversion, hne⟩)

theorem written_commit {t : Nat} {row : VersionedRow Nat (Option ρ)} {version : Option ρ}
    (hwritten : row.written = some (t, version)) (i : Nat) (other : Option ρ) :
    (row.commit t).written = some (i, other) ↔ row.written = some (i, other) ∧ i ≠ t := by
  rw [VersionedRow.commit_of_written hwritten, hwritten]
  simp only [reduceCtorEq, Option.some.injEq, Prod.mk.injEq, false_iff, not_and, not_not]
  rintro ⟨rfl, -⟩
  rfl

/-- A commit makes what the call has written the row. -/
theorem Coherent.step_commit (h : B.Coherent w) {call : γ} {existing : Option ρ}
    (hcall : w.calls id = some (call, .wrote existing)) :
    B.Coherent (B.step w (.commit id)) ∧
      (B.step w (.commit id)).committed = call :: w.committed ∧
      ∃ current, (B.step w (.commit id)).row.committed =
        some (B.data call existing current) := by
  obtain ⟨version, hwritten⟩ := VersionedRow.heldBy_iff.mp (h.holds id call existing hcall)
  obtain ⟨call', existing', current, hcall', rfl⟩ := h.holder id version hwritten
  obtain ⟨rfl, hstage⟩ := Prod.mk.inj (Option.some.inj (hcall.symm.trans hcall'))
  obtain rfl := Stage.wrote.inj hstage
  have hstep : B.step w (.commit id) =
      { w.withCall id none with row := w.row.commit id, committed := call :: w.committed } := by
    simp only [step, hcall]
  rw [hstep]
  refine ⟨h.release (call :: w.committed) (written_commit hwritten), rfl, current, ?_⟩
  show (w.row.commit id).committed = _
  rw [VersionedRow.commit_of_written hwritten]

/-- A call that has not written does not commit. -/
theorem step_commit_idle (hidle : ∀ call existing, w.calls id ≠ some (call, .wrote existing)) :
    B.step w (.commit id) = w := by
  unfold step
  -- `hidle` rules out the branch of a commit
  simp only

theorem Coherent.step_rollback (h : B.Coherent w) (id : Nat) :
    B.Coherent (B.step w (.rollback id)) := by
  refine h.release w.committed ?_
  intro i version
  constructor
  · exact VersionedRow.written_rollback
  · rintro ⟨hwritten, hne⟩
    have hnot : w.row.heldBy id = false := by
      simp [VersionedRow.heldBy, hwritten, hne]
    simp [VersionedRow.rollback, hnot, hwritten]

/-- Every statement keeps the lock and the open calls in line. -/
theorem Coherent.step (h : B.Coherent w) (e : Event γ) : B.Coherent (B.step w e) := by
  cases e with
  | start id call =>
      simp only [WriteBack.step]
      split
      · rename_i hnone
        exact h.withCall (by simp [hnone]) (by simp)
      · exact h
  | find id =>
      simp only [WriteBack.step]
      split
      · rename_i call hcall
        exact h.withCall (by simp [hcall]) (by simp)
      · exact h
  | write id =>
      simp only [WriteBack.step]
      split
      · rename_i call existing hcall
        split
        · exact h
        · rename_i hlocked
          exact h.write hcall (Bool.eq_false_iff.mpr hlocked)
      · exact h
  | commit id =>
      by_cases hwrote : ∃ call existing, w.calls id = some (call, .wrote existing)
      · obtain ⟨call, existing, hcall⟩ := hwrote
        exact (h.step_commit hcall).1
      · rw [step_commit_idle (fun call existing hcall => hwrote ⟨call, existing, hcall⟩)]
        exact h
  | rollback id => exact h.step_rollback id

/-! ## What a statement does to the columns -/

/-- Statements before the commit leave the committed row and the committed calls alone. -/
theorem step_unchanged {e : Event γ} (hne : ∀ id, e ≠ .commit id) :
    (B.step w e).row.committed = w.row.committed ∧ (B.step w e).committed = w.committed := by
  cases e with
  | start id call =>
      simp only [WriteBack.step]
      split <;> exact ⟨rfl, rfl⟩
  | find id =>
      simp only [WriteBack.step]
      split <;> exact ⟨rfl, rfl⟩
  | write id =>
      simp only [WriteBack.step]
      split
      · split
        · exact ⟨rfl, rfl⟩
        · exact ⟨VersionedRow.committed_write, rfl⟩
      · exact ⟨rfl, rfl⟩
  | commit id => exact absurd rfl (hne id)
  | rollback id => exact ⟨VersionedRow.committed_rollback, rfl⟩

/-- The columns of the row that a call commits. -/
theorem Coherent.column_commit (h : B.Coherent w) {call : γ} {existing : Option ρ}
    (hcall : w.calls id = some (call, .wrote existing)) (c : χ) :
    (B.step w (.commit id)).row.committed.bind (B.column c) =
      (B.carried c call).or ((existing.bind (B.column c)).or (B.fallback c)) := by
  obtain ⟨-, -, current, hrow⟩ := h.step_commit hcall
  rw [hrow]
  exact B.column_data c call existing current

/-- A call leaves the other columns alone precisely when it has found them as they are. -/
theorem Coherent.leavesOthers_iff (h : B.Coherent w) (e : Event γ) :
    B.LeavesOthers w e ↔ B.Fresh w e := by
  have hcolumn : ∀ id call existing, e = .commit id → w.calls id = some (call, .wrote existing) →
      ∀ c, B.carried c call = none → (B.step w e).row.committed.bind (B.column c) =
        (existing.bind (B.column c)).or (B.fallback c) := by
    intro id call existing he hcall c hcarried
    subst he
    rw [h.column_commit hcall c, hcarried, Option.none_or]
  constructor
  · intro hleaves id call existing he hcall c hcarried row hrow
    rw [← hleaves id call existing he hcall c hcarried row hrow]
    exact hcolumn id call existing he hcall c hcarried
  · intro hfresh id call existing he hcall c hcarried row hrow
    rw [hcolumn id call existing he hcall c hcarried]
    exact (hfresh id call existing he hcall c hcarried row hrow).symm

/-- As long as calls commit over rows as they have found them, what was carried is kept. -/
theorem KeepsCarried.step (hkeeps : B.KeepsCarried w) (h : B.Coherent w) {e : Event γ}
    (hfresh : B.Fresh w e) : B.KeepsCarried (B.step w e) := by
  by_cases hcommit : ∃ id call existing, e = .commit id ∧
      w.calls id = some (call, .wrote existing)
  · obtain ⟨id, call, existing, rfl, hcall⟩ := hcommit
    obtain ⟨-, hcommitted, current, hrow⟩ := h.step_commit hcall
    intro c hsome
    rw [hcommitted]
    by_cases hcarried : B.carried c call = none
    · -- the value in the row is that of an earlier call, which the row had before
      rw [hcommitted, List.exists_mem_cons_iff] at hsome
      obtain ⟨call', hmem, hcarried', hvalue⟩ := hkeeps c (hsome.resolve_left (absurd hcarried))
      obtain ⟨v, hv⟩ := Option.ne_none_iff_exists'.mp hcarried'
      rw [hv] at hvalue
      obtain ⟨row, hold, hcol⟩ := Option.bind_eq_some_iff.mp hvalue
      refine ⟨call', List.mem_cons_of_mem call hmem, hcarried', ?_⟩
      rw [(h.leavesOthers_iff _).mpr hfresh id call existing rfl hcall c hcarried row hold, hcol,
        hv]
    · refine ⟨call, List.mem_cons_self, hcarried, ?_⟩
      obtain ⟨v, hv⟩ := Option.ne_none_iff_exists'.mp hcarried
      rw [h.column_commit hcall c, hv, Option.some_or]
  · have hsame : (B.step w e).row.committed = w.row.committed ∧
        (B.step w e).committed = w.committed := by
      by_cases hid : ∃ id, e = .commit id
      · obtain ⟨id, rfl⟩ := hid
        rw [step_commit_idle (fun call existing hcall => hcommit ⟨id, call, existing, rfl, hcall⟩)]
        exact ⟨rfl, rfl⟩
      · exact step_unchanged (fun id heq => hid ⟨id, heq⟩)
    intro c
    rw [hsame.1, hsame.2]
    exact hkeeps c

/-- **What writing all of it back keeps.**  Along a run of any calls on a row, the row has
for every column that was carried a value that was carried, and no call puts back an older
value of another column, precisely when each call commits over a row that has, in the
columns the call does not carry, what it has found. -/
theorem keepsCarried_iff (row : Option ρ) (es : List (Event γ)) :
    ((∀ w ∈ B.system.states { row := ⟨row, none⟩ } es, B.KeepsCarried w) ∧
        B.system.AllSteps B.LeavesOthers { row := ⟨row, none⟩ } es) ↔
      B.system.AllSteps B.Fresh { row := ⟨row, none⟩ } es := by
  have hcongr : B.system.AllSteps B.LeavesOthers { row := ⟨row, none⟩ } es ↔
      B.system.AllSteps B.Fresh { row := ⟨row, none⟩ } es :=
    B.system.allSteps_congr (I := B.Coherent) (fun w e h _ => h.step e)
      (fun w e h => h.leavesOthers_iff e) (B.coherent_start row)
  constructor
  · rintro ⟨-, hleaves⟩
    exact hcongr.mp hleaves
  · intro hfresh
    refine ⟨?_, hcongr.mpr hfresh⟩
    have hinv : ∀ w ∈ B.system.states { row := ⟨row, none⟩ } es,
        B.Coherent w ∧ B.KeepsCarried w := by
      refine B.system.forall_states_of_allSteps
        (fun w e hw hfresh => ⟨hw.1.step e, hw.2.step hw.1 hfresh⟩)
        ⟨B.coherent_start row, ?_⟩ hfresh
      intro c hnone
      simp at hnone
    exact fun w hw => (hinv w hw).2

end WriteBack

end Foundation
end Ctem
