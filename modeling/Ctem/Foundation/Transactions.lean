import Ctem.Foundation.ReadCommitted
import Ctem.Foundation.Runs

/-!
# Transactions on a keyed table

Transactions at read committed, each of which reads the table at most once and then makes
one write statement, on one row or on every row it selects.  The statement locks a row
before it evaluates its condition there.  What it leaves of the row is therefore computed
from the committed version, and from what the transaction has read before of that row.

* `TxKind` says what transactions there are; `TxTable` is the table with the open ones.
* `TxTable.Coherent` ties every lock to the transaction that holds it, and the version
  written under it to what the statement computes.
* `Coherent.commit_cases` is what a commit does to one row.
* `Holds.step` is the rule for a property of single versions, and `Tracks.step` that for a
  relation between what a transaction has read of a row and what is there now.
* `journalAfter` writes down what a commit changes, row by row, for the histories that a
  model keeps beside the table.
-/

namespace Ctem
namespace Foundation

universe u v w

/-- What the transactions on a table do. -/
structure TxKind (κ : Type u) (ρ : Type v) (α : Type w) where
  /-- The transaction reads the table before its write. -/
  finds : α → Bool
  /-- The write is of one row, not of all that it selects. -/
  single : α → Bool
  /-- What the write makes of the row at a key, by the version read before and the version
  that is there; `none` when the row is not selected. -/
  writes : α → κ → ρ → ρ → Option ρ

/-- How far a transaction is. -/
inductive TxProgress (κ : Type u) (ρ : Type v) where
  | begun
  | found (seen : κ → ρ)
  /-- The one row it writes is written. -/
  | wrote (seen : κ → ρ) (k : κ)

/-- What the transaction has read, when it has read. -/
def TxProgress.seen? {κ : Type u} {ρ : Type v} : TxProgress κ ρ → Option (κ → ρ)
  | .begun => none
  | .found seen => some seen
  | .wrote seen _ => some seen

/-- The rows by key and the open transactions. -/
structure TxTable (κ : Type u) (ρ : Type v) (α : Type w) where
  row : κ → VersionedRow Nat ρ
  txs : Nat → Option (α × TxProgress κ ρ) := fun _ => none

/-- The statements of the transactions, in the order the database executes them. -/
inductive TxEvent (κ : Type u) (α : Type w) where
  | start (id : Nat) (tx : α)
  | find (id : Nat)
  | write (id : Nat) (k : κ)
  | commit (id : Nat)
  | rollback (id : Nat)

namespace TxTable

variable {κ : Type u} {ρ : Type v} {α : Type w}

/-- Nothing is open. -/
def ofRows (rows : κ → ρ) : TxTable κ ρ α := { row := fun k => ⟨rows k, none⟩ }

def committed (w : TxTable κ ρ α) (k : κ) : ρ := (w.row k).committed

/-- What a statement of the transaction sees in the row. -/
def read (w : TxTable κ ρ α) (id : Nat) (k : κ) : ρ := (w.row k).read id

/-- The transaction goes on, or is over. -/
def withTx (w : TxTable κ ρ α) (id : Nat) (tx : Option (α × TxProgress κ ρ)) : TxTable κ ρ α :=
  { w with txs := Function.update w.txs id tx }

/-- What the write goes by: the row as it was read, or as it is if nothing was read. -/
def seenAt (w : TxTable κ ρ α) (k : κ) (progress : TxProgress κ ρ) : ρ :=
  match progress.seen? with
  | some seen => seen k
  | none => w.committed k

/-- The version goes into the free row. -/
def putRow [DecidableEq κ] (K : TxKind κ ρ α) (w : TxTable κ ρ α) (id : Nat) (tx : α)
    (progress : TxProgress κ ρ) (k : κ) (v : ρ) : TxTable κ ρ α where
  row := Function.update w.row k ⟨w.committed k, some (id, v)⟩
  txs := Function.update w.txs id
    (some (tx, if K.single tx then .wrote (fun k => w.seenAt k progress) k else progress))

/-- The write statement may be executed. -/
def canWrite (K : TxKind κ ρ α) (tx : α) : TxProgress κ ρ → Bool
  | .begun => !K.finds tx
  | .found _ => true
  | .wrote _ _ => false

def step [DecidableEq κ] (K : TxKind κ ρ α) (w : TxTable κ ρ α) : TxEvent κ α → TxTable κ ρ α
  | .start id tx =>
      match w.txs id with
      | none => w.withTx id (some (tx, .begun))
      | some _ => w
  | .find id =>
      match w.txs id with
      -- one read: a transaction that has read keeps what it has read
      | some (tx, .begun) =>
          if K.finds tx then w.withTx id (some (tx, .found w.committed)) else w
      | _ => w
  | .write id k =>
      match w.txs id with
      | some (tx, progress) =>
          -- a locked row is waited for
          if canWrite K tx progress && (w.row k).written.isNone then
            match K.writes tx k (w.seenAt k progress) (w.committed k) with
            | some v => putRow K w id tx progress k v
            | none => w
          else w
      | none => w
  | .commit id => { w.withTx id none with row := fun k => (w.row k).commit id }
  | .rollback id => { w.withTx id none with row := fun k => (w.row k).rollback id }

/-- The transactions of a kind; any of them may start at any time. -/
def system [DecidableEq κ] (K : TxKind κ ρ α) : System (TxTable κ ρ α) (TxEvent κ α) where
  step := step K
  allowed := fun _ _ => True

/-! ## Locks and the versions written under them -/

/-- Every lock is that of an open transaction, with what its write makes of the row. -/
structure Coherent (K : TxKind κ ρ α) (w : TxTable κ ρ α) : Prop where
  holder : ∀ k id v, (w.row k).written = some (id, v) → ∃ tx progress,
    w.txs id = some (tx, progress) ∧
      K.writes tx k (w.seenAt k progress) (w.committed k) = some v ∧
        (K.single tx = true → ∃ seen, progress = .wrote seen k)
  held : ∀ id tx seen k, w.txs id = some (tx, .wrote seen k) →
    K.single tx = true ∧ ∃ v, (w.row k).written = some (id, v)

theorem coherent_ofRows (K : TxKind κ ρ α) (rows : κ → ρ) : Coherent K (ofRows rows) where
  holder := by
    intro k id v hwritten
    cases hwritten
  held := by
    intro id tx seen k htx
    cases htx

section Step

variable {K : TxKind κ ρ α} {w : TxTable κ ρ α}

@[simp] theorem withTx_row (w : TxTable κ ρ α) (id : Nat) (tx : Option (α × TxProgress κ ρ)) :
    (w.withTx id tx).row = w.row := rfl

@[simp] theorem withTx_txs (w : TxTable κ ρ α) (id : Nat) (tx : Option (α × TxProgress κ ρ)) :
    (w.withTx id tx).txs = Function.update w.txs id tx := rfl

@[simp] theorem committed_withTx (w : TxTable κ ρ α) (id : Nat)
    (tx : Option (α × TxProgress κ ρ)) : (w.withTx id tx).committed = w.committed := rfl

/-- What the write goes by depends on the committed row alone. -/
theorem seenAt_congr {w w' : TxTable κ ρ α} {k : κ} (h : w'.committed k = w.committed k)
    (progress : TxProgress κ ρ) : w'.seenAt k progress = w.seenAt k progress := by
  unfold seenAt
  rw [h]

/-- The version that a commit leaves in a row. -/
theorem committed_commit (w : TxTable κ ρ α) (id : Nat) (k : κ) :
    ((w.row k).commit id).committed = (w.row k).read id := by
  by_cases hheld : (w.row k).heldBy id = true
  · rw [VersionedRow.commit, if_pos hheld]
  · have hfree : (w.row k).heldBy id = false := Bool.not_eq_true _ ▸ hheld
    rw [VersionedRow.commit_of_not_heldBy hfree, VersionedRow.read_of_not_heldBy hfree]

/-- A transaction that holds no lock starts or reads. -/
theorem Coherent.withTx (h : Coherent K w) {id : Nat} {tx : α} {progress : TxProgress κ ρ}
    (hwrote : ∀ seen k, progress ≠ .wrote seen k)
    (hkeep : ∀ k v, (w.row k).written = some (id, v) → K.single tx = false ∧
      K.writes tx k (w.seenAt k progress) (w.committed k) = some v) :
    Coherent K (w.withTx id (some (tx, progress))) := by
  refine ⟨?_, ?_⟩
  · intro k id' v hwritten
    by_cases hid : id' = id
    · subst hid
      obtain ⟨hsingle, hwrites⟩ := hkeep k v hwritten
      refine ⟨tx, progress, ?_, hwrites, ?_⟩
      · rw [withTx_txs, Function.update_self]
      · intro htrue
        rw [hsingle] at htrue
        cases htrue
    · -- the lock of another transaction
      obtain ⟨tx', progress', htx, hwrites, hsingle⟩ := h.holder k id' v hwritten
      refine ⟨tx', progress', ?_, hwrites, hsingle⟩
      rw [withTx_txs, Function.update_of_ne hid]
      exact htx
  · intro id' tx' seen k htx
    rcases update_some_eq_some htx with ⟨-, heq⟩ | ⟨-, htx⟩
    · obtain ⟨-, hprogress⟩ := Prod.mk.inj heq
      exact absurd hprogress.symm (hwrote seen k)
    · exact h.held id' tx' seen k htx

/-- The end of a transaction, when what it leaves of the rows keeps those it has not
locked as they are. -/
theorem Coherent.release (h : Coherent K w) {id : Nat} {row : κ → VersionedRow Nat ρ}
    (hfree : ∀ k v, (row k).written ≠ some (id, v))
    (hkeep : ∀ k, (w.row k).heldBy id = false → row k = w.row k)
    (hlost : ∀ k, (w.row k).heldBy id = true → (row k).written = none) :
    Coherent K { w.withTx id none with row := row } := by
  refine ⟨?_, ?_⟩
  · intro k id' v hwritten
    have hne : id' ≠ id := by
      rintro rfl
      exact hfree k v hwritten
    have hheld : (w.row k).heldBy id = false := by
      cases hheld : (w.row k).heldBy id with
      | false => rfl
      | true =>
          have hnone := hlost k hheld
          change (row k).written = _ at hwritten
          rw [hnone] at hwritten
          cases hwritten
    have hrow := hkeep k hheld
    change (row k).written = _ at hwritten
    rw [hrow] at hwritten
    obtain ⟨tx, progress, htx, hwrites, hsingle⟩ := h.holder k id' v hwritten
    have hcommitted : ({ w.withTx id none with row := row } : TxTable κ ρ α).committed k =
        w.committed k := congrArg VersionedRow.committed hrow
    refine ⟨tx, progress, ?_, ?_, hsingle⟩
    · change Function.update w.txs id none id' = _
      rw [Function.update_of_ne hne]
      exact htx
    · rw [seenAt_congr hcommitted, hcommitted]
      exact hwrites
  · intro id' tx seen k htx
    obtain ⟨hne, htx⟩ := update_none_eq_some htx
    obtain ⟨hsingle, v, hv⟩ := h.held id' tx seen k htx
    refine ⟨hsingle, v, ?_⟩
    have hheld : (w.row k).heldBy id = false := by
      simp [VersionedRow.heldBy, hv, hne]
    change (row k).written = _
    rw [hkeep k hheld]
    exact hv

variable [DecidableEq κ]

theorem committed_putRow (w : TxTable κ ρ α) (id : Nat) (tx : α) (progress : TxProgress κ ρ)
    (k : κ) (v : ρ) : (putRow K w id tx progress k v).committed = w.committed := by
  funext k'
  change (Function.update w.row k ⟨w.committed k, some (id, v)⟩ k').committed = w.committed k'
  by_cases hk : k' = k
  · subst hk
    rw [Function.update_self]
  · rw [Function.update_of_ne hk]
    rfl

/-- A write takes the lock of a free row. -/
theorem Coherent.putRow (h : Coherent K w) {id : Nat} {tx : α} {progress : TxProgress κ ρ}
    {k : κ} {v : ρ} (htx : w.txs id = some (tx, progress))
    (hcan : canWrite K tx progress = true) (hfree : (w.row k).written = none)
    (hwrites : K.writes tx k (w.seenAt k progress) (w.committed k) = some v) :
    Coherent K (TxTable.putRow K w id tx progress k v) := by
  have hcommitted := committed_putRow (K := K) w id tx progress k v
  have hnot : ∀ seen k', progress ≠ .wrote seen k' := by
    rintro seen k' rfl
    cases hcan
  refine ⟨?_, ?_⟩
  · intro k' id' v' hwritten
    rw [hcommitted]
    by_cases hk : k' = k
    · subst hk
      simp only [TxTable.putRow, Function.update_self, Option.some.injEq, Prod.mk.injEq] at hwritten
      obtain ⟨rfl, rfl⟩ := hwritten
      refine ⟨tx, _, Function.update_self _ _ _, ?_, ?_⟩
      · rw [seenAt_congr (congrFun hcommitted k')]
        split
        · exact hwrites
        · exact hwrites
      · intro hsingle
        rw [if_pos hsingle]
        exact ⟨_, rfl⟩
    · have hold : (w.row k').written = some (id', v') := by
        simpa [TxTable.putRow, Function.update_of_ne hk] using hwritten
      obtain ⟨tx', progress', htx', hwrites', hsingle'⟩ := h.holder k' id' v' hold
      by_cases hid : id' = id
      · subst hid
        rw [htx] at htx'
        obtain ⟨rfl, rfl⟩ := Prod.mk.inj (Option.some.inj htx')
        -- one that writes a second row is not a write of a single one
        have hmulti : ¬ K.single tx = true := by
          intro hsingle
          obtain ⟨seen, hwrote⟩ := hsingle' hsingle
          exact hnot seen k' hwrote
        refine ⟨tx, progress, ?_, ?_, fun hsingle => absurd hsingle hmulti⟩
        · simp [TxTable.putRow, if_neg hmulti]
        · rw [seenAt_congr (congrFun hcommitted k')]
          exact hwrites'
      · refine ⟨tx', progress', ?_, ?_, hsingle'⟩
        · simp only [TxTable.putRow, Function.update_of_ne hid]
          exact htx'
        · rw [seenAt_congr (congrFun hcommitted k')]
          exact hwrites'
  · intro id' tx' seen k' htx'
    rcases update_some_eq_some htx' with ⟨rfl, heq⟩ | ⟨hid, hold⟩
    · obtain ⟨rfl, hprogress⟩ := Prod.mk.inj heq
      by_cases hsingle : K.single tx' = true
      · rw [if_pos hsingle] at hprogress
        obtain ⟨-, rfl⟩ := TxProgress.wrote.inj hprogress
        exact ⟨hsingle, v, by simp [TxTable.putRow]⟩
      · rw [if_neg hsingle] at hprogress
        exact absurd hprogress.symm (hnot seen k')
    · obtain ⟨hsingle, v', hv'⟩ := h.held id' tx' seen k' hold
      refine ⟨hsingle, v', ?_⟩
      have hk : k' ≠ k := by
        rintro rfl
        rw [hfree] at hv'
        cases hv'
      simpa [TxTable.putRow, Function.update_of_ne hk] using hv'

theorem Coherent.commit (h : Coherent K w) (id : Nat) :
    Coherent K (step K w (.commit id)) := by
  apply h.release
  · intro k v hwritten
    by_cases hheld : (w.row k).heldBy id = true
    · rw [VersionedRow.commit, if_pos hheld] at hwritten
      cases hwritten
    · rw [VersionedRow.commit_of_not_heldBy (Bool.not_eq_true _ ▸ hheld)] at hwritten
      exact hheld (VersionedRow.heldBy_of_written hwritten)
  · intro k hheld
    exact VersionedRow.commit_of_not_heldBy hheld
  · intro k hheld
    rw [VersionedRow.commit, if_pos hheld]

theorem Coherent.rollback (h : Coherent K w) (id : Nat) :
    Coherent K (step K w (.rollback id)) := by
  apply h.release
  · intro k v hwritten
    exact (VersionedRow.written_rollback hwritten).2 rfl
  · intro k hheld
    simp [VersionedRow.rollback, hheld]
  · intro k hheld
    simp [VersionedRow.rollback, hheld]

/-- What a write statement does: nothing, or it puts a version into a free row. -/
theorem step_write_cases (K : TxKind κ ρ α) (w : TxTable κ ρ α) (id : Nat) (k : κ) :
    step K w (.write id k) = w ∨ ∃ tx progress v, w.txs id = some (tx, progress) ∧
      canWrite K tx progress = true ∧ (w.row k).written = none ∧
        K.writes tx k (w.seenAt k progress) (w.committed k) = some v ∧
          step K w (.write id k) = TxTable.putRow K w id tx progress k v := by
  unfold step
  simp only
  split
  · rename_i tx progress htx
    split
    · rename_i hcan
      rw [Bool.and_eq_true, Option.isNone_iff_eq_none] at hcan
      split
      · rename_i v hv
        exact Or.inr ⟨tx, progress, v, htx, hcan.1, hcan.2, hv, rfl⟩
      · exact Or.inl rfl
    · exact Or.inl rfl
  · exact Or.inl rfl

/-- Every statement keeps the locks and the transactions in line. -/
theorem Coherent.step (h : Coherent K w) (e : TxEvent κ α) :
    Coherent K (TxTable.step K w e) := by
  cases e with
  | start id tx =>
      unfold TxTable.step
      simp only
      split
      · rename_i hnone
        refine h.withTx (fun seen k hprogress => by cases hprogress) ?_
        intro k v hwritten
        obtain ⟨tx', progress', htx, -⟩ := h.holder k id v hwritten
        rw [hnone] at htx
        cases htx
      · exact h
  | find id =>
      unfold TxTable.step
      simp only
      split
      · rename_i tx htx
        split
        · refine h.withTx (fun seen k hprogress => by cases hprogress) ?_
          intro k v hwritten
          obtain ⟨tx', progress', htx', hwrites, hsingle⟩ := h.holder k id v hwritten
          rw [htx] at htx'
          obtain ⟨rfl, rfl⟩ := Prod.mk.inj (Option.some.inj htx')
          refine ⟨?_, hwrites⟩
          cases hcase : K.single tx with
          | false => rfl
          | true =>
              obtain ⟨seen, hwrote⟩ := hsingle hcase
              cases hwrote
        · exact h
      · exact h
  | write id k =>
      rcases step_write_cases K w id k with hsame | ⟨tx, progress, v, htx, hcan, hfree, hv, hput⟩
      · rw [hsame]
        exact h
      · rw [hput]
        exact h.putRow htx hcan hfree hv
  | commit id => exact h.commit id
  | rollback id => exact h.rollback id

/-- A commit leaves a row as it is, or with what the statement of the transaction makes
of it. -/
theorem Coherent.commit_cases (h : Coherent K w) (id : Nat) (k : κ) :
    ((w.row k).heldBy id = false ∧
        (TxTable.step K w (.commit id)).committed k = w.committed k) ∨
      ∃ tx progress v, (w.row k).written = some (id, v) ∧ w.txs id = some (tx, progress) ∧
        K.writes tx k (w.seenAt k progress) (w.committed k) = some v ∧
          (K.single tx = true → ∃ seen, progress = .wrote seen k) ∧
            (TxTable.step K w (.commit id)).committed k = v := by
  have hcommitted : (TxTable.step K w (.commit id)).committed k = (w.row k).read id :=
    committed_commit w id k
  cases hheld : (w.row k).heldBy id with
  | false =>
      refine Or.inl ⟨rfl, ?_⟩
      rw [hcommitted, VersionedRow.read_of_not_heldBy hheld]
      rfl
  | true =>
      obtain ⟨v, hwritten⟩ := VersionedRow.heldBy_iff.mp hheld
      obtain ⟨tx, progress, htx, hwrites, hsingle⟩ := h.holder k id v hwritten
      refine Or.inr ⟨tx, progress, v, hwritten, htx, hwrites, hsingle, ?_⟩
      rw [hcommitted, VersionedRow.read_of_written hwritten]

/-- Only a commit moves the committed rows. -/
theorem committed_step (w : TxTable κ ρ α) {e : TxEvent κ α} (hne : ∀ id, e ≠ .commit id) :
    (TxTable.step K w e).committed = w.committed := by
  cases e with
  | start id tx =>
      unfold TxTable.step
      simp only
      split <;> rfl
  | find id =>
      unfold TxTable.step
      simp only
      split
      · split <;> rfl
      · rfl
  | write id k =>
      rcases step_write_cases K w id k with hsame | ⟨tx, progress, v, -, -, -, -, hput⟩
      · rw [hsame]
      · rw [hput, committed_putRow]
  | commit id => exact absurd rfl (hne id)
  | rollback id =>
      funext k
      exact VersionedRow.committed_rollback

/-- An open transaction was open before the statement, or is started by it. -/
theorem txs_step_cases {w : TxTable κ ρ α} {e : TxEvent κ α} {id : Nat} {tx : α}
    {progress : TxProgress κ ρ} (h : (TxTable.step K w e).txs id = some (tx, progress)) :
    (∃ progress', w.txs id = some (tx, progress')) ∨ e = .start id tx := by
  cases e with
  | start id' tx' =>
      unfold TxTable.step at h
      simp only at h
      split at h
      · rcases update_some_eq_some h with ⟨rfl, heq⟩ | ⟨-, hold⟩
        · obtain ⟨rfl, -⟩ := Prod.mk.inj heq
          exact Or.inr rfl
        · exact Or.inl ⟨progress, hold⟩
      · exact Or.inl ⟨progress, h⟩
  | find id' =>
      unfold TxTable.step at h
      simp only at h
      split at h
      · rename_i tx' htx'
        split at h
        · rcases update_some_eq_some h with ⟨rfl, heq⟩ | ⟨-, hold⟩
          · obtain ⟨rfl, -⟩ := Prod.mk.inj heq
            exact Or.inl ⟨_, htx'⟩
          · exact Or.inl ⟨progress, hold⟩
        · exact Or.inl ⟨progress, h⟩
      · exact Or.inl ⟨progress, h⟩
  | write id' k =>
      rcases step_write_cases K w id' k with hsame | ⟨tx', progress', v, htx', -, -, -, hput⟩
      · rw [hsame] at h
        exact Or.inl ⟨progress, h⟩
      · rw [hput] at h
        rcases update_some_eq_some h with ⟨rfl, heq⟩ | ⟨-, hold⟩
        · obtain ⟨rfl, -⟩ := Prod.mk.inj heq
          exact Or.inl ⟨progress', htx'⟩
        · exact Or.inl ⟨progress, hold⟩
  | commit id' => exact Or.inl ⟨progress, (update_none_eq_some h).2⟩
  | rollback id' => exact Or.inl ⟨progress, (update_none_eq_some h).2⟩

/-- A statement opens no transaction but the one it starts. -/
theorem txs_step_eq_none {w : TxTable κ ρ α} {e : TxEvent κ α} {id : Nat}
    (hnone : w.txs id = none) (hstart : ∀ tx, e ≠ .start id tx) :
    (TxTable.step K w e).txs id = none := by
  cases hopen : (TxTable.step K w e).txs id with
  | none => rfl
  | some tx =>
      rcases txs_step_cases hopen with ⟨progress', hold⟩ | heq
      · rw [hnone] at hold
        cases hold
      · exact absurd heq (hstart tx.1)

/-- A run opens no transaction that it does not start. -/
theorem txs_run_eq_none {w : TxTable κ ρ α} {es : List (TxEvent κ α)} {id : Nat}
    (hnone : w.txs id = none) (hstart : ∀ e ∈ es, ∀ tx, e ≠ .start id tx) :
    ((system K).run w es).txs id = none := by
  induction es generalizing w with
  | nil => exact hnone
  | cons e es ih =>
      have hfirst : (TxTable.step K w e).txs id = none :=
        txs_step_eq_none hnone (hstart e List.mem_cons_self)
      exact ih hfirst (fun e' he' => hstart e' (List.mem_cons_of_mem e he'))

end Step

/-! ## A property of every version -/

section Holds

/-- Every version of every row, committed or not, satisfies `P`. -/
def Holds (P : κ → ρ → Prop) (w : TxTable κ ρ α) : Prop :=
  ∀ k, P k (w.committed k) ∧ ∀ id v, (w.row k).written = some (id, v) → P k v

variable {K : TxKind κ ρ α} {w : TxTable κ ρ α} {P : κ → ρ → Prop}

theorem holds_ofRows {rows : κ → ρ} (h : ∀ k, P k (rows k)) :
    Holds P (ofRows rows : TxTable κ ρ α) := by
  intro k
  refine ⟨h k, ?_⟩
  intro id v hwritten
  cases hwritten

/-- Whatever transaction looks at a row. -/
theorem Holds.read (h : Holds P w) (id : Nat) (k : κ) : P k (w.read id k) := by
  obtain ⟨hcommitted, hwritten⟩ := h k
  by_cases hheld : (w.row k).heldBy id = true
  · obtain ⟨v, hv⟩ := VersionedRow.heldBy_iff.mp hheld
    rw [TxTable.read, VersionedRow.read_of_written hv]
    exact hwritten id v hv
  · rw [TxTable.read, VersionedRow.read_of_not_heldBy (Bool.not_eq_true _ ▸ hheld)]
    exact hcommitted

/-- The rule for a property that every write keeps of the version it is made over. -/
theorem Holds.step [DecidableEq κ] (h : Holds P w)
    (hwrites : ∀ tx k seen current v, P k current → K.writes tx k seen current = some v → P k v)
    (e : TxEvent κ α) : Holds P (TxTable.step K w e) := by
  cases e with
  | start id tx =>
      unfold TxTable.step
      simp only
      split <;> exact h
  | find id =>
      unfold TxTable.step
      simp only
      split
      · split <;> exact h
      · exact h
  | write id k =>
      rcases step_write_cases K w id k with hsame | ⟨tx, progress, v, -, -, -, hv, hput⟩
      · rw [hsame]
        exact h
      · intro k'
        rw [hput, committed_putRow]
        refine ⟨(h k').1, ?_⟩
        intro id' v' hwritten
        by_cases hk : k' = k
        · subst hk
          simp only [putRow, Function.update_self, Option.some.injEq, Prod.mk.injEq] at hwritten
          obtain ⟨-, rfl⟩ := hwritten
          exact hwrites tx k' _ _ v (h k').1 hv
        · refine (h k').2 id' v' ?_
          simpa [putRow, Function.update_of_ne hk] using hwritten
  | commit id =>
      intro k
      have hcommitted : (TxTable.step K w (.commit id)).committed k = w.read id k :=
        committed_commit w id k
      rw [hcommitted]
      refine ⟨h.read id k, ?_⟩
      intro id' v hwritten
      change ((w.row k).commit id).written = _ at hwritten
      by_cases hheld : (w.row k).heldBy id = true
      · rw [VersionedRow.commit, if_pos hheld] at hwritten
        cases hwritten
      · rw [VersionedRow.commit_of_not_heldBy (Bool.not_eq_true _ ▸ hheld)] at hwritten
        exact (h k).2 id' v hwritten
  | rollback id =>
      intro k
      rw [committed_step w (fun id' heq => by cases heq)]
      refine ⟨(h k).1, ?_⟩
      intro id' v hwritten
      exact (h k).2 id' v (VersionedRow.written_rollback hwritten).1

end Holds

/-! ## What was read and what is there -/

section Tracks

/-- Between every row as an open transaction has read it and the row as it is now, `R`
holds. -/
def Tracks (R : κ → ρ → ρ → Prop) (w : TxTable κ ρ α) : Prop :=
  ∀ id tx progress seen, w.txs id = some (tx, progress) → progress.seen? = some seen →
    ∀ k, R k (seen k) (w.committed k)

variable {K : TxKind κ ρ α} {w : TxTable κ ρ α} {R : κ → ρ → ρ → Prop}

theorem tracks_ofRows (rows : κ → ρ) : Tracks R (ofRows rows : TxTable κ ρ α) := by
  intro id tx progress seen htx
  cases htx

/-- The row as the write goes by it. -/
theorem Tracks.seenAt (h : Tracks R w) (hrefl : ∀ k v, R k v v) {id : Nat} {tx : α}
    {progress : TxProgress κ ρ} (htx : w.txs id = some (tx, progress)) (k : κ) :
    R k (w.seenAt k progress) (w.committed k) := by
  unfold TxTable.seenAt
  cases hseen : progress.seen? with
  | some seen => exact h id tx progress seen htx hseen k
  | none => exact hrefl k (w.committed k)

theorem Tracks.withTx (h : Tracks R w) {id : Nat} {tx : α} {progress : TxProgress κ ρ}
    (hnew : ∀ seen, progress.seen? = some seen → ∀ k, R k (seen k) (w.committed k)) :
    Tracks R (w.withTx id (some (tx, progress))) := by
  intro id' tx' progress' seen htx hseen
  rcases update_some_eq_some htx with ⟨-, heq⟩ | ⟨-, htx⟩
  · obtain ⟨rfl, rfl⟩ := Prod.mk.inj heq
    exact hnew seen hseen
  · exact h id' tx' progress' seen htx hseen

/-- The rule for a reflexive and transitive relation that every write keeps to the version
it is made over. -/
theorem Tracks.step [DecidableEq κ] (h : Tracks R w) (hcoherent : Coherent K w)
    (hrefl : ∀ k v, R k v v) (htrans : ∀ k v₁ v₂ v₃, R k v₁ v₂ → R k v₂ v₃ → R k v₁ v₃)
    (hwrites : ∀ tx k seen current v, K.writes tx k seen current = some v → R k current v)
    (e : TxEvent κ α) : Tracks R (TxTable.step K w e) := by
  cases e with
  | start id tx =>
      unfold TxTable.step
      simp only
      split
      · exact h.withTx (fun seen hseen => by cases hseen)
      · exact h
  | find id =>
      unfold TxTable.step
      simp only
      split
      · split
        · refine h.withTx ?_
          intro seen hseen k
          obtain rfl := Option.some.inj hseen
          exact hrefl k (w.committed k)
        · exact h
      · exact h
  | write id k =>
      rcases step_write_cases K w id k with hsame | ⟨tx, progress, v, htx, -, -, -, hput⟩
      · rw [hsame]
        exact h
      · intro id' tx' progress' seen htx' hseen k'
        rw [hput, committed_putRow]
        rw [hput] at htx'
        rcases update_some_eq_some htx' with ⟨rfl, heq⟩ | ⟨-, hold⟩
        · obtain ⟨rfl, hprogress⟩ := Prod.mk.inj heq
          by_cases hsingle : K.single tx' = true
          · rw [if_pos hsingle] at hprogress
            subst hprogress
            obtain rfl := Option.some.inj hseen
            exact h.seenAt hrefl htx k'
          · rw [if_neg hsingle] at hprogress
            subst hprogress
            exact h id' tx' _ seen htx hseen k'
        · exact h id' tx' progress' seen hold hseen k'
  | commit id =>
      intro id' tx' progress' seen htx' hseen k
      obtain ⟨-, hold⟩ := update_none_eq_some htx'
      have hbefore := h id' tx' progress' seen hold hseen k
      rcases hcoherent.commit_cases id k with ⟨-, hsame⟩ | ⟨tx, progress, v, -, -, hv, -, hnew⟩
      · rw [hsame]
        exact hbefore
      · rw [hnew]
        exact htrans k _ _ _ hbefore (hwrites tx k _ _ v hv)
  | rollback id =>
      intro id' tx' progress' seen htx' hseen k
      obtain ⟨-, hold⟩ := update_none_eq_some htx'
      rw [committed_step w (fun id' heq => by cases heq)]
      exact h id' tx' progress' seen hold hseen k

end Tracks

/-! ## The journal of a row -/

section Journal

/-- A committed change of a row, with the row as the transaction had read it. -/
structure RowChange (ρ : Type v) (α : Type w) where
  tx : α
  seen : ρ
  before : ρ
  after : ρ

/-- The change that the commit of a transaction makes to a row it has locked. -/
def change? (w : TxTable κ ρ α) (id : Nat) (k : κ) : Option (RowChange ρ α) :=
  match (w.row k).written, w.txs id with
  | some (holder, v), some (tx, progress) =>
      if holder = id then some ⟨tx, w.seenAt k progress, w.committed k, v⟩ else none
  | _, _ => none

/-- The changes of every row, the oldest first, when the transaction has committed. -/
def journalAfter (w : TxTable κ ρ α) (journal : κ → List (RowChange ρ α)) (id : Nat) (k : κ) :
    List (RowChange ρ α) :=
  journal k ++ (w.change? id k).toList

variable {K : TxKind κ ρ α} {w : TxTable κ ρ α}

/-- The row of a single write that is made is changed by its commit. -/
theorem Coherent.change?_isSome (h : Coherent K w) {id : Nat} {tx : α} {seen : κ → ρ} {k : κ}
    (htx : w.txs id = some (tx, .wrote seen k)) :
    ∃ v, (w.row k).written = some (id, v) ∧
      w.change? id k = some ⟨tx, seen k, w.committed k, v⟩ := by
  obtain ⟨-, v, hwritten⟩ := h.held id tx seen k htx
  exact ⟨v, hwritten, by simp [change?, hwritten, htx, seenAt, TxProgress.seen?]⟩

variable [DecidableEq κ]

/-- A commit leaves a row and its journal as they are, or it adds the change that the
statement of its transaction makes. -/
theorem Coherent.journal_cases (h : Coherent K w) (journal : κ → List (RowChange ρ α))
    (id : Nat) (k : κ) :
    (w.change? id k = none ∧ w.journalAfter journal id k = journal k ∧
        (TxTable.step K w (.commit id)).committed k = w.committed k) ∨
      ∃ c progress, w.change? id k = some c ∧ w.journalAfter journal id k = journal k ++ [c] ∧
        w.txs id = some (c.tx, progress) ∧ c.seen = w.seenAt k progress ∧
          K.writes c.tx k c.seen c.before = some c.after ∧ c.before = w.committed k ∧
            (TxTable.step K w (.commit id)).committed k = c.after ∧
              (K.single c.tx = true → ∃ seen, progress = .wrote seen k) := by
  rcases h.commit_cases id k with ⟨hheld, hsame⟩ | ⟨tx, progress, v, hwritten, htx, hv, hsingle,
    hnew⟩
  · have hnone : w.change? id k = none := by
      unfold change?
      split
      · rename_i holder v tx progress hwritten htx
        refine if_neg ?_
        rintro rfl
        rw [VersionedRow.heldBy_of_written hwritten] at hheld
        cases hheld
      · rfl
    refine Or.inl ⟨hnone, ?_, hsame⟩
    rw [journalAfter, hnone, Option.toList_none, List.append_nil]
  · have hsome : w.change? id k = some ⟨tx, w.seenAt k progress, w.committed k, v⟩ := by
      simp [change?, hwritten, htx]
    refine Or.inr ⟨_, progress, hsome, ?_, htx, rfl, hv, rfl, hnew, hsingle⟩
    rw [journalAfter, hsome, Option.toList_some]

end Journal

end TxTable

end Foundation
end Ctem
