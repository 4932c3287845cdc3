import Ctem.Findings.Ingest
import Ctem.Foundation.ReadCommitted
import Ctem.Foundation.Runs

/-!
# Triage beside ingest

One finding row and the transactions on it, statement by statement: `ingest` finds the
row and then upserts it, its closing step is one `updateMany`, and `triage` finds the
row and then updates it.  `withOrg` makes a transaction of each, and the database
isolates them at read committed.

* `refreshedAs` is the update of the upsert, which re-opens the row by the state the
  find has seen and not by the state the row has.
* `RowWorld.decided` is a history variable: the triage decision in force.
* `triage_kept_iff`: a decision stays precisely when no ingest that saw the row
  resolved commits behind a triage.
-/

namespace Ctem
namespace Findings

open Foundation Contracts

/-- The update branch of the upsert, when the find has seen the state `seen`. -/
def refreshedAs (seen : FindingState) (payload : FindingsReportedPayload) (row : CollapsedFinding)
    (seenAt : Timestamp) (existing : FindingRow) : FindingRow :=
  { refreshedRow payload row seenAt existing with
    state := if seen = .resolved then .open else existing.state
    resolvedAt := if seen = .resolved then none else existing.resolvedAt
    slaNotifiedAt := if seen = .resolved then none else existing.slaNotifiedAt }

/-- Nothing in between, the upsert writes what an undisturbed ingest does. -/
theorem refreshedAs_state (payload : FindingsReportedPayload) (row : CollapsedFinding)
    (seenAt : Timestamp) (existing : FindingRow) :
    refreshedAs existing.state payload row seenAt existing =
      refreshedRow payload row seenAt existing := rfl

/-- What `triage` writes. -/
def triagedRow (state : FindingState) (now : Timestamp) (existing : FindingRow) : FindingRow :=
  { existing with
    state := state
    resolvedAt := if state = .resolved then some now else none
    slaNotifiedAt := if state = .resolved then none else existing.slaNotifiedAt }

/-- The states a triage decides on, the opening and the closing of a finding apart. -/
def isDecision : FindingState → Bool
  | .falsePositive | .riskAccepted | .suppressed | .triaged | .inProgress => true
  | _ => false

/-- A transaction on the row. -/
inductive RowTx where
  /-- The transaction of the row's fingerprint in an ingest that reports it. -/
  | report (payload : FindingsReportedPayload) (row : CollapsedFinding) (seenAt : Timestamp)
  /-- The closing step of an ingest. -/
  | close (orgId : OrgId) (payload : FindingsReportedPayload) (fingerprints : List String)
      (seenAt : Timestamp)
  /-- The state change also inserts a finding event, which is no part of the row. -/
  | triage (state : FindingState) (now : Timestamp)

/-- How far a transaction is. -/
inductive TxStage where
  | begun
  /-- The find has returned a row in that state. -/
  | found (state : FindingState)
  /-- The write is made; `found` is the state the find returned. -/
  | wrote (found : FindingState)
deriving DecidableEq

/-- The row and the open transactions. -/
structure RowWorld where
  row : VersionedRow Nat FindingRow
  txs : Nat → Option (RowTx × TxStage) := fun _ => none
  /-- The triage decision in force. -/
  decided : Option FindingState := none

inductive RowEvent where
  | start (id : Nat) (tx : RowTx)
  | find (id : Nat)
  | write (id : Nat)
  | commit (id : Nat)
  | rollback (id : Nat)

namespace RowWorld

/-- The transaction goes on, or is over. -/
def withTx (w : RowWorld) (id : Nat) (tx : Option (RowTx × TxStage)) : RowWorld :=
  { w with txs := fun i => if i = id then tx else w.txs i }

/-- The write of a transaction, if the row is not locked. -/
def writeRow (w : RowWorld) (id : Nat) (tx : RowTx) (found : FindingState)
    (data : FindingRow → FindingRow) : RowWorld :=
  if w.row.lockedFor id then w
  else { w.withTx id (some (tx, .wrote found)) with row := w.row.write id data }

/-- What a commit does to the decision in force: a triage makes one or takes it back,
and a closing step that has written the row ends one to `triaged` or `in_progress`. -/
def decidedAfter (w : RowWorld) (id : Nat) : RowTx → Option FindingState
  | .report _ _ _ => w.decided
  | .close _ _ _ _ =>
      if w.row.heldBy id = true ∧ (w.decided = some .triaged ∨ w.decided = some .inProgress) then
        none
      else w.decided
  | .triage state _ => if isDecision state then some state else none

def step (w : RowWorld) : RowEvent → RowWorld
  | .start id tx =>
      match w.txs id with
      | none => w.withTx id (some (tx, .begun))
      | some _ => w
  | .find id =>
      match w.txs id with
      -- `findUnique` of an ingest and `findUniqueOrThrow` of a triage; a close finds nothing first
      | some (.report payload row seenAt, .begun) =>
          w.withTx id (some (.report payload row seenAt, .found (w.row.read id).state))
      | some (.triage state now, .begun) =>
          w.withTx id (some (.triage state now, .found (w.row.read id).state))
      | _ => w
  | .write id =>
      match w.txs id with
      | some (.report payload row seenAt, .found found) =>
          w.writeRow id (.report payload row seenAt) found (refreshedAs found payload row seenAt)
      | some (.triage state now, .found found) =>
          w.writeRow id (.triage state now) found (triagedRow state now)
      -- the `where` of `updateMany` is evaluated on the row that is written
      | some (.close orgId payload fingerprints seenAt, .begun) =>
          if unreported orgId payload.assetId payload.scannerType fingerprints
              (w.row.read id) then
            w.writeRow id (.close orgId payload fingerprints seenAt) (w.row.read id).state
              (autoResolved seenAt)
          else
            w.withTx id (some (.close orgId payload fingerprints seenAt,
              .wrote (w.row.read id).state))
      | _ => w
  | .commit id =>
      match w.txs id with
      | some (tx, .wrote _) =>
          { w.withTx id none with
            row := w.row.commit id
            decided := w.decidedAfter id tx }
      | _ => w
  | .rollback id => { w.withTx id none with row := w.row.rollback id }

/-- The transactions on one row: any event may come at any time. -/
def system : System RowWorld RowEvent where
  step := step
  allowed := fun _ _ => True

/-- The decision in force is the state of the committed row. -/
def DecisionKept (w : RowWorld) : Prop :=
  ∀ state, w.decided = some state → w.row.committed.state = state

/-- An ingest that saw the row resolved commits its upsert on a row that a triage has
moved since. -/
def ReopensDecided (w : RowWorld) (e : RowEvent) : Prop :=
  ∃ id payload row seenAt, e = .commit id ∧
    w.txs id = some (.report payload row seenAt, .wrote .resolved) ∧
      isDecision w.row.committed.state = true

/-! ## What holds in every state -/

/-- What a transaction has written, by the committed row it has written over. -/
def Written (tx : RowTx) (found : FindingState) (committed version : FindingRow) : Prop :=
  match tx with
  | .report _ _ _ => version.state = if found = .resolved then .open else committed.state
  | .close _ _ _ _ => version.state = .resolved ∧ committed.state.unresolved = true
  | .triage state _ => version.state = state

/-- The find of an ingest has returned a resolved row. -/
def SawResolved (tx : RowTx) (stage : TxStage) : Prop :=
  (∃ payload row seenAt, tx = .report payload row seenAt) ∧
    (stage = .found .resolved ∨ stage = .wrote .resolved)

/-- What links the lock, the open transactions and the decision in force. -/
structure Coherent (w : RowWorld) : Prop where
  holder : ∀ id version, w.row.written = some (id, version) → ∃ tx found,
    w.txs id = some (tx, .wrote found) ∧ Written tx found w.row.committed version
  /-- Only a closing step that selects nothing writes nothing. -/
  holds : ∀ id tx found, w.txs id = some (tx, .wrote found) →
    w.row.heldBy id = true ∨ ∃ orgId payload fingerprints seenAt,
      tx = .close orgId payload fingerprints seenAt
  decision : ∀ state, w.decided = some state → isDecision state = true
  /-- Since an ingest saw the row resolved, only a triage has made a decision of it. -/
  tracked : ∀ id tx stage, w.txs id = some (tx, stage) → SawResolved tx stage →
    isDecision w.row.committed.state = true → w.decided = some w.row.committed.state

theorem coherent_start (row : FindingRow) : Coherent { row := ⟨row, none⟩ } where
  holder := by simp
  holds := by simp
  decision := by simp
  tracked := by simp

variable {w : RowWorld}

@[simp] theorem withTx_txs (w : RowWorld) (id : Nat) (tx : Option (RowTx × TxStage)) (i : Nat) :
    (w.withTx id tx).txs i = if i = id then tx else w.txs i := rfl

/-- A transaction that has not written does not hold the lock. -/
theorem Coherent.not_held (h : w.Coherent) {id : Nat}
    (hstage : ∀ tx found, w.txs id ≠ some (tx, .wrote found)) : w.row.heldBy id = false := by
  cases hheld : w.row.heldBy id with
  | false => rfl
  | true =>
      obtain ⟨version, hwritten⟩ := VersionedRow.heldBy_iff.mp hheld
      obtain ⟨tx, found, htx, -⟩ := h.holder id version hwritten
      exact absurd htx (hstage tx found)

/-- A transaction that has not written goes on to a stage without a write. -/
theorem Coherent.withTx (h : w.Coherent) {id : Nat} {tx : RowTx} {stage : TxStage}
    (hstage : ∀ tx found, w.txs id ≠ some (tx, .wrote found))
    (hnew : ∀ found, stage = .wrote found → ∃ orgId payload fingerprints seenAt,
      tx = .close orgId payload fingerprints seenAt)
    (hsaw : SawResolved tx stage → isDecision w.row.committed.state = false) :
    (w.withTx id (some (tx, stage))).Coherent := by
  refine ⟨?_, ?_, h.decision, ?_⟩
  · intro i version hwritten
    obtain ⟨tx', found, htx, hver⟩ := h.holder i version hwritten
    refine ⟨tx', found, ?_, hver⟩
    have hne : i ≠ id := by
      intro heq
      subst heq
      exact hstage tx' found htx
    simpa [hne] using htx
  · intro i tx' found htx
    by_cases hi : i = id
    · subst hi
      simp only [withTx_txs, if_pos, Option.some.injEq, Prod.mk.injEq] at htx
      obtain ⟨rfl, hwrote⟩ := htx
      exact Or.inr (hnew found hwrote)
    · simp only [withTx_txs, if_neg hi] at htx
      exact h.holds i tx' found htx
  · intro i tx' stage' htx hsaw' hdecision
    by_cases hi : i = id
    · subst hi
      simp only [withTx_txs, if_pos, Option.some.injEq, Prod.mk.injEq] at htx
      obtain ⟨rfl, rfl⟩ := htx
      have hnot := hsaw hsaw'
      change isDecision w.row.committed.state = true at hdecision
      rw [hnot] at hdecision
      cases hdecision
    · simp only [withTx_txs, if_neg hi] at htx
      exact h.tracked i tx' stage' htx hsaw' hdecision

/-- The write of a transaction that has not written before. -/
theorem Coherent.writeRow (h : w.Coherent) {id : Nat} {tx : RowTx} {found : FindingState}
    {data : FindingRow → FindingRow}
    (hstage : ∀ tx found, w.txs id ≠ some (tx, .wrote found))
    (hwrites : Written tx found w.row.committed (data w.row.committed))
    (hsaw : SawResolved tx (.wrote found) → isDecision w.row.committed.state = true →
      w.decided = some w.row.committed.state) :
    (w.writeRow id tx found data).Coherent := by
  unfold RowWorld.writeRow
  split
  · exact h
  · rename_i hlocked
    have hfree : w.row.lockedFor id = false := Bool.not_eq_true _ ▸ hlocked
    have hread : w.row.read id = w.row.committed :=
      VersionedRow.read_of_not_heldBy (h.not_held hstage)
    have hwritten : (w.row.write id data).written = some (id, data w.row.committed) := by
      rw [VersionedRow.written_write hfree, hread]
    refine ⟨?_, ?_, h.decision, ?_⟩
    · intro i version hversion
      change (w.row.write id data).written = some (i, version) at hversion
      rw [hwritten] at hversion
      obtain ⟨rfl, rfl⟩ := Prod.mk.inj (Option.some.inj hversion)
      refine ⟨tx, found, by simp, ?_⟩
      rw [VersionedRow.committed_write]
      exact hwrites
    · intro i tx' found' htx
      by_cases hi : i = id
      · subst hi
        exact Or.inl (VersionedRow.heldBy_of_written hwritten)
      · -- nobody else held the lock, so nobody else but a closing step had written
        simp only [withTx_txs, if_neg hi] at htx
        rcases h.holds i tx' found' htx with hheld | hclose
        · have hlocked' := VersionedRow.lockedFor_of_heldBy_ne (t := id) hheld hi
          rw [hfree] at hlocked'
          cases hlocked'
        · exact Or.inr hclose
    · intro i tx' stage htx hsaw' hdecision
      simp only [VersionedRow.committed_write] at hdecision ⊢
      by_cases hi : i = id
      · subst hi
        simp only [withTx_txs, if_pos, Option.some.injEq, Prod.mk.injEq] at htx
        obtain ⟨rfl, rfl⟩ := htx
        exact hsaw hsaw' hdecision
      · simp only [withTx_txs, if_neg hi] at htx
        exact h.tracked i tx' stage htx hsaw' hdecision

/-- The end of a transaction that leaves the committed row and the decision alone. -/
theorem Coherent.release (h : w.Coherent) (id : Nat) {row : VersionedRow Nat FindingRow}
    (hcommitted : row.committed = w.row.committed)
    (hwritten : ∀ i version, row.written = some (i, version) →
      w.row.written = some (i, version) ∧ i ≠ id)
    (hheld : ∀ i, i ≠ id → w.row.heldBy i = true → row.heldBy i = true) :
    ({ w.withTx id none with row := row } : RowWorld).Coherent := by
  refine ⟨?_, ?_, h.decision, ?_⟩
  · intro i version hversion
    obtain ⟨hold, hne⟩ := hwritten i version hversion
    obtain ⟨tx, found, htx, hver⟩ := h.holder i version hold
    refine ⟨tx, found, by simpa [hne] using htx, ?_⟩
    rw [hcommitted]
    exact hver
  · intro i tx found htx
    by_cases hi : i = id
    · simp [hi] at htx
    · simp only [withTx_txs, if_neg hi] at htx
      rcases h.holds i tx found htx with hold | hclose
      · exact Or.inl (hheld i hi hold)
      · exact Or.inr hclose
  · intro i tx stage htx hsaw hdecision
    simp only [hcommitted] at hdecision ⊢
    by_cases hi : i = id
    · simp [hi] at htx
    · simp only [withTx_txs, if_neg hi] at htx
      exact h.tracked i tx stage htx hsaw hdecision

/-- The world when the transaction has committed. -/
def afterCommit (w : RowWorld) (id : Nat) (tx : RowTx) : RowWorld :=
  { w.withTx id none with
    row := w.row.commit id
    decided := w.decidedAfter id tx }

theorem step_commit {id : Nat} {tx : RowTx} {found : FindingState}
    (htx : w.txs id = some (tx, .wrote found)) :
    RowWorld.step w (.commit id) = w.afterCommit id tx := by
  unfold RowWorld.step
  simp only [htx]
  rfl

/-- The commit of what a transaction has written. -/
theorem Coherent.commit (h : w.Coherent) {id : Nat} {tx : RowTx} {found : FindingState}
    {version : FindingRow} (hwritten : w.row.written = some (id, version))
    (hver : Written tx found w.row.committed version) : (w.afterCommit id tx).Coherent := by
  have hrow : w.row.commit id = ⟨version, none⟩ := VersionedRow.commit_of_written hwritten
  unfold afterCommit
  refine ⟨?_, ?_, ?_, ?_⟩
  · intro i version' hversion'
    simp only [hrow] at hversion'
    cases hversion'
  · intro i tx' found' htx
    by_cases hi : i = id
    · simp [hi] at htx
    · simp only [withTx_txs, if_neg hi] at htx
      rcases h.holds i tx' found' htx with hheld | hclose
      · obtain ⟨version', hversion'⟩ := VersionedRow.heldBy_iff.mp hheld
        rw [hwritten] at hversion'
        exact absurd (Prod.mk.inj (Option.some.inj hversion')).1.symm hi
      · exact Or.inr hclose
  · intro state hdecided
    cases tx with
    | report payload row seenAt => exact h.decision state hdecided
    | close orgId payload fingerprints seenAt =>
        simp only [decidedAfter] at hdecided
        split at hdecided
        · cases hdecided
        · exact h.decision state hdecided
    | triage state' now =>
        simp only [decidedAfter] at hdecided
        split at hdecided
        · obtain rfl := Option.some.inj hdecided
          assumption
        · cases hdecided
  · intro i tx' stage htx hsaw hdecision
    simp only [hrow] at hdecision ⊢
    have hi : i ≠ id := by
      intro heq
      simp [heq] at htx
    simp only [withTx_txs, if_neg hi] at htx
    cases tx with
    | report payload row seenAt =>
        have hstate : version.state = if found = .resolved then .open else w.row.committed.state :=
          hver
        by_cases hfound : found = .resolved
        · rw [if_pos hfound] at hstate
          rw [hstate] at hdecision
          cases hdecision
        · rw [if_neg hfound] at hstate
          rw [hstate] at hdecision ⊢
          exact h.tracked i tx' stage htx hsaw hdecision
    | close orgId payload fingerprints seenAt =>
        have hstate : version.state = .resolved := hver.1
        rw [hstate] at hdecision
        cases hdecision
    | triage state now =>
        have hstate : version.state = state := hver
        rw [hstate] at hdecision ⊢
        simp [decidedAfter, hdecision]

/-- What the commit of a transaction is: that of its version, or, for a closing step
that selected nothing, of none. -/
theorem Coherent.commit_cases (h : w.Coherent) {id : Nat} {tx : RowTx} {found : FindingState}
    (htx : w.txs id = some (tx, .wrote found)) :
    (∃ version, w.row.written = some (id, version) ∧ Written tx found w.row.committed version) ∨
      (w.row.commit id = w.row ∧ w.decidedAfter id tx = w.decided ∧ w.row.heldBy id = false ∧
        ∃ orgId payload fingerprints seenAt, tx = .close orgId payload fingerprints seenAt) := by
  cases hheld : w.row.heldBy id with
  | true =>
      obtain ⟨version, hwritten⟩ := VersionedRow.heldBy_iff.mp hheld
      obtain ⟨tx', found', htx', hver⟩ := h.holder id version hwritten
      rw [htx] at htx'
      obtain ⟨rfl, hfound⟩ := Prod.mk.inj (Option.some.inj htx')
      obtain rfl := TxStage.wrote.inj hfound
      exact Or.inl ⟨version, hwritten, hver⟩
  | false =>
      rcases h.holds id tx found htx with hheld' | ⟨orgId, payload, fingerprints, seenAt, rfl⟩
      · rw [hheld] at hheld'
        cases hheld'
      · refine Or.inr ⟨VersionedRow.commit_of_not_heldBy hheld, ?_, rfl, _, _, _, _, rfl⟩
        simp [decidedAfter, hheld]

/-- Only the upsert of an ingest goes by a resolved row that its find has seen. -/
theorem not_sawResolved {tx : RowTx} {stage : TxStage}
    (hnot : ∀ payload row seenAt, tx ≠ .report payload row seenAt) : ¬ SawResolved tx stage := by
  intro hsaw
  obtain ⟨payload, row, seenAt, heq⟩ := hsaw.1
  exact hnot payload row seenAt heq

theorem Coherent.stepFind (h : w.Coherent) (id : Nat) :
    (RowWorld.step w (.find id)).Coherent := by
  unfold RowWorld.step
  simp only
  split
  · rename_i payload row seenAt htx
    have hstage : ∀ tx found, w.txs id ≠ some (tx, .wrote found) := by simp [htx]
    refine h.withTx hstage (fun found hf => by cases hf) ?_
    -- a row that was found resolved is resolved
    intro hsaw
    rw [VersionedRow.read_of_not_heldBy (h.not_held hstage)] at hsaw
    rcases hsaw.2 with hfound | hwrote
    · rw [TxStage.found.inj hfound]
      rfl
    · cases hwrote
  · rename_i state now htx
    have hstage : ∀ tx found, w.txs id ≠ some (tx, .wrote found) := by simp [htx]
    refine h.withTx hstage (fun found hf => by cases hf) ?_
    exact fun hsaw => absurd hsaw (not_sawResolved (by simp))
  · exact h

theorem Coherent.stepWrite (h : w.Coherent) (id : Nat) :
    (RowWorld.step w (.write id)).Coherent := by
  unfold RowWorld.step
  simp only
  split
  · rename_i payload row seenAt found htx
    have hstage : ∀ tx found, w.txs id ≠ some (tx, .wrote found) := by simp [htx]
    refine h.writeRow hstage rfl ?_
    intro hsaw
    refine h.tracked id _ (.found found) htx ⟨hsaw.1, ?_⟩
    rcases hsaw.2 with hfound | hwrote
    · cases hfound
    · exact Or.inl (congrArg TxStage.found (TxStage.wrote.inj hwrote))
  · rename_i state now found htx
    have hstage : ∀ tx found, w.txs id ≠ some (tx, .wrote found) := by simp [htx]
    refine h.writeRow hstage rfl ?_
    exact fun hsaw => absurd hsaw (not_sawResolved (by simp))
  · rename_i orgId payload fingerprints seenAt htx
    have hstage : ∀ tx found, w.txs id ≠ some (tx, .wrote found) := by simp [htx]
    have hread := VersionedRow.read_of_not_heldBy (h.not_held hstage)
    split
    · rename_i hselected
      rw [hread] at hselected
      have hopen : w.row.committed.state.unresolved = true := by
        unfold unreported at hselected
        simp only [Bool.and_eq_true] at hselected
        exact hselected.1.2
      refine h.writeRow hstage ⟨rfl, hopen⟩ ?_
      exact fun hsaw => absurd hsaw (not_sawResolved (by simp))
    · refine h.withTx hstage (fun found _ => ⟨_, _, _, _, rfl⟩) ?_
      exact fun hsaw => absurd hsaw (not_sawResolved (by simp))
  · exact h

theorem Coherent.stepCommit (h : w.Coherent) {id : Nat} {tx : RowTx} {found : FindingState}
    (htx : w.txs id = some (tx, .wrote found)) : (w.afterCommit id tx).Coherent := by
  rcases h.commit_cases htx with ⟨version, hwritten, hver⟩ | ⟨hrow, hdecided, hheld, -⟩
  · exact h.commit hwritten hver
  · unfold afterCommit
    rw [hrow, hdecided]
    refine h.release id rfl ?_ (fun i _ hi => hi)
    intro i version hwritten
    refine ⟨hwritten, ?_⟩
    intro heq
    subst heq
    rw [VersionedRow.heldBy_of_written hwritten] at hheld
    cases hheld

theorem Coherent.stepRollback (h : w.Coherent) (id : Nat) :
    (RowWorld.step w (.rollback id)).Coherent := by
  refine h.release id VersionedRow.committed_rollback
    (fun i version hwritten => VersionedRow.written_rollback hwritten) ?_
  intro i hi hheld
  obtain ⟨version, hwritten⟩ := VersionedRow.heldBy_iff.mp hheld
  have hnot : w.row.heldBy id = false := by
    simp [VersionedRow.heldBy, hwritten, hi]
  simp [VersionedRow.rollback, hnot, hheld]

/-- A commit is one of a transaction that has written, or nothing happens. -/
theorem commit_idle {id : Nat} (hidle : ∀ tx found, w.txs id ≠ some (tx, .wrote found)) :
    RowWorld.step w (.commit id) = w := by
  unfold RowWorld.step
  -- `hidle` rules out the branch of a commit
  simp only

/-- Every statement keeps the lock, the transactions and the decision in line. -/
theorem Coherent.step (h : w.Coherent) (e : RowEvent) : (RowWorld.step w e).Coherent := by
  cases e with
  | start id tx =>
      unfold RowWorld.step
      simp only
      split
      · rename_i hnone
        refine h.withTx (fun tx found => by simp [hnone]) (fun found hf => by cases hf) ?_
        intro hsaw
        rcases hsaw.2 with hfound | hwrote
        · cases hfound
        · cases hwrote
      · exact h
  | find id => exact h.stepFind id
  | write id => exact h.stepWrite id
  | commit id =>
      by_cases hwrote : ∃ tx found, w.txs id = some (tx, .wrote found)
      · obtain ⟨tx, found, htx⟩ := hwrote
        rw [step_commit htx]
        exact h.stepCommit htx
      · rw [commit_idle (fun tx found htx => hwrote ⟨tx, found, htx⟩)]
        exact h
  | rollback id => exact h.stepRollback id

/-! ## What a statement does to the decision -/

theorem writeRow_unchanged (w : RowWorld) (id : Nat) (tx : RowTx) (found : FindingState)
    (data : FindingRow → FindingRow) :
    (w.writeRow id tx found data).row.committed = w.row.committed ∧
      (w.writeRow id tx found data).decided = w.decided := by
  unfold writeRow
  split
  · exact ⟨rfl, rfl⟩
  · exact ⟨VersionedRow.committed_write, rfl⟩

/-- Statements before the commit leave the committed row and the decision alone. -/
theorem step_unchanged (w : RowWorld) {e : RowEvent} (hne : ∀ id, e ≠ .commit id) :
    (RowWorld.step w e).row.committed = w.row.committed ∧
      (RowWorld.step w e).decided = w.decided := by
  cases e with
  | start id tx =>
      unfold RowWorld.step
      simp only
      split <;> exact ⟨rfl, rfl⟩
  | find id =>
      unfold RowWorld.step
      simp only
      split <;> exact ⟨rfl, rfl⟩
  | write id =>
      unfold RowWorld.step
      simp only
      split
      · exact writeRow_unchanged _ _ _ _ _
      · exact writeRow_unchanged _ _ _ _ _
      · split
        · exact writeRow_unchanged _ _ _ _ _
        · exact ⟨rfl, rfl⟩
      · exact ⟨rfl, rfl⟩
  | commit id => exact absurd rfl (hne id)
  | rollback id => exact ⟨VersionedRow.committed_rollback, rfl⟩

/-- Whether a commit is a stale re-opening, by the transaction that commits. -/
theorem reopensDecided_commit_iff {id : Nat} {tx : RowTx} {found : FindingState}
    (htx : w.txs id = some (tx, .wrote found)) :
    ReopensDecided w (.commit id) ↔
      (∃ payload row seenAt, tx = .report payload row seenAt) ∧ found = .resolved ∧
        isDecision w.row.committed.state = true := by
  constructor
  · intro hreopens
    obtain ⟨id', payload, row, seenAt, heq, htx', hdecision⟩ := hreopens
    obtain rfl := RowEvent.commit.inj heq
    rw [htx] at htx'
    obtain ⟨rfl, hfound⟩ := Prod.mk.inj (Option.some.inj htx')
    exact ⟨⟨_, _, _, rfl⟩, TxStage.wrote.inj hfound, hdecision⟩
  · intro hstale
    obtain ⟨⟨payload, row, seenAt, rfl⟩, rfl, hdecision⟩ := hstale
    exact ⟨id, payload, row, seenAt, rfl, htx, hdecision⟩

section Commit

variable {id : Nat} {found : FindingState} {version : FindingRow}

theorem afterCommit_committed (hwritten : w.row.written = some (id, version)) (tx : RowTx) :
    (w.afterCommit id tx).row.committed = version := by
  change (w.row.commit id).committed = version
  rw [VersionedRow.commit_of_written hwritten]

/-- A triage commits the decision that it makes. -/
theorem decisionKept_commit_triage (hwritten : w.row.written = some (id, version))
    {state : FindingState} {now : Timestamp}
    (hver : Written (.triage state now) found w.row.committed version) :
    (w.afterCommit id (.triage state now)).DecisionKept := by
  intro decided hdecided
  rw [afterCommit_committed hwritten]
  simp only [afterCommit, decidedAfter] at hdecided
  split at hdecided
  · obtain rfl := Option.some.inj hdecided
    exact hver
  · cases hdecided

/-- A closing step writes an unresolved row, and a decision on one is a decision that
it ends. -/
theorem decisionKept_commit_close (hwritten : w.row.written = some (id, version))
    (h : w.Coherent) (hkept : w.DecisionKept) {orgId : OrgId}
    {payload : FindingsReportedPayload} {fingerprints : List String} {seenAt : Timestamp}
    (hver : Written (.close orgId payload fingerprints seenAt) found w.row.committed version) :
    (w.afterCommit id (.close orgId payload fingerprints seenAt)).DecisionKept := by
  intro decided hdecided
  have hheld : w.row.heldBy id = true := VersionedRow.heldBy_of_written hwritten
  simp only [afterCommit, decidedAfter, hheld, true_and] at hdecided
  split at hdecided
  · cases hdecided
  · rename_i hnot
    have hopen : w.row.committed.state.unresolved = true := hver.2
    rw [hkept decided hdecided] at hopen
    have hdecision : isDecision decided = true := h.decision decided hdecided
    rw [hdecided] at hnot
    cases decided <;> simp_all [isDecision, FindingState.unresolved]

/-- An upsert whose find saw the row resolved opens it, and any other leaves the state
as it is. -/
theorem decisionKept_commit_report_iff (hwritten : w.row.written = some (id, version))
    (h : w.Coherent) (hkept : w.DecisionKept) {payload : FindingsReportedPayload}
    {row : CollapsedFinding} {seenAt : Timestamp}
    (htx : w.txs id = some (.report payload row seenAt, .wrote found))
    (hver : Written (.report payload row seenAt) found w.row.committed version) :
    (w.afterCommit id (.report payload row seenAt)).DecisionKept ↔
      ¬ (found = .resolved ∧ isDecision w.row.committed.state = true) := by
  have hstate : version.state = if found = .resolved then .open else w.row.committed.state := hver
  have hafter : (w.afterCommit id (.report payload row seenAt)).DecisionKept ↔
      ∀ state, w.decided = some state → version.state = state := by
    unfold DecisionKept
    rw [afterCommit_committed hwritten]
    rfl
  rw [hafter]
  by_cases hfound : found = .resolved
  · rw [if_pos hfound] at hstate
    subst hfound
    constructor
    · intro hopened hstale
      have hdecided : w.decided = some w.row.committed.state :=
        h.tracked id _ _ htx ⟨⟨_, _, _, rfl⟩, Or.inr rfl⟩ hstale.2
      have hsame := hopened w.row.committed.state hdecided
      have hdecision := hstale.2
      rw [← hsame, hstate] at hdecision
      cases hdecision
    · intro hnot state hdecided
      exfalso
      apply hnot
      rw [hkept state hdecided]
      exact ⟨rfl, h.decision state hdecided⟩
  · rw [if_neg hfound] at hstate
    refine iff_of_true ?_ (fun hstale => hfound hstale.1)
    intro state hdecided
    rw [hstate]
    exact hkept state hdecided

end Commit

/-- A commit leaves a kept decision kept precisely when it is no stale re-opening. -/
theorem decisionKept_afterCommit_iff (h : w.Coherent) (hkept : w.DecisionKept) {id : Nat}
    {tx : RowTx} {found : FindingState} (htx : w.txs id = some (tx, .wrote found)) :
    (w.afterCommit id tx).DecisionKept ↔ ¬ ReopensDecided w (.commit id) := by
  rw [reopensDecided_commit_iff htx]
  rcases h.commit_cases htx with ⟨version, hwritten, hver⟩ | ⟨hrow, hdecided, -, hclose⟩
  · cases tx with
    | triage state now =>
        exact iff_of_true (decisionKept_commit_triage hwritten hver) (by simp)
    | close orgId payload fingerprints seenAt =>
        exact iff_of_true (decisionKept_commit_close hwritten h hkept hver) (by simp)
    | report payload row seenAt =>
        rw [decisionKept_commit_report_iff hwritten h hkept htx hver]
        simp
  · -- a closing step that selected nothing
    obtain ⟨orgId, payload, fingerprints, seenAt, rfl⟩ := hclose
    refine iff_of_true ?_ (by simp)
    unfold afterCommit
    rw [hrow, hdecided]
    exact hkept

/-- From a kept decision, a statement leaves it kept precisely when it is no stale
re-opening. -/
theorem decisionKept_step_iff (h : w.Coherent) (hkept : w.DecisionKept) (e : RowEvent) :
    (RowWorld.step w e).DecisionKept ↔ ¬ ReopensDecided w e := by
  by_cases hcommit : ∃ id, e = .commit id
  · obtain ⟨id, rfl⟩ := hcommit
    by_cases hwrote : ∃ tx found, w.txs id = some (tx, .wrote found)
    · obtain ⟨tx, found, htx⟩ := hwrote
      rw [step_commit htx]
      exact decisionKept_afterCommit_iff h hkept htx
    · rw [commit_idle (fun tx found htx => hwrote ⟨tx, found, htx⟩)]
      refine iff_of_true hkept ?_
      intro hreopens
      obtain ⟨id', payload, row, seenAt, heq, htx, -⟩ := hreopens
      obtain rfl := RowEvent.commit.inj heq
      exact hwrote ⟨_, _, htx⟩
  · have hne : ∀ id, e ≠ .commit id := fun id heq => hcommit ⟨id, heq⟩
    obtain ⟨hrow, hdecided⟩ := step_unchanged w hne
    refine iff_of_true ?_ ?_
    · intro state hstate
      rw [hrow]
      exact hkept state (hdecided ▸ hstate)
    · intro hreopens
      obtain ⟨id, -, -, -, heq, -⟩ := hreopens
      exact hne id heq

/-- **Triage beside ingest.**  Along a run of statements of any ingests and triages on
a row, the committed row has the state of the decision in force at all times precisely
when no ingest whose find saw the row resolved commits its upsert over a state that a
triage has set. -/
theorem triage_kept_iff (row : FindingRow) (es : List RowEvent) :
    (∀ w ∈ system.states { row := ⟨row, none⟩ } es, w.DecisionKept) ↔
      system.AllSteps (fun w e => ¬ ReopensDecided w e) { row := ⟨row, none⟩ } es := by
  apply system.forall_states_iff_allSteps (I := Coherent)
  · intro w e h _
    exact h.step e
  · intro w e h hkept _
    exact decisionKept_step_iff h hkept e
  · exact coherent_start row
  · intro state hstate
    cases hstate
  · exact system.legal_of_forall_allowed (fun _ _ => trivial) { row := ⟨row, none⟩ } es

/-- An ingest finds the row resolved, a triage makes it a false positive, and the
upsert of the ingest opens it. -/
theorem ingest_reopens_false_positive :
    ¬ ∀ (row : FindingRow) (es : List RowEvent),
      ∀ w ∈ system.states { row := ⟨row, none⟩ } es, w.DecisionKept := by
  intro hall
  let finding : RawFinding :=
    { externalId := "rule", scannerType := .sast, scannerName := "semgrep", title := "eval"
      severity := .high }
  let row : FindingRow :=
    { id := "f", orgId := "acme", assetId := "a", fingerprint := "fp", scannerType := .sast
      scannerName := "semgrep", title := "eval", severity := .high, state := .resolved }
  let report : RowTx := .report ⟨"s", "j", "a", .sast, none, [finding]⟩ ⟨"fp", finding, [], []⟩ 0
  let es : List RowEvent :=
    [.start 0 report, .find 0, .start 1 (.triage .falsePositive 0), .find 1, .write 1, .commit 1,
      .write 0, .commit 0]
  have hkept := hall row es _ (system.run_mem_states _ es)
  have hstate := hkept .falsePositive rfl
  have hopen : (system.run { row := ⟨row, none⟩ } es).row.committed.state = .open := rfl
  rw [hopen] at hstate
  cases hstate

end RowWorld

end Findings
end Ctem
