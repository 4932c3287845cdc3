import Ctem.Foundation.Runs
import Ctem.Orchestrator.ScanStore
import Ctem.Scanner.Worker

/-!
# Scan lifecycle bookkeeping

`ScanLifecycleConsumer.applyResult` and `ScanDispatcherService.failDispatch` both
settle one job and bump the scan's `jobsCompleted`; whoever bumps it to
`jobsTotal` closes the scan.  `retryJob` puts a job back to `queued` and leaves
the counter alone.  Each is one transaction, and a run is any sequence of them.

* `Bookkeeping` is what the scan row is supposed to say about its jobs.
* `Tally` is the same on five numbers and a status; `Tally.settle_balanced_iff`
  is the arithmetic of one settlement: the balance is kept precisely when the
  settled job was still open.
* `lifecycle_step_cases` says once what an event can do to the tables.
* `lifecycle_bookkeeping_iff`: a run keeps the books in every state it visits
  precisely when every job is settled at most once and none is retried.
-/

namespace Ctem
namespace Orchestrator

open Foundation Contracts Scanner

/-! ## The transactions -/

/-- The status a scan closes with. -/
def closingStatus (failed jobsTotal : Nat) : ScanStatus :=
  if failed = 0 then .succeeded else if failed = jobsTotal then .failed else .partialScan

/-- What a completion writes to the job row. -/
def ScanJobRow.withResult (result : ScanJobResult) (j : ScanJobRow) : ScanJobRow :=
  { j with
    status := result.status
    startedAt := some result.startedAt
    finishedAt := some result.finishedAt
    artifactKey := result.artifactKey
    findingCount := result.findingCount
    error := result.error
    stats := result.stats }

/-- What a dispatch failure writes to the job row. -/
def ScanJobRow.withDispatchFailure (message : String) (now : Timestamp) (j : ScanJobRow) :
    ScanJobRow :=
  { j with
    status := .failed
    error := some message
    startedAt := some now
    finishedAt := some now }

/-- What a retry writes to the job row. -/
def ScanJobRow.requeued (j : ScanJobRow) : ScanJobRow :=
  { j with
    status := .queued
    attempt := j.attempt + 1
    error := none }

namespace ScanStore

/-- `jobsCompleted: { increment: 1 }`, and the close-out once it has reached
`jobsTotal`.  The row of a scan that was closed is returned. -/
def settleScan (st : ScanStore) (orgId : OrgId) (scanId : Uuid) (now : Timestamp) :
    Option (ScanStore × Option ScanRow) :=
  match st.updateScan orgId scanId (fun s => { s with jobsCompleted := s.jobsCompleted + 1 })
      (fun _ => rfl) (fun _ => rfl) with
  | none => none
  | some bumped =>
      match bumped.scans.find? scanId with
      | none => none
      | some updated =>
          if updated.jobsCompleted < updated.jobsTotal then some (bumped, none)
          else
            match bumped.updateScan orgId scanId
                (fun s =>
                  { s with
                    status := closingStatus (bumped.countFailed orgId scanId) updated.jobsTotal
                    finishedAt := some now })
                (fun _ => rfl) (fun _ => rfl) with
            | none => none
            | some closed => some (closed, closed.scans.find? scanId)

/-- `ScanLifecycleConsumer.applyResult`: the transaction, and the scan it closed. -/
def applyResult (st : ScanStore) (result : ScanJobResult) (now : Timestamp) :
    Option (ScanStore × Option ScanRow) :=
  match st.updateJob result.orgId result.jobId (ScanJobRow.withResult result)
      (fun _ => rfl) (fun _ => ⟨rfl, rfl⟩) with
  | none => none
  | some updated => updated.settleScan result.orgId result.scanId now

/-- `ScanDispatcherService.failDispatch`. -/
def failDispatch (st : ScanStore) (orgId : OrgId) (jobId scanId : Uuid) (message : String)
    (now : Timestamp) : Option (ScanStore × Option ScanRow) :=
  match st.updateJob orgId jobId (ScanJobRow.withDispatchFailure message now)
      (fun _ => rfl) (fun _ => ⟨rfl, rfl⟩) with
  | none => none
  | some updated => updated.settleScan orgId scanId now

/-- The transaction of `ScanDispatcherService.retryJob`.  The dispatch behind it
either reaches a worker or ends in `failDispatch`. -/
def retryJob (st : ScanStore) (orgId : OrgId) (jobId : Uuid) : Option ScanStore :=
  st.updateJob orgId jobId ScanJobRow.requeued (fun _ => rfl) (fun _ => ⟨rfl, rfl⟩)

end ScanStore

/-! ## Runs -/

/-- The transactions that move a scan. -/
inductive LifecycleEvent where
  | scanJobCompleted (result : ScanJobResult) (now : Timestamp)
  | dispatchFailed (orgId : OrgId) (jobId scanId : Uuid) (message : String) (now : Timestamp)
  | jobRetried (orgId : OrgId) (jobId : Uuid)

/-- The effect of a transaction; one that throws leaves the tables as they are. -/
def lifecycleStep (st : ScanStore) : LifecycleEvent → ScanStore
  | .scanJobCompleted result now => ((st.applyResult result now).map Prod.fst).getD st
  | .dispatchFailed orgId jobId scanId message now =>
      ((st.failDispatch orgId jobId scanId message now).map Prod.fst).getD st
  | .jobRetried orgId jobId => (st.retryJob orgId jobId).getD st

/-- The payload a worker was sent for a job row: it names the row. -/
def DispatchedFor (job : ScanJob) (row : ScanJobRow) : Prop :=
  job.jobId = row.id ∧ job.scanId = row.scanId ∧ job.orgId = row.orgId

/-- What can happen: any worker's report about any job, in any order and any
number of times; a dispatch failure of any job; a retry of a failed job. -/
def lifecycleAllowed (st : ScanStore) : LifecycleEvent → Prop
  | .scanJobCompleted result _ =>
      ∃ row ∈ st.jobs, ∃ job calls startedAt finishedAt, DispatchedFor job row ∧
        result = (runJob calls job startedAt finishedAt).completed
  | .dispatchFailed orgId jobId scanId _ _ =>
      ∃ row ∈ st.jobs, row.id = jobId ∧ row.scanId = scanId ∧ row.orgId = orgId
  | .jobRetried orgId jobId =>
      ∃ row ∈ st.jobs, row.id = jobId ∧ row.orgId = orgId ∧ row.status = .failed

/-- The lifecycle as a transition system. -/
def lifecycle : System ScanStore LifecycleEvent where
  step := lifecycleStep
  allowed := lifecycleAllowed

/-! ## The books of a scan -/

/-- What the scan row says about its jobs: the counter counts the jobs that have
ended, the scan is terminal precisely when they all have, and then its status
tells none, all or some of them failed. -/
structure Bookkeeping (st : ScanStore) (scan : ScanRow) : Prop where
  completed : scan.jobsCompleted =
    st.jobs.count (fun j => decide (j.scanId = scan.id) && j.status.terminal)
  bounded : scan.jobsCompleted ≤ scan.jobsTotal
  terminal_iff : scan.status.terminal = true ↔
    ∀ j ∈ st.jobs, j.scanId = scan.id → j.status.terminal = true
  succeeded_iff : scan.status.terminal = true → (scan.status = .succeeded ↔
    ∀ j ∈ st.jobs, j.scanId = scan.id → j.status ≠ .failed)
  failed_iff : scan.status.terminal = true → (scan.status = .failed ↔
    ∀ j ∈ st.jobs, j.scanId = scan.id → j.status = .failed)
  partial_iff : scan.status.terminal = true → (scan.status = .partialScan ↔
    (∃ j ∈ st.jobs, j.scanId = scan.id ∧ j.status = .failed) ∧
      ∃ j ∈ st.jobs, j.scanId = scan.id ∧ j.status ≠ .failed)

/-- The scan's row is there and its books are right. -/
def BooksRight (scanId : Uuid) (st : ScanStore) : Prop :=
  ∃ scan, st.scans.find? scanId = some scan ∧ Bookkeeping st scan

/-- A completion that closes the scan leaves none of its jobs queued or running. -/
def ClosesLast (scanId : Uuid) (st : ScanStore) : LifecycleEvent → Prop
  | .scanJobCompleted result now =>
      ∀ st' closed, st.applyResult result now = some (st', some closed) → closed.id = scanId →
        ∀ j ∈ st'.jobs, j.scanId = scanId → j.status.terminal = true
  | _ => True

/-- The step settles a job of the scan only while that job is still open, and
does not retry one. -/
def SettlesOnce (scanId : Uuid) (st : ScanStore) : LifecycleEvent → Prop
  | .scanJobCompleted result _ =>
      result.scanId = scanId → ∀ j, st.jobs.find? result.jobId = some j → j.status.terminal = false
  | .dispatchFailed _ jobId scanId' _ _ =>
      scanId' = scanId → ∀ j, st.jobs.find? jobId = some j → j.status.terminal = false
  | .jobRetried _ jobId => ∀ j, st.jobs.find? jobId = some j → j.scanId ≠ scanId

/-! ## The books as numbers -/

/-- How many jobs a scan has, how many of them have ended and how many failed. -/
structure Tally where
  jobs : Nat
  terminal : Nat
  failed : Nat

/-- The jobs of a scan, counted. -/
def ScanStore.tally (st : ScanStore) (scanId : Uuid) : Tally where
  jobs := st.jobs.count fun j => decide (j.scanId = scanId)
  terminal := st.jobs.count fun j => decide (j.scanId = scanId) && j.status.terminal
  failed := st.jobs.count fun j => decide (j.scanId = scanId) && decide (j.status = .failed)

/-- The books of a scan row against a tally of its jobs. -/
structure Tally.Balanced (t : Tally) (scan : ScanRow) : Prop where
  completed : scan.jobsCompleted = t.terminal
  bounded : scan.jobsCompleted ≤ scan.jobsTotal
  terminal_iff : scan.status.terminal = true ↔ t.terminal = t.jobs
  succeeded_iff : scan.status.terminal = true → (scan.status = .succeeded ↔ t.failed = 0)
  failed_iff : scan.status.terminal = true → (scan.status = .failed ↔ t.failed = t.jobs)
  partial_iff : scan.status.terminal = true →
    (scan.status = .partialScan ↔ t.failed ≠ 0 ∧ t.failed ≠ t.jobs)

/-- A failed job has ended, and every job that has ended is a job. -/
theorem tally_le (st : ScanStore) (scanId : Uuid) :
    (st.tally scanId).failed ≤ (st.tally scanId).terminal ∧
      (st.tally scanId).terminal ≤ (st.tally scanId).jobs := by
  constructor
  · apply Table.count_le_of_imp
    intro j _ hj
    simp only [Bool.and_eq_true, decide_eq_true_eq] at hj ⊢
    obtain ⟨hscan, hfailed⟩ := hj
    refine ⟨hscan, ?_⟩
    rw [hfailed]
    rfl
  · apply Table.count_le_of_imp
    intro j _ hj
    simp only [Bool.and_eq_true] at hj
    exact hj.1

theorem tally_terminal_eq_jobs_iff (st : ScanStore) (scanId : Uuid) :
    (st.tally scanId).terminal = (st.tally scanId).jobs ↔
      ∀ j ∈ st.jobs, j.scanId = scanId → j.status.terminal = true := by
  have hcount := Table.count_and_eq_iff (t := st.jobs) (p := fun j => decide (j.scanId = scanId))
    (q := fun j => j.status.terminal)
  simpa [ScanStore.tally] using hcount

theorem tally_failed_eq_zero_iff (st : ScanStore) (scanId : Uuid) :
    (st.tally scanId).failed = 0 ↔
      ∀ j ∈ st.jobs, j.scanId = scanId → j.status ≠ .failed := by
  have hcount := Table.count_eq_zero (t := st.jobs)
    (p := fun j => decide (j.scanId = scanId) && decide (j.status = .failed))
  simpa [ScanStore.tally] using hcount

theorem tally_failed_eq_jobs_iff (st : ScanStore) (scanId : Uuid) :
    (st.tally scanId).failed = (st.tally scanId).jobs ↔
      ∀ j ∈ st.jobs, j.scanId = scanId → j.status = .failed := by
  have hcount := Table.count_and_eq_iff (t := st.jobs) (p := fun j => decide (j.scanId = scanId))
    (q := fun j => decide (j.status = .failed))
  simpa [ScanStore.tally] using hcount

/-- The books are right precisely when they balance with the tally. -/
theorem bookkeeping_iff_balanced (st : ScanStore) (scan : ScanRow) :
    Bookkeeping st scan ↔ (st.tally scan.id).Balanced scan := by
  have hterminal := tally_terminal_eq_jobs_iff st scan.id
  have hzero := tally_failed_eq_zero_iff st scan.id
  have hall := tally_failed_eq_jobs_iff st scan.id
  have hsome : (∃ j ∈ st.jobs, j.scanId = scan.id ∧ j.status = .failed) ↔
      (st.tally scan.id).failed ≠ 0 := by
    rw [ne_eq, hzero]
    push Not
    rfl
  have hnotall : (∃ j ∈ st.jobs, j.scanId = scan.id ∧ j.status ≠ .failed) ↔
      (st.tally scan.id).failed ≠ (st.tally scan.id).jobs := by
    rw [ne_eq, hall]
    push Not
    rfl
  constructor
  · intro h
    exact
      { completed := h.completed
        bounded := h.bounded
        terminal_iff := h.terminal_iff.trans hterminal.symm
        succeeded_iff := fun ht => (h.succeeded_iff ht).trans hzero.symm
        failed_iff := fun ht => (h.failed_iff ht).trans hall.symm
        partial_iff := fun ht => (h.partial_iff ht).trans (and_congr hsome hnotall) }
  · intro h
    exact
      { completed := h.completed
        bounded := h.bounded
        terminal_iff := h.terminal_iff.trans hterminal
        succeeded_iff := fun ht => (h.succeeded_iff ht).trans hzero
        failed_iff := fun ht => (h.failed_iff ht).trans hall
        partial_iff := fun ht => (h.partial_iff ht).trans (and_congr hsome hnotall).symm }

/-- The scan row after a settlement that leaves `failed` of its jobs failed. -/
def ScanRow.settled (scan : ScanRow) (failed : Nat) (now : Timestamp) : ScanRow :=
  if scan.jobsCompleted + 1 < scan.jobsTotal then
    { scan with jobsCompleted := scan.jobsCompleted + 1 }
  else
    { scan with
      jobsCompleted := scan.jobsCompleted + 1
      status := closingStatus failed scan.jobsTotal
      finishedAt := some now }

theorem closingStatus_terminal (failed jobsTotal : Nat) :
    (closingStatus failed jobsTotal).terminal = true := by
  unfold closingStatus
  split
  · rfl
  · split <;> rfl

theorem closingStatus_eq_succeeded {failed jobsTotal : Nat} :
    closingStatus failed jobsTotal = .succeeded ↔ failed = 0 := by
  unfold closingStatus
  by_cases hzero : failed = 0
  · simp [hzero]
  · by_cases hall : failed = jobsTotal
    · subst hall
      simp [hzero]
    · simp [hzero, hall]

theorem closingStatus_eq_failed {failed jobsTotal : Nat} (hpos : 0 < jobsTotal) :
    closingStatus failed jobsTotal = .failed ↔ failed = jobsTotal := by
  unfold closingStatus
  by_cases hzero : failed = 0
  · simp only [hzero, if_true, reduceCtorEq, false_iff]
    omega
  · by_cases hall : failed = jobsTotal
    · subst hall
      simp [hzero]
    · simp [hzero, hall]

theorem closingStatus_eq_partialScan {failed jobsTotal : Nat} :
    closingStatus failed jobsTotal = .partialScan ↔ failed ≠ 0 ∧ failed ≠ jobsTotal := by
  unfold closingStatus
  by_cases hzero : failed = 0
  · simp [hzero]
  · by_cases hall : failed = jobsTotal
    · subst hall
      simp [hzero]
    · simp [hzero, hall]

/-- A settlement that moves a job to a terminal status keeps the balance
precisely when the job was still open.  `t` counts the jobs before, `t'` after. -/
theorem Tally.settle_balanced_iff {t t' : Tally} {scan : ScanRow} {now : Timestamp}
    (hbal : t.Balanced scan) (htotal : scan.jobsTotal = t.jobs) (hpos : 0 < t.jobs)
    (hjobs : t'.jobs = t.jobs) (hle : t'.failed ≤ t'.terminal ∧ t'.terminal ≤ t'.jobs)
    {ended : Bool} (hterminal : t'.terminal + ended.toNat = t.terminal + 1) :
    t'.Balanced (scan.settled t'.failed now) ↔ ended = false := by
  have hcompleted := hbal.completed
  cases ended with
  | true =>
      -- the job had ended before: the counter runs ahead of the jobs
      simp only [Bool.toNat_true] at hterminal
      simp only [Bool.true_eq_false, iff_false]
      intro hbal'
      have hbumped : (scan.settled t'.failed now).jobsCompleted = scan.jobsCompleted + 1 := by
        unfold ScanRow.settled
        split <;> rfl
      have := hbal'.completed
      omega
  | false =>
      simp only [Bool.toNat_false, Nat.add_zero] at hterminal
      simp only [iff_true]
      unfold ScanRow.settled
      by_cases hlast : scan.jobsCompleted + 1 < scan.jobsTotal
      · rw [if_pos hlast]
        have hopen : scan.status.terminal = false := by
          rw [← Bool.not_eq_true, hbal.terminal_iff]
          omega
        have hopen' : t'.terminal ≠ t'.jobs := by omega
        constructor
        · change scan.jobsCompleted + 1 = t'.terminal
          omega
        · exact Nat.le_of_lt hlast
        · simp [hopen, hopen']
        all_goals
          intro hterm
          rw [hopen] at hterm
          exact absurd hterm Bool.false_ne_true
      · rw [if_neg hlast]
        have hclosed : t'.terminal = t'.jobs := by omega
        constructor
        · change scan.jobsCompleted + 1 = t'.terminal
          omega
        · change scan.jobsCompleted + 1 ≤ scan.jobsTotal
          omega
        · simp [closingStatus_terminal, hclosed]
        · intro _
          exact closingStatus_eq_succeeded
        · intro _
          change closingStatus t'.failed scan.jobsTotal = .failed ↔ _
          rw [closingStatus_eq_failed (htotal ▸ hpos), htotal, hjobs]
        · intro _
          change closingStatus t'.failed scan.jobsTotal = .partialScan ↔ _
          rw [closingStatus_eq_partialScan, htotal, hjobs]

/-! ## What a transaction does to the tables -/

namespace ScanStore

theorem updateJob_eq {st : ScanStore} {orgId : OrgId} {id : Uuid} {row : ScanJobRow}
    (data : ScanJobRow → ScanJobRow) (hid : ∀ j, (data j).id = j.id)
    (hscan : ∀ j, (data j).scanId = j.scanId ∧ (data j).orgId = j.orgId)
    (hrow : st.jobs.find? id = some row) (horg : row.orgId = orgId) :
    ∃ st', st.updateJob orgId id data hid hscan = some st' ∧
      st'.jobs = st.jobs.modify id data hid ∧ st'.scans = st.scans := by
  unfold updateJob
  simp only [hrow, horg, if_true]
  exact ⟨_, rfl, rfl, rfl⟩

theorem updateScan_eq {st : ScanStore} {orgId : OrgId} {id : Uuid} {row : ScanRow}
    (data : ScanRow → ScanRow) (hid : ∀ s, (data s).id = s.id)
    (horg : ∀ s, (data s).orgId = s.orgId)
    (hrow : st.scans.find? id = some row) (hroworg : row.orgId = orgId) :
    ∃ st', st.updateScan orgId id data hid horg = some st' ∧
      st'.scans = st.scans.modify id data hid ∧ st'.jobs = st.jobs := by
  unfold updateScan
  simp only [hrow, hroworg, if_true]
  exact ⟨_, rfl, rfl, rfl⟩

/-- Every job of a scan belongs to the scan's organisation. -/
theorem job_orgId {st : ScanStore} {scan : ScanRow} (hscan : st.scans.find? scan.id = some scan)
    {j : ScanJobRow} (hj : j ∈ st.jobs) (hjscan : j.scanId = scan.id) : j.orgId = scan.orgId := by
  obtain ⟨s, hs, hsid, hsorg⟩ := st.jobScan j hj
  have heq : s = scan :=
    Table.eq_of_key_eq hs (Table.find?_mem hscan) (hsid.trans hjscan)
  rw [← hsorg, heq]

/-- The failed jobs the close-out counts are all the scan's failed jobs. -/
theorem countFailed_eq_tally {st : ScanStore} {scan : ScanRow}
    (hscan : st.scans.find? scan.id = some scan) :
    st.countFailed scan.orgId scan.id = (st.tally scan.id).failed := by
  apply Table.count_congr
  intro j hj
  by_cases hjscan : j.scanId = scan.id
  · simp [hjscan, job_orgId hscan hj hjscan]
  · simp [hjscan]

/-- What `settleScan` does to a scan that is there: its row is settled, every
other row is untouched, and it reports the row when it closed the scan. -/
theorem settleScan_eq {st : ScanStore} {scan : ScanRow}
    (hscan : st.scans.find? scan.id = some scan) (now : Timestamp) :
    ∃ st' closed, st.settleScan scan.orgId scan.id now = some (st', closed) ∧
      st'.jobs = st.jobs ∧
      st'.scans.find? scan.id = some (scan.settled (st.tally scan.id).failed now) ∧
      (∀ id, id ≠ scan.id → st'.scans.find? id = st.scans.find? id) ∧
      ∀ row, closed = some row →
        row = scan.settled (st.tally scan.id).failed now ∧ row.status.terminal = true := by
  obtain ⟨bumped, hbump, hbscans, hbjobs⟩ :=
    updateScan_eq (fun s => { s with jobsCompleted := s.jobsCompleted + 1 })
      (fun _ => rfl) (fun _ => rfl) hscan rfl
  have hbfind : bumped.scans.find? scan.id =
      some { scan with jobsCompleted := scan.jobsCompleted + 1 } := by
    rw [hbscans]
    exact Table.find?_modify_self hscan
  have hbother : ∀ id, id ≠ scan.id → bumped.scans.find? id = st.scans.find? id := by
    intro id hid
    rw [hbscans]
    exact Table.find?_modify_ne hid
  have hfailed : bumped.countFailed scan.orgId scan.id = (st.tally scan.id).failed := by
    rw [countFailed, hbjobs]
    exact countFailed_eq_tally hscan
  unfold settleScan
  rw [hbump]
  simp only [hbfind]
  by_cases hlast : scan.jobsCompleted + 1 < scan.jobsTotal
  · rw [if_pos hlast]
    refine ⟨bumped, none, rfl, hbjobs, ?_, hbother, by simp⟩
    rw [hbfind, ScanRow.settled, if_pos hlast]
  · rw [if_neg hlast, hfailed]
    obtain ⟨st', hclose, hscans, hjobs⟩ :=
      updateScan_eq
        (fun s =>
          { s with
            status := closingStatus (st.tally scan.id).failed scan.jobsTotal
            finishedAt := some now })
        (fun _ => rfl) (fun _ => rfl) hbfind rfl
    have hfind : st'.scans.find? scan.id =
        some (scan.settled (st.tally scan.id).failed now) := by
      rw [hscans, Table.find?_modify_self hbfind, ScanRow.settled, if_neg hlast]
    simp only at hclose
    rw [hclose]
    refine ⟨st', _, rfl, hjobs.trans hbjobs, hfind, ?_, ?_⟩
    · intro id hid
      rw [hscans, Table.find?_modify_ne hid]
      exact hbother id hid
    · intro row hrow
      rw [hfind, Option.some_inj] at hrow
      subst hrow
      refine ⟨rfl, ?_⟩
      rw [ScanRow.settled, if_neg hlast]
      exact closingStatus_terminal _ _

end ScanStore

/-- `row` of `scan` moved to a status it ends in, and the scan was settled. -/
structure SettlesJob (st st' : ScanStore) (scan : ScanRow) (row row' : ScanJobRow)
    (now : Timestamp) : Prop where
  scanFound : st.scans.find? scan.id = some scan
  ofScan : row.scanId = scan.id
  sameScan : row'.scanId = row.scanId
  ended : row'.status.terminal = true
  counts : ∀ p, st'.jobs.count p + (p row).toNat = st.jobs.count p + (p row').toNat
  settled : st'.scans.find? scan.id = some (scan.settled (st'.tally scan.id).failed now)
  others : ∀ id, id ≠ scan.id → st'.scans.find? id = st.scans.find? id

/-- A failed job went back to `queued`, and no scan row changed. -/
structure RequeuesJob (st st' : ScanStore) (row : ScanJobRow) : Prop where
  failed : row.status = .failed
  counts : ∀ p, st'.jobs.count p + (p row).toNat = st.jobs.count p + (p row.requeued).toNat
  scans : st'.scans = st.scans

/-- Settling a job that is there: the update, then `settleScan`. -/
theorem settlesJob_of_update {st : ScanStore} {row : ScanJobRow} (hrow : row ∈ st.jobs)
    (data : ScanJobRow → ScanJobRow) (hid : ∀ j, (data j).id = j.id)
    (hscan : ∀ j, (data j).scanId = j.scanId ∧ (data j).orgId = j.orgId)
    (hended : (data row).status.terminal = true) (now : Timestamp) :
    ∃ updated st' closed scan, st.updateJob row.orgId row.id data hid hscan = some updated ∧
      updated.settleScan row.orgId row.scanId now = some (st', closed) ∧
      SettlesJob st st' scan row (data row) now ∧
      ∀ s, closed = some s → s = scan.settled (st'.tally scan.id).failed now ∧
        s.status.terminal = true := by
  have hfind := Table.find?_of_mem hrow
  obtain ⟨scan, hmem, hscanId, hscanOrg⟩ := st.jobScan row hrow
  have hsfind := Table.find?_of_mem hmem
  obtain ⟨updated, hupdate, hujobs, huscans⟩ :=
    ScanStore.updateJob_eq data hid hscan hfind rfl
  rw [← huscans] at hsfind
  obtain ⟨st', closed, hsettle, hjobs, hsettled, hothers, hclosed⟩ :=
    ScanStore.settleScan_eq hsfind now
  have htally : st'.tally scan.id = updated.tally scan.id := by
    unfold ScanStore.tally
    rw [hjobs]
  rw [hscanOrg, hscanId] at hsettle
  refine ⟨updated, st', closed, scan, hupdate, hsettle, ?_, ?_⟩
  · rw [huscans] at hsfind
    refine
      { scanFound := hsfind
        ofScan := hscanId.symm
        sameScan := (hscan row).1
        ended := hended
        counts := ?_
        settled := ?_
        others := ?_ }
    · intro p
      rw [hjobs, hujobs]
      exact Table.count_modify hfind p
    · rw [htally]
      exact hsettled
    · intro id hne
      rw [hothers id hne, huscans]
  · rw [htally]
    exact hclosed

/-- What a worker's report about `row` does to the tables. -/
theorem applyResult_settles {st : ScanStore} {row : ScanJobRow} (hrow : row ∈ st.jobs)
    {job : ScanJob} {calls : WorkerCalls} {startedAt finishedAt : Timestamp} (now : Timestamp)
    (hjob : DispatchedFor job row) {result : ScanJobResult}
    (hresult : result = (runJob calls job startedAt finishedAt).completed) :
    result.jobId = row.id ∧ result.scanId = row.scanId ∧
      ∃ st' closed scan, st.applyResult result now = some (st', closed) ∧
        SettlesJob st st' scan row (row.withResult result) now ∧
        ∀ s, closed = some s → s = scan.settled (st'.tally scan.id).failed now ∧
          s.status.terminal = true := by
  obtain ⟨hjobId, hscanId, horgId⟩ := hjob
  obtain ⟨hj, hs, ho⟩ := runJob_ids calls job startedAt finishedAt
  rw [← hresult, hjobId] at hj
  rw [← hresult, hscanId] at hs
  rw [← hresult, horgId] at ho
  refine ⟨hj, hs, ?_⟩
  have hended : (row.withResult result).status.terminal = true := by
    change result.status.terminal = true
    rcases runJob_status calls job startedAt finishedAt with h | h
    · rw [hresult, h]
      rfl
    · rw [hresult, h]
      rfl
  obtain ⟨updated, st', closed, scan, hupdate, hsettle, hsettles, hclosed⟩ :=
    settlesJob_of_update hrow (ScanJobRow.withResult result) (fun _ => rfl)
      (fun _ => ⟨rfl, rfl⟩) hended now
  refine ⟨st', closed, scan, ?_, hsettles, hclosed⟩
  unfold ScanStore.applyResult
  rw [hj, ho, hs, hupdate]
  exact hsettle

/-- **Everything an event can do.**  It settles the job it names, whatever that
job's status was, or it requeues a failed one; `SettlesOnce` says which of these
leave the scan's books alone. -/
theorem lifecycle_step_cases {st : ScanStore} {e : LifecycleEvent}
    (hallowed : lifecycle.allowed st e) :
    (∃ scan row row' now, SettlesJob st (lifecycle.step st e) scan row row' now ∧
        ∀ scanId, SettlesOnce scanId st e ↔ (scan.id = scanId → row.status.terminal = false)) ∨
      ∃ row, RequeuesJob st (lifecycle.step st e) row ∧
        ∀ scanId, SettlesOnce scanId st e ↔ row.scanId ≠ scanId := by
  cases e with
  | scanJobCompleted result now =>
      obtain ⟨row, hrow, job, calls, startedAt, finishedAt, hjob, hresult⟩ := hallowed
      obtain ⟨hj, hs, st', closed, scan, happly, hsettles, -⟩ :=
        applyResult_settles hrow now hjob hresult
      refine Or.inl ⟨scan, row, row.withResult result, now, ?_, ?_⟩
      · have hstep : lifecycle.step st (.scanJobCompleted result now) = st' := by
          change ((st.applyResult result now).map Prod.fst).getD st = st'
          rw [happly]
          rfl
        rw [hstep]
        exact hsettles
      · intro scanId
        change (result.scanId = scanId → ∀ j, st.jobs.find? result.jobId = some j → _) ↔ _
        rw [hs, hj, hsettles.ofScan, Table.find?_of_mem hrow]
        simp
  | dispatchFailed orgId jobId scanId message now =>
      obtain ⟨row, hrow, rfl, rfl, rfl⟩ := hallowed
      obtain ⟨updated, st', closed, scan, hupdate, hsettle, hsettles, -⟩ :=
        settlesJob_of_update hrow (ScanJobRow.withDispatchFailure message now)
          (fun _ => rfl) (fun _ => ⟨rfl, rfl⟩) rfl now
      refine Or.inl ⟨scan, row, row.withDispatchFailure message now, now, ?_, ?_⟩
      · have hstep :
            lifecycle.step st (.dispatchFailed row.orgId row.id row.scanId message now) = st' := by
          change ((st.failDispatch row.orgId row.id row.scanId message now).map Prod.fst).getD st
            = st'
          unfold ScanStore.failDispatch
          rw [hupdate]
          simp only [hsettle]
          rfl
        rw [hstep]
        exact hsettles
      · intro scanId'
        change (row.scanId = scanId' → ∀ j, st.jobs.find? row.id = some j → _) ↔ _
        rw [hsettles.ofScan, Table.find?_of_mem hrow]
        simp
  | jobRetried orgId jobId =>
      obtain ⟨row, hrow, rfl, rfl, hfailed⟩ := hallowed
      have hfind := Table.find?_of_mem hrow
      obtain ⟨st', hupdate, hjobs, hscans⟩ :=
        ScanStore.updateJob_eq ScanJobRow.requeued (fun _ => rfl) (fun _ => ⟨rfl, rfl⟩) hfind rfl
      refine Or.inr ⟨row, ?_, ?_⟩
      · have hstep : lifecycle.step st (.jobRetried row.orgId row.id) = st' := by
          change (st.retryJob row.orgId row.id).getD st = st'
          unfold ScanStore.retryJob
          rw [hupdate]
          rfl
        rw [hstep]
        refine ⟨hfailed, ?_, hscans⟩
        intro p
        rw [hjobs]
        exact Table.count_modify hfind p
      · intro scanId
        change (∀ j, st.jobs.find? row.id = some j → j.scanId ≠ scanId) ↔ _
        rw [hfind]
        simp

/-! ## Invariants of a run -/

/-- The scan has a row, `jobsTotal` is the number of its jobs, and it has some. -/
def JobsCounted (scanId : Uuid) (st : ScanStore) : Prop :=
  ∃ scan, st.scans.find? scanId = some scan ∧ scan.jobsTotal = (st.tally scanId).jobs ∧
    0 < (st.tally scanId).jobs

/-- A settlement or a requeue moves no job between scans. -/
theorem tally_jobs_eq {st st' : ScanStore} (row row' : ScanJobRow)
    (hscan : row'.scanId = row.scanId)
    (hcounts : ∀ p, st'.jobs.count p + (p row).toNat = st.jobs.count p + (p row').toNat)
    (scanId : Uuid) : (st'.tally scanId).jobs = (st.tally scanId).jobs := by
  have hcount := hcounts fun j => decide (j.scanId = scanId)
  rw [hscan] at hcount
  simp only [ScanStore.tally]
  omega

/-- A job of another scan changes nothing in this scan's tally. -/
theorem tally_eq_of_ne {st st' : ScanStore} (row row' : ScanJobRow)
    (hscan : row'.scanId = row.scanId)
    (hcounts : ∀ p, st'.jobs.count p + (p row).toNat = st.jobs.count p + (p row').toNat)
    {scanId : Uuid} (hne : row.scanId ≠ scanId) : st'.tally scanId = st.tally scanId := by
  have hframe : ∀ q : ScanJobRow → Bool,
      st'.jobs.count (fun j => decide (j.scanId = scanId) && q j) =
        st.jobs.count (fun j => decide (j.scanId = scanId) && q j) := by
    intro q
    have hcount := hcounts fun j => decide (j.scanId = scanId) && q j
    simp only [hscan, hne, decide_false, Bool.false_and, Bool.toNat_false] at hcount
    exact hcount
  unfold ScanStore.tally
  rw [hframe, hframe]
  have hjobs := tally_jobs_eq row row' hscan hcounts scanId
  simp only [ScanStore.tally] at hjobs
  rw [hjobs]

theorem settled_jobsTotal (scan : ScanRow) (failed : Nat) (now : Timestamp) :
    (scan.settled failed now).jobsTotal = scan.jobsTotal := by
  unfold ScanRow.settled
  split <;> rfl

@[simp] theorem settled_id (scan : ScanRow) (failed : Nat) (now : Timestamp) :
    (scan.settled failed now).id = scan.id := by
  unfold ScanRow.settled
  split <;> rfl

/-- Every event keeps `jobsTotal` the number of the scan's jobs. -/
theorem jobsCounted_step {scanId : Uuid} {st : ScanStore} {e : LifecycleEvent}
    (hcounted : JobsCounted scanId st) (hallowed : lifecycle.allowed st e) :
    JobsCounted scanId (lifecycle.step st e) := by
  obtain ⟨scan, hfind, htotal, hpos⟩ := hcounted
  rcases lifecycle_step_cases hallowed with
    ⟨scan', row, row', now, hsettles, -⟩ | ⟨row, hrequeues, -⟩
  · have hjobs := tally_jobs_eq row row' hsettles.sameScan hsettles.counts scanId
    by_cases hid : scanId = scan'.id
    · subst hid
      have hscan : scan = scan' :=
        Option.some_inj.mp (hfind.symm.trans hsettles.scanFound)
      subst hscan
      refine ⟨_, hsettles.settled, ?_, ?_⟩
      · rw [settled_jobsTotal, hjobs]
        exact htotal
      · rw [hjobs]
        exact hpos
    · refine ⟨scan, ?_, ?_, ?_⟩
      · rw [hsettles.others scanId hid]
        exact hfind
      · rw [hjobs]
        exact htotal
      · rw [hjobs]
        exact hpos
  · have hjobs := tally_jobs_eq row row.requeued rfl hrequeues.counts scanId
    refine ⟨scan, ?_, ?_, ?_⟩
    · rw [hrequeues.scans]
      exact hfind
    · rw [hjobs]
      exact htotal
    · rw [hjobs]
      exact hpos

theorem booksRight_iff {scanId : Uuid} {st : ScanStore} {scan : ScanRow}
    (hfind : st.scans.find? scanId = some scan) :
    BooksRight scanId st ↔ (st.tally scanId).Balanced scan := by
  have hid : scan.id = scanId := Table.find?_key hfind
  constructor
  · rintro ⟨scan', hfind', hbooks⟩
    have heq : scan' = scan := Option.some_inj.mp (hfind'.symm.trans hfind)
    subst heq
    rw [← hid]
    exact (bookkeeping_iff_balanced st scan').mp hbooks
  · intro hbal
    refine ⟨scan, hfind, (bookkeeping_iff_balanced st scan).mpr ?_⟩
    rw [hid]
    exact hbal

/-- **One step.**  From a state whose books are right, an event leaves them right
precisely when it settles an open job, or concerns another scan. -/
theorem booksRight_step_iff {scanId : Uuid} {st : ScanStore} {e : LifecycleEvent}
    (hcounted : JobsCounted scanId st) (hbooks : BooksRight scanId st)
    (hallowed : lifecycle.allowed st e) :
    BooksRight scanId (lifecycle.step st e) ↔ SettlesOnce scanId st e := by
  obtain ⟨scan, hfind, htotal, hpos⟩ := hcounted
  have hbal := (booksRight_iff hfind).mp hbooks
  rcases lifecycle_step_cases hallowed with
    ⟨scan', row, row', now, hsettles, honce⟩ | ⟨row, hrequeues, honce⟩
  · rw [honce scanId]
    by_cases hid : scanId = scan'.id
    · subst hid
      have hscan : scan = scan' :=
        Option.some_inj.mp (hfind.symm.trans hsettles.scanFound)
      subst hscan
      have hended : ((lifecycle.step st e).tally scan.id).terminal + row.status.terminal.toNat =
          (st.tally scan.id).terminal + 1 := by
        have hcount := hsettles.counts fun j => decide (j.scanId = scan.id) && j.status.terminal
        simpa [ScanStore.tally, hsettles.sameScan, hsettles.ofScan, hsettles.ended] using hcount
      rw [booksRight_iff hsettles.settled, Tally.settle_balanced_iff hbal htotal hpos
        (tally_jobs_eq row row' hsettles.sameScan hsettles.counts scan.id) (tally_le _ _) hended]
      simp
    · have hne : row.scanId ≠ scanId := by
        rw [hsettles.ofScan]
        exact Ne.symm hid
      have hfind' : (lifecycle.step st e).scans.find? scanId = some scan := by
        rw [hsettles.others scanId hid]
        exact hfind
      rw [booksRight_iff hfind', tally_eq_of_ne row row' hsettles.sameScan hsettles.counts hne]
      simp [hbal, Ne.symm hid]
  · rw [honce scanId]
    have hfind' : (lifecycle.step st e).scans.find? scanId = some scan := by
      rw [hrequeues.scans]
      exact hfind
    rw [booksRight_iff hfind']
    by_cases hscan : row.scanId = scanId
    · -- the counter still counts the job that was reopened
      have hended := hrequeues.counts fun j => decide (j.scanId = scanId) && j.status.terminal
      have hrow : (decide (row.scanId = scanId) && row.status.terminal).toNat = 1 := by
        rw [hscan, hrequeues.failed]
        simp [ScanStatus.terminal]
      have hrow' : (decide (row.requeued.scanId = scanId) &&
          row.requeued.status.terminal).toNat = 0 := by
        simp [ScanJobRow.requeued, ScanStatus.terminal]
      rw [hrow, hrow'] at hended
      simp only [hscan, ne_eq, not_true_eq_false, iff_false]
      intro hbal'
      have hbefore := hbal.completed
      have hafter := hbal'.completed
      simp only [ScanStore.tally] at hbefore hafter
      omega
    · rw [tally_eq_of_ne row row.requeued rfl hrequeues.counts hscan]
      simp [hbal, hscan]

/-! ## The state an accept leaves -/

/-- An accepted scan with at least one job starts with its jobs counted and its
books right: nothing has ended, and it is running. -/
theorem persistKick_ready {st₀ st : ScanStore} {args : ScanStore.KickArgs} {scan : ScanRow}
    (hkick : st₀.persistKick args = some (st, scan, false)) (hassets : args.assets ≠ []) :
    JobsCounted scan.id st ∧ BooksRight scan.id st := by
  obtain ⟨rfl, hscans, hjobs⟩ := ScanStore.persistKick_created hkick
  have hfind : st.scans.find? args.scanRow.id = some args.scanRow :=
    Table.find?_of_mem ((Table.mem_insertMany? hscans).mpr (by simp))
  -- the drawn scan id is fresh, and the jobs of the scan are the queued ones
  have hnone : ∀ q : ScanJobRow → Bool, (∀ asset, q (args.jobRow asset) = false) →
      st.jobs.count (fun j => decide (j.scanId = args.scanId) && q j) = 0 := by
    intro q hq
    rw [ScanStore.count_jobs_inserted hscans hjobs, List.countP_eq_zero]
    intro j hj
    obtain ⟨asset, -, rfl⟩ := List.mem_map.mp hj
    simp [hq asset]
  have htally : st.tally args.scanId = ⟨args.assets.length, 0, 0⟩ := by
    unfold ScanStore.tally
    rw [ScanStore.countAll_jobs_inserted hscans hjobs,
      hnone (fun j => j.status.terminal) (fun _ => rfl),
      hnone (fun j => decide (j.status = .failed)) (fun _ => rfl)]
  have hlength : 0 < args.assets.length := List.length_pos_iff.mpr hassets
  have hrunning : args.scanRow.status = .running := by
    simp [ScanStore.KickArgs.scanRow, hassets]
  constructor
  · refine ⟨args.scanRow, hfind, ?_, ?_⟩
    · change args.assets.length = (st.tally args.scanId).jobs
      rw [htally]
    · change 0 < (st.tally args.scanId).jobs
      rw [htally]
      exact hlength
  · rw [booksRight_iff hfind]
    change (st.tally args.scanId).Balanced args.scanRow
    rw [htally]
    constructor
    · rfl
    · exact Nat.zero_le _
    · rw [hrunning]
      simp only [ScanStatus.terminal, Bool.false_eq_true, false_iff]
      omega
    all_goals
      intro hterminal
      rw [hrunning] at hterminal
      exact absurd hterminal Bool.false_ne_true

/-- A step that settles an open job and closes the scan leaves no job open. -/
theorem closesLast_of_settlesOnce {scanId : Uuid} {st : ScanStore} {e : LifecycleEvent}
    (hcounted : JobsCounted scanId st) (hbooks : BooksRight scanId st)
    (hallowed : lifecycle.allowed st e) (honce : SettlesOnce scanId st e) :
    ClosesLast scanId st e := by
  have hafter := (booksRight_step_iff hcounted hbooks hallowed).mpr honce
  cases e with
  | scanJobCompleted result now =>
      intro st' closed happly hid
      obtain ⟨row, hrow, job, calls, startedAt, finishedAt, hjob, hresult⟩ := hallowed
      obtain ⟨-, -, st'', closed', scan, happly', hsettles, hclosed⟩ :=
        applyResult_settles hrow now hjob hresult
      rw [happly] at happly'
      simp only [Option.some.injEq, Prod.mk.injEq] at happly'
      obtain ⟨rfl, rfl⟩ := happly'
      obtain ⟨hrow', hterminal⟩ := hclosed closed rfl
      have hstep : lifecycle.step st (.scanJobCompleted result now) = st' := by
        change ((st.applyResult result now).map Prod.fst).getD st = st'
        rw [happly]
        rfl
      rw [hstep] at hafter
      obtain ⟨scan', hfind, hbooks'⟩ := hafter
      have hscanId : scan.id = scanId := by
        rw [hrow', settled_id] at hid
        exact hid
      have hsame : scan' = closed := by
        have hsettled := hsettles.settled
        rw [hscanId, hfind, Option.some_inj] at hsettled
        rw [hsettled, hrow', hscanId]
      subst hsame
      intro j hj hjscan
      exact hbooks'.terminal_iff.mp hterminal j hj (hjscan.trans hid.symm)
  | dispatchFailed orgId jobId scanId' message now => trivial
  | jobRetried orgId jobId => trivial

/-- **The books of a scan over a run.**  Take a scan accepted with at least one
job and any run of completions, dispatch failures and retries behind it.  The
books are right in every state the run visits, and no completion closes the scan
over an open job, precisely when every step that settles one of its jobs finds
that job still open and none of its jobs is retried. -/
theorem lifecycle_bookkeeping_iff {st₀ st : ScanStore} {args : ScanStore.KickArgs}
    {scan : ScanRow} (hkick : st₀.persistKick args = some (st, scan, false))
    (hassets : args.assets ≠ []) {es : List LifecycleEvent} (hlegal : lifecycle.Legal st es) :
    ((∀ t ∈ lifecycle.states st es, BooksRight scan.id t) ∧
        lifecycle.AllSteps (ClosesLast scan.id) st es) ↔
      lifecycle.AllSteps (SettlesOnce scan.id) st es := by
  obtain ⟨hcounted, hbooks⟩ := persistKick_ready hkick hassets
  have hiff := lifecycle.forall_states_iff_allSteps
    (I := JobsCounted scan.id) (Q := BooksRight scan.id) (P := SettlesOnce scan.id)
    (fun _ _ hI hallowed => jobsCounted_step hI hallowed)
    (fun _ _ hI hQ hallowed => booksRight_step_iff hI hQ hallowed) hcounted hbooks hlegal
  constructor
  · rintro ⟨hstates, -⟩
    exact hiff.mp hstates
  · intro honce
    refine ⟨hiff.mpr honce, ?_⟩
    have hsteps : lifecycle.AllSteps
        (fun t e => lifecycle.allowed t e ∧ SettlesOnce scan.id t e) st es :=
      (System.allSteps_and lifecycle).mpr ⟨hlegal, honce⟩
    refine System.AllSteps.imp lifecycle
      (I := fun t => JobsCounted scan.id t ∧ BooksRight scan.id t) ?_ ?_ ⟨hcounted, hbooks⟩ hsteps
    · rintro t e ⟨hI, hQ⟩ ⟨hallowed, hP⟩
      exact ⟨jobsCounted_step hI hallowed, (booksRight_step_iff hI hQ hallowed).mpr hP⟩
    · rintro t e ⟨hI, hQ⟩ ⟨hallowed, hP⟩
      exact closesLast_of_settlesOnce hI hQ hallowed hP

/-! ## A scan of two repositories -/

/-- An accept that plans two repositories. -/
def twoRepoKick : ScanStore.KickArgs where
  orgId := "6f1c0b7e-0000-4000-8000-000000000001"
  scanId := "6f1c0b7e-0000-4000-8000-0000000000aa"
  scannerType := .sast
  assets :=
    [("6f1c0b7e-0000-4000-8000-0000000000b1",
        { id := "6f1c0b7e-0000-4000-8000-0000000000c1", kind := "repository",
          externalKey := "github:acme/api", attributes := .obj [] }),
      ("6f1c0b7e-0000-4000-8000-0000000000b2",
        { id := "6f1c0b7e-0000-4000-8000-0000000000c2", kind := "repository",
          externalKey := "github:acme/web", attributes := .obj [] })]
  occurredAt := 0

/-- The tables behind that accept. -/
def twoRepoStore : ScanStore :=
  ((ScanStore.empty.persistKick twoRepoKick).map Prod.fst).getD ScanStore.empty

/-- A worker's report that a job of that scan found nothing. -/
def twoRepoReport (jobId assetId : Uuid) : ScanJobResult :=
  (runJob ⟨fun _ => .ok ⟨[], none, [], []⟩, fun _ _ => .ok (), fun _ => .ok ()⟩
    { jobId := jobId, scanId := twoRepoKick.scanId, orgId := twoRepoKick.orgId,
      scannerType := .sast, assetId := assetId, target := [] } 1 2).completed

/-- Both jobs report, each once. -/
def twoRepoRun : List LifecycleEvent :=
  [.scanJobCompleted (twoRepoReport "6f1c0b7e-0000-4000-8000-0000000000b1"
      "6f1c0b7e-0000-4000-8000-0000000000c1") 3,
    .scanJobCompleted (twoRepoReport "6f1c0b7e-0000-4000-8000-0000000000b2"
      "6f1c0b7e-0000-4000-8000-0000000000c2") 4]

/-- The first job's report is delivered twice; the second job has not reported. -/
def redeliveredRun : List LifecycleEvent :=
  [.scanJobCompleted (twoRepoReport "6f1c0b7e-0000-4000-8000-0000000000b1"
      "6f1c0b7e-0000-4000-8000-0000000000c1") 3,
    .scanJobCompleted (twoRepoReport "6f1c0b7e-0000-4000-8000-0000000000b1"
      "6f1c0b7e-0000-4000-8000-0000000000c1") 4]

theorem twoRepoKick_accepted :
    ScanStore.empty.persistKick twoRepoKick = some (twoRepoStore, twoRepoKick.scanRow, false) :=
  rfl

/-- A report about a job row of the scan can be delivered. -/
theorem twoRepoReport_allowed {st : ScanStore} {jobId : Uuid} (assetId : Uuid) (now : Timestamp)
    (hrow : (st.jobs.find? jobId).map (fun row => (row.scanId, row.orgId)) =
      some (twoRepoKick.scanId, twoRepoKick.orgId)) :
    lifecycle.allowed st (.scanJobCompleted (twoRepoReport jobId assetId) now) := by
  obtain ⟨row, hfind, hids⟩ := Option.map_eq_some_iff.mp hrow
  obtain ⟨hscan, horg⟩ := Prod.mk.inj hids
  exact ⟨row, Table.find?_mem hfind, _, _, _, _,
    ⟨(Table.find?_key hfind).symm, hscan.symm, horg.symm⟩, rfl⟩

theorem twoRepoRun_legal : lifecycle.Legal twoRepoStore twoRepoRun :=
  ⟨twoRepoReport_allowed _ 3 rfl, twoRepoReport_allowed _ 4 rfl, trivial⟩

theorem redeliveredRun_legal : lifecycle.Legal twoRepoStore redeliveredRun :=
  ⟨twoRepoReport_allowed _ 3 rfl, twoRepoReport_allowed _ 4 rfl, trivial⟩

/-- Each job reporting once keeps the books of the two-repository scan. -/
theorem twoRepoRun_bookkeeping :
    (∀ t ∈ lifecycle.states twoRepoStore twoRepoRun, BooksRight twoRepoKick.scanId t) ∧
      lifecycle.AllSteps (ClosesLast twoRepoKick.scanId) twoRepoStore twoRepoRun := by
  refine (lifecycle_bookkeeping_iff twoRepoKick_accepted (by decide) twoRepoRun_legal).mpr ?_
  refine ⟨?_, ?_, trivial⟩
  · intro _ j hj
    rw [← Option.some_inj.mp hj]
    rfl
  · intro _ j hj
    rw [← Option.some_inj.mp hj]
    rfl

/-- A redelivered report counts twice: with one of the two jobs still queued, the
second delivery closes the scan as `succeeded`. -/
theorem redelivered_report_closes_scan :
    lifecycle.Legal twoRepoStore redeliveredRun ∧
      ((lifecycle.run twoRepoStore redeliveredRun).scans.find? twoRepoKick.scanId).map
        (fun s => (s.status, s.jobsCompleted)) = some (.succeeded, 2) ∧
      ((lifecycle.run twoRepoStore redeliveredRun).jobs.find?
        "6f1c0b7e-0000-4000-8000-0000000000b2").map (fun j => j.status) = some .queued ∧
      ¬ ((∀ t ∈ lifecycle.states twoRepoStore redeliveredRun, BooksRight twoRepoKick.scanId t) ∧
        lifecycle.AllSteps (ClosesLast twoRepoKick.scanId) twoRepoStore redeliveredRun) := by
  refine ⟨redeliveredRun_legal, rfl, rfl, ?_⟩
  rintro ⟨hstates, -⟩
  obtain ⟨scan, hfind, hbooks⟩ :=
    hstates _ (lifecycle.run_mem_states twoRepoStore redeliveredRun)
  have hcompleted := hbooks.completed
  rw [← Option.some_inj.mp hfind] at hcompleted
  exact absurd hcompleted (by decide)

end Orchestrator
end Ctem
