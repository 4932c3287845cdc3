import Ctem.Foundation.ReadCommitted
import Ctem.Orchestrator.ScanLifecycle

/-!
# Concurrent accepts of scans

Any number of `createScan` calls, of any organisations and keys, statement by statement
of their transactions at read committed, beside the transactions that move the scans on.
A statement reads what is committed; the rows of an accept appear together when it
commits.  A meter row whose idempotency key another open transaction has inserted waits
for that transaction, and then either goes in or is a unique conflict.

* `KicksMatch` is what the tables always satisfy: the meter rows and the scans belong
  together one to one, a key has one meter row, and `jobsTotal` counts the jobs.
* `Backed` is what a call that found or made the scan of its key can show for it: a
  meter row with the key.  Meter rows are never removed, so it stays true.
* `creators` records which call has committed a scan; it is no column.
-/

namespace Ctem
namespace Orchestrator

open Foundation Contracts
open ScanStore (KickArgs ne_of_inserted countAll_jobs_inserted count_jobs_other)

namespace ScanStore

/-- `tx.scanKick.findFirst({ where: { orgId, idempotencyKey } })`; without a key there is
no lookup. -/
def findKick (st : ScanStore) (orgId : OrgId) (idempotencyKey : Option String) :
    Option ScanKickRow :=
  match idempotencyKey with
  | none => none
  | some key =>
      st.kicks.rows.find? fun k =>
        decide (k.orgId = orgId) && decide (k.idempotencyKey = some key)

/-- `tx.scan.findUnique({ where: { id } })` inside `withOrg(orgId)`. -/
def findScan (st : ScanStore) (orgId : OrgId) (id : Uuid) : Option ScanRow :=
  match st.scans.find? id with
  | some scan => if scan.orgId = orgId then some scan else none
  | none => none

/-- The rows of an accept. -/
def accept (st : ScanStore) (args : KickArgs) : Option ScanStore :=
  (st.insertScan args).bind fun created => created.insertKick args.kickRow

/-- The lookup of an accept is the lookup of the key and then of its scan. -/
theorem findIdempotentScan_eq (st : ScanStore) (orgId : OrgId) (key : Option String) :
    st.findIdempotentScan orgId key =
      (st.findKick orgId key).elim (some none) fun kick =>
        (st.findScan orgId kick.scanId).map some := by
  unfold findIdempotentScan findKick
  cases key with
  | none => rfl
  | some key =>
      simp only
      cases st.kicks.rows.find? fun k =>
          decide (k.orgId = orgId) && decide (k.idempotencyKey = some key) with
      | none => rfl
      | some kick =>
          simp only [findScan, Option.elim_some]
          cases st.scans.find? kick.scanId with
          | none => rfl
          | some scan => by_cases horg : scan.orgId = orgId <;> simp [horg]

/-- `persistKick` run alone is the lookups of the key and of its scan, or else the
accept. -/
theorem persistKick_eq (st : ScanStore) (args : KickArgs) :
    st.persistKick args =
      (st.findKick args.orgId args.idempotencyKey).elim
        ((st.accept args).map fun st' => (st', args.scanRow, false))
        fun kick => (st.findScan args.orgId kick.scanId).map fun scan => (st, scan, true) := by
  unfold persistKick
  rw [findIdempotentScan_eq]
  cases st.findKick args.orgId args.idempotencyKey with
  | none =>
      -- no earlier accept: the rows of this one, unless an insert meets a taken id
      unfold accept
      cases st.insertScan args with
      | none => rfl
      | some created =>
          simp only [Option.elim_none, Option.bind_some]
          cases created.insertKick args.kickRow <;> rfl
  | some kick =>
      simp only [Option.elim_some]
      cases st.findScan args.orgId kick.scanId <;> rfl

end ScanStore

/-- The statement a call makes next, or how it ended. -/
inductive CallPhase where
  /-- The lookup of the key. -/
  | lookup
  /-- The scan of the meter row that the lookup found. -/
  | lookupScan (kick : ScanKickRow)
  | insertScan
  | insertJobs
  | insertKick
  | commit
  /-- A unique conflict was caught: the key is looked up in another transaction. -/
  | lookupAgain
  /-- `persistKick` has returned the scan of an earlier accept. -/
  | replay (scan : ScanRow)
  /-- `persistKick` has returned the call's own scan. -/
  | dispatch
  | returned (scan : ScanRow) (isReplay : Bool)
  | failed

/-- The call's own rows are committed. -/
def CallPhase.accepted : CallPhase → Bool
  | .dispatch => true
  | .returned _ isReplay => !isReplay
  | _ => false

structure CreateScanCall where
  args : KickArgs
  phase : CallPhase

/-- The committed tables, the idempotency keys that open transactions have inserted, the
calls, and who has committed a scan. -/
structure AcceptWorld where
  store : ScanStore
  keyLocks : Locks (OrgId × String) Nat
  calls : Nat → Option CreateScanCall
  creators : Uuid → Option Nat

inductive AcceptEvent where
  | call (id : Nat) (args : KickArgs)
  | statement (id : Nat)
  | commit (id : Nat)
  /-- The transaction the call is in fails. -/
  | failure (id : Nat)
  /-- A report of a worker, a failed dispatch or a retry. -/
  | lifecycle (event : LifecycleEvent)

namespace AcceptWorld

/-- The database before the first scan. -/
def start : AcceptWorld where
  store := ScanStore.empty
  keyLocks := Locks.empty
  calls := fun _ => none
  creators := fun _ => none

/-! ## The statements of a call -/

/-- What a unique conflict leads to. -/
def afterConflict (args : KickArgs) : CallPhase :=
  if args.idempotencyKey.isSome then .lookupAgain else .failed

/-- A statement of the call on the committed tables, other than the insert of the meter
row. -/
def nextPhase (st : ScanStore) (args : KickArgs) (phase : CallPhase) : CallPhase :=
  match phase with
  | .lookup =>
      match st.findKick args.orgId args.idempotencyKey with
      | some kick => .lookupScan kick
      | none => .insertScan
  | .lookupScan kick =>
      match st.findScan args.orgId kick.scanId with
      | some scan => .replay scan
      | none => .failed -- the meter row is missing its scan
  | .insertScan =>
      -- the drawn id may be taken, which is a unique conflict like any other
      if (st.scans.insertMany? [args.scanRow]).isSome then .insertJobs else afterConflict args
  | .insertJobs =>
      if (st.jobs.insertMany? (args.assets.map args.jobRow)).isSome then .insertKick
      else afterConflict args
  | .lookupAgain =>
      match st.findKick args.orgId args.idempotencyKey with
      | some kick => .lookupScan kick
      | none => .failed -- the conflict was about another index
  | .replay scan => .returned scan true
  -- jobs are published and failed closed in between, which are events of their own
  | .dispatch => .returned ((st.findScan args.orgId args.scanId).getD args.scanRow) false
  | phase => phase

/-- What the call does when its transaction fails with anything but a unique conflict. -/
def afterFailure (args : KickArgs) (phase : CallPhase) : CallPhase :=
  match phase with
  | .dispatch => .returned args.scanRow false -- the read of the latest row is caught
  | .returned scan isReplay => .returned scan isReplay
  | _ => .failed

/-- The key that the meter row takes in its unique index. -/
def lockKey (args : KickArgs) : Option (OrgId × String) :=
  args.idempotencyKey.map fun key => (args.orgId, key)

/-- Another transaction has inserted the key. -/
def waits (w : AcceptWorld) (id : Nat) (args : KickArgs) : Bool :=
  match lockKey args with
  | some key => !w.keyLocks.freeFor key id
  | none => false

/-! ## Steps -/

def goTo (w : AcceptWorld) (id : Nat) (args : KickArgs) (phase : CallPhase) : AcceptWorld :=
  { w with calls := Function.update w.calls id (some ⟨args, phase⟩) }

/-- The call goes on without the transaction it was in. -/
def endTx (w : AcceptWorld) (id : Nat) (args : KickArgs) (phase : CallPhase) : AcceptWorld :=
  { w with keyLocks := w.keyLocks.release id }.goTo id args phase

/-- The insert of the meter row, which locks its key. -/
def stepInsertKick (w : AcceptWorld) (id : Nat) (args : KickArgs) : AcceptWorld :=
  if w.waits id args then w -- the other transaction decides, and the insert is made again
  else
    match w.store.insertKick args.kickRow, lockKey args with
    | none, _ => w.endTx id args (afterConflict args)
    | some _, some key =>
        { w with keyLocks := w.keyLocks.acquire key id }.goTo id args .commit
    | some _, none => w.goTo id args .commit

def stepStatement (w : AcceptWorld) (id : Nat) (args : KickArgs) (phase : CallPhase) :
    AcceptWorld :=
  match phase with
  | .insertKick => w.stepInsertKick id args
  | phase => w.goTo id args (nextPhase w.store args phase)

/-- The commit of the accept.  An id that was drawn twice is found at the latest here. -/
def stepCommit (w : AcceptWorld) (id : Nat) (args : KickArgs) : AcceptWorld :=
  match w.store.accept args with
  | some store =>
      { w with
        store := store
        creators := Function.update w.creators args.scanId (some id) }.endTx id args .dispatch
  | none => w.endTx id args (afterConflict args)

def step (w : AcceptWorld) (event : AcceptEvent) : AcceptWorld :=
  match event with
  | .call id args =>
      match w.calls id with
      | none => w.goTo id args .lookup
      | some _ => w
  | .statement id =>
      match w.calls id with
      | some call => w.stepStatement id call.args call.phase
      | none => w
  | .commit id =>
      match w.calls id with
      | some ⟨args, .commit⟩ => w.stepCommit id args
      | _ => w
  | .failure id =>
      match w.calls id with
      | some call => w.endTx id call.args (afterFailure call.args call.phase)
      | none => w
  | .lifecycle event => { w with store := lifecycleStep w.store event }

/-- Calls and everything that moves a scan, in any interleaving. -/
def system : System AcceptWorld AcceptEvent where
  step := step
  allowed := fun _ _ => True

end AcceptWorld

/-! ## The tables -/

/-- Scans, meter rows and jobs belong together. -/
structure KicksMatch (st : ScanStore) : Prop where
  kickOfScan : ∀ s ∈ st.scans, ∃ k ∈ st.kicks, k.scanId = s.id
  scanOfKick : ∀ k ∈ st.kicks, ∃ s ∈ st.scans, s.id = k.scanId
  onePerScan : ∀ k ∈ st.kicks, ∀ k' ∈ st.kicks, k.scanId = k'.scanId → k = k'
  onePerKey : ∀ k ∈ st.kicks, ∀ k' ∈ st.kicks, ∀ key, k.orgId = k'.orgId →
    k.idempotencyKey = some key → k'.idempotencyKey = some key → k = k'
  jobsTotal : ∀ s ∈ st.scans, s.jobsTotal = st.jobs.count fun j => decide (j.scanId = s.id)

theorem kicksMatch_empty : KicksMatch ScanStore.empty where
  kickOfScan := fun s hs => absurd hs (Table.not_mem_empty s)
  scanOfKick := fun k hk => absurd hk (Table.not_mem_empty k)
  onePerScan := fun k hk => absurd hk (Table.not_mem_empty k)
  onePerKey := fun k hk => absurd hk (Table.not_mem_empty k)
  jobsTotal := fun s hs => absurd hs (Table.not_mem_empty s)

/-- The rows are the same but for the columns that a scan's progress is written to. -/
structure SameRows (st st' : ScanStore) : Prop where
  scans : st'.scans.rows.map (fun s => (s.id, s.jobsTotal)) =
    st.scans.rows.map fun s => (s.id, s.jobsTotal)
  jobs : st'.jobs.rows.map ScanJobRow.scanId = st.jobs.rows.map ScanJobRow.scanId
  kicks : st'.kicks = st.kicks

namespace SameRows

theorem refl (st : ScanStore) : SameRows st st := ⟨rfl, rfl, rfl⟩

theorem trans {st st' st'' : ScanStore} (h : SameRows st st') (h' : SameRows st' st'') :
    SameRows st st'' :=
  ⟨h'.scans.trans h.scans, h'.jobs.trans h.jobs, h'.kicks.trans h.kicks⟩

theorem symm {st st' : ScanStore} (h : SameRows st st') : SameRows st' st :=
  ⟨h.scans.symm, h.jobs.symm, h.kicks.symm⟩

/-- A scan is there before as it is after. -/
theorem scan {st st' : ScanStore} (h : SameRows st st') {s' : ScanRow} (hs' : s' ∈ st'.scans) :
    ∃ s ∈ st.scans, s.id = s'.id ∧ s.jobsTotal = s'.jobsTotal := by
  have hmem : (s'.id, s'.jobsTotal) ∈ st'.scans.rows.map fun s => (s.id, s.jobsTotal) :=
    List.mem_map_of_mem (f := fun s : ScanRow => (s.id, s.jobsTotal)) hs'
  rw [h.scans] at hmem
  obtain ⟨s, hs, heq⟩ := List.mem_map.mp hmem
  obtain ⟨hid, htotal⟩ := Prod.mk.inj heq
  exact ⟨s, hs, hid, htotal⟩

/-- A scan has as many jobs before as after. -/
theorem countJobs {st st' : ScanStore} (h : SameRows st st') (scanId : Uuid) :
    (st'.jobs.count fun j => decide (j.scanId = scanId)) =
      st.jobs.count fun j => decide (j.scanId = scanId) := by
  have hcount : ∀ rows : List ScanJobRow, (rows.countP fun j => decide (j.scanId = scanId)) =
      (rows.map ScanJobRow.scanId).countP fun id => decide (id = scanId) := by
    intro rows
    rw [List.countP_map]
    rfl
  unfold Table.count
  rw [hcount, hcount, h.jobs]

theorem kicksMatch {st st' : ScanStore} (h : SameRows st st') (hmatch : KicksMatch st) :
    KicksMatch st' where
  kickOfScan := by
    intro s' hs'
    obtain ⟨s, hs, hid, -⟩ := h.scan hs'
    obtain ⟨k, hk, hkey⟩ := hmatch.kickOfScan s hs
    rw [h.kicks]
    exact ⟨k, hk, hkey.trans hid⟩
  scanOfKick := by
    intro k hk
    rw [h.kicks] at hk
    obtain ⟨s, hs, hid⟩ := hmatch.scanOfKick k hk
    obtain ⟨s', hs', hid', -⟩ := h.symm.scan hs
    exact ⟨s', hs', hid'.trans hid⟩
  onePerScan := by
    rw [h.kicks]
    exact hmatch.onePerScan
  onePerKey := by
    rw [h.kicks]
    exact hmatch.onePerKey
  jobsTotal := by
    intro s' hs'
    obtain ⟨s, hs, hid, htotal⟩ := h.scan hs'
    rw [← htotal, ← hid, h.countJobs]
    exact hmatch.jobsTotal s hs

end SameRows

/-! ## What moves a scan -/

/-- Columns of the scans and of their jobs that a scan's progress is not written to. -/
structure KeptColumns {α β : Type} (f : ScanRow → α) (g : ScanJobRow → β) : Prop where
  counted : ∀ s n, f { s with jobsCompleted := n } = f s
  closed : ∀ s status now, f { s with status := status, finishedAt := now } = f s
  withResult : ∀ result j, g (j.withResult result) = g j
  withDispatchFailure : ∀ message now j, g (j.withDispatchFailure message now) = g j
  requeued : ∀ j, g j.requeued = g j

/-- Both tables have the same rows, as far as these columns go. -/
structure SameColumns {α β : Type} (f : ScanRow → α) (g : ScanJobRow → β) (st st' : ScanStore) :
    Prop where
  scans : st'.scans.rows.map f = st.scans.rows.map f
  jobs : st'.jobs.rows.map g = st.jobs.rows.map g
  kicks : st'.kicks = st.kicks

section SameColumns

variable {α β : Type} {f : ScanRow → α} {g : ScanJobRow → β} {st st' st'' : ScanStore}

namespace SameColumns

theorem refl (f : ScanRow → α) (g : ScanJobRow → β) (st : ScanStore) : SameColumns f g st st :=
  ⟨rfl, rfl, rfl⟩

theorem trans (h : SameColumns f g st st') (h' : SameColumns f g st' st'') :
    SameColumns f g st st'' :=
  ⟨h'.scans.trans h.scans, h'.jobs.trans h.jobs, h'.kicks.trans h.kicks⟩

theorem symm (h : SameColumns f g st st') : SameColumns f g st' st :=
  ⟨h.scans.symm, h.jobs.symm, h.kicks.symm⟩

/-- A scan is there before as it is after. -/
theorem scan (h : SameColumns f g st st') {s' : ScanRow} (hs' : s' ∈ st'.scans) :
    ∃ s ∈ st.scans, f s = f s' := by
  have hmem : f s' ∈ st'.scans.rows.map f := List.mem_map_of_mem hs'
  rw [h.scans] at hmem
  exact List.mem_map.mp hmem

/-- A job is there before as it is after. -/
theorem job (h : SameColumns f g st st') {j' : ScanJobRow} (hj' : j' ∈ st'.jobs) :
    ∃ j ∈ st.jobs, g j = g j' := by
  have hmem : g j' ∈ st'.jobs.rows.map g := List.mem_map_of_mem hj'
  rw [h.jobs] at hmem
  exact List.mem_map.mp hmem

end SameColumns

theorem sameColumns_updateJob {orgId : OrgId} {id : Uuid} {data : ScanJobRow → ScanJobRow}
    {hid : ∀ j, (data j).id = j.id}
    {hscan : ∀ j, (data j).scanId = j.scanId ∧ (data j).orgId = j.orgId}
    (hkept : ∀ j, g (data j) = g j) (h : st.updateJob orgId id data hid hscan = some st') :
    SameColumns f g st st' := by
  unfold ScanStore.updateJob at h
  split at h
  · cases h
  · split at h
    · obtain rfl := Option.some.inj h
      refine ⟨rfl, ?_, rfl⟩
      change (List.map _ st.jobs.rows).map g = _
      rw [List.map_map]
      apply List.map_congr_left
      intro j _
      simp only [Function.comp_apply]
      split
      · exact hkept j
      · rfl
    · cases h

theorem sameColumns_updateScan {orgId : OrgId} {id : Uuid} {data : ScanRow → ScanRow}
    {hid : ∀ s, (data s).id = s.id} {horg : ∀ s, (data s).orgId = s.orgId}
    (hkept : ∀ s, f (data s) = f s) (h : st.updateScan orgId id data hid horg = some st') :
    SameColumns f g st st' := by
  unfold ScanStore.updateScan at h
  split at h
  · cases h
  · split at h
    · obtain rfl := Option.some.inj h
      refine ⟨?_, rfl, rfl⟩
      change (List.map _ st.scans.rows).map f = _
      rw [List.map_map]
      apply List.map_congr_left
      intro s _
      simp only [Function.comp_apply]
      split
      · exact hkept s
      · rfl
    · cases h

theorem sameColumns_settleScan (hkept : KeptColumns f g) {orgId : OrgId} {scanId : Uuid}
    {now : Timestamp} {closed : Option ScanRow}
    (h : st.settleScan orgId scanId now = some (st', closed)) : SameColumns f g st st' := by
  unfold ScanStore.settleScan at h
  split at h
  · cases h
  · rename_i bumped hbumped
    have hbump : SameColumns f g st bumped :=
      sameColumns_updateScan (fun s => hkept.counted s _) hbumped
    split at h
    · cases h
    · split at h
      · obtain ⟨rfl, -⟩ := Prod.mk.inj (Option.some.inj h)
        exact hbump
      · split at h
        · cases h
        · rename_i hclosed
          obtain ⟨rfl, -⟩ := Prod.mk.inj (Option.some.inj h)
          exact hbump.trans (sameColumns_updateScan (fun s => hkept.closed s _ _) hclosed)

theorem sameColumns_failDispatch (hkept : KeptColumns f g) {orgId : OrgId} {jobId scanId : Uuid}
    {message : String} {now : Timestamp} {closed : Option ScanRow}
    (h : st.failDispatch orgId jobId scanId message now = some (st', closed)) :
    SameColumns f g st st' := by
  unfold ScanStore.failDispatch at h
  split at h
  · cases h
  · rename_i hupdate
    exact (sameColumns_updateJob (hkept.withDispatchFailure _ _) hupdate).trans
      (sameColumns_settleScan hkept h)

/-- What moves a scan adds and removes no row. -/
theorem sameColumns_lifecycleStep (hkept : KeptColumns f g) (st : ScanStore)
    (event : LifecycleEvent) : SameColumns f g st (lifecycleStep st event) := by
  have hsettled : ∀ outcome : Option (ScanStore × Option ScanRow),
      (∀ st' closed, outcome = some (st', closed) → SameColumns f g st st') →
      SameColumns f g st ((outcome.map Prod.fst).getD st) := by
    intro outcome hsame
    cases outcome with
    | none => exact SameColumns.refl f g st
    | some result => exact hsame result.1 result.2 rfl
  cases event with
  | scanJobCompleted result now =>
      apply hsettled
      intro st' closed h
      unfold ScanStore.applyResult at h
      split at h
      · cases h
      · rename_i hupdate
        exact (sameColumns_updateJob (hkept.withResult result) hupdate).trans
          (sameColumns_settleScan hkept h)
  | dispatchFailed orgId jobId scanId message now =>
      apply hsettled
      intro st' closed h
      exact sameColumns_failDispatch hkept h
  | jobRetried orgId jobId =>
      change SameColumns f g st ((st.retryJob orgId jobId).getD st)
      cases h : st.retryJob orgId jobId with
      | none => exact SameColumns.refl f g st
      | some st' => exact sameColumns_updateJob hkept.requeued h

end SameColumns

theorem sameRows_lifecycleStep (st : ScanStore) (event : LifecycleEvent) :
    SameRows st (lifecycleStep st event) := by
  have hkept : KeptColumns (fun s => (s.id, s.jobsTotal)) ScanJobRow.scanId :=
    ⟨fun _ _ => rfl, fun _ _ _ => rfl, fun _ _ => rfl, fun _ _ _ => rfl, fun _ => rfl⟩
  have hsame := sameColumns_lifecycleStep hkept st event
  exact ⟨hsame.scans, hsame.jobs, hsame.kicks⟩

/-! ## What an accept adds -/

/-- A meter row goes in where its scan and its key have none. -/
theorem insertKick_some {st st' : ScanStore} {kick : ScanKickRow}
    (h : st.insertKick kick = some st') :
    (∀ k ∈ st.kicks, k.scanId ≠ kick.scanId ∧ (k.orgId = kick.orgId →
      ∀ key, k.idempotencyKey = some key → kick.idempotencyKey ≠ some key)) ∧
      st.kicks.insertMany? [kick] = some st'.kicks := by
  unfold ScanStore.insertKick at h
  split at h
  · cases h
  · rename_i hnone
    obtain ⟨kicks, hkicks, rfl⟩ := Option.map_eq_some_iff.mp h
    refine ⟨?_, hkicks⟩
    intro k hk
    have hfree : ¬ (decide (k.scanId = kick.scanId) ||
        (decide (k.orgId = kick.orgId) && k.idempotencyKey.isSome &&
          decide (k.idempotencyKey = kick.idempotencyKey))) = true := by
      intro htaken
      exact hnone (List.any_eq_true.mpr ⟨k, hk, htaken⟩)
    constructor
    · intro hscan
      simp [hscan] at hfree
    · intro horg key hkey hsame
      simp [horg, hkey, hsame] at hfree

/-- The tables after an accept. -/
theorem accept_some {st st' : ScanStore} {args : KickArgs} (h : st.accept args = some st') :
    st.scans.insertMany? [args.scanRow] = some st'.scans ∧
      st.jobs.insertMany? (args.assets.map args.jobRow) = some st'.jobs ∧
      st.kicks.insertMany? [args.kickRow] = some st'.kicks ∧
      ∀ k ∈ st.kicks, k.scanId ≠ args.scanId ∧ (k.orgId = args.orgId →
        ∀ key, k.idempotencyKey = some key → args.idempotencyKey ≠ some key) := by
  obtain ⟨created, hcreated, hkick⟩ := Option.bind_eq_some_iff.mp h
  obtain ⟨hscans, hjobs⟩ := ScanStore.insertScan_scans hcreated
  obtain ⟨hsameScans, hsameJobs⟩ := ScanStore.insertKick_tables hkick
  obtain ⟨hfree, hkicks⟩ := insertKick_some hkick
  have hold : created.kicks = st.kicks := by
    unfold ScanStore.insertScan at hcreated
    split at hcreated
    · obtain rfl := Option.some.inj hcreated
      rfl
    · cases hcreated
  rw [hold] at hfree hkicks
  rw [hsameScans, hsameJobs]
  exact ⟨hscans, hjobs, hkicks, hfree⟩

theorem kicksMatch_accept {st st' : ScanStore} {args : KickArgs} (hmatch : KicksMatch st)
    (h : st.accept args = some st') : KicksMatch st' := by
  obtain ⟨hscans, hjobs, hkicks, hfree⟩ := accept_some h
  have hscan : ∀ s, s ∈ st'.scans ↔ s = args.scanRow ∨ s ∈ st.scans := by
    intro s
    rw [Table.mem_insertMany? hscans, List.mem_singleton]
  have hkick : ∀ k, k ∈ st'.kicks ↔ k = args.kickRow ∨ k ∈ st.kicks := by
    intro k
    rw [Table.mem_insertMany? hkicks, List.mem_singleton]
  constructor
  · intro s hs
    rcases (hscan s).mp hs with rfl | hold
    · exact ⟨args.kickRow, (hkick _).mpr (Or.inl rfl), rfl⟩
    · obtain ⟨k, hk, hkey⟩ := hmatch.kickOfScan s hold
      exact ⟨k, (hkick k).mpr (Or.inr hk), hkey⟩
  · intro k hk
    rcases (hkick k).mp hk with rfl | hold
    · exact ⟨args.scanRow, (hscan _).mpr (Or.inl rfl), rfl⟩
    · obtain ⟨s, hs, hid⟩ := hmatch.scanOfKick k hold
      exact ⟨s, (hscan s).mpr (Or.inr hs), hid⟩
  · intro k hk k' hk' hsame
    rcases (hkick k).mp hk with rfl | hold <;> rcases (hkick k').mp hk' with rfl | hold'
    · rfl
    · exact absurd hsame.symm (hfree k' hold').1
    · exact absurd hsame (hfree k hold).1
    · exact hmatch.onePerScan k hold k' hold' hsame
  · intro k hk k' hk' key horg hkey hkey'
    rcases (hkick k).mp hk with rfl | hold <;> rcases (hkick k').mp hk' with rfl | hold'
    · rfl
    · exact absurd hkey ((hfree k' hold').2 horg.symm key hkey')
    · exact absurd hkey' ((hfree k hold).2 horg key hkey)
    · exact hmatch.onePerKey k hold k' hold' key horg hkey hkey'
  · intro s hs
    rcases (hscan s).mp hs with rfl | hold
    · exact (countAll_jobs_inserted hscans hjobs).symm
    · rw [count_jobs_other hjobs (ne_of_inserted hscans hold)]
      exact hmatch.jobsTotal s hold

namespace AcceptWorld

/-! ## The calls -/

/-- The organisation has a meter row with the call's key for the scan. -/
def Backed (st : ScanStore) (args : KickArgs) (scanId : Uuid) : Prop :=
  ∃ k ∈ st.kicks, k.orgId = args.orgId ∧ k.idempotencyKey = args.idempotencyKey ∧
    k.scanId = scanId

/-- What a call has found or made is backed. -/
def PhaseBacked (st : ScanStore) (args : KickArgs) (phase : CallPhase) : Prop :=
  match phase with
  | .lookupScan kick => Backed st args kick.scanId
  | .replay scan => Backed st args scan.id
  | .dispatch => Backed st args args.scanId
  | .returned scan _ => Backed st args scan.id
  | _ => True

theorem PhaseBacked.mono {st st' : ScanStore} {args : KickArgs} {phase : CallPhase}
    (hkicks : ∀ k ∈ st.kicks, k ∈ st'.kicks) (h : PhaseBacked st args phase) :
    PhaseBacked st' args phase := by
  have hbacked : ∀ scanId, Backed st args scanId → Backed st' args scanId := by
    intro scanId hb
    obtain ⟨k, hk, hkey⟩ := hb
    exact ⟨k, hkicks k hk, hkey⟩
  cases phase with
  | lookupScan kick => exact hbacked _ h
  | replay scan => exact hbacked _ h
  | dispatch => exact hbacked _ h
  | returned scan isReplay => exact hbacked _ h
  | lookup => trivial
  | insertScan => trivial
  | insertJobs => trivial
  | insertKick => trivial
  | commit => trivial
  | lookupAgain => trivial
  | failed => trivial

/-- The meter row a lookup finds backs its scan. -/
theorem backed_of_findKick {st : ScanStore} {args : KickArgs} {kick : ScanKickRow}
    (h : st.findKick args.orgId args.idempotencyKey = some kick) :
    Backed st args kick.scanId := by
  unfold ScanStore.findKick at h
  split at h
  · cases h
  · rename_i key hkey
    have hmatch := List.find?_some h
    simp only [Bool.and_eq_true, decide_eq_true_eq] at hmatch
    exact ⟨kick, List.mem_of_find?_eq_some h, hmatch.1, hmatch.2.trans hkey.symm, rfl⟩

theorem id_of_findScan {st : ScanStore} {orgId : OrgId} {id : Uuid} {scan : ScanRow}
    (h : st.findScan orgId id = some scan) : scan.id = id := by
  unfold ScanStore.findScan at h
  split at h
  · rename_i found hfind
    split at h
    · obtain rfl := Option.some.inj h
      exact Table.find?_key hfind
    · cases h
  · cases h

theorem phaseBacked_afterConflict (st : ScanStore) (args : KickArgs) :
    PhaseBacked st args (afterConflict args) := by
  unfold afterConflict
  split <;> trivial

/-- A statement leads to what is backed. -/
theorem phaseBacked_nextPhase {st : ScanStore} {args : KickArgs} {phase : CallPhase}
    (h : PhaseBacked st args phase) : PhaseBacked st args (nextPhase st args phase) := by
  cases phase with
  | lookup =>
      unfold nextPhase
      cases hkick : st.findKick args.orgId args.idempotencyKey with
      | some kick => exact backed_of_findKick hkick
      | none => trivial
  | lookupScan kick =>
      unfold nextPhase
      simp only
      cases hscan : st.findScan args.orgId kick.scanId with
      | some scan =>
          change Backed st args scan.id
          rw [id_of_findScan hscan]
          exact h
      | none => trivial
  | insertScan =>
      unfold nextPhase
      simp only
      split
      · trivial
      · exact phaseBacked_afterConflict st args
  | insertJobs =>
      unfold nextPhase
      simp only
      split
      · trivial
      · exact phaseBacked_afterConflict st args
  | lookupAgain =>
      unfold nextPhase
      cases hkick : st.findKick args.orgId args.idempotencyKey with
      | some kick => exact backed_of_findKick hkick
      | none => trivial
  | replay scan => exact h
  | dispatch =>
      change Backed st args ((st.findScan args.orgId args.scanId).getD args.scanRow).id
      cases hscan : st.findScan args.orgId args.scanId with
      | some scan =>
          rw [Option.getD_some, id_of_findScan hscan]
          exact h
      | none => exact h
  | insertKick => trivial
  | commit => trivial
  | returned scan isReplay => exact h
  | failed => trivial

theorem phaseBacked_afterFailure {st : ScanStore} {args : KickArgs} {phase : CallPhase}
    (h : PhaseBacked st args phase) : PhaseBacked st args (afterFailure args phase) := by
  cases phase with
  | dispatch => exact h
  | returned scan isReplay => exact h
  | lookup => trivial
  | lookupScan kick => trivial
  | insertScan => trivial
  | insertJobs => trivial
  | insertKick => trivial
  | commit => trivial
  | lookupAgain => trivial
  | replay scan => trivial
  | failed => trivial

/-- A call whose rows are committed keeps them whatever it does. -/
theorem accepted_nextPhase {st : ScanStore} {args : KickArgs} {phase : CallPhase}
    (h : phase.accepted = true) : (nextPhase st args phase).accepted = true := by
  cases phase with
  | dispatch => rfl
  | returned scan isReplay => exact h
  | lookup => cases h
  | lookupScan kick => cases h
  | insertScan => cases h
  | insertJobs => cases h
  | insertKick => cases h
  | commit => cases h
  | lookupAgain => cases h
  | replay scan => cases h
  | failed => cases h

theorem accepted_afterFailure {args : KickArgs} {phase : CallPhase} (h : phase.accepted = true) :
    (afterFailure args phase).accepted = true := by
  cases phase with
  | dispatch => rfl
  | returned scan isReplay => exact h
  | lookup => cases h
  | lookupScan kick => cases h
  | insertScan => cases h
  | insertJobs => cases h
  | insertKick => cases h
  | commit => cases h
  | lookupAgain => cases h
  | replay scan => cases h
  | failed => cases h

/-! ## The invariant -/

/-- The tables match, the calls are backed, and every scan has the call that committed
it. -/
structure Reached (w : AcceptWorld) : Prop where
  rows : KicksMatch w.store
  backed : ∀ id call, w.calls id = some call → PhaseBacked w.store call.args call.phase
  created : ∀ s ∈ w.store.scans, ∃ id call, w.creators s.id = some id ∧
    w.calls id = some call ∧ call.phase.accepted = true

theorem reached_start : Reached start where
  rows := kicksMatch_empty
  backed := by
    intro id call hcall
    cases hcall
  created := fun s hs => absurd hs (Table.not_mem_empty s)

variable {w : AcceptWorld} {id : Nat} {args : KickArgs} {phase : CallPhase}

/-- The locks are about who may go on. -/
theorem Reached.withLocks (h : Reached w) (keyLocks : Locks (OrgId × String) Nat) :
    Reached { w with keyLocks := keyLocks } :=
  ⟨h.rows, h.backed, h.created⟩

theorem reached_goTo (h : Reached w)
    (hkept : ∀ call, w.calls id = some call → call.phase.accepted = true → phase.accepted = true)
    (hbacked : PhaseBacked w.store args phase) : Reached (w.goTo id args phase) := by
  refine ⟨h.rows, ?_, ?_⟩
  · intro id' call hcall
    rcases update_some_eq_some hcall with ⟨-, rfl⟩ | ⟨-, hother⟩
    · exact hbacked
    · exact h.backed id' call hother
  · intro s hs
    obtain ⟨id', call, hcreator, hcall, haccepted⟩ := h.created s hs
    by_cases heq : id' = id
    · subst heq
      refine ⟨id', ⟨args, phase⟩, hcreator, Function.update_self _ _ _, ?_⟩
      exact hkept call hcall haccepted
    · exact ⟨id', call, hcreator, (Function.update_of_ne heq _ _).trans hcall, haccepted⟩

theorem reached_stepInsertKick (h : Reached w) (hcall : w.calls id = some ⟨args, .insertKick⟩) :
    Reached (w.stepInsertKick id args) := by
  have hkept : ∀ (phase : CallPhase) call, w.calls id = some call →
      call.phase.accepted = true → phase.accepted = true := by
    intro phase call hcall' haccepted
    obtain rfl := Option.some.inj (hcall.symm.trans hcall')
    cases haccepted
  unfold stepInsertKick
  split
  · exact h
  · split
    · exact reached_goTo (h.withLocks _) (hkept _) (phaseBacked_afterConflict _ _)
    · exact reached_goTo (h.withLocks _) (hkept _) trivial
    · exact reached_goTo h (hkept _) trivial

theorem reached_stepStatement (h : Reached w) (hcall : w.calls id = some ⟨args, phase⟩) :
    Reached (w.stepStatement id args phase) := by
  unfold stepStatement
  split
  · exact reached_stepInsertKick h hcall
  · apply reached_goTo h
    · intro call hcall' haccepted
      obtain rfl := Option.some.inj (hcall.symm.trans hcall')
      exact accepted_nextPhase haccepted
    · exact phaseBacked_nextPhase (h.backed id ⟨args, phase⟩ hcall)

theorem reached_stepCommit (h : Reached w) (hcall : w.calls id = some ⟨args, .commit⟩) :
    Reached (w.stepCommit id args) := by
  have hnotYet : ∀ id' call, w.calls id' = some call → call.phase.accepted = true → id' ≠ id := by
    intro id' call hcall' haccepted heq
    subst heq
    obtain rfl := Option.some.inj (hcall.symm.trans hcall')
    cases haccepted
  unfold stepCommit
  cases haccept : w.store.accept args with
  | none =>
      refine reached_goTo (h.withLocks _) ?_ (phaseBacked_afterConflict _ _)
      intro call hcall' haccepted
      exact absurd rfl (hnotYet id call hcall' haccepted)
  | some store =>
      obtain ⟨hscans, -, hkicks, -⟩ := accept_some haccept
      have hgrows : ∀ k ∈ w.store.kicks, k ∈ store.kicks := by
        intro k hk
        exact (Table.mem_insertMany? hkicks).mpr (Or.inr hk)
      refine ⟨kicksMatch_accept h.rows haccept, ?_, ?_⟩
      · intro id' call hcall'
        rcases update_some_eq_some hcall' with ⟨-, rfl⟩ | ⟨-, hother⟩
        · exact ⟨args.kickRow, (Table.mem_insertMany? hkicks).mpr (Or.inl List.mem_cons_self),
            rfl, rfl, rfl⟩
        · exact (h.backed id' call hother).mono hgrows
      · intro s hs
        rcases (Table.mem_insertMany? hscans).mp hs with hnew | hold
        · obtain rfl := List.mem_singleton.mp hnew
          exact ⟨id, ⟨args, .dispatch⟩, Function.update_self _ _ _, Function.update_self _ _ _, rfl⟩
        · obtain ⟨id', call, hcreator, hcall', haccepted⟩ := h.created s hold
          have hid : s.id ≠ args.scanId := ne_of_inserted hscans hold
          have hne : id' ≠ id := hnotYet id' call hcall' haccepted
          exact ⟨id', call, (Function.update_of_ne hid _ _).trans hcreator,
            (Function.update_of_ne hne _ _).trans hcall', haccepted⟩

theorem reached_step {event : AcceptEvent} (h : Reached w) : Reached (w.step event) := by
  cases event with
  | call id args =>
      unfold step
      simp only
      cases hcall : w.calls id with
      | some call => exact h
      | none =>
          refine reached_goTo h ?_ trivial
          intro call hcall'
          exact absurd (hcall.symm.trans hcall') (by simp)
  | statement id =>
      unfold step
      simp only
      cases hcall : w.calls id with
      | some call => exact reached_stepStatement h hcall
      | none => exact h
  | commit id =>
      unfold step
      simp only
      split
      · rename_i args hcall
        exact reached_stepCommit h hcall
      · exact h
  | failure id =>
      unfold step
      simp only
      cases hcall : w.calls id with
      | some call =>
          refine reached_goTo (h.withLocks _) ?_ (phaseBacked_afterFailure (h.backed id call hcall))
          intro call' hcall' haccepted
          obtain rfl := Option.some.inj (hcall.symm.trans hcall')
          exact accepted_afterFailure haccepted
      | none => exact h
  | lifecycle event =>
      have hsame := sameRows_lifecycleStep w.store event
      refine ⟨hsame.kicksMatch h.rows, ?_, ?_⟩
      · intro id call hcall
        apply (h.backed id call hcall).mono
        intro k hk
        change k ∈ (lifecycleStep w.store event).kicks
        rw [hsame.kicks]
        exact hk
      · intro s' hs'
        obtain ⟨s, hs, hid, -⟩ := hsame.scan hs'
        rw [← hid]
        exact h.created s hs

/-! ## Accepting once -/

/-- What `createScan` promises about the tables and its calls. -/
structure AcceptsOnce (w : AcceptWorld) : Prop where
  /-- At most one scan has a meter row with the key. -/
  oneScan : ∀ orgId key, ∀ k ∈ w.store.kicks, ∀ k' ∈ w.store.kicks,
    k.orgId = orgId → k.idempotencyKey = some key →
    k'.orgId = orgId → k'.idempotencyKey = some key → k.scanId = k'.scanId
  kickOfScan : ∀ s ∈ w.store.scans, ∃! k, k ∈ w.store.kicks ∧ k.scanId = s.id
  scanOfKick : ∀ k ∈ w.store.kicks, ∃ s ∈ w.store.scans, s.id = k.scanId
  jobsTotal : ∀ s ∈ w.store.scans,
    s.jobsTotal = w.store.jobs.count fun j => decide (j.scanId = s.id)
  /-- A call returns the scan that has the meter row with its key. -/
  returned : ∀ id call scan isReplay, w.calls id = some call →
    call.phase = .returned scan isReplay →
    ∃ k ∈ w.store.kicks, k.orgId = call.args.orgId ∧
      k.idempotencyKey = call.args.idempotencyKey ∧ k.scanId = scan.id
  /-- A call that failed has committed no row. -/
  failed : ∀ id call, w.calls id = some call → call.phase = .failed →
    (∀ s ∈ w.store.scans, w.creators s.id ≠ some id) ∧
      (∀ j ∈ w.store.jobs, w.creators j.scanId ≠ some id) ∧
      ∀ k ∈ w.store.kicks, w.creators k.scanId ≠ some id

theorem acceptsOnce_of_reached (h : Reached w) : AcceptsOnce w where
  oneScan := by
    intro orgId key k hk k' hk' horg hkey horg' hkey'
    rw [h.rows.onePerKey k hk k' hk' key (horg.trans horg'.symm) hkey hkey']
  kickOfScan := by
    intro s hs
    obtain ⟨k, hk, hscan⟩ := h.rows.kickOfScan s hs
    refine ⟨k, ⟨hk, hscan⟩, ?_⟩
    intro k' hk'
    exact h.rows.onePerScan k' hk'.1 k hk (hk'.2.trans hscan.symm)
  scanOfKick := h.rows.scanOfKick
  jobsTotal := h.rows.jobsTotal
  returned := by
    intro id call scan isReplay hcall hphase
    have hbacked := h.backed id call hcall
    rw [hphase] at hbacked
    exact hbacked
  failed := by
    intro id call hcall hphase
    -- a scan's creator has its rows committed
    have hscans : ∀ s ∈ w.store.scans, w.creators s.id ≠ some id := by
      intro s hs hcreator
      obtain ⟨id', call', hcreator', hcall', haccepted⟩ := h.created s hs
      obtain rfl := Option.some.inj (hcreator.symm.trans hcreator')
      obtain rfl := Option.some.inj (hcall.symm.trans hcall')
      rw [hphase] at haccepted
      cases haccepted
    refine ⟨hscans, ?_, ?_⟩
    · intro j hj
      obtain ⟨s, hs, hid, -⟩ := w.store.jobScan j hj
      rw [← hid]
      exact hscans s hs
    · intro k hk
      obtain ⟨s, hs, hid⟩ := h.rows.scanOfKick k hk
      rw [← hid]
      exact hscans s hs

/-- **`createScan` is idempotent.**  In every state of every interleaving of any calls a
key has one scan, scans and meter rows belong together one to one, `jobsTotal` counts the
jobs, every call that returns has returned the scan of its key, and a call that failed
has left nothing. -/
theorem createScan_accepts_once (events : List AcceptEvent) :
    ∀ w ∈ system.states start events, AcceptsOnce w := by
  intro w hw
  have hlegal : system.Legal start events :=
    system.legal_of_forall_allowed (fun _ _ => trivial) _ _
  apply acceptsOnce_of_reached
  exact system.forall_states_of_allSteps (fun _ _ hI _ => reached_step hI) reached_start hlegal w hw

/-- A scan without assets, under the key of a pipeline run. -/
def pipelineKick (scanId : Uuid) : KickArgs where
  orgId := "6f1c0b7e-0000-4000-8000-0000000000a1"
  scanId := scanId
  scannerType := .sca
  assets := []
  idempotencyKey := some "pipeline-42"
  occurredAt := 0

/-- Two calls look the key up before either has committed; the second waits for the key,
meets the conflict and finds the scan of the first. -/
def racedCalls : List AcceptEvent :=
  [.call 1 (pipelineKick "6f1c0b7e-0000-4000-8000-0000000000b1"),
    .call 2 (pipelineKick "6f1c0b7e-0000-4000-8000-0000000000b2"),
    .statement 1, .statement 2, .statement 1, .statement 2, .statement 1, .statement 2,
    .statement 1, .statement 2, .commit 1, .statement 2, .statement 2, .statement 2, .statement 2,
    .statement 1]

theorem createScan_accepts_once_raced : AcceptsOnce (system.run start racedCalls) :=
  createScan_accepts_once racedCalls _ (system.run_mem_states start racedCalls)

/-- Both calls return the first one's scan. -/
example : ((system.run start racedCalls).calls 2).map CreateScanCall.phase =
    some (.returned (pipelineKick "6f1c0b7e-0000-4000-8000-0000000000b1").scanRow true) := by
  rfl

end AcceptWorld

end Orchestrator
end Ctem
