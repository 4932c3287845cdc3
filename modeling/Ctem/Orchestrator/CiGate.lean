import Ctem.Orchestrator.ScanGates
import Ctem.Orchestrator.ScanLifecycle
import Ctem.Findings.Ingest

/-!
# The CI gate while the scan's findings arrive

A worker publishes its batch and then its completion, and two services consume
them independently: the findings service ingests the batch one row at a time, the
orchestrator counts the completion and closes the scan.  `GateState` is both
databases with the ingests on their way; a run interleaves their transactions.

* `GateSeesAll` says of a state that a gate that answers has seen every row of
  the scan, and will not answer differently once the ingests are done.
* `ClosesAfterIngest` is the condition on a step: the completion that closes the
  scan finds the scan's ingests finished.
* `gate_sees_whole_scan`: along a run whose steps meet it, every visited state
  satisfies `GateSeesAll`.  Nothing else orders the two consumers, and
  `completion_overtakes_ingest` is a run without it.
-/

namespace Ctem
namespace Orchestrator

open Foundation Contracts Scanner Findings Policy

/-- The two databases and the scan's ingests, finished or not. -/
structure GateState where
  scans : ScanStore
  policy : PolicyDb
  ingests : List IngestRun

/-- One transaction of one of the two consumers. -/
inductive GateEvent where
  /-- The next transaction of an ingest; the database draws the id. -/
  | ingestAdvances (index : Nat) (id : Uuid)
  /-- A completion is applied. -/
  | scanJobCompleted (result : ScanJobResult) (now : Timestamp)

/-- The effect of a transaction. -/
def gateStep (s : GateState) : GateEvent → GateState
  | .ingestAdvances index id =>
      match s.ingests[index]? with
      | none => s
      | some run =>
          let (db, run') := IngestRun.advance s.policy.db run id
          { s with
            policy := { s.policy with db := db }
            ingests := s.ingests.set index run' }
  | .scanJobCompleted result now =>
      { s with scans := lifecycleStep s.scans (.scanJobCompleted result now) }

/-- What can happen while the job runs `runs` are on the bus: an ingest advances,
or a completion of one of them is delivered. -/
def gateAllowed (runs : List JobRun) (s : GateState) : GateEvent → Prop
  | .ingestAdvances _ _ => True
  | .scanJobCompleted result now =>
      (∃ run ∈ runs, result = run.completed) ∧
        lifecycle.allowed s.scans (.scanJobCompleted result now)

/-- The two consumers of the scan's job runs. -/
def gateSystem (runs : List JobRun) : System GateState GateEvent where
  step := gateStep
  allowed := gateAllowed runs

/-- The scan as `GET /scans/:id` reads it, with its jobs. -/
def ScanStore.conclusionRow (st : ScanStore) (scanId : Uuid) : Option ScanConclusionRow :=
  (st.scans.find? scanId).map fun scan =>
    { status := scan.status
      scannerType := scan.scannerType
      jobs := (st.jobs.rows.filter fun j => decide (j.scanId = scanId)).map fun j =>
        (j.assetId, some j.findingCount) }

/-- The gates of the scan in a state. -/
def GateState.gates (s : GateState) (orgId : OrgId) (scanId : Uuid) (now : Timestamp) :
    Option ScanGates :=
  (s.scans.conclusionRow scanId).map (scanGatesForScan s.policy orgId now)

/-- The ingests of the scan's batches before any of them has started. -/
def startIngests (platform : Platform) (orgId : OrgId) (seenAt : Timestamp)
    (runs : List JobRun) : List IngestRun :=
  (runs.filterMap JobRun.findingsReported).map fun batch =>
    IngestRun.start platform orgId batch seenAt

/-- Every event of the list is an ingest advancing. -/
def IngestsOnly (es : List GateEvent) : Prop :=
  ∀ e ∈ es, ∃ index id, e = .ingestAdvances index id

/-- No ingest has anything left to do. -/
def GateState.ingested (s : GateState) : Prop :=
  ∀ run ∈ s.ingests, run.finished = true

/-- A gate that answers has seen every row, and answers the same once every ingest
is done. -/
def GateSeesAll (runs : List JobRun) (orgId : OrgId) (scanId : Uuid) (s : GateState) : Prop :=
  ∀ now gates, s.gates orgId scanId now = some gates → gates.conclusion ≠ .pending →
    (∀ run ∈ s.ingests, run.rows = []) ∧
      ∀ es, IngestsOnly es → ((gateSystem runs).run s es).ingested →
        ((gateSystem runs).run s es).gates orgId scanId now = some gates

/-- The completion that closes the scan finds the scan's ingests finished. -/
def ClosesAfterIngest (scanId : Uuid) (s : GateState) : GateEvent → Prop
  | .ingestAdvances _ _ => True
  | .scanJobCompleted result _ =>
      result.scanId = scanId → ∀ scan, s.scans.scans.find? scanId = some scan →
        scan.jobsTotal ≤ scan.jobsCompleted + 1 → s.ingested

/-! ## The invariant -/

/-- The scan is still open, or everything it reported is stored. -/
def OpenOrIngested (scanId : Uuid) (s : GateState) : Prop :=
  (∃ scan, s.scans.scans.find? scanId = some scan ∧ scan.status.terminal = false) ∨ s.ingested

/-- A finished ingest does not move. -/
theorem gateStep_of_ingested {s : GateState} (h : s.ingested) (index : Nat) (id : Uuid) :
    gateStep s (.ingestAdvances index id) = s := by
  cases hrun : s.ingests[index]? with
  | none => simp only [gateStep, hrun]
  | some run =>
      have hmem : run ∈ s.ingests := List.mem_of_getElem? hrun
      have hself : s.ingests.set index run = s.ingests := by
        obtain ⟨hindex, hget⟩ := List.getElem?_eq_some_iff.mp hrun
        rw [← hget]
        exact List.set_getElem_self hindex
      simp only [gateStep, hrun, IngestRun.advance_finished s.policy.db (h run hmem) id, hself]

/-- Once the ingests are done, more of the same changes nothing. -/
theorem run_of_ingested {runs : List JobRun} {s : GateState} (h : s.ingested)
    {es : List GateEvent} (honly : IngestsOnly es) : (gateSystem runs).run s es = s := by
  induction es with
  | nil => rfl
  | cons e es ih =>
      obtain ⟨index, id, rfl⟩ := honly e List.mem_cons_self
      rw [System.run_cons]
      change (gateSystem runs).run (gateStep s (.ingestAdvances index id)) es = s
      rw [gateStep_of_ingested h index id]
      exact ih fun e he => honly e (List.mem_cons_of_mem _ he)

/-- A settlement that does not reach `jobsTotal` leaves the scan as open as it was. -/
theorem settled_status {scan : ScanRow} {failed : Nat} {now : Timestamp}
    (hnot : scan.jobsCompleted + 1 < scan.jobsTotal) :
    (scan.settled failed now).status = scan.status := by
  unfold ScanRow.settled
  rw [if_pos hnot]

/-- **One step.**  A step under the condition keeps the scan open or everything
ingested. -/
theorem openOrIngested_step {runs : List JobRun} {scanId : Uuid} {s : GateState} {e : GateEvent}
    (hinv : OpenOrIngested scanId s) (hallowed : gateAllowed runs s e)
    (hcond : ClosesAfterIngest scanId s e) : OpenOrIngested scanId (gateStep s e) := by
  cases e with
  | ingestAdvances index id =>
      rcases hinv with hopen | hdone
      · -- an ingest does not touch the scan
        left
        have hscans : (gateStep s (.ingestAdvances index id)).scans = s.scans := by
          cases hrun : s.ingests[index]? with
          | none => simp only [gateStep, hrun]
          | some run => simp only [gateStep, hrun]
        rw [hscans]
        exact hopen
      · right
        rw [gateStep_of_ingested hdone index id]
        exact hdone
  | scanJobCompleted result now =>
      rcases hinv with ⟨scan, hfind, hopen⟩ | hdone
      · obtain ⟨-, row, hrow, job, calls, startedAt, finishedAt, hjob, hresult⟩ := hallowed
        obtain ⟨-, hscanId, st', closed, scan', happly, hsettles, -⟩ :=
          applyResult_settles hrow now hjob hresult
        have hstep : (gateStep s (.scanJobCompleted result now)).scans = st' := by
          change ((s.scans.applyResult result now).map Prod.fst).getD s.scans = st'
          rw [happly]
          rfl
        by_cases hid : scanId = scan'.id
        · subst hid
          have hsame : scan = scan' :=
            Option.some_inj.mp (hfind.symm.trans hsettles.scanFound)
          subst hsame
          by_cases hlast : scan.jobsCompleted + 1 < scan.jobsTotal
          · left
            refine ⟨_, hstep ▸ hsettles.settled, ?_⟩
            rw [settled_status hlast]
            exact hopen
          · right
            exact hcond (hscanId.trans hsettles.ofScan) scan hfind (Nat.le_of_not_lt hlast)
        · left
          refine ⟨scan, ?_, hopen⟩
          rw [hstep, hsettles.others scanId hid]
          exact hfind
      · exact Or.inr hdone

/-- In a state with the invariant a gate that answers has seen everything. -/
theorem gateSeesAll_of_openOrIngested {runs : List JobRun} {orgId : OrgId} {scanId : Uuid}
    {s : GateState} (hinv : OpenOrIngested scanId s) : GateSeesAll runs orgId scanId s := by
  intro now gates hgates hanswer
  rcases hinv with ⟨scan, hfind, hopen⟩ | hdone
  · -- an open scan has pending gates
    exfalso
    unfold GateState.gates ScanStore.conclusionRow at hgates
    rw [hfind, Option.map_some, Option.map_some, Option.some_inj] at hgates
    apply hanswer
    rw [← hgates]
    unfold scanGatesForScan
    simp [hopen]
  · refine ⟨?_, ?_⟩
    · intro run hrun
      have hfinished := hdone run hrun
      unfold IngestRun.finished at hfinished
      simp only [Bool.and_eq_true, List.isEmpty_iff] at hfinished
      exact hfinished.1
    · intro es honly _
      rw [run_of_ingested hdone honly]
      exact hgates

/-- **The gate sees the whole scan.**  Take an accepted scan, any findings and
policies stored before it, the runs of its jobs and any interleaving of their
ingests with the deliveries of their completions.  If every completion that closes
the scan finds its ingests finished, then in every state visited a gate that
answers has seen every row reported and keeps its verdict. -/
theorem gate_sees_whole_scan {st₀ st : ScanStore} {args : ScanStore.KickArgs} {scan : ScanRow}
    (hkick : st₀.persistKick args = some (st, scan, false)) (platform : Platform)
    (policy : PolicyDb) (seenAt : Timestamp) {runs : List JobRun}
    (hruns : ∀ run ∈ runs, ∃ row ∈ st.jobs, row.scanId = scan.id ∧
      ∃ job calls startedAt finishedAt, DispatchedFor job row ∧
        run = runJob calls job startedAt finishedAt)
    {es : List GateEvent}
    (hlegal : (gateSystem runs).Legal ⟨st, policy, startIngests platform args.orgId seenAt runs⟩ es)
    (hcond : (gateSystem runs).AllSteps (ClosesAfterIngest scan.id)
      ⟨st, policy, startIngests platform args.orgId seenAt runs⟩ es) :
    ∀ t ∈ (gateSystem runs).states ⟨st, policy, startIngests platform args.orgId seenAt runs⟩ es,
      GateSeesAll runs args.orgId scan.id t := by
  have hinit : OpenOrIngested scan.id
      ⟨st, policy, startIngests platform args.orgId seenAt runs⟩ := by
    obtain ⟨rfl, hscans, hjobs⟩ := ScanStore.persistKick_created hkick
    by_cases hassets : args.assets = []
    · -- no asset, no job, no batch
      right
      have hnone : runs = [] := by
        apply List.eq_nil_iff_forall_not_mem.mpr
        intro run hrun
        obtain ⟨row, hrow, hscanId, -⟩ := hruns run hrun
        rw [Table.mem_insertMany? hjobs, hassets] at hrow
        rcases hrow with hnew | hold
        · exact absurd hnew (by simp)
        · obtain ⟨s, hs, hsid, -⟩ := st₀.jobScan row hold
          have hnodup := st.scans.nodup
          rw [Table.insertMany?_rows hscans, List.singleton_append, List.map_cons,
            List.nodup_cons] at hnodup
          apply hnodup.1
          rw [← hscanId, ← hsid]
          exact List.mem_map_of_mem hs
      subst hnone
      intro run hrun
      exact absurd hrun (by simp [startIngests])
    · left
      refine ⟨args.scanRow, ?_, ?_⟩
      · exact Table.find?_of_mem ((Table.mem_insertMany? hscans).mpr (by simp))
      · simp [ScanStore.KickArgs.scanRow, hassets, ScanStatus.terminal]
  have hsteps := (System.allSteps_and (gateSystem runs)).mpr ⟨hlegal, hcond⟩
  have hstates := System.forall_states_of_allSteps (gateSystem runs) (I := OpenOrIngested scan.id)
    (fun s e hI hP => openOrIngested_step hI hP.1 hP.2) hinit hsteps
  intro t ht
  exact gateSeesAll_of_openOrIngested (hstates t ht)

/-! ## A scan that finds a critical vulnerability -/

/-- The accept of an SCA scan of the repository. -/
def apiKick : ScanStore.KickArgs where
  orgId := apiAsset.orgId
  scanId := "6f1c0b7e-0000-4000-8000-0000000000aa"
  scannerType := .sca
  assets :=
    [("6f1c0b7e-0000-4000-8000-0000000000b1",
      { id := apiAsset.id, kind := apiAsset.kind, externalKey := apiAsset.externalKey,
        attributes := apiAsset.attributes })]
  occurredAt := 0

/-- The orchestrator's tables behind that accept. -/
def apiStore : ScanStore :=
  ((ScanStore.empty.persistKick apiKick).map Prod.fst).getD ScanStore.empty

/-- What the scan's only job finds. -/
def criticalFinding : RawFinding where
  externalId := "GHSA-jfh8-c2jp-5v3q"
  scannerType := .sca
  scannerName := "ctem-sca"
  title := "GHSA-jfh8-c2jp-5v3q in log-core@2.14.0"
  severity := .critical
  identifiers := [⟨"osv", "GHSA-jfh8-c2jp-5v3q"⟩]
  location :=
    { packageName := some "log-core", packageVersion := some "2.14.0",
      packageEcosystem := some "npm", purl := some "pkg:npm/log-core@2.14.0" }

/-- The run of that job. -/
def apiJobRun : JobRun :=
  runJob ⟨fun _ => .ok ⟨[criticalFinding], none, [], []⟩, fun _ _ => .ok (), fun _ => .ok ()⟩
    { jobId := "6f1c0b7e-0000-4000-8000-0000000000b1", scanId := apiKick.scanId,
      orgId := apiKick.orgId, scannerType := .sca, assetId := apiAsset.id, target := [] } 1 2

/-- SHA-256 on the one text hashed here. -/
def apiPlatform : Platform where
  sha256Hex := fun text =>
    if text = "6f1c0b7e-0000-4000-8000-0000000000c1|sca|GHSA-JFH8-C2JP-5V3Q|" ++
        "pkg:npm/log-core@2.14.0" then
      "6316f2da30bd79b9178d3cec7b1a7dcbcff8072054ef3d735a18e38e3ee3e475"
    else ""
  toUpperCase := fun text => String.ofList (text.toList.map Char.toUpper)

/-- The accepted scan, beside an open finding of low severity from an earlier one. -/
def apiGateState : GateState :=
  ⟨apiStore, apiState .low, startIngests apiPlatform apiKick.orgId 3 [apiJobRun]⟩

/-- The id the database draws for the new finding. -/
def newFindingId : Uuid := "6f1c0b7e-0000-4000-8000-0000000000f2"

/-- The batch is ingested, then the completion is applied. -/
def ingestFirst : List GateEvent :=
  [.ingestAdvances 0 newFindingId, .ingestAdvances 0 newFindingId,
    .scanJobCompleted apiJobRun.completed 4]

/-- The completion is applied before the batch is ingested. -/
def completionFirst : List GateEvent :=
  [.scanJobCompleted apiJobRun.completed 4]

/-- The rest of that run: the row, then the closing step. -/
def ingestLater : List GateEvent :=
  [.ingestAdvances 0 newFindingId, .ingestAdvances 0 newFindingId]

theorem apiKick_accepted :
    ScanStore.empty.persistKick apiKick = some (apiStore, apiKick.scanRow, false) := rfl

/-- The job's completion can be delivered as long as its row is there. -/
theorem apiJobRun_allowed {st : ScanStore} (now : Timestamp)
    (hrow : (st.jobs.find? "6f1c0b7e-0000-4000-8000-0000000000b1").map
      (fun row => (row.scanId, row.orgId)) = some (apiKick.scanId, apiKick.orgId)) :
    lifecycle.allowed st (.scanJobCompleted apiJobRun.completed now) := by
  obtain ⟨row, hfind, hids⟩ := Option.map_eq_some_iff.mp hrow
  obtain ⟨hscan, horg⟩ := Prod.mk.inj hids
  exact ⟨row, Table.find?_mem hfind, _, _, _, _,
    ⟨(Table.find?_key hfind).symm, hscan.symm, horg.symm⟩, rfl⟩

/-- Ingesting before completing keeps the gate's promise. -/
theorem ingestFirst_gate_sees_all :
    GateSeesAll [apiJobRun] apiKick.orgId apiKick.scanId
      ((gateSystem [apiJobRun]).run apiGateState ingestFirst) := by
  refine gate_sees_whole_scan apiKick_accepted apiPlatform (apiState .low) 3 ?_ ?_ ?_ _
    ((gateSystem [apiJobRun]).run_mem_states apiGateState ingestFirst)
  · intro run hrun
    rw [List.mem_singleton.mp hrun]
    exact ⟨_, List.mem_singleton.mpr rfl, rfl, _, _, _, _, ⟨rfl, rfl, rfl⟩, rfl⟩
  · exact ⟨trivial, trivial,
      ⟨⟨apiJobRun, List.mem_singleton.mpr rfl, rfl⟩, apiJobRun_allowed 4 rfl⟩, trivial⟩
  · refine ⟨trivial, trivial, ?_, trivial⟩
    intro _ scan _ _ run hrun
    rw [List.mem_singleton.mp hrun]
    rfl

/-- The completion overtakes the batch: the gate passes on the leftover finding
while the critical one is not stored, and fails once it is. -/
theorem completion_overtakes_ingest :
    (gateSystem [apiJobRun]).Legal apiGateState (completionFirst ++ ingestLater) ∧
      ((gateSystem [apiJobRun]).run apiGateState completionFirst).gates apiKick.orgId
        apiKick.scanId 5 = some ⟨.passed, .allowed⟩ ∧
      ((gateSystem [apiJobRun]).run apiGateState (completionFirst ++ ingestLater)).gates
        apiKick.orgId apiKick.scanId 5 = some ⟨.failed, .allowed⟩ ∧
      ¬ ∀ t ∈ (gateSystem [apiJobRun]).states apiGateState (completionFirst ++ ingestLater),
        GateSeesAll [apiJobRun] apiKick.orgId apiKick.scanId t := by
  have hpassed : ((gateSystem [apiJobRun]).run apiGateState completionFirst).gates apiKick.orgId
      apiKick.scanId 5 = some ⟨.passed, .allowed⟩ := by decide
  refine ⟨?_, hpassed, by decide, ?_⟩
  · exact ⟨⟨⟨apiJobRun, List.mem_singleton.mpr rfl, rfl⟩, apiJobRun_allowed 4 rfl⟩,
      trivial, trivial, trivial⟩
  · intro hall
    have hvisited : (gateSystem [apiJobRun]).run apiGateState completionFirst ∈
        (gateSystem [apiJobRun]).states apiGateState (completionFirst ++ ingestLater) :=
      List.mem_cons_of_mem _ List.mem_cons_self
    have hseen := (hall _ hvisited 5 _ hpassed (by decide)).1
    have hrows := hseen _ (List.mem_singleton.mpr rfl)
    exact absurd hrows (List.cons_ne_nil _ _)

end Orchestrator
end Ctem
