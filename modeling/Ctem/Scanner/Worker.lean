import Ctem.Scanner.ArtifactStore

/-!
# The scanner worker

`runJob` runs the scanner of a dispatched job, stores its raw output, publishes
the batch of findings and then reports the completion.  Anything that throws on
the way turns the run into a failed one, without a batch.
-/

namespace Ctem
namespace Scanner

open Foundation Contracts

/-- How the calls a run makes turn out: `error` is what they throw. -/
structure WorkerCalls where
  /-- `scanner.execute`. -/
  execute : ScanJob → Except String ScanOutcome
  /-- `artifacts.putJson`. -/
  putJson : String → Json → Except String Unit
  /-- `bus.publish` of the batch. -/
  publishFindings : FindingsReportedPayload → Except String Unit

/-- What a run puts on the bus. -/
structure JobRun where
  findingsReported : Option FindingsReportedPayload
  completed : ScanJobResult

/-- The key the raw output of a job is stored under. -/
def rawOutputKey (job : ScanJob) : String :=
  ArtifactStore.key job.orgId .scan [job.scanId, job.jobId ++ ".json"]

/-- The part of `runJob` inside its `try`: the artifact, then the batch. -/
def runScanner (calls : WorkerCalls) (job : ScanJob) :
    Except String (FindingsReportedPayload × ScanOutcome) := do
  let outcome ← calls.execute job
  let artifactKey ←
    match outcome.rawOutput with
    | none => pure none
    | some rawOutput => do
        calls.putJson (rawOutputKey job) rawOutput
        pure (some (rawOutputKey job))
  let batch : FindingsReportedPayload :=
    { scanId := job.scanId
      jobId := job.jobId
      assetId := job.assetId
      scannerType := job.scannerType
      artifactKey := artifactKey
      findings := outcome.findings }
  calls.publishFindings batch
  pure (batch, outcome)

/-- A run that gets through has executed the scanner, and its batch carries the
scanner's findings for the job's asset and scanner type. -/
theorem runScanner_ok {calls : WorkerCalls} {job : ScanJob} {batch : FindingsReportedPayload}
    {outcome : ScanOutcome} (h : runScanner calls job = .ok (batch, outcome)) :
    calls.execute job = .ok outcome ∧ batch.findings = outcome.findings ∧
      batch.assetId = job.assetId ∧ batch.scannerType = job.scannerType := by
  unfold runScanner at h
  obtain ⟨outcome', hexec, h⟩ := bind_eq_ok.mp h
  cases hraw : outcome'.rawOutput with
  | none =>
      simp only [hraw] at h
      obtain ⟨_, -, h⟩ := bind_eq_ok.mp h
      obtain ⟨_, -, h⟩ := bind_eq_ok.mp h
      obtain ⟨rfl, rfl⟩ := Prod.mk.inj (Except.ok.inj h)
      exact ⟨hexec, rfl, rfl, rfl⟩
  | some rawOutput =>
      simp only [hraw] at h
      obtain ⟨_, -, h⟩ := bind_eq_ok.mp h
      obtain ⟨_, -, h⟩ := bind_eq_ok.mp h
      obtain ⟨_, -, h⟩ := bind_eq_ok.mp h
      obtain ⟨rfl, rfl⟩ := Prod.mk.inj (Except.ok.inj h)
      exact ⟨hexec, rfl, rfl, rfl⟩

/-- `ScannerWorker.runJob`. -/
def runJob (calls : WorkerCalls) (job : ScanJob) (startedAt finishedAt : Timestamp) : JobRun :=
  match runScanner calls job with
  | .ok (batch, outcome) =>
      { findingsReported := some batch
        completed :=
          { jobId := job.jobId
            scanId := job.scanId
            orgId := job.orgId
            scannerType := job.scannerType
            assetId := job.assetId
            status := .succeeded
            startedAt := startedAt
            finishedAt := finishedAt
            artifactKey := batch.artifactKey
            findingCount := outcome.findings.length
            error := none
            stats := outcome.stats } }
  | .error message =>
      { findingsReported := none
        completed :=
          { jobId := job.jobId
            scanId := job.scanId
            orgId := job.orgId
            scannerType := job.scannerType
            assetId := job.assetId
            status := .failed
            startedAt := startedAt
            finishedAt := finishedAt
            artifactKey := none
            findingCount := 0
            error := some message
            stats := [] } }

section RunJob

variable (calls : WorkerCalls) (job : ScanJob) (startedAt finishedAt : Timestamp)

/-- A completion names the job it is about. -/
theorem runJob_ids :
    (runJob calls job startedAt finishedAt).completed.jobId = job.jobId ∧
      (runJob calls job startedAt finishedAt).completed.scanId = job.scanId ∧
      (runJob calls job startedAt finishedAt).completed.orgId = job.orgId := by
  unfold runJob
  split <;> exact ⟨rfl, rfl, rfl⟩

/-- A worker reports `succeeded` or `failed`, no other status. -/
theorem runJob_status :
    (runJob calls job startedAt finishedAt).completed.status = .succeeded ∨
      (runJob calls job startedAt finishedAt).completed.status = .failed := by
  unfold runJob
  split
  · exact Or.inl rfl
  · exact Or.inr rfl

/-- A completion that counts findings comes behind a batch that carries them. -/
theorem runJob_findingCount :
    (runJob calls job startedAt finishedAt).completed.findingCount =
      ((runJob calls job startedAt finishedAt).findingsReported.map
        (fun batch => batch.findings.length)).getD 0 := by
  unfold runJob
  split
  case h_1 batch outcome hrun =>
    obtain ⟨-, hfindings, -⟩ := runScanner_ok hrun
    simp [hfindings]
  case h_2 => rfl

end RunJob

end Scanner
end Ctem
