import Ctem.Scanner.ScaScanner
import Ctem.Scanner.Worker

/-!
# What a worker reads and writes in the object store

The SCA scanner reads the object its job's options name; every worker writes the raw
output of its scanner.  No other scanner is handed the store.

* `Workers` are the workers of all scanner types on one object store.
* `accesses` are the reads and writes of a job, in order.
* `run_congr`: on two stores that agree where a job looks, the job runs alike.
-/

namespace Ctem
namespace Scanner

open Foundation Contracts

/-- One access to the object store. -/
inductive StoreAccess where
  | read (key : String)
  | write (key : String)
deriving DecidableEq, Repr

def StoreAccess.key : StoreAccess → String
  | read key => key
  | write key => key

/-- The workers, with what they call. -/
structure Workers (γ : Type) where
  /-- The key text the storage client sends for an option that is no string. -/
  objectKey : Json → Except String String
  /-- The objects in the store. -/
  getJson : String → Except String StoredDocument
  putJson : String → Json → Except String Unit
  publishFindings : FindingsReportedPayload → Except String Unit
  /-- The other calls of an SCA job. -/
  sca : ScanJob → ScaCalls γ
  /-- `supports` of the other scanners; the SCA scanner takes every job. -/
  supports : ScanJob → Bool
  /-- `execute` of the other scanners. -/
  execute : ScanJob → Except String ScanOutcome

namespace Workers

variable {γ : Type} (w : Workers γ)

/-- The calls of an SCA job on this store. -/
def scaCalls (job : ScanJob) : ScaCalls γ :=
  { w.sca job with
    objectKey := w.objectKey
    getJson := w.getJson }

/-- `scanner.execute` of the scanner the job is for. -/
def executeJob (job : ScanJob) : Except String ScanOutcome :=
  if job.scannerType = .sca then scaExecute (w.scaCalls job) job else w.execute job

def workerCalls : WorkerCalls := ⟨w.executeJob, w.putJson, w.publishFindings⟩

/-- The worker of the job's scanner type runs it. -/
def takes (job : ScanJob) : Bool :=
  decide (job.scannerType = .sca) || w.supports job

/-- A delivered job: the run, unless its scanner does not support it. -/
def run (job : ScanJob) (startedAt finishedAt : Timestamp) : Option JobRun :=
  if w.takes job then some (runJob w.workerCalls job startedAt finishedAt) else none

/-- What the scanner of a job reads. -/
def reads (job : ScanJob) : List StoreAccess :=
  if job.scannerType = .sca then
    match sbomKey? job with
    | none => []
    | some value =>
        match requestKey w.objectKey value with
        | .ok key => [.read key]
        | .error _ => []
  else []

/-- What the worker writes behind the scanner. -/
def writes (job : ScanJob) : List StoreAccess :=
  match w.executeJob job with
  | .ok outcome => if outcome.rawOutput.isSome then [.write (rawOutputKey job)] else []
  | .error _ => []

/-- The accesses of a job, in order. -/
def accesses (job : ScanJob) : List StoreAccess :=
  if w.takes job then w.reads job ++ w.writes job else []

/-- The same workers on another object store. -/
def onStore (getJson : String → Except String StoredDocument)
    (putJson : String → Json → Except String Unit) : Workers γ :=
  { w with
    getJson := getJson
    putJson := putJson }

variable {w}

/-- The scanner of a job depends on no object but the one it reads. -/
theorem executeJob_congr {job : ScanJob} {getJson : String → Except String StoredDocument}
    {putJson : String → Json → Except String Unit}
    (hread : ∀ key, StoreAccess.read key ∈ w.reads job → getJson key = w.getJson key) :
    (w.onStore getJson putJson).executeJob job = w.executeJob job := by
  unfold executeJob
  by_cases hsca : job.scannerType = .sca
  · simp only [hsca, if_true]
    have hinput : resolveInput ((w.onStore getJson putJson).scaCalls job) job =
        resolveInput (w.scaCalls job) job := by
      unfold reads at hread
      simp only [hsca, if_true] at hread
      unfold resolveInput
      cases hkey : sbomKey? job with
      | none => rfl
      | some value =>
          rw [hkey] at hread
          unfold fromArtifact
          change Except.map _ ((requestKey w.objectKey value).bind fun key =>
              (getJson key).bind (parseStored (w.sca job).decode)) =
            Except.map _ ((requestKey w.objectKey value).bind fun key =>
              (w.getJson key).bind (parseStored (w.sca job).decode))
          cases hobject : requestKey w.objectKey value with
          | error message => rfl
          | ok key =>
              simp only [hobject] at hread
              simp only [Except.bind]
              rw [hread key (List.mem_singleton.mpr rfl)]
    unfold scaExecute
    rw [hinput]
    rfl
  · simp only [hsca, if_false]
    rfl

/-- On two stores that agree where a job looks, and take or refuse what it writes
alike, the job runs alike. -/
theorem run_congr {job : ScanJob} {getJson : String → Except String StoredDocument}
    {putJson : String → Json → Except String Unit}
    (hread : ∀ key, StoreAccess.read key ∈ w.accesses job → getJson key = w.getJson key)
    (hwrite : ∀ key, StoreAccess.write key ∈ w.accesses job → putJson key = w.putJson key)
    (startedAt finishedAt : Timestamp) :
    (w.onStore getJson putJson).run job startedAt finishedAt = w.run job startedAt finishedAt := by
  unfold run
  change (if w.takes job then _ else _) = _
  cases htakes : w.takes job with
  | false => rfl
  | true =>
      simp only [if_true, Option.some_inj]
      unfold accesses at hread hwrite
      simp only [htakes, if_true, List.mem_append] at hread hwrite
      have hexec : (w.onStore getJson putJson).executeJob job = w.executeJob job :=
        executeJob_congr fun key hkey => hread key (Or.inl hkey)
      have hrun : runScanner (w.onStore getJson putJson).workerCalls job =
          runScanner w.workerCalls job := by
        unfold runScanner
        change Except.bind ((w.onStore getJson putJson).executeJob job) _ =
          Except.bind (w.executeJob job) _
        rw [hexec]
        cases hok : w.executeJob job with
        | error message => rfl
        | ok outcome =>
            simp only [Except.bind]
            cases hraw : outcome.rawOutput with
            | none => rfl
            | some rawOutput =>
                have hput := hwrite (rawOutputKey job) (Or.inr (by simp [writes, hok, hraw]))
                change Except.bind (putJson (rawOutputKey job) rawOutput) _ =
                  Except.bind (w.putJson (rawOutputKey job) rawOutput) _
                rw [hput]
                rfl
      unfold runJob
      rw [hrun]

end Workers

end Scanner
end Ctem
