import Ctem.Foundation.Json

/-!
# Shared contracts

The enumerations and the payloads the services exchange.  Identifiers are UUID
strings and times are milliseconds; the enumerations carry the words the
database columns and the events spell them with.

* A `ScanJob` is everything a worker needs; a `ScanJobResult` is what it reports
  back when the job ends, and `FindingsReportedPayload` is the batch it publishes
  before that.
* A `RawFinding` is what a scanner emits.
-/

namespace Ctem
namespace Contracts

open Foundation

abbrev Uuid := String

abbrev OrgId := String

/-- Milliseconds since the epoch. -/
abbrev Timestamp := Nat

/-! ## Enumerations -/

/-- One scanner family per discovery surface. -/
inductive ScannerType where
  | sca | sast | container | iac | secrets | asm | cloudPosture
deriving DecidableEq, Repr

/-- The word the columns and events spell the scanner type with. -/
def ScannerType.name : ScannerType → String
  | sca => "sca"
  | sast => "sast"
  | container => "container"
  | iac => "iac"
  | secrets => "secrets"
  | asm => "asm"
  | cloudPosture => "cloud_posture"

/-- Status of a scan and of a job. -/
inductive ScanStatus where
  | queued | running | succeeded | partialScan | failed | cancelled
deriving DecidableEq, Repr

/-- Nothing is left to run: the gates stop answering `pending`. -/
def ScanStatus.terminal : ScanStatus → Bool
  | queued => false
  | running => false
  | _ => true

inductive ScanTrigger where
  | scheduled | manual | webhook | ci | assetCreated | feedUpdate
deriving DecidableEq, Repr

inductive Severity where
  | critical | high | medium | low | info
deriving DecidableEq, Repr

/-- `SEVERITY_ORDER`. -/
def severityOrder : Severity → Nat
  | .critical => 5
  | .high => 4
  | .medium => 3
  | .low => 2
  | .info => 1

inductive FindingState where
  | open | triaged | inProgress | resolved | riskAccepted | falsePositive | suppressed
deriving DecidableEq, Repr

/-- `state in ('open', 'triaged', 'in_progress')`: the states the gates look at
and auto-resolution closes. -/
def FindingState.unresolved : FindingState → Bool
  | .open | .triaged | .inProgress => true
  | _ => false

inductive ValidationVerdict where
  | notValidated | reachable | notReachable | exploitable | notExploitable | compensatingControl
deriving DecidableEq, Repr

/-! ## Findings as scanners report them -/

/-- A CVE, GHSA, CWE or rule id with the system it belongs to. -/
structure Identifier where
  system : String
  value : String
deriving DecidableEq, Repr

structure Location where
  path : Option String := none
  startLine : Option Int := none
  endLine : Option Int := none
  packageName : Option String := none
  packageVersion : Option String := none
  packageEcosystem : Option String := none
  purl : Option String := none
  imageLayer : Option String := none
  resource : Option String := none
  port : Option Int := none
  url : Option String := none
deriving DecidableEq, Repr

structure Fix where
  available : Bool := false
  fixedVersion : Option String := none
  guidance : Option String := none
deriving DecidableEq, Repr

/-- A raw finding is what a scanner emits. -/
structure RawFinding where
  externalId : String
  scannerType : ScannerType
  scannerName : String
  title : String
  description : String := ""
  severity : Severity
  identifiers : List Identifier := []
  cvssVector : Option String := none
  cvssScore : Option Rat := none
  epssScore : Option Rat := none
  kev : Bool := false
  location : Location := {}
  fix : Fix := {}
  evidence : JsonObject := []
  raw : JsonObject := []

/-! ## Jobs and their results -/

/-- Everything a worker needs to do its job. -/
structure ScanJob where
  jobId : Uuid
  scanId : Uuid
  orgId : OrgId
  scannerType : ScannerType
  assetId : Uuid
  target : JsonObject
  credentialRef : Option String := none
  options : JsonObject := []
  attempt : Nat := 1

structure ScanJobResult where
  jobId : Uuid
  scanId : Uuid
  orgId : OrgId
  scannerType : ScannerType
  assetId : Uuid
  status : ScanStatus
  startedAt : Timestamp
  finishedAt : Timestamp
  artifactKey : Option String := none
  findingCount : Nat := 0
  error : Option String := none
  stats : List (String × Rat) := []

/-- The batch a worker publishes before its completion event. -/
structure FindingsReportedPayload where
  scanId : Uuid
  jobId : Uuid
  assetId : Uuid
  scannerType : ScannerType
  artifactKey : Option String
  findings : List RawFinding

/-- What `execute` of a scanner returns. -/
structure ScanOutcome where
  findings : List RawFinding
  rawOutput : Option Json := none
  stats : List (String × Rat) := []
  vulnPackagesObserved : List (String × String) := []

end Contracts
end Ctem
