import Ctem.Foundation.ZodRoundTrip
import Ctem.Orchestrator.ScanRequests

/-!
# The schemas of the events

The payload schema of every subject, in the words of the contracts.

The expression of `z.string().email()` is a parameter.

`eventSchemas_wellFormed`: a value that may be missing is never one that its JSON leaves out.
-/

namespace Ctem
namespace Events

open Foundation Foundation.Zod Orchestrator

/-! ## Building blocks -/

/-- `z.string()`. -/
def anyString : Schema := .string fun _ => true

/-- `z.string().min(1)`. -/
def nonEmptyString : Schema := .string fun s => decide (s ≠ "")

/-- `z.string().uuid()`. -/
def uuid : Schema := .string isUuid

/-- `z.enum(words)`. -/
def oneOf (words : List String) : Schema := .string fun s => decide (s ∈ words)

/-- `z.number()`. -/
def anyNumber : Schema := .number fun _ => true

/-- `z.number().min(low).max(high)`. -/
def numberBetween (low high : Rat) : Schema :=
  .number fun n => (JsNumber.finite low).le n && n.le (.finite high)

/-- `z.number().int()`. -/
def isInteger : JsNumber → Bool
  | .finite n => n.isInt
  | _ => false

def anyInteger : Schema := .number isInteger

/-- `z.number().int().min(low)`. -/
def integerFrom (low : Rat) : Schema :=
  .number fun n => isInteger n && (JsNumber.finite low).le n

/-- `z.array(element)`. -/
def arrayOf (element : Schema) : Schema := .array element fun _ => true

/-- `inner.nullable().default(null)`. -/
def orNull (inner : Schema) : Schema := .default .null (.nullable inner)

/-- `z.boolean().default(false)`. -/
def orFalse : Schema := .default (.bool false) .boolean

/-- `z.object(shape)`. -/
def objectOf (shape : List (String × Schema)) : Schema := .object (Shape.ofList shape)

def auditMeta : List (String × Schema) :=
  [("createdAt", .coerceDate), ("updatedAt", .coerceDate)]

def severity : Schema := oneOf ["critical", "high", "medium", "low", "info"]

def scannerType : Schema :=
  oneOf ["sca", "sast", "container", "iac", "secrets", "asm", "cloud_posture"]

/-! ## Assets -/

def assetKind : Schema :=
  oneOf ["repository", "package", "container_image", "cloud_resource", "kubernetes_workload",
    "host", "domain", "ip_range", "web_application", "api_endpoint", "saas_app", "iac_stack"]

def exposureClass : Schema := oneOf ["internet_facing", "internal", "isolated", "unknown"]

def businessCriticality : Schema := oneOf ["tier0", "tier1", "tier2", "tier3", "unknown"]

def dataClassification : Schema := oneOf ["pii", "phi", "pci", "secrets", "public", "unknown"]

def assetSource : Schema :=
  oneOf ["github", "gitlab", "bitbucket", "aws", "azure", "gcp", "kubernetes", "ecr", "ghcr", "gcr",
    "acr", "dockerhub", "quay", "dns_enum", "cert_transparency", "port_scan", "manual", "api"]

def asset (isEmail : String → Bool) : Schema :=
  objectOf ([("id", uuid), ("orgId", uuid), ("kind", assetKind), ("externalKey", nonEmptyString),
    ("name", nonEmptyString), ("source", assetSource),
    ("exposure", .default (.str "unknown") exposureClass),
    ("criticality", .default (.str "unknown") businessCriticality),
    ("dataClasses", .default (.arr []) (arrayOf dataClassification)),
    ("ownerTeam", orNull anyString), ("ownerEmail", orNull (.string isEmail)),
    ("tags", .default (.obj []) (.record anyString)), ("attributes", .unknownRecord true),
    ("firstSeenAt", .coerceDate), ("lastSeenAt", .coerceDate), ("archivedAt", orNull .coerceDate),
    ("integrationId", orNull uuid)] ++ auditMeta)

def assetArchived : Schema := objectOf [("assetId", uuid)]

/-! ## Scans -/

def scanStatus : Schema :=
  oneOf ["queued", "running", "succeeded", "partial", "failed", "cancelled"]

def scanRequestedPayload : Schema :=
  objectOf [("scanId", uuid), ("scannerType", anyString), ("assetSelector", .unknownRecord false),
    ("options", .unknownRecord true)]

def scanJob : Schema :=
  objectOf [("jobId", uuid), ("scanId", uuid), ("orgId", uuid), ("scannerType", scannerType),
    ("assetId", uuid), ("target", .unknownRecord false), ("credentialRef", orNull anyString),
    ("options", .unknownRecord true), ("attempt", .default (.num (.finite 1)) (integerFrom 1)),
    ("deadlineAt", .coerceDate), ("traceId", anyString)]

def scanJobResult : Schema :=
  objectOf [("jobId", uuid), ("scanId", uuid), ("orgId", uuid), ("scannerType", scannerType),
    ("assetId", uuid), ("status", scanStatus), ("startedAt", .coerceDate),
    ("finishedAt", .coerceDate), ("artifactKey", orNull anyString),
    ("findingCount", .default (.num (.finite 0)) (integerFrom 0)), ("error", orNull anyString),
    ("stats", .default (.obj []) (.record anyNumber))]

def scanCompleted : Schema := objectOf [("scanId", uuid), ("status", anyString)]

/-! ## Findings -/

def identifiers : Schema :=
  .default (.arr []) (arrayOf (objectOf [("system", anyString), ("value", anyString)]))

def rawFinding : Schema :=
  objectOf [("externalId", anyString), ("scannerType", scannerType), ("scannerName", anyString),
    ("title", anyString), ("description", .default (.str "") anyString), ("severity", severity),
    ("identifiers", identifiers), ("cvssVector", orNull anyString),
    ("cvssScore", orNull (numberBetween 0 10)), ("epssScore", orNull (numberBetween 0 1)),
    ("kev", orFalse),
    ("location", .default (.obj []) (objectOf [("path", .optional anyString),
      ("startLine", .optional anyInteger), ("endLine", .optional anyInteger),
      ("packageName", .optional anyString), ("packageVersion", .optional anyString),
      ("packageEcosystem", .optional anyString), ("purl", .optional anyString),
      ("imageLayer", .optional anyString), ("resource", .optional anyString),
      ("port", .optional anyInteger), ("url", .optional anyString)])),
    ("fix", .default (.obj [("available", .bool false)]) (objectOf [("available", orFalse),
      ("fixedVersion", .optional anyString), ("guidance", .optional anyString)])),
    ("evidence", .unknownRecord true), ("raw", .unknownRecord true)]

def findingsReportedPayload : Schema :=
  objectOf [("scanId", uuid), ("jobId", uuid), ("assetId", uuid), ("scannerType", anyString),
    ("artifactKey", .nullable anyString), ("findings", arrayOf rawFinding)]

def findingState : Schema :=
  oneOf ["open", "triaged", "in_progress", "resolved", "risk_accepted", "false_positive",
    "suppressed"]

def validationVerdict : Schema :=
  oneOf ["not_validated", "reachable", "not_reachable", "exploitable", "not_exploitable",
    "compensating_control"]

def finding : Schema :=
  objectOf ([("id", uuid), ("orgId", uuid), ("assetId", uuid), ("fingerprint", anyString),
    ("scannerType", scannerType), ("title", anyString), ("description", anyString),
    ("severity", severity), ("riskScore", .default (.num (.finite 0)) (numberBetween 0 100)),
    ("state", .default (.str "open") findingState),
    ("validation", .default (.str "not_validated") validationVerdict),
    ("identifiers", identifiers), ("cvssScore", orNull anyNumber), ("epssScore", orNull anyNumber),
    ("kev", orFalse), ("location", .unknownRecord true), ("fixAvailable", orFalse),
    ("fixedVersion", orNull anyString), ("slaDueAt", orNull .coerceDate),
    ("firstSeenAt", .coerceDate), ("lastSeenAt", .coerceDate), ("resolvedAt", orNull .coerceDate),
    ("ticketRef", orNull anyString)] ++ auditMeta)

def findingStateChanged : Schema :=
  objectOf [("findingId", uuid), ("from", anyString), ("to", anyString), ("actor", anyString)]

/-! ## Risk, policies and notifications -/

def riskRescoreRequested : Schema := objectOf [("findingIds", arrayOf uuid)]

def vulnPackagesObservedPayload : Schema :=
  objectOf [("packages",
    .array (objectOf [("ecosystem", nonEmptyString), ("name", nonEmptyString)])
      fun length => decide (1 ≤ length) && decide (length ≤ 500))]

def policyViolatedPayload : Schema :=
  objectOf [("findingId", uuid), ("policyId", uuid), ("actions", arrayOf anyString)]

def slaBreached : Schema := objectOf [("findingId", uuid), ("dueAt", .coerceDate)]

def notificationRequestedPayload : Schema :=
  objectOf [("channel", oneOf ["slack", "email", "webhook", "jira", "servicenow", "github_issue"]),
    ("template", anyString), ("target", anyString), ("data", .unknownRecord false)]

/-! ## Subjects -/

/-- `SUBJECTS`. -/
inductive Subject where
  | assetDiscovered | assetUpdated | assetArchived
  | scanRequested | scanJobDispatched | scanJobCompleted | scanCompleted
  | findingsReported | findingCreated | findingUpdated | findingResolved | findingStateChanged
  | riskRescoreRequested | vulnPackagesObserved | policyViolated | slaBreached
  | notificationRequested
deriving DecidableEq, Repr

def Subject.name : Subject → String
  | assetDiscovered => "ctem.asset.discovered"
  | assetUpdated => "ctem.asset.updated"
  | assetArchived => "ctem.asset.archived"
  | scanRequested => "ctem.scan.requested"
  | scanJobDispatched => "ctem.scan.job.dispatched"
  | scanJobCompleted => "ctem.scan.job.completed"
  | scanCompleted => "ctem.scan.completed"
  | findingsReported => "ctem.finding.reported"
  | findingCreated => "ctem.finding.created"
  | findingUpdated => "ctem.finding.updated"
  | findingResolved => "ctem.finding.resolved"
  | findingStateChanged => "ctem.finding.state_changed"
  | riskRescoreRequested => "ctem.risk.rescore_requested"
  | vulnPackagesObserved => "ctem.risk.vuln_packages_observed"
  | policyViolated => "ctem.policy.violated"
  | slaBreached => "ctem.policy.sla_breached"
  | notificationRequested => "ctem.notification.requested"

/-- `EVENT_SCHEMAS`. -/
def eventSchemas (isEmail : String → Bool) : Subject → Schema
  | .assetDiscovered => asset isEmail
  | .assetUpdated => asset isEmail
  | .assetArchived => assetArchived
  | .scanRequested => scanRequestedPayload
  | .scanJobDispatched => scanJob
  | .scanJobCompleted => scanJobResult
  | .scanCompleted => scanCompleted
  | .findingsReported => findingsReportedPayload
  | .findingCreated => finding
  | .findingUpdated => finding
  | .findingResolved => finding
  | .findingStateChanged => findingStateChanged
  | .riskRescoreRequested => riskRescoreRequested
  | .vulnPackagesObserved => vulnPackagesObservedPayload
  | .policyViolated => policyViolatedPayload
  | .slaBreached => slaBreached
  | .notificationRequested => notificationRequestedPayload

/-- No schema of an event takes a value that its JSON leaves out for one that is there. -/
theorem eventSchemas_wellFormed (isEmail : String → Bool) (subject : Subject) :
    (eventSchemas isEmail subject).wellFormed = true := by
  cases subject <;> rfl

end Events
end Ctem
