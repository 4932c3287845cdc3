import Ctem.Foundation.JsCollections
import Ctem.Contracts

/-!
# Normalization of a scanner's batch

`FindingNormalizer` gives every raw finding a fingerprint, the hash of its
identity, and collapses the findings of one batch that share it.

* `identityParts` is the list of strings that is joined with `|` and hashed; each
  scanner type has its own.
* `collapseScan` keeps one row for each fingerprint, in order of first
  appearance, with the lockfile paths and dependency paths of all of them.
* `reconcileSeverity` and `promoteValidation` are the columns computed from the
  raw finding.

The hash and the upper-casing of identifiers are parameters (`Platform`): nothing
here depends on what they compute.
-/

namespace Ctem
namespace Findings

open Foundation Contracts

/-- What the runtime provides. -/
structure Platform where
  /-- `createHash('sha256').update(text).digest('hex')`. -/
  sha256Hex : String → String
  /-- `text.toUpperCase()`. -/
  toUpperCase : String → String

/-! ## Fingerprints -/

/-- `/^(cve|ghsa|osv)$/i.test(system)`. -/
def isVulnSystem (system : String) : Bool :=
  decide (asciiLower system ∈ ["cve", "ghsa", "osv"])

/-- The first identifier of the finding's own advisory. -/
def vulnIdentifier (finding : RawFinding) : Option Identifier :=
  finding.identifiers.find? fun i => isVulnSystem i.system

/-- The first identifier of the system `rule`, else the external id. -/
def ruleId (finding : RawFinding) : String :=
  ((finding.identifiers.find? fun i => decide (asciiLower i.system = "rule")).map
    Identifier.value).getD finding.externalId

/-- `name@version`, with the text `undefined` for a part that is missing. -/
def packageAtVersion (missing : String) (location : Location) : String :=
  location.packageName.getD missing ++ "@" ++ location.packageVersion.getD missing

section Fingerprint

variable (platform : Platform)

/-- The vulnerability a finding is about, upper-cased, else the external id. -/
def vulnOrExternalId (finding : RawFinding) : String :=
  ((vulnIdentifier finding).map fun i => platform.toUpperCase i.value).getD finding.externalId

/-- The strings a fingerprint joins and hashes. -/
def identityParts (assetId : Uuid) (finding : RawFinding) : List String :=
  let location := finding.location
  match finding.scannerType with
  | .iac =>
      [assetId, "iac", ruleId finding, location.path.getD "", location.resource.getD ""]
  | .container =>
      [assetId, "container", vulnOrExternalId platform finding,
        location.purl.getD (packageAtVersion "" location), location.imageLayer.getD ""]
  | .cloudPosture =>
      [assetId, "cloud_posture", ruleId finding, location.resource.getD ""]
  | .sca =>
      [assetId, "sca", vulnOrExternalId platform finding,
        location.purl.getD (packageAtVersion "undefined" location)]
  | .sast => [assetId, "sast", vulnOrExternalId platform finding, location.path.getD ""]
  | .secrets => [assetId, "secrets", vulnOrExternalId platform finding, location.path.getD ""]
  | .asm =>
      [assetId, "asm", vulnOrExternalId platform finding,
        location.resource.getD (location.url.getD ((location.port.map toString).getD ""))]

/-- `FindingNormalizer.fingerprint`. -/
def fingerprint (assetId : Uuid) (finding : RawFinding) : String :=
  platform.sha256Hex (joinWith "|" (identityParts platform assetId finding))

end Fingerprint

/-! ## Unions of locations and evidence -/

/-- The members of a location that are set, as a record. -/
def locationFields (l : Location) : JsonObject :=
  [("path", l.path.map Json.str), ("startLine", l.startLine.map fun n => Json.num n),
    ("endLine", l.endLine.map fun n => Json.num n), ("packageName", l.packageName.map Json.str),
    ("packageVersion", l.packageVersion.map Json.str),
    ("packageEcosystem", l.packageEcosystem.map Json.str), ("purl", l.purl.map Json.str),
    ("imageLayer", l.imageLayer.map Json.str), ("resource", l.resource.map Json.str),
    ("port", l.port.map fun n => Json.num n), ("url", l.url.map Json.str)].filterMap
      fun (key, value) => value.map fun v => (key, v)

/-- The non-empty strings among the values. -/
def nonEmptyStrings (values : List Json) : List String :=
  values.filterMap fun v => v.str?.filter fun s => decide (s ≠ "")

/-- A lockfile path, or a list of them. -/
def lockfilePaths : Option Json → List String
  | some (.str s) => nonEmptyStrings [.str s]
  | some (.arr values) => nonEmptyStrings values
  | _ => []

/-- The strings of a list of strings. -/
def stringList? (values : List Json) : Option (List String) :=
  values.mapM Json.str?

/-- One dependency path, or a list of them. -/
def dependencyPaths : Option Json → List (List String)
  | some (.arr []) => []
  | some (.arr values) =>
      match stringList? values with
      | some path => [path]
      | none => values.filterMap fun v =>
          match v with
          | .arr steps => stringList? steps
          | _ => none
  | _ => []

/-- `unionLockfilePaths`: the sorted union, a bare string when it is one path. -/
def unionLockfilePaths (a b : Option Json) : Option Json :=
  match sortStrings (lockfilePaths a ++ lockfilePaths b).eraseDups with
  | [] => none
  | [path] => some (.str path)
  | paths => some (.arr (paths.map Json.str))

/-- `unionDependencyPaths`: the union in order, a bare path when it is one. -/
def unionDependencyPaths (a b : Option Json) : Option Json :=
  match (dependencyPaths a ++ dependencyPaths b).eraseDups with
  | [] => none
  | [path] => some (.arr (path.map Json.str))
  | paths => some (.arr (paths.map fun path => .arr (path.map Json.str)))

/-- `{ ...existing, [key]: value }`, or `existing` when the value is undefined. -/
def assignDefined (existing : JsonObject) (key : String) : Option Json → JsonObject
  | none => existing
  | some value => existing ++ [(key, value)]

def unionLocation (existing incoming : JsonObject) : JsonObject :=
  assignDefined existing "path"
    (unionLockfilePaths (existing.get? "path") (incoming.get? "path"))

def unionEvidence (existing incoming : JsonObject) : JsonObject :=
  assignDefined existing "dependencyPath"
    (unionDependencyPaths (existing.get? "dependencyPath") (incoming.get? "dependencyPath"))

/-! ## Collapsing a batch -/

/-- What is stored after the hits of one batch with one identity are united. -/
structure CollapsedFinding where
  fingerprint : String
  finding : RawFinding
  location : JsonObject
  evidence : JsonObject

/-- The entry of a fingerprint after one more hit of it. -/
def collapseInto (fp : String) (finding : RawFinding) :
    Option CollapsedFinding → CollapsedFinding
  | none => ⟨fp, finding, locationFields finding.location, finding.evidence⟩
  | some existing =>
      { fingerprint := fp
        finding := existing.finding
        location := unionLocation existing.location (locationFields finding.location)
        evidence := unionEvidence existing.evidence finding.evidence }

section Collapse

variable (platform : Platform) (assetId : Uuid)

/-- `byFingerprint`, the map `collapseScan` fills. -/
def byFingerprint (findings : List RawFinding) : AssocMap String CollapsedFinding :=
  AssocMap.groupFold (fingerprint platform assetId)
    (fun finding => collapseInto (fingerprint platform assetId finding) finding) findings

/-- `FindingNormalizer.collapseScan`. -/
def collapseScan (findings : List RawFinding) : List CollapsedFinding :=
  (byFingerprint platform assetId findings).values

/-- Each row of the map is stored under its own fingerprint. -/
theorem byFingerprint_fingerprint (findings : List RawFinding) :
    ∀ e ∈ byFingerprint platform assetId findings, e.2.fingerprint = e.1 := by
  apply AssocMap.forall_mem_groupFold
  intro finding _ old
  cases old with
  | none => rfl
  | some existing => rfl

/-- The fingerprints of the collapsed rows are the keys of the map. -/
theorem map_fingerprint_collapseScan (findings : List RawFinding) :
    (collapseScan platform assetId findings).map CollapsedFinding.fingerprint =
      (byFingerprint platform assetId findings).keys := by
  unfold collapseScan AssocMap.values AssocMap.keys
  rw [List.map_map]
  apply List.map_congr_left
  intro e he
  exact byFingerprint_fingerprint platform assetId findings e he

/-- A batch's fingerprints are those of its findings. -/
theorem mem_fingerprints_collapseScan (findings : List RawFinding) (fp : String) :
    fp ∈ (collapseScan platform assetId findings).map CollapsedFinding.fingerprint ↔
      ∃ finding ∈ findings, fingerprint platform assetId finding = fp := by
  rw [map_fingerprint_collapseScan, byFingerprint, AssocMap.mem_keys_groupFold]

/-- One row for each fingerprint. -/
theorem nodup_fingerprints_collapseScan (findings : List RawFinding) :
    ((collapseScan platform assetId findings).map CollapsedFinding.fingerprint).Nodup := by
  rw [map_fingerprint_collapseScan]
  exact AssocMap.nodup_keys_groupFold _ _ findings

end Collapse

/-! ## Computed columns -/

/-- `reconcileSeverity`: the CVSS score decides when there is one. -/
def reconcileSeverity (finding : RawFinding) : Severity :=
  match finding.cvssScore with
  | none => finding.severity
  | some score =>
      if 9 ≤ score then .critical
      else if 7 ≤ score then .high
      else if 4 ≤ score then .medium
      else if 0 < score then .low
      else .info

/-- `readEvidenceReachability`: only a string counts. -/
def readEvidenceReachability (evidence : JsonObject) : Option String :=
  (evidence.get? "reachability").bind Json.str?

/-- `promoteScaValidation`: `none` leaves what is stored. -/
def promoteValidation (scannerType : ScannerType) (evidence : JsonObject) (kev : Bool) :
    Option ValidationVerdict :=
  if scannerType = .sca then
    match readEvidenceReachability evidence with
    | some "reachable" => some (if kev then .exploitable else .reachable)
    | some "not_reachable" => some .notReachable
    | _ => none
  else none

end Findings
end Ctem
