import Ctem.Contracts
import Ctem.Scanner.MatchLoop

/-!
# The container scanner

An image is pulled, its packages are inventoried layer by layer, and every package
is matched as the SCA scanner matches its components.  The pull and the inventory
refuse to answer in part, so they are one call each that succeeds or throws.
-/

namespace Ctem
namespace Scanner

open Foundation Contracts Intel

/-- Where a package of an image was found. -/
inductive PackageOrigin where
  | os | app
deriving DecidableEq, Repr

def PackageOrigin.name : PackageOrigin → String
  | os => "os"
  | app => "app"

structure ImagePackage where
  name : String
  version : String
  ecosystem : String
  purl : String
  path : String
  layerDigest : String
  origin : PackageOrigin

/-- The package as the matcher is asked about it. -/
def ImagePackage.matchable (pkg : ImagePackage) : MatchableComponent :=
  ⟨pkg.name, pkg.version, pkg.ecosystem⟩

structure PulledImage where
  image : String
  layers : List String

/-- How the calls of a container job turn out. -/
structure ContainerCalls where
  /-- Parse the reference, pick the registry and its credential, pull. -/
  pull : ScanJob → Except String PulledImage
  /-- `inventoryImage`. -/
  inventoryImage : PulledImage → Except String (List ImagePackage)
  /-- The deadline checks before and behind the pull. -/
  inTimeToPull : Bool
  inTimeBehindPull : Bool
  /-- The deadline check before the package of that index. -/
  inTime : Nat → Bool
  runtime : FeedRuntime
  cache : IntelCache := {}
  matcher : MatcherCalls
  scannedAt : String := ""

/-- `toFinding`. -/
def containerFinding (pkg : ImagePackage) (vuln : VulnMatch) : RawFinding where
  externalId := vuln.id ++ ":" ++ pkg.purl ++ ":" ++ pkg.layerDigest
  scannerType := .container
  scannerName := "ctem-container"
  title := vuln.id ++ " in " ++ pkg.name ++ "@" ++ pkg.version
  description := vuln.summary
  severity := vuln.severity
  identifiers := ⟨vuln.source, vuln.id⟩ :: vuln.aliases.map fun a => ⟨"alias", a⟩
  cvssVector := vuln.cvssVector
  cvssScore := vuln.cvssScore
  epssScore := vuln.epssScore
  kev := vuln.kev
  location :=
    { packageName := some pkg.name
      packageVersion := some pkg.version
      packageEcosystem := some pkg.ecosystem
      purl := some pkg.purl
      path := some pkg.path
      imageLayer := some pkg.layerDigest }
  fix :=
    { available := (nonEmpty vuln.fixedVersion).isSome
      fixedVersion := vuln.fixedVersion
      guidance := some (match nonEmpty vuln.fixedVersion with
        | some fixed => "Upgrade " ++ pkg.name ++ " to " ++ fixed
        | none => "No fixed version published yet") }
  evidence :=
    [("introducedByLayer", .str pkg.layerDigest), ("layerDigest", .str pkg.layerDigest),
      ("origin", .str pkg.origin.name), ("reachability", .str "unknown")]

/-- `TENANT_ANALYZER_KEYS`. -/
def tenantAnalyzerKeys : List String :=
  ["script", "rulesYaml", "customRules", "docker", "podman", "skopeo", "crane", "trivy", "grype",
    "syft"]

/-- `value !== undefined && value !== null && value !== ''`. -/
def presentOption : Option Json → Bool
  | none => false
  | some .null => false
  | some (.str s) => decide (s ≠ "")
  | some _ => true

/-- `tenantAnalyzerOptions`. -/
def tenantAnalyzerOptions (options : JsonObject) : List String :=
  tenantAnalyzerKeys.filter fun key => presentOption (options.get? key)

/-- `job.target.kind`, which `supports` has let through as a string. -/
def targetKind (job : ScanJob) : String :=
  ((job.target.get? "kind").bind Json.str?).getD ""

section Container

variable (calls : ContainerCalls)

/-- The loop of `scanImage`. -/
def containerLoop (packages : List ImagePackage) : Except String MatchLoop :=
  matchAll ImagePackage.matchable (matchComponent calls.runtime calls.cache calls.matcher)
    containerFinding "Job deadline exceeded during vuln match — refusing incomplete success"
    calls.inTime 0 packages {}

/-- A package in the raw output. -/
def ImagePackage.toJson (pkg : ImagePackage) : Json :=
  .obj [("name", .str pkg.name), ("version", .str pkg.version), ("ecosystem", .str pkg.ecosystem),
    ("purl", .str pkg.purl), ("layerDigest", .str pkg.layerDigest), ("path", .str pkg.path)]

/-- What `scanImage` returns. -/
def containerOutcome (job : ScanJob) (pulled : PulledImage) (packages : List ImagePackage)
    (st : MatchLoop) : ScanOutcome where
  findings := st.findings
  rawOutput := some (.obj [("image", .str pulled.image),
    ("layers", .arr (pulled.layers.map .str)),
    ("packages", .arr (packages.map ImagePackage.toJson)), ("complete", .bool true),
    ("truncated", .bool false),
    ("ignoredTenantOptions", .arr ((tenantAnalyzerOptions job.options).map .str)),
    ("scannedAt", .str calls.scannedAt)])
  stats := [("findings", st.findings.length), ("packages", packages.length),
    ("layers", pulled.layers.length), ("mirroredComponents", st.mirroredCount)]
  vulnPackagesObserved := AssocMap.values st.observed

/-- The inventory of a job: everything `execute` does before the loop. -/
def imageInventory (job : ScanJob) : Except String (PulledImage × List ImagePackage) :=
  if targetKind job = "kubernetes_workload" then
    .error ("Container scanning for 'kubernetes_workload' is not implemented — " ++
      "refusing empty success (no cluster inventory)")
  else if targetKind job ≠ "container_image" then
    .error ("Container scanning for '" ++ targetKind job ++
      "' is not implemented — refusing empty success (no layer pull, no OCI inventory)")
  else if calls.inTimeToPull = false then .error "Job deadline exceeded"
  else do
    let pulled ← calls.pull job
    if calls.inTimeBehindPull = false then
      throw "Job deadline exceeded after pull — refusing incomplete inventory"
    else
      let packages ← calls.inventoryImage pulled
      pure (pulled, packages)

/-- `ContainerScanner.execute`. -/
def containerExecute (job : ScanJob) : Except String ScanOutcome := do
  let input ← imageInventory calls job
  let st ← containerLoop calls input.2
  pure (containerOutcome calls job input.1 input.2 st)

/-- A job throws on the way to its inventory, or misses its deadline behind it. -/
def ContainerFails (job : ScanJob) : Prop :=
  (∃ message, imageInventory calls job = .error message) ∨
    ∃ input, imageInventory calls job = .ok input ∧ ∃ i < input.2.length, calls.inTime i = false

/-- A finding of a package whose lookups answered. -/
def ContainerReports (job : ScanJob) (finding : RawFinding) : Prop :=
  ∃ input, imageInventory calls job = .ok input ∧
    AnsweredFinding ImagePackage.matchable containerFinding calls.runtime calls.cache
      calls.matcher input.2 finding

/-- `execute` throws, or returns the findings of the lookups that answered. -/
theorem containerExecute_eq (job : ScanJob) :
    (ContainerFails calls job ∧ ∃ message, containerExecute calls job = .error message) ∨
      (¬ ContainerFails calls job ∧ ∃ outcome, containerExecute calls job = .ok outcome ∧
        ∀ finding, finding ∈ outcome.findings ↔ ContainerReports calls job finding) := by
  unfold containerExecute ContainerFails ContainerReports
  cases hinput : imageInventory calls job with
  | error message => exact Or.inl ⟨Or.inl ⟨message, rfl⟩, message, rfl⟩
  | ok input =>
      simp only [bind, Except.bind]
      unfold containerLoop
      rcases matchAll_lookups ImagePackage.matchable containerFinding calls.runtime calls.cache
          calls.matcher "Job deadline exceeded during vuln match — refusing incomplete success"
          calls.inTime input.2 with ⟨hlate, hloop⟩ | ⟨hall, st, hloop, hfindings⟩
      · rw [hloop]
        exact Or.inl ⟨Or.inr ⟨input, rfl, hlate⟩, _, rfl⟩
      · rw [hloop]
        refine Or.inr ⟨?_, _, rfl, ?_⟩
        · rintro (⟨message, herror⟩ | ⟨input', hinput', hlate⟩)
          · exact absurd herror (by simp)
          · rw [Except.ok.injEq] at hinput'
            subst hinput'
            exact hall hlate
        · intro finding
          rw [show (containerOutcome calls job input.1 input.2 st).findings = st.findings from rfl,
            hfindings]
          simp

end Container

end Scanner
end Ctem
