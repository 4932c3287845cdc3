import Ctem.Findings.Ingest
import Ctem.Scanner.Worker
import Ctem.Scanner.ScaScanner
import Ctem.Scanner.ContainerScanner
import Ctem.Scanner.AsmScanner
import Ctem.Scanner.SourceScanners

/-!
# Scans that could not look

A lookup that ends in an error or a limit contributes no finding, and the batch
does not say so; the ingest then resolves what the batch does not carry.

* `ScannerRun` is a scanner with the calls of one job; `Reports` and `Fails` say what
  its job reports and when it throws (`ScannerRun.execute_eq`).
* `Blind` are the finding rows of a component, a manifest, a file or a host that the
  job could not look up.
* `blind_scan_keeps_iff`: which of them stay open.
-/

namespace Ctem
namespace Scanner

open Foundation Contracts Findings Intel

/-! ## The scanners -/

/-- A scanner and the calls of one job of it. -/
inductive ScannerRun (γ : Type) where
  | sca (calls : ScaCalls γ)
  | container (calls : ContainerCalls)
  | asm (calls : AsmCalls)
  | sast (calls : SastCalls)
  | iac (calls : IacCalls)

namespace ScannerRun

variable {γ : Type}

def execute : ScannerRun γ → ScanJob → Except String ScanOutcome
  | sca calls => scaExecute calls
  | container calls => containerExecute calls
  | asm calls => asmExecute calls
  | sast calls => sastExecute calls
  | iac calls => iacExecute calls

/-- The job throws. -/
def Fails : ScannerRun γ → ScanJob → Prop
  | sca calls => ScaFails calls
  | container calls => ContainerFails calls
  | asm calls => AsmFails calls
  | sast calls => SastFails calls
  | iac calls => IacFails calls

/-- Some lookup of the job that answered gives rise to the finding. -/
def Reports : ScannerRun γ → ScanJob → RawFinding → Prop
  | sca calls => ScaReports calls
  | container calls => ContainerReports calls
  | asm calls => AsmReports calls
  | sast calls => SastReports calls
  | iac calls => IacReports calls

/-- A job throws, or its findings are those of the lookups that answered. -/
theorem execute_eq (scanner : ScannerRun γ) (job : ScanJob) :
    (scanner.Fails job ∧ ∃ message, scanner.execute job = .error message) ∨
      (¬ scanner.Fails job ∧ ∃ outcome, scanner.execute job = .ok outcome ∧
        ∀ finding, finding ∈ outcome.findings ↔ scanner.Reports job finding) := by
  cases scanner with
  | sca calls =>
      rcases scaExecute_eq calls job with hfails | ⟨hok, -, outcome, -, hexec, -, hfindings⟩
      · exact Or.inl hfails
      · exact Or.inr ⟨hok, outcome, hexec, hfindings⟩
  | container calls => exact containerExecute_eq calls job
  | asm calls => exact asmExecute_eq calls job
  | sast calls => exact sastExecute_eq calls job
  | iac calls => exact iacExecute_eq calls job

end ScannerRun

/-! ## What could not be looked up -/

/-- The finding is about a version of a package. -/
def OfPackage (r : FindingRow) (c : MatchableComponent) : Prop :=
  (r.location.get? "packageName").bind Json.str? = some c.name ∧
    (r.location.get? "packageVersion").bind Json.str? = some c.version ∧
    (r.location.get? "packageEcosystem").bind Json.str? = some c.ecosystem

/-- The finding is about a file. -/
def OfPath (r : FindingRow) (path : String) : Prop :=
  path ∈ lockfilePaths (r.location.get? "path")

/-- The finding is about a file below a directory. -/
def BelowDir (r : FindingRow) (dir : List String) : Prop :=
  ∃ rest, rest ≠ [] ∧ OfPath r (joinWith "/" (dir ++ rest))

/-- The finding is about a host. -/
def OfHost (r : FindingRow) (host : String) : Prop :=
  (r.location.get? "url").bind Json.str? = some host

/-- The names a job probes: its target's host and the names under it. -/
def ProbedHost (calls : AsmCalls) (job : ScanJob) (host : String) : Prop :=
  ∃ probes, asmProbes calls job = .ok probes ∧ ∃ p ∈ probes.1 :: probes.2.2, p.host = host

/-- The finding rows the job could not look up the subject of: some lookup of the
component or host ends in an error, the manifest or source file cannot be read or
parsed, the file lies in a directory the walk has not looked into, or the host is one
the enumeration missed. -/
inductive Blind {γ : Type} : ScannerRun γ → ScanJob → FindingRow → Prop where
  | component {calls : ScaCalls γ} {job : ScanJob} {r : FindingRow}
      (input : List ResolvedComponent × Option γ) (c : ResolvedComponent)
      (hinput : resolveInput calls job = .ok input) (hc : c ∈ input.1)
      (hfailed : LookupFailed calls.matcher c.matchable) (hrow : OfPackage r c.matchable) :
      Blind (.sca calls) job r
  | manifest {calls : ScaCalls γ} {job : ScanJob} {r : FindingRow} (tree : RepoTree)
      (s : SelectedLockfile) (message : String) (hkey : sbomKey? job = none)
      (htree : calls.checkout job = .ok tree)
      (hs : s ∈ selectedLockfiles calls.localeLess calls.parsers tree)
      (hfailed : parseSelected s = .error message) (hrow : OfPath r s.file.relPath) :
      Blind (.sca calls) job r
  | manifestDir {calls : ScaCalls γ} {job : ScanJob} {r : FindingRow} (tree : RepoTree)
      (dir : List String) (hkey : sbomKey? job = none) (htree : calls.checkout job = .ok tree)
      (hdir : Unlisted ignoreDirs {} tree dir) (hrow : BelowDir r dir) : Blind (.sca calls) job r
  | imagePackage {calls : ContainerCalls} {job : ScanJob} {r : FindingRow}
      (input : PulledImage × List ImagePackage) (pkg : ImagePackage)
      (hinput : imageInventory calls job = .ok input) (hpkg : pkg ∈ input.2)
      (hfailed : LookupFailed calls.matcher pkg.matchable) (hrow : OfPackage r pkg.matchable) :
      Blind (.container calls) job r
  | host {calls : AsmCalls} {job : ScanJob} {r : FindingRow} (host : String)
      (hprobed : ProbedHost calls job host) (hfailed : HostLookupFailed calls.probing host)
      (hrow : OfHost r host) : Blind (.asm calls) job r
  | missedHost {calls : AsmCalls} {job : ScanJob} {r : FindingRow} (apex host message : String)
      (hapex : ProbedHost calls job apex) (hns : calls.probing.resolveNs apex = .failed message)
      (hunder : underApex apex host = true) (hmissed : ¬ ProbedHost calls job host)
      (hrow : OfHost r host) : Blind (.asm calls) job r
  | cappedHost {calls : AsmCalls} {job : ScanJob} {r : FindingRow} (apex host : String)
      (fromCt : List String) (hapex : ProbedHost calls job apex)
      (hct : collectCrtShNames calls.probing apex = .ok fromCt)
      (hcapped : host ∈ (discoveredNames calls.probing apex fromCt).drop asmEnumMaxNames)
      (hrow : OfHost r host) : Blind (.asm calls) job r
  | sourceFile {calls : SastCalls} {job : ScanJob} {r : FindingRow} (tree : RepoTree)
      (file : RepoFile) (htree : calls.checkout job = .ok tree)
      (hfile : file ∈ sourceFiles calls tree)
      (hfailed : ∀ analysis, sastFile calls job file ≠ .ok (some analysis))
      (hrow : OfPath r file.relPath) : Blind (.sast calls) job r
  | sourceDir {calls : SastCalls} {job : ScanJob} {r : FindingRow} (tree : RepoTree)
      (dir : List String) (htree : calls.checkout job = .ok tree)
      (hdir : Unlisted ignoreDirs {} tree dir) (hrow : BelowDir r dir) : Blind (.sast calls) job r
  | iacDir {calls : IacCalls} {job : ScanJob} {r : FindingRow} (tree : RepoTree)
      (dir : List String) (htree : calls.checkout job = .ok tree)
      (hdir : Unlisted iacIgnoreDirs {} tree dir) (hrow : BelowDir r dir) :
      Blind (.iac calls) job r

/-! ## A job and its ingest -/

/-- How the worker's own calls turn out. -/
structure PublishCalls where
  putJson : String → Json → Except String Unit
  publishFindings : FindingsReportedPayload → Except String Unit

/-- The worker that runs a job with this scanner. -/
def ScannerRun.worker {γ : Type} (scanner : ScannerRun γ) (publish : PublishCalls) : WorkerCalls :=
  ⟨scanner.execute, publish.putJson, publish.publishFindings⟩

/-- The findings behind a run: its batch is ingested, if there is one. -/
def AfterJob (platform : Platform) (orgId : OrgId) (run : JobRun) (seenAt : Timestamp)
    (db db' : FindingsDb) : Prop :=
  match run.findingsReported with
  | none => db' = db
  | some batch => Ingested platform orgId batch seenAt db db'

section BlindScan

variable {γ : Type} (scanner : ScannerRun γ) (publish : PublishCalls) (job : ScanJob)

/-- The batch of a run carries what the lookups that answered found, for the job's
asset and scanner type. -/
theorem batch_findings {startedAt finishedAt : Timestamp} {batch : FindingsReportedPayload}
    (hbatch : (runJob (scanner.worker publish) job startedAt finishedAt).findingsReported =
      some batch) :
    batch.assetId = job.assetId ∧ batch.scannerType = job.scannerType ∧
      ∀ finding, finding ∈ batch.findings ↔ scanner.Reports job finding := by
  cases hrun : runScanner (scanner.worker publish) job with
  | error message => simp [runJob, hrun] at hbatch
  | ok result =>
      obtain ⟨batch', outcome⟩ := result
      have hsame : batch' = batch := by simpa [runJob, hrun] using hbatch
      subst hsame
      obtain ⟨hexec, hfindings, hasset, htype⟩ := runScanner_ok hrun
      refine ⟨hasset, htype, ?_⟩
      intro finding
      rcases scanner.execute_eq job with ⟨-, message, herror⟩ | ⟨-, outcome', hok, hreports⟩
      · change scanner.execute job = .ok outcome at hexec
        rw [herror] at hexec
        exact absurd hexec (by simp)
      · change scanner.execute job = .ok outcome at hexec
        rw [hok, Except.ok.injEq] at hexec
        subst hexec
        rw [hfindings, hreports]

/-- Behind a job, an open row it could not look up is still unresolved precisely when
the job published no batch, the row is not of the job's asset and scanner type, or a
lookup that answered reports its fingerprint. -/
theorem row_kept_iff {platform : Platform} {startedAt finishedAt seenAt : Timestamp}
    {db db' : FindingsDb}
    (hafter : AfterJob platform job.orgId
      (runJob (scanner.worker publish) job startedAt finishedAt) seenAt db db')
    {r : FindingRow} (hr : r ∈ db.findings) (hopen : r.state.unresolved = true) :
    (¬ ∃ r' ∈ db'.findings, r'.id = r.id ∧ r'.state = .resolved) ↔
      (runJob (scanner.worker publish) job startedAt finishedAt).findingsReported = none ∨
        ¬ (r.orgId = job.orgId ∧ r.assetId = job.assetId ∧ r.scannerType = job.scannerType) ∨
        ∃ finding, scanner.Reports job finding ∧
          fingerprint platform job.assetId finding = r.fingerprint := by
  unfold AfterJob at hafter
  cases hbatch : (runJob (scanner.worker publish) job startedAt finishedAt).findingsReported with
  | none =>
      rw [hbatch] at hafter
      subst hafter
      refine ⟨fun _ => Or.inl rfl, fun _ => ?_⟩
      rintro ⟨r', hr', hid, hresolved⟩
      rw [FindingsDb.eq_of_id_eq hr' hr hid] at hresolved
      rw [hresolved] at hopen
      exact absurd hopen (by decide)
  | some batch =>
      rw [hbatch] at hafter
      obtain ⟨hasset, htype, hreports⟩ := batch_findings scanner publish job hbatch
      rw [ingested_resolved_iff hafter hr hopen, hasset, htype]
      simp only [hreports]
      constructor
      · intro hkept
        by_cases hsubject : r.orgId = job.orgId ∧ r.assetId = job.assetId ∧
            r.scannerType = job.scannerType
        · right; right
          by_contra hmissing
          push Not at hmissing
          exact hkept ⟨hsubject.1, hsubject.2.1, hsubject.2.2, hmissing⟩
        · exact Or.inr (Or.inl hsubject)
      · rintro (hnone | hother | ⟨finding, hreport, hfp⟩)
        · exact absurd hnone (by simp)
        · rintro ⟨horg, hasset', htype', -⟩
          exact hother ⟨horg, hasset', htype'⟩
        · rintro ⟨-, -, -, hmissing⟩
          exact hmissing finding hreport hfp

/-- No finding of what could not be looked up is resolved behind a job precisely when
each of them is spared: the job published no batch, it is not of the job's asset and
scanner type, or a lookup that answered reports its fingerprint. -/
theorem blind_scan_keeps_iff (platform : Platform) (startedAt finishedAt seenAt : Timestamp)
    (db db' : FindingsDb)
    (hafter : AfterJob platform job.orgId
      (runJob (scanner.worker publish) job startedAt finishedAt) seenAt db db') :
    (∀ r ∈ db.findings, r.state.unresolved = true → Blind scanner job r →
      ¬ ∃ r' ∈ db'.findings, r'.id = r.id ∧ r'.state = .resolved) ↔
      ∀ r ∈ db.findings, r.state.unresolved = true → Blind scanner job r →
        (runJob (scanner.worker publish) job startedAt finishedAt).findingsReported = none ∨
          ¬ (r.orgId = job.orgId ∧ r.assetId = job.assetId ∧ r.scannerType = job.scannerType) ∨
          ∃ finding, scanner.Reports job finding ∧
            fingerprint platform job.assetId finding = r.fingerprint := by
  constructor
  · intro h r hr hopen hblind
    exact (row_kept_iff scanner publish job hafter hr hopen).mp (h r hr hopen hblind)
  · intro h r hr hopen hblind
    exact (row_kept_iff scanner publish job hafter hr hopen).mpr (h r hr hopen hblind)

end BlindScan

/-! ## An OSV outage -/

/-- An SBOM that lists lodash, read while the live query answers 500; `inTime` is
whether the deadline is still ahead. -/
def outageCalls (inTime : Bool) : ScaCalls Unit where
  objectKey := fun _ => .error "Key is no string"
  getJson := fun _ => .ok (.cyclonedx
    { components := [
        { purl := some "pkg:npm/lodash@4.17.20"
          name := "lodash"
          version := "4.17.20" }] })
  decode := .ok
  checkout := fun _ => .error "no clone"
  localeLess := fun _ _ => false
  parsers := []
  analyze := fun _ => .ok none
  verdictForComponent := fun _ _ => "unknown"
  inTime := fun _ => inTime
  runtime := ⟨fun _ => none, fun _ => "", asciiLower⟩
  matcher :=
    { findSync := fun _ => .ok none
      findAffects := fun _ => .ok []
      queryOsv := fun _ => .error "OSV query returned 500" }

def lodashJob : ScanJob where
  jobId := "j1"
  scanId := "s1"
  orgId := "org-a"
  scannerType := .sca
  assetId := "a1"
  target := []
  options := [("sbomArtifactKey", .str "org=org-a/sbom/a1/1.json")]

/-- An open finding of that lodash, from an earlier scan. -/
def lodashFinding : FindingRow where
  id := "f1"
  orgId := "org-a"
  assetId := "a1"
  fingerprint := "fp1"
  scannerType := .sca
  scannerName := "ctem-sca"
  title := "GHSA-35jh-r3h4-6jhm in lodash@4.17.20"
  severity := .high
  location := [("packageName", .str "lodash"), ("packageVersion", .str "4.17.20"),
    ("packageEcosystem", .str "npm")]

def lodashDb : FindingsDb where
  assets := ⟨[⟨"a1", "org-a", "repository", "github:acme/api", "unknown", "unknown", [], .obj [],
    none, none⟩], by decide⟩
  findings := ⟨[lodashFinding], List.nodup_singleton _⟩
  idNodup := List.nodup_singleton _
  findingAsset := by
    intro r hr
    have heq : r = lodashFinding := List.mem_singleton.mp hr
    subst heq
    exact ⟨_, List.mem_singleton.mpr rfl, rfl, rfl⟩

/-- Uploads and publishes that succeed. -/
def quietPublish : PublishCalls := ⟨fun _ _ => .ok (), fun _ => .ok ()⟩

def plainPlatform : Platform := ⟨id, id⟩

/-- A job past its deadline publishes no batch, and its blind findings stay open. -/
theorem late_job_keeps_findings :
    lodashFinding ∈ lodashDb.findings ∧
      ∀ r ∈ lodashDb.findings, r.state.unresolved = true →
        Blind (.sca (outageCalls false)) lodashJob r →
        ¬ ∃ r' ∈ lodashDb.findings, r'.id = r.id ∧ r'.state = .resolved := by
  refine ⟨List.mem_singleton.mpr rfl, ?_⟩
  exact (blind_scan_keeps_iff (.sca (outageCalls false)) quietPublish lodashJob plainPlatform 0 0 1
    lodashDb lodashDb rfl).mpr fun _ _ _ _ => Or.inl rfl

/-- The batch of the job that ran through: no finding. -/
def emptyBatch : FindingsReportedPayload where
  scanId := "s1"
  jobId := "j1"
  assetId := "a1"
  scannerType := .sca
  artifactKey := some (rawOutputKey lodashJob)
  findings := []

/-- The findings behind its ingest. -/
def outageDb : FindingsDb :=
  (IngestRun.advanceAll lodashDb (.start plainPlatform "org-a" emptyBatch 1) ["f2"]).1

/-- The live query answers 500, the job succeeds with an empty batch, and the open
finding of the package it could not look up is resolved. -/
theorem osv_outage_resolves_finding :
    lodashFinding ∈ lodashDb.findings ∧ lodashFinding.state.unresolved = true ∧
      Blind (.sca (outageCalls true)) lodashJob lodashFinding ∧
      AfterJob plainPlatform lodashJob.orgId
        (runJob ((ScannerRun.sca (outageCalls true)).worker quietPublish) lodashJob 0 0) 1 lodashDb
        outageDb ∧
      ∃ r' ∈ outageDb.findings, r'.id = lodashFinding.id ∧ r'.state = .resolved := by
  refine ⟨List.mem_singleton.mpr rfl, rfl, ?_, ?_, ?_⟩
  · refine .component _ _ rfl (List.mem_singleton.mpr rfl) ?_ ⟨rfl, rfl, rfl⟩
    exact .live "OSV query returned 500" (Or.inr fun row h => by cases h) rfl
  · have hbatch : (runJob ((ScannerRun.sca (outageCalls true)).worker quietPublish) lodashJob 0
        0).findingsReported = some emptyBatch := rfl
    unfold AfterJob
    rw [hbatch]
    exact ⟨["f2"], _, rfl, rfl⟩
  · exact ⟨autoResolved 1 lodashFinding, List.mem_singleton.mpr rfl, rfl, rfl⟩

end Scanner
end Ctem
