import Ctem.Foundation.Table
import Ctem.Intel.FeedMappers

/-!
# The vulnerability mirror

`vulnerabilities`, the package index `vulnerability_affects` and the freshness
rows `vuln_package_sync`, with the foreign key of the index as a field.

* `writeAdvisory` is the write path of OSV (`replace`) and GitHub (`fill`)
  advisories, `writeNvd` that of NVD records; none of them writes the enrichment
  columns.
* `mirrorPackage` is one demand-driven refresh of a package, from what the three
  feeds answered.
-/

namespace Ctem
namespace Intel

open Foundation

/-- A row of `vulnerabilities`: the feed's data and the enrichment columns. -/
structure VulnerabilityRow where
  data : VulnerabilityData
  epssScore : Option Rat := none
  epssPercentile : Option Rat := none
  kev : Bool := false
  kevDueDate : Option Nat := none

/-- The primary key. -/
def VulnerabilityRow.id (r : VulnerabilityRow) : String := r.data.id

/-- A row of `vulnerability_affects`. -/
structure AffectsRow where
  vulnId : String
  package : PackageKey
deriving DecidableEq, Repr

/-- A row of `vuln_package_sync`. -/
structure PackageSyncRow where
  package : PackageKey
  syncedAt : Nat
  advisories : Nat := 0

/-- The mirror.  An index row belongs to a vulnerability row. -/
structure MirrorStore where
  vulns : Table VulnerabilityRow VulnerabilityRow.id
  affects : Table AffectsRow (fun r => r)
  syncs : Table PackageSyncRow PackageSyncRow.package
  affectsVuln : ∀ r ∈ affects, ∃ v ∈ vulns, v.id = r.vulnId

/-! ## What the feeds answer -/

/-- `collectCves`: the CVE ids of the answers, each once. -/
def collectCves (osv : List OsvAdvisory) (ghsa : List GhsaAdvisory) : List String :=
  ((osv.flatMap fun a => (a.id :: a.aliases).filter fun id => startsWith id "CVE-") ++
    ghsa.filterMap fun a => a.cveId.filter fun id => startsWith id "CVE-").eraseDups

/-- `NVD_PER_PACKAGE`. -/
def nvdPerPackage : Nat := 15

/-- What the feeds answer to a refresh.  The GitHub query answers nothing when it
fails, and an NVD lookup that fails is skipped. -/
structure FeedAnswers where
  advisories : List OsvAdvisory
  ghsa : List GhsaAdvisory
  nvd : String → Option (NvdCve × Nat)

/-- The GitHub advisories that are not withdrawn. -/
def FeedAnswers.published (answers : FeedAnswers) : List GhsaAdvisory :=
  answers.ghsa.filter fun a => (nonEmpty a.withdrawnAt).isNone

/-! ## The tables -/

namespace MirrorStore

/-- The mirror before the first feed. -/
def empty : MirrorStore :=
  ⟨Table.empty, Table.empty, Table.empty, fun r hr => absurd hr (Table.not_mem_empty r)⟩

/-- The columns an advisory write updates; `kev` and the EPSS columns stay. -/
def withData (data : VulnerabilityData) (r : VulnerabilityRow) : VulnerabilityRow :=
  { r with data := { data with id := r.data.id } }

/-- `vulnerability.upsert`. -/
def upsertVuln (st : MirrorStore) (data : VulnerabilityData) : MirrorStore where
  vulns := st.vulns.upsert { data := data } (withData data) (fun _ => rfl)
  affects := st.affects
  syncs := st.syncs
  affectsVuln := by
    intro r hr
    obtain ⟨v, hv, hid⟩ := st.affectsVuln r hr
    by_cases hsame : v.id = data.id
    · refine ⟨withData data v, Table.mem_upsert.mpr (Or.inr (Or.inl ⟨v, hv, hsame, rfl⟩)), ?_⟩
      exact hid
    · exact ⟨v, Table.mem_upsert.mpr (Or.inl ⟨hv, hsame⟩), hid⟩

/-- `vulnerability.update` of one row. -/
def updateVuln (st : MirrorStore) (id : String) (f : VulnerabilityRow → VulnerabilityRow)
    (hid : ∀ r, (f r).id = r.id) : MirrorStore where
  vulns := st.vulns.modify id f hid
  affects := st.affects
  syncs := st.syncs
  affectsVuln := by
    intro r hr
    obtain ⟨v, hv, hvid⟩ := st.affectsVuln r hr
    refine ⟨_, Table.mem_modify.mpr ⟨v, hv, rfl⟩, ?_⟩
    split
    · rw [hid]
      exact hvid
    · exact hvid

/-- `vulnerabilityAffects.deleteMany({ where: { vulnId } })`. -/
def dropIndex (st : MirrorStore) (vulnId : String) : MirrorStore :=
  { st with
    affects := st.affects.deleteMany fun r => decide (r.vulnId = vulnId)
    affectsVuln := fun r hr => st.affectsVuln r (Table.mem_deleteMany.mp hr).1 }

/-- `vulnerabilityAffects.createMany({ skipDuplicates: true })` for one
vulnerability; without its row the foreign key refuses the statement. -/
def addIndex (st : MirrorStore) (vulnId : String) (packages : List PackageKey) : MirrorStore :=
  match hrow : st.vulns.find? vulnId with
  | none => st
  | some v =>
      { st with
        affects := st.affects.ensureMany (packages.map fun p => ⟨vulnId, p⟩)
        affectsVuln := by
          intro r hr
          rcases Table.mem_ensureMany.mp hr with hold | hnew
          · exact st.affectsVuln r hold
          · obtain ⟨p, -, rfl⟩ := List.mem_map.mp hnew
            obtain ⟨hv, hid⟩ := Table.find?_eq_some.mp hrow
            exact ⟨v, hv, hid⟩ }

/-- The packages the index lists for a vulnerability. -/
def Indexed (st : MirrorStore) (vulnId : String) (p : PackageKey) : Prop :=
  (⟨vulnId, p⟩ : AffectsRow) ∈ st.affects

/-! ## The write paths -/

/-- Whether an advisory write may replace the affected entries. -/
inductive WriteMode where
  | replace | fill
deriving DecidableEq, Repr

/-- What `fill` writes to a row that has affected entries already. -/
def filled (data : VulnerabilityData) (existing : VulnerabilityRow) : VulnerabilityRow :=
  { existing with
    data :=
      { existing.data with
        summary := if existing.data.summary = "" then data.summary else existing.data.summary
        details := if existing.data.details = "" then data.details else existing.data.details
        severity :=
          if existing.data.cvssScore.isSome then existing.data.severity else data.severity
        cvssVector := existing.data.cvssVector.or data.cvssVector
        cvssScore := existing.data.cvssScore.or data.cvssScore
        publishedAt := existing.data.publishedAt.or data.publishedAt
        modifiedAt := data.modifiedAt.or existing.data.modifiedAt
        aliases := (existing.data.aliases ++ data.aliases).eraseDups } }

/-- The transaction that replaces a row and its index. -/
def replaceAdvisory (st : MirrorStore) (data : VulnerabilityData) (packages : List PackageKey) :
    MirrorStore :=
  ((st.upsertVuln data).dropIndex data.id).addIndex data.id packages

/-- `writeAdvisory`. -/
def writeAdvisory (st : MirrorStore) (data : VulnerabilityData) (packages : List PackageKey)
    (mode : WriteMode) : MirrorStore :=
  match mode, st.vulns.find? data.id with
  | .fill, some existing =>
      if existing.data.affected.isEmpty then st.replaceAdvisory data packages
      else (st.updateVuln data.id (filled data) (fun _ => rfl)).addIndex data.id packages
  | _, _ => st.replaceAdvisory data packages

/-- What `writeNvd` writes to a row it finds: never its affected entries. -/
def nvdOver (data : VulnerabilityData) (existing : VulnerabilityRow) : VulnerabilityRow :=
  { existing with
    data :=
      { existing.data with
        summary := if data.summary = "" then existing.data.summary else data.summary
        details := if data.details = "" then existing.data.details else data.details
        severity := if data.cvssScore.isSome then data.severity else existing.data.severity
        cvssVector := data.cvssVector.or existing.data.cvssVector
        cvssScore := data.cvssScore.or existing.data.cvssScore
        publishedAt := data.publishedAt.or existing.data.publishedAt
        modifiedAt := data.modifiedAt.or existing.data.modifiedAt
        references := data.references
        source :=
          if existing.data.source = "OSV" ∨ existing.data.source = "GHSA" then
            existing.data.source
          else "NVD" } }

/-- The official score laid over an advisory that aliases the record. -/
def scoreOver (data : VulnerabilityData) (existing : VulnerabilityRow) : VulnerabilityRow :=
  { existing with
    data :=
      { existing.data with
        cvssScore := data.cvssScore
        cvssVector := data.cvssVector
        severity := data.severity } }

/-- The advisories without a score that alias the record. -/
def unscoredAliases (st : MirrorStore) (id : String) : List String :=
  (st.vulns.rows.filter fun r =>
    decide (id ∈ r.data.aliases) && r.data.cvssScore.isNone).map VulnerabilityRow.id

/-- `writeNvd`, which the caller may see fail behind its first write: `overlaid`
is how many of the advisories that alias the record were still reached. -/
def writeNvd (st : MirrorStore) (data : VulnerabilityData) (overlaid : Nat) : MirrorStore :=
  let written :=
    match st.vulns.find? data.id with
    | some _ => st.updateVuln data.id (nvdOver data) (fun _ => rfl)
    | none => st.upsertVuln data
  match data.cvssScore with
  | none => written
  | some _ =>
      ((written.unscoredAliases data.id).take overlaid).foldl
        (fun st id => st.updateVuln id (scoreOver data) (fun _ => rfl)) written

/-! ## One refresh of a package -/

section MirrorPackage

variable (runtime : FeedRuntime)

def writeOsv (st : MirrorStore) (advisory : OsvAdvisory) : MirrorStore :=
  st.writeAdvisory (advisoryToRow runtime advisory) (advisoryAffects advisory) .replace

def writeGhsa (st : MirrorStore) (advisory : GhsaAdvisory) : MirrorStore :=
  st.writeAdvisory (ghsaToRow runtime advisory) (ghsaAffects runtime advisory) .fill

/-- One NVD lookup of `enrichFromNvd`. -/
def enrichCve (answers : FeedAnswers) (st : MirrorStore) (cve : String) : MirrorStore :=
  match answers.nvd cve with
  | none => st
  | some (doc, overlaid) => st.writeNvd (nvdToRow runtime doc) overlaid

/-- The sync row of a refresh. -/
def syncRow (p : PackageKey) (now advisories : Nat) : PackageSyncRow := ⟨p, now, advisories⟩

/-- `mirrorPackage`, when its queries succeed. -/
def mirrorPackage (st : MirrorStore) (p : PackageKey) (answers : FeedAnswers) (now : Nat) :
    MirrorStore :=
  let osv := answers.advisories.foldl (writeOsv runtime) st
  let ghsa := answers.published.foldl (writeGhsa runtime) osv
  let cves := (collectCves answers.advisories answers.published).take nvdPerPackage
  let nvd := cves.foldl (enrichCve runtime answers) ghsa
  let count := answers.advisories.length + answers.published.length
  { nvd with
    syncs := nvd.syncs.upsert (syncRow p now count)
      (fun r => { r with syncedAt := now, advisories := count }) (fun _ => rfl) }

end MirrorPackage

end MirrorStore

end Intel
end Ctem
