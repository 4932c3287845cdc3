import Ctem.Intel.VersionRange

/-!
# From feed documents to mirror rows

The pure mappings of the vulnerability mirror: OSV advisories, GitHub advisories
and NVD records, each to one `vulnerabilities` row and the index rows of the
packages it touches.

* `advisoryAffects` keeps one index row for each `ecosystem:package` text.
* `ghsaRangeToOsv` turns a GitHub version range into OSV events.
* `nvdToRow` has no affected entries: NVD names products, not packages.

Number parsing and lower-casing come from the runtime (`FeedRuntime`); dates stay
the texts the documents carry.
-/

namespace Ctem
namespace Intel

open Foundation

/-- What the mappings use of the runtime. -/
structure FeedRuntime where
  /-- `Number(text)`, `none` for NaN. -/
  number : String → Option Rat
  /-- `String(number)`. -/
  numberText : Rat → String
  /-- `text.toLowerCase()`. -/
  toLowerCase : String → String

/-! ## Documents and rows -/

structure OsvSeverity where
  type : Option String := none
  score : String

/-- An advisory as the OSV package query returns it. -/
structure OsvAdvisory where
  id : String
  aliases : List String := []
  summary : Option String := none
  details : Option String := none
  published : Option String := none
  modified : Option String := none
  severity : List OsvSeverity := []
  references : List String := []
  affected : List OsvAffected := []

/-- What a mapping writes to a row of `vulnerabilities`. -/
structure VulnerabilityData where
  id : String
  source : String
  aliases : List String
  summary : String
  details : String
  severity : String
  cvssVector : Option String
  cvssScore : Option Rat
  publishedAt : Option String
  modifiedAt : Option String
  references : List String
  affected : List OsvAffected

/-- A package an advisory touches. -/
structure PackageKey where
  ecosystem : String
  packageName : String
deriving DecidableEq, Repr

/-- The first characters of a text. -/
def sliceTo (n : Nat) (s : String) : String :=
  String.ofList (s.toList.take n)

/-! ## OSV -/

/-- `severityFromScore`. -/
def severityFromScore : Option Rat → String
  | none => "medium"
  | some score =>
      if 9 ≤ score then "critical"
      else if 7 ≤ score then "high"
      else if 4 ≤ score then "medium"
      else if 0 < score then "low"
      else "info"

/-- The source an advisory id tells. -/
def sourceOfId (id : String) : String :=
  if startsWith id "GHSA" then "GHSA" else if startsWith id "CVE" then "CVE" else "OSV"

/-- `advisoryToRow`. -/
def advisoryToRow (runtime : FeedRuntime) (advisory : OsvAdvisory) : VulnerabilityData :=
  let cvss := advisory.severity.find? fun s => (s.type.map fun t => startsWith t "CVSS").getD false
  let score := cvss.bind fun s => runtime.number s.score
  { id := advisory.id
    source := sourceOfId advisory.id
    aliases := advisory.aliases
    summary := advisory.summary.getD ((advisory.details.map (sliceTo 500)).getD "")
    details := advisory.details.getD ""
    severity := severityFromScore score
    cvssVector := cvss.map OsvSeverity.score
    cvssScore := score
    publishedAt := nonEmpty advisory.published
    modifiedAt := nonEmpty advisory.modified
    references := advisory.references
    affected := advisory.affected }

/-- The package of an entry that names both its parts. -/
def entryPackage (entry : OsvAffected) : Option PackageKey :=
  match nonEmpty entry.package.ecosystem, nonEmpty entry.package.name with
  | some ecosystem, some packageName => some ⟨ecosystem, packageName⟩
  | _, _ => none

/-- The map key of an index row. -/
def PackageKey.text (p : PackageKey) : String :=
  p.ecosystem ++ ":" ++ p.packageName

/-- `advisoryAffects` on the affected entries. -/
def affectsOf (affected : List OsvAffected) : List PackageKey :=
  (AssocMap.groupFold PackageKey.text (fun p _ => p) (affected.filterMap entryPackage)).values

/-- `advisoryAffects`. -/
def advisoryAffects (advisory : OsvAdvisory) : List PackageKey :=
  affectsOf advisory.affected

/-! ## GitHub -/

/-- `GHSA_TO_OSV`. -/
def ghsaToOsv : List (String × String) :=
  [("npm", "npm"), ("pip", "PyPI"), ("maven", "Maven"), ("nuget", "NuGet"),
    ("composer", "Packagist"), ("go", "Go"), ("rust", "crates.io"), ("rubygems", "RubyGems"),
    ("erlang", "Hex"), ("pub", "Pub"), ("swift", "SwiftURL"), ("actions", "GitHub Actions")]

structure GhsaVulnerability where
  package : OsvPackage := {}
  vulnerableVersionRange : Option String := none
  firstPatchedVersion : Option String := none

structure GhsaCvss where
  score : Option Rat := none
  vectorString : Option String := none

/-- A GitHub advisory. -/
structure GhsaAdvisory where
  ghsaId : String
  cveId : Option String := none
  summary : Option String := none
  description : Option String := none
  severity : Option String := none
  publishedAt : Option String := none
  updatedAt : Option String := none
  withdrawnAt : Option String := none
  cvss : GhsaCvss := {}
  references : List String := []
  vulnerabilities : List GhsaVulnerability := []

/-- One constraint of a GitHub version range. -/
inductive Constraint where
  | eq (version : String)
  | ge (version : String)
  | gt (version : String)
  | lt (version : String)
  | le (version : String)
deriving DecidableEq, Repr

/-- `\s*(.+)$` behind an operator: something that is not blank, on one line. -/
def constraintVersion (rest : List Char) (make : String → Constraint) : Option Constraint :=
  let body := rest.dropWhile isJsSpace
  if body.isEmpty then none
  else if body.any fun c => decide (c.toNat ∈ [0x0A, 0x0D, 0x2028, 0x2029]) then none
  else some (make (String.ofList (trimChars body)))

/-- `parseConstraint` on a trimmed part.  A longer operator is tried before the
shorter one it begins with. -/
def parseConstraint (part : List Char) : Option Constraint :=
  match part with
  | '>' :: '=' :: rest => (constraintVersion rest .ge).or (constraintVersion ('=' :: rest) .gt)
  | '<' :: '=' :: rest => (constraintVersion rest .le).or (constraintVersion ('=' :: rest) .lt)
  | '>' :: rest => constraintVersion rest .gt
  | '<' :: rest => constraintVersion rest .lt
  | '=' :: '=' :: rest => (constraintVersion rest .eq).or (constraintVersion ('=' :: rest) .eq)
  | '=' :: rest => constraintVersion rest .eq
  | 'v' :: d :: _ => if d.isDigit then some (.eq (String.ofList part)) else none
  | 'V' :: d :: _ => if d.isDigit then some (.eq (String.ofList part)) else none
  | d :: _ => if d.isDigit then some (.eq (String.ofList part)) else none
  | [] => none

/-- The bounds `ghsaRangeToOsv` collects. -/
structure RangeBounds where
  introduced : String := "0"
  fixed : Option String := none
  lastAffected : Option String := none
  exact : Option String := none
deriving DecidableEq, Repr

/-- One constraint entered into the bounds; a later one wins. -/
def RangeBounds.add (bounds : RangeBounds) : Constraint → RangeBounds
  | .eq version => { bounds with exact := some version }
  | .ge version => { bounds with introduced := version }
  | .gt version => { bounds with introduced := version }
  | .lt version => { bounds with fixed := some version }
  | .le version => { bounds with lastAffected := some version }

/-- The constraints of a range, in order; parts that are none are skipped. -/
def rangeConstraints (range : String) : List Constraint :=
  (((splitOn ',' range.toList).map trimChars).filter fun part => !part.isEmpty).filterMap
    parseConstraint

/-- `ghsaRangeToOsv`: versions and ranges of an entry. -/
def ghsaRangeToOsv (range patched : Option String) : List String × List OsvRange :=
  match nonEmpty (range.map trimText), nonEmpty patched with
  | none, none => ([], [])
  | none, some fixed =>
      ([], [⟨some "SEMVER", [{ introduced := some "0" }, { fixed := some fixed }]⟩])
  | some _, patched =>
      let bounds := (rangeConstraints (range.getD "")).foldl RangeBounds.add {}
      match bounds.exact, bounds.fixed, bounds.lastAffected with
      | some exact, none, none =>
          if bounds.introduced = "0" then ([exact], [])
          else
            ([], [⟨some "SEMVER", { introduced := some bounds.introduced } ::
              (patched.toList.map fun fixed => { fixed := some fixed })⟩])
      | none, none, none =>
          ([], [⟨some "SEMVER", { introduced := some bounds.introduced } ::
            (patched.toList.map fun fixed => { fixed := some fixed })⟩])
      | _, some fixed, _ =>
          ([], [⟨some "SEMVER",
            [{ introduced := some bounds.introduced }, { fixed := some fixed }]⟩])
      | _, none, some last =>
          ([], [⟨some "SEMVER",
            [{ introduced := some bounds.introduced }, { lastAffected := some last }]⟩])

/-- `ghsaEcosystemToOsv`. -/
def ghsaEcosystemToOsv (runtime : FeedRuntime) (ecosystem : Option String) : Option String :=
  (nonEmpty ecosystem).map fun e => (ghsaToOsv.lookup (runtime.toLowerCase e)).getD e

/-- `ghsaVulnerableEntries`: the entries GitHub actually constrained. -/
def ghsaVulnerableEntries (advisory : GhsaAdvisory) : List GhsaVulnerability :=
  advisory.vulnerabilities.filter fun v =>
    (nonEmpty v.package.name).isSome && (nonEmpty v.package.ecosystem).isSome &&
      ((nonEmpty (v.vulnerableVersionRange.map trimText)).isSome ||
        (nonEmpty v.firstPatchedVersion).isSome)

/-- The OSV entries of a GitHub advisory. -/
def ghsaAffected (runtime : FeedRuntime) (advisory : GhsaAdvisory) : List OsvAffected :=
  (ghsaVulnerableEntries advisory).map fun v =>
    let (versions, ranges) := ghsaRangeToOsv v.vulnerableVersionRange v.firstPatchedVersion
    { package := ⟨v.package.name, ghsaEcosystemToOsv runtime v.package.ecosystem⟩
      versions := versions
      ranges := ranges }

/-- The OSV advisory `ghsaToRow` maps on. -/
def ghsaAsOsv (runtime : FeedRuntime) (advisory : GhsaAdvisory) : OsvAdvisory where
  id := advisory.ghsaId
  aliases := (nonEmpty advisory.cveId).toList
  summary := advisory.summary
  details := advisory.description
  published := advisory.publishedAt
  modified := advisory.updatedAt
  severity := advisory.cvss.score.toList.map fun score => ⟨some "CVSS_V3", runtime.numberText score⟩
  references := advisory.references
  affected := ghsaAffected runtime advisory

/-- `ghsaToRow`. -/
def ghsaToRow (runtime : FeedRuntime) (advisory : GhsaAdvisory) : VulnerabilityData :=
  let row := advisoryToRow runtime (ghsaAsOsv runtime advisory)
  { row with
    cvssVector := (nonEmpty advisory.cvss.vectorString).or row.cvssVector
    cvssScore := advisory.cvss.score.or row.cvssScore
    severity :=
      match advisory.cvss.score, nonEmpty advisory.severity with
      | some score, _ => severityFromScore (some score)
      | none, some severity => runtime.toLowerCase severity
      | none, none => row.severity }

/-- `ghsaAffects`. -/
def ghsaAffects (runtime : FeedRuntime) (advisory : GhsaAdvisory) : List PackageKey :=
  affectsOf (ghsaAffected runtime advisory)

/-! ## NVD -/

structure NvdCvss where
  score : Rat
  vector : String
  severity : String

structure NvdMetric where
  type : Option String := none
  baseScore : Option Rat := none
  vectorString : Option String := none
  baseSeverity : Option String := none

/-- An NVD record.  The metric groups are in the order V4.0, V3.1, V3.0, V2. -/
structure NvdCve where
  id : String
  published : Option String := none
  lastModified : Option String := none
  descriptions : List (Option String × Option String) := []
  metrics : List (List NvdMetric) := []
  references : List String := []

/-- `nvdSeverity`. -/
def nvdSeverity (runtime : FeedRuntime) (raw : Option String) (score : Rat) : String :=
  match nonEmpty raw with
  | none => severityFromScore (some score)
  | some text => if runtime.toLowerCase text = "none" then "info" else runtime.toLowerCase text

/-- `pickNvdCvss`: the newest group with a score; in it the primary metric. -/
def pickNvdCvss (runtime : FeedRuntime) (groups : List (List NvdMetric)) : Option NvdCvss :=
  groups.findSome? fun group =>
    match group with
    | [] => none
    | first :: rest =>
        let chosen := ((first :: rest).find? fun m => decide (m.type = some "Primary")).getD first
        chosen.baseScore.map fun score =>
          { score := score
            vector := chosen.vectorString.getD (runtime.numberText score)
            severity := nvdSeverity runtime chosen.baseSeverity score }

/-- `nvdToRow`. -/
def nvdToRow (runtime : FeedRuntime) (cve : NvdCve) : VulnerabilityData :=
  let cvss := pickNvdCvss runtime cve.metrics
  let desc := (cve.descriptions.find? fun d => decide (d.1 = some "en")).or cve.descriptions.head?
  let text := (desc.bind Prod.snd).getD ""
  { id := cve.id
    source := "NVD"
    aliases := []
    summary := sliceTo 500 text
    details := text
    severity := (cvss.map NvdCvss.severity).getD (severityFromScore (cvss.map NvdCvss.score))
    cvssVector := cvss.map NvdCvss.vector
    cvssScore := cvss.map NvdCvss.score
    publishedAt := nonEmpty cve.published
    modifiedAt := nonEmpty cve.lastModified
    references := cve.references.filter fun url => decide (url ≠ "")
    affected := [] }

end Intel
end Ctem
