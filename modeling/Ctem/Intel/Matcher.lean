import Ctem.Contracts
import Ctem.Intel.Mirror

/-!
# The vulnerability matcher

`VulnMatcher.match` answers from the mirror when the package has a sync row and
from the live OSV query otherwise.  Both lookups can fail, and the matcher turns
a failure into an answer: a mirror that fails behind its sync row, and a live
query that fails, both answer with no match.

* `MatcherCalls` is how the lookups turn out; `mirrorCalls` is a mirror that can
  be read.
* `matchComponent_mirrored` is the answer for a mirrored package.
-/

namespace Ctem
namespace Intel

open Foundation Contracts

/-- The component a match is asked for. -/
structure MatchableComponent where
  name : String
  version : String
  ecosystem : String
deriving DecidableEq, Repr

/-- The package of a component. -/
def MatchableComponent.package (c : MatchableComponent) : PackageKey := ⟨c.ecosystem, c.name⟩

structure VulnMatch where
  id : String
  source : String
  aliases : List String
  summary : String
  severity : Severity
  cvssVector : Option String
  cvssScore : Option Rat
  epssScore : Option Rat
  kev : Bool
  fixedVersion : Option String

structure MatchResult where
  found : List VulnMatch
  mirrored : Bool

/-- The KEV and EPSS caches of the matcher. -/
structure IntelCache where
  kevIds : List String := []
  epss : String → Option Rat := fun _ => none

/-- What an OSV document of the live query carries. -/
abbrev OsvVuln := OsvAdvisory

/-- The first range with a non-empty `fixed` event. -/
def rangesFix (ranges : List OsvRange) : Option String :=
  ranges.findSome? fun range => range.events.findSome? fun event => nonEmpty event.fixed

/-- `firstFixedVersion`: the first non-empty fix of an entry that is not spelled
for another ecosystem. -/
def firstFixedVersion (affected : List OsvAffected) (ecosystem : String) : Option String :=
  affected.findSome? fun entry =>
    match nonEmpty entry.package.ecosystem with
    | some e => if e = ecosystem then rangesFix entry.ranges else none
    | none => rangesFix entry.ranges

/-- `Severity.safeParse`. -/
def parseSeverity : String → Option Severity
  | "critical" => some .critical
  | "high" => some .high
  | "medium" => some .medium
  | "low" => some .low
  | "info" => some .info
  | _ => none

/-- The CVE a match is about: the id or the first alias that is one. -/
def cveOf (id : String) (aliases : List String) : Option String :=
  (id :: aliases).find? fun a => startsWith a "CVE-"

/-- `rowToMatch`. -/
def rowToMatch (cache : IntelCache) (row : VulnerabilityRow) (c : MatchableComponent) :
    VulnMatch :=
  let cve := cveOf row.id row.data.aliases
  { id := row.id
    source := row.data.source
    aliases := row.data.aliases
    summary := row.data.summary
    severity := (parseSeverity row.data.severity).getD .medium
    cvssVector := row.data.cvssVector
    cvssScore := row.data.cvssScore
    epssScore := (cve.bind cache.epss).or row.epssScore
    kev := row.kev || (cve.map fun id => decide (id ∈ cache.kevIds)).getD false
    fixedVersion := firstFixedVersion row.data.affected c.ecosystem }

/-- `toMatch`: a document of the live query, mapped like a feed document. -/
def toMatch (runtime : FeedRuntime) (cache : IntelCache) (vuln : OsvVuln)
    (c : MatchableComponent) : VulnMatch :=
  let data := advisoryToRow runtime vuln
  let cve := cveOf vuln.id vuln.aliases
  { id := vuln.id
    source := data.source
    aliases := data.aliases
    summary := data.summary
    severity := (parseSeverity data.severity).getD .medium
    cvssVector := data.cvssVector
    cvssScore := data.cvssScore
    epssScore := cve.bind cache.epss
    kev := (cve.map fun id => decide (id ∈ cache.kevIds)).getD false
    fixedVersion := firstFixedVersion vuln.affected c.ecosystem }

/-- How the lookups of a matcher turn out; `error` is a lookup that throws. -/
structure MatcherCalls where
  /-- The sync row of a package. -/
  findSync : PackageKey → Except String (Option PackageSyncRow)
  /-- The vulnerabilities the index lists for a package. -/
  findAffects : PackageKey → Except String (List VulnerabilityRow)
  /-- The live query: its documents, or a status or network error. -/
  queryOsv : MatchableComponent → Except String (List OsvVuln)

/-- The answer of a readable mirror for a package it has a sync row for. -/
def mirrorMatches (cache : IntelCache) (rows : List VulnerabilityRow) (c : MatchableComponent) :
    List VulnMatch :=
  (rows.filter fun row =>
    versionAffected c.version row.data.affected ⟨c.name, c.ecosystem⟩).map fun row =>
      rowToMatch cache row c

/-- `matchLocal`: `none` sends the caller to the live query. -/
def matchLocal (cache : IntelCache) (calls : MatcherCalls) (c : MatchableComponent) :
    Option (List VulnMatch) :=
  if c.ecosystem = "unknown" then none
  else
    match calls.findSync c.package with
    | .error _ => none
    | .ok none => none
    | .ok (some _) =>
        match calls.findAffects c.package with
        | .error _ => some []
        | .ok rows => some (mirrorMatches cache rows c)

/-- `matchLive`. -/
def matchLive (runtime : FeedRuntime) (cache : IntelCache) (calls : MatcherCalls)
    (c : MatchableComponent) : List VulnMatch :=
  match calls.queryOsv c with
  | .error _ => []
  | .ok vulns => vulns.map fun vuln => toMatch runtime cache vuln c

/-- `VulnMatcher.match`. -/
def matchComponent (runtime : FeedRuntime) (cache : IntelCache) (calls : MatcherCalls)
    (c : MatchableComponent) : MatchResult :=
  match matchLocal cache calls c with
  | some found => ⟨found, true⟩
  | none => ⟨matchLive runtime cache calls c, false⟩

/-! ## Lookups that fail -/

/-- The live query with its failure kept. -/
def liveAnswer (runtime : FeedRuntime) (cache : IntelCache) (calls : MatcherCalls)
    (c : MatchableComponent) : Except String (List VulnMatch) :=
  (calls.queryOsv c).map fun vulns => vulns.map fun vuln => toMatch runtime cache vuln c

/-- What the lookups of a component answer, a failure kept: the mirror when it has a
sync row, the live query otherwise. -/
def lookupAnswer (runtime : FeedRuntime) (cache : IntelCache) (calls : MatcherCalls)
    (c : MatchableComponent) : Except String (List VulnMatch) :=
  if c.ecosystem = "unknown" then liveAnswer runtime cache calls c
  else
    match calls.findSync c.package with
    | .error _ => liveAnswer runtime cache calls c
    | .ok none => liveAnswer runtime cache calls c
    | .ok (some _) => (calls.findAffects c.package).map fun rows => mirrorMatches cache rows c

/-- Some lookup the matcher makes for a component ends in an error. -/
inductive LookupFailed (calls : MatcherCalls) (c : MatchableComponent) : Prop where
  | sync (message : String) (hknown : c.ecosystem ≠ "unknown")
      (h : calls.findSync c.package = .error message)
  | mirror (message : String) (row : PackageSyncRow) (hknown : c.ecosystem ≠ "unknown")
      (hsync : calls.findSync c.package = .ok (some row))
      (h : calls.findAffects c.package = .error message)
  | live (message : String)
      (hlive : c.ecosystem = "unknown" ∨ ∀ row, calls.findSync c.package ≠ .ok (some row))
      (h : calls.queryOsv c = .error message)

theorem matchLive_eq (runtime : FeedRuntime) (cache : IntelCache) (calls : MatcherCalls)
    (c : MatchableComponent) :
    matchLive runtime cache calls c =
      match liveAnswer runtime cache calls c with
      | .ok found => found
      | .error _ => [] := by
  unfold matchLive liveAnswer
  cases calls.queryOsv c with
  | ok vulns => rfl
  | error message => rfl

/-- The matcher answers what its lookups answer, and nothing where they fail. -/
theorem matchComponent_found (runtime : FeedRuntime) (cache : IntelCache) (calls : MatcherCalls)
    (c : MatchableComponent) :
    (matchComponent runtime cache calls c).found =
      match lookupAnswer runtime cache calls c with
      | .ok found => found
      | .error _ => [] := by
  unfold matchComponent matchLocal lookupAnswer
  by_cases hunknown : c.ecosystem = "unknown"
  · simp only [if_pos hunknown]
    exact matchLive_eq runtime cache calls c
  · simp only [if_neg hunknown]
    cases calls.findSync c.package with
    | error message => exact matchLive_eq runtime cache calls c
    | ok sync =>
        cases sync with
        | none => exact matchLive_eq runtime cache calls c
        | some row =>
            cases calls.findAffects c.package with
            | error message => rfl
            | ok rows => rfl

/-! ## A readable mirror -/

/-- The vulnerabilities the index of a mirror lists for a package. -/
def MirrorStore.vulnsFor (st : MirrorStore) (p : PackageKey) : List VulnerabilityRow :=
  (st.affects.rows.filter fun r => decide (r.package = p)).filterMap fun r =>
    st.vulns.find? r.vulnId

/-- Lookups in a mirror that can be read, beside some live query. -/
def mirrorCalls (st : MirrorStore) (queryOsv : MatchableComponent → Except String (List OsvVuln)) :
    MatcherCalls where
  findSync := fun p => .ok (st.syncs.find? p)
  findAffects := fun p => .ok (st.vulnsFor p)
  queryOsv := queryOsv

theorem mem_vulnsFor {st : MirrorStore} {p : PackageKey} {row : VulnerabilityRow} :
    row ∈ st.vulnsFor p ↔ st.vulns.find? row.id = some row ∧ st.Indexed row.id p := by
  unfold MirrorStore.vulnsFor MirrorStore.Indexed
  rw [List.mem_filterMap]
  constructor
  · rintro ⟨r, hr, hfind⟩
    obtain ⟨hmem, hp⟩ := List.mem_filter.mp hr
    simp only [decide_eq_true_eq] at hp
    have hid : row.id = r.vulnId := Table.find?_key hfind
    rw [hid, ← hp]
    exact ⟨hfind, hmem⟩
  · rintro ⟨hfind, hindexed⟩
    exact ⟨_, List.mem_filter.mpr ⟨hindexed, by simp⟩, hfind⟩

section Mirrored

variable (runtime : FeedRuntime) (cache : IntelCache) {st : MirrorStore}
  (queryOsv : MatchableComponent → Except String (List OsvVuln)) {c : MatchableComponent}

/-- A package with a sync row is answered from the mirror. -/
theorem matchComponent_mirrored (hknown : c.ecosystem ≠ "unknown")
    (hsync : (st.syncs.find? c.package).isSome = true) :
    matchComponent runtime cache (mirrorCalls st queryOsv) c =
      ⟨mirrorMatches cache (st.vulnsFor c.package) c, true⟩ := by
  obtain ⟨sync, hfind⟩ := Option.isSome_iff_exists.mp hsync
  have hlocal : matchLocal cache (mirrorCalls st queryOsv) c =
      some (mirrorMatches cache (st.vulnsFor c.package) c) := by
    unfold matchLocal
    rw [if_neg hknown]
    simp only [mirrorCalls, hfind]
  unfold matchComponent
  rw [hlocal]

/-- A component whose ecosystem is unknown never is. -/
theorem matchComponent_unknown (hunknown : c.ecosystem = "unknown") :
    (matchComponent runtime cache (mirrorCalls st queryOsv) c).mirrored = false := by
  have hlocal : matchLocal cache (mirrorCalls st queryOsv) c = none := by
    unfold matchLocal
    rw [if_pos hunknown]
  unfold matchComponent
  rw [hlocal]

end Mirrored

/-- The matches of a mirror contain an id precisely when the row of that id is
indexed for the package and covers the version. -/
theorem mem_mirrorMatches_ids {cache : IntelCache} {st : MirrorStore} {c : MatchableComponent}
    {id : String} :
    id ∈ (mirrorMatches cache (st.vulnsFor c.package) c).map VulnMatch.id ↔
      ∃ row, st.vulns.find? id = some row ∧ st.Indexed id c.package ∧
        versionAffected c.version row.data.affected ⟨c.name, c.ecosystem⟩ = true := by
  unfold mirrorMatches
  rw [List.map_map, List.mem_map]
  constructor
  · rintro ⟨row, hrow, rfl⟩
    obtain ⟨hmem, hcovers⟩ := List.mem_filter.mp hrow
    obtain ⟨hfind, hindexed⟩ := mem_vulnsFor.mp hmem
    exact ⟨row, hfind, hindexed, hcovers⟩
  · rintro ⟨row, hfind, hindexed, hcovers⟩
    have hid : row.id = id := Table.find?_key hfind
    subst hid
    exact ⟨row, List.mem_filter.mpr ⟨mem_vulnsFor.mpr ⟨hfind, hindexed⟩, hcovers⟩, rfl⟩

end Intel
end Ctem
