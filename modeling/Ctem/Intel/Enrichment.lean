import Ctem.Findings.FindingsDb
import Ctem.Findings.Normalizer
import Ctem.Intel.Mirror

/-!
# Enrichment

A refresh compares the mirrored rows with the KEV catalogue and the EPSS scores,
rewrites the rows that differ, pushes the differences onto open findings and asks
for a rescore of every organisation it touched.

The refresh is the list of its writes in order, computed from the state it starts
in: nothing it reads later is written by an earlier write of its own.  A run that
fails is a prefix of that list, whatever call it failed at.
-/

namespace Ctem
namespace Intel

open Foundation Contracts Findings

/-! ## Differences -/

/-- `resolveCve`: the row's own id or its first alias that is a CVE. -/
def resolveCve (r : VulnerabilityRow) : Option String :=
  (r.id :: r.data.aliases).find? fun a => startsWith a "CVE-"

/-- The KEV catalogue: the due date of every CVE in it. -/
abbrev KevCatalog := AssocMap String (Option Nat)

/-- `fetchKevCatalog`: the map of the feed's entries, the last one for a CVE. -/
def kevCatalogOf (entries : List (String × Option Nat)) : KevCatalog :=
  AssocMap.groupFold Prod.fst (fun e _ => e.2) entries

/-- The catalogue's membership of a CVE. -/
def KevCatalog.member (catalog : KevCatalog) (cve : String) : Bool :=
  (AssocMap.lookup? catalog cve).isSome

/-- EPSS score and percentile of the CVEs the API answered for. -/
abbrev EpssScores := AssocMap String (Rat × Option Rat)

structure KevUpdate where
  id : String
  cve : String
  kev : Bool
  kevDueDate : Option Nat

structure EpssUpdate where
  id : String
  cve : String
  epssScore : Rat
  epssPercentile : Option Rat

/-- The update of one row, when its membership or due date differs. -/
def kevUpdate? (catalog : KevCatalog) (r : VulnerabilityRow) : Option KevUpdate :=
  match resolveCve r with
  | none => none
  | some cve =>
      let kev := KevCatalog.member catalog cve
      let dueDate := (AssocMap.lookup? catalog cve).getD none
      if kev ≠ r.kev ∨ (kev = true ∧ dueDate ≠ r.kevDueDate) then some ⟨r.id, cve, kev, dueDate⟩
      else none

/-- `computeKevUpdates`. -/
def computeKevUpdates (rows : List VulnerabilityRow) (catalog : KevCatalog) : List KevUpdate :=
  rows.filterMap (kevUpdate? catalog)

/-- The update of one row, when its score moved by more than a thousandth. -/
def epssUpdate? (scores : EpssScores) (r : VulnerabilityRow) : Option EpssUpdate :=
  match resolveCve r with
  | none => none
  | some cve =>
      match AssocMap.lookup? scores cve with
      | none => none
      | some (epss, percentile) =>
          match r.epssScore with
          | none => some ⟨r.id, cve, epss, percentile⟩
          | some score =>
              if 1 / 1000 < epss - score ∨ 1 / 1000 < score - epss then
                some ⟨r.id, cve, epss, percentile⟩
              else none

/-- `computeEpssUpdates`. -/
def computeEpssUpdates (rows : List VulnerabilityRow) (scores : EpssScores) : List EpssUpdate :=
  rows.filterMap (epssUpdate? scores)

/-! ## Propagation -/

/-- What a CVE's updates change on a finding. -/
structure IntelPatch where
  kev : Option Bool := none
  epssScore : Option Rat := none
deriving DecidableEq, Repr

/-- A patch of a finding row. -/
structure FindingIntelPatch where
  kev : Option Bool := none
  epssScore : Option Rat := none
  validation : Option ValidationVerdict := none
deriving DecidableEq, Repr

/-- `findingIntelPatch`: when KEV moves, SCA validation is evaluated again. -/
def findingIntelPatch (f : FindingRow) (intel : IntelPatch) : FindingIntelPatch where
  kev := intel.kev
  epssScore := intel.epssScore
  validation := intel.kev.bind fun kev => promoteValidation f.scannerType f.evidence kev

/-- The row with the patch's columns. -/
def FindingIntelPatch.apply (data : FindingIntelPatch) (r : FindingRow) : FindingRow :=
  { r with
    kev := data.kev.getD r.kev
    epssScore := data.epssScore.or r.epssScore
    validation := data.validation.getD r.validation }

theorem FindingIntelPatch.apply_keepsIdentity (data : FindingIntelPatch) :
    KeepsIdentity data.apply :=
  fun _ => ⟨rfl, rfl, rfl, rfl⟩

/-- `byCve`: the patch of every CVE with an update, KEV updates first. -/
def patchesByCve (kev : List KevUpdate) (epss : List EpssUpdate) : AssocMap String IntelPatch :=
  epss.foldl (fun m u => m.upsert u.cve fun old =>
      { old.getD {} with epssScore := some u.epssScore })
    (AssocMap.groupFold KevUpdate.cve (fun u old => { old.getD {} with kev := some u.kev }) kev)

/-- The finding carries the CVE among its identifiers. -/
def Carries (f : FindingRow) (cve : String) : Prop :=
  ∃ i ∈ f.identifiers, i.value = cve

instance (f : FindingRow) (cve : String) : Decidable (Carries f cve) :=
  inferInstanceAs (Decidable (∃ i ∈ f.identifiers, i.value = cve))

/-- The open finding rows that carry the CVE. -/
def reachedBy (cve : String) (f : FindingRow) : Bool :=
  f.state.unresolved && decide (Carries f cve)

/-- The mirror, the findings of all organisations and the rescore requests sent. -/
structure EnrichState where
  mirror : MirrorStore
  db : FindingsDb
  sent : List (OrgId × List Uuid) := []

/-- The findings of one CVE, grouped by the patch they get. -/
def patchGroups (db : FindingsDb) (cve : String) (patch : IntelPatch) :
    AssocMap FindingIntelPatch (List Uuid) :=
  AssocMap.groupFold (fun f => findingIntelPatch f patch)
    (fun f (ids : Option (List Uuid)) => ids.getD [] ++ [f.id])
    (db.findings.rows.filter (reachedBy cve))

/-- `touched`: the findings reached, by organisation. -/
def touchedFindings (db : FindingsDb) (patches : AssocMap String IntelPatch) :
    AssocMap OrgId (List Uuid) :=
  AssocMap.groupFold FindingRow.orgId
    (fun f (ids : Option (List Uuid)) => setAdd (ids.getD []) f.id)
    (patches.flatMap fun (cve, _) => db.findings.rows.filter (reachedBy cve))

/-! ## A refresh -/

/-- One write of a refresh. -/
inductive EnrichWrite where
  | kevRow (u : KevUpdate)
  | epssRow (u : EpssUpdate)
  | patchFindings (ids : List Uuid) (data : FindingIntelPatch)
  | requestRescore (orgId : OrgId) (findingIds : List Uuid)

/-- The KEV columns of an update. -/
def KevUpdate.apply (u : KevUpdate) (r : VulnerabilityRow) : VulnerabilityRow :=
  { r with
    kev := u.kev
    kevDueDate := u.kevDueDate }

/-- The EPSS columns of an update. -/
def EpssUpdate.apply (u : EpssUpdate) (r : VulnerabilityRow) : VulnerabilityRow :=
  { r with
    epssScore := some u.epssScore
    epssPercentile := u.epssPercentile }

/-- The effect of one write. -/
def EnrichState.write (st : EnrichState) : EnrichWrite → EnrichState
  | .kevRow u => { st with mirror := st.mirror.updateVuln u.id u.apply (fun _ => rfl) }
  | .epssRow u => { st with mirror := st.mirror.updateVuln u.id u.apply (fun _ => rfl) }
  | .patchFindings ids data =>
      { st with
        db := st.db.updateMany (fun r => decide (r.id ∈ ids)) data.apply
          data.apply_keepsIdentity }
  | .requestRescore orgId findingIds => { st with sent := st.sent ++ [(orgId, findingIds)] }

/-- What the two feeds answer to one refresh. -/
structure IntelAnswers where
  catalog : KevCatalog
  scores : EpssScores

section Refresh

variable (st : EnrichState) (answers : IntelAnswers)

/-- `kevUpdates` of a refresh. -/
def refreshKev : List KevUpdate :=
  computeKevUpdates st.mirror.vulns.rows answers.catalog

/-- `epssUpdates` of a refresh. -/
def refreshEpss : List EpssUpdate :=
  computeEpssUpdates st.mirror.vulns.rows answers.scores

/-- The patches a refresh propagates. -/
def refreshPatches : AssocMap String IntelPatch :=
  patchesByCve (refreshKev st answers) (refreshEpss st answers)

/-- The writes of `propagate` on the findings. -/
def findingWrites : List EnrichWrite :=
  (refreshPatches st answers).flatMap fun (cve, patch) =>
    (patchGroups st.db cve patch).map fun (data, ids) => .patchFindings ids data

/-- The rescore requests of `propagate`. -/
def rescoreWrites : List EnrichWrite :=
  (touchedFindings st.db (refreshPatches st answers)).map fun (orgId, ids) =>
    .requestRescore orgId ids

/-- All writes of `doRefresh`, in order. -/
def refreshWrites : List EnrichWrite :=
  (refreshKev st answers).map .kevRow ++ (refreshEpss st answers).map .epssRow ++
    findingWrites st answers ++ rescoreWrites st answers

end Refresh

/-- A list of writes, applied. -/
def EnrichState.writeAll (st : EnrichState) (writes : List EnrichWrite) : EnrichState :=
  writes.foldl EnrichState.write st

/-- A refresh that succeeds. -/
def refresh (st : EnrichState) (answers : IntelAnswers) : EnrichState :=
  st.writeAll (refreshWrites st answers)

/-- A refresh that fails behind `k` of its writes. -/
def failedRefresh (st : EnrichState) (answers : IntelAnswers) (k : Nat) : EnrichState :=
  st.writeAll ((refreshWrites st answers).take k)

/-- A sequence of refreshes that fail, each with its own answers. -/
def failedRefreshes (st : EnrichState) : List (IntelAnswers × Nat) → EnrichState
  | [] => st
  | (answers, k) :: rest => failedRefreshes (failedRefresh st answers k) rest

end Intel
end Ctem
