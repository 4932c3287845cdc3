import Mathlib.Algebra.Order.Ring.Rat
import Mathlib.Data.Prod.Lex
import Ctem.Findings.FindingsDb
import Ctem.Foundation.JsText
import Ctem.Foundation.TiedPaging

/-!
# Paging through the findings

`FindingsService.list` and a reader who follows its cursors.  The findings come by
descending risk score and then by `lastSeenAt`, which a whole batch shares; how the
database orders findings that tie in both may differ from request to request.

`list_exact_iff` says for which findings and limits every reader gets each finding once.
-/

namespace Ctem
namespace Findings

open Foundation Contracts

/-- `ListFindingsQuery`.  A cursor is the id of a finding. -/
structure ListFindingsQuery where
  assetId : Option Uuid := none
  scannerType : Option ScannerType := none
  severity : Option Severity := none
  state : Option FindingState := none
  validation : Option ValidationVerdict := none
  minRiskScore : Option Rat := none
  fixAvailable : Option Bool := none
  slaBreached : Option Bool := none
  q : Option String := none
  cursor : Option Uuid := none
  limit : Nat := 50
  limit_pos : 1 ≤ limit := by decide

/-- A filter that is left out admits every row. -/
def admits {α : Type} (filter : Option α) (test : α → Bool) : Bool :=
  filter.all test

/-- The `where` clause; `contains` is the insensitive search of the database. -/
def ListFindingsQuery.selects (contains : String → String → Bool) (now : Timestamp)
    (query : ListFindingsQuery) (r : FindingRow) : Bool :=
  admits query.assetId (fun assetId => decide (r.assetId = assetId)) &&
    admits query.scannerType (fun scannerType => decide (r.scannerType = scannerType)) &&
    admits query.severity (fun severity => decide (r.severity = severity)) &&
    admits query.state (fun state => decide (r.state = state)) &&
    admits query.validation (fun validation => decide (r.validation = validation)) &&
    admits query.minRiskScore (fun score => decide (score ≤ r.riskScore)) &&
    admits query.fixAvailable (fun available => decide (r.fixAvailable = available)) &&
    (query.slaBreached != some true ||
      (r.slaDueAt.any (fun due => decide (due < now)) && r.resolvedAt.isNone)) &&
    admits (nonEmpty query.q) (contains r.title)

/-- The findings of the organisation that the filters select. -/
def matching (contains : String → String → Bool) (now : Timestamp) (db : FindingsDb)
    (orgId : OrgId) (query : ListFindingsQuery) : List FindingRow :=
  db.findings.rows.filter fun r => decide (r.orgId = orgId) && query.selects contains now r

/-- `orderBy: [{ riskScore: 'desc' }, { lastSeenAt: 'desc' }]`. -/
def sortKey (r : FindingRow) : Rat ×ₗ Timestamp :=
  toLex (r.riskScore, r.lastSeenAt)

/-- `omitSlaClaim`. -/
def omitSlaClaim (r : FindingRow) : FindingRow :=
  { r with slaNotifiedAt := none }

/-- `list`, on the matching findings in the order the database gives them in: the page
starts behind the finding of the cursor. -/
def list (query : ListFindingsQuery) (ordered : List FindingRow) : CursorPage FindingRow Uuid :=
  let items := (seek FindingRow.id ordered query.cursor).take (query.limit + 1)
  cursorPage FindingRow.id omitSlaClaim query.limit items

/-- Whatever the order of ties in each request, a reader who starts without a cursor and
follows `nextCursor` comes to an end, having seen every matching finding once. -/
def ExactPaging (contains : String → String → Bool) (now : Timestamp) (db : FindingsDb)
    (orgId : OrgId) (query : ListFindingsQuery) : Prop :=
  ∀ orders : Nat → List FindingRow,
    (∀ i, OrderedBy sortKey (matching contains now db orgId query) (orders i)) →
    ∃ pages, ReadsFrom (fun i cursor => list { query with cursor := cursor } (orders i)) 0 none
        pages ∧
      (pages.flatMap CursorPage.items).Perm
        ((matching contains now db orgId query).map omitSlaClaim)

theorem nodup_id_matching (contains : String → String → Bool) (now : Timestamp) (db : FindingsDb)
    (orgId : OrgId) (query : ListFindingsQuery) :
    ((matching contains now db orgId query).map FindingRow.id).Nodup :=
  db.idNodup.sublist (List.filter_sublist.map FindingRow.id)

/-- Paging is exact if and only if, for every `m` with more than `m * limit` matching
findings, the one at place `m * limit` shares its risk score and `lastSeenAt` with no
other. -/
theorem list_exact_iff (contains : String → String → Bool) (now : Timestamp) (db : FindingsDb)
    (orgId : OrgId) (query : ListFindingsQuery) :
    ExactPaging contains now db orgId query ↔
      UniqueBoundaries sortKey (matching contains now db orgId query) query.limit :=
  readsAll_iff query.limit_pos (nodup_id_matching contains now db orgId query)

/-- Two findings of one batch, neither scored yet. -/
def unscored (id fingerprint : String) : FindingRow where
  id := id
  orgId := "6f1c0b7e-0000-4000-8000-000000000001"
  assetId := "6f1c0b7e-0000-4000-8000-0000000000a1"
  fingerprint := fingerprint
  scannerType := .sca
  scannerName := "ctem-sca"
  title := "a finding"
  severity := .high

def earlier : FindingRow := unscored "6f1c0b7e-0000-4000-8000-0000000000f1" "f1"

def later : FindingRow := unscored "6f1c0b7e-0000-4000-8000-0000000000f2" "f2"

def scannedAsset : AssetRow where
  id := earlier.assetId
  orgId := earlier.orgId
  kind := "repository"
  externalKey := "github:acme/shop"

def batchDb : FindingsDb where
  assets := ⟨[scannedAsset], List.nodup_singleton _⟩
  findings := ⟨[earlier, later], by decide⟩
  idNodup := by decide
  findingAsset := by
    intro r hr
    refine ⟨scannedAsset, List.mem_singleton.mpr rfl, ?_⟩
    rcases List.mem_pair.mp hr with rfl | rfl
    · exact ⟨rfl, rfl⟩
    · exact ⟨rfl, rfl⟩

def oneByOne : ListFindingsQuery := { limit := 1 }

/-- One finding a page: where the second request sees the two the other way round, the
reader never gets the second one. -/
theorem list_loses_tied :
    ¬ ExactPaging (fun _ _ => true) 0 batchDb earlier.orgId oneByOne := by
  have hrows : matching (fun _ _ => true) 0 batchDb earlier.orgId oneByOne = [earlier, later] :=
    rfl
  have hne : later ≠ earlier := fun h => absurd (congrArg FindingRow.id h) (by decide)
  have horder : OrderedBy sortKey [earlier, later] [earlier, later] :=
    ⟨List.Perm.refl _, List.pairwise_pair.mpr (le_refl _)⟩
  intro hexact
  have hall : ReadsAll sortKey FindingRow.id omitSlaClaim
      (matching (fun _ _ => true) 0 batchDb earlier.orgId oneByOne) oneByOne.limit := hexact
  rw [hrows] at hall
  exact not_readsAll oneByOne.limit_pos (by decide) (le_refl 1) (by decide) horder rfl
    (List.mem_cons_of_mem _ List.mem_cons_self) rfl hne hall

end Findings
end Ctem
