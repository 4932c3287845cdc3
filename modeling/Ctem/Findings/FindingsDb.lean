import Ctem.Foundation.Table
import Ctem.Contracts

/-!
# The findings tables

`findings` joined to `assets`.  A finding row is unique in its organisation and
fingerprint and in its id, and belongs to an asset of its organisation; both are
fields of the database, so a row without its asset cannot be stored.
-/

namespace Ctem
namespace Findings

open Foundation Contracts

/-- A row of `assets`. -/
structure AssetRow where
  id : Uuid
  orgId : OrgId
  kind : String
  externalKey : String
  exposure : String := "unknown"
  criticality : String := "unknown"
  tags : JsonObject := []
  attributes : Json := .obj []
  archivedAt : Option Timestamp := none
  integrationId : Option Uuid := none

/-- A row of `findings`. -/
structure FindingRow where
  id : Uuid
  orgId : OrgId
  assetId : Uuid
  fingerprint : String
  scannerType : ScannerType
  scannerName : String
  title : String
  description : String := ""
  severity : Severity
  riskScore : Rat := 0
  state : FindingState := .open
  validation : ValidationVerdict := .notValidated
  identifiers : List Identifier := []
  cvssScore : Option Rat := none
  cvssVector : Option String := none
  epssScore : Option Rat := none
  kev : Bool := false
  location : JsonObject := []
  evidence : JsonObject := []
  fixAvailable : Bool := false
  fixedVersion : Option String := none
  artifactKey : Option String := none
  slaDueAt : Option Timestamp := none
  slaNotifiedAt : Option Timestamp := none
  firstSeenAt : Timestamp := 0
  lastSeenAt : Timestamp := 0
  resolvedAt : Option Timestamp := none

/-- `@@unique([orgId, fingerprint])`. -/
def FindingRow.key (r : FindingRow) : OrgId × String := (r.orgId, r.fingerprint)

/-- What an update may not touch: the columns other tables and the unique index
refer to. -/
def KeepsIdentity (f : FindingRow → FindingRow) : Prop :=
  ∀ r, (f r).id = r.id ∧ (f r).orgId = r.orgId ∧ (f r).fingerprint = r.fingerprint ∧
    (f r).assetId = r.assetId

theorem KeepsIdentity.key {f : FindingRow → FindingRow} (h : KeepsIdentity f) (r : FindingRow) :
    (f r).key = r.key := by
  obtain ⟨-, horg, hfp, -⟩ := h r
  unfold FindingRow.key
  rw [horg, hfp]

/-- The findings and their assets. -/
structure FindingsDb where
  assets : Table AssetRow AssetRow.id
  findings : Table FindingRow FindingRow.key
  idNodup : (findings.rows.map FindingRow.id).Nodup
  findingAsset : ∀ r ∈ findings, ∃ a ∈ assets, a.id = r.assetId ∧ a.orgId = r.orgId

namespace FindingsDb

/-- A database without findings. -/
def ofAssets (assets : Table AssetRow AssetRow.id) : FindingsDb where
  assets := assets
  findings := Table.empty
  idNodup := List.nodup_nil
  findingAsset := fun r hr => absurd hr (Table.not_mem_empty r)

/-- `tx.finding.updateMany`: every row that satisfies `p`. -/
def updateMany (db : FindingsDb) (p : FindingRow → Bool) (f : FindingRow → FindingRow)
    (hf : KeepsIdentity f) : FindingsDb where
  assets := db.assets
  findings := db.findings.updateMany p f hf.key
  idNodup := by
    have hids : (db.findings.updateMany p f hf.key).rows.map FindingRow.id =
        db.findings.rows.map FindingRow.id := by
      unfold Table.updateMany
      rw [List.map_map]
      apply List.map_congr_left
      intro r _
      by_cases hp : p r = true
      · simp [hp, (hf r).1]
      · simp [hp]
    rw [hids]
    exact db.idNodup
  findingAsset := by
    intro r hr
    obtain ⟨r₀, hr₀, rfl⟩ := Table.mem_updateMany.mp hr
    obtain ⟨a, ha, haid, haorg⟩ := db.findingAsset r₀ hr₀
    refine ⟨a, ha, ?_⟩
    split
    · rw [(hf r₀).2.2.2, (hf r₀).2.1]
      exact ⟨haid, haorg⟩
    · exact ⟨haid, haorg⟩

theorem mem_updateMany {db : FindingsDb} {p : FindingRow → Bool} {f : FindingRow → FindingRow}
    {hf : KeepsIdentity f} {r : FindingRow} :
    r ∈ (db.updateMany p f hf).findings ↔
      ∃ r₀ ∈ db.findings, (if p r₀ then f r₀ else r₀) = r := by
  change r ∈ db.findings.updateMany p f hf.key ↔ _
  rw [Table.mem_updateMany]

/-- The row of a finding id, as an organisation sees it. -/
def findById (db : FindingsDb) (orgId : OrgId) (id : Uuid) : Option FindingRow :=
  db.findings.rows.find? fun r => decide (r.id = id) && decide (r.orgId = orgId)

/-- A finding is determined by its id. -/
theorem eq_of_id_eq {db : FindingsDb} {r r' : FindingRow} (hr : r ∈ db.findings)
    (hr' : r' ∈ db.findings) (hid : r.id = r'.id) : r = r' :=
  List.inj_on_of_nodup_map db.idNodup hr hr' hid

theorem findById_of_mem {db : FindingsDb} {r : FindingRow} (hr : r ∈ db.findings) :
    db.findById r.orgId r.id = some r := by
  unfold findById
  cases hfind : db.findings.rows.find? fun r' =>
      decide (r'.id = r.id) && decide (r'.orgId = r.orgId) with
  | none =>
      have hnone := List.find?_eq_none.mp hfind r hr
      simp at hnone
  | some r' =>
      have hmem : r' ∈ db.findings := List.mem_of_find?_eq_some hfind
      have hkeys := List.find?_some hfind
      simp only [Bool.and_eq_true, decide_eq_true_eq] at hkeys
      rw [eq_of_id_eq hmem hr hkeys.1]

/-- The asset row of a finding, which the foreign key guarantees. -/
def assetOf (db : FindingsDb) (r : FindingRow) : Option AssetRow :=
  db.assets.find? r.assetId

theorem assetOf_isSome {db : FindingsDb} {r : FindingRow} (hr : r ∈ db.findings) :
    (db.assetOf r).isSome = true := by
  obtain ⟨a, ha, haid, -⟩ := db.findingAsset r hr
  unfold assetOf
  rw [← haid, Table.find?_of_mem ha]
  rfl

end FindingsDb

end Findings
end Ctem
