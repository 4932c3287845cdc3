import Ctem.Foundation.Table
import Ctem.Contracts

/-!
# The orchestrator's scan tables

`scans`, `scan_jobs` and `scan_kicks`, with the foreign key from a job to its
scan as a field of the store: a job row always has a scan row, of the same
organisation.  Every write goes through `withOrg`, so a row of another
organisation is invisible to it; an update that finds no row throws, and a
transaction that throws is rolled back, which is what `none` stands for.

* `persistKick` is the accept transaction of `createScan`: the scan row, one
  queued job per planned asset and the meter row, or the replay of an earlier
  accept with the same idempotency key.
-/

namespace Ctem
namespace Orchestrator

open Foundation Contracts

/-- Which assets a request is about. -/
structure AssetSelector where
  assetIds : Option (List Uuid) := none
  kinds : Option (List String) := none
  tags : Option (List (String × String)) := none

/-- A row of `scans`. -/
structure ScanRow where
  id : Uuid
  orgId : OrgId
  scannerType : ScannerType
  trigger : ScanTrigger
  status : ScanStatus
  requestedBy : Option Uuid := none
  assetSelector : AssetSelector := {}
  options : JsonObject := []
  jobsTotal : Nat := 0
  jobsCompleted : Nat := 0
  startedAt : Option Timestamp := none
  finishedAt : Option Timestamp := none

/-- A row of `scan_jobs`. -/
structure ScanJobRow where
  id : Uuid
  orgId : OrgId
  scanId : Uuid
  assetId : Uuid
  scannerType : ScannerType
  status : ScanStatus := .queued
  attempt : Nat := 1
  artifactKey : Option String := none
  findingCount : Nat := 0
  error : Option String := none
  stats : List (String × Rat) := []
  startedAt : Option Timestamp := none
  finishedAt : Option Timestamp := none

/-- A row of `scan_kicks`: one per accepted scan. -/
structure ScanKickRow where
  eventId : Uuid
  orgId : OrgId
  scanId : Uuid
  source : String
  scannerTypes : List ScannerType := []
  occurredAt : Timestamp
  idempotencyKey : Option String := none

/-- The orchestrator's tables.  A job belongs to a scan of its organisation. -/
structure ScanStore where
  scans : Table ScanRow ScanRow.id
  jobs : Table ScanJobRow ScanJobRow.id
  kicks : Table ScanKickRow ScanKickRow.eventId
  jobScan : ∀ j ∈ jobs, ∃ s ∈ scans, s.id = j.scanId ∧ s.orgId = j.orgId

namespace ScanStore

/-- The database before the first scan. -/
def empty : ScanStore :=
  ⟨Table.empty, Table.empty, Table.empty, fun j hj => absurd hj (Table.not_mem_empty j)⟩

/-- `tx.scanJob.update({ where: { id } })` inside `withOrg(orgId)`. -/
def updateJob (st : ScanStore) (orgId : OrgId) (id : Uuid) (data : ScanJobRow → ScanJobRow)
    (hid : ∀ j, (data j).id = j.id)
    (hscan : ∀ j, (data j).scanId = j.scanId ∧ (data j).orgId = j.orgId) : Option ScanStore :=
  match st.jobs.find? id with
  | none => none
  | some j =>
      if j.orgId = orgId then
        some
          { st with
            jobs := st.jobs.modify id data hid
            jobScan := by
              intro j' hj'
              obtain ⟨j₀, hj₀, rfl⟩ := Table.mem_modify.mp hj'
              obtain ⟨s, hs, hsid, hsorg⟩ := st.jobScan j₀ hj₀
              refine ⟨s, hs, ?_⟩
              split
              · rw [(hscan j₀).1, (hscan j₀).2]
                exact ⟨hsid, hsorg⟩
              · exact ⟨hsid, hsorg⟩ }
      else none

/-- `tx.scan.update({ where: { id } })` inside `withOrg(orgId)`. -/
def updateScan (st : ScanStore) (orgId : OrgId) (id : Uuid) (data : ScanRow → ScanRow)
    (hid : ∀ s, (data s).id = s.id) (horg : ∀ s, (data s).orgId = s.orgId) : Option ScanStore :=
  match st.scans.find? id with
  | none => none
  | some s =>
      if s.orgId = orgId then
        some
          { st with
            scans := st.scans.modify id data hid
            jobScan := by
              intro j hj
              obtain ⟨s₀, hs₀, hsid, hsorg⟩ := st.jobScan j hj
              refine ⟨_, Table.mem_modify.mpr ⟨s₀, hs₀, rfl⟩, ?_⟩
              split
              · rw [hid, horg]
                exact ⟨hsid, hsorg⟩
              · exact ⟨hsid, hsorg⟩ }
      else none

/-- `tx.scanJob.count({ where: { scanId, status: 'failed' } })`. -/
def countFailed (st : ScanStore) (orgId : OrgId) (scanId : Uuid) : Nat :=
  st.jobs.count fun j =>
    decide (j.scanId = scanId) && (decide (j.orgId = orgId) && decide (j.status = .failed))

/-! ## The accept transaction -/

/-- What the planner hands to the dispatcher. -/
structure DispatchAsset where
  id : Uuid
  kind : String
  externalKey : String
  attributes : Json
  integrationId : Option Uuid := none

/-- `scanKickSource`: the trigger `scheduled` is the source `schedule`. -/
def scanKickSource : ScanTrigger → String
  | .scheduled => "schedule"
  | .manual => "manual"
  | .webhook => "webhook"
  | .ci => "ci"
  | .assetCreated => "asset_created"
  | .feedUpdate => "feed_update"

/-- The arguments of `persistKick`.  The database draws the identifiers of the
scan and of the jobs; each planned asset comes with the one its job gets. -/
structure KickArgs where
  orgId : OrgId
  scanId : Uuid
  scannerType : ScannerType
  assetSelector : AssetSelector := {}
  options : JsonObject := []
  trigger : ScanTrigger := .manual
  assets : List (Uuid × DispatchAsset)
  requestedBy : Option Uuid := none
  idempotencyKey : Option String := none
  occurredAt : Timestamp

/-- The scan row an accept creates. -/
def KickArgs.scanRow (args : KickArgs) : ScanRow where
  id := args.scanId
  orgId := args.orgId
  scannerType := args.scannerType
  trigger := args.trigger
  status := if args.assets = [] then .succeeded else .running
  requestedBy := args.requestedBy
  assetSelector := args.assetSelector
  options := args.options
  jobsTotal := args.assets.length
  startedAt := some args.occurredAt
  finishedAt := if args.assets = [] then some args.occurredAt else none

/-- The job row of one planned asset. -/
def KickArgs.jobRow (args : KickArgs) (asset : Uuid × DispatchAsset) : ScanJobRow where
  id := asset.1
  orgId := args.orgId
  scanId := args.scanId
  assetId := asset.2.id
  scannerType := args.scannerType

/-- The meter row of the accept. -/
def KickArgs.kickRow (args : KickArgs) : ScanKickRow where
  eventId := args.scanId
  orgId := args.orgId
  scanId := args.scanId
  source := scanKickSource args.trigger
  scannerTypes := [args.scannerType]
  occurredAt := args.occurredAt
  idempotencyKey := args.idempotencyKey

/-- The scan and the jobs of an accept, inserted.  `none` when a key is taken. -/
def insertScan (st : ScanStore) (args : KickArgs) : Option ScanStore :=
  match hscans : st.scans.insertMany? [args.scanRow],
      hjobs : st.jobs.insertMany? (args.assets.map args.jobRow) with
  | some scans, some jobs =>
      some
        { st with
          scans := scans
          jobs := jobs
          jobScan := by
            intro j hj
            rcases (Table.mem_insertMany? hjobs).mp hj with hnew | hold
            · obtain ⟨asset, -, rfl⟩ := List.mem_map.mp hnew
              exact ⟨args.scanRow, (Table.mem_insertMany? hscans).mpr (by simp), rfl, rfl⟩
            · obtain ⟨s, hs, hkeys⟩ := st.jobScan j hold
              exact ⟨s, (Table.mem_insertMany? hscans).mpr (Or.inr hs), hkeys⟩ }
  | _, _ => none

/-- The meter row of an accept, inserted.  `scanId` is unique, and so is the
organisation with its idempotency key, where a missing key does not collide. -/
def insertKick (st : ScanStore) (kick : ScanKickRow) : Option ScanStore :=
  if st.kicks.rows.any (fun k => decide (k.scanId = kick.scanId) ||
      (decide (k.orgId = kick.orgId) && k.idempotencyKey.isSome &&
        decide (k.idempotencyKey = kick.idempotencyKey))) then none
  else (st.kicks.insertMany? [kick]).map fun kicks => { st with kicks := kicks }

/-- The scan an earlier accept of the organisation made under the key.  `none`
inside: no such accept; `none` outside: its scan row is missing, which throws. -/
def findIdempotentScan (st : ScanStore) (orgId : OrgId) (idempotencyKey : Option String) :
    Option (Option ScanRow) :=
  match idempotencyKey with
  | none => some none
  | some key =>
      match st.kicks.rows.find? (fun k =>
          decide (k.orgId = orgId) && decide (k.idempotencyKey = some key)) with
      | none => some none
      | some kick =>
          match st.scans.find? kick.scanId with
          | none => none
          | some scan => if scan.orgId = orgId then some (some scan) else none

/-- `persistKick` run alone: the accepted scan, and whether it is a replay.  A
unique conflict here is one on a drawn identifier: a conflict on the idempotency
key means the lookup before it would have found the row. -/
def persistKick (st : ScanStore) (args : KickArgs) : Option (ScanStore × ScanRow × Bool) :=
  match st.findIdempotentScan args.orgId args.idempotencyKey with
  | none => none
  | some (some existing) => some (st, existing, true)
  | some none =>
      match st.insertScan args with
      | none => none
      | some created =>
          match created.insertKick args.kickRow with
          | none => none
          | some st' => some (st', args.scanRow, false)

theorem insertScan_scans {st st' : ScanStore} {args : KickArgs}
    (h : st.insertScan args = some st') :
    st.scans.insertMany? [args.scanRow] = some st'.scans ∧
      st.jobs.insertMany? (args.assets.map args.jobRow) = some st'.jobs := by
  unfold insertScan at h
  split at h
  case h_1 scans jobs hscans hjobs =>
    rw [Option.some_inj] at h
    subst h
    exact ⟨hscans, hjobs⟩
  case h_2 => exact absurd h (by simp)

theorem insertKick_tables {st st' : ScanStore} {kick : ScanKickRow}
    (h : st.insertKick kick = some st') : st'.scans = st.scans ∧ st'.jobs = st.jobs := by
  unfold insertKick at h
  split at h
  · exact absurd h (by simp)
  · obtain ⟨kicks, -, rfl⟩ := Option.map_eq_some_iff.mp h
    exact ⟨rfl, rfl⟩

/-- What an accept that is not a replay adds: the scan row and one queued job per
planned asset, beside the rows that were there. -/
theorem persistKick_created {st st' : ScanStore} {args : KickArgs} {scan : ScanRow}
    (h : st.persistKick args = some (st', scan, false)) :
    scan = args.scanRow ∧ st.scans.insertMany? [args.scanRow] = some st'.scans ∧
      st.jobs.insertMany? (args.assets.map args.jobRow) = some st'.jobs := by
  unfold persistKick at h
  split at h
  · exact absurd h (by simp)
  · simp at h
  · split at h
    · exact absurd h (by simp)
    · rename_i created hcreated
      split at h
      · exact absurd h (by simp)
      · rename_i final hfinal
        simp only [Option.some.injEq, Prod.mk.injEq] at h
        obtain ⟨rfl, rfl, -⟩ := h
        obtain ⟨hscans, hjobs⟩ := insertKick_tables hfinal
        rw [hscans, hjobs]
        exact ⟨rfl, insertScan_scans hcreated⟩

/-! ## An inserted scan and its jobs -/

section Inserted

variable {st st' : ScanStore} {args : KickArgs}

/-- A scan that was there is another one than the inserted one. -/
theorem ne_of_inserted (hscans : st.scans.insertMany? [args.scanRow] = some st'.scans)
    {s : ScanRow} (hs : s ∈ st.scans) : s.id ≠ args.scanId := by
  have hnodup := Table.nodup st'.scans
  rw [Table.insertMany?_rows hscans, List.singleton_append, List.map_cons,
    List.nodup_cons] at hnodup
  intro hid
  exact hnodup.1 (List.mem_map.mpr ⟨s, hs, hid⟩)

/-- A job that was there is of a scan that was there. -/
theorem job_ne_of_inserted (hscans : st.scans.insertMany? [args.scanRow] = some st'.scans)
    {j : ScanJobRow} (hj : j ∈ st.jobs) : j.scanId ≠ args.scanId := by
  obtain ⟨s, hs, hid, -⟩ := st.jobScan j hj
  rw [← hid]
  exact ne_of_inserted hscans hs

/-- The jobs of the inserted scan are the inserted ones. -/
theorem count_jobs_inserted (hscans : st.scans.insertMany? [args.scanRow] = some st'.scans)
    (hjobs : st.jobs.insertMany? (args.assets.map args.jobRow) = some st'.jobs)
    (q : ScanJobRow → Bool) :
    st'.jobs.count (fun j => decide (j.scanId = args.scanId) && q j) =
      (args.assets.map args.jobRow).countP q := by
  have hold : st.jobs.count (fun j => decide (j.scanId = args.scanId) && q j) = 0 := by
    rw [Table.count_eq_zero]
    intro j hj
    simp [job_ne_of_inserted hscans hj]
  rw [Table.count_insertMany? hjobs, hold, Nat.add_zero]
  apply List.countP_congr
  intro j hj
  obtain ⟨asset, -, rfl⟩ := List.mem_map.mp hj
  simp [KickArgs.jobRow]

theorem countAll_jobs_inserted (hscans : st.scans.insertMany? [args.scanRow] = some st'.scans)
    (hjobs : st.jobs.insertMany? (args.assets.map args.jobRow) = some st'.jobs) :
    (st'.jobs.count fun j => decide (j.scanId = args.scanId)) = args.assets.length := by
  simpa using count_jobs_inserted hscans hjobs fun _ => true

/-- Other scans keep the jobs they have. -/
theorem count_jobs_other (hjobs : st.jobs.insertMany? (args.assets.map args.jobRow) = some st'.jobs)
    {scanId : Uuid} (hne : scanId ≠ args.scanId) :
    (st'.jobs.count fun j => decide (j.scanId = scanId)) =
      st.jobs.count fun j => decide (j.scanId = scanId) := by
  have hnew : (args.assets.map args.jobRow).countP (fun j => decide (j.scanId = scanId)) = 0 := by
    rw [List.countP_eq_zero]
    intro j hj
    obtain ⟨asset, -, rfl⟩ := List.mem_map.mp hj
    intro heq
    exact hne (of_decide_eq_true heq).symm
  rw [Table.count_insertMany? hjobs, hnew, Nat.zero_add]

end Inserted

end ScanStore

end Orchestrator
end Ctem
