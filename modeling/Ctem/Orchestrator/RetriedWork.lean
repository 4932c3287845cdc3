import Ctem.Orchestrator.CheckedCommit

/-!
# What a retry sends

`createScan` makes the payload of a job from the request in memory and the assets it has
planned, `retryJob` makes it from the job row and the asset row, both through
`publishQueuedJob`.

* `dispatches` are the calls and the reports that the job rows go through in between.
* `mem_retryJob` says which payload a retry sends.
* `retryJob_sameWork_iff`: it is the payload of the request, but for the attempt,
  precisely when the request had no options.
-/

namespace Ctem
namespace Orchestrator

open Foundation Contracts Scanner Findings
open ScanStore (KickArgs DispatchAsset)

/-- What happens to the job rows. -/
inductive JobRowEvent where
  | createScan (calls : DispatchCalls) (orgId : OrgId) (trigger : ScanTrigger)
      (request : CreateScanRequest) (header : List String)
  | retryJob (calls : DispatchCalls) (orgId : OrgId) (jobId : Uuid)
  | lifecycle (event : LifecycleEvent)

/-- The tables, as requests, retries and reports of workers come in any order. -/
def dispatches : System ScanStore JobRowEvent where
  step := fun st e =>
    match e with
    | .createScan calls orgId trigger request header =>
        match createScan calls st orgId trigger request header with
        | .ok result => result.1
        | .error _ => st
    | .retryJob calls orgId jobId => (retryJob calls st orgId jobId).1
    | .lifecycle event => lifecycleStep st event
  allowed := fun _ _ => True

/-! ## The job row -/

/-- What the payload of a job is made from, of the columns of its row. -/
def workKey (row : ScanJobRow) : Uuid × OrgId × Uuid × Uuid × ScannerType :=
  (row.id, row.orgId, row.scanId, row.assetId, row.scannerType)

theorem keptColumns_work : KeptColumns (fun _ => ()) workKey :=
  ⟨fun _ _ => rfl, fun _ _ _ => rfl, fun _ _ => rfl, fun _ _ _ => rfl, fun _ => rfl⟩

/-- A job row stays what it is for. -/
theorem workKey_step (st : ScanStore) (e : JobRowEvent) {row : ScanJobRow}
    (hrow : row ∈ st.jobs) :
    ∃ row' ∈ (dispatches.step st e).jobs, workKey row' = workKey row := by
  cases e with
  | createScan calls orgId trigger request header =>
      show ∃ row' ∈ ScanStore.jobs (match createScan calls st orgId trigger request header with
        | .ok result => result.1
        | .error _ => st), workKey row' = workKey row
      cases hresult : createScan calls st orgId trigger request header with
      | error message => exact ⟨row, hrow, rfl⟩
      | ok result =>
          rcases createScan_cases hresult with rfl | ⟨args, st₁, scan, -, hkick, hsame, -⟩
          · exact ⟨row, hrow, rfl⟩
          · obtain ⟨-, -, hjobs⟩ := ScanStore.persistKick_created hkick
            have hkept : row ∈ st₁.jobs := (Table.mem_insertMany? hjobs).mpr (Or.inr hrow)
            exact (hsame keptColumns_work).symm.job hkept
  | retryJob calls orgId jobId =>
      exact (sameColumns_retryJob keptColumns_work st jobId).symm.job hrow
  | lifecycle event => exact (sameColumns_lifecycleStep keptColumns_work st event).symm.job hrow

/-- A job row stays what it is for, in any run. -/
theorem workKey_run (st : ScanStore) (es : List JobRowEvent) {row : ScanJobRow}
    (hrow : row ∈ st.jobs) :
    ∃ row' ∈ (dispatches.run st es).jobs, workKey row' = workKey row := by
  induction es generalizing st row with
  | nil => exact ⟨row, hrow, rfl⟩
  | cons e es ih =>
      obtain ⟨row₁, hrow₁, hkey₁⟩ := workKey_step st e hrow
      obtain ⟨row₂, hrow₂, hkey₂⟩ := ih (dispatches.step st e) hrow₁
      exact ⟨row₂, hrow₂, hkey₂.trans hkey₁⟩

/-! ## The payload of a retry -/

/-- The credential of an asset's integration, read with those of any assets beside it. -/
theorem scanJobCredentialRef_credentialRefsFor
    (integrations : Table IntegrationRow IntegrationRow.id) (orgId : OrgId)
    {assets : List DispatchAsset} {asset : DispatchAsset} (hasset : asset ∈ assets) :
    scanJobCredentialRef asset (credentialRefsFor integrations orgId assets) =
      (nonEmpty asset.integrationId).bind fun id =>
        ((integrations.find? id).filter fun r => decide (r.orgId = orgId)).bind
          IntegrationRow.credentialRef := by
  unfold scanJobCredentialRef
  cases hid : nonEmpty asset.integrationId with
  | none => rfl
  | some id =>
      have hmem : some id ∈ assets.map DispatchAsset.integrationId := by
        rw [← (nonEmpty_eq_some.mp hid).1]
        exact List.mem_map_of_mem hasset
      have hkeys : (AssocMap.keys (credentialRefsFor integrations orgId assets)).Nodup := by
        unfold AssocMap.keys credentialRefsFor
        rw [List.map_map]
        exact integrations.nodup.sublist (List.filter_sublist.map _)
      have hlookup : AssocMap.lookup? (credentialRefsFor integrations orgId assets) id =
          ((integrations.find? id).filter fun r => decide (r.orgId = orgId)).map
            IntegrationRow.credentialRef := by
        ext ref
        rw [AssocMap.lookup?_eq_some_iff hkeys, Option.map_eq_some_iff]
        unfold credentialRefsFor
        simp only [List.mem_map, List.mem_filter, Bool.and_eq_true, decide_eq_true_eq,
          Prod.mk.injEq, Option.filter_eq_some_iff, Table.find?_eq_some]
        constructor
        · rintro ⟨r, ⟨hr, horg, -⟩, hrid, href⟩
          exact ⟨r, ⟨⟨hr, hrid⟩, horg⟩, href⟩
        · rintro ⟨r, ⟨⟨hr, hrid⟩, horg⟩, href⟩
          refine ⟨r, ⟨hr, horg, ?_⟩, hrid, href⟩
          rw [hrid]
          exact List.mem_map.mp hmem
      rw [Option.bind_some, Option.bind_some, hlookup]
      cases (integrations.find? id).filter fun r => decide (r.orgId = orgId) <;> rfl

section Retry

variable {calls calls' : DispatchCalls} {st st₁ : ScanStore} {orgId : OrgId}
  {trigger : ScanTrigger} {request : CreateScanRequest} {header : List String}
  {jobs : List ScanJob} {job job' : ScanJob}

/-- The job of a request is that of its row and of the asset as the retry reads it. -/
theorem exists_row_of_createScan
    (hcreate : createScan calls st orgId trigger request header = .ok (st₁, jobs))
    (hjob : job ∈ jobs) :
    ∃ row ∈ st₁.jobs, ∃ asset,
      workKey row = (job.jobId, orgId, job.scanId, job.assetId, request.scannerType) ∧
      calls.assets.find? job.assetId = some asset ∧
      job = { queuedJob orgId row (dispatchAsset asset) request.scannerType request.options
        (credentialRefsFor calls.integrations orgId [dispatchAsset asset]) with
          attempt := job.attempt } := by
  have hresults : ResultsIn calls st orgId trigger request header job := by
    rw [← mem_publishedJobs_createScan, hcreate]
    exact hjob
  obtain ⟨args, st', scan, hargs, hkick, planned, hplanned, hqueued⟩ := hresults.planned
  rcases createScan_cases hcreate with hnone | ⟨args', st'', scan', hargs', hkick', hsame, -⟩
  · obtain ⟨-, rfl⟩ := Prod.mk.inj hnone
    cases hjob
  · rw [hargs, Except.ok.injEq] at hargs'
    subst hargs'
    rw [hkick, Option.some_inj] at hkick'
    obtain ⟨rfl, -⟩ := Prod.mk.inj hkick'
    obtain ⟨-, -, hrows⟩ := ScanStore.persistKick_created hkick
    have hrow : args.jobRow planned ∈ st'.jobs :=
      (Table.mem_insertMany? hrows).mpr (Or.inl (List.mem_map_of_mem hplanned))
    obtain ⟨row, hmem, hkey⟩ := (hsame keptColumns_work).symm.job hrow
    obtain ⟨-, hplan⟩ := kickArgs_planned hargs
    obtain ⟨horg, htype, -, -⟩ := kickArgs_ok calls hargs
    have hdispatch : planned.2 ∈ args.assets.map Prod.snd := List.mem_map_of_mem hplanned
    obtain ⟨asset, hasset, heq⟩ := find?_of_planned (hplan ▸ hdispatch)
    -- the assets beside it do not matter for the credential of an asset
    have hcredential : scanJobCredentialRef planned.2 (credentialRefsFor calls.integrations orgId
        (args.assets.map Prod.snd)) = scanJobCredentialRef planned.2
          (credentialRefsFor calls.integrations orgId [planned.2]) := by
      rw [scanJobCredentialRef_credentialRefsFor _ _ hdispatch,
        scanJobCredentialRef_credentialRefsFor _ _ (List.mem_singleton_self _)]
    have hkey' := hkey
    simp only [workKey, Prod.mk.injEq] at hkey'
    obtain ⟨hid, -, hscan, hassetId, -⟩ := hkey'
    refine ⟨row, hmem, asset, ?_, ?_, ?_⟩
    · rw [hkey, hqueued, ← htype, ← horg]
      rfl
    · rw [hqueued]
      exact hasset
    · rw [hqueued, ← heq]
      simp only [queuedJob, hid, hscan, hassetId, hcredential]

/-- A retry sends the payload of the request without its options. -/
theorem retryJob_payload (es : List JobRowEvent)
    (hcreate : createScan calls st orgId trigger request header = .ok (st₁, jobs))
    (hjob : job ∈ jobs)
    (hassets : calls'.assets.find? job.assetId = calls.assets.find? job.assetId)
    (hintegrations : ∀ asset, calls.assets.find? job.assetId = some asset →
      ∀ id, asset.integrationId = some id →
        calls'.integrations.find? id = calls.integrations.find? id)
    (hretry : job' ∈ (retryJob calls' (dispatches.run st₁ es) orgId job.jobId).2) :
    { job' with attempt := job.attempt } = { job with options := [] } := by
  obtain ⟨row, hrow, asset, hkey, hasset, hqueued⟩ := exists_row_of_createScan hcreate hjob
  obtain ⟨row₁, hrow₁, hkey₁⟩ := workKey_run st₁ es hrow
  obtain ⟨row₂, asset₂, hrow₂, -, hasset₂, -, hqueued', -⟩ := mem_retryJob.mp hretry
  have hsame := hkey₁.trans hkey
  simp only [workKey, Prod.mk.injEq] at hsame
  obtain ⟨hid, -, -, hassetId, htype⟩ := hsame
  obtain rfl : row₂ = row₁ := by
    refine Table.eq_of_key_eq (Table.find?_mem hrow₂) hrow₁ ?_
    rw [Table.find?_key hrow₂, hid]
  rw [hassetId, hassets, hasset, Option.some_inj] at hasset₂
  subst hasset₂
  have hcredential : scanJobCredentialRef (dispatchAsset asset)
      (credentialRefsFor calls'.integrations orgId [dispatchAsset asset]) =
        scanJobCredentialRef (dispatchAsset asset)
          (credentialRefsFor calls.integrations orgId [dispatchAsset asset]) := by
    rw [scanJobCredentialRef_credentialRefsFor _ _ (List.mem_singleton_self _),
      scanJobCredentialRef_credentialRefsFor _ _ (List.mem_singleton_self _)]
    cases hintegration : nonEmpty (dispatchAsset asset).integrationId with
    | none => rfl
    | some id =>
        rw [Option.bind_some, Option.bind_some,
          hintegrations asset hasset id (nonEmpty_eq_some.mp hintegration).1]
  simp only [workKey, Prod.mk.injEq] at hkey₁
  obtain ⟨hid₁, -, hscan₁, hassetId₁, -⟩ := hkey₁
  rw [hqueued', hqueued]
  simp only [queuedJob, ScanJobRow.requeued, hid₁, hscan₁, hassetId₁, htype, hcredential]

/-- **What a retry sends.**  With the asset of a job and its integration as they were, a
retry sends the payload of the request again, but for the attempt, precisely when the
request had no options. -/
theorem retryJob_sameWork_iff (es : List JobRowEvent)
    (hcreate : createScan calls st orgId trigger request header = .ok (st₁, jobs))
    (hjob : job ∈ jobs)
    (hassets : calls'.assets.find? job.assetId = calls.assets.find? job.assetId)
    (hintegrations : ∀ asset, calls.assets.find? job.assetId = some asset →
      ∀ id, asset.integrationId = some id →
        calls'.integrations.find? id = calls.integrations.find? id)
    (hretry : job' ∈ (retryJob calls' (dispatches.run st₁ es) orgId job.jobId).2) :
    { job' with attempt := job.attempt } = job ↔ request.options = [] := by
  have hoptions : job.options = request.options := by
    have hresults : ResultsIn calls st orgId trigger request header job := by
      rw [← mem_publishedJobs_createScan, hcreate]
      exact hjob
    exact hresults.payload.2.2
  rw [retryJob_payload es hcreate hjob hassets hintegrations hretry, ← hoptions]
  constructor
  · intro hsame
    rw [← hsame]
  · intro hnone
    rw [← hnone]

end Retry

namespace RetriedSbom

/-- The repository that an SBOM is uploaded for. -/
def asset : AssetRow where
  id := "6f1c0b7e-0000-4000-8000-0000000000c1"
  orgId := "6f1c0b7e-0000-4000-8000-0000000000a1"
  kind := "repository"
  externalKey := "github:acme/api"

def calls : DispatchCalls where
  assets := ⟨[asset], List.nodup_singleton _⟩
  integrations := Table.empty
  requestedBy := .ok none
  scanId := "6f1c0b7e-0000-4000-8000-0000000000d1"
  jobId := fun _ => "6f1c0b7e-0000-4000-8000-0000000000e1"
  now := 0
  publish := fun _ => .ok ()
  putJson := fun _ _ => .ok ()

/-- A scan of an uploaded document. -/
def request : CreateScanRequest where
  scannerType := .sca
  options := [("sbomArtifactKey", .str "sbom/api.json"), ("format", .str "cyclonedx")]
  conclusionFree := rfl

/-- What the request leaves behind. -/
def kicked : ScanStore × List ScanJob :=
  match createScan calls ScanStore.empty asset.orgId .ci request [] with
  | .ok result => result
  | .error _ => (ScanStore.empty, [])

/-- The job of the request. -/
def sent : ScanJob where
  jobId := "6f1c0b7e-0000-4000-8000-0000000000e1"
  scanId := "6f1c0b7e-0000-4000-8000-0000000000d1"
  orgId := asset.orgId
  scannerType := .sca
  assetId := asset.id
  target := scanJobTarget (dispatchAsset asset)
  options := request.options

/-- The worker reports that the job has failed. -/
def failedReport : List JobRowEvent :=
  [.lifecycle (.scanJobCompleted
    { jobId := sent.jobId
      scanId := sent.scanId
      orgId := asset.orgId
      assetId := asset.id
      scannerType := .sca
      status := .failed
      startedAt := 1
      finishedAt := 2 } 3)]

/-- The job of the retry. -/
def retried : ScanJob := { sent with options := [], attempt := 2 }

theorem createScan_request :
    createScan calls ScanStore.empty asset.orgId .ci request [] = .ok (kicked.1, kicked.2) := rfl

theorem sent_mem : sent ∈ kicked.2 := by
  have hjobs : kicked.2 = [sent] := rfl
  rw [hjobs]
  exact List.mem_singleton_self sent

theorem retried_mem : retried ∈
    (retryJob calls (dispatches.run kicked.1 failedReport) asset.orgId sent.jobId).2 := by
  have hjobs : (retryJob calls (dispatches.run kicked.1 failedReport) asset.orgId
      sent.jobId).2 = [retried] := rfl
  rw [hjobs]
  exact List.mem_singleton_self retried

end RetriedSbom

open RetriedSbom in
/-- The retry of an uploaded document's job has no document. -/
theorem retryJob_sameWork_iff_sbom :
    { retried with attempt := sent.attempt } = sent ↔ request.options = [] :=
  retryJob_sameWork_iff failedReport createScan_request sent_mem rfl (fun _ _ _ _ => rfl)
    retried_mem

open RetriedSbom in
/-- The worker of an uploaded document's job reports a failure, and the retry sends it off
to check the repository out. -/
theorem retryJob_drops_sbom :
    ¬ ∀ (calls calls' : DispatchCalls) (st st₁ : ScanStore) (orgId : OrgId)
      (trigger : ScanTrigger) (request : CreateScanRequest) (header : List String)
      (jobs : List ScanJob) (job job' : ScanJob) (es : List JobRowEvent),
      createScan calls st orgId trigger request header = .ok (st₁, jobs) → job ∈ jobs →
      calls'.assets = calls.assets → calls'.integrations = calls.integrations →
      job' ∈ (retryJob calls' (dispatches.run st₁ es) orgId job.jobId).2 →
        { job' with attempt := job.attempt } = job := by
  intro hall
  have hsame := hall calls calls ScanStore.empty kicked.1 asset.orgId .ci request [] kicked.2 sent
    retried failedReport createScan_request sent_mem rfl rfl retried_mem
  have hoptions := congrArg ScanJob.options hsame
  simp [retried, sent, request] at hoptions

end Orchestrator
end Ctem
