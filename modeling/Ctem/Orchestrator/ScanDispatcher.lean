import Ctem.Findings.FindingsDb
import Ctem.Orchestrator.ScanLifecycle
import Ctem.Orchestrator.ScanRequests
import Ctem.Scanner.ArtifactStore

/-!
# From a request to its jobs

`createScan` plans the assets of a request, accepts it and publishes one job per
planned asset; `ingestSbom` is a `createScan` whose options name the uploaded
document; `retryJob` publishes one job of an earlier scan again, without options.

* `queuedJob` is the payload a worker gets: the target is the asset's identity with
  its attributes spread over it.
* `mem_publishedJobs_createScan` says once which jobs a request results in.
-/

namespace Ctem
namespace Orchestrator

open Foundation Contracts Scanner Findings
open ScanStore (DispatchAsset KickArgs)

/-- A row of `integrations`: where and how discovery finds its assets. -/
structure IntegrationRow where
  id : Uuid
  orgId : OrgId
  credentialRef : Option String := none
  config : Json := .obj []

/-! ## The planner -/

/-- `SCANNER_ASSET_KINDS`. -/
def scannerAssetKinds : ScannerType → List String
  | .sca => ["repository", "package", "container_image"]
  | .sast => ["repository"]
  | .container => ["container_image"]
  | .iac => ["repository", "iac_stack"]
  | .secrets => ["repository"]
  | .asm => ["domain", "ip_range", "web_application", "api_endpoint", "host"]
  | .cloudPosture => ["cloud_resource"]

/-- The kinds a selector leaves of those the scanner applies to. -/
def plannedKinds (scannerType : ScannerType) (kinds : Option (List String)) : List String :=
  match kinds with
  | some (k :: ks) => (k :: ks).filter fun kind => decide (kind ∈ scannerAssetKinds scannerType)
  | _ => scannerAssetKinds scannerType

/-- `tags: { equals }`: the two objects have the same members. -/
def tagsEqual (tags : JsonObject) (wanted : List (String × String)) : Bool :=
  let wantedTags : JsonObject := wanted.map fun e => (e.1, .str e.2)
  (tags ++ wantedTags).all fun e =>
    decide ((JsonObject.get? tags e.1).map Json.str? =
      (JsonObject.get? wantedTags e.1).map Json.str?)

/-- The filter of `plan`. -/
def selected (scannerType : ScannerType) (selector : AssetSelector) (asset : AssetRow) : Bool :=
  asset.archivedAt.isNone && decide (asset.kind ∈ plannedKinds scannerType selector.kinds) &&
    (match selector.assetIds with
      | some (id :: ids) => decide (asset.id ∈ id :: ids)
      | _ => true) &&
    (match selector.tags with
      | some tags => tagsEqual asset.tags tags
      | none => true)

/-- The columns `plan` selects. -/
def dispatchAsset (asset : AssetRow) : DispatchAsset :=
  ⟨asset.id, asset.kind, asset.externalKey, asset.attributes, asset.integrationId⟩

/-- `ScanPlannerService.plan`. -/
def plan (assets : Table AssetRow AssetRow.id) (orgId : OrgId) (scannerType : ScannerType)
    (selector : AssetSelector) : List DispatchAsset :=
  (assets.rows.filter fun a => decide (a.orgId = orgId) && selected scannerType selector a).map
    dispatchAsset

/-- A planned asset is planned once. -/
theorem nodup_plan (assets : Table AssetRow AssetRow.id) (orgId : OrgId)
    (scannerType : ScannerType) (selector : AssetSelector) :
    ((plan assets orgId scannerType selector).map DispatchAsset.id).Nodup := by
  unfold plan
  rw [List.map_map]
  exact assets.nodup.sublist (List.filter_sublist.map _)

/-! ## The payload of a job -/

/-- `scanJobTarget`: attributes that are no object are none. -/
def scanJobTarget (asset : DispatchAsset) : JsonObject :=
  [("externalKey", .str asset.externalKey), ("kind", .str asset.kind)] ++ asset.attributes.fields

/-- `credentialRefsFor`. -/
def credentialRefsFor (integrations : Table IntegrationRow IntegrationRow.id) (orgId : OrgId)
    (assets : List DispatchAsset) : AssocMap Uuid (Option String) :=
  (integrations.rows.filter fun r =>
    decide (r.orgId = orgId) && decide (some r.id ∈ assets.map DispatchAsset.integrationId)).map
      fun r => (r.id, r.credentialRef)

/-- `scanJobCredentialRef`. -/
def scanJobCredentialRef (asset : DispatchAsset) (refs : AssocMap Uuid (Option String)) :
    Option String :=
  (nonEmpty asset.integrationId).bind fun id => (AssocMap.lookup? refs id).join

/-- The payload `publishQueuedJob` builds for a job row. -/
def queuedJob (orgId : OrgId) (row : ScanJobRow) (asset : DispatchAsset) (scannerType : ScannerType)
    (options : JsonObject) (refs : AssocMap Uuid (Option String)) : ScanJob where
  jobId := row.id
  scanId := row.scanId
  orgId := orgId
  scannerType := scannerType
  assetId := row.assetId
  target := scanJobTarget asset
  credentialRef := scanJobCredentialRef asset refs
  options := options
  attempt := row.attempt

/-! ## Dispatch -/

/-- What a request finds: the tables it reads, the identifiers the database draws, and
how the calls turn out. -/
structure DispatchCalls where
  assets : Table AssetRow AssetRow.id
  integrations : Table IntegrationRow IntegrationRow.id
  /-- `resolveRequestedBy`. -/
  requestedBy : Except String (Option Uuid)
  scanId : Uuid
  /-- The id of the job row of a planned asset, which is planned once. -/
  jobId : Uuid → Uuid
  now : Timestamp
  /-- The schema of the payload, and `bus.publish`. -/
  publish : ScanJob → Except String Unit
  /-- `artifacts.putJson` of an inline document. -/
  putJson : String → Json → Except String Unit

section Dispatch

variable (calls : DispatchCalls)

/-- `publishQueuedJob`: the payload it has published. -/
def publishQueuedJob (orgId : OrgId) (row : ScanJobRow) (asset : Option DispatchAsset)
    (scannerType : ScannerType) (options : JsonObject) (refs : AssocMap Uuid (Option String)) :
    Except String ScanJob :=
  match asset with
  | none => .error ("Scan job " ++ row.id ++ " has no matching asset — refusing dispatch")
  | some asset => do
      calls.publish (queuedJob orgId row asset scannerType options refs)
      pure (queuedJob orgId row asset scannerType options refs)

/-- The tables and the jobs published, after one dispatch; one that throws fails the
job row. -/
def afterDispatch (orgId : OrgId) (row : ScanJobRow) (state : ScanStore × List ScanJob) :
    Except String ScanJob → ScanStore × List ScanJob
  | .ok job => (state.1, state.2 ++ [job])
  | .error message =>
      (((state.1.failDispatch orgId row.id row.scanId message calls.now).map Prod.fst).getD state.1,
        state.2)

/-- The arguments of the accept transaction. -/
def kickArgs (orgId : OrgId) (trigger : ScanTrigger) (request : CreateScanRequest)
    (header : List String) : Except String KickArgs := do
  let idempotencyKey ← resolveScanKickIdempotencyKey header request.externalId
  let assets := plan calls.assets orgId request.scannerType request.assetSelector
  let requestedBy ← calls.requestedBy
  pure
    { orgId := orgId
      scanId := calls.scanId
      scannerType := request.scannerType
      assetSelector := request.assetSelector
      options := request.options
      trigger := trigger
      assets := assets.map fun asset => (calls.jobId asset.id, asset)
      requestedBy := requestedBy
      idempotencyKey := idempotencyKey
      occurredAt := calls.now }

/-- The dispatch of one job row of an accepted scan. -/
def dispatchJob (args : KickArgs) (row : ScanJobRow) : Except String ScanJob :=
  let assets := args.assets.map Prod.snd
  publishQueuedJob calls args.orgId row
    (assets.find? fun a => decide (a.id = row.assetId)) args.scannerType args.options
    (credentialRefsFor calls.integrations args.orgId assets)

/-- `createScan`: the tables behind it and the jobs it published.  A replay publishes
none. -/
def createScan (st : ScanStore) (orgId : OrgId) (trigger : ScanTrigger)
    (request : CreateScanRequest) (header : List String) :
    Except String (ScanStore × List ScanJob) := do
  let args ← kickArgs calls orgId trigger request header
  match st.persistKick args with
  | none => .error "Unique constraint failed"
  | some (st', _, true) => pure (st', [])
  | some (st', scan, false) =>
      let rows := st'.jobs.rows.filter fun j =>
        decide (j.scanId = scan.id) && decide (j.orgId = orgId)
      pure (rows.foldl (fun state row =>
        afterDispatch calls orgId row state (dispatchJob calls args row)) (st', []))

/-- The options of an SBOM scan. -/
def sbomOptions (artifactKey : String) (body : IngestSbomRequest) : JsonObject :=
  [("sbomArtifactKey", .str artifactKey), ("format", .str body.format.name)] ++
    (body.ref.map fun ref => [("ref", Json.str ref)]).getD []

/-- The request an SBOM ingest makes of its body. -/
def sbomScanRequest (assetId : Uuid) (artifactKey : String) (body : IngestSbomRequest) :
    CreateScanRequest where
  scannerType := .sca
  assetSelector := { assetIds := some [assetId] }
  options := sbomOptions artifactKey body
  externalId := body.externalId
  conclusionFree := by
    unfold sbomOptions
    cases body.ref <;> rfl

/-- The asset of the organisation with the key. -/
def assetByKey (orgId : OrgId) (externalKey : String) : Option AssetRow :=
  calls.assets.rows.find? fun a =>
    decide (a.orgId = orgId) && decide (a.externalKey = externalKey)

/-- The key an inline document is stored under. -/
def uploadKey (orgId : OrgId) (assetId : Uuid) : String :=
  ArtifactStore.key orgId .sbom [assetId, Nat.repr calls.now ++ ".json"]

/-- `ingestSbom`.  A key in the body is taken as it is. -/
def ingestSbom (st : ScanStore) (orgId : OrgId) (body : IngestSbomRequest) (header : List String) :
    Except String (ScanStore × List ScanJob) :=
  match assetByKey calls orgId body.assetExternalKey with
  | none => .error "No Asset found"
  | some asset => do
      let artifactKey ←
        match body.artifactKey with
        | some key => pure key
        | none => do
            calls.putJson (uploadKey calls orgId asset.id) (.obj (body.document.getD []))
            pure (uploadKey calls orgId asset.id)
      createScan calls st orgId .ci (sbomScanRequest asset.id artifactKey body) header

/-- `retryJob`: the job row is queued again, whatever becomes of the dispatch. -/
def retryJob (st : ScanStore) (orgId : OrgId) (jobId : Uuid) : ScanStore × List ScanJob :=
  match st.retryJob orgId jobId with
  | none => (st, [])
  | some requeued =>
      match requeued.jobs.find? jobId with
      | none => (requeued, [])
      | some row =>
          match calls.assets.find? row.assetId with
          | none => (requeued, [])
          | some asset =>
              if asset.orgId = orgId then
                afterDispatch calls orgId row (requeued, [])
                  (publishQueuedJob calls orgId row (some (dispatchAsset asset)) row.scannerType []
                    (credentialRefsFor calls.integrations orgId [dispatchAsset asset]))
              else (requeued, [])

/-! ## The jobs of a request -/

/-- The jobs a loop over rows publishes are those of the dispatches that succeed. -/
theorem foldl_afterDispatch (orgId : OrgId) (dispatch : ScanJobRow → Except String ScanJob)
    (rows : List ScanJobRow) (state : ScanStore × List ScanJob) :
    (rows.foldl (fun state row => afterDispatch calls orgId row state (dispatch row)) state).2 =
      state.2 ++ rows.filterMap fun row => (dispatch row).toOption := by
  induction rows generalizing state with
  | nil => simp
  | cons row rows ih =>
      rw [List.foldl_cons, ih]
      cases hrow : dispatch row with
      | ok job => simp [afterDispatch, hrow, Except.toOption]
      | error message => simp [afterDispatch, hrow, Except.toOption]

/-- The rows of a scan just accepted are those of its planned assets. -/
theorem rows_of_accept {st st' : ScanStore} {args : KickArgs} {scan : ScanRow}
    (h : st.persistKick args = some (st', scan, false)) :
    (st'.jobs.rows.filter fun j =>
      decide (j.scanId = scan.id) && decide (j.orgId = args.orgId)) =
        args.assets.map args.jobRow := by
  obtain ⟨rfl, hscans, hjobs⟩ := ScanStore.persistKick_created h
  rw [Table.insertMany?_rows hjobs, List.filter_append]
  have hnew : ((args.assets.map args.jobRow).filter fun j =>
      decide (j.scanId = args.scanRow.id) && decide (j.orgId = args.orgId)) =
        args.assets.map args.jobRow := by
    rw [List.filter_eq_self]
    intro j hj
    obtain ⟨asset, -, rfl⟩ := List.mem_map.mp hj
    simp [KickArgs.scanRow, KickArgs.jobRow]
  have hold : (st.jobs.rows.filter fun j =>
      decide (j.scanId = args.scanRow.id) && decide (j.orgId = args.orgId)) = [] := by
    rw [List.filter_eq_nil_iff]
    intro j hj hmatch
    simp only [Bool.and_eq_true, decide_eq_true_eq] at hmatch
    -- a row that was there belongs to a scan that was there, and the new one was not
    obtain ⟨s, hs, hsid, -⟩ := st.jobScan j hj
    have hnodup := Table.nodup st'.scans
    rw [Table.insertMany?_rows hscans] at hnodup
    simp only [List.singleton_append, List.map_cons, List.nodup_cons] at hnodup
    exact hnodup.1 (List.mem_map.mpr ⟨s, hs, hsid.trans hmatch.1⟩)
  rw [hnew, hold, List.append_nil]

/-- A job of a request: an accept that is no replay has planned an asset for it, and
the bus has taken it. -/
structure ResultsIn (st : ScanStore) (orgId : OrgId) (trigger : ScanTrigger)
    (request : CreateScanRequest) (header : List String) (job : ScanJob) : Prop where
  planned : ∃ args st' scan, kickArgs calls orgId trigger request header = .ok args ∧
    st.persistKick args = some (st', scan, false) ∧ ∃ asset ∈ args.assets,
      job = queuedJob orgId (args.jobRow asset) asset.2 request.scannerType request.options
        (credentialRefsFor calls.integrations orgId (args.assets.map Prod.snd))
  published : calls.publish job = .ok ()

/-- The arguments of an accept carry the request, and plan an asset once. -/
theorem kickArgs_ok {orgId : OrgId} {trigger : ScanTrigger} {request : CreateScanRequest}
    {header : List String} {args : KickArgs}
    (h : kickArgs calls orgId trigger request header = .ok args) :
    args.orgId = orgId ∧ args.scannerType = request.scannerType ∧ args.options = request.options ∧
      (args.assets.map fun p => p.2.id).Nodup := by
  unfold kickArgs at h
  obtain ⟨key, -, h⟩ := bind_eq_ok.mp h
  obtain ⟨requestedBy, -, h⟩ := bind_eq_ok.mp h
  obtain rfl := Except.ok.inj h
  refine ⟨rfl, rfl, rfl, ?_⟩
  rw [List.map_map]
  exact nodup_plan calls.assets orgId request.scannerType request.assetSelector

/-- A dispatch publishes the payload for its asset, if there is one and the bus takes
it. -/
theorem publishQueuedJob_eq_ok {orgId : OrgId} {row : ScanJobRow} {asset : Option DispatchAsset}
    {scannerType : ScannerType} {options : JsonObject} {refs : AssocMap Uuid (Option String)}
    {job : ScanJob} :
    publishQueuedJob calls orgId row asset scannerType options refs = .ok job ↔
      ∃ a, asset = some a ∧ job = queuedJob orgId row a scannerType options refs ∧
        calls.publish job = .ok () := by
  unfold publishQueuedJob
  cases asset with
  | none => simp
  | some a =>
      cases hpublish : calls.publish (queuedJob orgId row a scannerType options refs) with
      | error message =>
          simp only [hpublish, bind, Except.bind, reduceCtorEq, Option.some_inj, false_iff]
          rintro ⟨a', rfl, rfl, hok⟩
          simp [hpublish] at hok
      | ok _ =>
          simp only [hpublish, bind, Except.bind, pure, Except.pure, Except.ok.injEq,
            Option.some_inj]
          constructor
          · rintro rfl
            exact ⟨a, rfl, rfl, hpublish⟩
          · rintro ⟨a', rfl, rfl, -⟩
            rfl

/-- The dispatch of a planned asset's row publishes the payload for that asset. -/
theorem dispatchJob_jobRow {args : KickArgs} (hnodup : (args.assets.map fun p => p.2.id).Nodup)
    {asset : Uuid × DispatchAsset} (hasset : asset ∈ args.assets) (job : ScanJob) :
    dispatchJob calls args (args.jobRow asset) = .ok job ↔
      job = queuedJob args.orgId (args.jobRow asset) asset.2 args.scannerType args.options
        (credentialRefsFor calls.integrations args.orgId (args.assets.map Prod.snd)) ∧
        calls.publish job = .ok () := by
  have hfind : ((args.assets.map Prod.snd).find? fun a =>
      decide (a.id = (args.jobRow asset).assetId)) = some asset.2 := by
    have hmem : asset.2 ∈ args.assets.map Prod.snd := List.mem_map_of_mem hasset
    have hids : ((args.assets.map Prod.snd).map DispatchAsset.id).Nodup := by
      rw [List.map_map]
      exact hnodup
    cases hfound : (args.assets.map Prod.snd).find? fun a =>
        decide (a.id = (args.jobRow asset).assetId) with
    | none => exact absurd (List.find?_eq_none.mp hfound asset.2 hmem) (by simp [KickArgs.jobRow])
    | some a =>
        have hid : a.id = asset.2.id := by
          have hmatch := List.find?_some hfound
          exact of_decide_eq_true hmatch
        rw [List.inj_on_of_nodup_map hids (List.mem_of_find?_eq_some hfound) hmem hid]
  unfold dispatchJob
  rw [publishQueuedJob_eq_ok, hfind]
  simp only [Option.some_inj, exists_eq_left']

/-- One dispatch publishes what it returns. -/
theorem mem_afterDispatch {orgId : OrgId} {row : ScanJobRow} {st : ScanStore}
    {result : Except String ScanJob} {job : ScanJob} :
    job ∈ (afterDispatch calls orgId row (st, []) result).2 ↔ result = .ok job := by
  cases result with
  | ok sent => simp [afterDispatch, eq_comm]
  | error message => simp [afterDispatch]

/-- The jobs published, if the request got that far. -/
def publishedJobs : Except String (ScanStore × List ScanJob) → List ScanJob
  | .ok result => result.2
  | .error _ => []

/-- `createScan` publishes the jobs the request results in. -/
theorem mem_publishedJobs_createScan {st : ScanStore} {orgId : OrgId} {trigger : ScanTrigger}
    {request : CreateScanRequest} {header : List String} {job : ScanJob} :
    job ∈ publishedJobs (createScan calls st orgId trigger request header) ↔
      ResultsIn calls st orgId trigger request header job := by
  unfold createScan
  cases hargs : kickArgs calls orgId trigger request header with
  | error message =>
      simp only [bind, Except.bind, publishedJobs, List.not_mem_nil, false_iff]
      rintro ⟨⟨args, -, -, hargs', -⟩, -⟩
      simp [hargs] at hargs'
  | ok args =>
      obtain ⟨horg, htype, hoptions, hnodup⟩ := kickArgs_ok calls hargs
      simp only [bind, Except.bind]
      have hresults : ResultsIn calls st orgId trigger request header job ↔
          ∃ st' scan, st.persistKick args = some (st', scan, false) ∧ ∃ asset ∈ args.assets,
            dispatchJob calls args (args.jobRow asset) = .ok job := by
        constructor
        · rintro ⟨⟨args', st', scan, hargs', hkick, asset, hasset, hjob⟩, hpublish⟩
          rw [hargs, Except.ok.injEq] at hargs'
          subst hargs'
          refine ⟨st', scan, hkick, asset, hasset, (dispatchJob_jobRow calls hnodup hasset job).mpr ?_⟩
          rw [horg, htype, hoptions]
          exact ⟨hjob, hpublish⟩
        · rintro ⟨st', scan, hkick, asset, hasset, hjob⟩
          rw [dispatchJob_jobRow calls hnodup hasset, horg, htype, hoptions] at hjob
          exact ⟨⟨args, st', scan, hargs, hkick, asset, hasset, hjob.1⟩, hjob.2⟩
      rw [hresults]
      cases hkick : st.persistKick args with
      | none => simp [publishedJobs]
      | some accepted =>
          obtain ⟨st', scan, replay⟩ := accepted
          cases replay with
          | true => simp [publishedJobs, pure, Except.pure]
          | false =>
              have hrows := rows_of_accept hkick
              rw [horg] at hrows
              simp only [pure, Except.pure, publishedJobs, foldl_afterDispatch, List.nil_append,
                hrows, List.mem_filterMap, List.mem_map]
              constructor
              · rintro ⟨row, ⟨asset, hasset, rfl⟩, hjob⟩
                refine ⟨st', scan, rfl, asset, hasset, ?_⟩
                cases hdispatch : dispatchJob calls args (args.jobRow asset) with
                | error message => simp [hdispatch, Except.toOption] at hjob
                | ok job' =>
                    simp only [hdispatch, Except.toOption, Option.some_inj] at hjob
                    rw [hjob]
              · rintro ⟨-, -, -, asset, hasset, hjob⟩
                exact ⟨args.jobRow asset, ⟨asset, hasset, rfl⟩, by simp [hjob, Except.toOption]⟩

/-- A job of a request carries its organisation, scanner type and options. -/
theorem ResultsIn.payload {st : ScanStore} {orgId : OrgId} {trigger : ScanTrigger}
    {request : CreateScanRequest} {header : List String} {job : ScanJob}
    (h : ResultsIn calls st orgId trigger request header job) :
    job.orgId = orgId ∧ job.scannerType = request.scannerType ∧ job.options = request.options := by
  obtain ⟨-, -, -, -, -, asset, -, rfl⟩ := h.planned
  exact ⟨rfl, rfl, rfl⟩

/-- A retry publishes at most one job, of the caller's organisation and without
options. -/
theorem retryJob_published {st : ScanStore} {orgId : OrgId} {jobId : Uuid} {job : ScanJob}
    (h : job ∈ (retryJob calls st orgId jobId).2) : job.orgId = orgId ∧ job.options = [] := by
  unfold retryJob at h
  split at h
  · simp at h
  · split at h
    · simp at h
    · split at h
      · simp at h
      · split at h
        · rw [mem_afterDispatch, publishQueuedJob_eq_ok] at h
          obtain ⟨asset, -, rfl, -⟩ := h
          exact ⟨rfl, rfl⟩
        · simp at h

end Dispatch

end Orchestrator
end Ctem
