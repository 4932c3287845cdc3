import Ctem.Foundation.Runs
import Ctem.Orchestrator.ScanDispatcher
import Ctem.Scanner.StoreAccess

/-!
# Whose objects a job touches

Object keys carry their organisation as a prefix, and the store checks nothing: a job
stays with its own organisation only if the key its options name does.

* `TouchesOwn`: every access of a job lies under its organisation's prefix, and what
  the job reports does not depend on the objects outside it.
* `touchesOwn_iff`: a job does so unless it is an SCA job and names an object outside.
* `dispatched_touchesOwn_iff`: over a run of requests, retries and completions.
-/

namespace Ctem
namespace Orchestrator

open Foundation Contracts Scanner Findings
open Scanner.ArtifactStore (HasPrefix orgPrefix hasPrefix_key)

section TouchesOwn

variable {γ : Type} (w : Workers γ)

/-- A job touches the objects of its organisation only. -/
structure TouchesOwn (job : ScanJob) : Prop where
  keys : ∀ a ∈ w.accesses job, HasPrefix a.key (orgPrefix job.orgId)
  independent : ∀ getJson, (∀ key, HasPrefix key (orgPrefix job.orgId) → getJson key = w.getJson key) →
    ∀ startedAt finishedAt,
      (w.onStore getJson w.putJson).run job startedAt finishedAt = w.run job startedAt finishedAt

/-- The SBOM artifact the options of an SCA scan name, if any, is one of the
organisation. -/
def NamesOwn (orgId : OrgId) (scannerType : ScannerType) (options : JsonObject) : Prop :=
  scannerType = .sca → ∀ value key,
    (options.get? "sbomArtifactKey").filter Json.truthy = some value →
    requestKey w.objectKey value = .ok key → HasPrefix key (orgPrefix orgId)

/-- The keys of a job decide: what it reports depends on the objects it reads alone. -/
theorem touchesOwn_of_keys {job : ScanJob}
    (hkeys : ∀ a ∈ w.accesses job, HasPrefix a.key (orgPrefix job.orgId)) : TouchesOwn w job where
  keys := hkeys
  independent := by
    intro getJson hagree startedAt finishedAt
    apply Workers.run_congr
    · intro key hkey
      exact hagree key (hkeys _ hkey)
    · intro key hkey
      rfl

/-- What a worker writes lies under the organisation of its job. -/
theorem writes_own {job : ScanJob} {a : StoreAccess} (ha : a ∈ w.writes job) :
    HasPrefix a.key (orgPrefix job.orgId) := by
  unfold Workers.writes at ha
  split at ha
  · split at ha
    · rw [List.mem_singleton] at ha
      subst ha
      exact hasPrefix_key job.orgId .scan [job.scanId, job.jobId ++ ".json"]
    · simp at ha
  · simp at ha

/-- A key is read precisely by an SCA job whose options send it. -/
theorem mem_reads {job : ScanJob} {a : StoreAccess} :
    a ∈ w.reads job ↔ job.scannerType = .sca ∧ ∃ value key,
      (job.options.get? "sbomArtifactKey").filter Json.truthy = some value ∧
        requestKey w.objectKey value = .ok key ∧ a = .read key := by
  unfold Workers.reads sbomKey?
  by_cases hsca : job.scannerType = .sca
  · simp only [hsca, if_true, true_and]
    cases hvalue : (job.options.get? "sbomArtifactKey").filter Json.truthy with
    | none => simp
    | some value =>
        cases hkey : requestKey w.objectKey value with
        | error message => simp [hkey]
        | ok key => simp [hkey]
  · simp [hsca]

/-- A job touches its organisation's objects only, precisely when it is no SCA job or
its options name none, or one of its organisation. -/
theorem touchesOwn_iff (job : ScanJob) :
    TouchesOwn w job ↔ NamesOwn w job.orgId job.scannerType job.options := by
  constructor
  · intro h hsca value key hvalue hkey
    apply h.keys (.read key)
    unfold Workers.accesses Workers.takes
    simp only [hsca, decide_true, Bool.true_or, if_true, List.mem_append]
    exact Or.inl ((mem_reads w).mpr ⟨hsca, value, key, hvalue, hkey, rfl⟩)
  · intro h
    apply touchesOwn_of_keys
    intro a ha
    unfold Workers.accesses at ha
    split at ha
    · rcases List.mem_append.mp ha with hread | hwrite
      · obtain ⟨hsca, value, key, hvalue, hkey, rfl⟩ := (mem_reads w).mp hread
        exact h hsca value key hvalue hkey
      · exact writes_own w hwrite
    · simp at ha

end TouchesOwn

/-! ## Runs -/

/-- The orchestrator's tables, and every job published so far. -/
structure Dispatch where
  store : ScanStore
  published : List ScanJob

/-- What reaches the orchestrator. -/
inductive DispatchEvent where
  | scanPosted (calls : DispatchCalls) (orgId : OrgId) (body : Json) (header : List String)
  | sbomPosted (calls : DispatchCalls) (orgId : OrgId) (body : Json) (header : List String)
  | retryPosted (calls : DispatchCalls) (orgId : OrgId) (jobId : Uuid)
  | lifecycle (event : LifecycleEvent)

/-- The state behind a request; one that throws leaves it. -/
def Dispatch.after (d : Dispatch) : Except String (ScanStore × List ScanJob) → Dispatch
  | .ok result => ⟨result.1, d.published ++ result.2⟩
  | .error _ => d

/-- The effect of an event; a body the schema refuses has none. -/
def dispatchStep (d : Dispatch) : DispatchEvent → Dispatch
  | .scanPosted calls orgId body header =>
      match CreateScanRequest.parse body with
      | some request => d.after (createScan calls d.store orgId .manual request header)
      | none => d
  | .sbomPosted calls orgId body header =>
      match IngestSbomRequest.parse body with
      | some request => d.after (ingestSbom calls d.store orgId request header)
      | none => d
  | .retryPosted calls orgId jobId => d.after (.ok (retryJob calls d.store orgId jobId))
  | .lifecycle event => { d with store := lifecycleStep d.store event }

/-- The orchestrator as a transition system: any client may post anything. -/
def dispatcher : System Dispatch DispatchEvent where
  step := dispatchStep
  allowed := fun _ _ => True

/-- Every job published so far touches its organisation's objects only. -/
def AllTouchOwn {γ : Type} (w : Workers γ) (d : Dispatch) : Prop :=
  ∀ job ∈ d.published, TouchesOwn w job

section Runs

variable {γ : Type} (w : Workers γ)

/-- The request names none of another organisation's objects, or results in no job. -/
def RequestsOwn (d : Dispatch) : DispatchEvent → Prop
  | .scanPosted calls orgId body header =>
      ∀ request, CreateScanRequest.parse body = some request →
        (∃ job, ResultsIn calls d.store orgId .manual request header job) →
          NamesOwn w orgId request.scannerType request.options
  | .sbomPosted calls orgId body header =>
      ∀ request asset key, IngestSbomRequest.parse body = some request →
        assetByKey calls orgId request.assetExternalKey = some asset →
        request.artifactKey = some key →
        (∃ job, ResultsIn calls d.store orgId .ci (sbomScanRequest asset.id key request) header job) →
          key = "" ∨ HasPrefix key (orgPrefix orgId)
  | .retryPosted _ _ _ => True
  | .lifecycle _ => True

theorem publishedJobs_after (d : Dispatch) (result : Except String (ScanStore × List ScanJob)) :
    (d.after result).published = d.published ++ publishedJobs result := by
  cases result with
  | ok result => rfl
  | error message => simp [Dispatch.after, publishedJobs]

/-- The jobs of a request touch own objects only, precisely when its options name
none of another organisation or there are no jobs. -/
theorem createScan_touchesOwn_iff {calls : DispatchCalls} {st : ScanStore} {orgId : OrgId}
    {trigger : ScanTrigger} {request : CreateScanRequest} {header : List String} :
    (∀ job ∈ publishedJobs (createScan calls st orgId trigger request header), TouchesOwn w job) ↔
      ((∃ job, ResultsIn calls st orgId trigger request header job) →
        NamesOwn w orgId request.scannerType request.options) := by
  constructor
  · rintro hall ⟨job, hjob⟩
    have htouches := hall job ((mem_publishedJobs_createScan calls).mpr hjob)
    obtain ⟨horg, htype, hoptions⟩ := ResultsIn.payload calls hjob
    rwa [touchesOwn_iff, horg, htype, hoptions] at htouches
  · intro hnames job hjob
    have hresults := (mem_publishedJobs_createScan calls).mp hjob
    obtain ⟨horg, htype, hoptions⟩ := ResultsIn.payload calls hresults
    rw [touchesOwn_iff, horg, htype, hoptions]
    exact hnames ⟨job, hresults⟩

/-- The options of an SBOM scan name an own object precisely when its key does, or is
empty. -/
theorem namesOwn_sbomOptions {orgId : OrgId} {key : String} {body : IngestSbomRequest} :
    NamesOwn w orgId .sca (sbomOptions key body) ↔ key = "" ∨ HasPrefix key (orgPrefix orgId) := by
  have hget : JsonObject.get? (sbomOptions key body) "sbomArtifactKey" = some (.str key) := by
    unfold sbomOptions
    cases body.ref with
    | none => rfl
    | some ref => rfl
  unfold NamesOwn
  simp only [hget, forall_const]
  by_cases hempty : key = ""
  · subst hempty
    simp [Option.filter]
  · simp only [Option.filter, Json.truthy_str, hempty, ne_eq, not_false_eq_true, decide_true,
      if_true, Option.some_inj, false_or]
    constructor
    · intro h
      exact h _ key rfl rfl
    · rintro h value key' rfl hkey
      simp only [requestKey, Except.ok.injEq] at hkey
      exact hkey ▸ h

/-- An ingest publishes own jobs precisely when a key its body names is an own one, is
empty or results in no job; the key of an inline document always is. -/
theorem ingestSbom_touchesOwn_iff {calls : DispatchCalls} {st : ScanStore} {orgId : OrgId}
    {body : IngestSbomRequest} {header : List String} :
    (∀ job ∈ publishedJobs (ingestSbom calls st orgId body header), TouchesOwn w job) ↔
      ∀ asset key, assetByKey calls orgId body.assetExternalKey = some asset →
        body.artifactKey = some key →
        (∃ job, ResultsIn calls st orgId .ci (sbomScanRequest asset.id key body) header job) →
          key = "" ∨ HasPrefix key (orgPrefix orgId) := by
  unfold ingestSbom
  cases hasset : assetByKey calls orgId body.assetExternalKey with
  | none => simp [publishedJobs]
  | some asset =>
      cases hkey : body.artifactKey with
      | some key =>
          simp only [bind, Except.bind, pure, Except.pure, Option.some_inj]
          rw [createScan_touchesOwn_iff]
          change (_ → NamesOwn w orgId .sca (sbomOptions key body)) ↔ _
          rw [namesOwn_sbomOptions]
          constructor
          · rintro h asset' key' rfl rfl
            exact h
          · intro h
            exact h asset key rfl rfl
      | none =>
          simp only [reduceCtorEq, false_implies, implies_true, iff_true]
          intro job hjob
          cases hput : calls.putJson (uploadKey calls orgId asset.id)
              (.obj (body.document.getD [])) with
          | error message => simp [hput, bind, Except.bind, publishedJobs] at hjob
          | ok _ =>
              simp only [hput, bind, Except.bind, pure, Except.pure] at hjob
              refine (createScan_touchesOwn_iff w).mpr (fun _ => ?_) job hjob
              exact (namesOwn_sbomOptions w).mpr (Or.inr (hasPrefix_key orgId .sbom _))

/-- A step keeps every job on its own organisation's objects precisely when it requests
own objects. -/
theorem dispatchStep_allTouchOwn_iff {d : Dispatch} (hall : AllTouchOwn w d) (event : DispatchEvent) :
    AllTouchOwn w (dispatchStep d event) ↔ RequestsOwn w d event := by
  have hafter : ∀ result, AllTouchOwn w (d.after result) ↔
      ∀ job ∈ publishedJobs result, TouchesOwn w job := by
    intro result
    unfold AllTouchOwn
    rw [publishedJobs_after, List.forall_mem_append]
    exact ⟨fun h => h.2, fun h => ⟨hall, h⟩⟩
  cases event with
  | scanPosted calls orgId body header =>
      simp only [dispatchStep, RequestsOwn]
      cases hparse : CreateScanRequest.parse body with
      | none => simp [hall]
      | some request =>
          simp only [Option.some_inj, forall_eq']
          rw [hafter, createScan_touchesOwn_iff]
  | sbomPosted calls orgId body header =>
      simp only [dispatchStep, RequestsOwn]
      cases hparse : IngestSbomRequest.parse body with
      | none => simp [hall]
      | some request =>
          simp only [Option.some_inj]
          rw [hafter, ingestSbom_touchesOwn_iff]
          constructor
          · rintro h request' asset key rfl
            exact h asset key
          · intro h asset key
            exact h request asset key rfl
  | retryPosted calls orgId jobId =>
      simp only [dispatchStep, RequestsOwn, iff_true]
      rw [hafter]
      intro job hjob
      obtain ⟨-, hoptions⟩ := retryJob_published calls hjob
      rw [touchesOwn_iff, hoptions]
      intro _ value key hvalue
      simp at hvalue
  | lifecycle event =>
      simp only [dispatchStep, RequestsOwn, iff_true]
      exact hall

/-- Over any run of requests, retries and completions, every job published touches its
own organisation's objects only, precisely when every request that results in a job
names no object, or one of its own organisation. -/
theorem dispatched_touchesOwn_iff (store : ScanStore) (events : List DispatchEvent) :
    (∀ d ∈ dispatcher.states ⟨store, []⟩ events, AllTouchOwn w d) ↔
      dispatcher.AllSteps (RequestsOwn w) ⟨store, []⟩ events := by
  apply dispatcher.forall_states_iff_allSteps (I := fun _ => True)
  · intro _ _ _ _
    trivial
  · intro d event _ hall _
    exact dispatchStep_allTouchOwn_iff w hall event
  · trivial
  · intro job hjob
    simp at hjob
  · exact dispatcher.legal_of_forall_allowed (fun _ _ => trivial) _ events

end Runs

/-! ## A key of another organisation -/

def acme : OrgId := "4a6f9f4e-1111-4222-8333-444455556666"

def globex : OrgId := "bbbbbbbb-2222-4333-8444-555566667777"

/-- An SBOM of globex. -/
def globexKey : String := "org=bbbbbbbb-2222-4333-8444-555566667777/sbom/a9/1.json"

/-- A scan request of acme's that names it. -/
def globexBody : Json :=
  .obj [("scannerType", .str "sca"), ("options", .obj [("sbomArtifactKey", .str globexKey)])]

/-- acme has one repository. -/
def acmeCalls : DispatchCalls where
  assets :=
    ⟨[{ id := "aaaaaaaa-aaaa-4aaa-8aaa-aaaaaaaaaaa1"
        orgId := acme
        kind := "repository"
        externalKey := "github:acme/api" }],
      List.nodup_singleton _⟩
  integrations := Table.empty
  requestedBy := .ok none
  scanId := "aaaaaaaa-aaaa-4aaa-8aaa-aaaaaaaaaaaa"
  jobId := fun _ => "aaaaaaaa-aaaa-4aaa-8aaa-aaaaaaaaaaa2"
  now := 0
  publish := fun _ => .ok ()
  putJson := fun _ _ => .ok ()

/-- Workers on a store in which globex's SBOM is an object, or is none. -/
def globexWorkers (stored : Bool) : Workers Unit where
  objectKey := fun _ => .error "Key is no string"
  getJson := fun key =>
    if stored && decide (key = globexKey) then .ok (.cyclonedx {}) else .error "NoSuchKey"
  putJson := fun _ _ => .ok ()
  publishFindings := fun _ => .ok ()
  sca := fun _ =>
    { objectKey := fun _ => .error ""
      getJson := fun _ => .error ""
      decode := .ok
      checkout := fun _ => .error "no clone"
      localeLess := fun _ _ => false
      parsers := []
      analyze := fun _ => .ok none
      verdictForComponent := fun _ _ => "unknown"
      inTime := fun _ => true
      runtime := ⟨fun _ => none, fun _ => "", id⟩
      matcher :=
        { findSync := fun _ => .ok none
          findAffects := fun _ => .ok []
          queryOsv := fun _ => .ok [] } }
  supports := fun _ => true
  execute := fun _ => .error "not this scanner"

/-- The job the request results in. -/
def globexJob : ScanJob where
  jobId := "aaaaaaaa-aaaa-4aaa-8aaa-aaaaaaaaaaa2"
  scanId := "aaaaaaaa-aaaa-4aaa-8aaa-aaaaaaaaaaaa"
  orgId := acme
  scannerType := .sca
  assetId := "aaaaaaaa-aaaa-4aaa-8aaa-aaaaaaaaaaa1"
  target := [("externalKey", .str "github:acme/api"), ("kind", .str "repository")]
  options := [("sbomArtifactKey", .str globexKey)]

/-- acme's request is accepted, its job reads globex's object, and whether the job
succeeds depends on that object. -/
theorem foreign_sbom_is_read :
    (dispatcher.run ⟨ScanStore.empty, []⟩ [.scanPosted acmeCalls acme globexBody []]).published =
        [globexJob] ∧
      globexJob.orgId = acme ∧
      StoreAccess.read globexKey ∈ (globexWorkers true).accesses globexJob ∧
      ¬ HasPrefix globexKey (orgPrefix acme) ∧
      ((globexWorkers true).run globexJob 0 0).map (fun run => run.completed.status) =
        some .succeeded ∧
      ((globexWorkers false).run globexJob 0 0).map (fun run => run.completed.status) =
        some .failed := by
  exact ⟨rfl, rfl, by decide, by decide, rfl, rfl⟩

end Orchestrator
end Ctem
