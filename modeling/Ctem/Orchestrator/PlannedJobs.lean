import Ctem.Foundation.JsCoercion
import Ctem.Orchestrator.ScanDispatcher
import Ctem.Scanner.Worker

/-!
# Planned jobs and what the workers support

The planner selects assets by kind, `scanJobTarget` spreads the attributes of the asset over
the kind it was planned for, and a worker acknowledges a job that its scanner does not support
without a completion.

* `handleJob` is what a worker does with one delivery of a job, in order.
* `planned_job_completed_iff`: the job of a planned asset is acknowledged behind its completion
  only, as long as its attributes leave a kind that the planner admits.
-/

namespace Ctem
namespace Orchestrator

open Foundation Contracts Scanner Findings
open ScanStore (DispatchAsset)

/-! ## What the scanners support -/

section Supports

-- `Number.prototype.toString`
variable (numberText : Rat → String)

/-- `job.target.kind`. -/
def targetKind (job : ScanJob) : Option Json :=
  JsonObject.get? job.target "kind"

/-- The kind is one of these strings. -/
def kindIs (kinds : List String) (kind : Option Json) : Bool :=
  match kind with
  | some (.str k) => decide (k ∈ kinds)
  | _ => false

/-- `String(job.target?.kind ?? '')`. -/
def kindText (kind : Option Json) : String :=
  match kind with
  | none => ""
  | some .null => ""
  | some value => stringOf numberText value

/-- `BaseScanner.supports`, which the SCA scanner leaves as it is. -/
def scaSupports (_job : ScanJob) : Bool := true

def sastSupports (job : ScanJob) : Bool :=
  kindIs ["repository"] (targetKind job)

def containerSupports (job : ScanJob) : Bool :=
  kindIs ["container_image"] (targetKind job)

def iacSupports (job : ScanJob) : Bool :=
  kindIs ["repository", "iac_stack"] (targetKind job)

def cspmSupports (job : ScanJob) : Bool :=
  kindIs ["cloud_resource"] (targetKind job)

def asmSupports (job : ScanJob) : Bool :=
  decide (kindText numberText (targetKind job) ∈
    ["domain", "host", "web_application", "api_endpoint", "ip_range"])

/-- `supports` of the scanner of a type; nothing scans for secrets yet. -/
def workerSupports : ScannerType → Option (ScanJob → Bool)
  | .sca => some scaSupports
  | .sast => some sastSupports
  | .container => some containerSupports
  | .iac => some iacSupports
  | .secrets => none
  | .asm => some (asmSupports numberText)
  | .cloudPosture => some cspmSupports

end Supports

/-! ## One delivery of a job -/

/-- How the calls around a run turn out, besides those of the run. -/
structure JobCalls extends WorkerCalls where
  mkdtemp : Except String Unit
  /-- `bus.publish` of the completion. -/
  publishCompleted : ScanJobResult → Except String Unit

/-- What a worker sends while it handles a delivery. -/
inductive WorkerEffect where
  | reported (batch : FindingsReportedPayload)
  | completed (result : ScanJobResult)
  | acked
  | nacked

/-- `runJob`, and what `handleMessage` makes of how it ends. -/
def runJobEffects (calls : JobCalls) (job : ScanJob) (startedAt finishedAt : Timestamp) :
    List WorkerEffect :=
  match calls.mkdtemp with
  | .error _ => [.nacked]
  | .ok _ =>
      let run := runJob calls.toWorkerCalls job startedAt finishedAt
      (run.findingsReported.map WorkerEffect.reported).toList ++
        match calls.publishCompleted run.completed with
        | .ok _ => [.completed run.completed, .acked]
        | .error _ => [.nacked]

/-- The subscription of the worker of a type: a job of another type, or one that the scanner
does not support, is acknowledged as it is. -/
def handleJob (type : ScannerType) (supports : ScanJob → Bool) (calls : JobCalls) (job : ScanJob)
    (startedAt finishedAt : Timestamp) : List WorkerEffect :=
  if job.scannerType ≠ type then [.acked]
  else if supports job then runJobEffects calls job startedAt finishedAt
  else [.acked]

/-- The delivery is acknowledged behind a completion of the job only. -/
def AcksCompleted (job : ScanJob) (effects : List WorkerEffect) : Prop :=
  ∀ before after, effects = before ++ .acked :: after →
    ∃ result, .completed result ∈ before ∧ result.jobId = job.jobId ∧ result.scanId = job.scanId

/-- The worker accepts the job, and acknowledges no delivery without its completion. -/
structure Completes (type : ScannerType) (supports : ScanJob → Bool) (job : ScanJob) : Prop where
  supported : supports job = true
  acks : ∀ calls startedAt finishedAt,
    AcksCompleted job (handleJob type supports calls job startedAt finishedAt)

/-- The attributes of an asset do not replace its kind, or only by one the planner admits for
the scanner; the ASM worker compares its text, and the SCA worker none. -/
def KindKept (numberText : Rat → String) (type : ScannerType) (attributes : Json) : Prop :=
  match attributes.get? "kind" with
  | none => True
  | some kind =>
      match type with
      | .sca => True
      | .asm => kindText numberText (some kind) ∈ scannerAssetKinds .asm
      | _ => kindIs (scannerAssetKinds type) (some kind) = true

section Completed

variable {numberText : Rat → String} {type : ScannerType} {supports : ScanJob → Bool}

/-- A delivery that is not acknowledged. -/
theorem acksCompleted_of_not_mem {job : ScanJob} {effects : List WorkerEffect}
    (h : WorkerEffect.acked ∉ effects) : AcksCompleted job effects := by
  intro before after heffects
  refine absurd ?_ h
  rw [heffects]
  exact List.mem_append_right before List.mem_cons_self

/-- A completion of the job, and then the acknowledgement. -/
theorem acksCompleted_concat {job : ScanJob} {sent : List WorkerEffect} {result : ScanJobResult}
    (hsent : WorkerEffect.acked ∉ sent) (hjob : result.jobId = job.jobId)
    (hscan : result.scanId = job.scanId) :
    AcksCompleted job (sent ++ [.completed result, .acked]) := by
  intro before after heffects
  rcases List.append_eq_append_iff.mp heffects with ⟨rest, hbefore, hrest⟩ | ⟨rest, hsent', hrest⟩
  · -- the acknowledgement is the one at the end
    cases rest with
    | nil => cases hrest
    | cons effect rest =>
        obtain ⟨rfl, -⟩ := List.cons.inj hrest
        refine ⟨result, ?_, hjob, hscan⟩
        rw [hbefore]
        exact List.mem_append_right sent List.mem_cons_self
  · cases rest with
    | nil => cases hrest
    | cons effect rest =>
        obtain ⟨rfl, -⟩ := List.cons.inj hrest
        refine absurd ?_ hsent
        rw [hsent']
        exact List.mem_append_right before List.mem_cons_self

/-- A run acknowledges behind its completion. -/
theorem acksCompleted_runJobEffects (calls : JobCalls) (job : ScanJob)
    (startedAt finishedAt : Timestamp) :
    AcksCompleted job (runJobEffects calls job startedAt finishedAt) := by
  obtain ⟨hjob, hscan, -⟩ := runJob_ids calls.toWorkerCalls job startedAt finishedAt
  have hreported : WorkerEffect.acked ∉ ((runJob calls.toWorkerCalls job startedAt
      finishedAt).findingsReported.map WorkerEffect.reported).toList := by
    cases (runJob calls.toWorkerCalls job startedAt finishedAt).findingsReported <;> simp
  unfold runJobEffects
  split
  · exact acksCompleted_of_not_mem (by simp)
  · simp only
    split
    · exact acksCompleted_concat hreported hjob hscan
    · refine acksCompleted_of_not_mem ?_
      rw [List.mem_append, not_or]
      exact ⟨hreported, by simp⟩

/-- A job that the scanner does not support is acknowledged without a completion. -/
theorem not_acksCompleted_unsupported {job : ScanJob} (hsupports : supports job = false)
    (calls : JobCalls) (startedAt finishedAt : Timestamp) :
    ¬ AcksCompleted job (handleJob type supports calls job startedAt finishedAt) := by
  intro hacks
  have hignored : handleJob type supports calls job startedAt finishedAt = [.acked] := by
    unfold handleJob
    simp [hsupports]
  obtain ⟨result, hbefore, -⟩ := hacks [] [] hignored
  exact absurd hbefore List.not_mem_nil

/-- A worker completes the jobs of its type that its scanner supports. -/
theorem completes_iff {job : ScanJob} (htype : job.scannerType = type) :
    Completes type supports job ↔ supports job = true := by
  constructor
  · exact fun h => h.supported
  · intro hsupports
    refine ⟨hsupports, ?_⟩
    intro calls startedAt finishedAt
    unfold handleJob
    rw [if_neg (fun hne => hne htype), if_pos hsupports]
    exact acksCompleted_runJobEffects calls job startedAt finishedAt

/-! ## The jobs of planned assets -/

/-- A kind that the attributes name replaces the kind of the asset. -/
theorem targetKind_queuedJob (orgId : OrgId) (row : ScanJobRow) (asset : DispatchAsset)
    (options : JsonObject) (refs : AssocMap Uuid (Option String)) :
    targetKind (queuedJob orgId row asset type options refs) =
      (asset.attributes.get? "kind").or (some (.str asset.kind)) := by
  show JsonObject.get? (scanJobTarget asset) "kind" = _
  unfold scanJobTarget
  rw [JsonObject.get?_append]
  rfl

/-- The planner selects assets of the kinds of its table. -/
theorem kind_of_planned {assets : Table AssetRow AssetRow.id} {orgId : OrgId}
    {selector : AssetSelector} {asset : DispatchAsset}
    (hasset : asset ∈ plan assets orgId type selector) :
    asset.kind ∈ scannerAssetKinds type := by
  obtain ⟨row, hrow, rfl⟩ := List.mem_map.mp hasset
  have hselected := (List.mem_filter.mp hrow).2
  unfold selected at hselected
  simp only [Bool.and_eq_true, decide_eq_true_eq] at hselected
  obtain ⟨-, ⟨⟨-, hkind⟩, -⟩, -⟩ := hselected
  show row.kind ∈ scannerAssetKinds type
  unfold plannedKinds at hkind
  split at hkind
  · exact of_decide_eq_true (List.mem_filter.mp hkind).2
  · exact hkind

/-- What a scanner supports is what the planner's table says of the kind in the target. -/
theorem supports_iff (hworker : workerSupports numberText type = some supports) (job : ScanJob) :
    supports job = true ↔ type = .sca ∨
      (type = .asm ∧ kindText numberText (targetKind job) ∈ scannerAssetKinds .asm) ∨
      (type ≠ .sca ∧ type ≠ .asm ∧ kindIs (scannerAssetKinds type) (targetKind job) = true) := by
  cases type with
  | secrets => cases hworker
  | sca =>
      obtain rfl := Option.some.inj hworker
      simp [scaSupports]
  | asm =>
      obtain rfl := Option.some.inj hworker
      -- the two tables list the kinds in different orders
      simp only [asmSupports, scannerAssetKinds, decide_eq_true_eq, List.mem_cons, List.not_mem_nil,
        or_false, reduceCtorEq, false_or, true_and, not_true_eq_false, ne_eq, false_and, and_false]
      tauto
  | sast =>
      obtain rfl := Option.some.inj hworker
      simp [sastSupports, scannerAssetKinds]
  | container =>
      obtain rfl := Option.some.inj hworker
      simp [containerSupports, scannerAssetKinds]
  | iac =>
      obtain rfl := Option.some.inj hworker
      simp [iacSupports, scannerAssetKinds]
  | cloudPosture =>
      obtain rfl := Option.some.inj hworker
      simp [cspmSupports, scannerAssetKinds]

/-- **Planned jobs.**  For every scanner that has a worker and every asset the planner selects for
it: the worker accepts the asset's job and acknowledges no delivery of it without a completion,
precisely when the attributes of the asset keep its kind. -/
theorem planned_job_completed_iff (numberText : Rat → String) (type : ScannerType)
    (supports : ScanJob → Bool) (hworker : workerSupports numberText type = some supports)
    (assets : Table AssetRow AssetRow.id) (orgId : OrgId) (selector : AssetSelector)
    (asset : DispatchAsset) (hasset : asset ∈ plan assets orgId type selector) (row : ScanJobRow)
    (options : JsonObject) (refs : AssocMap Uuid (Option String)) :
    Completes type supports (queuedJob orgId row asset type options refs) ↔
      KindKept numberText type asset.attributes := by
  have hkind := kind_of_planned hasset
  have hcompletes : Completes type supports (queuedJob orgId row asset type options refs) ↔
      supports (queuedJob orgId row asset type options refs) = true := completes_iff rfl
  rw [hcompletes, supports_iff hworker, targetKind_queuedJob]
  unfold KindKept
  cases hattribute : asset.attributes.get? "kind" with
  | none =>
      -- the target has the kind the asset was planned for
      simp only [Option.none_or, iff_true]
      cases type <;> simp_all [kindIs, kindText, stringOf]
  | some kind =>
      simp only [Option.some_or]
      cases type <;> simp

end Completed

namespace LabelledRepo

/-- A repository with the attributes. -/
def asset (attributes : Json) : AssetRow where
  id := "6f1c0b7e-0000-4000-8000-0000000000c1"
  orgId := "6f1c0b7e-0000-4000-8000-0000000000a1"
  kind := "repository"
  externalKey := "github:shop/web"
  attributes := attributes

def assets (attributes : Json) : Table AssetRow AssetRow.id :=
  ⟨[asset attributes], List.nodup_singleton _⟩

/-- The job of its SAST scan. -/
def row : ScanJobRow where
  id := "6f1c0b7e-0000-4000-8000-0000000000e1"
  orgId := "6f1c0b7e-0000-4000-8000-0000000000a1"
  scanId := "6f1c0b7e-0000-4000-8000-0000000000d1"
  assetId := "6f1c0b7e-0000-4000-8000-0000000000c1"
  scannerType := .sast

/-- Every call gets through. -/
def calls : JobCalls where
  execute := fun _ => .ok ⟨[], none, [], []⟩
  putJson := fun _ _ => .ok ()
  publishFindings := fun _ => .ok ()
  mkdtemp := .ok ()
  publishCompleted := fun _ => .ok ()

end LabelledRepo

open LabelledRepo in
/-- The SAST job of a repository whose attributes name no kind is completed. -/
theorem planned_job_completed_plain :
    Completes .sast sastSupports (queuedJob row.orgId row
      (dispatchAsset (asset (.obj [("stars", .num 3)]))) .sast [] []) :=
  (planned_job_completed_iff (fun _ => "") .sast sastSupports rfl
    (assets (.obj [("stars", .num 3)])) row.orgId {}
    (dispatchAsset (asset (.obj [("stars", .num 3)]))) (List.mem_singleton_self _) row [] []).mpr
    trivial

open LabelledRepo in
/-- The SAST job of a repository whose attributes call it a library is acknowledged and
forgotten. -/
theorem labelled_job_forgotten :
    ¬ ∀ (numberText : Rat → String) (type : ScannerType) (supports : ScanJob → Bool),
      workerSupports numberText type = some supports →
      ∀ (assets : Table AssetRow AssetRow.id) (orgId : OrgId) (selector : AssetSelector)
        (asset : DispatchAsset), asset ∈ plan assets orgId type selector →
      ∀ (row : ScanJobRow) (options : JsonObject) (refs : AssocMap Uuid (Option String)),
        Completes type supports (queuedJob orgId row asset type options refs) := by
  intro hall
  have hcompletes := hall (fun _ => "") .sast sastSupports rfl
    (assets (.obj [("kind", .str "library")])) row.orgId {}
    (dispatchAsset (asset (.obj [("kind", .str "library")]))) (List.mem_singleton_self _) row [] []
  exact not_acksCompleted_unsupported (by decide +kernel) calls 0 0 (hcompletes.acks calls 0 0)

end Orchestrator
end Ctem
