import Ctem.Foundation.Runs
import Ctem.Orchestrator.GithubChecks
import Ctem.Orchestrator.ScanAccept
import Ctem.Orchestrator.ScanDispatcher
import Ctem.Scanner.ScaScanner

/-!
# The commit of a check run

The commit a check run is posted on is read off the options of the scan; the assets come from
the selector of the request, and the ref from other options, or from the attributes of the asset.

* `AboutCommit`: the jobs of the scan were for the repository of the check run, and their workers
  have checked out its commit.
* `Linked` is what every run keeps of scans, jobs, payloads and check runs, as long as each
  request and each retry agree with the context of the scan.
* A payload stays on the bus and may be checked out any number of times, and a check run may be
  published at any moment; the service does both less often.
-/

namespace Ctem
namespace Orchestrator

open Foundation Contracts Scanner Findings Policy
open ScanStore (KickArgs DispatchAsset)

/-! ## The run of a scan, up to its check -/

/-- A payload on the bus, with the asset it was made from. -/
structure SentJob where
  asset : AssetRow
  job : ScanJob

structure CommitWorld where
  scans : ScanStore
  onBus : List SentJob := []
  /-- The payloads a worker has checked the repository out for. -/
  checkedOut : List SentJob := []
  checks : List CheckRun := []

inductive CommitEvent where
  | createScan (calls : DispatchCalls) (orgId : OrgId) (trigger : ScanTrigger)
      (request : CreateScanRequest) (header : List String)
  | retryJob (calls : DispatchCalls) (orgId : OrgId) (jobId : Uuid)
  /-- A report of a worker, or a dispatch that failed. -/
  | lifecycle (event : LifecycleEvent)
  | checkout (index : Nat)
  | publish (orgId : OrgId) (scanId : Uuid) (policy : PolicyDb) (now : Timestamp)

/-- The worker of the job checks its repository out: the SAST and IaC ones always, the SCA one
unless it was given an SBOM. -/
def checksOut (job : ScanJob) : Bool :=
  match job.scannerType with
  | .sast => true
  | .iac => true
  | .sca => (sbomKey? job).isNone
  | _ => false

/-- The jobs a call has published, with their assets. -/
def sentJobs (calls : DispatchCalls) (jobs : List ScanJob) : List SentJob :=
  jobs.filterMap fun job => (calls.assets.find? job.assetId).map fun asset => ⟨asset, job⟩

namespace CommitWorld

/-- The tables and the jobs of a call. -/
def after (w : CommitWorld) (calls : DispatchCalls) (result : ScanStore × List ScanJob) :
    CommitWorld :=
  { w with scans := result.1, onBus := w.onBus ++ sentJobs calls result.2 }

def step (env : ChecksEnv) (w : CommitWorld) : CommitEvent → CommitWorld
  | .createScan calls orgId trigger request header =>
      match createScan calls w.scans orgId trigger request header with
      | .ok result => w.after calls result
      | .error _ => w
  | .retryJob calls orgId jobId => w.after calls (retryJob calls w.scans orgId jobId)
  | .lifecycle event => { w with scans := lifecycleStep w.scans event }
  | .checkout index =>
      match w.onBus[index]? with
      | none => w
      | some sent =>
          if checksOut sent.job then { w with checkedOut := w.checkedOut ++ [sent] } else w
  | .publish orgId scanId policy now =>
      { w with
        checks := w.checks ++ (publishCheck env w.scans policy orgId scanId now).toList }

/-- Nothing constrains what happens next. -/
def system (env : ChecksEnv) : System CommitWorld CommitEvent where
  step := step env
  allowed := fun _ _ => True

/-- Before the first scan. -/
def start : CommitWorld where
  scans := ScanStore.empty

end CommitWorld

/-! ## What is promised -/

/-- The key of the repository. -/
def repositoryKey (owner repo : String) : String :=
  "github:" ++ owner ++ "/" ++ repo

/-- The worker of the payload checks out this commit of this repository; the letter case of a
commit name does not matter. -/
structure SentJob.At (sent : SentJob) (owner repo sha : String) : Prop where
  key : sent.asset.externalKey = repositoryKey owner repo
  ref : asciiLower (resolveRef sent.job.options sent.job.target) = sha

/-- The scan has a job, and each of its jobs was for the repository and has checked out the
commit, and nothing else. -/
structure AboutCommit (w : CommitWorld) (check : CheckRun) : Prop where
  hasJob : ∃ row ∈ w.scans.jobs, row.scanId = check.body.externalId
  checkedOut : ∀ row ∈ w.scans.jobs, row.scanId = check.body.externalId →
    ∃ sent ∈ w.checkedOut, sent.job.jobId = row.id
  onCommit : ∀ row ∈ w.scans.jobs, row.scanId = check.body.externalId →
    ∀ sent ∈ w.checkedOut, sent.job.jobId = row.id → sent.asset.id = row.assetId ∧
      sent.At check.owner check.repo check.body.headSha

/-- Every check run is about the commit it is posted on. -/
def ChecksAbout (w : CommitWorld) : Prop :=
  ∀ check ∈ w.checks, AboutCommit w check

/-- The asset and the ref that a dispatch of it checks out are those of the context. -/
structure GithubChecksContext.Agrees (ctx : GithubChecksContext) (options : JsonObject)
    (asset : DispatchAsset) : Prop where
  key : asset.externalKey = repositoryKey ctx.owner ctx.repo
  ref : asciiLower (resolveRef options (scanJobTarget asset)) = ctx.sha

/-- A request that names a commit and is accepted plans an asset, and only the repository of the
commit at that commit; a retry of a job of such a scan does the same, without the options of the
scan; and such a scan is closed behind a checkout of every job. -/
def StaysOnCommit (env : ChecksEnv) (w : CommitWorld) : CommitEvent → Prop
  | .createScan calls orgId trigger request header =>
      ∀ args st scan, kickArgs calls orgId trigger request header = .ok args →
        w.scans.persistKick args = some (st, scan, false) →
      ∀ ctx, parseGithubChecksContext env request.options calls.scanId = some ctx →
        plan calls.assets orgId request.scannerType request.assetSelector ≠ [] ∧
          ∀ asset ∈ plan calls.assets orgId request.scannerType request.assetSelector,
            ctx.Agrees request.options asset
  | .retryJob calls _ jobId =>
      ∀ row ∈ w.scans.jobs, row.id = jobId →
      ∀ scan ∈ w.scans.scans, scan.id = row.scanId →
      ∀ ctx, parseGithubChecksContext env scan.options scan.id = some ctx →
      ∀ asset, calls.assets.find? row.assetId = some asset → ctx.Agrees [] (dispatchAsset asset)
  | .lifecycle _ => True
  | .checkout _ => True
  | .publish _ scanId _ _ =>
      ∀ scan, w.scans.scans.find? scanId = some scan → scan.status.terminal = true →
      (parseGithubChecksContext env scan.options scan.id).isSome = true →
      ∀ row ∈ w.scans.jobs, row.scanId = scanId → ∃ sent ∈ w.checkedOut, sent.job.jobId = row.id

/-! ## What a call changes -/

/-- What the context and the jobs of a scan are read off. -/
def scanKey (scan : ScanRow) : Uuid × JsonObject := (scan.id, scan.options)

def jobKey (row : ScanJobRow) : Uuid × Uuid × Uuid := (row.id, row.scanId, row.assetId)

theorem jobKey_eq {row : ScanJobRow} {id scanId assetId : Uuid} :
    jobKey row = (id, scanId, assetId) ↔
      row.id = id ∧ row.scanId = scanId ∧ row.assetId = assetId := by
  unfold jobKey
  rw [Prod.mk.injEq, Prod.mk.injEq]

theorem keptColumns_keys : KeptColumns scanKey jobKey :=
  ⟨fun _ _ => rfl, fun _ _ _ => rfl, fun _ _ => rfl, fun _ _ _ => rfl, fun _ => rfl⟩

/-- The tables have the same scans and jobs. -/
abbrev SameKeys (st st' : ScanStore) : Prop := SameColumns scanKey jobKey st st'

section Calls

variable {calls : DispatchCalls} {orgId : OrgId}

theorem sameColumns_afterDispatch {α β : Type} {f : ScanRow → α} {g : ScanJobRow → β}
    (hkept : KeptColumns f g) (row : ScanJobRow) (state : ScanStore × List ScanJob)
    (result : Except String ScanJob) :
    SameColumns f g state.1 (afterDispatch calls orgId row state result).1 := by
  cases result with
  | ok job => exact SameColumns.refl _ _ _
  | error message =>
      show SameColumns f g state.1 ((Option.map Prod.fst _).getD state.1)
      cases hfail : state.1.failDispatch orgId row.id row.scanId message calls.now with
      | none => exact SameColumns.refl _ _ _
      | some outcome => exact sameColumns_failDispatch hkept hfail

theorem sameColumns_foldl_afterDispatch {α β : Type} {f : ScanRow → α} {g : ScanJobRow → β}
    (hkept : KeptColumns f g) (dispatch : ScanJobRow → Except String ScanJob)
    (rows : List ScanJobRow) (state : ScanStore × List ScanJob) :
    SameColumns f g state.1 (rows.foldl (fun state row =>
      afterDispatch calls orgId row state (dispatch row)) state).1 := by
  induction rows generalizing state with
  | nil => exact SameColumns.refl _ _ _
  | cons row rows ih =>
      rw [List.foldl_cons]
      exact (sameColumns_afterDispatch hkept row state (dispatch row)).trans (ih _)

/-- The scan of an accept is drawn, and its assets are planned. -/
theorem kickArgs_planned {trigger : ScanTrigger} {request : CreateScanRequest}
    {header : List String} {args : KickArgs}
    (h : kickArgs calls orgId trigger request header = .ok args) :
    args.scanId = calls.scanId ∧
      args.assets.map Prod.snd =
        plan calls.assets orgId request.scannerType request.assetSelector := by
  unfold kickArgs at h
  obtain ⟨key, -, h⟩ := bind_eq_ok.mp h
  obtain ⟨requestedBy, -, h⟩ := bind_eq_ok.mp h
  obtain rfl := Except.ok.inj h
  refine ⟨rfl, ?_⟩
  rw [List.map_map]
  exact List.map_id _

/-- A planned asset is the row of the table with its id. -/
theorem find?_of_planned {scannerType : ScannerType} {selector : AssetSelector}
    {asset : DispatchAsset} (h : asset ∈ plan calls.assets orgId scannerType selector) :
    ∃ row, calls.assets.find? asset.id = some row ∧ asset = dispatchAsset row := by
  obtain ⟨row, hrow, rfl⟩ := List.mem_map.mp h
  exact ⟨row, Table.find?_of_mem (List.mem_filter.mp hrow).1, rfl⟩

/-- A replay leaves the tables as they are. -/
theorem persistKick_replay {st st' : ScanStore} {args : KickArgs} {scan : ScanRow}
    (h : st.persistKick args = some (st', scan, true)) : st' = st := by
  rw [ScanStore.persistKick_eq] at h
  cases hkick : st.findKick args.orgId args.idempotencyKey with
  | none =>
      rw [hkick, Option.elim_none] at h
      obtain ⟨accepted, -, heq⟩ := Option.map_eq_some_iff.mp h
      cases heq
  | some kick =>
      rw [hkick, Option.elim_some] at h
      obtain ⟨existing, -, heq⟩ := Option.map_eq_some_iff.mp h
      exact (congrArg Prod.fst heq).symm

/-- A request leaves everything as it is, or accepts a scan and publishes jobs of its assets. -/
theorem createScan_cases {st : ScanStore} {trigger : ScanTrigger} {request : CreateScanRequest}
    {header : List String} {result : ScanStore × List ScanJob}
    (h : createScan calls st orgId trigger request header = .ok result) :
    result = (st, []) ∨ ∃ args st₁ scan, kickArgs calls orgId trigger request header = .ok args ∧
      st.persistKick args = some (st₁, scan, false) ∧
      (∀ {α β : Type} {f : ScanRow → α} {g : ScanJobRow → β}, KeptColumns f g →
        SameColumns f g st₁ result.1) ∧
      ∀ job ∈ result.2, ∃ asset ∈ args.assets, ∃ refs,
        job = queuedJob orgId (args.jobRow asset) asset.2 request.scannerType request.options
          refs := by
  have hjobs : ∀ job ∈ result.2, ResultsIn calls st orgId trigger request header job := by
    intro job hjob
    rw [← mem_publishedJobs_createScan, h]
    exact hjob
  unfold createScan at h
  obtain ⟨args, hargs, h⟩ := bind_eq_ok.mp h
  split at h
  · cases h
  · rename_i hkick
    obtain rfl := Except.ok.inj h
    rw [persistKick_replay hkick]
    exact Or.inl rfl
  · rename_i st₁ scan hkick
    right
    refine ⟨args, st₁, scan, hargs, hkick, ?_, ?_⟩
    · obtain rfl := Except.ok.inj h
      intro α β f g hkept
      exact sameColumns_foldl_afterDispatch hkept _ _ (st₁, [])
    · intro job hjob
      obtain ⟨args', -, -, hargs', -, asset, hasset, hqueued⟩ := (hjobs job hjob).planned
      rw [hargs, Except.ok.injEq] at hargs'
      subst hargs'
      exact ⟨asset, hasset, _, hqueued⟩

/-- A retry writes to no other column than a lifecycle step does. -/
theorem sameColumns_retryJob {α β : Type} {f : ScanRow → α} {g : ScanJobRow → β}
    (hkept : KeptColumns f g) (st : ScanStore) (jobId : Uuid) :
    SameColumns f g st (retryJob calls st orgId jobId).1 := by
  unfold retryJob
  split
  · exact SameColumns.refl f g st
  · rename_i requeued hretry
    have hsame : SameColumns f g st requeued := sameColumns_updateJob hkept.requeued hretry
    split
    · exact hsame
    · split
      · exact hsame
      · split
        · exact hsame.trans (sameColumns_afterDispatch hkept _ (requeued, []) _)
        · exact hsame

/-- A retry publishes the payload of the row, with the asset as it is and without options. -/
theorem mem_retryJob {st : ScanStore} {jobId : Uuid} {job : ScanJob} :
    job ∈ (retryJob calls st orgId jobId).2 ↔ ∃ row asset, st.jobs.find? jobId = some row ∧
      row.orgId = orgId ∧ calls.assets.find? row.assetId = some asset ∧ asset.orgId = orgId ∧
      job = queuedJob orgId row.requeued (dispatchAsset asset) row.scannerType []
        (credentialRefsFor calls.integrations orgId [dispatchAsset asset]) ∧
      calls.publish job = .ok () := by
  unfold retryJob ScanStore.retryJob
  cases hrow : st.jobs.find? jobId with
  | none => simp [ScanStore.updateJob, hrow]
  | some row =>
      by_cases horg : row.orgId = orgId
      · obtain ⟨requeued, hupdate, hjobs, -⟩ := ScanStore.updateJob_eq ScanJobRow.requeued
          (fun _ => rfl) (fun _ => ⟨rfl, rfl⟩) hrow horg
        have hfind : requeued.jobs.find? jobId = some row.requeued := by
          rw [hjobs]
          exact Table.find?_modify_self hrow
        have hassetId : row.requeued.assetId = row.assetId := rfl
        simp only [hupdate, hfind, hassetId, Option.some_inj]
        cases hasset : calls.assets.find? row.assetId with
        | none =>
            simp only [List.not_mem_nil, false_iff]
            rintro ⟨row', asset, rfl, -, hasset', -⟩
            rw [hasset] at hasset'
            cases hasset'
        | some asset =>
            dsimp only
            split
            · rename_i hassetOrg
              rw [mem_afterDispatch, publishQueuedJob_eq_ok]
              constructor
              · rintro ⟨a, ha, hqueued, hpublish⟩
                obtain rfl := Option.some.inj ha
                exact ⟨row, asset, rfl, horg, hasset, hassetOrg, hqueued, hpublish⟩
              · rintro ⟨row', asset', rfl, -, hasset', -, hqueued, hpublish⟩
                rw [hasset, Option.some_inj] at hasset'
                subst hasset'
                exact ⟨dispatchAsset asset, rfl, hqueued, hpublish⟩
            · rename_i hassetOrg
              simp only [List.not_mem_nil, false_iff]
              rintro ⟨row', asset', rfl, -, hasset', hassetOrg', -⟩
              rw [hasset, Option.some_inj] at hasset'
              subst hasset'
              exact hassetOrg hassetOrg'
      · simp [ScanStore.updateJob, hrow, horg]

end Calls

/-! ## What every run keeps -/

/-- A payload is for a row of the job table, and agrees with the context of the row's scan; a
scan with a context has a job; a check run has the context of its scan, whose jobs have all been
checked out. -/
structure Linked (env : ChecksEnv) (w : CommitWorld) : Prop where
  sentRow : ∀ sent ∈ w.onBus, ∃ row ∈ w.scans.jobs,
    jobKey row = (sent.job.jobId, sent.job.scanId, sent.asset.id)
  sentAt : ∀ sent ∈ w.onBus, ∀ scan ∈ w.scans.scans, scan.id = sent.job.scanId →
    ∀ ctx, parseGithubChecksContext env scan.options scan.id = some ctx →
      sent.At ctx.owner ctx.repo ctx.sha
  fromBus : w.checkedOut ⊆ w.onBus
  hasJob : ∀ scan ∈ w.scans.scans, ∀ ctx,
    parseGithubChecksContext env scan.options scan.id = some ctx →
      ∃ row ∈ w.scans.jobs, row.scanId = scan.id
  checkOf : ∀ check ∈ w.checks, ∃ scan ∈ w.scans.scans, ∃ ctx, scan.id = check.body.externalId ∧
    parseGithubChecksContext env scan.options scan.id = some ctx ∧ check.owner = ctx.owner ∧
    check.repo = ctx.repo ∧ check.body.headSha = ctx.sha ∧
    ∀ row ∈ w.scans.jobs, row.scanId = scan.id → ∃ sent ∈ w.checkedOut, sent.job.jobId = row.id

section Linked

variable {env : ChecksEnv} {w : CommitWorld}

theorem checksAbout_of_linked (h : Linked env w) : ChecksAbout w := by
  intro check hcheck
  obtain ⟨scan, hscan, ctx, hid, hctx, howner, hrepo, hsha, hout⟩ := h.checkOf check hcheck
  refine ⟨?_, ?_, ?_⟩
  · rw [← hid]
    exact h.hasJob scan hscan ctx hctx
  · rw [← hid]
    exact hout
  · intro row hrow hrowScan sent hsent hjob
    have hbus := h.fromBus hsent
    obtain ⟨row', hrow', hkey⟩ := h.sentRow sent hbus
    obtain ⟨hrowId, hsentScan, hassetId⟩ := jobKey_eq.mp hkey
    have hsame : row' = row := Table.eq_of_key_eq hrow' hrow (hrowId.trans hjob)
    subst hsame
    rw [hrowScan, ← hid] at hsentScan
    refine ⟨hassetId.symm, ?_⟩
    rw [howner, hrepo, hsha]
    exact h.sentAt sent hbus scan hscan hsentScan ctx hctx

theorem linked_start : Linked env CommitWorld.start where
  sentRow := fun _ hsent => absurd hsent List.not_mem_nil
  sentAt := fun _ hsent => absurd hsent List.not_mem_nil
  fromBus := List.Subset.refl _
  hasJob := fun scan hscan => absurd hscan (Table.not_mem_empty scan)
  checkOf := fun _ hcheck => absurd hcheck List.not_mem_nil

/-- The columns that progress is written to do not matter. -/
theorem linked_sameKeys {st : ScanStore} (h : Linked env w) (hsame : SameKeys w.scans st) :
    Linked env { w with scans := st } where
  sentRow := by
    intro sent hsent
    obtain ⟨row, hrow, hkey⟩ := h.sentRow sent hsent
    obtain ⟨row', hrow', hkey'⟩ := hsame.symm.job hrow
    exact ⟨row', hrow', hkey'.trans hkey⟩
  sentAt := by
    intro sent hsent scan hscan hid ctx hctx
    obtain ⟨scan', hscan', hkey⟩ := hsame.scan hscan
    obtain ⟨hid', hoptions⟩ := Prod.mk.inj hkey
    rw [← hid'] at hid
    rw [← hid', ← hoptions] at hctx
    exact h.sentAt sent hsent scan' hscan' hid ctx hctx
  fromBus := h.fromBus
  hasJob := by
    intro scan hscan ctx hctx
    obtain ⟨scan', hscan', hkey⟩ := hsame.scan hscan
    obtain ⟨hid', hoptions⟩ := Prod.mk.inj hkey
    rw [← hid', ← hoptions] at hctx
    obtain ⟨row, hrow, hrowScan⟩ := h.hasJob scan' hscan' ctx hctx
    obtain ⟨row', hrow', hkey'⟩ := hsame.symm.job hrow
    obtain ⟨-, hscanId, -⟩ := jobKey_eq.mp hkey'
    exact ⟨row', hrow', (hscanId.trans hrowScan).trans hid'⟩
  checkOf := by
    intro check hcheck
    obtain ⟨scan, hscan, ctx, hid, hctx, howner, hrepo, hsha, hout⟩ := h.checkOf check hcheck
    obtain ⟨scan', hscan', hkey⟩ := hsame.symm.scan hscan
    obtain ⟨hid', hoptions⟩ := Prod.mk.inj hkey
    refine ⟨scan', hscan', ctx, hid'.trans hid, ?_, howner, hrepo, hsha, ?_⟩
    · rw [hid', hoptions]
      exact hctx
    · intro row' hrow' hrowScan
      obtain ⟨row, hrow, hkey'⟩ := hsame.job hrow'
      obtain ⟨hrowId, hscanId, -⟩ := jobKey_eq.mp hkey'
      obtain ⟨sent, hsent, hjob⟩ := hout row hrow ((hscanId.trans hrowScan).trans hid')
      exact ⟨sent, hsent, hjob.trans hrowId⟩

/-- An accept adds a scan that no payload and no check run is of. -/
theorem linked_accept {args : KickArgs} {st : ScanStore} {scan : ScanRow} (h : Linked env w)
    (hkick : w.scans.persistKick args = some (st, scan, false))
    (hassets : ∀ ctx, parseGithubChecksContext env args.options args.scanId = some ctx →
      args.assets ≠ []) :
    Linked env { w with scans := st } := by
  obtain ⟨-, hscans, hjobs⟩ := ScanStore.persistKick_created hkick
  have hscan : ∀ s, s ∈ st.scans ↔ s = args.scanRow ∨ s ∈ w.scans.scans := by
    intro s
    rw [Table.mem_insertMany? hscans, List.mem_singleton]
  have hrow : ∀ row, row ∈ st.jobs ↔ row ∈ args.assets.map args.jobRow ∨ row ∈ w.scans.jobs :=
    fun row => Table.mem_insertMany? hjobs
  refine ⟨?_, ?_, h.fromBus, ?_, ?_⟩
  · intro sent hsent
    obtain ⟨row, hold, hkey⟩ := h.sentRow sent hsent
    exact ⟨row, (hrow row).mpr (Or.inr hold), hkey⟩
  · intro sent hsent s hs hid ctx hctx
    obtain ⟨row, hold, hkey⟩ := h.sentRow sent hsent
    have hne := ScanStore.job_ne_of_inserted hscans hold
    rcases (hscan s).mp hs with rfl | hs
    · obtain ⟨-, hsentScan, -⟩ := jobKey_eq.mp hkey
      exact absurd (hsentScan.trans hid.symm) hne
    · exact h.sentAt sent hsent s hs hid ctx hctx
  · intro s hs ctx hctx
    rcases (hscan s).mp hs with rfl | hs
    · obtain ⟨asset, hasset⟩ := List.exists_mem_of_ne_nil args.assets (hassets ctx hctx)
      exact ⟨args.jobRow asset, (hrow _).mpr (Or.inl (List.mem_map_of_mem hasset)), rfl⟩
    · obtain ⟨row, hold, hrowScan⟩ := h.hasJob s hs ctx hctx
      exact ⟨row, (hrow row).mpr (Or.inr hold), hrowScan⟩
  · intro check hcheck
    obtain ⟨s, hs, ctx, hid, hctx, howner, hrepo, hsha, hout⟩ := h.checkOf check hcheck
    refine ⟨s, (hscan s).mpr (Or.inr hs), ctx, hid, hctx, howner, hrepo, hsha, ?_⟩
    intro row hmem hrowScan
    rcases (hrow row).mp hmem with hnew | hold
    · obtain ⟨asset, -, rfl⟩ := List.mem_map.mp hnew
      exact absurd hrowScan.symm (ScanStore.ne_of_inserted hscans hs)
    · exact hout row hold hrowScan

/-- Payloads of job rows that agree with the context of their scan. -/
theorem linked_send {sents : List SentJob} (h : Linked env w)
    (hrow : ∀ sent ∈ sents, ∃ row ∈ w.scans.jobs,
      jobKey row = (sent.job.jobId, sent.job.scanId, sent.asset.id))
    (hat : ∀ sent ∈ sents, ∀ scan ∈ w.scans.scans, scan.id = sent.job.scanId →
      ∀ ctx, parseGithubChecksContext env scan.options scan.id = some ctx →
        sent.At ctx.owner ctx.repo ctx.sha) :
    Linked env { w with onBus := w.onBus ++ sents } where
  sentRow := by
    intro sent hsent
    rcases List.mem_append.mp hsent with hold | hnew
    · exact h.sentRow sent hold
    · exact hrow sent hnew
  sentAt := by
    intro sent hsent
    rcases List.mem_append.mp hsent with hold | hnew
    · exact h.sentAt sent hold
    · exact hat sent hnew
  fromBus := List.subset_append_of_subset_left sents h.fromBus
  hasJob := h.hasJob
  checkOf := h.checkOf

/-- A call sends the payloads of the jobs it has published. -/
theorem mem_sentJobs {calls : DispatchCalls} {jobs : List ScanJob} {sent : SentJob} :
    sent ∈ sentJobs calls jobs ↔
      sent.job ∈ jobs ∧ calls.assets.find? sent.job.assetId = some sent.asset := by
  unfold sentJobs
  rw [List.mem_filterMap]
  constructor
  · rintro ⟨job, hjob, hsent⟩
    obtain ⟨asset, hasset, rfl⟩ := Option.map_eq_some_iff.mp hsent
    exact ⟨hjob, hasset⟩
  · rintro ⟨hjob, hasset⟩
    exact ⟨sent.job, hjob, Option.map_eq_some_iff.mpr ⟨sent.asset, hasset, rfl⟩⟩

theorem linked_createScan {calls : DispatchCalls} {orgId : OrgId} {trigger : ScanTrigger}
    {request : CreateScanRequest} {header : List String} {result : ScanStore × List ScanJob}
    (h : Linked env w)
    (hstays : StaysOnCommit env w (.createScan calls orgId trigger request header))
    (hresult : createScan calls w.scans orgId trigger request header = .ok result) :
    Linked env (w.after calls result) := by
  rcases createScan_cases hresult with rfl | ⟨args, st, scan, hargs, hkick, hsame, hjobs⟩
  · exact linked_send h (fun _ hsent => absurd hsent List.not_mem_nil)
      fun _ hsent => absurd hsent List.not_mem_nil
  · obtain ⟨hscanId, hplan⟩ := kickArgs_planned hargs
    obtain ⟨-, -, hoptions, -⟩ := kickArgs_ok calls hargs
    obtain ⟨-, hscans, hrows⟩ := ScanStore.persistKick_created hkick
    have hagrees := hstays args st scan hargs hkick
    rw [← hscanId, ← hoptions, ← hplan] at hagrees
    have haccept : Linked env { w with scans := st } := by
      refine linked_accept h hkick ?_
      intro ctx hctx hnone
      exact (hagrees ctx hctx).1 (by rw [hnone]; rfl)
    -- every payload is for the row of a planned asset
    have hpayload : ∀ sent ∈ sentJobs calls result.2, ∃ asset ∈ args.assets,
        asset.2 = dispatchAsset sent.asset ∧
          sent.job.options = args.options ∧ sent.job.target = scanJobTarget asset.2 ∧
          jobKey (args.jobRow asset) = (sent.job.jobId, sent.job.scanId, sent.asset.id) ∧
          sent.job.scanId = args.scanId := by
      intro sent hsent
      obtain ⟨hjob, hfind⟩ := mem_sentJobs.mp hsent
      obtain ⟨asset, hasset, refs, hqueued⟩ := hjobs sent.job hjob
      have hplanned : asset.2 ∈ plan calls.assets orgId request.scannerType
          request.assetSelector := by
        rw [← hplan]
        exact List.mem_map_of_mem hasset
      obtain ⟨row, hrow, hdispatch⟩ := find?_of_planned hplanned
      have hassetId : sent.job.assetId = asset.2.id := by
        rw [hqueued]
        rfl
      rw [hassetId, hrow, Option.some_inj] at hfind
      subst hfind
      refine ⟨asset, hasset, hdispatch, ?_, ?_, ?_, ?_⟩
      · rw [hqueued, hoptions]
        rfl
      · rw [hqueued]
        rfl
      · rw [hqueued, (Table.find?_key hrow : sent.asset.id = asset.2.id)]
        rfl
      · rw [hqueued]
        rfl
    have hsent : Linked env
        { w with scans := st, onBus := w.onBus ++ sentJobs calls result.2 } := by
      refine linked_send haccept ?_ ?_
      · intro sent hsent
        obtain ⟨asset, hasset, -, -, -, hkey, -⟩ := hpayload sent hsent
        exact ⟨args.jobRow asset,
          (Table.mem_insertMany? hrows).mpr (Or.inl (List.mem_map_of_mem hasset)), hkey⟩
      · intro sent hsent s hs hid ctx hctx
        obtain ⟨asset, hasset, hdispatch, hsentOptions, htarget, -, hsentScan⟩ :=
          hpayload sent hsent
        have hnew : s = args.scanRow := Table.eq_of_key_eq hs
          ((Table.mem_insertMany? hscans).mpr (Or.inl (List.mem_singleton_self _)))
          (hid.trans hsentScan)
        subst hnew
        obtain ⟨hkey, href⟩ := (hagrees ctx hctx).2 asset.2 (List.mem_map_of_mem hasset)
        refine ⟨?_, ?_⟩
        · rw [hdispatch] at hkey
          exact hkey
        · rw [hsentOptions, htarget]
          exact href
    exact linked_sameKeys hsent (hsame keptColumns_keys)

theorem linked_retryJob {calls : DispatchCalls} {orgId : OrgId} {jobId : Uuid}
    (h : Linked env w) (hstays : StaysOnCommit env w (.retryJob calls orgId jobId)) :
    Linked env (w.after calls (retryJob calls w.scans orgId jobId)) := by
  have hpayload : ∀ sent ∈ sentJobs calls (retryJob calls w.scans orgId jobId).2,
      ∃ row ∈ w.scans.jobs, row.id = jobId ∧
        calls.assets.find? row.assetId = some sent.asset ∧
        jobKey row = (sent.job.jobId, sent.job.scanId, sent.asset.id) ∧
        sent.job.options = [] ∧ sent.job.target = scanJobTarget (dispatchAsset sent.asset) := by
    intro sent hsent
    obtain ⟨hjob, hfind⟩ := mem_sentJobs.mp hsent
    obtain ⟨row, asset, hrow, -, hasset, -, hqueued, -⟩ := mem_retryJob.mp hjob
    have hassetId : sent.job.assetId = row.assetId := by
      rw [hqueued]
      rfl
    rw [hassetId, hasset, Option.some_inj] at hfind
    subst hfind
    refine ⟨row, Table.find?_mem hrow, Table.find?_key hrow, hasset, ?_, ?_, ?_⟩
    · rw [(Table.find?_key hasset : sent.asset.id = row.assetId), hqueued]
      rfl
    · rw [hqueued]
      rfl
    · rw [hqueued]
      rfl
  have hsent : Linked env
      { w with onBus := w.onBus ++ sentJobs calls (retryJob calls w.scans orgId jobId).2 } := by
    refine linked_send h ?_ ?_
    · intro sent hsent
      obtain ⟨row, hrow, -, -, hkey, -⟩ := hpayload sent hsent
      exact ⟨row, hrow, hkey⟩
    · intro sent hsent scan hscan hid ctx hctx
      obtain ⟨row, hrow, hrowId, hasset, hkey, hoptions, htarget⟩ := hpayload sent hsent
      obtain ⟨-, hscanId, -⟩ := jobKey_eq.mp hkey
      obtain ⟨hassetKey, href⟩ :=
        hstays row hrow hrowId scan hscan (hid.trans hscanId.symm) ctx hctx sent.asset hasset
      refine ⟨hassetKey, ?_⟩
      rw [hoptions, htarget]
      exact href
  exact linked_sameKeys hsent (sameColumns_retryJob keptColumns_keys _ _)

theorem linked_publish {orgId : OrgId} {scanId : Uuid} {policy : PolicyDb} {now : Timestamp}
    (h : Linked env w) (hstays : StaysOnCommit env w (.publish orgId scanId policy now)) :
    Linked env ((CommitWorld.system env).step w (.publish orgId scanId policy now)) := by
  refine ⟨h.sentRow, h.sentAt, h.fromBus, h.hasJob, ?_⟩
  intro check hcheck
  rcases List.mem_append.mp hcheck with hold | hnew
  · exact h.checkOf check hold
  · obtain ⟨scan, ctx, row, conclusion, hfind, -, hctx, hrow, hconclusion, rfl⟩ :=
      publishCheck_eq_some.mp (Option.mem_toList.mp hnew)
    have hid : scan.id = scanId := Table.find?_key hfind
    have hterminal : scan.status.terminal = true := by
      have hopen := terminal_of_conclusion hconclusion
      unfold ScanStore.conclusionRow at hrow
      rw [hfind, Option.map_some, Option.some_inj] at hrow
      rw [← hrow] at hopen
      exact hopen
    refine ⟨scan, Table.find?_mem hfind, ctx, rfl, hctx, rfl, rfl, rfl, ?_⟩
    rw [hid]
    exact hstays scan hfind hterminal (by rw [hctx]; rfl)

/-- The invariant of the run. -/
theorem linked_step (e : CommitEvent) (h : Linked env w) (hstays : StaysOnCommit env w e) :
    Linked env ((CommitWorld.system env).step w e) := by
  cases e with
  | createScan calls orgId trigger request header =>
      show Linked env (match createScan calls w.scans orgId trigger request header with
        | .ok result => w.after calls result
        | .error _ => w)
      cases hresult : createScan calls w.scans orgId trigger request header with
      | error message => exact h
      | ok result => exact linked_createScan h hstays hresult
  | retryJob calls orgId jobId => exact linked_retryJob h hstays
  | lifecycle event => exact linked_sameKeys h (sameColumns_lifecycleStep keptColumns_keys _ event)
  | checkout index =>
      show Linked env (match w.onBus[index]? with
        | none => w
        | some sent =>
            if checksOut sent.job then { w with checkedOut := w.checkedOut ++ [sent] } else w)
      cases hsent : w.onBus[index]? with
      | none => exact h
      | some sent =>
          simp only
          split
          · refine ⟨h.sentRow, h.sentAt, ?_, h.hasJob, ?_⟩
            · refine List.append_subset.mpr ⟨h.fromBus, ?_⟩
              intro sent' hsent'
              rw [List.mem_singleton.mp hsent']
              exact List.mem_of_getElem? hsent
            · intro check hcheck
              obtain ⟨scan, hscan, ctx, hid, hctx, howner, hrepo, hsha, hout⟩ :=
                h.checkOf check hcheck
              refine ⟨scan, hscan, ctx, hid, hctx, howner, hrepo, hsha, ?_⟩
              intro row hrow hrowScan
              obtain ⟨sent', hsent', hjob⟩ := hout row hrow hrowScan
              exact ⟨sent', List.mem_append_left _ hsent', hjob⟩
          · exact h
  | publish orgId scanId policy now => exact linked_publish h hstays

end Linked

/-- **Check runs and commits.**  As long as every accepted request that names a commit plans that
repository at that commit and nothing else, every retry of a job of such a scan would check out
the same, and the scan is closed behind a checkout of each job, every check run is about the
commit it is posted on. -/
theorem checks_about_commit (env : ChecksEnv) (events : List CommitEvent)
    (hstays : (CommitWorld.system env).AllSteps (StaysOnCommit env) CommitWorld.start events) :
    ∀ w ∈ (CommitWorld.system env).states CommitWorld.start events, ChecksAbout w := by
  intro w hw
  refine @checksAbout_of_linked env w ?_
  exact (CommitWorld.system env).forall_states_of_allSteps
    (fun w e h hstep => linked_step e h hstep) linked_start hstays w hw

namespace CommitScan

/-- The commit of the requests below. -/
def sha : String := "5f1c0b7e5f1c0b7e5f1c0b7e5f1c0b7e5f1c0b7e"

def orgId : OrgId := "6f1c0b7e-0000-4000-8000-0000000000a1"

def env : ChecksEnv where
  parse := fun _ => none

/-- The repository the commit is of. -/
def asset : AssetRow where
  id := "6f1c0b7e-0000-4000-8000-0000000000c1"
  orgId := orgId
  kind := "repository"
  externalKey := "github:acme/api"

/-- What a request finds. -/
def calls (assets : Table AssetRow AssetRow.id) : DispatchCalls where
  assets := assets
  integrations := Table.empty
  requestedBy := .ok none
  scanId := "6f1c0b7e-0000-4000-8000-0000000000d1"
  jobId := fun _ => "6f1c0b7e-0000-4000-8000-0000000000e1"
  now := 0
  publish := fun _ => .ok ()
  putJson := fun _ _ => .ok ()

/-- The options of a pipeline. -/
def options : JsonObject :=
  [("github", .obj [("repository", .str "acme/api"), ("sha", .str sha)]), ("ref", .str sha)]

def request : CreateScanRequest where
  scannerType := .sast
  options := options
  conclusionFree := rfl

/-- No finding, no policy and no exception. -/
def policy : PolicyDb where
  db := FindingsDb.ofAssets Table.empty
  policies := []
  exceptions := []

def assets : Table AssetRow AssetRow.id :=
  ⟨[asset], List.nodup_singleton _⟩

/-- The request with the asset, its job's checkout and completion, and the check. -/
def checkedRun : List CommitEvent :=
  [.createScan (calls assets) orgId .ci request [], .checkout 0,
    .lifecycle (.scanJobCompleted
      { jobId := "6f1c0b7e-0000-4000-8000-0000000000e1"
        scanId := "6f1c0b7e-0000-4000-8000-0000000000d1"
        orgId := orgId
        assetId := asset.id
        scannerType := .sast
        status := .succeeded
        startedAt := 1
        finishedAt := 2 } 3),
    .publish orgId "6f1c0b7e-0000-4000-8000-0000000000d1" policy 4]

/-- The request where there is no asset, and the check. -/
def emptyRun : List CommitEvent :=
  [.createScan (calls Table.empty) orgId .ci request [],
    .publish orgId "6f1c0b7e-0000-4000-8000-0000000000d1" policy 4]

end CommitScan

open CommitScan in
/-- The check run of a scan of the repository at the commit is about it. -/
theorem checked_scan_about_commit :
    ChecksAbout ((CommitWorld.system env).run CommitWorld.start checkedRun) ∧
      ((CommitWorld.system env).run CommitWorld.start checkedRun).checks.length = 1 := by
  refine ⟨?_, by decide +kernel⟩
  refine checks_about_commit env checkedRun ⟨?_, trivial, trivial, ?_, trivial⟩ _
    ((CommitWorld.system env).run_mem_states CommitWorld.start checkedRun)
  · intro args st scan _ _ ctx hctx
    have hparsed : parseGithubChecksContext env request.options (calls assets).scanId =
        some ⟨"acme", "api", sha, utf16Units "CTEM", none⟩ := by decide +kernel
    rw [hparsed, Option.some_inj] at hctx
    subst hctx
    have hplan : plan assets orgId request.scannerType request.assetSelector =
        [dispatchAsset asset] := rfl
    show plan assets orgId request.scannerType request.assetSelector ≠ [] ∧ _
    rw [hplan]
    refine ⟨List.cons_ne_nil _ _, ?_⟩
    intro a ha
    rw [List.mem_singleton.mp ha]
    exact ⟨by decide +kernel, by decide +kernel⟩
  · have hall : ∀ row ∈ ((CommitWorld.system env).run CommitWorld.start
        (checkedRun.take 3)).scans.jobs.rows,
        ∃ sent ∈ ((CommitWorld.system env).run CommitWorld.start (checkedRun.take 3)).checkedOut,
          sent.job.jobId = row.id := by decide +kernel
    intro scan _ _ _ row hrow _
    exact hall row hrow

open CommitScan in
/-- A scan of no asset at all passes the commit that its request names. -/
theorem empty_scan_passes_commit :
    ¬ ∀ (env : ChecksEnv) (events : List CommitEvent),
      ∀ w ∈ (CommitWorld.system env).states CommitWorld.start events, ChecksAbout w := by
  intro hall
  have hchecks : ((CommitWorld.system env).run CommitWorld.start emptyRun).checks.map
      (fun check => check.body.conclusion) = [.success] := by decide +kernel
  have hjobs : ((CommitWorld.system env).run CommitWorld.start emptyRun).scans.jobs.rows.length =
      0 := by decide +kernel
  obtain ⟨check, hcheck, -⟩ := List.mem_map.mp (hchecks ▸ List.mem_singleton_self _)
  obtain ⟨row, hrow, -⟩ := (hall env emptyRun _
    ((CommitWorld.system env).run_mem_states CommitWorld.start emptyRun) check hcheck).hasJob
  rw [Table.mem_def, List.eq_nil_of_length_eq_zero hjobs] at hrow
  exact absurd hrow List.not_mem_nil

end Orchestrator
end Ctem
