import Ctem.Orchestrator.GatePending
import Ctem.Orchestrator.GithubChecks
import Ctem.Orchestrator.ScanAccept

/-!
# The check run once everything is at rest

The check of a scan is published behind the completion that closes the scan, and at the end of
the `createScan` that has accepted it if the scan is closed by then.  A publish reads what the
gates say once, and writes that to GitHub later.  Completions, retries, ingests and changes of
the policies go on before, between and behind all of that.  A handler runs to its end, and every
call of GitHub succeeds.

* `CheckWorld` is the tables and the clock, the handlers that are under way, and GitHub.
* `Followed` and `NotLast` are the conditions on a step: what closes a scan or changes what its
  gates read is read by a publish, and an old reading is not the last to be written.
* `check_agrees_iff_answered`: along a run of such steps, at rest the check run of a closed scan
  is there and says what the gates say precisely when they have an answer.
* Nothing in the service sees to these conditions: `late_ingest_leaves_check`.
-/

namespace Ctem
namespace Orchestrator

open Foundation Contracts Scanner Findings Policy

/-! ## The publishes -/

/-- What GitHub knows a check run of ours by: its repository, name, commit and `external_id`. -/
def CheckRun.identity (run : CheckRun) : String × String × List Nat × String × Uuid :=
  (run.owner, run.repo, run.body.name, run.body.headSha, run.body.externalId)

/-- What a `PATCH` leaves of a check run. -/
def CheckRun.patched (run : CheckRun) (body : CheckRunBody) : CheckRun :=
  { run with
    body :=
      { run.body with
        conclusion := body.conclusion
        detailsUrl := body.detailsUrl.or run.body.detailsUrl
        title := body.title
        summary := body.summary } }

/-- `upsertCheckRun` on the check runs of GitHub: the one that was listed is rewritten if it is
the check run of the scan, and otherwise a new one is created. -/
def upsertCheck (runs : List CheckRun) (check : CheckRun) (listed : Option Nat) : List CheckRun :=
  match listed with
  | none => runs ++ [check]
  | some index =>
      match runs[index]? with
      | none => runs ++ [check]
      | some run =>
          if run.identity = check.identity then runs.set index (run.patched check.body)
          else runs ++ [check]

/-- The scan that a completion closes, with the organisation its check is published for.
`failDispatch` closes a scan as well, but publishes nothing. -/
def closedToPublish (st : ScanStore) : LifecycleEvent → List (OrgId × Uuid)
  | .scanJobCompleted result now =>
      (((st.applyResult result now).bind Prod.snd).map fun scan => (result.orgId, scan.id)).toList
  | .dispatchFailed _ _ _ _ _ => []
  | .jobRetried _ _ => []

/-- The tables, the handlers that are under way, and the check runs on GitHub. -/
structure CheckWorld where
  scans : ScanStore := ScanStore.empty
  policy : PolicyDb
  now : Timestamp := 0
  ingests : List IngestRun := []
  /-- The scans whose `createScan` has not returned. -/
  creating : List (OrgId × Uuid) := []
  /-- The publishes that have yet to read. -/
  publishing : List (OrgId × Uuid) := []
  /-- What the publishes that have read will write. -/
  prepared : List CheckRun := []
  github : List CheckRun := []

inductive CheckEvent where
  /-- A `createScan` accepts a scan, or finds it accepted. -/
  | createScan (args : ScanStore.KickArgs)
  /-- The jobs are dispatched, and the scan is read again. -/
  | createScanReturns (index : Nat)
  | lifecycle (event : LifecycleEvent)
  | findingsReported (orgId : OrgId) (run : JobRun)
  | ingestAdvances (index : Nat) (id : Uuid)
  /-- A policy or an exception is changed, or the state of a finding. -/
  | policyChanged (policy : PolicyDb)
  | timePasses (now : Timestamp)
  /-- The transaction of a publish. -/
  | checkRead (index : Nat)
  /-- A publish writes its check run, where its listing has shown the one at this position. -/
  | checkWritten (index : Nat) (listed : Option Nat)

namespace CheckWorld

section Step

variable (env : ChecksEnv) (platform : Platform) (usableToken : Uuid → Bool)

/-- The `createScan` at the position reads its scan again, and publishes its check if it is
closed. -/
def createScanReturns (w : CheckWorld) (index : Nat) : CheckWorld :=
  match w.creating[index]? with
  | none => w
  | some (orgId, scanId) =>
      let latest := w.scans.scans.find? scanId
      { w with
        creating := w.creating.eraseIdx index
        publishing :=
          if latest.any fun scan => decide (scan.orgId = orgId) && scan.status.terminal then
            w.publishing ++ [(orgId, scanId)]
          else w.publishing }

/-- `publish` up to its call of GitHub; without a token it ends here. -/
def checkRead (w : CheckWorld) (index : Nat) : CheckWorld :=
  match w.publishing[index]? with
  | none => w
  | some (orgId, scanId) =>
      let check := publishCheck env w.scans w.policy orgId scanId w.now
      { w with
        publishing := w.publishing.eraseIdx index
        prepared := if usableToken scanId then w.prepared ++ check.toList else w.prepared }

def checkWritten (w : CheckWorld) (index : Nat) (listed : Option Nat) : CheckWorld :=
  match w.prepared[index]? with
  | none => w
  | some check =>
      { w with
        prepared := w.prepared.eraseIdx index
        github := upsertCheck w.github check listed }

def step (w : CheckWorld) : CheckEvent → CheckWorld
  | .createScan args =>
      match w.scans.persistKick args with
      | some (scans, scan, false) =>
          { w with scans := scans, creating := w.creating ++ [(args.orgId, scan.id)] }
      -- a replay returns the scan of the earlier call
      | _ => w
  | .createScanReturns index => w.createScanReturns index
  | .lifecycle event =>
      { w with
        scans := lifecycleStep w.scans event
        publishing := w.publishing ++ closedToPublish w.scans event }
  | .findingsReported orgId run =>
      { w with ingests := w.ingests ++ startIngests platform orgId w.now [run] }
  | .ingestAdvances index id =>
      match w.ingests[index]? with
      | none => w
      | some run =>
          let (db, run') := IngestRun.advance w.policy.db run id
          { w with policy := { w.policy with db := db }, ingests := w.ingests.set index run' }
  | .policyChanged policy => { w with policy := policy }
  | .timePasses now => { w with now := now }
  | .checkRead index => w.checkRead env usableToken index
  | .checkWritten index listed => w.checkWritten index listed

/-- What can happen: any report of a worker about a job that is there, and anything else. -/
def allowed (w : CheckWorld) : CheckEvent → Prop
  | .lifecycle event => lifecycle.allowed w.scans event
  | .findingsReported orgId run =>
      ∃ row ∈ w.scans.jobs, row.orgId = orgId ∧ ∃ job calls startedAt finishedAt,
        DispatchedFor job row ∧ run = runJob calls job startedAt finishedAt
  | .timePasses now => w.now ≤ now
  | _ => True

def system : System CheckWorld CheckEvent where
  step := step env platform usableToken
  allowed := allowed

/-- Nothing is under way. -/
structure AtRest (w : CheckWorld) : Prop where
  creating : w.creating = []
  publishing : w.publishing = []
  prepared : w.prepared = []
  ingests : ∀ run ∈ w.ingests, run.finished = true

instance (w : CheckWorld) : Decidable w.AtRest :=
  decidable_of_iff (w.creating.isEmpty = true ∧ w.publishing.isEmpty = true ∧
      w.prepared.isEmpty = true ∧ ∀ run ∈ w.ingests, run.finished = true) <| by
    simp only [List.isEmpty_iff]
    constructor
    · rintro ⟨hcreating, hpublishing, hprepared, hingests⟩
      exact ⟨hcreating, hpublishing, hprepared, hingests⟩
    · intro h
      exact ⟨h.creating, h.publishing, h.prepared, h.ingests⟩

/-- The scan is closed, its options name a commit, and it has a token. -/
structure CheckDue (w : CheckWorld) (scan : ScanRow) : Prop where
  stored : w.scans.scans.find? scan.id = some scan
  closed : scan.status.terminal = true
  context : (parseGithubChecksContext env scan.options scan.id).isSome = true
  token : usableToken scan.id = true

/-- The check run is the one of the scan, on the commit its options name. -/
def IsCheckOf (scan : ScanRow) (run : CheckRun) : Prop :=
  ∃ ctx, parseGithubChecksContext env scan.options scan.id = some ctx ∧
    run.identity = (ctx.owner, ctx.repo, ctx.checkName, ctx.sha, scan.id)

/-- `conclusion` of `GET /scans/:id`. -/
def conclusion (w : CheckWorld) (scan : ScanRow) : Option ScanConclusion :=
  (w.scans.conclusionRow scan.id).map fun row =>
    (scanGatesForScan w.policy scan.orgId w.now row).conclusion

/-- There is a check run of the scan, and it says what the gates say. -/
def CheckAgrees (w : CheckWorld) (scan : ScanRow) : Prop :=
  ∃ run ∈ w.github, IsCheckOf env scan run ∧
    (w.conclusion scan).bind checkConclusionFromScan = some run.body.conclusion

/-! ## What the gates read -/

/-- The findings, policies and exceptions that the gates of the scan load. -/
def loaded (w : CheckWorld) (scan : ScanRow) : Option ConcludePolicyInput :=
  (w.scans.conclusionRow scan.id).map (loadScanPolicyMatchInput w.policy scan.orgId w.now)

/-- The first policy that an open finding meets fails the build, and no exception holds. -/
def failsBuild (input : ConcludePolicyInput) : Bool :=
  input.findings.any fun finding =>
    !decide (finding.id ∈ input.suppressedFindingIds) &&
      carries (gatePolicies input.policies) .failBuild finding

/-- Whether there is an answer, and whether a finding fails the build. -/
def standing (w : CheckWorld) (scan : ScanRow) : Option (Bool × Bool) :=
  (w.loaded scan).map fun input => (!gatePending input, failsBuild input)

/-- The conclusion is right for a scan that stands as this one does. -/
def Fits (w : CheckWorld) (scan : ScanRow) (conclusion : CheckConclusion) : Prop :=
  ∀ fails, w.standing scan = some (true, fails) →
    conclusion = if fails then .failure else .success

/-- A publish of the scan has yet to read, or a `createScan` to return. -/
def ToBeRead (w : CheckWorld) (scan : ScanRow) : Prop :=
  (scan.orgId, scan.id) ∈ w.creating ∨ (scan.orgId, scan.id) ∈ w.publishing

/-- A publish of the scan has yet to read, or is about to write what is still right. -/
def ToBeWritten (w : CheckWorld) (scan : ScanRow) : Prop :=
  w.ToBeRead scan ∨ ∃ check ∈ w.prepared, IsCheckOf env scan check ∧
    w.Fits scan check.body.conclusion

/-- A step that closes a scan, or changes how it stands, leaves a publish of it that has yet
to read. -/
def Followed (w : CheckWorld) (e : CheckEvent) : Prop :=
  ∀ scan, CheckDue env usableToken (step env platform usableToken w e) scan →
    (∃ old, CheckDue env usableToken w old ∧ old.id = scan.id ∧
      (step env platform usableToken w e).standing scan = w.standing old) ∨
    (step env platform usableToken w e).ToBeRead scan

/-- A write of a reading that is not right any more leaves a publish of the scan that is
still to be written. -/
def NotLast (w : CheckWorld) (e : CheckEvent) : Prop :=
  ∀ index listed check, e = .checkWritten index listed → w.prepared[index]? = some check →
    ∀ scan, CheckDue env usableToken w scan → IsCheckOf env scan check →
      w.Fits scan check.body.conclusion ∨
        ToBeWritten env (step env platform usableToken w e) scan

end Step

/-! ## A step of a publish -/

/-- What gates and contexts are read off is the same. -/
structure SameTables (w w' : CheckWorld) : Prop where
  scans : w'.scans = w.scans
  policy : w'.policy = w.policy
  now : w'.now = w.now

theorem sameTables_createScanReturns (w : CheckWorld) (index : Nat) :
    SameTables w (w.createScanReturns index) := by
  unfold createScanReturns
  split <;> exact ⟨rfl, rfl, rfl⟩

theorem sameTables_checkRead (env : ChecksEnv) (usableToken : Uuid → Bool) (w : CheckWorld)
    (index : Nat) : SameTables w (w.checkRead env usableToken index) := by
  unfold checkRead
  split <;> exact ⟨rfl, rfl, rfl⟩

theorem sameTables_checkWritten (w : CheckWorld) (index : Nat) (listed : Option Nat) :
    SameTables w (w.checkWritten index listed) := by
  unfold checkWritten
  split <;> exact ⟨rfl, rfl, rfl⟩

section Facts

variable {env : ChecksEnv} {platform : Platform} {usableToken : Uuid → Bool}
  {w w' : CheckWorld} {scan : ScanRow}

theorem SameTables.standing (h : SameTables w w') (scan : ScanRow) :
    w'.standing scan = w.standing scan := by
  unfold CheckWorld.standing loaded
  rw [h.scans, h.policy, h.now]

theorem SameTables.fits (h : SameTables w w') {conclusion : CheckConclusion} :
    w'.Fits scan conclusion ↔ w.Fits scan conclusion := by
  unfold Fits
  rw [h.standing scan]

theorem SameTables.checkDue (h : SameTables w w') (hdue : CheckDue env usableToken w' scan) :
    CheckDue env usableToken w scan :=
  ⟨h.scans ▸ hdue.stored, hdue.closed, hdue.context, hdue.token⟩

/-- A publish closes nothing and changes nothing that is read. -/
theorem followed_of_sameTables {e : CheckEvent}
    (h : SameTables w (step env platform usableToken w e)) :
    Followed env platform usableToken w e := by
  intro scan hdue
  exact Or.inl ⟨scan, h.checkDue hdue, rfl, h.standing scan⟩

/-- Of two that are there, the other one stays. -/
theorem mem_eraseIdx_of_ne {α : Type} {l : List α} {index : Nat} {a b : α} (ha : a ∈ l)
    (hb : l[index]? = some b) (hne : a ≠ b) : a ∈ l.eraseIdx index := by
  obtain ⟨i, hi⟩ := List.mem_iff_getElem?.mp ha
  rw [List.mem_eraseIdx_iff_getElem?]
  refine ⟨i, ?_, hi⟩
  rintro rfl
  rw [hi] at hb
  exact hne (Option.some.inj hb)

/-! ## What the gates say of a closed scan -/

/-- What is published of a closed scan. -/
theorem checkConclusion_of_closed {policy : PolicyDb} {orgId : OrgId} {now : Timestamp}
    {row : ScanConclusionRow} {input : ConcludePolicyInput}
    (hinput : input = loadScanPolicyMatchInput policy orgId now row)
    (hterminal : row.status.terminal = true) :
    checkConclusionFromScan (scanGatesForScan policy orgId now row).conclusion =
      if !gatePending input then some (if failsBuild input then .failure else .success)
      else none := by
  have hconclusion : (scanGatesForScan policy orgId now row).conclusion = concludeScan input := by
    unfold scanGatesForScan
    rw [if_pos hterminal, hinput]
  rw [hconclusion]
  unfold concludeScan concludeByAction
  cases gatePending input with
  | true => rfl
  | false =>
      show checkConclusionFromScan (if failsBuild input then .failed else .passed) = some _
      cases failsBuild input with
      | false => rfl
      | true => rfl

theorem exists_conclusionRow (hstored : w.scans.scans.find? scan.id = some scan) :
    ∃ row, w.scans.conclusionRow scan.id = some row ∧ row.status = scan.status := by
  unfold ScanStore.conclusionRow
  rw [hstored]
  exact ⟨_, rfl, rfl⟩

theorem CheckDue.conclusion_eq (hdue : CheckDue env usableToken w scan) :
    (w.conclusion scan).bind checkConclusionFromScan = (w.standing scan).bind fun stands =>
      if stands.1 then some (if stands.2 then .failure else .success) else none := by
  obtain ⟨row, hrow, hstatus⟩ := exists_conclusionRow hdue.stored
  have hterminal : row.status.terminal = true := by
    rw [hstatus]
    exact hdue.closed
  unfold CheckWorld.conclusion standing loaded
  rw [hrow]
  exact checkConclusion_of_closed rfl hterminal

/-- A publish that reads a closed scan with an answer prepares the check run that fits. -/
theorem CheckDue.publishCheck_eq (hdue : CheckDue env usableToken w scan) {fails : Bool}
    (hstanding : w.standing scan = some (true, fails)) :
    ∃ check, publishCheck env w.scans w.policy scan.orgId scan.id w.now = some check ∧
      IsCheckOf env scan check ∧ w.Fits scan check.body.conclusion := by
  obtain ⟨ctx, hctx⟩ := Option.isSome_iff_exists.mp hdue.context
  obtain ⟨row, hrow, hstatus⟩ := exists_conclusionRow hdue.stored
  have hconclusion := hdue.conclusion_eq
  rw [hstanding] at hconclusion
  unfold CheckWorld.conclusion at hconclusion
  rw [hrow] at hconclusion
  refine ⟨_, publishCheck_eq_some.mpr ⟨scan, ctx, row, _, hdue.stored, rfl, hctx, hrow,
    hconclusion, rfl⟩, ⟨ctx, hctx, rfl⟩, ?_⟩
  intro fails' hfails'
  rw [hstanding] at hfails'
  obtain ⟨-, rfl⟩ := Prod.mk.inj (Option.some.inj hfails')
  rfl

/-! ## What GitHub keeps -/

/-- **What a write does.**  It creates the check run, or rewrites one of the same identity. -/
theorem upsertCheck_cases (runs : List CheckRun) (check : CheckRun) (listed : Option Nat) :
    upsertCheck runs check listed = runs ++ [check] ∨
      ∃ index run, runs[index]? = some run ∧ run.identity = check.identity ∧
        upsertCheck runs check listed = runs.set index (run.patched check.body) := by
  unfold upsertCheck
  split
  · exact Or.inl rfl
  · split
    · exact Or.inl rfl
    · rename_i hget
      split
      case isTrue hsame => exact Or.inr ⟨_, _, hget, hsame, rfl⟩
      case isFalse => exact Or.inl rfl

/-- Behind a write there is a check run of its identity and conclusion. -/
theorem exists_mem_upsertCheck (runs : List CheckRun) (check : CheckRun) (listed : Option Nat) :
    ∃ run ∈ upsertCheck runs check listed, run.identity = check.identity ∧
      run.body.conclusion = check.body.conclusion := by
  rcases upsertCheck_cases runs check listed with hcreated | ⟨index, run, hget, hsame, hset⟩
  · rw [hcreated]
    exact ⟨check, List.mem_append_right runs (List.mem_singleton_self check), rfl, rfl⟩
  · rw [hset]
    obtain ⟨hlt, -⟩ := List.getElem?_eq_some_iff.mp hget
    exact ⟨run.patched check.body, List.mem_set hlt _, hsame, rfl⟩

/-- A check run of another identity stays as it is. -/
theorem mem_upsertCheck_of_ne {runs : List CheckRun} {run check : CheckRun} (hrun : run ∈ runs)
    (hne : run.identity ≠ check.identity) (listed : Option Nat) :
    run ∈ upsertCheck runs check listed := by
  rcases upsertCheck_cases runs check listed with hcreated | ⟨index, other, hget, hsame, hset⟩
  · rw [hcreated]
    exact List.mem_append_left [check] hrun
  · rw [hset]
    obtain ⟨i, hi⟩ := List.mem_iff_getElem?.mp hrun
    have hindex : index ≠ i := by
      rintro rfl
      rw [hi] at hget
      obtain rfl := Option.some.inj hget
      exact hne hsame
    have hstays : (runs.set index (other.patched check.body))[i]? = some run := by
      rw [List.getElem?_set_ne hindex]
      exact hi
    exact List.mem_of_getElem? hstays

theorem IsCheckOf.congr {run run' : CheckRun} (h : IsCheckOf env scan run)
    (hsame : run'.identity = run.identity) : IsCheckOf env scan run' := by
  obtain ⟨ctx, hctx, hidentity⟩ := h
  exact ⟨ctx, hctx, hsame.trans hidentity⟩

/-- The check runs of a scan have one identity. -/
theorem IsCheckOf.identity_eq {run run' : CheckRun} (h : IsCheckOf env scan run)
    (h' : IsCheckOf env scan run') : run.identity = run'.identity := by
  obtain ⟨ctx, hctx, hidentity⟩ := h
  obtain ⟨ctx', hctx', hidentity'⟩ := h'
  rw [hctx] at hctx'
  obtain rfl := Option.some.inj hctx'
  rw [hidentity, hidentity']

/-! ## What every run keeps -/

/-- The check run of the scan is there and right, or is still to be written. -/
def Covered (env : ChecksEnv) (w : CheckWorld) (scan : ScanRow) : Prop :=
  ToBeWritten env w scan ∨
    ∃ run ∈ w.github, IsCheckOf env scan run ∧ w.Fits scan run.body.conclusion

/-- Every closed scan whose gates have an answer is covered. -/
def Sound (env : ChecksEnv) (usableToken : Uuid → Bool) (w : CheckWorld) : Prop :=
  ∀ scan, CheckDue env usableToken w scan →
    (∃ fails, w.standing scan = some (true, fails)) → Covered env w scan

/-- The columns a check run and its publishes are about. -/
def checkKey (scan : ScanRow) : Uuid × OrgId × JsonObject :=
  (scan.id, scan.orgId, scan.options)

theorem keptColumns_checkKey : KeptColumns checkKey fun _ : ScanJobRow => () :=
  ⟨fun _ _ => rfl, fun _ _ _ => rfl, fun _ _ => rfl, fun _ _ _ => rfl, fun _ => rfl⟩

/-- No scan loses its key, and no publish and no check run goes. -/
structure KeepsPublishes (w w' : CheckWorld) : Prop where
  keys : ∀ old ∈ w.scans.scans, ∃ scan ∈ w'.scans.scans, checkKey scan = checkKey old
  creating : w.creating ⊆ w'.creating
  publishing : w.publishing ⊆ w'.publishing
  prepared : w'.prepared = w.prepared
  github : w'.github = w.github

/-- Where no scan is written, its key stays. -/
theorem keys_of_scans_eq (h : w'.scans = w.scans) :
    ∀ old ∈ w.scans.scans, ∃ scan ∈ w'.scans.scans, checkKey scan = checkKey old := by
  intro old hold
  rw [h]
  exact ⟨old, hold, rfl⟩

theorem keepsPublishes_createScan (args : ScanStore.KickArgs) :
    KeepsPublishes w (step env platform usableToken w (.createScan args)) := by
  have hself : KeepsPublishes w w :=
    ⟨keys_of_scans_eq rfl, List.Subset.refl _, List.Subset.refl _, rfl, rfl⟩
  show KeepsPublishes w (match w.scans.persistKick args with
    | some (scans, scan, false) =>
        { w with scans := scans, creating := w.creating ++ [(args.orgId, scan.id)] }
    | _ => w)
  split
  case h_1 scans scan hkick =>
    obtain ⟨-, hscans, -⟩ := ScanStore.persistKick_created hkick
    refine ⟨?_, List.subset_append_left _ _, List.Subset.refl _, rfl, rfl⟩
    intro old hold
    exact ⟨old, (Table.mem_insertMany? hscans).mpr (Or.inr hold), rfl⟩
  case h_2 => exact hself

theorem keepsPublishes_lifecycle (event : LifecycleEvent) :
    KeepsPublishes w (step env platform usableToken w (.lifecycle event)) := by
  refine ⟨?_, List.Subset.refl _, List.subset_append_left _ _, rfl, rfl⟩
  intro old hold
  exact (sameColumns_lifecycleStep keptColumns_checkKey w.scans event).symm.scan hold

theorem keepsPublishes_ingestAdvances (index : Nat) (id : Uuid) :
    KeepsPublishes w (step env platform usableToken w (.ingestAdvances index id)) := by
  simp only [step]
  split <;> exact ⟨keys_of_scans_eq rfl, List.Subset.refl _, List.Subset.refl _, rfl, rfl⟩

/-- A scan that stands as it did stays covered. -/
theorem Covered.keeps {old : ScanRow} (h : Covered env w old) (hkeeps : KeepsPublishes w w')
    (hold : w.scans.scans.find? old.id = some old)
    (hscan : w'.scans.scans.find? scan.id = some scan)
    (hid : old.id = scan.id) (hstanding : w'.standing scan = w.standing old) :
    Covered env w' scan := by
  obtain ⟨scan', hmem, hkey⟩ := hkeeps.keys old (Table.find?_mem hold)
  obtain ⟨hid', hkey'⟩ := Prod.mk.inj hkey
  obtain rfl : scan' = scan :=
    Table.eq_of_key_eq hmem (Table.find?_mem hscan) (hid'.trans hid)
  obtain ⟨horg, hoptions⟩ := Prod.mk.inj hkey'
  have hcheck : ∀ run, IsCheckOf env old run → IsCheckOf env scan' run := by
    intro run hrun
    unfold IsCheckOf at hrun ⊢
    rw [hid', hoptions]
    exact hrun
  have hfits : ∀ conclusion, w.Fits old conclusion → w'.Fits scan' conclusion := by
    intro conclusion hold
    unfold Fits at hold ⊢
    rw [hstanding]
    exact hold
  unfold Covered ToBeWritten ToBeRead at h ⊢
  rw [horg, hid', hkeeps.prepared, hkeeps.github]
  rcases h with ((hcreating | hpublishing) | ⟨check, hprepared, hof, hright⟩) |
    ⟨run, hgithub, hof, hright⟩
  · exact Or.inl (Or.inl (Or.inl (hkeeps.creating hcreating)))
  · exact Or.inl (Or.inl (Or.inr (hkeeps.publishing hpublishing)))
  · exact Or.inl (Or.inr ⟨check, hprepared, hcheck check hof, hfits _ hright⟩)
  · exact Or.inr ⟨run, hgithub, hcheck run hof, hfits _ hright⟩

/-- **A step that is no step of a publish.**  What it closes or changes is read by a publish. -/
theorem Sound.keeps {e : CheckEvent} (h : Sound env usableToken w)
    (hkeeps : KeepsPublishes w (step env platform usableToken w e))
    (hfollowed : Followed env platform usableToken w e) :
    Sound env usableToken (step env platform usableToken w e) := by
  rintro scan hdue ⟨fails, hanswer⟩
  rcases hfollowed scan hdue with ⟨old, holdDue, hid, hstanding⟩ | htoBeRead
  · have hcovered : Covered env w old :=
      h old holdDue ⟨fails, by rw [← hstanding]; exact hanswer⟩
    exact hcovered.keeps hkeeps holdDue.stored hdue.stored hid hstanding
  · exact Or.inl (Or.inl htoBeRead)

/-- The call that returns publishes the check of its scan if that is closed. -/
theorem Covered.createScanReturns (h : Covered env w scan)
    (hdue : CheckDue env usableToken w scan) (index : Nat) :
    Covered env (w.createScanReturns index) scan := by
  unfold CheckWorld.createScanReturns
  split
  case h_1 => exact h
  case h_2 orgId scanId hget =>
    rcases h with ((hcreating | hpublishing) | hprepared) | hgithub
    · by_cases hsame : (scan.orgId, scan.id) = (orgId, scanId)
      · obtain ⟨rfl, rfl⟩ := Prod.mk.inj hsame
        refine Or.inl (Or.inl (Or.inr ?_))
        show (scan.orgId, scan.id) ∈ if _ then _ else _
        rw [hdue.stored, if_pos (by simp [hdue.closed])]
        exact List.mem_append_right _ (List.mem_singleton_self _)
      · exact Or.inl (Or.inl (Or.inl (mem_eraseIdx_of_ne hcreating hget hsame)))
    · refine Or.inl (Or.inl (Or.inr ?_))
      show (scan.orgId, scan.id) ∈ if _ then _ else _
      split
      · exact List.mem_append_left _ hpublishing
      · exact hpublishing
    · exact Or.inl (Or.inr hprepared)
    · exact Or.inr hgithub

/-- The publish that reads the scan prepares a check run that fits. -/
theorem Covered.checkRead (h : Covered env w scan) (hdue : CheckDue env usableToken w scan)
    (hanswer : ∃ fails, w.standing scan = some (true, fails)) (index : Nat) :
    Covered env (w.checkRead env usableToken index) scan := by
  unfold CheckWorld.checkRead
  split
  case h_1 => exact h
  case h_2 orgId scanId hget =>
    rcases h with ((hcreating | hpublishing) | ⟨check, hprepared, hright⟩) | hgithub
    · exact Or.inl (Or.inl (Or.inl hcreating))
    · by_cases hsame : (scan.orgId, scan.id) = (orgId, scanId)
      · obtain ⟨rfl, rfl⟩ := Prod.mk.inj hsame
        obtain ⟨fails, hstanding⟩ := hanswer
        obtain ⟨check, hcheck, hright⟩ := hdue.publishCheck_eq hstanding
        refine Or.inl (Or.inr ⟨check, ?_, hright⟩)
        show check ∈ if _ then _ else _
        rw [if_pos hdue.token, hcheck]
        exact List.mem_append_right _ (List.mem_singleton_self _)
      · exact Or.inl (Or.inl (Or.inr (mem_eraseIdx_of_ne hpublishing hget hsame)))
    · refine Or.inl (Or.inr ⟨check, ?_, hright⟩)
      show check ∈ if _ then _ else _
      split
      · exact List.mem_append_left _ hprepared
      · exact hprepared
    · exact Or.inr hgithub

/-- A check run of the scan that is written is right, or is not the last one. -/
theorem Covered.checkWritten (h : Covered env w scan) {index : Nat} {listed : Option Nat}
    (hlast : ∀ check, w.prepared[index]? = some check → IsCheckOf env scan check →
      w.Fits scan check.body.conclusion ∨ ToBeWritten env (w.checkWritten index listed) scan) :
    Covered env (w.checkWritten index listed) scan := by
  cases hget : w.prepared[index]? with
  | none =>
      have hsame : w.checkWritten index listed = w := by
        unfold CheckWorld.checkWritten
        rw [hget]
      rw [hsame]
      exact h
  | some written =>
      have hstep : w.checkWritten index listed =
          { w with
            prepared := w.prepared.eraseIdx index
            github := upsertCheck w.github written listed } := by
        unfold CheckWorld.checkWritten
        rw [hget]
      by_cases hours : IsCheckOf env scan written
      · rcases hlast written hget hours with hfits | hlater
        · -- the check run that is written is right itself
          obtain ⟨run, hrun, hidentity, hconclusion⟩ :=
            exists_mem_upsertCheck w.github written listed
          rw [hstep]
          refine Or.inr ⟨run, hrun, hours.congr hidentity, ?_⟩
          rw [hconclusion]
          exact hfits
        · exact Or.inl hlater
      · rw [hstep]
        rcases h with ((hcreating | hpublishing) | ⟨check, hprepared, hof, hright⟩) |
          ⟨run, hgithub, hof, hright⟩
        · exact Or.inl (Or.inl (Or.inl hcreating))
        · exact Or.inl (Or.inl (Or.inr hpublishing))
        · have hne : check ≠ written := by
            rintro rfl
            exact hours hof
          exact Or.inl (Or.inr ⟨check, mem_eraseIdx_of_ne hprepared hget hne, hof, hright⟩)
        · have hne : run.identity ≠ written.identity := by
            intro hsame
            exact hours (hof.congr hsame.symm)
          exact Or.inr ⟨run, mem_upsertCheck_of_ne hgithub hne listed, hof, hright⟩

/-- **One step.**  A step that meets both conditions leaves every closed scan with an answer
covered. -/
theorem Sound.step (h : Sound env usableToken w) {e : CheckEvent}
    (hfollowed : Followed env platform usableToken w e)
    (hlast : NotLast env platform usableToken w e) :
    Sound env usableToken (step env platform usableToken w e) := by
  cases e with
  | createScan args => exact h.keeps (keepsPublishes_createScan args) hfollowed
  | createScanReturns index =>
      rintro scan hdue hanswer
      have hsame := sameTables_createScanReturns w index
      have hbefore := hsame.checkDue hdue
      have hanswered : ∃ fails, w.standing scan = some (true, fails) := by
        rw [← hsame.standing scan]
        exact hanswer
      exact (h scan hbefore hanswered).createScanReturns hbefore index
  | lifecycle event => exact h.keeps (keepsPublishes_lifecycle event) hfollowed
  | findingsReported orgId run =>
      exact h.keeps ⟨keys_of_scans_eq rfl, List.Subset.refl _, List.Subset.refl _, rfl, rfl⟩
        hfollowed
  | ingestAdvances index id => exact h.keeps (keepsPublishes_ingestAdvances index id) hfollowed
  | policyChanged policy =>
      exact h.keeps ⟨keys_of_scans_eq rfl, List.Subset.refl _, List.Subset.refl _, rfl, rfl⟩
        hfollowed
  | timePasses now =>
      exact h.keeps ⟨keys_of_scans_eq rfl, List.Subset.refl _, List.Subset.refl _, rfl, rfl⟩
        hfollowed
  | checkRead index =>
      rintro scan hdue hanswer
      have hsame := sameTables_checkRead env usableToken w index
      have hbefore := hsame.checkDue hdue
      have hanswered : ∃ fails, w.standing scan = some (true, fails) := by
        rw [← hsame.standing scan]
        exact hanswer
      exact (h scan hbefore hanswered).checkRead hbefore hanswered index
  | checkWritten index listed =>
      rintro scan hdue hanswer
      have hsame := sameTables_checkWritten w index listed
      have hbefore := hsame.checkDue hdue
      have hanswered : ∃ fails, w.standing scan = some (true, fails) := by
        rw [← hsame.standing scan]
        exact hanswer
      exact (h scan hbefore hanswered).checkWritten fun check hget hours =>
        hlast index listed check rfl hget scan hbefore hours

/-- Before the first scan there is none to cover. -/
theorem sound_start (policy : PolicyDb) : Sound env usableToken { policy := policy } := by
  intro scan hdue _
  exact absurd (Table.find?_mem hdue.stored) (Table.not_mem_empty scan)

end Facts

/-- The jobs of the scan have reported no finding, or there are open ones of its assets. -/
def Answered (w : CheckWorld) (scan : ScanRow) : Prop :=
  ∃ row, w.scans.conclusionRow scan.id = some row ∧
    (row.expectedFindingCount = 0 ∨ openFindings w.policy scan.orgId row ≠ [])

theorem CheckDue.answered_iff {env : ChecksEnv} {usableToken : Uuid → Bool} {w : CheckWorld}
    {scan : ScanRow} (hdue : CheckDue env usableToken w scan) :
    w.Answered scan ↔ ∃ fails, w.standing scan = some (true, fails) := by
  obtain ⟨row, hrow, hstatus⟩ := exists_conclusionRow hdue.stored
  have hterminal : row.status.terminal = true := by
    rw [hstatus]
    exact hdue.closed
  unfold Answered standing loaded
  rw [hrow]
  simp [← gatePending_loaded_iff w.now hterminal]

/-! ## Steps that meet the conditions -/

section Conditions

variable {env : ChecksEnv} {platform : Platform} {usableToken : Uuid → Bool} {w : CheckWorld}

/-- A step behind which every closed scan has a publish that has yet to read. -/
theorem followed_of_publishing {e : CheckEvent}
    (hpublishing : ∀ scan ∈ (step env platform usableToken w e).scans.scans.rows,
      scan.status.terminal = true →
        (scan.orgId, scan.id) ∈ (step env platform usableToken w e).publishing) :
    Followed env platform usableToken w e := by
  intro scan hdue
  exact Or.inr (Or.inr (hpublishing scan (Table.find?_mem hdue.stored) hdue.closed))

theorem followed_checkRead (index : Nat) :
    Followed env platform usableToken w (.checkRead index) :=
  followed_of_sameTables (sameTables_checkRead env usableToken w index)

theorem followed_checkWritten (index : Nat) (listed : Option Nat) :
    Followed env platform usableToken w (.checkWritten index listed) :=
  followed_of_sameTables (sameTables_checkWritten w index listed)

/-- Only a write can be an outdated one. -/
theorem notLast_of_ne {e : CheckEvent} (hne : ∀ index listed, e ≠ .checkWritten index listed) :
    NotLast env platform usableToken w e := by
  intro index listed check heq
  exact absurd heq (hne index listed)

/-- A write of what still fits. -/
theorem notLast_of_fits {index : Nat} {listed : Option Nat}
    (hfits : ∀ check ∈ w.prepared, ∀ scan ∈ w.scans.scans.rows,
      w.Fits scan check.body.conclusion) :
    NotLast env platform usableToken w (.checkWritten index listed) := by
  intro index' listed' check heq hget scan hdue _
  exact Or.inl (hfits check (List.mem_of_getElem? hget) scan (Table.find?_mem hdue.stored))

end Conditions

/-! ## Agreement -/

/-- **The check run agrees once nothing is under way.**  Take any run of scans accepted and
closed, retries, ingests, changes of the policies and publishes, in any order.  If whatever
closes a scan or changes how it stands is read by a publish, and an outdated reading is never
written last, then at rest each closed scan with a context and a token has a check run that
says what its gates say precisely when they have an answer. -/
theorem check_agrees_iff_answered (env : ChecksEnv) (platform : Platform)
    (usableToken : Uuid → Bool) (policy : PolicyDb) {es : List CheckEvent}
    (hsteps : (system env platform usableToken).AllSteps
      (fun w e => Followed env platform usableToken w e ∧ NotLast env platform usableToken w e)
      { policy := policy } es) :
    ∀ w ∈ (system env platform usableToken).states { policy := policy } es, w.AtRest →
      ∀ scan, CheckDue env usableToken w scan →
        (CheckAgrees env w scan ↔ w.Answered scan) := by
  intro w hw hrest scan hdue
  have hsound : Sound env usableToken w :=
    System.forall_states_of_allSteps (system env platform usableToken)
      (fun w e h hcond => h.step hcond.1 hcond.2) (sound_start policy) hsteps w hw
  rw [hdue.answered_iff]
  constructor
  · rintro ⟨run, -, -, hconclusion⟩
    rw [hdue.conclusion_eq] at hconclusion
    obtain ⟨⟨answers, fails⟩, hstanding, hsome⟩ := Option.bind_eq_some_iff.mp hconclusion
    cases answers with
    | false => cases hsome
    | true => exact ⟨fails, hstanding⟩
  · rintro ⟨fails, hstanding⟩
    rcases hsound scan hdue ⟨fails, hstanding⟩ with hlater | ⟨run, hrun, hof, hfits⟩
    · -- at rest there is no publish left
      exfalso
      unfold ToBeWritten ToBeRead at hlater
      rw [hrest.creating, hrest.publishing, hrest.prepared] at hlater
      simp at hlater
    · refine ⟨run, hrun, hof, ?_⟩
      rw [hdue.conclusion_eq, hstanding, hfits fails hstanding]
      rfl

/-! ## The scan with a critical finding -/

namespace NamedCommit

/-- The accept of a scan whose options name a commit. -/
def kick : ScanStore.KickArgs :=
  { apiKick with
    options := [("repository", .str "acme/api"),
      ("sha", .str "5f1c0b7e5f1c0b7e5f1c0b7e5f1c0b7e5f1c0b7e")] }

def env : ChecksEnv where
  parse := fun _ => none

/-- The service behind an open finding of low severity. -/
def start : CheckWorld where
  policy := apiState .low

/-- Its two consumers and its publisher, while every credential resolves. -/
def service : System CheckWorld CheckEvent :=
  system env apiPlatform fun _ => true

/-- The scan is accepted, and its job has run. -/
def accepted : List CheckEvent :=
  [.createScan kick, .createScanReturns 0, .findingsReported apiKick.orgId apiJobRun]

/-- The batch of the job is ingested. -/
def ingested : List CheckEvent :=
  [.ingestAdvances 0 newFindingId, .ingestAdvances 0 newFindingId]

/-- The completion of the job is applied, and the check is published. -/
def published : List CheckEvent :=
  [.lifecycle (.scanJobCompleted apiJobRun.completed 4), .checkRead 0, .checkWritten 0 none]

end NamedCommit

open NamedCommit in
/-- The batch is ingested before the completion is applied, and the check run agrees. -/
theorem early_ingest_check_agrees :
    ∃ scan, CheckDue env (fun _ => true)
        (service.run start (accepted ++ ingested ++ published)) scan ∧
      CheckAgrees env (service.run start (accepted ++ ingested ++ published)) scan := by
  have hsteps : service.AllSteps (fun w e => Followed env apiPlatform (fun _ => true) w e ∧
      NotLast env apiPlatform (fun _ => true) w e) start (accepted ++ ingested ++ published) := by
    refine ⟨⟨followed_of_publishing (by decide +kernel), notLast_of_ne (by simp)⟩,
      ⟨followed_of_publishing (by decide +kernel), notLast_of_ne (by simp)⟩,
      ⟨followed_of_publishing (by decide +kernel), notLast_of_ne (by simp)⟩,
      ⟨followed_of_publishing (by decide +kernel), notLast_of_ne (by simp)⟩,
      ⟨followed_of_publishing (by decide +kernel), notLast_of_ne (by simp)⟩,
      ⟨followed_of_publishing (by decide +kernel), notLast_of_ne (by simp)⟩,
      ⟨followed_checkRead 0, notLast_of_ne (by simp)⟩,
      ⟨followed_checkWritten 0 none, notLast_of_fits ?_⟩, trivial⟩
    intro check hcheck scan hscan fails hfails
    have hprepared : ∀ check ∈ (service.run start
        (accepted ++ ingested ++ published.take 2)).prepared, check.body.conclusion = .failure := by
      decide +kernel
    have hstanding : ∀ scan ∈ (service.run start
        (accepted ++ ingested ++ published.take 2)).scans.scans.rows,
        (service.run start (accepted ++ ingested ++ published.take 2)).standing scan =
          some (true, true) := by
      decide +kernel
    have hsame : some (true, true) = some (true, fails) := (hstanding scan hscan).symm.trans hfails
    obtain rfl := (Prod.mk.inj (Option.some.inj hsame)).2
    exact hprepared check hcheck
  have hrest : (service.run start (accepted ++ ingested ++ published)).AtRest := by
    decide +kernel
  have hstanding : ∀ scan ∈ (service.run start
      (accepted ++ ingested ++ published)).scans.scans.rows,
      (service.run start (accepted ++ ingested ++ published)).standing scan =
        some (true, true) := by
    decide +kernel
  have hscan : ((service.run start (accepted ++ ingested ++ published)).scans.scans.find?
      kick.scanId).map (fun scan => (scan.id, scan.status.terminal,
        (parseGithubChecksContext env scan.options scan.id).isSome)) =
      some (kick.scanId, true, true) := by
    decide +kernel
  obtain ⟨scan, hfind, hfacts⟩ := Option.map_eq_some_iff.mp hscan
  simp only [Prod.mk.injEq] at hfacts
  obtain ⟨hid, hclosed, hcontext⟩ := hfacts
  rw [← hid] at hfind
  have hdue : CheckDue env (fun _ => true)
      (service.run start (accepted ++ ingested ++ published)) scan :=
    ⟨hfind, hclosed, hcontext, rfl⟩
  refine ⟨scan, hdue, ?_⟩
  refine (check_agrees_iff_answered env apiPlatform (fun _ => true) (apiState .low) hsteps _
    (service.run_mem_states start _) hrest scan hdue).mpr ?_
  exact hdue.answered_iff.mpr ⟨true, hstanding scan (Table.find?_mem hdue.stored)⟩

open NamedCommit in
/-- The completion overtakes the batch: the check run stays a success while the gates have come
to fail the scan. -/
theorem late_ingest_leaves_check :
    ¬ ∀ (env : ChecksEnv) (platform : Platform) (usableToken : Uuid → Bool) (policy : PolicyDb)
      (es : List CheckEvent), (system env platform usableToken).Legal { policy := policy } es →
      ∀ w, w = (system env platform usableToken).run { policy := policy } es → w.AtRest →
        ∀ scan, CheckDue env usableToken w scan → CheckAgrees env w scan := by
  intro hall
  have hlegal : service.Legal start (accepted ++ published ++ ingested) := by
    refine ⟨trivial, trivial, ?_, ?_, trivial, trivial, trivial, trivial, trivial⟩
    · exact ⟨_, List.mem_singleton.mpr rfl, rfl, _, _, _, _, ⟨rfl, rfl, rfl⟩, rfl⟩
    · exact apiJobRun_allowed 4 rfl
  have hrest : (service.run start (accepted ++ published ++ ingested)).AtRest := by
    decide +kernel
  have hscan : ((service.run start (accepted ++ published ++ ingested)).scans.scans.find?
      kick.scanId).map (fun scan => (scan.id, scan.status.terminal,
        (parseGithubChecksContext env scan.options scan.id).isSome,
        (service.run start (accepted ++ published ++ ingested)).conclusion scan)) =
      some (kick.scanId, true, true, some .failed) := by
    decide +kernel
  have hchecks : (service.run start (accepted ++ published ++ ingested)).github.map
      (fun run => run.body.conclusion) = [.success] := by
    decide +kernel
  obtain ⟨scan, hfind, hfacts⟩ := Option.map_eq_some_iff.mp hscan
  simp only [Prod.mk.injEq] at hfacts
  obtain ⟨hid, hclosed, hcontext, hfailed⟩ := hfacts
  rw [← hid] at hfind
  obtain ⟨run, hrun, -, hsays⟩ :=
    hall env apiPlatform (fun _ => true) (apiState .low) _ hlegal _ rfl hrest scan
      ⟨hfind, hclosed, hcontext, rfl⟩
  have hsuccess : run.body.conclusion ∈ [CheckConclusion.success] :=
    hchecks ▸ List.mem_map_of_mem hrun
  rw [List.mem_singleton] at hsuccess
  have hfailed' : (service.run start (accepted ++ published ++ ingested)).conclusion scan =
      some .failed := hfailed
  change ((service.run start (accepted ++ published ++ ingested)).conclusion scan).bind _ = _
    at hsays
  rw [hfailed', hsuccess] at hsays
  cases hsays

end CheckWorld

end Orchestrator
end Ctem
