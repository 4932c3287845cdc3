import Mathlib.Algebra.GroupWithZero.Nat
import Ctem.Policy.Engine

/-!
# The scan gates and the policy engine

`scanGatesForScan` loads the open findings of a scan's assets, the enabled
policies and the active exceptions, and computes both gates from one load.  The
risk service evaluates the same policies finding by finding.

* `loadScanPolicyMatchInput_findings` says which findings the gates see.
* `suppressed_iff_silenced`: the gates suppress a finding precisely when the
  engine's exception query silences it.
* `carries_iff_evaluate`: the first match of a finding is the engine's.
* `gates_agree_with_engine` puts these together, for any order in which the
  database returns the rows of either side.
-/

namespace Ctem
namespace Orchestrator

open Foundation Contracts Findings Policy

/-- What the gates read of a scan: its status, its type and its jobs. -/
structure ScanConclusionRow where
  status : ScanStatus
  scannerType : ScannerType
  jobs : List (Uuid × Option Nat) := []

structure ScanGates where
  conclusion : ScanConclusion
  deployConclusion : ScanDeployConclusion
deriving DecidableEq, Repr

/-- `[...new Set(jobs.map((job) => job.assetId))]`. -/
def ScanConclusionRow.assetIds (scan : ScanConclusionRow) : List Uuid :=
  (scan.jobs.map Prod.fst).eraseDups

/-- The sum of the jobs' finding counts. -/
def ScanConclusionRow.expectedFindingCount (scan : ScanConclusionRow) : Nat :=
  (scan.jobs.map fun job => job.2.getD 0).sum

section Load

variable (st : PolicyDb) (orgId : OrgId) (now : Timestamp) (scan : ScanConclusionRow)

/-- The row is one the scan's gates look at. -/
def gateFinding (r : FindingRow) : Bool :=
  decide (r.orgId = orgId) && decide (r.assetId ∈ scan.assetIds) &&
    decide (r.scannerType = scan.scannerType) && r.state.unresolved

/-- The open findings of the scan's assets and type. -/
def openFindings : List FindingRow :=
  st.db.findings.rows.filter (gateFinding orgId scan)

/-- The query for exceptions: active, and global or about one of the findings. -/
def gateException (e : RiskExceptionRow) : Bool :=
  decide (e.orgId = orgId) && e.active now &&
    (decide (e.scope = .global) ||
      (decide (e.scope = .finding) &&
        decide (e.targetRef ∈ (openFindings st orgId scan).map FindingRow.id)))

/-- `suppressedFindingIds`: all of them under a global exception, else the targets. -/
def suppressedFindingIds : List Uuid :=
  let exceptions := st.exceptions.filter (gateException st orgId now scan)
  if exceptions.any fun e => decide (e.scope = .global) then
    (openFindings st orgId scan).map FindingRow.id
  else exceptions.map RiskExceptionRow.targetRef

/-- A finding row joined to its asset, as the gates pass it on. -/
def joinAsset (r : FindingRow) : Option PolicyMatchFinding :=
  (st.db.assetOf r).map (matchFinding r)

/-- A policy row as the gates pass it on. -/
def matchRule (p : PolicyRow) : PolicyMatchRule :=
  ⟨p.enabled, p.priority, p.condition, p.actions⟩

/-- `loadScanPolicyMatchInput`. -/
def loadScanPolicyMatchInput : ConcludePolicyInput where
  status := scan.status
  findings := (openFindings st orgId scan).filterMap (joinAsset st)
  policies := (st.enabledPolicies orgId).map matchRule
  suppressedFindingIds := suppressedFindingIds st orgId now scan
  expectedFindingCount := scan.expectedFindingCount

/-- `scanGatesForScan`. -/
def scanGatesForScan : ScanGates :=
  if scan.status.terminal then
    let input := loadScanPolicyMatchInput st orgId now scan
    ⟨concludeScan input, concludeDeploy input⟩
  else ⟨.pending, .pending⟩

end Load

/-! ## What the gates load -/

section Facts

variable {st : PolicyDb} {orgId : OrgId} {now : Timestamp} {scan : ScanConclusionRow}

theorem mem_openFindings {r : FindingRow} :
    r ∈ openFindings st orgId scan ↔ r ∈ st.db.findings ∧ gateFinding orgId scan r = true := by
  unfold openFindings
  rw [List.mem_filter, Table.mem_def]

theorem openFindings_orgId {r : FindingRow} (hr : r ∈ openFindings st orgId scan) :
    r.orgId = orgId := by
  have hgate := (mem_openFindings.mp hr).2
  simp only [gateFinding, Bool.and_eq_true, decide_eq_true_eq] at hgate
  exact hgate.1.1.1

/-- Every open finding has its asset, so the join drops none. -/
theorem exists_joinAsset {r : FindingRow} (hr : r ∈ openFindings st orgId scan) :
    ∃ asset, st.db.assetOf r = some asset ∧ joinAsset st r = some (matchFinding r asset) := by
  have hsome := FindingsDb.assetOf_isSome (mem_openFindings.mp hr).1
  obtain ⟨asset, hasset⟩ := Option.isSome_iff_exists.mp hsome
  refine ⟨asset, hasset, ?_⟩
  unfold joinAsset
  rw [hasset]
  rfl

theorem mem_loaded_findings {f : PolicyMatchFinding} :
    f ∈ (loadScanPolicyMatchInput st orgId now scan).findings ↔
      ∃ r ∈ openFindings st orgId scan, ∃ asset, st.db.assetOf r = some asset ∧
        f = matchFinding r asset := by
  change f ∈ (openFindings st orgId scan).filterMap (joinAsset st) ↔ _
  rw [List.mem_filterMap]
  constructor
  · rintro ⟨r, hr, hjoin⟩
    obtain ⟨asset, hasset, hjoin'⟩ := exists_joinAsset hr
    refine ⟨r, hr, asset, hasset, ?_⟩
    rw [hjoin, Option.some_inj] at hjoin'
    exact hjoin'
  · rintro ⟨r, hr, asset, hasset, rfl⟩
    refine ⟨r, hr, ?_⟩
    unfold joinAsset
    rw [hasset]
    rfl

/-- The gates walk the policies the query returned: they are enabled already and
already in order. -/
theorem gatePolicies_loaded :
    gatePolicies (loadScanPolicyMatchInput st orgId now scan).policies =
      (loadScanPolicyMatchInput st orgId now scan).policies := by
  have henabled : ∀ p ∈ (loadScanPolicyMatchInput st orgId now scan).policies,
      p.enabled = true := by
    intro rule hrule
    obtain ⟨p, hp, rfl⟩ := List.mem_map.mp hrule
    have hp' := (List.mem_insertionSort _).mp hp
    have hfilter := (List.mem_filter.mp hp').2
    simp only [Bool.and_eq_true] at hfilter
    exact hfilter.2
  have hsorted : (loadScanPolicyMatchInput st orgId now scan).policies.Pairwise
      fun a b => a.priority ≤ b.priority := by
    change ((st.enabledPolicies orgId).map _).Pairwise _
    rw [List.pairwise_map]
    exact List.pairwise_insertionSort (fun a b : PolicyRow => a.priority ≤ b.priority) _
  unfold gatePolicies
  rw [List.filter_eq_self.mpr henabled]
  exact List.Pairwise.insertionSort_eq hsorted

theorem firstMatch_map_matchRule (policies : List PolicyRow) (finding : PolicyMatchFinding) :
    firstMatch (policies.map matchRule) finding =
      (policies.find? fun p => matchesPolicyCondition p.condition finding).map matchRule := by
  unfold firstMatch
  rw [List.find?_map]
  rfl

/-- The gates suppress an open finding precisely when the engine's query finds an
exception that silences it. -/
theorem suppressed_iff_silenced {r : FindingRow} (hr : r ∈ openFindings st orgId scan) :
    r.id ∈ suppressedFindingIds st orgId now scan ↔
      st.hasActiveException orgId now r.id = true := by
  have hid : r.id ∈ (openFindings st orgId scan).map FindingRow.id := List.mem_map_of_mem hr
  rw [hasActiveException_iff]
  unfold suppressedFindingIds
  simp only
  split
  · -- a global exception suppresses every finding and silences every finding
    rename_i hglobal
    obtain ⟨e, he, hscope⟩ := List.any_eq_true.mp hglobal
    obtain ⟨hmem, hgate⟩ := List.mem_filter.mp he
    simp only [decide_eq_true_eq] at hscope
    simp only [gateException, Bool.and_eq_true] at hgate
    refine iff_of_true hid ⟨e, hmem, ?_⟩
    simp only [PolicyDb.silences, Bool.and_eq_true, hscope, decide_true, Bool.or_true, and_true]
    exact hgate.1
  · rename_i hnoglobal
    rw [List.mem_map]
    constructor
    · rintro ⟨e, he, htarget⟩
      obtain ⟨hmem, hgate⟩ := List.mem_filter.mp he
      refine ⟨e, hmem, ?_⟩
      simp only [gateException, Bool.and_eq_true, Bool.or_eq_true, decide_eq_true_eq] at hgate
      simp only [PolicyDb.silences, Bool.and_eq_true, Bool.or_eq_true, decide_eq_true_eq]
      refine ⟨hgate.1, ?_⟩
      rcases hgate.2 with hscope | ⟨hscope, -⟩
      · exact Or.inr hscope
      · exact Or.inl ⟨hscope, htarget⟩
    · rintro ⟨e, hmem, hsilences⟩
      simp only [PolicyDb.silences, Bool.and_eq_true, Bool.or_eq_true,
        decide_eq_true_eq] at hsilences
      obtain ⟨hactive, hscope⟩ := hsilences
      have hgate : gateException st orgId now scan e = true := by
        simp only [gateException, Bool.and_eq_true, Bool.or_eq_true, decide_eq_true_eq]
        refine ⟨hactive, ?_⟩
        rcases hscope with ⟨hscope, htarget⟩ | hscope
        · exact Or.inr ⟨hscope, htarget ▸ hid⟩
        · exact Or.inl hscope
      have hin := List.mem_filter.mpr ⟨hmem, hgate⟩
      rcases hscope with ⟨-, htarget⟩ | hscope
      · exact ⟨e, hin, htarget⟩
      · exfalso
        apply hnoglobal
        rw [List.any_eq_true]
        exact ⟨e, hin, by simp [hscope]⟩

/-- The gates' first match carries an action precisely when the engine, not
silenced, returns it; the seed rule only ever notifies. -/
theorem carries_iff_evaluate {r : FindingRow} (hr : r ∈ openFindings st orgId scan)
    {asset : AssetRow} (hasset : st.db.assetOf r = some asset)
    (hnot : st.hasActiveException orgId now r.id = false) {action : PolicyAction}
    (hseed : action ∉ seedNotifyActions) :
    carries (gatePolicies (loadScanPolicyMatchInput st orgId now scan).policies) action
        (matchFinding r asset) = true ↔
      ∃ outcome, evaluate st orgId r.id now = some outcome ∧ action ∈ outcome.actions := by
  have hfound : st.db.findById orgId r.id = some r := by
    have hmem := FindingsDb.findById_of_mem (mem_openFindings.mp hr).1
    rw [openFindings_orgId hr] at hmem
    exact hmem
  have hactions := evaluate_actions hfound hasset now
  rw [hnot] at hactions
  simp only [Bool.false_eq_true, if_false] at hactions
  obtain ⟨outcome, houtcome, hout⟩ := Option.map_eq_some_iff.mp hactions
  have hright : (∃ outcome, evaluate st orgId r.id now = some outcome ∧
      action ∈ outcome.actions) ↔ action ∈ outcome.actions := by
    constructor
    · rintro ⟨outcome', houtcome', hmem⟩
      rw [houtcome, Option.some_inj] at houtcome'
      exact houtcome' ▸ hmem
    · intro hmem
      exact ⟨outcome, houtcome, hmem⟩
  rw [hright, hout, gatePolicies_loaded]
  unfold carries
  rw [show (loadScanPolicyMatchInput st orgId now scan).policies =
    (st.enabledPolicies orgId).map matchRule from rfl, firstMatch_map_matchRule]
  cases hfind : (st.enabledPolicies orgId).find? fun policy =>
      matchesPolicyCondition policy.condition (matchFinding r asset) with
  | some policy => simp [matchRule]
  | none =>
      simp only [Option.map_none, Bool.false_eq_true, false_iff]
      split
      · exact hseed
      · simp

end Facts

/-! ## Agreement -/

/-- A scan that has ended and has open findings is not pending. -/
theorem gatePending_loaded {st : PolicyDb} {orgId : OrgId} (now : Timestamp)
    {scan : ScanConclusionRow} (hterminal : scan.status.terminal = true)
    (hopen : openFindings st orgId scan ≠ []) :
    gatePending (loadScanPolicyMatchInput st orgId now scan) = false := by
  obtain ⟨r, hr⟩ := List.exists_mem_of_ne_nil _ hopen
  obtain ⟨asset, hasset, -⟩ := exists_joinAsset hr
  have hmem : matchFinding r asset ∈ (loadScanPolicyMatchInput st orgId now scan).findings :=
    mem_loaded_findings.mpr ⟨r, hr, asset, hasset, rfl⟩
  have hne : (loadScanPolicyMatchInput st orgId now scan).findings.isEmpty = false := by
    rw [List.isEmpty_eq_false_iff]
    exact List.ne_nil_of_mem hmem
  unfold gatePending
  rw [hne]
  change (!scan.status.terminal || _ && false) = false
  simp [hterminal]

/-- One gate, for an action the seed rule does not have: some loaded finding that
is not suppressed carries it precisely when the engine returns it for one. -/
theorem exists_carries_iff_evaluate {st st' : PolicyDb} {orgId : OrgId} {now : Timestamp}
    {scan : ScanConclusionRow} (hdistinct : DistinctPriorities orgId st) (hsame : SameRows st st')
    {action : PolicyAction} (hseed : action ∉ seedNotifyActions) :
    (∃ finding ∈ (loadScanPolicyMatchInput st orgId now scan).findings,
        finding.id ∉ (loadScanPolicyMatchInput st orgId now scan).suppressedFindingIds ∧
          carries (gatePolicies (loadScanPolicyMatchInput st orgId now scan).policies) action
            finding = true) ↔
      ∃ r ∈ openFindings st orgId scan, ∃ outcome,
        evaluate st' orgId r.id now = some outcome ∧ action ∈ outcome.actions := by
  -- the engine's answer does not depend on the order of the rows it reads
  have hengine : ∀ id, (∃ outcome, evaluate st' orgId id now = some outcome ∧
      action ∈ outcome.actions) ↔
      ∃ outcome, evaluate st orgId id now = some outcome ∧ action ∈ outcome.actions := by
    intro id
    have hmap := evaluate_actions_of_sameRows hsame hdistinct id now
    constructor
    · rintro ⟨outcome, houtcome, hmem⟩
      rw [houtcome, Option.map_some, eq_comm, Option.map_eq_some_iff] at hmap
      obtain ⟨outcome', houtcome', heq⟩ := hmap
      exact ⟨outcome', houtcome', heq ▸ hmem⟩
    · rintro ⟨outcome, houtcome, hmem⟩
      rw [houtcome, Option.map_some, Option.map_eq_some_iff] at hmap
      obtain ⟨outcome', houtcome', heq⟩ := hmap
      exact ⟨outcome', houtcome', heq ▸ hmem⟩
  constructor
  · rintro ⟨finding, hmem, hnot, hcarries⟩
    obtain ⟨r, hr, asset, hasset, rfl⟩ := mem_loaded_findings.mp hmem
    have hsilent : st.hasActiveException orgId now r.id = false := by
      rw [← Bool.not_eq_true, ← suppressed_iff_silenced hr]
      exact hnot
    exact ⟨r, hr, (hengine r.id).mpr ((carries_iff_evaluate hr hasset hsilent hseed).mp hcarries)⟩
  · rintro ⟨r, hr, houtcome⟩
    obtain ⟨asset, hasset, -⟩ := exists_joinAsset hr
    have hout := (hengine r.id).mp houtcome
    have hsilent : st.hasActiveException orgId now r.id = false := by
      cases hexc : st.hasActiveException orgId now r.id with
      | false => rfl
      | true =>
          -- a silenced finding evaluates to the empty action list
          obtain ⟨outcome, hevaluate, hmem⟩ := hout
          have hfound : st.db.findById orgId r.id = some r := by
            have hfind := FindingsDb.findById_of_mem (mem_openFindings.mp hr).1
            rw [openFindings_orgId hr] at hfind
            exact hfind
          have hactions := evaluate_actions hfound hasset now
          rw [hevaluate, hexc] at hactions
          simp only [Option.map_some, if_true, Option.some.injEq] at hactions
          rw [hactions] at hmem
          exact absurd hmem (by simp)
    refine ⟨matchFinding r asset, mem_loaded_findings.mpr ⟨r, hr, asset, hasset, rfl⟩, ?_,
      (carries_iff_evaluate hr hasset hsilent hseed).mpr hout⟩
    change r.id ∉ suppressedFindingIds st orgId now scan
    rw [suppressed_iff_silenced hr, hsilent]
    exact Bool.false_ne_true

/-- **The two evaluators agree.**  For a scan that has ended with open findings and
an organisation whose enabled policies have distinct priorities: the build gate
fails precisely when the engine returns `fail_build` for one of those findings,
the deploy gate blocks precisely when it returns `block_deploy` for one, and the
same exceptions silence both.  `st` and `st'` hold the same rows, in any order. -/
theorem gates_agree_with_engine {st st' : PolicyDb} {orgId : OrgId} {now : Timestamp}
    {scan : ScanConclusionRow} (hdistinct : DistinctPriorities orgId st)
    (hsame : SameRows st st') (hterminal : scan.status.terminal = true)
    (hopen : openFindings st orgId scan ≠ []) :
    ((scanGatesForScan st orgId now scan).conclusion = .failed ↔
        ∃ r ∈ openFindings st orgId scan, ∃ outcome,
          evaluate st' orgId r.id now = some outcome ∧ .failBuild ∈ outcome.actions) ∧
      ((scanGatesForScan st orgId now scan).deployConclusion = .blocked ↔
        ∃ r ∈ openFindings st orgId scan, ∃ outcome,
          evaluate st' orgId r.id now = some outcome ∧ .blockDeploy ∈ outcome.actions) ∧
      ∀ r ∈ openFindings st orgId scan,
        (r.id ∈ suppressedFindingIds st orgId now scan ↔
          st'.hasActiveException orgId now r.id = true) := by
  have hpending := gatePending_loaded now hterminal hopen
  have hgates : scanGatesForScan st orgId now scan =
      ⟨concludeScan (loadScanPolicyMatchInput st orgId now scan),
        concludeDeploy (loadScanPolicyMatchInput st orgId now scan)⟩ := by
    unfold scanGatesForScan
    rw [if_pos hterminal]
  refine ⟨?_, ?_, ?_⟩
  · rw [hgates]
    change concludeScan _ = .failed ↔ _
    unfold concludeScan
    rw [concludeByAction_matched_iff hpending (by decide)]
    exact exists_carries_iff_evaluate hdistinct hsame (by decide)
  · rw [hgates]
    change concludeDeploy _ = .blocked ↔ _
    unfold concludeDeploy
    rw [concludeByAction_matched_iff hpending (by decide)]
    exact exists_carries_iff_evaluate hdistinct hsame (by decide)
  · intro r hr
    rw [hasActiveException_eq_of_sameRows hsame]
    exact suppressed_iff_silenced hr

/-! ## A repository with one open finding -/

/-- The asset of the scan. -/
def apiAsset : AssetRow where
  id := "6f1c0b7e-0000-4000-8000-0000000000c1"
  orgId := "6f1c0b7e-0000-4000-8000-000000000001"
  kind := "repository"
  externalKey := "github:acme/api"

/-- An open SCA finding of the asset. -/
def apiFinding (severity : Severity) : FindingRow where
  id := "6f1c0b7e-0000-4000-8000-0000000000f1"
  orgId := apiAsset.orgId
  assetId := apiAsset.id
  fingerprint := "8d49a6f2665e99643bbc9a77a73b3be5bc8eaed0354e1d6b9eaea6081690c455"
  scannerType := .sca
  scannerName := "ctem-sca"
  title := "GHSA-1111-2222-3333 in left-pad@1.0.0"
  severity := severity

/-- The findings of an organisation with that finding only. -/
def apiFindings (severity : Severity) : FindingsDb where
  assets := ⟨[apiAsset], List.nodup_singleton _⟩
  findings := ⟨[apiFinding severity], List.nodup_singleton _⟩
  idNodup := List.nodup_singleton _
  findingAsset := by
    intro r hr
    refine ⟨apiAsset, List.mem_singleton.mpr rfl, ?_⟩
    rw [List.mem_singleton.mp hr]
    exact ⟨rfl, rfl⟩

/-- A policy that fails the build on a high or critical finding. -/
def failOnHigh : PolicyRow where
  id := "6f1c0b7e-0000-4000-8000-0000000000d1"
  orgId := apiAsset.orgId
  name := "no high findings"
  condition := { severityAtLeast := some .high }
  actions := [.failBuild]

/-- The organisation: one finding, one policy and no exception. -/
def apiState (severity : Severity) : PolicyDb :=
  ⟨apiFindings severity, [failOnHigh], []⟩

/-- A finished SCA scan of the asset that reported one finding. -/
def apiScan : ScanConclusionRow :=
  ⟨.succeeded, .sca, [(apiAsset.id, some 1)]⟩

/-- The gate fails on a critical finding, so the engine fails the build on one. -/
theorem apiScan_engine_fails_build :
    ∃ r ∈ openFindings (apiState .critical) apiAsset.orgId apiScan, ∃ outcome,
      evaluate (apiState .critical) apiAsset.orgId r.id 0 = some outcome ∧
        .failBuild ∈ outcome.actions := by
  have hagree := @gates_agree_with_engine (apiState .critical) (apiState .critical)
    apiAsset.orgId 0 apiScan (by decide) ⟨rfl, List.Perm.refl _, List.Perm.refl _⟩ rfl
    (List.cons_ne_nil _ _)
  exact hagree.1.mp (by decide)

end Orchestrator
end Ctem
