import Ctem.Orchestrator.ScanGates
import Ctem.Policy.Operations

/-!
# Gates that stay pending

A gate of an ended scan is pending while findings are expected and none is there.  What is
expected is the count the jobs have reported; what is there are the findings that are open
now, and these are moved by triage, by later ingests of the same assets and by their closing
steps, of which the scan knows nothing.

`gates_answer_iff`: the gates of an ended scan answer at all times precisely when it expects
no findings, or has open ones to begin with and no step closes the last of them.
-/

namespace Ctem
namespace Orchestrator

open Foundation Contracts Findings Policy

/-- Any operation may happen at any time. -/
def policyDbSystem : System PolicyDb PolicyDbEvent where
  step := PolicyDb.step
  allowed := fun _ _ => True

/-- Both gates have a conclusion other than `pending`, at any time they are asked. -/
def GatesAnswer (orgId : OrgId) (scan : ScanConclusionRow) (st : PolicyDb) : Prop :=
  ∀ now, (scanGatesForScan st orgId now scan).conclusion ≠ .pending ∧
    (scanGatesForScan st orgId now scan).deployConclusion ≠ .pending

/-- The step closes every open finding of the scan's assets: a triage of the only one to
another than an open state, or a closing step that selects them all. -/
def ClosesAll (orgId : OrgId) (scan : ScanConclusionRow) (st : PolicyDb) : PolicyDbEvent → Prop
  | .triage orgId' findingId state _ => state.unresolved = false ∧
      ∀ r ∈ openFindings st orgId scan, isFinding orgId' findingId r = true
  | .close orgId' payload fingerprints _ => ∀ r ∈ openFindings st orgId scan,
      unreported orgId' payload.assetId payload.scannerType fingerprints r = true
  | _ => False

/-! ## When a gate answers -/

section Answer

variable {st : PolicyDb} {orgId : OrgId} {scan : ScanConclusionRow}

theorem concludeByAction_ne_pending {γ : Type} (input : ConcludePolicyInput)
    (action : PolicyAction) {pending matched unmatched : γ} (hmatched : matched ≠ pending)
    (hunmatched : unmatched ≠ pending) :
    concludeByAction input action pending matched unmatched ≠ pending ↔
      gatePending input = false := by
  unfold concludeByAction
  cases gatePending input with
  | true => simp
  | false =>
      simp only [Bool.false_eq_true, if_false, iff_true]
      split
      · exact hmatched
      · exact hunmatched

/-- What a loaded gate waits for. -/
theorem gatePending_loaded_iff (now : Timestamp) (hterminal : scan.status.terminal = true) :
    gatePending (loadScanPolicyMatchInput st orgId now scan) = false ↔
      scan.expectedFindingCount = 0 ∨ openFindings st orgId scan ≠ [] := by
  by_cases hopen : openFindings st orgId scan = []
  · have hempty : (loadScanPolicyMatchInput st orgId now scan).findings = [] := by
      change (openFindings st orgId scan).filterMap (joinAsset st) = []
      rw [hopen, List.filterMap_nil]
    unfold gatePending
    rw [hempty]
    change (!scan.status.terminal || decide (0 < scan.expectedFindingCount) && true) = false ↔ _
    rw [hterminal]
    simp [hopen, Nat.pos_iff_ne_zero]
  · exact iff_of_true (gatePending_loaded now hterminal hopen) (Or.inr hopen)

theorem gatesAnswer_iff (hterminal : scan.status.terminal = true) :
    GatesAnswer orgId scan st ↔
      scan.expectedFindingCount = 0 ∨ openFindings st orgId scan ≠ [] := by
  have hgates : ∀ now, ((scanGatesForScan st orgId now scan).conclusion ≠ .pending ∧
      (scanGatesForScan st orgId now scan).deployConclusion ≠ .pending) ↔
        gatePending (loadScanPolicyMatchInput st orgId now scan) = false := by
    intro now
    unfold scanGatesForScan
    rw [if_pos hterminal]
    have hscan := concludeByAction_ne_pending (loadScanPolicyMatchInput st orgId now scan)
      .failBuild (show ScanConclusion.failed ≠ .pending by decide)
      (show ScanConclusion.passed ≠ .pending by decide)
    have hdeploy := concludeByAction_ne_pending (loadScanPolicyMatchInput st orgId now scan)
      .blockDeploy (show ScanDeployConclusion.blocked ≠ .pending by decide)
      (show ScanDeployConclusion.allowed ≠ .pending by decide)
    exact (and_congr hscan hdeploy).trans and_self_iff
  constructor
  · intro hanswer
    exact (gatePending_loaded_iff 0 hterminal).mp ((hgates 0).mp (hanswer 0))
  · intro hopen now
    exact (hgates now).mpr ((gatePending_loaded_iff now hterminal).mpr hopen)

end Answer

/-! ## What a step does to the open findings -/

section Step

variable {orgId : OrgId} {scan : ScanConclusionRow} {st : PolicyDb}

theorem exists_openFindings_iff :
    openFindings st orgId scan ≠ [] ↔
      ∃ r ∈ st.db.findings, gateFinding orgId scan r = true := by
  constructor
  · intro hopen
    obtain ⟨r, hr⟩ := List.exists_mem_of_ne_nil _ hopen
    exact ⟨r, mem_openFindings.mp hr⟩
  · rintro ⟨r, hr⟩
    exact List.ne_nil_of_mem (mem_openFindings.mpr hr)

theorem gateFinding_unresolved {r : FindingRow} (h : gateFinding orgId scan r = true) :
    r.state.unresolved = true := by
  unfold gateFinding at h
  exact (Bool.and_eq_true_iff.mp h).2

/-- The gates look at the identity columns and the state. -/
theorem gateFinding_congr {r r' : FindingRow} (hsame : SameFinding r r')
    (hstate : r'.state.unresolved = r.state.unresolved) :
    gateFinding orgId scan r' = gateFinding orgId scan r := by
  unfold gateFinding
  rw [hsame.orgId, hsame.assetId, hsame.scannerType, hstate]

/-- An event that leaves the state of an open row leaves an open finding. -/
theorem openFindings_rowAfter {e : PolicyDbEvent} (hopen : openFindings st orgId scan ≠ [])
    (hstate : ∀ r : FindingRow, r.state.unresolved = true → (rowAfter st r e).state = r.state) :
    openFindings (st.step e) orgId scan ≠ [] := by
  obtain ⟨r, hr, hgate⟩ := exists_openFindings_iff.mp hopen
  refine exists_openFindings_iff.mpr ⟨rowAfter st r e, rowAfter_mem hr e, ?_⟩
  have hsame := hstate r (gateFinding_unresolved hgate)
  rw [gateFinding_congr (rowAfter_sameFinding st r e) (congrArg FindingState.unresolved hsame)]
  exact hgate

/-- An update that gives rows one state leaves an open finding unless that state is not an
open one and it selects them all. -/
theorem openFindings_updateMany_iff (select : FindingRow → Bool)
    {data : FindingRow → FindingRow} (hdata : KeepsIdentity data)
    (htype : ∀ r, (data r).scannerType = r.scannerType) {state : FindingState}
    (hstate : ∀ r, (data r).state = state) (hopen : openFindings st orgId scan ≠ []) :
    openFindings { st with db := st.db.updateMany select data hdata } orgId scan ≠ [] ↔
      ¬ (state.unresolved = false ∧ ∀ r ∈ openFindings st orgId scan, select r = true) := by
  rw [exists_openFindings_iff]
  simp only [FindingsDb.mem_updateMany]
  constructor
  · rintro ⟨_, ⟨r, hr, rfl⟩, hgate⟩ ⟨hclosed, hall⟩
    by_cases hselected : select r = true
    · rw [if_pos hselected] at hgate
      have hunresolved := gateFinding_unresolved hgate
      rw [hstate r, hclosed] at hunresolved
      cases hunresolved
    · rw [if_neg hselected] at hgate
      exact hselected (hall r (mem_openFindings.mpr ⟨hr, hgate⟩))
  · intro hnot
    by_cases hunresolved : state.unresolved = true
    · -- any open finding stays one, selected or not
      obtain ⟨r, hr, hgate⟩ := exists_openFindings_iff.mp hopen
      refine ⟨_, ⟨r, hr, rfl⟩, ?_⟩
      split
      · have hsame : SameFinding r (data r) :=
          ⟨(hdata r).1, (hdata r).2.1, (hdata r).2.2.2, htype r, (hdata r).2.2.1⟩
        have hstates : (data r).state.unresolved = r.state.unresolved := by
          rw [hstate r, hunresolved, gateFinding_unresolved hgate]
        rw [gateFinding_congr hsame hstates]
        exact hgate
      · exact hgate
    · -- some open finding is not selected
      have hnotall : ¬ ∀ r ∈ openFindings st orgId scan, select r = true :=
        fun hall => hnot ⟨Bool.not_eq_true _ ▸ hunresolved, hall⟩
      push Not at hnotall
      obtain ⟨r, hr, hselected⟩ := hnotall
      obtain ⟨hmem, hgate⟩ := mem_openFindings.mp hr
      refine ⟨_, ⟨r, hmem, rfl⟩, ?_⟩
      rw [if_neg hselected]
      exact hgate

/-- From a state with open findings, a step leaves some precisely when it does not close
them all. -/
theorem openFindings_step_iff (hopen : openFindings st orgId scan ≠ []) (e : PolicyDbEvent) :
    openFindings (st.step e) orgId scan ≠ [] ↔ ¬ ClosesAll orgId scan st e := by
  cases e with
  | close orgId' payload fingerprints seenAt =>
      have hiff := openFindings_updateMany_iff
        (unreported orgId' payload.assetId payload.scannerType fingerprints)
        (autoResolved_keepsIdentity seenAt) (fun r => rfl) (fun r => rfl) hopen
      refine hiff.trans (not_congr ?_)
      exact and_iff_right rfl
  | triage orgId' findingId state now =>
      exact openFindings_updateMany_iff (isFinding orgId' findingId)
        (triagedRow_keepsIdentity state now) (fun r => rfl) (fun r => rfl) hopen
  | upsert orgId' payload row seenAt id =>
      -- an ingest reopens resolved rows and keeps the state of others
      refine iff_of_true (openFindings_rowAfter hopen ?_) (fun h => h)
      intro r hunresolved
      unfold rowAfter
      simp only
      split
      · exact if_neg (unresolved_ne_resolved hunresolved)
      · rfl
  | rescore orgId' findingId riskScore =>
      refine iff_of_true (openFindings_rowAfter hopen ?_) (fun h => h)
      intro r _
      unfold rowAfter
      simp only
      split <;> rfl
  | evaluate orgId' findingId now =>
      refine iff_of_true (openFindings_rowAfter hopen ?_) (fun h => h)
      intro r _
      unfold rowAfter
      simp only
      split
      · rfl
      · rfl
      · split <;> rfl
  | claim orgId' findingId now =>
      refine iff_of_true (openFindings_rowAfter hopen ?_) (fun h => h)
      intro r _
      unfold rowAfter
      simp only
      split <;> rfl
  | setPolicies policies => exact iff_of_true hopen (fun h => h)
  | setExceptions exceptions => exact iff_of_true hopen (fun h => h)

end Step

/-- **Gates that answer.**  Whatever the findings are when the scan has ended, and whatever
triages, ingests and changes of policies and exceptions follow: both gates answer in every
state precisely when the jobs have reported no findings, or the scan's assets have an open
finding to begin with and no step closes all that are open. -/
theorem gates_answer_iff {scan : ScanConclusionRow} (hterminal : scan.status.terminal = true)
    (orgId : OrgId) (st : PolicyDb) (es : List PolicyDbEvent) :
    (∀ st' ∈ policyDbSystem.states st es, GatesAnswer orgId scan st') ↔
      scan.expectedFindingCount = 0 ∨ (openFindings st orgId scan ≠ [] ∧
        policyDbSystem.AllSteps (fun st e => ¬ ClosesAll orgId scan st e) st es) := by
  simp only [gatesAnswer_iff hterminal]
  by_cases hexpected : scan.expectedFindingCount = 0
  · simp [hexpected]
  · simp only [hexpected, false_or]
    have hiff : openFindings st orgId scan ≠ [] →
        ((∀ st' ∈ policyDbSystem.states st es, openFindings st' orgId scan ≠ []) ↔
          policyDbSystem.AllSteps (fun st e => ¬ ClosesAll orgId scan st e) st es) := by
      intro hopen
      refine policyDbSystem.forall_states_iff_allSteps (I := fun _ => True)
        (Q := fun st' => openFindings st' orgId scan ≠ []) (fun _ _ _ _ => trivial) ?_ trivial
        hopen (policyDbSystem.legal_of_forall_allowed (fun _ _ => trivial) st es)
      intro st' e _ hopen' _
      exact openFindings_step_iff hopen' e
    constructor
    · intro hall
      have hopen := hall st (policyDbSystem.mem_states_self st es)
      exact ⟨hopen, (hiff hopen).mp hall⟩
    · rintro ⟨hopen, hsteps⟩
      exact (hiff hopen).mpr hsteps

/-- The finding is reported, and triaged as one that is being worked on. -/
theorem gates_answer_triaged :
    GatesAnswer apiAsset.orgId apiScan (policyDbSystem.run (apiState .critical)
      [.triage apiAsset.orgId (apiFinding .critical).id .inProgress 1, .setExceptions []]) := by
  refine (gates_answer_iff (show apiScan.status.terminal = true from rfl) apiAsset.orgId
    (apiState .critical)
    [.triage apiAsset.orgId (apiFinding .critical).id .inProgress 1, .setExceptions []]).mpr ?_ _
    (policyDbSystem.run_mem_states _ _)
  refine Or.inr ⟨by decide, ?_, ?_, trivial⟩
  · intro hcloses
    exact absurd hcloses.1 (by decide)
  · exact fun hcloses => hcloses

/-- The only finding of an ended scan is ingested and its risk accepted: the gates of the
scan are pending, and stay so until somebody reports or opens a finding of the asset. -/
theorem accepted_risk_pending :
    ¬ ∀ (platform : Platform) (orgId : OrgId) (payload : FindingsReportedPayload)
        (seenAt : Timestamp) (st : PolicyDb) (db : FindingsDb) (scan : ScanConclusionRow)
        (es : List PolicyDbEvent), scan.status.terminal = true →
      scan.scannerType = payload.scannerType →
      scan.jobs = [(payload.assetId, some payload.findings.length)] →
      Ingested platform orgId payload seenAt st.db db →
        ∀ st' ∈ policyDbSystem.states { st with db := db } es, GatesAnswer orgId scan st' := by
  intro hall
  let finding : RawFinding :=
    { externalId := "GHSA-1111-2222-3333", scannerType := .sca, scannerName := "ctem-sca"
      title := "GHSA-1111-2222-3333 in left-pad@1.0.0", severity := .critical }
  let payload : FindingsReportedPayload := ⟨"s", "j", apiAsset.id, .sca, none, [finding]⟩
  let db₀ : FindingsDb := .ofAssets ⟨[apiAsset], List.nodup_singleton _⟩
  let ingest := IngestRun.advanceAll db₀ (.start ⟨id, id⟩ apiAsset.orgId payload 0) ["f", ""]
  let st : PolicyDb := ⟨ingest.1, [failOnHigh], []⟩
  let es : List PolicyDbEvent := [.triage apiAsset.orgId "f" .riskAccepted 1]
  have hingested : Ingested ⟨id, id⟩ apiAsset.orgId payload 0 db₀ ingest.1 :=
    ⟨["f", ""], ingest.2, rfl, by decide +kernel⟩
  have hanswer := hall ⟨id, id⟩ apiAsset.orgId payload 0 ⟨db₀, [failOnHigh], []⟩ ingest.1 apiScan es
    rfl rfl rfl hingested _ (policyDbSystem.run_mem_states st es)
  have hclosed :
      (openFindings (policyDbSystem.run st es) apiAsset.orgId apiScan).isEmpty = true := by
    decide +kernel
  rcases (gatesAnswer_iff rfl).mp hanswer with hnone | hopen
  · exact absurd hnone (by decide)
  · exact hopen (List.isEmpty_iff.mp hclosed)

end Orchestrator
end Ctem
