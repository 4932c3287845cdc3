import Mathlib.Data.Prod.Lex
import Ctem.Orchestrator.ScanGates

/-!
# The gates and the order of rows

The queries of `loadScanPolicyMatchInput` order policies by priority and nothing else, so
that policies of one priority come in any order.  A finding is decided by the first policy
that matches it, which is any of those of the lowest priority that do.

* `Reordered` relates two databases with the same rows in different orders.
* `carries_favouring`: some order puts those with an action first wherever there is one,
  for all findings at once, and some order puts them last.
* `gates_order_independent_iff` says when the gates do not depend on the order.
-/

namespace Ctem
namespace Orchestrator

open Foundation Contracts Findings Policy

/-- The same rows, in the orders in which the database may return them. -/
structure Reordered (st st' : PolicyDb) : Prop where
  assets : st'.db.assets = st.db.assets
  findings : st'.db.findings.rows.Perm st.db.findings.rows
  policies : st'.policies.Perm st.policies
  exceptions : st'.exceptions.Perm st.exceptions

/-- The policy matches the finding, and no enabled one of a lower priority does. -/
structure LowestMatch (policies : List PolicyMatchRule) (finding : PolicyMatchFinding)
    (policy : PolicyMatchRule) : Prop where
  mem : policy ∈ policies
  enabled : policy.enabled = true
  matching : matchesPolicyCondition policy.condition finding = true
  lowest : ∀ other ∈ policies, other.enabled = true →
    matchesPolicyCondition other.condition finding = true → policy.priority ≤ other.priority

/-- The gate for the action does not depend on which of several policies of one priority
comes first: it is pending, or a finding that is not suppressed has the action on all its
lowest matching policies, or none has it on any. -/
def GateSettled (input : ConcludePolicyInput) (action : PolicyAction) : Prop :=
  gatePending input = true ∨
    (∃ finding ∈ input.findings, finding.id ∉ input.suppressedFindingIds ∧
      (∃ policy, LowestMatch input.policies finding policy) ∧
        ∀ policy, LowestMatch input.policies finding policy → action ∈ policy.actions) ∨
      ∀ finding ∈ input.findings, finding.id ∉ input.suppressedFindingIds →
        ∀ policy, LowestMatch input.policies finding policy → action ∉ policy.actions

/-! ## The first match in a sorted list -/

/-- In a sorted list nothing that satisfies the test comes before the first that does. -/
theorem rel_of_find?_eq_some {α : Type} {r : α → α → Prop} {p : α → Bool} {l : List α}
    (hsorted : l.Pairwise r) {a b : α} (hfind : l.find? p = some a) (hb : b ∈ l)
    (hp : p b = true) (hrefl : r b b) : r a b := by
  obtain ⟨-, before, rest, rfl, hbefore⟩ := List.find?_eq_some_iff_append.mp hfind
  rw [List.pairwise_append] at hsorted
  rcases List.mem_append.mp hb with hb | hb
  · have hnot := hbefore b hb
    rw [hp] at hnot
    cases hnot
  · rcases List.mem_cons.mp hb with rfl | hb
    · exact hrefl
    · exact List.rel_of_pairwise_cons hsorted.2.1 hb

section FirstMatch

variable {policies : List PolicyMatchRule} {finding : PolicyMatchFinding}
  {policy : PolicyMatchRule} {action : PolicyAction}

theorem mem_gatePolicies : policy ∈ gatePolicies policies ↔
    policy ∈ policies ∧ policy.enabled = true := by
  unfold gatePolicies
  rw [List.mem_insertionSort, List.mem_filter]

theorem gatePolicies_sorted (policies : List PolicyMatchRule) :
    (gatePolicies policies).Pairwise fun a b => a.priority ≤ b.priority :=
  List.pairwise_insertionSort (fun a b : PolicyMatchRule => a.priority ≤ b.priority) _

/-- The policy that decides a finding is a lowest one that matches. -/
theorem firstMatch_lowest (hfirst : firstMatch (gatePolicies policies) finding = some policy) :
    LowestMatch policies finding policy := by
  unfold firstMatch at hfirst
  have hmem := mem_gatePolicies.mp (List.mem_of_find?_eq_some hfirst)
  have hmatches := List.find?_some hfirst
  refine ⟨hmem.1, hmem.2, hmatches, ?_⟩
  intro other hother henabled hother'
  exact rel_of_find?_eq_some (gatePolicies_sorted policies) hfirst
    (mem_gatePolicies.mpr ⟨hother, henabled⟩) hother' (Int.le_refl other.priority)

/-- Where there is a lowest match there is a first one. -/
theorem LowestMatch.firstMatch (h : LowestMatch policies finding policy) :
    ∃ first, Policy.firstMatch (gatePolicies policies) finding = some first := by
  rw [← Option.isSome_iff_exists]
  unfold Policy.firstMatch
  rw [List.find?_isSome]
  exact ⟨policy, mem_gatePolicies.mpr ⟨h.mem, h.enabled⟩, h.matching⟩

theorem carries_iff : carries policies action finding = true ↔
    ∃ policy, firstMatch policies finding = some policy ∧ action ∈ policy.actions := by
  unfold carries
  cases hfirst : firstMatch policies finding with
  | none => simp
  | some policy => simp

/-- What all lowest matches carry is carried, in any order. -/
theorem carries_of_all_lowest (hexists : ∃ policy, LowestMatch policies finding policy)
    (hall : ∀ policy, LowestMatch policies finding policy → action ∈ policy.actions) :
    carries (gatePolicies policies) action finding = true := by
  obtain ⟨policy, hlowest⟩ := hexists
  obtain ⟨first, hfirst⟩ := hlowest.firstMatch
  exact carries_iff.mpr ⟨first, hfirst, hall first (firstMatch_lowest hfirst)⟩

/-- What is carried is carried by some lowest match. -/
theorem exists_lowest_of_carries
    (hcarries : carries (gatePolicies policies) action finding = true) :
    ∃ policy, LowestMatch policies finding policy ∧ action ∈ policy.actions := by
  obtain ⟨policy, hfirst, haction⟩ := carries_iff.mp hcarries
  exact ⟨policy, firstMatch_lowest hfirst, haction⟩

/-- Which policies are lowest matches does not depend on the order. -/
theorem LowestMatch.perm {policies' : List PolicyMatchRule} (hperm : policies'.Perm policies)
    (h : LowestMatch policies finding policy) : LowestMatch policies' finding policy where
  mem := hperm.mem_iff.mpr h.mem
  enabled := h.enabled
  matching := h.matching
  lowest := fun other hother => h.lowest other (hperm.mem_iff.mp hother)

end FirstMatch

/-! ## What is loaded from the same rows -/

section Loaded

variable {st st' : PolicyDb} (orgId : OrgId) (now : Timestamp) (scan : ScanConclusionRow)

theorem Reordered.openFindings (h : Reordered st st') :
    (openFindings st' orgId scan).Perm (openFindings st orgId scan) :=
  h.findings.filter _

theorem Reordered.joinAsset (h : Reordered st st') : joinAsset st' = joinAsset st := by
  funext r
  unfold Orchestrator.joinAsset FindingsDb.assetOf
  rw [h.assets]

theorem Reordered.findings_perm (h : Reordered st st') :
    (loadScanPolicyMatchInput st' orgId now scan).findings.Perm
      (loadScanPolicyMatchInput st orgId now scan).findings := by
  change (List.filterMap (Orchestrator.joinAsset st') _).Perm _
  rw [h.joinAsset]
  exact (h.openFindings orgId scan).filterMap _

theorem Reordered.policies_perm (h : Reordered st st') :
    (loadScanPolicyMatchInput st' orgId now scan).policies.Perm
      (loadScanPolicyMatchInput st orgId now scan).policies := by
  refine List.Perm.map matchRule ?_
  exact (List.perm_insertionSort _ _).trans
    ((h.policies.filter _).trans (List.perm_insertionSort _ _).symm)

theorem Reordered.gateException (h : Reordered st st') :
    gateException st' orgId now scan = gateException st orgId now scan := by
  funext e
  have hids :
      (decide (e.targetRef ∈ (Orchestrator.openFindings st' orgId scan).map FindingRow.id)) =
      decide (e.targetRef ∈ (Orchestrator.openFindings st orgId scan).map FindingRow.id) := by
    rw [decide_eq_decide]
    exact ((h.openFindings orgId scan).map _).mem_iff
  unfold Orchestrator.gateException
  rw [hids]

theorem Reordered.mem_suppressedFindingIds (h : Reordered st st') {id : Uuid} :
    id ∈ suppressedFindingIds st' orgId now scan ↔ id ∈ suppressedFindingIds st orgId now scan := by
  have hexceptions : (st'.exceptions.filter (Orchestrator.gateException st' orgId now scan)).Perm
      (st.exceptions.filter (Orchestrator.gateException st orgId now scan)) := by
    rw [h.gateException]
    exact h.exceptions.filter _
  have hglobal : ((st'.exceptions.filter (Orchestrator.gateException st' orgId now scan)).any
      fun e => decide (e.scope = .global)) =
      (st.exceptions.filter (Orchestrator.gateException st orgId now scan)).any
        fun e => decide (e.scope = .global) := hexceptions.any_eq
  unfold suppressedFindingIds
  simp only [hglobal]
  split
  · exact ((h.openFindings orgId scan).map _).mem_iff
  · exact (hexceptions.map _).mem_iff

theorem Reordered.gatePending (h : Reordered st st') :
    gatePending (loadScanPolicyMatchInput st' orgId now scan) =
      gatePending (loadScanPolicyMatchInput st orgId now scan) := by
  have hempty : (loadScanPolicyMatchInput st' orgId now scan).findings.isEmpty =
      (loadScanPolicyMatchInput st orgId now scan).findings.isEmpty := by
    rw [Bool.eq_iff_iff, List.isEmpty_iff, List.isEmpty_iff]
    have hperm := h.findings_perm orgId now scan
    constructor
    · intro hnil
      rw [hnil] at hperm
      exact List.nil_perm.mp hperm
    · intro hnil
      rw [hnil] at hperm
      exact List.perm_nil.mp hperm
  unfold Policy.gatePending
  rw [hempty]
  rfl

end Loaded

/-! ## An order for every choice -/

/-- The policies by priority, those that satisfy the test first where priorities are equal. -/
def favouring (test : PolicyRow → Bool) (policies : List PolicyRow) : List PolicyRow :=
  policies.insertionSort fun a b =>
    toLex (a.priority, if test a then 0 else 1) ≤ toLex (b.priority, if test b then 0 else 1)

section Favouring

variable (test : PolicyRow → Bool) (st : PolicyDb) (orgId : OrgId)

theorem favouring_sorted (policies : List PolicyRow) :
    (favouring test policies).Pairwise fun a b =>
      toLex (a.priority, if test a then 0 else 1) ≤ toLex (b.priority, if test b then 0 else 1) :=
  List.pairwise_insertionSort
    (fun a b : PolicyRow =>
      toLex (a.priority, if test a then 0 else 1) ≤ toLex (b.priority, if test b then 0 else 1)) _

/-- The database with its policies in that order. -/
def favour : PolicyDb := { st with policies := favouring test st.policies }

theorem reordered_favour : Reordered st (favour test st) :=
  ⟨rfl, List.Perm.refl _, List.perm_insertionSort _ _, List.Perm.refl _⟩

/-- The query leaves that order as it is. -/
theorem enabledPolicies_favour :
    (favour test st).enabledPolicies orgId =
      (favouring test st.policies).filter fun p => decide (p.orgId = orgId) && p.enabled := by
  refine List.Pairwise.insertionSort_eq ?_
  refine ((favouring_sorted test st.policies).filter _).imp ?_
  intro a b hle
  rcases Prod.Lex.toLex_le_toLex.mp hle with hlt | ⟨heq, -⟩
  · exact Int.le_of_lt hlt
  · exact Int.le_of_eq heq

/-- Where some lowest match satisfies the test, the first match does. -/
theorem firstMatch_favour {now : Timestamp} {scan : ScanConclusionRow}
    {finding : PolicyMatchFinding} {p : PolicyRow} (hp : p ∈ st.enabledPolicies orgId)
    (hlowest : LowestMatch (loadScanPolicyMatchInput st orgId now scan).policies finding
      (matchRule p)) (htest : test p = true) :
    ∃ first, test first = true ∧
      firstMatch (gatePolicies (loadScanPolicyMatchInput (favour test st) orgId now scan).policies)
        finding = some (matchRule first) := by
  have hsorted : ((favour test st).enabledPolicies orgId).Pairwise fun a b =>
      toLex (a.priority, if test a then 0 else 1) ≤
        toLex (b.priority, if test b then 0 else 1) := by
    rw [enabledPolicies_favour]
    exact (favouring_sorted test st.policies).filter _
  have hperm : ((favour test st).enabledPolicies orgId).Perm (st.enabledPolicies orgId) :=
    (List.perm_insertionSort _ _).trans
      (((reordered_favour test st).policies.filter _).trans (List.perm_insertionSort _ _).symm)
  have hp' : p ∈ (favour test st).enabledPolicies orgId := hperm.mem_iff.mpr hp
  rw [gatePolicies_loaded]
  change ∃ first, test first = true ∧
    firstMatch (((favour test st).enabledPolicies orgId).map matchRule) finding =
      some (matchRule first)
  rw [firstMatch_map_matchRule]
  cases hfind : ((favour test st).enabledPolicies orgId).find? fun p =>
      matchesPolicyCondition p.condition finding with
  | none =>
      have hnone := List.find?_eq_none.mp hfind p hp'
      exact absurd hlowest.matching hnone
  | some first =>
      refine ⟨first, ?_, rfl⟩
      -- `first` has the priority of `p` and comes no later
      have hle := rel_of_find?_eq_some hsorted hfind hp' hlowest.matching (le_refl _)
      have hmem : first ∈ st.enabledPolicies orgId :=
        hperm.mem_iff.mp (List.mem_of_find?_eq_some hfind)
      have henabled : first.enabled = true := by
        have hfilter := (List.mem_filter.mp ((List.mem_insertionSort _).mp hmem)).2
        rw [Bool.and_eq_true] at hfilter
        exact hfilter.2
      have hmatches := List.find?_some hfind
      have hpriority : p.priority ≤ first.priority :=
        hlowest.lowest (matchRule first) (List.mem_map_of_mem hmem) henabled hmatches
      rcases Prod.Lex.toLex_le_toLex.mp hle with hlt | ⟨-, hcost⟩
      · exact absurd hlt (Int.not_lt.mpr hpriority)
      · rw [htest] at hcost
        cases hfirst : test first with
        | true => rfl
        | false =>
            simp only [hfirst, if_true] at hcost
            exact absurd hcost (by decide)

end Favouring

/-! ## The gates -/

section Gates

variable {st : PolicyDb} {orgId : OrgId} {now : Timestamp} {scan : ScanConclusionRow}
  {action : PolicyAction} {γ : Type} {pending matched unmatched : γ}

/-- A gate that answers and is not `matched` is `unmatched`. -/
theorem concludeByAction_unmatched {input : ConcludePolicyInput}
    (hpending : Policy.gatePending input = false)
    (hnot : concludeByAction input action pending matched unmatched ≠ matched) :
    concludeByAction input action pending matched unmatched = unmatched := by
  unfold concludeByAction at hnot ⊢
  rw [hpending] at hnot ⊢
  simp only [Bool.false_eq_true, if_false] at hnot ⊢
  split at hnot
  · exact absurd rfl hnot
  · rename_i hany
    rw [if_neg hany]

/-- A settled gate is the same in every order. -/
theorem GateSettled.concludeByAction_eq
    (hsettled : GateSettled (loadScanPolicyMatchInput st orgId now scan) action)
    (hne : unmatched ≠ matched) {st' : PolicyDb} (h : Reordered st st') :
    concludeByAction (loadScanPolicyMatchInput st' orgId now scan) action pending matched
        unmatched =
      concludeByAction (loadScanPolicyMatchInput st orgId now scan) action pending matched
        unmatched := by
  cases hpending : gatePending (loadScanPolicyMatchInput st orgId now scan) with
  | true =>
      have hpending' := h.gatePending orgId now scan
      rw [hpending] at hpending'
      unfold concludeByAction
      rw [hpending, hpending', if_pos rfl, if_pos rfl]
  | false =>
      have hpending' := h.gatePending orgId now scan
      rw [hpending] at hpending'
      -- in either order the gate is matched, or in neither
      suffices hboth : (concludeByAction (loadScanPolicyMatchInput st' orgId now scan) action
          pending matched unmatched = matched) ↔
          (concludeByAction (loadScanPolicyMatchInput st orgId now scan) action pending matched
            unmatched = matched) by
        by_cases hmatched : concludeByAction (loadScanPolicyMatchInput st orgId now scan) action
            pending matched unmatched = matched
        · rw [hmatched]
          exact hboth.mpr hmatched
        · have hmatched' := fun heq => hmatched (hboth.mp heq)
          rw [concludeByAction_unmatched hpending hmatched,
            concludeByAction_unmatched hpending' hmatched']
      rw [concludeByAction_matched_iff hpending hne, concludeByAction_matched_iff hpending' hne]
      rcases hsettled with htrue | ⟨finding, hfinding, hnot, hexists, hall⟩ | hnone
      · rw [hpending] at htrue
        cases htrue
      · refine iff_of_true ⟨finding, (h.findings_perm orgId now scan).mem_iff.mpr hfinding, ?_, ?_⟩
          ⟨finding, hfinding, hnot, carries_of_all_lowest hexists hall⟩
        · exact fun hmem => hnot ((h.mem_suppressedFindingIds orgId now scan).mp hmem)
        · have hperm := h.policies_perm orgId now scan
          obtain ⟨policy, hlowest⟩ := hexists
          exact carries_of_all_lowest ⟨policy, hlowest.perm hperm⟩
            (fun other hother => hall other (hother.perm hperm.symm))
      · refine iff_of_false ?_ ?_
        · rintro ⟨finding, hfinding, hnot, hcarries⟩
          obtain ⟨policy, hlowest, haction⟩ := exists_lowest_of_carries hcarries
          exact hnone finding ((h.findings_perm orgId now scan).mem_iff.mp hfinding)
            (fun hmem => hnot ((h.mem_suppressedFindingIds orgId now scan).mpr hmem)) policy
            (hlowest.perm (h.policies_perm orgId now scan).symm) haction
        · rintro ⟨finding, hfinding, hnot, hcarries⟩
          obtain ⟨policy, hlowest, haction⟩ := exists_lowest_of_carries hcarries
          exact hnone finding hfinding hnot policy hlowest haction

/-- A gate that is the same in every order is settled. -/
theorem gateSettled_of_forall_reordered (hne : unmatched ≠ matched)
    (hsame : ∀ st', Reordered st st' →
      concludeByAction (loadScanPolicyMatchInput st' orgId now scan) action pending matched
          unmatched =
        concludeByAction (loadScanPolicyMatchInput st orgId now scan) action pending matched
          unmatched) :
    GateSettled (loadScanPolicyMatchInput st orgId now scan) action := by
  by_contra hunsettled
  unfold GateSettled at hunsettled
  push Not at hunsettled
  obtain ⟨hpending, hsome, finding₀, hfinding₀, hnot₀, policy₀, hlowest₀, haction₀⟩ := hunsettled
  have hpending' : ∀ test, gatePending (loadScanPolicyMatchInput (favour test st) orgId now scan) =
      false := by
    intro test
    rw [(reordered_favour test st).gatePending]
    exact Bool.not_eq_true _ ▸ hpending
  -- with the action first where there is a choice, `finding₀` has it
  have hmatched : concludeByAction (loadScanPolicyMatchInput
      (favour (fun p => decide (action ∈ p.actions)) st) orgId now scan) action pending matched
        unmatched = matched := by
    rw [concludeByAction_matched_iff (hpending' _) hne]
    obtain ⟨p, hp, rfl⟩ := List.mem_map.mp hlowest₀.mem
    obtain ⟨first, htest, hfirst⟩ := firstMatch_favour
      (fun p => decide (action ∈ p.actions)) st orgId hp hlowest₀ (decide_eq_true haction₀)
    have hreordered := reordered_favour (fun p => decide (action ∈ p.actions)) st
    refine ⟨finding₀, (hreordered.findings_perm orgId now scan).mem_iff.mpr hfinding₀, ?_, ?_⟩
    · exact fun hmem => hnot₀ ((hreordered.mem_suppressedFindingIds orgId now scan).mp hmem)
    · exact carries_iff.mpr ⟨matchRule first, hfirst, of_decide_eq_true htest⟩
  -- with the action last, no finding has it
  have hunmatched : concludeByAction (loadScanPolicyMatchInput
      (favour (fun p => !decide (action ∈ p.actions)) st) orgId now scan) action pending matched
        unmatched ≠ matched := by
    intro heq
    rw [concludeByAction_matched_iff (hpending' _) hne] at heq
    obtain ⟨finding, hfinding, hnot, hcarries⟩ := heq
    have hreordered := reordered_favour (fun p => !decide (action ∈ p.actions)) st
    have hfinding' := (hreordered.findings_perm orgId now scan).mem_iff.mp hfinding
    have hnot' : finding.id ∉ (loadScanPolicyMatchInput st orgId now scan).suppressedFindingIds :=
      fun hmem => hnot ((hreordered.mem_suppressedFindingIds orgId now scan).mpr hmem)
    obtain ⟨policy, hlowest, -⟩ := exists_lowest_of_carries hcarries
    obtain ⟨other, hother, hwithout⟩ := hsome finding hfinding' hnot' ⟨policy,
      hlowest.perm (hreordered.policies_perm orgId now scan).symm⟩
    obtain ⟨p, hp, rfl⟩ := List.mem_map.mp hother.mem
    have hwithout' : action ∉ p.actions := hwithout
    obtain ⟨first, htest, hfirst⟩ := firstMatch_favour
      (fun p => !decide (action ∈ p.actions)) st orgId hp hother (by simpa using hwithout')
    obtain ⟨policy', hfirst', haction⟩ := carries_iff.mp hcarries
    rw [hfirst] at hfirst'
    obtain rfl := Option.some.inj hfirst'
    simp only [Bool.not_eq_true', decide_eq_false_iff_not] at htest
    exact htest haction
  rw [hsame _ (reordered_favour _ st)] at hmatched hunmatched
  exact hunmatched hmatched

end Gates

/-- **Row order.**  The conclusions computed from the loaded rows are the same for every
order in which the database may return them precisely when, for either action, the gate is
pending, or some finding that is not suppressed has the action on all its matching policies
of the lowest priority, or none has it on any. -/
theorem gates_order_independent_iff (st : PolicyDb) (orgId : OrgId) (now : Timestamp)
    (scan : ScanConclusionRow) :
    (∀ st', Reordered st st' →
        concludeScan (loadScanPolicyMatchInput st' orgId now scan) =
            concludeScan (loadScanPolicyMatchInput st orgId now scan) ∧
          concludeDeploy (loadScanPolicyMatchInput st' orgId now scan) =
            concludeDeploy (loadScanPolicyMatchInput st orgId now scan)) ↔
      GateSettled (loadScanPolicyMatchInput st orgId now scan) .failBuild ∧
        GateSettled (loadScanPolicyMatchInput st orgId now scan) .blockDeploy := by
  constructor
  · intro hsame
    have hscan : ScanConclusion.passed ≠ .failed := by decide
    have hdeploy : ScanDeployConclusion.allowed ≠ .blocked := by decide
    exact ⟨gateSettled_of_forall_reordered hscan (fun st' h => (hsame st' h).1),
      gateSettled_of_forall_reordered hdeploy (fun st' h => (hsame st' h).2)⟩
  · rintro ⟨hscan, hdeploy⟩ st' h
    exact ⟨hscan.concludeByAction_eq (by decide) h, hdeploy.concludeByAction_eq (by decide) h⟩

/-- A policy of the default priority that only notifies. -/
def notifyOnHigh : PolicyRow :=
  { failOnHigh with
    id := "6f1c0b7e-0000-4000-8000-0000000000d2"
    name := "notify about high findings"
    actions := [.notify] }

/-- Two policies of the default priority match the only finding: which of them comes first
decides whether the build fails. -/
theorem tied_policies_disagree :
    ¬ ∀ (st st' : PolicyDb) (orgId : OrgId) (now : Timestamp) (scan : ScanConclusionRow),
      Reordered st st' →
        concludeScan (loadScanPolicyMatchInput st' orgId now scan) =
            concludeScan (loadScanPolicyMatchInput st orgId now scan) ∧
          concludeDeploy (loadScanPolicyMatchInput st' orgId now scan) =
            concludeDeploy (loadScanPolicyMatchInput st orgId now scan) := by
  intro hall
  let st : PolicyDb := ⟨apiFindings .critical, [failOnHigh, notifyOnHigh], []⟩
  let st' : PolicyDb := ⟨apiFindings .critical, [notifyOnHigh, failOnHigh], []⟩
  have hreordered : Reordered st st' :=
    ⟨rfl, List.Perm.refl _, List.Perm.swap _ _ _, List.Perm.refl _⟩
  have hsame := (hall st st' apiAsset.orgId 0 apiScan hreordered).1
  have hfailed : concludeScan (loadScanPolicyMatchInput st apiAsset.orgId 0 apiScan) = .failed := by
    decide
  have hpassed :
      concludeScan (loadScanPolicyMatchInput st' apiAsset.orgId 0 apiScan) = .passed := by
    decide
  rw [hfailed, hpassed] at hsame
  cases hsame

end Orchestrator
end Ctem
