import Mathlib.Data.List.Sort
import Ctem.Contracts

/-!
# Policy conditions and the scan gates

`matchesPolicyCondition` is shared by the gates and by the policy engine.
`concludeByAction` is the loop of both gates: findings in order, policies by
priority, the first matching policy of a finding decides what that finding does.

A gate on a finding that is not suppressed looks only at `firstMatch`; so
`concludeByAction_matched_iff` needs nothing about the order of the findings.
-/

namespace Ctem
namespace Policy

open Foundation Contracts

inductive PolicyAction where
  | notify | ticket | failBuild | blockDeploy | ignore
deriving DecidableEq, Repr

/-- The condition of a policy; a missing member does not restrict. -/
structure PolicyCondition where
  severityAtLeast : Option Severity := none
  minRiskScore : Option Rat := none
  kevOnly : Option Bool := none
  minEpss : Option Rat := none
  requireFixAvailable : Option Bool := none
  scannerTypes : Option (List String) := none
  assetKinds : Option (List String) := none
  assetTags : Option (List (String × String)) := none
  exposure : Option (List String) := none
  criticality : Option (List String) := none

/-- The columns of an asset a condition can ask about. -/
structure MatchAsset where
  kind : String
  exposure : String
  criticality : String
  tags : JsonObject

/-- The columns of a finding a condition can ask about. -/
structure PolicyMatchFinding where
  id : Uuid
  severity : Severity
  riskScore : Rat
  kev : Bool
  epssScore : Option Rat
  fixAvailable : Bool
  scannerType : ScannerType
  asset : MatchAsset

/-- A policy as the gates read it. -/
structure PolicyMatchRule where
  enabled : Bool := true
  priority : Int
  condition : PolicyCondition
  actions : List PolicyAction

/-- `list?.length && !list.includes(value)` refuses; an empty list does not
restrict. -/
def admits (allowed : Option (List String)) (value : String) : Bool :=
  match allowed with
  | none => true
  | some [] => true
  | some list => decide (value ∈ list)

/-- `bound !== undefined && value < bound` refuses. -/
def atLeast (bound : Option Rat) (value : Rat) : Bool :=
  match bound with
  | none => true
  | some b => !decide (value < b)

/-- `flag && !value` refuses. -/
def requires (flag : Option Bool) (value : Bool) : Bool :=
  !(flag.getD false && !value)

/-- Every wanted tag is on the asset, as that string. -/
def hasTags (tags : JsonObject) (wanted : Option (List (String × String))) : Bool :=
  (wanted.getD []).all fun (k, v) => decide ((tags.get? k).bind Json.str? = some v)

/-- `matchesPolicyCondition`. -/
def matchesPolicyCondition (condition : PolicyCondition) (finding : PolicyMatchFinding) : Bool :=
  (match condition.severityAtLeast with
    | none => true
    | some severity => !decide (severityOrder finding.severity < severityOrder severity)) &&
  atLeast condition.minRiskScore finding.riskScore &&
  requires condition.kevOnly finding.kev &&
  atLeast condition.minEpss (finding.epssScore.getD 0) &&
  requires condition.requireFixAvailable finding.fixAvailable &&
  admits condition.scannerTypes finding.scannerType.name &&
  admits condition.assetKinds finding.asset.kind &&
  admits condition.exposure finding.asset.exposure &&
  admits condition.criticality finding.asset.criticality &&
  hasTags finding.asset.tags condition.assetTags

/-! ## The gates -/

inductive ScanConclusion where
  | pending | passed | failed
deriving DecidableEq, Repr

inductive ScanDeployConclusion where
  | pending | allowed | blocked
deriving DecidableEq, Repr

/-- What a gate is computed from. -/
structure ConcludePolicyInput where
  status : ScanStatus
  findings : List PolicyMatchFinding
  policies : List PolicyMatchRule
  suppressedFindingIds : List Uuid := []
  expectedFindingCount : Nat := 0

/-- The policies a gate walks: enabled ones, by priority, ties in the order given. -/
def gatePolicies (policies : List PolicyMatchRule) : List PolicyMatchRule :=
  (policies.filter fun policy => policy.enabled).insertionSort fun a b => a.priority ≤ b.priority

/-- The first policy of the list whose condition the finding meets. -/
def firstMatch (policies : List PolicyMatchRule) (finding : PolicyMatchFinding) :
    Option PolicyMatchRule :=
  policies.find? fun policy => matchesPolicyCondition policy.condition finding

/-- The finding's first matching policy carries the action. -/
def carries (policies : List PolicyMatchRule) (action : PolicyAction)
    (finding : PolicyMatchFinding) : Bool :=
  match firstMatch policies finding with
  | none => false
  | some policy => decide (action ∈ policy.actions)

/-- The scan has not ended, or findings are expected and none is there. -/
def gatePending (input : ConcludePolicyInput) : Bool :=
  !input.status.terminal || (decide (0 < input.expectedFindingCount) && input.findings.isEmpty)

/-- The loop of both gates. -/
def concludeByAction {γ : Type} (input : ConcludePolicyInput) (action : PolicyAction)
    (pending matched unmatched : γ) : γ :=
  if gatePending input then pending
  else if input.findings.any (fun finding =>
      !decide (finding.id ∈ input.suppressedFindingIds) &&
        carries (gatePolicies input.policies) action finding) then matched
  else unmatched

/-- `concludeScan`: looks only for `fail_build`. -/
def concludeScan (input : ConcludePolicyInput) : ScanConclusion :=
  concludeByAction input .failBuild .pending .failed .passed

/-- `concludeDeploy`: looks only for `block_deploy`. -/
def concludeDeploy (input : ConcludePolicyInput) : ScanDeployConclusion :=
  concludeByAction input .blockDeploy .pending .blocked .allowed

/-- A gate that answers is `matched` precisely when some finding that is not
suppressed has the action on its first matching policy. -/
theorem concludeByAction_matched_iff {γ : Type} {input : ConcludePolicyInput}
    {action : PolicyAction} {pending matched unmatched : γ} (hpending : gatePending input = false)
    (hne : unmatched ≠ matched) :
    concludeByAction input action pending matched unmatched = matched ↔
      ∃ finding ∈ input.findings, finding.id ∉ input.suppressedFindingIds ∧
        carries (gatePolicies input.policies) action finding = true := by
  unfold concludeByAction
  rw [hpending]
  simp only [Bool.false_eq_true, if_false]
  split
  · rename_i hany
    simp only [true_iff]
    obtain ⟨finding, hmem, hfinding⟩ := List.any_eq_true.mp hany
    simp only [Bool.and_eq_true, Bool.not_eq_true', decide_eq_false_iff_not] at hfinding
    exact ⟨finding, hmem, hfinding⟩
  · rename_i hany
    simp only [hne, false_iff]
    rintro ⟨finding, hmem, hfinding⟩
    apply hany
    rw [List.any_eq_true]
    refine ⟨finding, hmem, ?_⟩
    simp only [Bool.and_eq_true, Bool.not_eq_true', decide_eq_false_iff_not]
    exact hfinding

end Policy
end Ctem
