import Ctem.Findings.FindingsDb
import Ctem.Policy.Conclusion

/-!
# The policy engine

`PolicyEngineService.evaluate` runs on one finding: an active exception silences
it; otherwise the first enabled policy that matches sets the SLA and is published
as violated; otherwise the seed rule notifies about a critical or exploited one.

The policy and exception tables are lists in the order the database happens to
return rows; a query that orders by priority leaves ties in that order.
-/

namespace Ctem
namespace Policy

open Foundation Contracts Findings

/-- A row of `policies`. -/
structure PolicyRow where
  id : Uuid
  orgId : OrgId
  name : String
  enabled : Bool := true
  priority : Int := 100
  condition : PolicyCondition
  actions : List PolicyAction
  slaHours : Option Nat := none

inductive ExceptionScope where
  | finding | asset | vulnerability | global
deriving DecidableEq, Repr

/-- A row of `risk_exceptions`. -/
structure RiskExceptionRow where
  id : Uuid
  orgId : OrgId
  scope : ExceptionScope
  targetRef : String
  approvedAt : Option Timestamp := none
  expiresAt : Timestamp
  revokedAt : Option Timestamp := none

/-- What the policy decisions of an organisation are computed from. -/
structure PolicyDb where
  db : FindingsDb
  policies : List PolicyRow
  exceptions : List RiskExceptionRow

/-- Approved, not revoked and not expired. -/
def RiskExceptionRow.active (now : Timestamp) (e : RiskExceptionRow) : Bool :=
  e.revokedAt.isNone && e.approvedAt.isSome && decide (now < e.expiresAt)

/-- The row as the conditions see it, joined to its asset. -/
def matchFinding (row : FindingRow) (asset : AssetRow) : PolicyMatchFinding where
  id := row.id
  severity := row.severity
  riskScore := row.riskScore
  kev := row.kev
  epssScore := row.epssScore
  fixAvailable := row.fixAvailable
  scannerType := row.scannerType
  asset := ⟨asset.kind, asset.exposure, asset.criticality, asset.tags⟩

namespace PolicyDb

/-- `findMany({ where: { enabled: true }, orderBy: { priority: 'asc' } })`. -/
def enabledPolicies (st : PolicyDb) (orgId : OrgId) : List PolicyRow :=
  (st.policies.filter fun p => decide (p.orgId = orgId) && p.enabled).insertionSort
    fun a b => a.priority ≤ b.priority

/-- The exception of `hasActiveException`'s query: active, and global or scoped to
the finding. -/
def silences (orgId : OrgId) (now : Timestamp) (findingId : Uuid) (e : RiskExceptionRow) : Bool :=
  decide (e.orgId = orgId) && e.active now &&
    ((decide (e.scope = .finding) && decide (e.targetRef = findingId)) ||
      decide (e.scope = .global))

/-- `hasActiveException`. -/
def hasActiveException (st : PolicyDb) (orgId : OrgId) (now : Timestamp) (findingId : Uuid) :
    Bool :=
  decide (0 < st.exceptions.countP (silences orgId now findingId))

end PolicyDb

/-- `SEED_KEV_OR_CRITICAL_POLICY_ID`. -/
def seedKevOrCriticalPolicyId : Uuid := "00000000-0000-4000-8000-00000000c7e1"

/-- `SEED_NOTIFY_ACTIONS`. -/
def seedNotifyActions : List PolicyAction := [.notify]

/-- `matchesSeedKevOrCritical`. -/
def matchesSeedKevOrCritical (finding : PolicyMatchFinding) : Bool :=
  finding.kev || decide (finding.severity = .critical)

/-- `slaNotifyResetForDueChange`: a later due date re-arms the breach alert. -/
def slaNotifyResets (previousDue : Option Timestamp) (nextDue : Timestamp) : Bool :=
  match previousDue with
  | none => false
  | some previous => decide (previous < nextDue)

/-- The SLA columns after a policy with `hours` matched at `now`. -/
def withSla (now : Timestamp) (hours : Nat) (row : FindingRow) : FindingRow :=
  { row with
    slaDueAt := some (now + hours * 3600000)
    slaNotifiedAt :=
      if slaNotifyResets row.slaDueAt (now + hours * 3600000) then none else row.slaNotifiedAt }

theorem withSla_keepsIdentity (now : Timestamp) (hours : Nat) :
    KeepsIdentity (withSla now hours) :=
  fun _ => ⟨rfl, rfl, rfl, rfl⟩

/-- The event `evaluate` publishes. -/
structure PolicyViolated where
  findingId : Uuid
  policyId : Uuid
  actions : List PolicyAction

/-- What an evaluation returns, publishes and leaves in the database. -/
structure Evaluation where
  actions : List PolicyAction
  violated : Option PolicyViolated := none
  db : PolicyDb

/-- The SLA write of a matched policy; zero hours are no SLA. -/
def applySla (st : PolicyDb) (orgId : OrgId) (findingId : Uuid) (now : Timestamp)
    (slaHours : Option Nat) : PolicyDb :=
  match slaHours with
  | none => st
  | some 0 => st
  | some hours =>
      { st with
        db := st.db.updateMany
          (fun r => decide (r.id = findingId) && decide (r.orgId = orgId)) (withSla now hours)
          (withSla_keepsIdentity now hours) }

/-- `PolicyEngineService.evaluate`.  It throws on a finding that is not there. -/
def evaluate (st : PolicyDb) (orgId : OrgId) (findingId : Uuid) (now : Timestamp) :
    Option Evaluation :=
  match st.db.findById orgId findingId with
  | none => none
  | some row =>
      match st.db.assetOf row with
      | none => none
      | some asset =>
          let finding := matchFinding row asset
          if st.hasActiveException orgId now findingId then
            some { actions := [], db := st }
          else
            match (st.enabledPolicies orgId).find? fun policy =>
                matchesPolicyCondition policy.condition finding with
            | some policy =>
                some
                  { actions := policy.actions
                    violated := some ⟨findingId, policy.id, policy.actions⟩
                    db := applySla st orgId findingId now policy.slaHours }
            | none =>
                if matchesSeedKevOrCritical finding then
                  some
                    { actions := seedNotifyActions
                      violated := some ⟨findingId, seedKevOrCriticalPolicyId, seedNotifyActions⟩
                      db := st }
                else some { actions := [], db := st }

/-- The action list of an evaluation that returns. -/
theorem evaluate_actions {st : PolicyDb} {orgId : OrgId} {row : FindingRow} {asset : AssetRow}
    {findingId : Uuid} (hrow : st.db.findById orgId findingId = some row)
    (hasset : st.db.assetOf row = some asset) (now : Timestamp) :
    (evaluate st orgId findingId now).map Evaluation.actions =
      some
        (if st.hasActiveException orgId now findingId then []
        else
          match (st.enabledPolicies orgId).find? fun policy =>
              matchesPolicyCondition policy.condition (matchFinding row asset) with
          | some policy => policy.actions
          | none =>
              if matchesSeedKevOrCritical (matchFinding row asset) then seedNotifyActions else []) := by
  unfold evaluate
  simp only [hrow, hasset]
  split
  · rfl
  · split
    · rfl
    · split <;> rfl

/-! ## Row order -/

/-- Two states with the same findings and the same policy and exception rows, in
any order. -/
structure SameRows (st st' : PolicyDb) : Prop where
  db : st'.db = st.db
  policies : st'.policies.Perm st.policies
  exceptions : st'.exceptions.Perm st.exceptions

/-- No two enabled policies of the organisation have the same priority. -/
def DistinctPriorities (orgId : OrgId) (st : PolicyDb) : Prop :=
  ((st.policies.filter fun p => decide (p.orgId = orgId) && p.enabled).map
    PolicyRow.priority).Nodup

instance (orgId : OrgId) (st : PolicyDb) : Decidable (DistinctPriorities orgId st) :=
  inferInstanceAs (Decidable (List.Nodup _))

/-- With distinct priorities the query has one answer, whatever the row order. -/
theorem enabledPolicies_eq_of_sameRows {st st' : PolicyDb} {orgId : OrgId}
    (hsame : SameRows st st') (hdistinct : DistinctPriorities orgId st) :
    st'.enabledPolicies orgId = st.enabledPolicies orgId := by
  have hperm : (st'.enabledPolicies orgId).Perm (st.enabledPolicies orgId) :=
    (List.perm_insertionSort _ _).trans
      ((hsame.policies.filter _).trans (List.perm_insertionSort _ _).symm)
  have hsorted : ∀ s : PolicyDb,
      (s.enabledPolicies orgId).Pairwise fun a b => a.priority ≤ b.priority :=
    fun s => List.pairwise_insertionSort (fun a b : PolicyRow => a.priority ≤ b.priority) _
  refine hperm.eq_of_pairwise ?_ (hsorted st') (hsorted st)
  intro a b ha hb hab hba
  have hmem : ∀ {p : PolicyRow}, p ∈ st.enabledPolicies orgId →
      p ∈ st.policies.filter fun p => decide (p.orgId = orgId) && p.enabled :=
    fun hp => (List.mem_insertionSort _).mp hp
  exact List.inj_on_of_nodup_map hdistinct (hmem (hperm.mem_iff.mp ha)) (hmem hb)
    (Int.le_antisymm hab hba)

/-- Whether an exception silences a finding does not depend on the row order. -/
theorem hasActiveException_eq_of_sameRows {st st' : PolicyDb} (hsame : SameRows st st')
    (orgId : OrgId) (now : Timestamp) (findingId : Uuid) :
    st'.hasActiveException orgId now findingId = st.hasActiveException orgId now findingId := by
  unfold PolicyDb.hasActiveException
  rw [hsame.exceptions.countP_eq]

theorem hasActiveException_iff {st : PolicyDb} {orgId : OrgId} {now : Timestamp}
    {findingId : Uuid} :
    st.hasActiveException orgId now findingId = true ↔
      ∃ e ∈ st.exceptions, PolicyDb.silences orgId now findingId e = true := by
  unfold PolicyDb.hasActiveException
  rw [decide_eq_true_eq, List.countP_pos_iff]

/-- What an evaluation returns does not depend on the row order either. -/
theorem evaluate_actions_of_sameRows {st st' : PolicyDb} {orgId : OrgId}
    (hsame : SameRows st st') (hdistinct : DistinctPriorities orgId st) (findingId : Uuid)
    (now : Timestamp) :
    (evaluate st' orgId findingId now).map Evaluation.actions =
      (evaluate st orgId findingId now).map Evaluation.actions := by
  cases hrow : st.db.findById orgId findingId with
  | none => simp [evaluate, hsame.db, hrow]
  | some row =>
      cases hasset : st.db.assetOf row with
      | none => simp [evaluate, hsame.db, hrow, hasset]
      | some asset =>
          have hrow' : st'.db.findById orgId findingId = some row := by
            rw [hsame.db]
            exact hrow
          have hasset' : st'.db.assetOf row = some asset := by
            rw [hsame.db]
            exact hasset
          rw [evaluate_actions hrow hasset, evaluate_actions hrow' hasset',
            hasActiveException_eq_of_sameRows hsame, enabledPolicies_eq_of_sameRows hsame hdistinct]

end Policy
end Ctem
