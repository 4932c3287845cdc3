import Ctem.Findings.Writers

/-!
# Operations on findings, policies and exceptions

What happens to the findings of an organisation while its policies are evaluated: the
transactions of an ingest, triage, rescoring, evaluations and breach claims, each as one
step.  `rowAfter` is what such a step makes of a row that is there, and `rowAfter_mem` that
it does.
-/

namespace Ctem
namespace Policy

open Foundation Contracts Findings

inductive PolicyDbEvent where
  | upsert (orgId : OrgId) (payload : FindingsReportedPayload) (row : CollapsedFinding)
      (seenAt : Timestamp) (id : Uuid)
  | close (orgId : OrgId) (payload : FindingsReportedPayload) (fingerprints : List String)
      (seenAt : Timestamp)
  | triage (orgId : OrgId) (findingId : Uuid) (state : FindingState) (now : Timestamp)
  | rescore (orgId : OrgId) (findingId : Uuid) (riskScore : Rat)
  | evaluate (orgId : OrgId) (findingId : Uuid) (now : Timestamp)
  | claim (orgId : OrgId) (findingId : Uuid) (now : Timestamp)
  | setPolicies (policies : List PolicyRow)
  | setExceptions (exceptions : List RiskExceptionRow)

/-- `where: { id }`, as the organisation sees it. -/
def isFinding (orgId : OrgId) (findingId : Uuid) (r : FindingRow) : Bool :=
  decide (r.id = findingId) && decide (r.orgId = orgId)

/-- What a rescoring writes. -/
def rescoredRow (riskScore : Rat) (r : FindingRow) : FindingRow :=
  { r with riskScore := riskScore }

theorem triagedRow_keepsIdentity (state : FindingState) (now : Timestamp) :
    KeepsIdentity (triagedRow state now) :=
  fun _ => ⟨rfl, rfl, rfl, rfl⟩

theorem rescoredRow_keepsIdentity (riskScore : Rat) : KeepsIdentity (rescoredRow riskScore) :=
  fun _ => ⟨rfl, rfl, rfl, rfl⟩

theorem claimedRow_keepsIdentity (now : Timestamp) : KeepsIdentity (claimedRow now) :=
  fun _ => ⟨rfl, rfl, rfl, rfl⟩

namespace PolicyDb

/-- `updateMany` of findings. -/
def updateFindings (st : PolicyDb) (select : FindingRow → Bool) (data : FindingRow → FindingRow)
    (hdata : KeepsIdentity data) : PolicyDb :=
  { st with db := st.db.updateMany select data hdata }

/-- The effect of one event; an event that throws has none. -/
def step (st : PolicyDb) : PolicyDbEvent → PolicyDb
  | .upsert orgId payload row seenAt id =>
      match upsertFinding st.db orgId payload row seenAt id with
      | some db => { st with db := db }
      | none => st
  | .close orgId payload fingerprints seenAt =>
      { st with db := closeUnreported st.db orgId payload fingerprints seenAt }
  | .triage orgId findingId state now =>
      st.updateFindings (isFinding orgId findingId) (triagedRow state now)
        (triagedRow_keepsIdentity state now)
  | .rescore orgId findingId riskScore =>
      st.updateFindings (isFinding orgId findingId) (rescoredRow riskScore)
        (rescoredRow_keepsIdentity riskScore)
  | .evaluate orgId findingId now =>
      match Policy.evaluate st orgId findingId now with
      | some evaluation => evaluation.db
      -- the finding or its asset is gone
      | none => st
  | .claim orgId findingId now =>
      st.updateFindings (fun r => isFinding orgId findingId r && slaClaimable now r)
        (claimedRow now) (claimedRow_keepsIdentity now)
  | .setPolicies policies => { st with policies := policies }
  | .setExceptions exceptions => { st with exceptions := exceptions }

end PolicyDb

/-- The policy that decides an evaluation. -/
def matchedPolicy (st : PolicyDb) (orgId : OrgId) (findingId : Uuid) (now : Timestamp) :
    Option PolicyRow :=
  (st.db.findById orgId findingId).bind fun row =>
    (st.db.assetOf row).bind fun asset =>
      if st.hasActiveException orgId now findingId then none
      else
        (st.enabledPolicies orgId).find? fun policy =>
          matchesPolicyCondition policy.condition (matchFinding row asset)

/-- The hours it gives. -/
def matchedHours (st : PolicyDb) (orgId : OrgId) (findingId : Uuid) (now : Timestamp) :
    Option Nat :=
  (matchedPolicy st orgId findingId now).bind PolicyRow.slaHours

/-- What an evaluation does to the database: the SLA write of the policy that decides it. -/
theorem step_evaluate (st : PolicyDb) (orgId : OrgId) (findingId : Uuid) (now : Timestamp) :
    st.step (.evaluate orgId findingId now) =
      applySla st orgId findingId now (matchedHours st orgId findingId now) := by
  change (match Policy.evaluate st orgId findingId now with
    | some evaluation => evaluation.db
    | none => st) = _
  unfold Policy.evaluate matchedHours matchedPolicy
  cases hrow : st.db.findById orgId findingId with
  | none => rfl
  | some row =>
      simp only [Option.bind_some]
      cases hasset : st.db.assetOf row with
      | none => rfl
      | some asset =>
          simp only [Option.bind_some]
          by_cases hexception : st.hasActiveException orgId now findingId = true
          · simp only [hexception, if_true]
            rfl
          · simp only [hexception, if_false, Bool.false_eq_true]
            cases hpolicy : (st.enabledPolicies orgId).find? fun policy =>
                matchesPolicyCondition policy.condition (matchFinding row asset) with
            | some policy => rfl
            | none =>
                -- the built-in rule has actions, but gives no SLA
                simp only [Option.bind_none]
                by_cases hseed : matchesSeedKevOrCritical (matchFinding row asset) = true
                · simp only [hseed, if_true]
                  rfl
                · simp only [hseed, if_false, Bool.false_eq_true]
                  rfl

/-- What an event makes of a row that is there. -/
def rowAfter (st : PolicyDb) (r : FindingRow) : PolicyDbEvent → FindingRow
  | .upsert orgId payload row seenAt id =>
      if (upsertFinding st.db orgId payload row seenAt id).isSome = true ∧
          r.key = (orgId, row.fingerprint) then
        refreshedRow payload row seenAt r
      else r
  | .close orgId payload fingerprints seenAt =>
      if unreported orgId payload.assetId payload.scannerType fingerprints r then
        autoResolved seenAt r
      else r
  | .triage orgId findingId state now =>
      if isFinding orgId findingId r then triagedRow state now r else r
  | .rescore orgId findingId riskScore =>
      if isFinding orgId findingId r then rescoredRow riskScore r else r
  | .evaluate orgId findingId now =>
      match matchedHours st orgId findingId now with
      | none => r
      -- no hours, as none at all
      | some 0 => r
      | some hours => if isFinding orgId findingId r then withSla now hours r else r
  | .claim orgId findingId now =>
      if isFinding orgId findingId r && slaClaimable now r then claimedRow now r else r
  | .setPolicies _ => r
  | .setExceptions _ => r

/-- Every row there is goes on as `rowAfter`. -/
theorem rowAfter_mem {st : PolicyDb} {r : FindingRow} (hr : r ∈ st.db.findings)
    (e : PolicyDbEvent) : rowAfter st r e ∈ (st.step e).db.findings := by
  have hupdate : ∀ (select : FindingRow → Bool) (data : FindingRow → FindingRow)
      (hdata : KeepsIdentity data), (if select r then data r else r) ∈
        (st.updateFindings select data hdata).db.findings := by
    intro select data hdata
    change _ ∈ (st.db.updateMany select data hdata).findings
    rw [FindingsDb.mem_updateMany]
    exact ⟨r, hr, rfl⟩
  cases e with
  | upsert orgId payload row seenAt id =>
      unfold rowAfter PolicyDb.step
      simp only
      cases hupsert : upsertFinding st.db orgId payload row seenAt id with
      | none => exact hr
      | some db =>
          simp only [Option.isSome_some, true_and]
          -- the upsert updates the row of its key and leaves the others
          by_cases hkey : r.key = (orgId, row.fingerprint)
          · rw [if_pos hkey]
            exact (mem_upsertFinding hupsert).mpr (Or.inr (Or.inl ⟨r, hr, hkey, rfl⟩))
          · rw [if_neg hkey]
            exact (mem_upsertFinding hupsert).mpr (Or.inl ⟨hr, hkey⟩)
  | close orgId payload fingerprints seenAt => exact hupdate _ _ (autoResolved_keepsIdentity seenAt)
  | triage orgId findingId state now => exact hupdate _ _ (triagedRow_keepsIdentity state now)
  | rescore orgId findingId riskScore => exact hupdate _ _ (rescoredRow_keepsIdentity riskScore)
  | evaluate orgId findingId now =>
      rw [step_evaluate]
      unfold rowAfter
      simp only
      match matchedHours st orgId findingId now with
      | none => exact hr
      | some 0 => exact hr
      | some (hours + 1) => exact hupdate _ _ (withSla_keepsIdentity now (hours + 1))
  | claim orgId findingId now => exact hupdate _ _ (claimedRow_keepsIdentity now)
  | setPolicies policies => exact hr
  | setExceptions exceptions => exact hr

/-- The row that goes on is the same finding. -/
theorem rowAfter_sameFinding (st : PolicyDb) (r : FindingRow) (e : PolicyDbEvent) :
    SameFinding r (rowAfter st r e) := by
  cases e with
  | evaluate orgId findingId now =>
      unfold rowAfter
      simp only
      split
      · exact SameFinding.refl r
      · exact SameFinding.refl r
      · split <;> exact ⟨rfl, rfl, rfl, rfl, rfl⟩
  | setPolicies policies => exact SameFinding.refl r
  | setExceptions exceptions => exact SameFinding.refl r
  | upsert orgId payload row seenAt id =>
      unfold rowAfter
      simp only
      split <;> exact ⟨rfl, rfl, rfl, rfl, rfl⟩
  | close orgId payload fingerprints seenAt =>
      unfold rowAfter
      simp only
      split <;> exact ⟨rfl, rfl, rfl, rfl, rfl⟩
  | triage orgId findingId state now =>
      unfold rowAfter
      simp only
      split <;> exact ⟨rfl, rfl, rfl, rfl, rfl⟩
  | rescore orgId findingId riskScore =>
      unfold rowAfter
      simp only
      split <;> exact ⟨rfl, rfl, rfl, rfl, rfl⟩
  | claim orgId findingId now =>
      unfold rowAfter
      simp only
      split <;> exact ⟨rfl, rfl, rfl, rfl, rfl⟩

/-- The row of a finding id behind an event. -/
theorem findById_step {st : PolicyDb} {orgId : OrgId} {findingId : Uuid} {r : FindingRow}
    (hr : st.db.findById orgId findingId = some r) (e : PolicyDbEvent) :
    (st.step e).db.findById orgId findingId = some (rowAfter st r e) := by
  have hmem : r ∈ st.db.findings := List.mem_of_find?_eq_some hr
  have hkeys := List.find?_some hr
  simp only [Bool.and_eq_true, decide_eq_true_eq] at hkeys
  have hsame := rowAfter_sameFinding st r e
  have hfound := FindingsDb.findById_of_mem (rowAfter_mem hmem e)
  rw [hsame.id, hsame.orgId, hkeys.1, hkeys.2] at hfound
  exact hfound

end Policy
end Ctem
