import Ctem.Findings.TriageRace
import Ctem.Foundation.Transactions
import Ctem.Intel.Enrichment
import Ctem.Policy.Engine

/-!
# The writers of the findings table

Six transactions of two services write finding rows: the upsert and the closing step of an
ingest, `triage`, the SLA update of `evaluate`, the breach claim of the SLA monitor and the
updates that `propagate` makes for one CVE.  Their statements interleave in any way; the
unique index gives every organisation and fingerprint one row.

* `FindingTx.rowWrite` is what a write statement makes of a row, from the row as its
  transaction has read it and the row as it is; `RowWrite` says the same by cases.
* `findingWriters` are the transactions, to be run on the table of the index.
* `rows_sound` holds in every state: what is resolved has its time of resolution and no
  claimed alert.
-/

namespace Ctem
namespace Findings

open Foundation Contracts Intel Policy

/-- What the unique index of `findings` is over. -/
abbrev FindingKey := OrgId × String

/-- A transaction, or an update that is one by itself. -/
inductive FindingTx where
  /-- The transaction of one fingerprint in an ingest; `id` is drawn for a new row. -/
  | report (orgId : OrgId) (payload : FindingsReportedPayload) (row : CollapsedFinding)
      (seenAt : Timestamp) (id : Uuid)
  /-- The closing step of an ingest. -/
  | close (orgId : OrgId) (payload : FindingsReportedPayload) (fingerprints : List String)
      (seenAt : Timestamp)
  | triage (orgId : OrgId) (findingId : Uuid) (state : FindingState) (now : Timestamp)
  /-- The SLA update of `evaluate` for a policy with that many hours. -/
  | sla (orgId : OrgId) (findingId : Uuid) (hours : Nat) (now : Timestamp)
  /-- `claimSlaBreachNotification`; `now` is the database's. -/
  | claim (orgId : OrgId) (findingId : Uuid) (now : Timestamp)
  /-- `findMany` for a CVE, and `updateMany` of the group that gets the patch `data`. -/
  | enrich (cve : String) (patch : IntelPatch) (data : FindingIntelPatch)

/-- The SLA columns that `evaluate` writes, when its find has seen the due date
`previousDue`. -/
def slaUpdatedRow (previousDue : Option Timestamp) (due : Timestamp) (r : FindingRow) :
    FindingRow :=
  { r with
    slaDueAt := some due
    slaNotifiedAt := if slaNotifyResets previousDue due then none else r.slaNotifiedAt }

/-- Nothing in between, the update writes what an undisturbed evaluation does. -/
theorem slaUpdatedRow_withSla (now : Timestamp) (hours : Nat) (r : FindingRow) :
    slaUpdatedRow r.slaDueAt (now + hours * 3600000) r = withSla now hours r := rfl

/-- The condition of the claim: an open breach that nobody has claimed. -/
def slaClaimable (now : Timestamp) (r : FindingRow) : Bool :=
  r.slaNotifiedAt.isNone && r.resolvedAt.isNone &&
    (r.slaDueAt.any fun due => decide (due < now)) && r.state.unresolved

/-- What the claim writes. -/
def claimedRow (now : Timestamp) (r : FindingRow) : FindingRow :=
  { r with slaNotifiedAt := some now }

/-- The state of `existing`; no row is not a resolved one. -/
def seenState (seen : Option FindingRow) : FindingState :=
  (seen.map FindingRow.state).getD .open

namespace FindingTx

/-- What the write statement makes of a row, by the row the transaction has read and the
row that is there. -/
def rowWrite : FindingTx → FindingKey → Option FindingRow → Option FindingRow → Option FindingRow
  | .report orgId payload row seenAt id, k, seen, current =>
      if k = (orgId, row.fingerprint) then
        match current with
        | none => some (createdRow orgId payload row seenAt id)
        | some r => some (refreshedAs (seenState seen) payload row seenAt r)
      else none
  | .close orgId payload fingerprints seenAt, _, _, some r =>
      if unreported orgId payload.assetId payload.scannerType fingerprints r then
        some (autoResolved seenAt r)
      else none
  -- `findUniqueOrThrow`
  | .triage orgId findingId state now, _, some _, some r =>
      if r.id = findingId ∧ r.orgId = orgId then some (triagedRow state now r) else none
  | .sla orgId findingId hours now, _, seen, some r =>
      if r.id = findingId ∧ r.orgId = orgId then
        some (slaUpdatedRow (seen.bind FindingRow.slaDueAt) (now + hours * 3600000) r)
      else none
  | .claim orgId findingId now, _, _, some r =>
      if r.id = findingId ∧ r.orgId = orgId ∧ slaClaimable now r = true then
        some (claimedRow now r)
      else none
  -- the ids of the group were collected from the rows that were found
  | .enrich cve patch data, _, some found, some r =>
      if reachedBy cve found = true ∧ findingIntelPatch found patch = data ∧ r.id = found.id then
        some (data.apply r)
      else none
  | _, _, _, _ => none

/-- The transaction reads before it writes. -/
def finds : FindingTx → Bool
  | .close _ _ _ _ => false
  | .claim _ _ _ => false
  | _ => true

/-- The write is of one row. -/
def single : FindingTx → Bool
  | .close _ _ _ _ => false
  | .enrich _ _ _ => false
  | _ => true

end FindingTx

/-- The writers of the table; no row is ever deleted. -/
def findingWriters : TxKind FindingKey (Option FindingRow) FindingTx where
  finds := FindingTx.finds
  single := FindingTx.single
  writes := fun tx k seen current => (tx.rowWrite k seen current).map some

/-- The findings table and its open transactions. -/
abbrev FindingTable := TxTable FindingKey (Option FindingRow) FindingTx

abbrev FindingEvent := TxEvent FindingKey FindingTx

/-- A table without findings. -/
def emptyTable : FindingTable := TxTable.ofRows fun _ => none

/-- The writers, case by case: `RowWrite k seen current tx r` when the statement of `tx`
makes `r` of the row. -/
inductive RowWrite (k : FindingKey) (seen : Option FindingRow) :
    Option FindingRow → FindingTx → FindingRow → Prop where
  | create (orgId payload row seenAt id) (hkey : k = (orgId, row.fingerprint)) :
      RowWrite k seen none (.report orgId payload row seenAt id)
        (createdRow orgId payload row seenAt id)
  | refresh (orgId payload row seenAt id r) (hkey : k = (orgId, row.fingerprint)) :
      RowWrite k seen (some r) (.report orgId payload row seenAt id)
        (refreshedAs (seenState seen) payload row seenAt r)
  | close (orgId payload fingerprints seenAt r)
      (hselected : unreported orgId payload.assetId payload.scannerType fingerprints r = true) :
      RowWrite k seen (some r) (.close orgId payload fingerprints seenAt) (autoResolved seenAt r)
  | triage (orgId findingId state now r) (hfound : seen.isSome = true)
      (hid : r.id = findingId ∧ r.orgId = orgId) :
      RowWrite k seen (some r) (.triage orgId findingId state now) (triagedRow state now r)
  | sla (orgId findingId hours now r) (hid : r.id = findingId ∧ r.orgId = orgId) :
      RowWrite k seen (some r) (.sla orgId findingId hours now)
        (slaUpdatedRow (seen.bind FindingRow.slaDueAt) (now + hours * 3600000) r)
  | claim (orgId findingId now r) (hid : r.id = findingId ∧ r.orgId = orgId)
      (hbreach : slaClaimable now r = true) :
      RowWrite k seen (some r) (.claim orgId findingId now) (claimedRow now r)
  | enrich (cve patch found r) (hseen : seen = some found) (hreached : reachedBy cve found = true)
      (hid : r.id = found.id) :
      RowWrite k seen (some r) (.enrich cve patch (findingIntelPatch found patch))
        ((findingIntelPatch found patch).apply r)

/-- Everything a write statement can do. -/
theorem rowWrite_cases {tx : FindingTx} {k : FindingKey} {seen current : Option FindingRow}
    {r : FindingRow} (h : tx.rowWrite k seen current = some r) :
    RowWrite k seen current tx r := by
  cases tx with
  | report orgId payload row seenAt id =>
      simp only [FindingTx.rowWrite] at h
      split at h
      · rename_i hkey
        cases current with
        | none =>
            obtain rfl := Option.some.inj h
            exact .create orgId payload row seenAt id hkey
        | some r₀ =>
            obtain rfl := Option.some.inj h
            exact .refresh orgId payload row seenAt id r₀ hkey
      · cases h
  | close orgId payload fingerprints seenAt =>
      cases current with
      | none => cases h
      | some r₀ =>
          simp only [FindingTx.rowWrite, Option.ite_none_right_eq_some] at h
          obtain ⟨hselected, hr⟩ := h
          obtain rfl := Option.some.inj hr
          exact .close orgId payload fingerprints seenAt r₀ hselected
  | triage orgId findingId state now =>
      cases seen with
      | none => cases current <;> cases h
      | some found =>
          cases current with
          | none => cases h
          | some r₀ =>
              simp only [FindingTx.rowWrite, Option.ite_none_right_eq_some] at h
              obtain ⟨hid, hr⟩ := h
              obtain rfl := Option.some.inj hr
              exact .triage orgId findingId state now r₀ rfl hid
  | sla orgId findingId hours now =>
      cases current with
      | none => cases h
      | some r₀ =>
          simp only [FindingTx.rowWrite, Option.ite_none_right_eq_some] at h
          obtain ⟨hid, hr⟩ := h
          obtain rfl := Option.some.inj hr
          exact .sla orgId findingId hours now r₀ hid
  | claim orgId findingId now =>
      cases current with
      | none => cases h
      | some r₀ =>
          simp only [FindingTx.rowWrite, Option.ite_none_right_eq_some] at h
          obtain ⟨⟨hid, horg, hbreach⟩, hr⟩ := h
          obtain rfl := Option.some.inj hr
          exact .claim orgId findingId now r₀ ⟨hid, horg⟩ hbreach
  | enrich cve patch data =>
      cases seen with
      | none => cases current <;> cases h
      | some found =>
          cases current with
          | none => cases h
          | some r₀ =>
              simp only [FindingTx.rowWrite, Option.ite_none_right_eq_some] at h
              obtain ⟨⟨hreached, rfl, hid⟩, hr⟩ := h
              obtain rfl := Option.some.inj hr
              exact .enrich cve patch found r₀ rfl hreached hid

/-- The same of the writers of the table. -/
theorem findingWriters_cases {tx : FindingTx} {k : FindingKey}
    {seen current v : Option FindingRow} (h : findingWriters.writes tx k seen current = some v) :
    ∃ r, v = some r ∧ RowWrite k seen current tx r := by
  obtain ⟨r, hr, hv⟩ := Option.map_eq_some_iff.mp h
  exact ⟨r, hv.symm, rowWrite_cases hr⟩

/-- The condition of the claim, column by column. -/
theorem slaClaimable_iff {now : Timestamp} {r : FindingRow} :
    slaClaimable now r = true ↔
      r.slaNotifiedAt = none ∧ r.resolvedAt = none ∧
        (∃ due, r.slaDueAt = some due ∧ due < now) ∧ r.state.unresolved = true := by
  unfold slaClaimable
  rw [Bool.and_eq_true, Bool.and_eq_true, Bool.and_eq_true, Option.isNone_iff_eq_none,
    Option.isNone_iff_eq_none, Option.any_eq_true]
  simp only [decide_eq_true_eq, and_assoc]

/-! ## The row invariant -/

/-- A row under its key: it is resolved exactly when it has a time of resolution, and then
no breach alert is claimed. -/
structure SoundRow (k : FindingKey) (r : FindingRow) : Prop where
  key : r.key = k
  resolvedAt : r.state = .resolved ↔ r.resolvedAt ≠ none
  unnotified : r.state = .resolved → r.slaNotifiedAt = none

theorem unresolved_ne_resolved {state : FindingState} (h : state.unresolved = true) :
    state ≠ .resolved := by
  rintro rfl
  cases h

/-- Every writer keeps the row sound, whatever it has read before. -/
theorem SoundRow.rowWrite {k : FindingKey} {seen current : Option FindingRow} {tx : FindingTx}
    {r : FindingRow} (hsound : ∀ r₀, current = some r₀ → SoundRow k r₀)
    (h : RowWrite k seen current tx r) : SoundRow k r := by
  cases h with
  | create orgId payload row seenAt id hkey =>
      refine ⟨hkey.symm, ?_, ?_⟩
      · exact iff_of_false (fun h => by cases h) (fun h => h rfl)
      · intro h
        cases h
  | refresh orgId payload row seenAt id r₀ hkey =>
      have h₀ := hsound r₀ rfl
      refine ⟨h₀.key, ?_, ?_⟩
      · change (if _ then _ else _) = _ ↔ (if _ then _ else _) ≠ none
        split
        · exact iff_of_false (fun h => by cases h) (fun h => h rfl)
        · exact h₀.resolvedAt
      · change (if _ then _ else _) = _ → (if _ then _ else _) = none
        split
        · exact fun _ => rfl
        · exact h₀.unnotified
  | close orgId payload fingerprints seenAt r₀ hselected =>
      have h₀ := hsound r₀ rfl
      exact ⟨h₀.key, iff_of_true rfl (Option.some_ne_none seenAt), fun _ => rfl⟩
  | triage orgId findingId state now r₀ hfound hid =>
      have h₀ := hsound r₀ rfl
      refine ⟨h₀.key, ?_, ?_⟩
      · change state = _ ↔ (if _ then _ else _) ≠ none
        split
        · rename_i hresolved
          exact iff_of_true hresolved (Option.some_ne_none now)
        · rename_i hresolved
          exact iff_of_false hresolved (fun h => h rfl)
      · intro hresolved
        exact if_pos hresolved
  | sla orgId findingId hours now r₀ hid =>
      have h₀ := hsound r₀ rfl
      refine ⟨h₀.key, h₀.resolvedAt, ?_⟩
      intro hresolved
      change (if _ then none else r₀.slaNotifiedAt) = none
      rw [h₀.unnotified hresolved, ite_self]
  | claim orgId findingId now r₀ hid hbreach =>
      have h₀ := hsound r₀ rfl
      refine ⟨h₀.key, h₀.resolvedAt, ?_⟩
      intro hresolved
      exact absurd hresolved (unresolved_ne_resolved (slaClaimable_iff.mp hbreach).2.2.2)
  | enrich cve patch found r₀ hseen hreached hid =>
      have h₀ := hsound r₀ rfl
      exact ⟨h₀.key, h₀.resolvedAt, h₀.unnotified⟩

/-- What any transaction sees of the findings is sound, and one row a key. -/
def RowsSound (w : FindingTable) : Prop :=
  ∀ reader k r, w.read reader k = some r →
    SoundRow k r ∧ ∀ k' r', w.read reader k' = some r' → r'.key = r.key → k' = k ∧ r' = r

/-- Every version in the table is sound. -/
theorem holds_soundRow (es : List FindingEvent) :
    ((TxTable.system findingWriters).run emptyTable es).Holds fun k v =>
      ∀ r, v = some r → SoundRow k r := by
  refine System.run_of_allSteps (TxTable.system findingWriters)
    (I := TxTable.Holds fun k v => ∀ r, v = some r → SoundRow k r) (P := fun _ _ => True)
    ?_ ?_ ?_
  · intro w e h _
    refine h.step ?_ e
    intro tx k seen current v hsound hwrites r hr
    obtain ⟨r', hv, hwrite⟩ := findingWriters_cases hwrites
    rw [hv] at hr
    obtain rfl := Option.some.inj hr
    exact SoundRow.rowWrite hsound hwrite
  · exact TxTable.holds_ofRows (fun k r hr => by cases hr)
  · exact System.legal_of_forall_allowed (TxTable.system findingWriters)
      (fun _ _ => trivial) emptyTable es

/-- **The finding row invariant.**  In every state that statements of the writers reach
from the empty table, and for whatever transaction looks: a finding is resolved exactly
when it has a time of resolution, a resolved finding has no claimed breach alert, and two
findings of one organisation and fingerprint are one. -/
theorem rows_sound (es : List FindingEvent) :
    RowsSound ((TxTable.system findingWriters).run emptyTable es) := by
  intro reader k r hr
  have hsound := (holds_soundRow es).read reader
  refine ⟨hsound k r hr, ?_⟩
  intro k' r' hr' hkey
  have hk : k' = k := by
    rw [← (hsound k' r' hr').key, hkey, (hsound k r hr).key]
  subst hk
  rw [hr] at hr'
  exact ⟨rfl, (Option.some.inj hr').symm⟩

end Findings
end Ctem
