import Ctem.Findings.Writers

/-!
# Validation, evidence and KEV

`validation` of an SCA finding is derived from its evidence and its KEV flag.  Ingest writes
the three together.  `propagate` writes KEV and the validation that it derives from the
evidence its `findMany` has returned; by the time of its `updateMany` the row may have other
evidence.

`validation_consistent_iff`: every committed row has the validation of its own evidence and
KEV flag, at all times, precisely when no such update commits over evidence with another
reachability.
-/

namespace Ctem
namespace Intel

open Foundation Contracts Findings

/-- The evidence has a reachability verdict. -/
def ReachabilityKnown (evidence : JsonObject) : Prop :=
  readEvidenceReachability evidence = some "reachable" ∨
    readEvidenceReachability evidence = some "not_reachable"

/-- An SCA row whose evidence has a verdict carries the validation of its own columns. -/
def ValidationConsistent (r : FindingRow) : Prop :=
  r.scannerType = .sca → ReachabilityKnown r.evidence →
    promoteValidation r.scannerType r.evidence r.kev = some r.validation

/-- Every committed row does. -/
def RowsConsistent (w : FindingTable) : Prop :=
  ∀ k r, w.committed k = some r → ValidationConsistent r

/-- No transaction is open. -/
def Quiescent (w : FindingTable) : Prop :=
  ∀ id, w.txs id = none

/-- The evidence that was found and that of the row give other validations with `kev`, or
the found one gives none and `kev` is new. -/
def StaleReachability (found r : FindingRow) (kev : Bool) : Prop :=
  (readEvidenceReachability r.evidence = some "reachable" ∧
      (readEvidenceReachability found.evidence = some "not_reachable" ∨
        (¬ ReachabilityKnown found.evidence ∧ kev ≠ r.kev))) ∨
    (readEvidenceReachability r.evidence = some "not_reachable" ∧
      readEvidenceReachability found.evidence = some "reachable")

/-- The write of the transaction over the row `r` leaves it with a validation that is not
that of its columns: an enrichment went by other evidence, or an ingest reports a finding of
another scanner type under the fingerprint of an SCA row. -/
def Spoils (tx : FindingTx) (seen : Option FindingRow) (r : FindingRow) : Prop :=
  match tx, seen with
  | .enrich _ patch _, some found =>
      r.scannerType = .sca ∧ ∃ kev, patch.kev = some kev ∧ StaleReachability found r kev
  | .report _ _ row _ _, _ =>
      row.finding.scannerType ≠ .sca ∧ r.scannerType = .sca ∧ ReachabilityKnown row.evidence ∧
        promoteValidation .sca row.evidence row.finding.kev ≠ some r.validation
  | _, _ => False

/-- The statement commits such a write. -/
def SpoilsValidation (w : FindingTable) (e : FindingEvent) : Prop :=
  ∃ id k tx progress r, e = .commit id ∧ w.txs id = some (tx, progress) ∧
    (w.row k).heldBy id = true ∧ w.committed k = some r ∧ Spoils tx (w.seenAt k progress) r

/-! ## Promotion -/

theorem promoteValidation_reachable {evidence : JsonObject} (kev : Bool)
    (h : readEvidenceReachability evidence = some "reachable") :
    promoteValidation .sca evidence kev = some (if kev then .exploitable else .reachable) := by
  simp [promoteValidation, h]

theorem promoteValidation_not_reachable {evidence : JsonObject} (kev : Bool)
    (h : readEvidenceReachability evidence = some "not_reachable") :
    promoteValidation .sca evidence kev = some .notReachable := by
  simp [promoteValidation, h]

theorem promoteValidation_unknown {evidence : JsonObject} (kev : Bool)
    (h : ¬ ReachabilityKnown evidence) : promoteValidation .sca evidence kev = none := by
  unfold ReachabilityKnown at h
  push Not at h
  unfold promoteValidation
  rw [if_pos rfl]
  split
  · rename_i heq
    exact absurd heq h.1
  · rename_i heq
    exact absurd heq h.2
  · rfl

/-- The evidence and KEV flag of one report have their own validation. -/
theorem promoteValidation_eq_some_getD {evidence : JsonObject} (kev : Bool)
    (h : ReachabilityKnown evidence) (default : ValidationVerdict) :
    promoteValidation .sca evidence kev =
      some ((promoteValidation .sca evidence kev).getD default) := by
  rcases h with h | h
  · rw [promoteValidation_reachable kev h, Option.getD_some]
  · rw [promoteValidation_not_reachable kev h, Option.getD_some]

/-- What `propagate` writes agrees with the row's own evidence unless that is other than
what was found. -/
theorem promoted_found_iff {found r : FindingRow} (hsca : r.scannerType = .sca)
    (hfound : found.scannerType = .sca) (hr : ValidationConsistent r)
    (hknown : ReachabilityKnown r.evidence) (kev : Bool) :
    promoteValidation .sca r.evidence kev =
        some ((promoteValidation found.scannerType found.evidence kev).getD r.validation) ↔
      ¬ StaleReachability found r kev := by
  have hown := hr hsca hknown
  rw [hsca] at hown
  rw [hfound]
  rcases hknown with hreach | hreach
  · -- reachable: the validation goes with the KEV flag
    rw [promoteValidation_reachable r.kev hreach] at hown
    have hvalidation := Option.some.inj hown
    rw [promoteValidation_reachable kev hreach]
    by_cases hknown' : ReachabilityKnown found.evidence
    · rcases hknown' with hreach' | hreach'
      · rw [promoteValidation_reachable kev hreach']
        refine iff_of_true rfl ?_
        simp [StaleReachability, hreach, hreach', ReachabilityKnown]
      · rw [promoteValidation_not_reachable kev hreach']
        refine iff_of_false ?_ ?_
        · cases kev <;> simp
        · simp [StaleReachability, hreach, hreach']
    · rw [promoteValidation_unknown kev hknown', Option.getD_none, ← hvalidation]
      have hfound' : readEvidenceReachability found.evidence ≠ some "not_reachable" :=
        fun heq => hknown' (Or.inr heq)
      simp only [StaleReachability, hreach, hfound', hknown']
      cases kev <;> cases r.kev <;> simp
  · -- not reachable: the KEV flag does not matter
    rw [promoteValidation_not_reachable r.kev hreach] at hown
    have hvalidation := Option.some.inj hown
    rw [promoteValidation_not_reachable kev hreach]
    by_cases hknown' : ReachabilityKnown found.evidence
    · rcases hknown' with hreach' | hreach'
      · rw [promoteValidation_reachable kev hreach']
        refine iff_of_false ?_ ?_
        · cases kev <;> simp
        · simp [StaleReachability, hreach, hreach']
      · rw [promoteValidation_not_reachable kev hreach']
        refine iff_of_true rfl ?_
        simp [StaleReachability, hreach, hreach']
    · rw [promoteValidation_unknown kev hknown', Option.getD_none, ← hvalidation]
      refine iff_of_true rfl ?_
      have hfound' : readEvidenceReachability found.evidence ≠ some "reachable" :=
        fun heq => hknown' (Or.inl heq)
      simp [StaleReachability, hreach, hfound']

/-! ## One write -/

/-- A row that was read keeps its scanner type. -/
def SameScanner (_ : FindingKey) (seen current : Option FindingRow) : Prop :=
  ∀ found, seen = some found → ∃ r, current = some r ∧ r.scannerType = found.scannerType

theorem sameScanner_refl (k : FindingKey) (v : Option FindingRow) : SameScanner k v v :=
  fun found hfound => ⟨found, hfound, rfl⟩

theorem sameScanner_trans (k : FindingKey) (v₁ v₂ v₃ : Option FindingRow)
    (h₁₂ : SameScanner k v₁ v₂) (h₂₃ : SameScanner k v₂ v₃) : SameScanner k v₁ v₃ := by
  intro found hfound
  obtain ⟨r₂, hr₂, hsame₂⟩ := h₁₂ found hfound
  obtain ⟨r₃, hr₃, hsame₃⟩ := h₂₃ r₂ hr₂
  exact ⟨r₃, hr₃, hsame₃.trans hsame₂⟩

theorem sameScanner_rowWrite {k : FindingKey} {seen current : Option FindingRow} {tx : FindingTx}
    {r : FindingRow} (h : RowWrite k seen current tx r) : SameScanner k current (some r) := by
  intro found hfound
  refine ⟨r, rfl, ?_⟩
  cases h with
  | create orgId payload row seenAt id hkey => cases hfound
  | refresh orgId payload row seenAt id r₀ hkey => rw [← Option.some.inj hfound]; rfl
  | close orgId payload fingerprints seenAt r₀ hselected => rw [← Option.some.inj hfound]; rfl
  | triage orgId findingId state now r₀ hfound' hid => rw [← Option.some.inj hfound]; rfl
  | sla orgId findingId hours now r₀ hid => rw [← Option.some.inj hfound]; rfl
  | claim orgId findingId now r₀ hid hbreach => rw [← Option.some.inj hfound]; rfl
  | enrich cve patch found' r₀ hseen hreached hid => rw [← Option.some.inj hfound]; rfl

theorem createdRow_consistent (orgId : OrgId) (payload : FindingsReportedPayload)
    (row : CollapsedFinding) (seenAt : Timestamp) (id : Uuid) :
    ValidationConsistent (createdRow orgId payload row seenAt id) := by
  intro hsca hknown
  change row.finding.scannerType = .sca at hsca
  change promoteValidation row.finding.scannerType row.evidence row.finding.kev =
    some ((promoteValidation row.finding.scannerType row.evidence row.finding.kev).getD _)
  rw [hsca]
  exact promoteValidation_eq_some_getD _ hknown _

/-- The update of an ingest, by the scanner type that it reports. -/
theorem refreshedAs_consistent_iff {state : FindingState} {payload : FindingsReportedPayload}
    {row : CollapsedFinding} {seenAt : Timestamp} {r : FindingRow} :
    ValidationConsistent (refreshedAs state payload row seenAt r) ↔
      ¬ (row.finding.scannerType ≠ .sca ∧ r.scannerType = .sca ∧ ReachabilityKnown row.evidence ∧
        promoteValidation .sca row.evidence row.finding.kev ≠ some r.validation) := by
  have hunfold : ValidationConsistent (refreshedAs state payload row seenAt r) ↔
      (r.scannerType = .sca → ReachabilityKnown row.evidence →
        promoteValidation r.scannerType row.evidence row.finding.kev =
          some ((promoteValidation row.finding.scannerType row.evidence row.finding.kev).getD
            r.validation)) := Iff.rfl
  rw [hunfold]
  by_cases htype : row.finding.scannerType = .sca
  · -- evidence, KEV flag and validation are written together
    refine iff_of_true ?_ (fun hspoils => hspoils.1 htype)
    intro hsca hknown
    rw [hsca, htype]
    exact promoteValidation_eq_some_getD _ hknown _
  · -- evidence and KEV flag are written, the validation stays
    have hnone : promoteValidation row.finding.scannerType row.evidence row.finding.kev = none :=
      if_neg htype
    rw [hnone, Option.getD_none]
    constructor
    · rintro hconsistent ⟨-, hsca, hknown, hne⟩
      have heq := hconsistent hsca hknown
      rw [hsca] at heq
      exact hne heq
    · intro hnot hsca hknown
      by_contra hne
      rw [hsca] at hne
      exact hnot ⟨htype, hsca, hknown, hne⟩

/-- The update of an enrichment. -/
theorem enriched_consistent_iff {patch : IntelPatch} {found r : FindingRow}
    (hsame : r.scannerType = found.scannerType) (hr : ValidationConsistent r) :
    ValidationConsistent ((findingIntelPatch found patch).apply r) ↔
      ¬ (r.scannerType = .sca ∧ ∃ kev, patch.kev = some kev ∧ StaleReachability found r kev) := by
  cases hkev : patch.kev with
  | none =>
      -- without a KEV change the patch has no validation
      refine iff_of_true ?_ ?_
      · have happly : ValidationConsistent ((findingIntelPatch found patch).apply r) ↔
            ValidationConsistent r := by
          unfold ValidationConsistent
          simp [FindingIntelPatch.apply, findingIntelPatch, hkev]
        exact happly.mpr hr
      · rintro ⟨-, kev, heq, -⟩
        cases heq
  | some kev =>
      have hunfold : ValidationConsistent ((findingIntelPatch found patch).apply r) ↔
          (r.scannerType = .sca → ReachabilityKnown r.evidence →
            promoteValidation r.scannerType r.evidence kev =
              some ((promoteValidation found.scannerType found.evidence kev).getD
                r.validation)) := by
        unfold ValidationConsistent
        simp [FindingIntelPatch.apply, findingIntelPatch, hkev]
      rw [hunfold]
      constructor
      · rintro hconsistent ⟨hsca, kev', heq, hstale⟩
        obtain rfl := Option.some.inj heq
        have hknown : ReachabilityKnown r.evidence := hstale.imp And.left And.left
        have hvalid := hconsistent hsca hknown
        rw [hsca] at hvalid
        exact (promoted_found_iff hsca (hsame ▸ hsca) hr hknown kev).mp hvalid hstale
      · intro hnot hsca hknown
        rw [hsca]
        refine (promoted_found_iff hsca (hsame ▸ hsca) hr hknown kev).mpr ?_
        exact fun hstale => hnot ⟨hsca, kev, rfl, hstale⟩

/-- A write over a consistent row leaves a consistent one precisely when it does not spoil
it. -/
theorem rowWrite_consistent_iff {k : FindingKey} {seen : Option FindingRow} {r₀ r : FindingRow}
    {tx : FindingTx} (h : RowWrite k seen (some r₀) tx r) (hseen : SameScanner k seen (some r₀))
    (hr₀ : ValidationConsistent r₀) : ValidationConsistent r ↔ ¬ Spoils tx seen r₀ := by
  cases h with
  | refresh orgId payload row seenAt id r₀ hkey => exact refreshedAs_consistent_iff
  | close orgId payload fingerprints seenAt r₀ hselected => exact iff_of_true hr₀ (fun h => h)
  | triage orgId findingId state now r₀ hfound hid => exact iff_of_true hr₀ (fun h => h)
  | sla orgId findingId hours now r₀ hid => exact iff_of_true hr₀ (fun h => h)
  | claim orgId findingId now r₀ hid hbreach => exact iff_of_true hr₀ (fun h => h)
  | enrich cve patch found r₀ hfound hreached hid =>
      subst hfound
      obtain ⟨r', hr', hsame⟩ := hseen found rfl
      obtain rfl := Option.some.inj hr'
      exact enriched_consistent_iff hsame hr₀

/-! ## Runs -/

/-- The locks are in line, and rows keep their scanner type. -/
structure Tracked (w : FindingTable) : Prop where
  coherent : TxTable.Coherent findingWriters w
  scanner : TxTable.Tracks SameScanner w

theorem tracked_empty : Tracked emptyTable where
  coherent := TxTable.coherent_ofRows findingWriters _
  scanner := TxTable.tracks_ofRows _

variable {w : FindingTable}

theorem Tracked.step (h : Tracked w) (e : FindingEvent) :
    Tracked (TxTable.step findingWriters w e) where
  coherent := h.coherent.step e
  scanner := by
    refine h.scanner.step h.coherent sameScanner_refl sameScanner_trans ?_ e
    intro tx k seen current v hwrites
    obtain ⟨r, rfl, hwrite⟩ := findingWriters_cases hwrites
    exact sameScanner_rowWrite hwrite

/-- A commit of no spoiling write leaves every row consistent, and a spoiling one does not. -/
theorem Tracked.commit_iff (h : Tracked w) (hrows : RowsConsistent w) (id : Nat) :
    RowsConsistent (TxTable.step findingWriters w (.commit id)) ↔
      ¬ SpoilsValidation w (.commit id) := by
  constructor
  · rintro hafter ⟨id', k, tx, progress, r₀, heq, htx, hheld, hr₀, hspoils⟩
    obtain rfl := TxEvent.commit.inj heq
    rcases h.coherent.commit_cases id k with ⟨hfree, -⟩ | ⟨tx', progress', v, -, htx', hv, -, hnew⟩
    · rw [hfree] at hheld
      cases hheld
    · rw [htx] at htx'
      obtain ⟨rfl, rfl⟩ := Prod.mk.inj (Option.some.inj htx')
      obtain ⟨r, rfl, hwrite⟩ := findingWriters_cases hv
      rw [hr₀] at hwrite
      have hseen := h.scanner.seenAt sameScanner_refl htx k
      rw [hr₀] at hseen
      exact (rowWrite_consistent_iff hwrite hseen (hrows k r₀ hr₀)).mp (hafter k r hnew) hspoils
  · intro hnot k r hr
    rcases h.coherent.commit_cases id k with ⟨-, hsame⟩ | ⟨tx, progress, v, hwritten, htx, hv, -,
      hnew⟩
    · rw [hsame] at hr
      exact hrows k r hr
    · obtain ⟨r', rfl, hwrite⟩ := findingWriters_cases hv
      rw [hnew] at hr
      obtain rfl := Option.some.inj hr
      cases hr₀ : w.committed k with
      | none =>
          rw [hr₀] at hwrite
          cases hwrite with
          | create orgId payload row seenAt id' hkey => exact createdRow_consistent _ _ _ _ _
      | some r₀ =>
          rw [hr₀] at hwrite
          have hseen := h.scanner.seenAt sameScanner_refl htx k
          rw [hr₀] at hseen
          refine (rowWrite_consistent_iff hwrite hseen (hrows k r₀ hr₀)).mpr ?_
          intro hspoils
          exact hnot ⟨id, k, tx, progress, r₀, rfl, htx, VersionedRow.heldBy_of_written hwritten,
            hr₀, hspoils⟩

/-- **Validation, evidence and KEV.**  From an empty table, in every state of a run, those
in which no call is in progress among them, every committed SCA row whose evidence has a
verdict carries the validation of its own evidence and KEV flag, precisely when no
enrichment commits a KEV change over a row whose reachability has changed since it was
found, and no ingest reports another scanner's finding under an SCA row's fingerprint. -/
theorem validation_consistent_iff (es : List FindingEvent) :
    (∀ w ∈ (TxTable.system findingWriters).states emptyTable es, RowsConsistent w) ↔
      (TxTable.system findingWriters).AllSteps (fun w e => ¬ SpoilsValidation w e)
        emptyTable es := by
  refine System.forall_states_iff_allSteps (TxTable.system findingWriters) (I := Tracked)
    ?_ ?_ tracked_empty ?_ ?_
  · intro w e h _
    exact h.step e
  · intro w e h hrows _
    by_cases hcommit : ∃ id, e = .commit id
    · obtain ⟨id, rfl⟩ := hcommit
      exact h.commit_iff hrows id
    · have hne : ∀ id, e ≠ .commit id := fun id heq => hcommit ⟨id, heq⟩
      refine iff_of_true ?_ ?_
      · intro k r hr
        change (TxTable.step findingWriters w e).committed k = some r at hr
        rw [TxTable.committed_step w hne] at hr
        exact hrows k r hr
      · rintro ⟨id, -, -, -, -, heq, -⟩
        exact hne id heq
  · intro k r hr
    cases hr
  · exact System.legal_of_forall_allowed (TxTable.system findingWriters)
      (fun _ _ => trivial) emptyTable es

/-- A propagation finds a reachable finding, an ingest reports it as not reachable, and the
propagation makes it exploitable. -/
theorem stale_evidence_exploitable :
    ¬ ∀ es : List FindingEvent,
      ∀ w ∈ (TxTable.system findingWriters).states emptyTable es,
        Quiescent w → RowsConsistent w := by
  intro hall
  let finding (reachability : String) : RawFinding :=
    { externalId := "CVE-1", scannerType := .sca, scannerName := "sca", title := "lodash"
      severity := .high, identifiers := [⟨"cve", "CVE-1"⟩]
      evidence := [("reachability", .str reachability)] }
  let k : FindingKey := ("acme", "fp")
  let ingest (id : Nat) (reachability : String) : List FindingEvent :=
    [.start id (.report "acme" ⟨"s", "j", "a", .sca, none, [finding reachability]⟩
        ⟨"fp", finding reachability, [], [("reachability", .str reachability)]⟩ 0 "f"),
      .find id, .write id k, .commit id]
  let es : List FindingEvent :=
    ingest 0 "reachable" ++
      [.start 1 (.enrich "CVE-1" { kev := some true }
          { kev := some true, validation := some .exploitable }), .find 1] ++
      ingest 0 "not_reachable" ++ [.write 1 k, .commit 1]
  have hrow : (((TxTable.system findingWriters).run emptyTable es).committed k).any (fun r =>
      decide (r.scannerType = .sca) &&
        decide (readEvidenceReachability r.evidence = some "not_reachable") &&
          decide (r.validation = .exploitable)) = true := by decide +kernel
  obtain ⟨r, hr, hspoilt⟩ := (Option.any_eq_true _ _).mp hrow
  simp only [Bool.and_eq_true, decide_eq_true_eq] at hspoilt
  obtain ⟨⟨hsca, hreach⟩, hexploitable⟩ := hspoilt
  have hquiescent : Quiescent ((TxTable.system findingWriters).run emptyTable es) := by
    intro id
    match id with
    | 0 => exact Option.isNone_iff_eq_none.mp (by decide +kernel)
    | 1 => exact Option.isNone_iff_eq_none.mp (by decide +kernel)
    | n + 2 =>
        refine TxTable.txs_run_eq_none rfl ?_
        simp [es, ingest]
  have hconsistent := hall es _ (System.run_mem_states _ _ _) hquiescent k r hr hsca (Or.inr hreach)
  rw [hsca, promoteValidation_not_reachable r.kev hreach, hexploitable] at hconsistent
  cases hconsistent

end Intel
end Ctem
