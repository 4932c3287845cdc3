import Ctem.Foundation.Redelivery
import Ctem.Findings.Ingest

/-!
# Redelivery of a batch

An ingest can stop between any two of its transactions, and the batch is delivered
again.  All its transactions are about single findings, so the argument is about one key
at a time:

* `reportEffect` and `closeEffect` are what the transaction of a row, and the closing
  step, make of the finding with a key.
* `attempt_reported` and its siblings say which of them an ingest that was broken off
  has had on a key.
* `untimed` forgets what depends on when an attempt ran; both effects are `Repeatable`
  up to it.
-/

namespace Ctem
namespace Findings

open Foundation Contracts

/-! ## The two effects on a finding -/

section Effects

variable (orgId : OrgId) (payload : FindingsReportedPayload)

/-- What the transaction of a row makes of the finding with its key. -/
def reportEffect (row : CollapsedFinding) (seenAt : Timestamp) (id : Uuid)
    (found : Option FindingRow) : FindingRow :=
  match found with
  | some r => refreshedRow payload row seenAt r
  | none => createdRow orgId payload row seenAt id

/-- What the closing step makes of a finding. -/
def closeEffect (fingerprints : List String) (seenAt : Timestamp) (r : FindingRow) : FindingRow :=
  if unreported orgId payload.assetId payload.scannerType fingerprints r then autoResolved seenAt r
  else r

variable {orgId payload} {db db' : FindingsDb}

theorem find?_upsertFinding {row : CollapsedFinding} {seenAt : Timestamp} {id : Uuid}
    (h : upsertFinding db orgId payload row seenAt id = some db') :
    db'.findings.find? (orgId, row.fingerprint) =
      some (reportEffect orgId payload row seenAt id
        (db.findings.find? (orgId, row.fingerprint))) := by
  rw [Table.find?_eq_some]
  cases hfind : db.findings.find? (orgId, row.fingerprint) with
  | some r =>
      obtain ⟨hr, hkey⟩ := Table.find?_eq_some.mp hfind
      have hafter : refreshedRow payload row seenAt r ∈ db'.findings :=
        (mem_upsertFinding h).mpr (Or.inr (Or.inl ⟨r, hr, hkey, rfl⟩))
      exact ⟨hafter, ((refreshedRow_keepsIdentity payload row seenAt).key r).trans hkey⟩
  | none =>
      have hfree := Table.find?_eq_none.mp hfind
      have hafter : createdRow orgId payload row seenAt id ∈ db'.findings :=
        (mem_upsertFinding h).mpr (Or.inr (Or.inr ⟨hfree, rfl⟩))
      exact ⟨hafter, rfl⟩

theorem find?_upsertFinding_ne {row : CollapsedFinding} {seenAt : Timestamp} {id : Uuid}
    (h : upsertFinding db orgId payload row seenAt id = some db') {key : OrgId × String}
    (hne : key ≠ (orgId, row.fingerprint)) :
    db'.findings.find? key = db.findings.find? key := by
  have hsame : ∀ r, r ∈ db'.findings ∧ r.key = key ↔ r ∈ db.findings ∧ r.key = key := by
    intro r
    rw [mem_upsertFinding h]
    constructor
    · intro hafter
      obtain ⟨hr, hkey⟩ := hafter
      rcases hr with ⟨hr, -⟩ | ⟨r₀, -, hkey₀, rfl⟩ | ⟨-, rfl⟩
      · exact ⟨hr, hkey⟩
      · have hkept := (refreshedRow_keepsIdentity payload row seenAt).key r₀
        exact absurd (hkey.symm.trans (hkept.trans hkey₀)) hne
      · exact absurd hkey.symm hne
    · intro hbefore
      obtain ⟨hr, hkey⟩ := hbefore
      exact ⟨Or.inl ⟨hr, fun heq => hne (hkey.symm.trans heq)⟩, hkey⟩
  cases hfind : db.findings.find? key with
  | some r => exact Table.find?_eq_some.mpr ((hsame r).mpr (Table.find?_eq_some.mp hfind))
  | none =>
      rw [Table.find?_eq_none]
      intro r hr hkey
      exact Table.find?_eq_none.mp hfind r ((hsame r).mp ⟨hr, hkey⟩).1 hkey

theorem find?_closeUnreported (fingerprints : List String) (seenAt : Timestamp)
    (key : OrgId × String) :
    (closeUnreported db orgId payload fingerprints seenAt).findings.find? key =
      (db.findings.find? key).map (closeEffect orgId payload fingerprints seenAt) :=
  Table.find?_updateMany _ _ _ (autoResolved_keepsIdentity seenAt).key _

/-- The closing step leaves what the batch carries, and other organisations. -/
theorem closeEffect_of_not_unreported {fingerprints : List String} {seenAt : Timestamp}
    {r : FindingRow} (h : r.orgId ≠ orgId ∨ r.fingerprint ∈ fingerprints) :
    closeEffect orgId payload fingerprints seenAt r = r := by
  unfold closeEffect unreported
  rcases h with horg | hreported
  · simp [horg]
  · simp [hreported]

end Effects

/-! ## What an ingest that was broken off has done -/

namespace IngestRun

variable {db db' : FindingsDb} {run run' : IngestRun}

/-- The fingerprint's row is still to be written. -/
def pending (run : IngestRun) (fingerprint : String) : Prop :=
  fingerprint ∈ run.rows.map CollapsedFinding.fingerprint

/-- An ingest goes on with one transaction, or stays where it is. -/
theorem advance_cases (db : FindingsDb) (run : IngestRun) (id : Uuid) :
    advance db run id = (db, run) ∨
      (∃ row rest db', run.rows = row :: rest ∧
        upsertFinding db run.orgId run.payload row run.seenAt id = some db' ∧
        advance db run id = (db', { run with rows := rest })) ∨
      (run.rows = [] ∧ run.closed = false ∧ advance db run id =
        (closeUnreported db run.orgId run.payload run.fingerprints run.seenAt,
          { run with closed := true })) := by
  unfold advance
  cases hrows : run.rows with
  | cons row rest =>
      simp only
      cases hupsert : upsertFinding db run.orgId run.payload row run.seenAt id with
      | none => exact Or.inl rfl
      | some db' => exact Or.inr (Or.inl ⟨row, rest, db', rfl, hupsert, rfl⟩)
  | nil =>
      simp only
      cases hclosed : run.closed with
      | true => exact Or.inl rfl
      | false => exact Or.inr (Or.inr ⟨trivial, rfl, rfl⟩)

/-- Other organisations' findings are left alone. -/
theorem advanceAll_otherOrg (ids : List Uuid) (hrun : advanceAll db run ids = (db', run'))
    {key : OrgId × String} (horg : key.1 ≠ run.orgId) :
    db'.findings.find? key = db.findings.find? key := by
  induction ids generalizing db run with
  | nil =>
      obtain ⟨rfl, -⟩ := Prod.mk.inj hrun
      rfl
  | cons id ids ih =>
      change advanceAll (advance db run id).1 (advance db run id).2 ids = (db', run') at hrun
      rcases advance_cases db run id with hstay | ⟨row, rest, db₁, -, hupsert, hnext⟩ |
        ⟨-, -, hnext⟩
      · rw [hstay] at hrun
        exact ih hrun horg
      · rw [hnext] at hrun
        refine (ih hrun horg).trans (find?_upsertFinding_ne hupsert ?_)
        intro heq
        exact horg (by rw [heq])
      · rw [hnext] at hrun
        rw [ih hrun horg, find?_closeUnreported]
        cases hfind : db.findings.find? key with
        | none => rfl
        | some r =>
            have hkey : r.key = key := Table.find?_key hfind
            have hother : r.orgId ≠ run.orgId := by
              intro heq
              exact horg (by rw [← hkey]; exact heq)
            rw [Option.map_some, closeEffect_of_not_unreported (Or.inl hother)]

/-- A fingerprint of the batch that has no row to be written is left alone. -/
theorem advanceAll_written (ids : List Uuid) (hrun : advanceAll db run ids = (db', run'))
    {fingerprint : String} (hreported : fingerprint ∈ run.fingerprints)
    (hwritten : ¬ run.pending fingerprint) :
    db'.findings.find? (run.orgId, fingerprint) = db.findings.find? (run.orgId, fingerprint) ∧
      ¬ run'.pending fingerprint := by
  induction ids generalizing db run with
  | nil =>
      obtain ⟨rfl, rfl⟩ := Prod.mk.inj hrun
      exact ⟨rfl, hwritten⟩
  | cons id ids ih =>
      change advanceAll (advance db run id).1 (advance db run id).2 ids = (db', run') at hrun
      rcases advance_cases db run id with hstay | ⟨row, rest, db₁, hrows, hupsert, hnext⟩ |
        ⟨hrows, -, hnext⟩
      · rw [hstay] at hrun
        exact ih hrun hreported hwritten
      · rw [hnext] at hrun
        unfold pending at hwritten
        rw [hrows, List.map_cons, List.mem_cons, not_or] at hwritten
        obtain ⟨hrest, hpending⟩ := ih hrun hreported hwritten.2
        refine ⟨hrest.trans (find?_upsertFinding_ne hupsert ?_), hpending⟩
        intro heq
        exact hwritten.1 (Prod.mk.inj heq).2
      · rw [hnext] at hrun
        obtain ⟨hrest, hpending⟩ := ih hrun hreported (by simpa [pending] using hwritten)
        refine ⟨hrest.trans ?_, hpending⟩
        rw [find?_closeUnreported]
        cases hfind : db.findings.find? (run.orgId, fingerprint) with
        | none => rfl
        | some r =>
            have hkey : r.key = (run.orgId, fingerprint) := Table.find?_key hfind
            have hcarried : r.fingerprint ∈ run.fingerprints := by
              rw [show r.fingerprint = fingerprint from congrArg Prod.snd hkey]
              exact hreported
            rw [Option.map_some, closeEffect_of_not_unreported (Or.inr hcarried)]

/-- A fingerprint of the batch is reported once its row is written, and left alone until
then. -/
theorem advanceAll_reported (ids : List Uuid) (hrun : advanceAll db run ids = (db', run'))
    (hnodup : (run.rows.map CollapsedFinding.fingerprint).Nodup)
    (hrows : ∀ row ∈ run.rows, row.fingerprint ∈ run.fingerprints) {row : CollapsedFinding}
    (hrow : row ∈ run.rows) :
    (run'.pending row.fingerprint ∧ db'.findings.find? (run.orgId, row.fingerprint) =
      db.findings.find? (run.orgId, row.fingerprint)) ∨
    (¬ run'.pending row.fingerprint ∧ ∃ id, db'.findings.find? (run.orgId, row.fingerprint) =
      some (reportEffect run.orgId run.payload row run.seenAt id
        (db.findings.find? (run.orgId, row.fingerprint)))) := by
  induction ids generalizing db run with
  | nil =>
      obtain ⟨rfl, rfl⟩ := Prod.mk.inj hrun
      exact Or.inl ⟨List.mem_map_of_mem hrow, rfl⟩
  | cons id ids ih =>
      change advanceAll (advance db run id).1 (advance db run id).2 ids = (db', run') at hrun
      rcases advance_cases db run id with hstay | ⟨row₁, rest, db₁, hfirst, hupsert, hnext⟩ |
        ⟨hnone, -, -⟩
      · rw [hstay] at hrun
        exact ih hrun hnodup hrows hrow
      · rw [hnext] at hrun
        rw [hfirst, List.map_cons, List.nodup_cons] at hnodup
        have hrestRows : ∀ r ∈ rest, r.fingerprint ∈ run.fingerprints := by
          intro r hr
          exact hrows r (hfirst ▸ List.mem_cons_of_mem _ hr)
        rw [hfirst] at hrow
        rcases List.mem_cons.mp hrow with rfl | hlater
        · -- the row is written now, and nothing touches it again
          obtain ⟨hkept, hpending⟩ := advanceAll_written ids hrun
            (hrows row (hfirst ▸ List.mem_cons_self)) hnodup.1
          exact Or.inr ⟨hpending, id, hkept.trans (find?_upsertFinding hupsert)⟩
        · have hne : row.fingerprint ≠ row₁.fingerprint := by
            intro heq
            exact hnodup.1 (heq ▸ List.mem_map_of_mem hlater)
          have hkept : db₁.findings.find? (run.orgId, row.fingerprint) =
              db.findings.find? (run.orgId, row.fingerprint) := by
            apply find?_upsertFinding_ne hupsert
            intro heq
            exact hne (Prod.mk.inj heq).2
          have hrest := ih hrun hnodup.2 hrestRows hlater
          simp only [hkept] at hrest
          exact hrest
      · rw [hnone] at hrow
        exact absurd hrow List.not_mem_nil

/-- A fingerprint that the batch does not carry is closed with the closing step, and left
alone until then. -/
theorem advanceAll_unreported (ids : List Uuid) (hrun : advanceAll db run ids = (db', run'))
    (hrows : ∀ row ∈ run.rows, row.fingerprint ∈ run.fingerprints) (hopen : run.closed = false)
    {fingerprint : String} (hunreported : fingerprint ∉ run.fingerprints) :
    db'.findings.find? (run.orgId, fingerprint) =
      if run'.closed then (db.findings.find? (run.orgId, fingerprint)).map
        (closeEffect run.orgId run.payload run.fingerprints run.seenAt)
      else db.findings.find? (run.orgId, fingerprint) := by
  induction ids generalizing db run with
  | nil =>
      obtain ⟨rfl, rfl⟩ := Prod.mk.inj hrun
      rw [hopen]
      rfl
  | cons id ids ih =>
      change advanceAll (advance db run id).1 (advance db run id).2 ids = (db', run') at hrun
      rcases advance_cases db run id with hstay | ⟨row, rest, db₁, hfirst, hupsert, hnext⟩ |
        ⟨hnone, -, hnext⟩
      · rw [hstay] at hrun
        exact ih hrun hrows hopen hunreported
      · rw [hnext] at hrun
        have hrest := ih hrun (fun r hr => hrows r (hfirst ▸ List.mem_cons_of_mem _ hr)) hopen
          hunreported
        have hkept : db₁.findings.find? (run.orgId, fingerprint) =
            db.findings.find? (run.orgId, fingerprint) := by
          apply find?_upsertFinding_ne hupsert
          intro heq
          have hsame : fingerprint = row.fingerprint := (Prod.mk.inj heq).2
          exact hunreported (hsame ▸ hrows row (hfirst ▸ List.mem_cons_self))
        simp only [hkept] at hrest
        exact hrest
      · -- the closing step, behind which nothing moves
        have hdone : ({ run with closed := true } : IngestRun).finished = true := by
          simp [finished, hnone]
        rw [hnext, advanceAll_finished _ hdone] at hrun
        obtain ⟨rfl, rfl⟩ := Prod.mk.inj hrun
        exact find?_closeUnreported run.fingerprints run.seenAt (run.orgId, fingerprint)

end IngestRun

/-! ## Attempts -/

/-- `db'` is the database behind an attempt to ingest the batch, which may have been
broken off at any point; `run` is how far it got. -/
def AttemptedTo (platform : Platform) (orgId : OrgId) (payload : FindingsReportedPayload)
    (seenAt : Timestamp) (db db' : FindingsDb) (run : IngestRun) : Prop :=
  ∃ ids, IngestRun.advanceAll db (.start platform orgId payload seenAt) ids = (db', run)

section Attempts

variable {platform : Platform} {orgId : OrgId} {payload : FindingsReportedPayload}
  {seenAt : Timestamp} {db db' : FindingsDb} {run : IngestRun}

theorem attempt_otherOrg (h : AttemptedTo platform orgId payload seenAt db db' run)
    {key : OrgId × String} (horg : key.1 ≠ orgId) :
    db'.findings.find? key = db.findings.find? key := by
  obtain ⟨ids, hrun⟩ := h
  exact IngestRun.advanceAll_otherOrg ids hrun horg

theorem attempt_reported (h : AttemptedTo platform orgId payload seenAt db db' run)
    {row : CollapsedFinding} (hrow : row ∈ collapseScan platform payload.assetId payload.findings) :
    (run.pending row.fingerprint ∧ db'.findings.find? (orgId, row.fingerprint) =
      db.findings.find? (orgId, row.fingerprint)) ∨
    (¬ run.pending row.fingerprint ∧ ∃ id, db'.findings.find? (orgId, row.fingerprint) =
      some (reportEffect orgId payload row seenAt id
        (db.findings.find? (orgId, row.fingerprint)))) := by
  obtain ⟨ids, hrun⟩ := h
  exact IngestRun.advanceAll_reported ids hrun
    (nodup_fingerprints_collapseScan platform payload.assetId payload.findings)
    (fun r hr => List.mem_map_of_mem hr) hrow

theorem attempt_unreported (h : AttemptedTo platform orgId payload seenAt db db' run)
    {fingerprint : String} (hunreported : fingerprint ∉
      (collapseScan platform payload.assetId payload.findings).map CollapsedFinding.fingerprint) :
    db'.findings.find? (orgId, fingerprint) =
      if run.closed then (db.findings.find? (orgId, fingerprint)).map
        (closeEffect orgId payload ((collapseScan platform payload.assetId
          payload.findings).map CollapsedFinding.fingerprint) seenAt)
      else db.findings.find? (orgId, fingerprint) := by
  obtain ⟨ids, hrun⟩ := h
  exact IngestRun.advanceAll_unreported ids hrun (fun r hr => List.mem_map_of_mem hr) rfl hunreported

theorem Ingested.attempted (h : Ingested platform orgId payload seenAt db db') :
    ∃ run, AttemptedTo platform orgId payload seenAt db db' run ∧
      (∀ fingerprint, ¬ run.pending fingerprint) ∧ run.closed = true := by
  obtain ⟨ids, run, hrun, hfinished⟩ := h
  unfold IngestRun.finished at hfinished
  simp only [Bool.and_eq_true, List.isEmpty_iff] at hfinished
  obtain ⟨hrows, hclosed⟩ := hfinished
  refine ⟨run, ⟨ids, hrun⟩, ?_, hclosed⟩
  intro fingerprint hpending
  unfold IngestRun.pending at hpending
  rw [hrows] at hpending
  exact List.not_mem_nil hpending

end Attempts

/-! ## The effects are repeatable -/

/-- The row without its generated id and the times an attempt writes. -/
def FindingRow.untimed (r : FindingRow) : FindingRow :=
  { r with
    id := ""
    firstSeenAt := 0
    lastSeenAt := 0
    resolvedAt := r.resolvedAt.map fun _ => 0 }

/-- The same finding, or none, up to ids and times. -/
def SameUntimed (found found' : Option FindingRow) : Prop :=
  found.map FindingRow.untimed = found'.map FindingRow.untimed

/-- A whole ingest reports a finding of the batch. -/
def Reports (orgId : OrgId) (payload : FindingsReportedPayload) (row : CollapsedFinding)
    (found found' : Option FindingRow) : Prop :=
  ∃ seenAt id, found' = some (reportEffect orgId payload row seenAt id found)

/-- A whole ingest closes a finding that the batch does not carry. -/
def Closes (orgId : OrgId) (payload : FindingsReportedPayload) (fingerprints : List String)
    (found found' : Option FindingRow) : Prop :=
  ∃ seenAt, found' = found.map (closeEffect orgId payload fingerprints seenAt)

theorem untimed_refreshedRow (payload : FindingsReportedPayload) (row : CollapsedFinding)
    (seenAt : Timestamp) (r : FindingRow) :
    (refreshedRow payload row seenAt r).untimed =
      (refreshedRow payload row 0 r.untimed).untimed := by
  unfold refreshedRow FindingRow.untimed
  by_cases hresolved : r.state = .resolved
  · simp [hresolved]
  · simp [hresolved, Function.comp_def]

/-- A report is a function of what is the same about the finding. -/
theorem untimed_reportEffect_congr {orgId : OrgId} {payload : FindingsReportedPayload}
    {row : CollapsedFinding} {seenAt seenAt' : Timestamp} {id id' : Uuid}
    {found found' : Option FindingRow} (h : SameUntimed found found') :
    (reportEffect orgId payload row seenAt id found).untimed =
      (reportEffect orgId payload row seenAt' id' found').untimed := by
  cases found with
  | none =>
      cases found' with
      | none => rfl
      | some r' => cases h
  | some r =>
      cases found' with
      | none => cases h
      | some r' =>
          have hsame : r.untimed = r'.untimed := Option.some.inj h
          change (refreshedRow payload row seenAt r).untimed =
            (refreshedRow payload row seenAt' r').untimed
          rw [untimed_refreshedRow, hsame, ← untimed_refreshedRow]

/-- Reporting a finding that has just been reported changes nothing. -/
theorem untimed_reportEffect_again (orgId : OrgId) (payload : FindingsReportedPayload)
    (row : CollapsedFinding) (seenAt seenAt' : Timestamp) (id id' : Uuid)
    (found : Option FindingRow) :
    (reportEffect orgId payload row seenAt' id'
      (some (reportEffect orgId payload row seenAt id found))).untimed =
      (reportEffect orgId payload row seenAt id found).untimed := by
  cases found with
  | none =>
      unfold reportEffect refreshedRow createdRow FindingRow.untimed
      simp only [reduceCtorEq, if_false]
      cases promoteValidation row.finding.scannerType row.evidence row.finding.kev <;> rfl
  | some r =>
      unfold reportEffect refreshedRow FindingRow.untimed
      by_cases hresolved : r.state = .resolved
      · simp only [hresolved, if_true, reduceCtorEq, if_false]
        cases promoteValidation row.finding.scannerType row.evidence row.finding.kev <;> rfl
      · simp only [hresolved, if_false]
        cases promoteValidation row.finding.scannerType row.evidence row.finding.kev <;> rfl

theorem repeatable_reports (orgId : OrgId) (payload : FindingsReportedPayload)
    (row : CollapsedFinding) : Repeatable SameUntimed (Reports orgId payload row) where
  congr := by
    intro a a' b b' hsame heffect heffect'
    obtain ⟨seenAt, id, rfl⟩ := heffect
    obtain ⟨seenAt', id', rfl⟩ := heffect'
    exact congrArg some (untimed_reportEffect_congr hsame)
  again := by
    intro a b c d heffect hsame heffect'
    obtain ⟨seenAt, id, rfl⟩ := heffect
    obtain ⟨seenAt', id', rfl⟩ := heffect'
    have hagain := untimed_reportEffect_again orgId payload row seenAt seenAt' id id' a
    exact congrArg some (hagain.symm.trans (untimed_reportEffect_congr hsame))

theorem untimed_closeEffect (orgId : OrgId) (payload : FindingsReportedPayload)
    (fingerprints : List String) (seenAt : Timestamp) (r : FindingRow) :
    (closeEffect orgId payload fingerprints seenAt r).untimed =
      (closeEffect orgId payload fingerprints 0 r.untimed).untimed := by
  have hselect : unreported orgId payload.assetId payload.scannerType fingerprints r.untimed =
      unreported orgId payload.assetId payload.scannerType fingerprints r := rfl
  unfold closeEffect
  rw [hselect]
  split
  · rfl
  · unfold FindingRow.untimed
    cases r.resolvedAt <;> rfl

/-- The closing step selects none of the findings it has closed. -/
theorem closeEffect_again (orgId : OrgId) (payload : FindingsReportedPayload)
    (fingerprints : List String) (seenAt seenAt' : Timestamp) (r : FindingRow) :
    closeEffect orgId payload fingerprints seenAt'
      (closeEffect orgId payload fingerprints seenAt r) =
      closeEffect orgId payload fingerprints seenAt r := by
  by_cases hselected : unreported orgId payload.assetId payload.scannerType fingerprints r = true
  · have hclosed : unreported orgId payload.assetId payload.scannerType fingerprints
        (autoResolved seenAt r) = false := by
      unfold unreported autoResolved
      simp [FindingState.unresolved]
    unfold closeEffect
    simp [hselected, hclosed]
  · unfold closeEffect
    simp [hselected]

theorem repeatable_closes (orgId : OrgId) (payload : FindingsReportedPayload)
    (fingerprints : List String) : Repeatable SameUntimed (Closes orgId payload fingerprints) where
  congr := by
    intro a a' b b' hsame heffect heffect'
    obtain ⟨seenAt, rfl⟩ := heffect
    obtain ⟨seenAt', rfl⟩ := heffect'
    cases a with
    | none =>
        cases a' with
        | none => rfl
        | some r' => cases hsame
    | some r =>
        cases a' with
        | none => cases hsame
        | some r' =>
            have hrows : r.untimed = r'.untimed := Option.some.inj hsame
            have hclosed : (closeEffect orgId payload fingerprints seenAt r).untimed =
                (closeEffect orgId payload fingerprints seenAt' r').untimed := by
              rw [untimed_closeEffect, hrows, ← untimed_closeEffect]
            exact congrArg some hclosed
  again := by
    intro a b c d heffect hsame heffect'
    obtain ⟨seenAt, rfl⟩ := heffect
    obtain ⟨seenAt', rfl⟩ := heffect'
    cases a with
    | none =>
        cases c with
        | none => rfl
        | some r => cases hsame
    | some r =>
        cases c with
        | none => cases hsame
        | some r' =>
            have hrows : (closeEffect orgId payload fingerprints seenAt r).untimed = r'.untimed :=
              Option.some.inj hsame
            have hclosed : (closeEffect orgId payload fingerprints seenAt r).untimed =
                (closeEffect orgId payload fingerprints seenAt' r').untimed := by
              conv_lhs => rw [← closeEffect_again orgId payload fingerprints seenAt seenAt']
              rw [untimed_closeEffect, hrows, ← untimed_closeEffect]
            exact congrArg some hclosed

/-! ## Redelivery -/

/-- An attempt that may have been broken off at any point. -/
def BrokenOff (platform : Platform) (orgId : OrgId) (payload : FindingsReportedPayload)
    (db db' : FindingsDb) : Prop :=
  ∃ seenAt run, AttemptedTo platform orgId payload seenAt db db' run

section Redelivered

variable {platform : Platform} {orgId : OrgId} {payload : FindingsReportedPayload}
  {db db' dbc : FindingsDb}

theorem attempted_reports {row : CollapsedFinding}
    (hrow : row ∈ collapseScan platform payload.assetId payload.findings)
    (h : BrokenOff platform orgId payload db db') :
    Attempted (Reports orgId payload row) (db.findings.find? (orgId, row.fingerprint))
      (db'.findings.find? (orgId, row.fingerprint)) := by
  obtain ⟨seenAt, run, hattempt⟩ := h
  rcases attempt_reported hattempt hrow with ⟨-, hsame⟩ | ⟨-, id, heffect⟩
  · exact Or.inl hsame
  · exact Or.inr ⟨seenAt, id, heffect⟩

theorem attempted_closes {fingerprint : String}
    (hunreported : fingerprint ∉ (collapseScan platform payload.assetId payload.findings).map
      CollapsedFinding.fingerprint) (h : BrokenOff platform orgId payload db db') :
    Attempted (Closes orgId payload ((collapseScan platform payload.assetId
      payload.findings).map CollapsedFinding.fingerprint))
      (db.findings.find? (orgId, fingerprint)) (db'.findings.find? (orgId, fingerprint)) := by
  obtain ⟨seenAt, run, hattempt⟩ := h
  have heffect := attempt_unreported hattempt hunreported
  split at heffect
  · exact Or.inr ⟨seenAt, heffect⟩
  · exact Or.inl heffect

theorem ingested_reports {row : CollapsedFinding} {seenAt : Timestamp}
    (hrow : row ∈ collapseScan platform payload.assetId payload.findings)
    (h : Ingested platform orgId payload seenAt db db') :
    Reports orgId payload row (db.findings.find? (orgId, row.fingerprint))
      (db'.findings.find? (orgId, row.fingerprint)) := by
  obtain ⟨run, hattempt, hwritten, -⟩ := h.attempted
  rcases attempt_reported hattempt hrow with ⟨hpending, -⟩ | ⟨-, id, heffect⟩
  · exact absurd hpending (hwritten row.fingerprint)
  · exact ⟨seenAt, id, heffect⟩

theorem ingested_closes {fingerprint : String} {seenAt : Timestamp}
    (hunreported : fingerprint ∉ (collapseScan platform payload.assetId payload.findings).map
      CollapsedFinding.fingerprint) (h : Ingested platform orgId payload seenAt db db') :
    Closes orgId payload ((collapseScan platform payload.assetId payload.findings).map
      CollapsedFinding.fingerprint) (db.findings.find? (orgId, fingerprint))
      (db'.findings.find? (orgId, fingerprint)) := by
  obtain ⟨run, hattempt, -, hclosed⟩ := h.attempted
  have heffect := attempt_unreported hattempt hunreported
  rw [if_pos hclosed] at heffect
  exact ⟨seenAt, heffect⟩

theorem ingested_otherOrg {seenAt : Timestamp} (h : Ingested platform orgId payload seenAt db db')
    {key : OrgId × String} (horg : key.1 ≠ orgId) :
    db'.findings.find? key = db.findings.find? key := by
  obtain ⟨run, hattempt, -⟩ := h.attempted
  exact attempt_otherOrg hattempt horg

/-- An attempt keeps the id of a finding that was there. -/
theorem brokenOff_keepsId (h : BrokenOff platform orgId payload db db') {key : OrgId × String}
    {r : FindingRow} (hr : db.findings.find? key = some r) :
    ∃ r', db'.findings.find? key = some r' ∧ r'.id = r.id := by
  obtain ⟨keyOrg, fingerprint⟩ := key
  by_cases horg : keyOrg = orgId
  · subst horg
    by_cases hreported : fingerprint ∈ (collapseScan platform payload.assetId payload.findings).map
        CollapsedFinding.fingerprint
    · obtain ⟨row, hrow, rfl⟩ := List.mem_map.mp hreported
      rcases attempted_reports hrow h with hsame | ⟨seenAt, id, heffect⟩
      · exact ⟨r, hsame.trans hr, rfl⟩
      · rw [hr] at heffect
        exact ⟨_, heffect, rfl⟩
    · rcases attempted_closes hreported h with hsame | ⟨seenAt, heffect⟩
      · exact ⟨r, hsame.trans hr, rfl⟩
      · rw [hr, Option.map_some] at heffect
        refine ⟨_, heffect, ?_⟩
        unfold closeEffect
        split <;> rfl
  · obtain ⟨seenAt, run, hattempt⟩ := h
    exact ⟨r, (attempt_otherOrg hattempt horg).trans hr, rfl⟩

end Redelivered

namespace ShopScan

/-- SHA-256 on the one text hashed here. -/
def platform : Platform where
  sha256Hex := fun text =>
    if text = "6f1c0b7e-0000-4000-8000-0000000000c1|sca|GHSA-JFH8-C2JP-5V3Q|" ++
        "pkg:npm/log-core@2.14.0" then
      "6316f2da30bd79b9178d3cec7b1a7dcbcff8072054ef3d735a18e38e3ee3e475"
    else ""
  toUpperCase := fun text => String.ofList (text.toList.map Char.toUpper)

def orgId : OrgId := "6f1c0b7e-0000-4000-8000-0000000000a1"

/-- The repository that is scanned. -/
def asset : AssetRow where
  id := "6f1c0b7e-0000-4000-8000-0000000000c1"
  orgId := orgId
  kind := "repository"
  externalKey := "github.com/shop/web"

/-- The database before the first scan. -/
def db : FindingsDb :=
  FindingsDb.ofAssets ⟨[asset], List.nodup_singleton _⟩

/-- A vulnerable dependency of the repository. -/
def finding : RawFinding where
  externalId := "GHSA-jfh8-c2jp-5v3q"
  scannerType := .sca
  scannerName := "ctem-sca"
  title := "GHSA-jfh8-c2jp-5v3q in log-core@2.14.0"
  severity := .critical
  identifiers := [⟨"osv", "GHSA-jfh8-c2jp-5v3q"⟩]
  location := { purl := some "pkg:npm/log-core@2.14.0" }

/-- The batch of a scan of the repository. -/
def batch (scanId : Uuid) (findings : List RawFinding) : FindingsReportedPayload where
  scanId := scanId
  jobId := scanId
  assetId := asset.id
  scannerType := .sca
  artifactKey := none
  findings := findings

/-- The scan that finds it. -/
def found : FindingsReportedPayload :=
  batch "6f1c0b7e-0000-4000-8000-0000000000d1" [finding]

end ShopScan

/-- **Redelivery.**  However often an ingest of the batch was broken off, and wherever,
one that gets through leaves the findings that an uninterrupted ingest leaves, up to
generated ids and the times; a finding that was there keeps its id. -/
theorem redelivered_ingest (platform : Platform) (orgId : OrgId)
    (payload : FindingsReportedPayload) (seenAt seenAt' : Timestamp)
    (db dbc db' db'' : FindingsDb)
    (hbroken : Relation.ReflTransGen (BrokenOff platform orgId payload) db dbc)
    (hredelivered : Ingested platform orgId payload seenAt dbc db')
    (huninterrupted : Ingested platform orgId payload seenAt' db db'') :
    (∀ key, SameUntimed (db'.findings.find? key) (db''.findings.find? key)) ∧
      ∀ r ∈ db.findings, ∃ r' ∈ db'.findings, r'.key = r.key ∧ r'.id = r.id := by
  constructor
  · intro key
    obtain ⟨keyOrg, fingerprint⟩ := key
    by_cases horg : keyOrg = orgId
    · subst horg
      by_cases hreported : fingerprint ∈
          (collapseScan platform payload.assetId payload.findings).map CollapsedFinding.fingerprint
      · obtain ⟨row, hrow, rfl⟩ := List.mem_map.mp hreported
        have hattempts := hbroken.lift (fun d => d.findings.find? (keyOrg, row.fingerprint))
          (fun _ _ h => attempted_reports hrow h)
        have hsame := (repeatable_reports keyOrg payload row).redelivered (fun _ => rfl) hattempts
          (ingested_reports hrow hredelivered) (ingested_reports hrow huninterrupted)
        exact hsame.symm
      · have hattempts := hbroken.lift (fun d => d.findings.find? (keyOrg, fingerprint))
          (fun _ _ h => attempted_closes hreported h)
        have hsame := (repeatable_closes keyOrg payload _).redelivered (fun _ => rfl) hattempts
          (ingested_closes hreported hredelivered) (ingested_closes hreported huninterrupted)
        exact hsame.symm
    · have hattempts : ∀ d, Relation.ReflTransGen (BrokenOff platform orgId payload) db d →
          d.findings.find? (keyOrg, fingerprint) = db.findings.find? (keyOrg, fingerprint) := by
        intro d hd
        induction hd with
        | refl => rfl
        | tail _ hattempt ih =>
            obtain ⟨_, _, hattempt⟩ := hattempt
            exact (attempt_otherOrg hattempt horg).trans ih
      unfold SameUntimed
      rw [ingested_otherOrg hredelivered horg, ingested_otherOrg huninterrupted horg,
        hattempts dbc hbroken]
  · intro r hr
    have hkept : ∀ d, Relation.ReflTransGen (BrokenOff platform orgId payload) db d →
        ∃ r', d.findings.find? r.key = some r' ∧ r'.id = r.id := by
      intro d hd
      induction hd with
      | refl => exact ⟨r, Table.find?_of_mem hr, rfl⟩
      | tail _ hattempt ih =>
          obtain ⟨r₁, hr₁, hid₁⟩ := ih
          obtain ⟨r', hr', hid'⟩ := brokenOff_keepsId hattempt hr₁
          exact ⟨r', hr', hid'.trans hid₁⟩
    obtain ⟨run, hattempt, -⟩ := hredelivered.attempted
    obtain ⟨r', hr', hid⟩ := hkept db' (hbroken.tail ⟨seenAt, run, hattempt⟩)
    obtain ⟨hmem, hkey⟩ := Table.find?_eq_some.mp hr'
    exact ⟨r', hmem, hkey, hid⟩

/-- The first attempt stops behind the row of the finding. -/
theorem redelivered_ingest_shop :
    let dbc := (IngestRun.advanceAll ShopScan.db
      (.start ShopScan.platform ShopScan.orgId ShopScan.found 1) ["f1"]).1
    let db' := (IngestRun.advanceAll dbc
      (.start ShopScan.platform ShopScan.orgId ShopScan.found 2) ["f2", "f3"]).1
    let db'' := (IngestRun.advanceAll ShopScan.db
      (.start ShopScan.platform ShopScan.orgId ShopScan.found 1) ["f1", "f2"]).1
    (∀ key, SameUntimed (db'.findings.find? key) (db''.findings.find? key)) ∧
      ∀ r ∈ ShopScan.db.findings, ∃ r' ∈ db'.findings, r'.key = r.key ∧ r'.id = r.id := by
  intro dbc db' db''
  exact redelivered_ingest ShopScan.platform ShopScan.orgId ShopScan.found 2 1 ShopScan.db dbc db' db''
    (Relation.ReflTransGen.single ⟨1, _, ["f1"], rfl⟩)
    ⟨["f2", "f3"], _, rfl, by decide⟩ ⟨["f1", "f2"], _, rfl, by decide⟩

end Findings
end Ctem
