import Ctem.Findings.FindingsDb
import Ctem.Findings.Normalizer

/-!
# Ingest of a batch

`FindingsService.ingest` collapses a batch, upserts one row for each fingerprint,
each in a transaction of its own, and last resolves every open row of the same
asset and scanner type that the batch does not carry.  An `IngestRun` is an
ingest on its way: the rows it has still to write, and whether its closing step
has run.

* `upsertFinding` is the transaction of one row, `closeUnreported` the closing
  step.
* `IngestRun.advance` is the next transaction of a run.
* `closeUnreported_mem` and `mem_upsertFinding` say which rows there are after a
  transaction.
-/

namespace Ctem
namespace Findings

open Foundation Contracts

/-- The row `ingest` creates for a fingerprint it has never seen. -/
def createdRow (orgId : OrgId) (payload : FindingsReportedPayload) (row : CollapsedFinding)
    (seenAt : Timestamp) (id : Uuid) : FindingRow where
  id := id
  orgId := orgId
  assetId := payload.assetId
  fingerprint := row.fingerprint
  scannerType := row.finding.scannerType
  scannerName := row.finding.scannerName
  title := row.finding.title
  description := row.finding.description
  severity := reconcileSeverity row.finding
  state := .open
  validation :=
    (promoteValidation row.finding.scannerType row.evidence row.finding.kev).getD .notValidated
  identifiers := row.finding.identifiers
  cvssScore := row.finding.cvssScore
  cvssVector := row.finding.cvssVector
  epssScore := row.finding.epssScore
  kev := row.finding.kev
  location := row.location
  evidence := row.evidence
  fixAvailable := row.finding.fix.available
  fixedVersion := row.finding.fix.fixedVersion
  artifactKey := payload.artifactKey
  firstSeenAt := seenAt
  lastSeenAt := seenAt

/-- What `ingest` writes to a row it has seen before.  Triage is kept, except that
a resolved finding that is reported again is a regression and opens. -/
def refreshedRow (payload : FindingsReportedPayload) (row : CollapsedFinding)
    (seenAt : Timestamp) (existing : FindingRow) : FindingRow :=
  { existing with
    lastSeenAt := seenAt
    severity := reconcileSeverity row.finding
    cvssScore := row.finding.cvssScore
    epssScore := row.finding.epssScore
    kev := row.finding.kev
    fixAvailable := row.finding.fix.available
    fixedVersion := row.finding.fix.fixedVersion
    location := row.location
    evidence := row.evidence
    artifactKey := payload.artifactKey
    validation :=
      (promoteValidation row.finding.scannerType row.evidence row.finding.kev).getD
        existing.validation
    state := if existing.state = .resolved then .open else existing.state
    resolvedAt := if existing.state = .resolved then none else existing.resolvedAt
    slaNotifiedAt := if existing.state = .resolved then none else existing.slaNotifiedAt }

theorem refreshedRow_keepsIdentity (payload : FindingsReportedPayload) (row : CollapsedFinding)
    (seenAt : Timestamp) : KeepsIdentity (refreshedRow payload row seenAt) :=
  fun _ => ⟨rfl, rfl, rfl, rfl⟩

/-- The transaction of one row: find, then upsert on `(orgId, fingerprint)`.  It
throws when the drawn id is taken or the asset is not there. -/
def upsertFinding (db : FindingsDb) (orgId : OrgId) (payload : FindingsReportedPayload)
    (row : CollapsedFinding) (seenAt : Timestamp) (id : Uuid) : Option FindingsDb :=
  let create := createdRow orgId payload row seenAt id
  if hexists : (db.findings.find? create.key).isSome = true then
    some (db.updateMany (fun r => decide (r.key = create.key)) (refreshedRow payload row seenAt)
      (refreshedRow_keepsIdentity payload row seenAt))
  else if hid : id ∈ db.findings.rows.map FindingRow.id then none
  else if hasset : ∃ a ∈ db.assets.rows, a.id = payload.assetId ∧ a.orgId = orgId then
    some
      { assets := db.assets
        findings :=
          { rows := create :: db.findings.rows
            nodup := by
              rw [List.map_cons, List.nodup_cons]
              refine ⟨?_, db.findings.nodup⟩
              intro htaken
              obtain ⟨r, hr, hk⟩ := List.mem_map.mp htaken
              apply hexists
              rw [← hk, Table.find?_of_mem hr]
              rfl }
        idNodup := by
          rw [List.map_cons, List.nodup_cons]
          exact ⟨hid, db.idNodup⟩
        findingAsset := by
          intro r hr
          rcases List.mem_cons.mp hr with rfl | hr
          · exact hasset
          · exact db.findingAsset r hr }
  else none

/-- The open rows of the batch's asset and scanner type that it does not carry. -/
def unreported (orgId : OrgId) (assetId : Uuid) (scannerType : ScannerType)
    (fingerprints : List String) (r : FindingRow) : Bool :=
  decide (r.orgId = orgId) && decide (r.assetId = assetId) &&
    decide (r.scannerType = scannerType) && r.state.unresolved &&
      decide (r.fingerprint ∉ fingerprints)

/-- What auto-resolution writes. -/
def autoResolved (seenAt : Timestamp) (r : FindingRow) : FindingRow :=
  { r with
    state := .resolved
    resolvedAt := some seenAt
    slaNotifiedAt := none }

theorem autoResolved_keepsIdentity (seenAt : Timestamp) : KeepsIdentity (autoResolved seenAt) :=
  fun _ => ⟨rfl, rfl, rfl, rfl⟩

/-- The closing step. -/
def closeUnreported (db : FindingsDb) (orgId : OrgId) (payload : FindingsReportedPayload)
    (fingerprints : List String) (seenAt : Timestamp) : FindingsDb :=
  db.updateMany (unreported orgId payload.assetId payload.scannerType fingerprints)
    (autoResolved seenAt) (autoResolved_keepsIdentity seenAt)

/-! ## An ingest on its way -/

/-- An ingest between two of its transactions. -/
structure IngestRun where
  orgId : OrgId
  payload : FindingsReportedPayload
  seenAt : Timestamp
  fingerprints : List String
  rows : List CollapsedFinding
  closed : Bool := false

namespace IngestRun

/-- The ingest of a batch before its first transaction. -/
def start (platform : Platform) (orgId : OrgId) (payload : FindingsReportedPayload)
    (seenAt : Timestamp) : IngestRun where
  orgId := orgId
  payload := payload
  seenAt := seenAt
  fingerprints :=
    (collapseScan platform payload.assetId payload.findings).map CollapsedFinding.fingerprint
  rows := collapseScan platform payload.assetId payload.findings

/-- Nothing is left to do. -/
def finished (run : IngestRun) : Bool :=
  run.rows.isEmpty && run.closed

/-- The next transaction: one row, or the closing step behind the last of them.
The database draws `id` for a new row; a transaction that throws changes nothing
and is tried again. -/
def advance (db : FindingsDb) (run : IngestRun) (id : Uuid) : FindingsDb × IngestRun :=
  match run.rows with
  | row :: rest =>
      match upsertFinding db run.orgId run.payload row run.seenAt id with
      | some db' => (db', { run with rows := rest })
      | none => (db, run)
  | [] =>
      if run.closed then (db, run)
      else -- `updateMany` with `notIn` of all fingerprints of the batch
        (closeUnreported db run.orgId run.payload run.fingerprints run.seenAt,
          { run with closed := true })

theorem advance_finished (db : FindingsDb) {run : IngestRun} (h : run.finished = true)
    (id : Uuid) : advance db run id = (db, run) := by
  unfold finished at h
  simp only [Bool.and_eq_true, List.isEmpty_iff] at h
  obtain ⟨hrows, hclosed⟩ := h
  simp [advance, hrows, hclosed]

end IngestRun

/-! ## What the transactions leave -/

/-- The rows after the transaction of one fingerprint: the refreshed or the new
row, and every other row as it was. -/
theorem mem_upsertFinding {db db' : FindingsDb} {orgId : OrgId}
    {payload : FindingsReportedPayload} {row : CollapsedFinding} {seenAt : Timestamp} {id : Uuid}
    (h : upsertFinding db orgId payload row seenAt id = some db') {r : FindingRow} :
    r ∈ db'.findings ↔
      (r ∈ db.findings ∧ r.key ≠ (orgId, row.fingerprint)) ∨
        (∃ r₀ ∈ db.findings, r₀.key = (orgId, row.fingerprint) ∧
          r = refreshedRow payload row seenAt r₀) ∨
        ((∀ r₀ ∈ db.findings, r₀.key ≠ (orgId, row.fingerprint)) ∧
          r = createdRow orgId payload row seenAt id) := by
  have hkey : (createdRow orgId payload row seenAt id).key = (orgId, row.fingerprint) := rfl
  unfold upsertFinding at h
  simp only [hkey] at h
  split at h
  case isTrue hexists =>
    rw [Option.some_inj] at h
    subst h
    obtain ⟨r₁, hfind⟩ := Option.isSome_iff_exists.mp hexists
    obtain ⟨hr₁, hk₁⟩ := Table.find?_eq_some.mp hfind
    rw [FindingsDb.mem_updateMany]
    simp only [decide_eq_true_eq]
    constructor
    · rintro ⟨r₀, hr₀, rfl⟩
      by_cases hk : r₀.key = (orgId, row.fingerprint)
      · rw [if_pos hk]
        exact Or.inr (Or.inl ⟨r₀, hr₀, hk, rfl⟩)
      · rw [if_neg hk]
        exact Or.inl ⟨hr₀, hk⟩
    · rintro (⟨hr, hk⟩ | ⟨r₀, hr₀, hk, rfl⟩ | ⟨hfree, -⟩)
      · exact ⟨r, hr, if_neg hk⟩
      · exact ⟨r₀, hr₀, if_pos hk⟩
      · exact absurd hk₁ (hfree r₁ hr₁)
  case isFalse hexists =>
    have hfree : ∀ r₀ ∈ db.findings, r₀.key ≠ (orgId, row.fingerprint) := by
      intro r₀ hr₀ hk
      apply hexists
      rw [← hk, Table.find?_of_mem hr₀]
      rfl
    split at h
    · exact absurd h (by simp)
    · split at h
      · rw [Option.some_inj] at h
        subst h
        rw [Table.mem_def, List.mem_cons]
        constructor
        · rintro (rfl | hr)
          · exact Or.inr (Or.inr ⟨hfree, rfl⟩)
          · exact Or.inl ⟨hr, hfree r hr⟩
        · rintro (⟨hr, -⟩ | ⟨r₀, hr₀, hk, -⟩ | ⟨-, rfl⟩)
          · exact Or.inr hr
          · exact absurd hk (hfree r₀ hr₀)
          · exact Or.inl rfl
      · exact absurd h (by simp)

/-- The rows after the closing step: those it does not close, and the closed ones. -/
theorem closeUnreported_mem {db : FindingsDb} {orgId : OrgId} {payload : FindingsReportedPayload}
    {fingerprints : List String} {seenAt : Timestamp} {r : FindingRow} :
    r ∈ (closeUnreported db orgId payload fingerprints seenAt).findings ↔
      (r ∈ db.findings ∧
          unreported orgId payload.assetId payload.scannerType fingerprints r = false) ∨
        ∃ r₀ ∈ db.findings,
          unreported orgId payload.assetId payload.scannerType fingerprints r₀ = true ∧
            r = autoResolved seenAt r₀ := by
  unfold closeUnreported
  rw [FindingsDb.mem_updateMany]
  constructor
  · rintro ⟨r₀, hr₀, rfl⟩
    by_cases hclose : unreported orgId payload.assetId payload.scannerType fingerprints r₀ = true
    · rw [if_pos hclose]
      exact Or.inr ⟨r₀, hr₀, hclose, rfl⟩
    · rw [if_neg hclose]
      exact Or.inl ⟨hr₀, Bool.not_eq_true _ ▸ hclose⟩
  · rintro (⟨hr, hkeep⟩ | ⟨r₀, hr₀, hclose, rfl⟩)
    · exact ⟨r, hr, if_neg (by simp [hkeep])⟩
    · exact ⟨r₀, hr₀, if_pos hclose⟩

/-! ## What a whole ingest leaves of an open row -/

/-- The columns auto-resolution selects by, the state apart. -/
structure SameFinding (r r' : FindingRow) : Prop where
  id : r'.id = r.id
  orgId : r'.orgId = r.orgId
  assetId : r'.assetId = r.assetId
  scannerType : r'.scannerType = r.scannerType
  fingerprint : r'.fingerprint = r.fingerprint

theorem SameFinding.refl (r : FindingRow) : SameFinding r r :=
  ⟨rfl, rfl, rfl, rfl, rfl⟩

theorem SameFinding.trans {r₁ r₂ r₃ : FindingRow} (h₁ : SameFinding r₁ r₂)
    (h₂ : SameFinding r₂ r₃) : SameFinding r₁ r₃ :=
  ⟨h₂.id.trans h₁.id, h₂.orgId.trans h₁.orgId, h₂.assetId.trans h₁.assetId,
    h₂.scannerType.trans h₁.scannerType, h₂.fingerprint.trans h₁.fingerprint⟩

theorem SameFinding.unreported {r r' : FindingRow} (h : SameFinding r r')
    (hstate : r'.state = r.state) (orgId : OrgId) (assetId : Uuid) (scannerType : ScannerType)
    (fingerprints : List String) :
    unreported orgId assetId scannerType fingerprints r' =
      unreported orgId assetId scannerType fingerprints r := by
  unfold Findings.unreported
  rw [h.orgId, h.assetId, h.scannerType, h.fingerprint, hstate]

/-- The transaction of a fingerprint leaves an open row open. -/
theorem upsertFinding_open {db db' : FindingsDb} {orgId : OrgId}
    {payload : FindingsReportedPayload} {row : CollapsedFinding} {seenAt : Timestamp} {id : Uuid}
    (h : upsertFinding db orgId payload row seenAt id = some db') {r : FindingRow}
    (hr : r ∈ db.findings) (hopen : r.state.unresolved = true) :
    ∃ r' ∈ db'.findings, SameFinding r r' ∧ r'.state = r.state := by
  by_cases hkey : r.key = (orgId, row.fingerprint)
  · have hstate : (refreshedRow payload row seenAt r).state = r.state := by
      have hne : r.state ≠ .resolved := by
        intro heq
        rw [heq] at hopen
        exact absurd hopen (by decide)
      exact if_neg hne
    exact ⟨refreshedRow payload row seenAt r,
      (mem_upsertFinding h).mpr (Or.inr (Or.inl ⟨r, hr, hkey, rfl⟩)),
      ⟨rfl, rfl, rfl, rfl, rfl⟩, hstate⟩
  · exact ⟨r, (mem_upsertFinding h).mpr (Or.inl ⟨hr, hkey⟩), SameFinding.refl r, rfl⟩

namespace IngestRun

/-- The transactions of an ingest, with the id drawn for each. -/
def advanceAll (db : FindingsDb) (run : IngestRun) : List Uuid → FindingsDb × IngestRun
  | [] => (db, run)
  | id :: ids => advanceAll (advance db run id).1 (advance db run id).2 ids

theorem advanceAll_finished (db : FindingsDb) {run : IngestRun} (h : run.finished = true)
    (ids : List Uuid) : advanceAll db run ids = (db, run) := by
  induction ids with
  | nil => rfl
  | cons id ids ih =>
      unfold advanceAll
      rw [advance_finished db h id]
      exact ih

/-- Behind an ingest an open row is resolved precisely when it is one the closing
step selects. -/
theorem advanceAll_state {db db' : FindingsDb} {run run' : IngestRun} (ids : List Uuid)
    (hrun : advanceAll db run ids = (db', run')) (hfinished : run'.finished = true)
    (hclosed : run.closed = false) {r : FindingRow} (hr : r ∈ db.findings)
    (hopen : r.state.unresolved = true) :
    ∃ r' ∈ db'.findings, SameFinding r r' ∧
      (r'.state = .resolved ↔ unreported run.orgId run.payload.assetId run.payload.scannerType
        run.fingerprints r = true) := by
  induction ids generalizing db run r with
  | nil =>
      obtain ⟨rfl, rfl⟩ := Prod.mk.inj hrun
      unfold finished at hfinished
      rw [hclosed, Bool.and_false] at hfinished
      exact absurd hfinished Bool.false_ne_true
  | cons id ids ih =>
      change advanceAll (advance db run id).1 (advance db run id).2 ids = (db', run') at hrun
      cases hrows : run.rows with
      | cons row rest =>
          cases hupsert : upsertFinding db run.orgId run.payload row run.seenAt id with
          | none =>
              have hadvance : advance db run id = (db, run) := by
                simp [advance, hrows, hupsert]
              rw [hadvance] at hrun
              exact ih hrun hclosed hr hopen
          | some db₁ =>
              have hadvance : advance db run id = (db₁, { run with rows := rest }) := by
                simp [advance, hrows, hupsert]
              rw [hadvance] at hrun
              obtain ⟨r₁, hr₁, hsame, hstate⟩ := upsertFinding_open hupsert hr hopen
              obtain ⟨r', hr', hsame', hiff⟩ := ih hrun hclosed hr₁ (hstate ▸ hopen)
              refine ⟨r', hr', hsame.trans hsame', ?_⟩
              rw [hiff, hsame.unreported hstate]
      | nil =>
          -- the closing step, behind which nothing moves
          have hadvance : advance db run id =
              (closeUnreported db run.orgId run.payload run.fingerprints run.seenAt,
                { run with closed := true }) := by
            simp [advance, hrows, hclosed]
          have hdone : ({ run with closed := true } : IngestRun).finished = true := by
            simp [finished, hrows]
          rw [hadvance, advanceAll_finished _ hdone] at hrun
          obtain ⟨rfl, -⟩ := Prod.mk.inj hrun
          by_cases hselected : unreported run.orgId run.payload.assetId run.payload.scannerType
              run.fingerprints r = true
          · refine ⟨autoResolved run.seenAt r,
              closeUnreported_mem.mpr (Or.inr ⟨r, hr, hselected, rfl⟩),
              ⟨rfl, rfl, rfl, rfl, rfl⟩, ?_⟩
            exact ⟨fun _ => hselected, fun _ => rfl⟩
          · have hkept : unreported run.orgId run.payload.assetId run.payload.scannerType
                run.fingerprints r = false := Bool.not_eq_true _ ▸ hselected
            refine ⟨r, closeUnreported_mem.mpr (Or.inl ⟨hr, hkept⟩), SameFinding.refl r, ?_⟩
            constructor
            · intro hresolved
              rw [hresolved] at hopen
              exact absurd hopen (by decide)
            · exact fun h => absurd h hselected

end IngestRun

/-- `db'` is the database behind a whole ingest of the batch. -/
def Ingested (platform : Platform) (orgId : OrgId) (payload : FindingsReportedPayload)
    (seenAt : Timestamp) (db db' : FindingsDb) : Prop :=
  ∃ ids run', IngestRun.advanceAll db (.start platform orgId payload seenAt) ids = (db', run') ∧
    run'.finished = true

/-- A batch resolves an open row precisely when the row is of its organisation, asset
and scanner type, and no finding of the batch has its fingerprint. -/
theorem ingested_resolved_iff {platform : Platform} {orgId : OrgId}
    {payload : FindingsReportedPayload} {seenAt : Timestamp} {db db' : FindingsDb}
    (h : Ingested platform orgId payload seenAt db db') {r : FindingRow} (hr : r ∈ db.findings)
    (hopen : r.state.unresolved = true) :
    (∃ r' ∈ db'.findings, r'.id = r.id ∧ r'.state = .resolved) ↔
      r.orgId = orgId ∧ r.assetId = payload.assetId ∧ r.scannerType = payload.scannerType ∧
        ∀ finding ∈ payload.findings,
          fingerprint platform payload.assetId finding ≠ r.fingerprint := by
  obtain ⟨ids, run', hrun, hfinished⟩ := h
  obtain ⟨r₁, hr₁, hsame, hiff⟩ := IngestRun.advanceAll_state ids hrun hfinished rfl hr hopen
  have hresolved : (∃ r' ∈ db'.findings, r'.id = r.id ∧ r'.state = .resolved) ↔
      r₁.state = .resolved := by
    constructor
    · rintro ⟨r', hr', hid, hstate⟩
      rw [FindingsDb.eq_of_id_eq hr₁ hr' (hsame.id.trans hid.symm)]
      exact hstate
    · exact fun hstate => ⟨r₁, hr₁, hsame.id, hstate⟩
  rw [hresolved, hiff]
  unfold unreported
  simp only [Bool.and_eq_true, decide_eq_true_eq]
  have hfingerprints : r.fingerprint ∉ (IngestRun.start platform orgId payload seenAt).fingerprints ↔
      ∀ finding ∈ payload.findings,
        fingerprint platform payload.assetId finding ≠ r.fingerprint := by
    have hmem := mem_fingerprints_collapseScan platform payload.assetId payload.findings
      r.fingerprint
    change r.fingerprint ∉ (collapseScan platform payload.assetId payload.findings).map
      CollapsedFinding.fingerprint ↔ _
    rw [hmem]
    push Not
    exact Iff.rfl
  rw [hfingerprints]
  constructor
  · rintro ⟨⟨⟨⟨horg, hasset⟩, htype⟩, -⟩, hmissing⟩
    exact ⟨horg, hasset, htype, hmissing⟩
  · rintro ⟨horg, hasset, htype, hmissing⟩
    exact ⟨⟨⟨⟨horg, hasset⟩, htype⟩, hopen⟩, hmissing⟩

end Findings
end Ctem
