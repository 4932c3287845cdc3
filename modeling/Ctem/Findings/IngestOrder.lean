import Mathlib.Data.Set.Basic
import Ctem.Findings.Redelivery

/-!
# Two batches in any order

The batches of an older and of a newer scan of one asset and scanner type, delivered in
any order and any number of times, each delivery to the end or broken off.

* `Cell` is what one fingerprint is to the asset and scanner type, and `Cell.step` what
  a delivery that touches the fingerprint makes of it.  Where a finding is theirs, the
  last touch decides (`Cell.run_settled`); where there is none yet, the first report
  also decides whose it becomes (`Cell.run_absent`).
* `cellOf_delivery` connects the cells with the ingest.
* `ingest_converges_iff` is the exact condition on the order of the deliveries.
-/

namespace Ctem
namespace Findings

open Foundation Contracts

inductive Scan where
  | older | newer
deriving DecidableEq

/-! ## One fingerprint -/

/-- What a fingerprint is to an asset and a scanner type. -/
inductive Cell where
  | absent
  /-- The finding is of another asset or scanner type. -/
  | apart
  /-- The finding is theirs and neither open nor resolved, by a decision of triage. -/
  | parked
  | live
  | resolved
deriving DecidableEq

namespace Cell

/-- The finding is reported; one that is created is `own` if it has the scanner type. -/
def report (own : Bool) (c : Cell) : Cell :=
  match c with
  | .absent => if own then .live else .apart
  | .resolved => .live
  | c => c

/-- The closing step of a batch that does not carry the fingerprint. -/
def close (c : Cell) : Cell :=
  match c with
  | .live => .resolved
  | c => c

/-- Whether the finding is resolved, if it is theirs. -/
def status (c : Cell) : Option Bool :=
  match c with
  | .absent | .apart => none
  | .parked | .live => some false
  | .resolved => some true

section Order

variable (reported own : Scan → Bool)

/-- A delivery of the scan's batch touches the fingerprint. -/
def step (c : Cell) (scan : Scan) : Cell :=
  if reported scan then c.report (own scan) else c.close

def run (c : Cell) (touches : List Scan) : Cell :=
  touches.foldl (step reported own) c

/-- What a touch leaves of a finding that is theirs and not parked. -/
def outcome (scan : Scan) : Cell :=
  if reported scan then .live else .resolved

/-- The finding is theirs and not parked. -/
def settled (c : Cell) : Bool :=
  match c with
  | .live | .resolved => true
  | _ => false

variable {reported own} {c : Cell} {scan : Scan} {touches : List Scan}

theorem settled_outcome : (outcome reported scan).settled = true := by
  unfold outcome
  split <;> rfl

theorem step_settled (h : c.settled = true) : step reported own c scan = outcome reported scan := by
  unfold step outcome
  cases c with
  | live => split <;> rfl
  | resolved => split <;> rfl
  | absent => cases h
  | apart => cases h
  | parked => cases h

/-- The last touch decides about a finding that is theirs. -/
theorem run_settled (h : c.settled = true) (hlast : touches.getLast? = some scan) :
    run reported own c touches = outcome reported scan := by
  induction touches generalizing c with
  | nil => cases hlast
  | cons first rest ih =>
      have hstep : step reported own c first = outcome reported first := step_settled h
      change run reported own (step reported own c first) rest = _
      rw [hstep]
      cases rest with
      | nil =>
          obtain rfl := Option.some.inj hlast
          rfl
      | cons second rest =>
          apply ih settled_outcome
          rw [List.getLast?_cons_cons] at hlast
          exact hlast

/-- Nothing moves a finding that is not theirs or parked. -/
theorem run_fixed (h : c = .apart ∨ c = .parked) : run reported own c touches = c := by
  induction touches with
  | nil => rfl
  | cons first rest ih =>
      have hstep : step reported own c first = c := by
        unfold step
        rcases h with rfl | rfl <;> split <;> rfl
      change run reported own (step reported own c first) rest = c
      rw [hstep]
      exact ih

/-- The first report creates the finding, and the last touch decides from then on. -/
theorem run_absent (hlast : touches.getLast? = some scan) :
    run reported own .absent touches =
      match touches.find? reported with
      | none => .absent
      | some first => if own first then outcome reported scan else .apart := by
  induction touches with
  | nil => cases hlast
  | cons head rest ih =>
      change run reported own (step reported own .absent head) rest = _
      cases hreported : reported head with
      | false =>
          have hstep : step reported own .absent head = .absent := by
            simp [step, hreported, close]
          rw [hstep, List.find?_cons_of_neg (by simp [hreported])]
          cases rest with
          | nil => rfl
          | cons second rest =>
              rw [List.getLast?_cons_cons] at hlast
              exact ih hlast
      | true =>
          rw [List.find?_cons_of_pos hreported]
          simp only
          cases hown : own head with
          | false =>
              have hstep : step reported own .absent head = .apart := by
                simp [step, hreported, report, hown]
              rw [hstep]
              exact run_fixed (Or.inl rfl)
          | true =>
              have hstep : step reported own .absent head = .live := by
                simp [step, hreported, report, hown]
              rw [hstep]
              cases rest with
              | nil =>
                  obtain rfl := Option.some.inj hlast
                  simp [outcome, hreported, run]
              | cons second rest =>
                  rw [List.getLast?_cons_cons] at hlast
                  exact run_settled rfl hlast

variable (reported own)

/-- Exactly one of the batches carries the fingerprint, the finding is theirs or is
created as theirs, and the last touch is the older batch's. -/
def StaleLast (c : Cell) (touches : List Scan) : Prop :=
  reported .older ≠ reported .newer ∧
    (c.settled = true ∨ (c = .absent ∧ ∃ scan, reported scan = true ∧ own scan = true)) ∧
    touches.getLast? = some .older

/-- Both batches carry the fingerprint, which is new, and only one creates a finding of
the scanner type; the first touch is the newer batch's. -/
def MixedFirst (c : Cell) (touches : List Scan) : Prop :=
  reported .older = true ∧ reported .newer = true ∧ own .older ≠ own .newer ∧ c = .absent ∧
    touches.head? = some .newer

variable {reported own}

theorem status_outcome_eq_iff {scan' : Scan} :
    (outcome reported scan).status = (outcome reported scan').status ↔
      reported scan = reported scan' := by
  unfold outcome
  cases reported scan <;> cases reported scan' <;> simp [status]

/-- The outcome of a touch is the newer batch's unless the batches disagree and the touch
is the older one's. -/
theorem status_outcome_newer_iff :
    (outcome reported scan).status = (outcome reported .newer).status ↔
      ¬ (reported .older ≠ reported .newer ∧ scan = .older) := by
  rw [status_outcome_eq_iff]
  cases scan with
  | older =>
      constructor
      · intro heq hstale
        exact hstale.1 heq
      · intro hnot
        by_contra hne
        exact hnot ⟨hne, rfl⟩
  | newer => simp

/-- The report that creates a finding is one of the batches that carry it. -/
theorem find?_reported {creator : Scan} (hcreator : creator ∈ touches)
    (honly : ∀ other, reported other = true ↔ other = creator) :
    touches.find? reported = some creator := by
  cases hfind : touches.find? reported with
  | none =>
      have hnone := List.find?_eq_none.mp hfind creator hcreator
      exact absurd ((honly creator).mpr rfl) hnone
  | some first =>
      have hfirst : reported first = true := List.find?_some hfind
      rw [(honly first).mp hfirst]

theorem run_absent_only {creator : Scan} (hcreator : creator ∈ touches)
    (honly : ∀ other, reported other = true ↔ other = creator)
    (hlast : touches.getLast? = some scan) :
    run reported own .absent touches = if own creator then outcome reported scan else .apart := by
  rw [run_absent hlast, find?_reported hcreator honly]

/-- Exactly one batch carries the fingerprint: if it creates a finding of theirs, the
last touch decides. -/
theorem run_absent_only_status_iff {creator : Scan} (hcreator : creator ∈ touches)
    (honly : ∀ other, reported other = true ↔ other = creator)
    (hlast : touches.getLast? = some scan) :
    (run reported own .absent touches).status =
        (run reported own .absent [.older, .newer]).status ↔
      ¬ StaleLast reported own .absent touches ∧ ¬ MixedFirst reported own .absent touches := by
  have hreference : creator ∈ ([.older, .newer] : List Scan) := by
    cases creator <;> simp
  have hnotMixed : ¬ MixedFirst reported own .absent touches := by
    intro hmixed
    have hsame := ((honly .older).mp hmixed.1).trans ((honly .newer).mp hmixed.2.1).symm
    cases hsame
  have howns : (∃ other, reported other = true ∧ own other = true) ↔ own creator = true := by
    constructor
    · intro hreporter
      obtain ⟨other, hreported, hown⟩ := hreporter
      rw [← (honly other).mp hreported]
      exact hown
    · intro hown
      exact ⟨creator, (honly creator).mpr rfl, hown⟩
  rw [run_absent_only hcreator honly hlast, run_absent_only hreference honly
    (show ([.older, .newer] : List Scan).getLast? = some .newer from rfl)]
  cases hown : own creator with
  | false =>
      refine iff_of_true rfl ⟨?_, hnotMixed⟩
      intro hstale
      rcases hstale.2.1 with hsettled | ⟨-, hreporter⟩
      · cases hsettled
      · rw [howns.mp hreporter] at hown
        cases hown
  | true =>
      simp only [if_true]
      rw [status_outcome_newer_iff]
      constructor
      · intro hnot
        refine ⟨?_, hnotMixed⟩
        intro hstale
        exact hnot ⟨hstale.1, Option.some.inj (hlast.symm.trans hstale.2.2)⟩
      · intro hnot hstale
        exact hnot.1 ⟨hstale.1, Or.inr ⟨rfl, howns.mpr hown⟩, hlast.trans (congrArg some hstale.2)⟩

/-- No batch carries the fingerprint, and no finding is created. -/
theorem run_absent_none (hnone : ∀ other, reported other = false)
    (hlast : touches.getLast? = some scan) : run reported own .absent touches = .absent := by
  have hfind : touches.find? reported = none := by
    rw [List.find?_eq_none]
    intro other _
    simp [hnone other]
  rw [run_absent hlast, hfind]

/-- Both batches carry the fingerprint: the first touch creates the finding, and no
closing step touches it. -/
theorem run_absent_both {head : Scan} {rest : List Scan}
    (hboth : ∀ other, reported other = true) :
    run reported own .absent (head :: rest) = if own head then .live else .apart := by
  have hlive : ∀ other, outcome reported other = .live := by
    intro other
    unfold outcome
    rw [if_pos (hboth other)]
  obtain ⟨scan, hlast⟩ : ∃ scan, (head :: rest).getLast? = some scan :=
    ⟨_, List.getLast?_eq_some_getLast (List.cons_ne_nil head rest)⟩
  rw [run_absent hlast, List.find?_cons_of_pos (hboth head)]
  simp only [hlive]

theorem run_absent_status_iff (holder : Scan.older ∈ touches) (hnewer : Scan.newer ∈ touches)
    (hlast : touches.getLast? = some scan) :
    (run reported own .absent touches).status =
        (run reported own .absent [.older, .newer]).status ↔
      ¬ StaleLast reported own .absent touches ∧ ¬ MixedFirst reported own .absent touches := by
  -- by which of the batches carry the fingerprint
  cases holderReported : reported .older with
  | false =>
      cases hnewerReported : reported .newer with
      | false =>
          have hnone : ∀ other, reported other = false := by
            intro other
            cases other
            · exact holderReported
            · exact hnewerReported
          rw [run_absent_none hnone hlast, run_absent_none hnone rfl]
          simp [StaleLast, MixedFirst, hnone]
      | true =>
          apply run_absent_only_status_iff hnewer _ hlast
          intro other
          cases other <;> simp [holderReported, hnewerReported]
  | true =>
      cases hnewerReported : reported .newer with
      | false =>
          apply run_absent_only_status_iff holder _ hlast
          intro other
          cases other <;> simp [holderReported, hnewerReported]
      | true =>
          have hboth : ∀ other, reported other = true := by
            intro other
            cases other
            · exact holderReported
            · exact hnewerReported
          cases touches with
          | nil => cases holder
          | cons head rest =>
              rw [run_absent_both hboth, run_absent_both hboth]
              unfold StaleLast MixedFirst
              cases head with
              | older => simp [hboth]
              | newer => cases own .older <;> cases own .newer <;> simp [hboth, status]

/-- **One fingerprint.**  When both batches have touched it, the touches leave what the
older batch and then the newer one leave, unless the last touch is stale, or a mixed
finding was created by the newer batch. -/
theorem run_status_iff (holder : Scan.older ∈ touches) (hnewer : Scan.newer ∈ touches) :
    (run reported own c touches).status = (run reported own c [.older, .newer]).status ↔
      ¬ StaleLast reported own c touches ∧ ¬ MixedFirst reported own c touches := by
  have hreference : ([.older, .newer] : List Scan).getLast? = some .newer := rfl
  obtain ⟨scan, hlast⟩ : ∃ scan, touches.getLast? = some scan := by
    cases hlast : touches.getLast? with
    | none =>
        rw [List.getLast?_eq_none_iff.mp hlast] at holder
        cases holder
    | some scan => exact ⟨scan, rfl⟩
  have hsettled : c.settled = true → ((run reported own c touches).status =
      (run reported own c [.older, .newer]).status ↔
        ¬ StaleLast reported own c touches ∧ ¬ MixedFirst reported own c touches) := by
    intro hsettled
    rw [run_settled hsettled hlast, run_settled hsettled hreference, status_outcome_newer_iff]
    unfold StaleLast MixedFirst
    rw [hlast]
    constructor
    · intro hnot
      constructor
      · intro hstale
        exact hnot ⟨hstale.1, Option.some.inj hstale.2.2⟩
      · intro hmixed
        obtain ⟨-, -, -, rfl, -⟩ := hmixed
        cases hsettled
    · intro hnot hstale
      exact hnot.1 ⟨hstale.1, Or.inl hsettled, congrArg some hstale.2⟩
  have hfixed : c = .apart ∨ c = .parked → ((run reported own c touches).status =
      (run reported own c [.older, .newer]).status ↔
        ¬ StaleLast reported own c touches ∧ ¬ MixedFirst reported own c touches) := by
    intro hfixed
    rw [run_fixed hfixed, run_fixed hfixed]
    refine iff_of_true rfl ⟨?_, ?_⟩
    · intro hstale
      rcases hfixed with rfl | rfl <;> rcases hstale.2.1 with hset | ⟨habsent, -⟩ <;>
        first | cases hset | cases habsent
    · intro hmixed
      obtain ⟨-, -, -, habsent, -⟩ := hmixed
      rcases hfixed with rfl | rfl <;> cases habsent
  cases c with
  | absent => exact run_absent_status_iff holder hnewer hlast
  | apart => exact hfixed (Or.inl rfl)
  | parked => exact hfixed (Or.inr rfl)
  | live => exact hsettled rfl
  | resolved => exact hsettled rfl

end Order

end Cell

/-! ## Deliveries -/

/-- The batches of two scans of one asset and scanner type. -/
structure ScanPair where
  orgId : OrgId
  assetId : Uuid
  scannerType : ScannerType
  batch : Scan → FindingsReportedPayload
  sameAsset : ∀ scan, (batch scan).assetId = assetId
  sameType : ∀ scan, (batch scan).scannerType = scannerType

/-- One delivery of a batch; it gets as far as the ids that are drawn for it. -/
structure Delivery where
  scan : Scan
  seenAt : Timestamp
  ids : List Uuid

namespace ScanPair

variable (platform : Platform) (pair : ScanPair)

/-- The rows of a scan's batch. -/
def rows (scan : Scan) : List CollapsedFinding :=
  collapseScan platform (pair.batch scan).assetId (pair.batch scan).findings

def fingerprints (scan : Scan) : List String :=
  (pair.rows platform scan).map CollapsedFinding.fingerprint

/-- The scan's batch carries the fingerprint. -/
def reported (fingerprint : String) (scan : Scan) : Bool :=
  decide (fingerprint ∈ pair.fingerprints platform scan)

/-- A finding that the scan's batch creates under the fingerprint has its scanner type. -/
def own (fingerprint : String) (scan : Scan) : Bool :=
  (pair.rows platform scan).any fun row =>
    decide (row.fingerprint = fingerprint) && decide (row.finding.scannerType = pair.scannerType)

/-- The database behind a delivery, and how far the ingest got. -/
def deliver (db : FindingsDb) (delivery : Delivery) : FindingsDb × IngestRun :=
  IngestRun.advanceAll db
    (.start platform pair.orgId (pair.batch delivery.scan) delivery.seenAt) delivery.ids

def deliverAll (db : FindingsDb) (deliveries : List Delivery) : FindingsDb :=
  deliveries.foldl (fun db delivery => (pair.deliver platform db delivery).1) db

/-- An ingest that got so far has written the fingerprint's row, or else, where its batch
does not carry the fingerprint, has run its closing step. -/
def touched (scan : Scan) (run : IngestRun) (fingerprint : String) : Bool :=
  if pair.reported platform fingerprint scan then
    decide (fingerprint ∉ run.rows.map CollapsedFinding.fingerprint)
  else run.closed

/-- The batches that touch a fingerprint, in the order of the deliveries. -/
def touches (db : FindingsDb) (deliveries : List Delivery) (fingerprint : String) : List Scan :=
  match deliveries with
  | [] => []
  | delivery :: rest =>
      let delivered := pair.deliver platform db delivery
      if pair.touched platform delivery.scan delivered.2 fingerprint then
        delivery.scan :: touches delivered.1 rest fingerprint
      else touches delivered.1 rest fingerprint

/-- A delivery of the scan's batch has got to the end. -/
def Handled (scan : Scan) (db : FindingsDb) (deliveries : List Delivery) : Prop :=
  match deliveries with
  | [] => False
  | delivery :: rest =>
      (delivery.scan = scan ∧ (pair.deliver platform db delivery).2.finished = true) ∨
        Handled scan (pair.deliver platform db delivery).1 rest

/-- What a finding, or none, is to the asset and scanner type. -/
def cellOf (found : Option FindingRow) : Cell :=
  match found with
  | none => .absent
  | some r =>
      if r.assetId = pair.assetId ∧ r.scannerType = pair.scannerType then
        if r.state = .resolved then .resolved else if r.state.unresolved then .live else .parked
      else .apart

/-- What a fingerprint is to the asset and scanner type. -/
def cell (db : FindingsDb) (fingerprint : String) : Cell :=
  pair.cellOf (db.findings.find? (pair.orgId, fingerprint))

/-- The fingerprints of their findings that are, or are not, resolved. -/
def findingsIn (db : FindingsDb) (resolved : Bool) : Set String :=
  fun fingerprint => ∃ r ∈ db.findings, r.orgId = pair.orgId ∧ r.assetId = pair.assetId ∧
    r.scannerType = pair.scannerType ∧ r.fingerprint = fingerprint ∧
      decide (r.state = .resolved) = resolved

variable {platform pair} {db db' : FindingsDb}

theorem status_cellOf {r : FindingRow} (b : Bool) :
    (pair.cellOf (some r)).status = some b ↔ r.assetId = pair.assetId ∧
      r.scannerType = pair.scannerType ∧ decide (r.state = .resolved) = b := by
  unfold cellOf
  by_cases htheirs : r.assetId = pair.assetId ∧ r.scannerType = pair.scannerType
  · simp only [htheirs, and_self, if_true, true_and]
    by_cases hresolved : r.state = .resolved
    · simp [hresolved, Cell.status]
    · simp only [hresolved, if_false, decide_false]
      split <;> simp [Cell.status]
  · simp only [htheirs, if_false, Cell.status, reduceCtorEq, false_iff]
    intro hall
    exact htheirs ⟨hall.1, hall.2.1⟩

/-- A fingerprint is among the resolved, or the other, findings as its cell says. -/
theorem mem_findingsIn {resolved : Bool} {fingerprint : String} :
    fingerprint ∈ pair.findingsIn db resolved ↔
      (pair.cell db fingerprint).status = some resolved := by
  unfold cell
  constructor
  · intro hmem
    obtain ⟨r, hr, horg, hasset, htype, hfingerprint, hstate⟩ := hmem
    have hfind : db.findings.find? (pair.orgId, fingerprint) = some r := by
      rw [Table.find?_eq_some]
      exact ⟨hr, Prod.ext horg hfingerprint⟩
    rw [hfind, status_cellOf]
    exact ⟨hasset, htype, hstate⟩
  · intro hstatus
    cases hfind : db.findings.find? (pair.orgId, fingerprint) with
    | none =>
        rw [hfind] at hstatus
        cases hstatus
    | some r =>
        rw [hfind, status_cellOf] at hstatus
        obtain ⟨hr, hkey⟩ := Table.find?_eq_some.mp hfind
        obtain ⟨horg, hfingerprint⟩ := Prod.mk.inj hkey
        exact ⟨r, hr, horg, hstatus.1, hstatus.2.1, hfingerprint, hstatus.2.2⟩

/-- Two databases have the same partition precisely when every cell has one status in
both. -/
theorem findingsIn_eq_iff : (∀ resolved, pair.findingsIn db resolved = pair.findingsIn db' resolved) ↔
    ∀ fingerprint, (pair.cell db fingerprint).status = (pair.cell db' fingerprint).status := by
  constructor
  · intro hsets fingerprint
    apply Option.ext
    intro resolved
    have hset := hsets resolved
    rw [← mem_findingsIn, ← mem_findingsIn, hset]
  · intro hcells resolved
    ext fingerprint
    rw [mem_findingsIn, mem_findingsIn, hcells]

/-! ## What a delivery does to a cell -/

theorem cellOf_reportEffect {scan : Scan} {row : CollapsedFinding} {seenAt : Timestamp} {id : Uuid}
    {found : Option FindingRow} :
    pair.cellOf (some (reportEffect pair.orgId (pair.batch scan) row seenAt id found)) =
      (pair.cellOf found).report (decide (row.finding.scannerType = pair.scannerType)) := by
  cases found with
  | none =>
      unfold reportEffect cellOf createdRow
      simp [pair.sameAsset scan, Cell.report, FindingState.unresolved]
  | some r =>
      unfold reportEffect cellOf refreshedRow
      simp only
      by_cases htheirs : r.assetId = pair.assetId ∧ r.scannerType = pair.scannerType
      · simp only [htheirs, and_self, if_true]
        by_cases hresolved : r.state = .resolved
        · simp [hresolved, Cell.report, FindingState.unresolved]
        · simp only [hresolved, if_false]
          split <;> rfl
      · simp [htheirs, Cell.report]

theorem cellOf_closeEffect (platform : Platform) {scan : Scan} {seenAt : Timestamp} {found : Option FindingRow}
    (hunreported : ∀ r, found = some r → r.orgId = pair.orgId ∧
      r.fingerprint ∉ pair.fingerprints platform scan) :
    pair.cellOf (found.map (closeEffect pair.orgId (pair.batch scan)
      (pair.fingerprints platform scan) seenAt)) = (pair.cellOf found).close := by
  cases found with
  | none => rfl
  | some r =>
      obtain ⟨horg, hfingerprint⟩ := hunreported r rfl
      have hselected : unreported pair.orgId (pair.batch scan).assetId (pair.batch scan).scannerType
          (pair.fingerprints platform scan) r = true ↔
          (r.assetId = pair.assetId ∧ r.scannerType = pair.scannerType) ∧
            r.state.unresolved = true := by
        unfold unreported
        rw [pair.sameAsset, pair.sameType]
        simp [horg, hfingerprint]
      rw [Option.map_some]
      unfold closeEffect
      by_cases htheirs : r.assetId = pair.assetId ∧ r.scannerType = pair.scannerType
      · by_cases hopen : r.state.unresolved = true
        · rw [if_pos (hselected.mpr ⟨htheirs, hopen⟩)]
          have hstate : r.state ≠ .resolved := by
            intro heq
            rw [heq] at hopen
            cases hopen
          simp [cellOf, autoResolved, htheirs, hstate, hopen, Cell.close]
        · rw [if_neg (fun hsel => hopen (hselected.mp hsel).2)]
          simp only [cellOf, htheirs, and_self, if_true, hopen]
          split <;> rfl
      · rw [if_neg (fun hsel => htheirs (hselected.mp hsel).1)]
        simp [cellOf, htheirs, Cell.close]

/-- The row of a fingerprint decides whether a finding it creates is theirs. -/
theorem own_of_mem {fingerprint : String} {scan : Scan} {row : CollapsedFinding}
    (hrow : row ∈ pair.rows platform scan) (hfingerprint : row.fingerprint = fingerprint) :
    pair.own platform fingerprint scan = decide (row.finding.scannerType = pair.scannerType) := by
  have hunique : ∀ other ∈ pair.rows platform scan, other.fingerprint = fingerprint →
      other = row := by
    intro other hother heq
    exact List.inj_on_of_nodup_map
      (nodup_fingerprints_collapseScan platform (pair.batch scan).assetId (pair.batch scan).findings)
      hother hrow (heq.trans hfingerprint.symm)
  unfold own
  rw [Bool.eq_iff_iff, List.any_eq_true]
  constructor
  · intro hany
    obtain ⟨other, hother, hmatch⟩ := hany
    simp only [Bool.and_eq_true, decide_eq_true_eq] at hmatch
    rw [← hunique other hother hmatch.1]
    exact decide_eq_true hmatch.2
  · intro htype
    exact ⟨row, hrow, by simpa [hfingerprint] using htype⟩

/-- A delivery that touches a fingerprint is a step of its cell, and one that does not
leaves it. -/
theorem cell_of_attempt {scan : Scan} {seenAt : Timestamp} {run : IngestRun}
    (h : AttemptedTo platform pair.orgId (pair.batch scan) seenAt db db' run)
    (fingerprint : String) :
    pair.cell db' fingerprint =
      if pair.touched platform scan run fingerprint then
        (pair.cell db fingerprint).step (pair.reported platform fingerprint)
          (pair.own platform fingerprint) scan
      else pair.cell db fingerprint := by
  by_cases hreported : fingerprint ∈ pair.fingerprints platform scan
  · have hreportedTrue : pair.reported platform fingerprint scan = true :=
      decide_eq_true hreported
    obtain ⟨row, hrow, hfingerprint⟩ := List.mem_map.mp hreported
    have hown := own_of_mem hrow hfingerprint
    rcases attempt_reported h hrow with ⟨hpending, hsame⟩ | ⟨hwritten, id, heffect⟩
    · rw [hfingerprint] at hpending hsame
      have huntouched : pair.touched platform scan run fingerprint = false := by
        unfold touched
        rw [if_pos hreportedTrue]
        exact decide_eq_false (not_not.mpr hpending)
      rw [huntouched]
      unfold cell
      rw [hsame]
      rfl
    · rw [hfingerprint] at hwritten heffect
      have htouched : pair.touched platform scan run fingerprint = true := by
        unfold touched
        rw [if_pos hreportedTrue]
        exact decide_eq_true hwritten
      rw [if_pos htouched]
      unfold Cell.step cell
      rw [if_pos hreportedTrue, heffect, cellOf_reportEffect, hown]
  · have hreportedFalse : pair.reported platform fingerprint scan = false :=
      decide_eq_false hreported
    have heffect := attempt_unreported h hreported
    unfold touched
    simp only [hreportedFalse, Bool.false_eq_true, if_false]
    unfold cell
    rw [heffect]
    by_cases hclosed : run.closed = true
    · rw [if_pos hclosed, if_pos hclosed]
      unfold Cell.step
      simp only [hreportedFalse, Bool.false_eq_true, if_false]
      apply cellOf_closeEffect platform
      intro r hfind
      have hkey : r.key = (pair.orgId, fingerprint) := Table.find?_key hfind
      obtain ⟨horg, hsame⟩ := Prod.mk.inj hkey
      rw [hsame]
      exact ⟨horg, hreported⟩
    · rw [if_neg hclosed, if_neg hclosed]

theorem touches_cons (db : FindingsDb) (delivery : Delivery) (rest : List Delivery)
    (fingerprint : String) :
    pair.touches platform db (delivery :: rest) fingerprint =
      if pair.touched platform delivery.scan (pair.deliver platform db delivery).2 fingerprint then
        delivery.scan :: pair.touches platform (pair.deliver platform db delivery).1 rest fingerprint
      else pair.touches platform (pair.deliver platform db delivery).1 rest fingerprint := rfl

/-- The deliveries run the cell of a fingerprint through the batches that touch it. -/
theorem cell_deliverAll (deliveries : List Delivery) (db : FindingsDb) (fingerprint : String) :
    pair.cell (pair.deliverAll platform db deliveries) fingerprint =
      (pair.cell db fingerprint).run (pair.reported platform fingerprint)
        (pair.own platform fingerprint) (pair.touches platform db deliveries fingerprint) := by
  induction deliveries generalizing db with
  | nil => rfl
  | cons delivery rest ih =>
      have hattempt : AttemptedTo platform pair.orgId (pair.batch delivery.scan) delivery.seenAt db
          (pair.deliver platform db delivery).1 (pair.deliver platform db delivery).2 :=
        ⟨delivery.ids, rfl⟩
      have hcell := cell_of_attempt hattempt fingerprint
      change pair.cell (pair.deliverAll platform (pair.deliver platform db delivery).1 rest)
        fingerprint = _
      rw [ih, hcell, touches_cons]
      split <;> rfl

/-- A delivery that has got to the end has touched every fingerprint. -/
theorem touched_of_finished {scan : Scan} {run : IngestRun} (h : run.finished = true)
    (fingerprint : String) : pair.touched platform scan run fingerprint = true := by
  unfold IngestRun.finished at h
  simp only [Bool.and_eq_true, List.isEmpty_iff] at h
  obtain ⟨hrows, hclosed⟩ := h
  unfold touched
  split
  · simp [hrows]
  · exact hclosed

/-- A batch that was handled has touched every fingerprint. -/
theorem mem_touches_of_handled {scan : Scan} {deliveries : List Delivery}
    (h : pair.Handled platform scan db deliveries) (fingerprint : String) :
    scan ∈ pair.touches platform db deliveries fingerprint := by
  induction deliveries generalizing db with
  | nil => exact h.elim
  | cons delivery rest ih =>
      rw [touches_cons]
      rcases h with ⟨rfl, hfinished⟩ | hlater
      · rw [if_pos (touched_of_finished hfinished fingerprint)]
        exact List.mem_cons_self
      · split
        · exact List.mem_cons_of_mem _ (ih hlater)
        · exact ih hlater

/-- A whole ingest is a step of every cell. -/
theorem cell_of_ingested {scan : Scan} {seenAt : Timestamp}
    (h : Ingested platform pair.orgId (pair.batch scan) seenAt db db') (fingerprint : String) :
    pair.cell db' fingerprint = (pair.cell db fingerprint).step
      (pair.reported platform fingerprint) (pair.own platform fingerprint) scan := by
  obtain ⟨ids, run, hrun, hfinished⟩ := h
  have hcell := cell_of_attempt ⟨ids, hrun⟩ fingerprint
  rw [if_pos (touched_of_finished hfinished fingerprint)] at hcell
  exact hcell

end ScanPair

/-! ## Convergence -/

namespace ShopScan

/-- The vulnerable dependency was fixed between the two scans. -/
def fixed : ScanPair where
  orgId := orgId
  assetId := asset.id
  scannerType := .sca
  batch := fun scan =>
    match scan with
    | .older => found
    | .newer => batch "6f1c0b7e-0000-4000-8000-0000000000d2" []
  sameAsset := by
    intro scan
    cases scan <;> rfl
  sameType := by
    intro scan
    cases scan <;> rfl

/-- The older batch is ingested, with a row for its finding. -/
def olderDelivery : Delivery := ⟨.older, 1, ["f1", "f2"]⟩

/-- The newer batch is ingested. -/
def newerDelivery : Delivery := ⟨.newer, 2, ["f3"]⟩

/-- The fingerprint of the finding. -/
def fingerprint : String := "6316f2da30bd79b9178d3cec7b1a7dcbcff8072054ef3d735a18e38e3ee3e475"

end ShopScan

/-- **Convergence.**  Once both batches have been handled, the findings of the asset and
scanner type that are resolved, and those that are not, are what the older batch and then
the newer one leave, precisely when for every fingerprint the last touch is not stale and
no mixed finding was created by the newer batch. -/
theorem ingest_converges_iff (platform : Platform) (pair : ScanPair)
    (db dbm dbRef : FindingsDb) (deliveries : List Delivery) (seenAt seenAt' : Timestamp)
    (holder : pair.Handled platform .older db deliveries)
    (hnewer : pair.Handled platform .newer db deliveries)
    (hfirst : Ingested platform pair.orgId (pair.batch .older) seenAt db dbm)
    (hsecond : Ingested platform pair.orgId (pair.batch .newer) seenAt' dbm dbRef) :
    (∀ resolved, pair.findingsIn (pair.deliverAll platform db deliveries) resolved =
        pair.findingsIn dbRef resolved) ↔
      ∀ fingerprint,
        ¬ Cell.StaleLast (pair.reported platform fingerprint) (pair.own platform fingerprint)
            (pair.cell db fingerprint) (pair.touches platform db deliveries fingerprint) ∧
          ¬ Cell.MixedFirst (pair.reported platform fingerprint) (pair.own platform fingerprint)
            (pair.cell db fingerprint) (pair.touches platform db deliveries fingerprint) := by
  rw [ScanPair.findingsIn_eq_iff]
  apply forall_congr'
  intro fingerprint
  rw [ScanPair.cell_deliverAll, ScanPair.cell_of_ingested hsecond,
    ScanPair.cell_of_ingested hfirst]
  exact Cell.run_status_iff (ScanPair.mem_touches_of_handled holder fingerprint)
    (ScanPair.mem_touches_of_handled hnewer fingerprint)

/-- The batches are delivered once each, in the order of the scans. -/
theorem ingest_converges_in_order :
    ¬ Cell.StaleLast (ShopScan.fixed.reported ShopScan.platform ShopScan.fingerprint)
        (ShopScan.fixed.own ShopScan.platform ShopScan.fingerprint)
        (ShopScan.fixed.cell ShopScan.db ShopScan.fingerprint)
        (ShopScan.fixed.touches ShopScan.platform ShopScan.db
          [ShopScan.olderDelivery, ShopScan.newerDelivery] ShopScan.fingerprint) ∧
      ¬ Cell.MixedFirst (ShopScan.fixed.reported ShopScan.platform ShopScan.fingerprint)
        (ShopScan.fixed.own ShopScan.platform ShopScan.fingerprint)
        (ShopScan.fixed.cell ShopScan.db ShopScan.fingerprint)
        (ShopScan.fixed.touches ShopScan.platform ShopScan.db
          [ShopScan.olderDelivery, ShopScan.newerDelivery] ShopScan.fingerprint) :=
  (ingest_converges_iff ShopScan.platform ShopScan.fixed ShopScan.db _
    (ShopScan.fixed.deliverAll ShopScan.platform ShopScan.db
      [ShopScan.olderDelivery, ShopScan.newerDelivery])
    [ShopScan.olderDelivery, ShopScan.newerDelivery] 1 2
    (Or.inl ⟨rfl, by decide⟩) (Or.inr (Or.inl ⟨rfl, by decide⟩))
    ⟨["f1", "f2"], _, rfl, by decide⟩ ⟨["f3"], _, rfl, by decide⟩).mp
      (fun _ => rfl) ShopScan.fingerprint

/-- A batch that is delivered late reopens what the newer scan has found fixed. -/
theorem late_older_batch_reopens :
    ¬ ∀ (platform : Platform) (pair : ScanPair) (db dbm dbRef : FindingsDb)
      (deliveries : List Delivery) (seenAt seenAt' : Timestamp),
      pair.Handled platform .older db deliveries → pair.Handled platform .newer db deliveries →
      Ingested platform pair.orgId (pair.batch .older) seenAt db dbm →
      Ingested platform pair.orgId (pair.batch .newer) seenAt' dbm dbRef →
      ∀ resolved, pair.findingsIn (pair.deliverAll platform db deliveries) resolved =
        pair.findingsIn dbRef resolved := by
  intro hclaim
  have hresolved := hclaim ShopScan.platform ShopScan.fixed ShopScan.db _
    (ShopScan.fixed.deliverAll ShopScan.platform ShopScan.db
      [ShopScan.olderDelivery, ShopScan.newerDelivery])
    [ShopScan.newerDelivery, ShopScan.olderDelivery] 1 2
    (Or.inr (Or.inl ⟨rfl, by decide⟩)) (Or.inl ⟨rfl, by decide⟩)
    ⟨["f1", "f2"], _, rfl, by decide⟩ ⟨["f3"], _, rfl, by decide⟩ true
  have hfixed : ShopScan.fingerprint ∈ ShopScan.fixed.findingsIn
      (ShopScan.fixed.deliverAll ShopScan.platform ShopScan.db
        [ShopScan.olderDelivery, ShopScan.newerDelivery]) true :=
    ScanPair.mem_findingsIn.mpr (by decide)
  rw [← hresolved] at hfixed
  have hstatus := ScanPair.mem_findingsIn.mp hfixed
  exact absurd hstatus (by decide)

end Findings
end Ctem
