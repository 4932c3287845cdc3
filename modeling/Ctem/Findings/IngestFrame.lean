import Ctem.Findings.Redelivery

/-!
# What an ingest leaves

The database behind an ingest that runs alone.  Every transaction of it is about single findings,
so each row has one of two stories: its fingerprint is reported, and the row is refreshed; or it
is not, and at most the closing step touches it.

* `IngestPost` is the postcondition and the frame, `ingest_postcondition` that they hold.
-/

namespace Ctem
namespace Findings

open Foundation Contracts

/-- A finding of the batch has the fingerprint of the row. -/
def Reported (platform : Platform) (orgId : OrgId) (payload : FindingsReportedPayload)
    (r : FindingRow) : Prop :=
  r.orgId = orgId ∧ ∃ finding ∈ payload.findings,
    fingerprint platform payload.assetId finding = r.fingerprint

/-- What holds behind an ingest: about the findings reported, the findings that are still open,
and the rows that were there. -/
structure IngestPost (platform : Platform) (orgId : OrgId) (payload : FindingsReportedPayload)
    (db db' : FindingsDb) : Prop where
  /-- A reported fingerprint has exactly one row, which is not resolved. -/
  reported : ∀ finding ∈ payload.findings, ∃! r, r ∈ db'.findings ∧
    r.key = (orgId, fingerprint platform payload.assetId finding)
  alive : ∀ r ∈ db'.findings, Reported platform orgId payload r → r.state ≠ .resolved
  /-- What is open of the asset and the scanner type is reported. -/
  open_reported : ∀ r ∈ db'.findings, r.orgId = orgId → r.assetId = payload.assetId →
    r.scannerType = payload.scannerType → r.state.unresolved = true →
      Reported platform orgId payload r
  /-- A decision of the organisation stands. -/
  set_aside : ∀ r ∈ db.findings,
    r.state = .riskAccepted ∨ r.state = .falsePositive ∨ r.state = .suppressed →
      ∃ r' ∈ db'.findings, r'.id = r.id ∧ r'.state = r.state
  /-- Triage of a reported finding stands. -/
  triaged : ∀ r ∈ db.findings, Reported platform orgId payload r →
    r.state = .triaged ∨ r.state = .inProgress →
      ∃ r' ∈ db'.findings, r'.id = r.id ∧ r'.state = r.state
  /-- Other assets, scanner types and organisations are left alone. -/
  frame : ∀ r ∈ db.findings,
    r.orgId ≠ orgId ∨ r.assetId ≠ payload.assetId ∨ r.scannerType ≠ payload.scannerType →
      ¬ Reported platform orgId payload r → r ∈ db'.findings

section Rows

variable {platform : Platform} {orgId : OrgId} {payload : FindingsReportedPayload}
  {seenAt : Timestamp} {db db' : FindingsDb}

/-- A reported row is the row of a collapsed finding. -/
theorem reported_iff {r : FindingRow} :
    Reported platform orgId payload r ↔ r.orgId = orgId ∧
      ∃ row ∈ collapseScan platform payload.assetId payload.findings,
        row.fingerprint = r.fingerprint := by
  unfold Reported
  rw [← mem_fingerprints_collapseScan, List.mem_map]

/-- The row of a reported fingerprint, refreshed or new. -/
theorem find?_reported (h : Ingested platform orgId payload seenAt db db') {row : CollapsedFinding}
    (hrow : row ∈ collapseScan platform payload.assetId payload.findings) :
    ∃ seenAt' id, db'.findings.find? (orgId, row.fingerprint) =
      some (reportEffect orgId payload row seenAt' id
        (db.findings.find? (orgId, row.fingerprint))) :=
  ingested_reports hrow h

/-- A refreshed row keeps its id, and its state unless it was resolved. -/
theorem of_reported (h : Ingested platform orgId payload seenAt db db') {r : FindingRow}
    (hr : r ∈ db.findings) (hrep : Reported platform orgId payload r) :
    ∃ r' ∈ db'.findings, r'.id = r.id ∧
      r'.state = if r.state = .resolved then .open else r.state := by
  obtain ⟨rfl, row, hrow, hfp⟩ := reported_iff.mp hrep
  obtain ⟨seenAt', id, hfind⟩ := find?_reported h hrow
  have hbefore : db.findings.find? (r.orgId, row.fingerprint) = some r := by
    rw [hfp]
    exact Table.find?_of_mem hr
  rw [hbefore] at hfind
  exact ⟨refreshedRow payload row seenAt' r, Table.find?_mem hfind, rfl, rfl⟩

/-- A row that is not reported is as it was, unless the closing step selects it. -/
theorem of_unreported (h : Ingested platform orgId payload seenAt db db') {r : FindingRow}
    (hr : r ∈ db.findings) (hrep : ¬ Reported platform orgId payload r)
    (hkeep : r.orgId ≠ orgId ∨ r.assetId ≠ payload.assetId ∨
      r.scannerType ≠ payload.scannerType ∨ r.state.unresolved = false) : r ∈ db'.findings := by
  by_cases horg : r.orgId = orgId
  · subst horg
    have hfp : r.fingerprint ∉ (collapseScan platform payload.assetId payload.findings).map
        CollapsedFinding.fingerprint := by
      rw [mem_fingerprints_collapseScan]
      exact fun hex => hrep ⟨rfl, hex⟩
    obtain ⟨seenAt', hfind⟩ := ingested_closes hfp h
    have hsame : closeEffect r.orgId payload ((collapseScan platform payload.assetId
        payload.findings).map CollapsedFinding.fingerprint) seenAt' r = r := by
      have hnot : unreported r.orgId payload.assetId payload.scannerType
          ((collapseScan platform payload.assetId payload.findings).map
            CollapsedFinding.fingerprint) r = false := by
        unfold unreported
        rcases hkeep with hne | hne | hne | hstate
        · exact absurd rfl hne
        · simp [hne]
        · simp [hne]
        · simp [hstate]
      unfold closeEffect
      rw [hnot]
      rfl
    rw [show db.findings.find? (r.orgId, r.fingerprint) = some r from Table.find?_of_mem hr,
      Option.map_some, hsame] at hfind
    exact Table.find?_mem hfind
  · have hfind : db'.findings.find? r.key = db.findings.find? r.key := ingested_otherOrg h horg
    rw [Table.find?_of_mem hr] at hfind
    exact Table.find?_mem hfind

/-- The row of a reported fingerprint is not resolved. -/
theorem alive_of_reported (h : Ingested platform orgId payload seenAt db db') {r : FindingRow}
    (hr : r ∈ db'.findings) (hrep : Reported platform orgId payload r) : r.state ≠ .resolved := by
  obtain ⟨rfl, row, hrow, hfp⟩ := reported_iff.mp hrep
  obtain ⟨seenAt', id, hfind⟩ := find?_reported h hrow
  rw [hfp, show db'.findings.find? (r.orgId, r.fingerprint) = some r from Table.find?_of_mem hr,
    Option.some_inj] at hfind
  cases hbefore : db.findings.find? (r.orgId, r.fingerprint) with
  | none =>
      rw [hfind, hbefore]
      change FindingState.open ≠ .resolved
      decide
  | some r₀ =>
      rw [hfind, hbefore]
      change (if r₀.state = .resolved then FindingState.open else r₀.state) ≠ .resolved
      split
      · decide
      · assumption

/-- What the closing step leaves open of the asset and the scanner type is reported. -/
theorem reported_of_open (h : Ingested platform orgId payload seenAt db db') {r : FindingRow}
    (hr : r ∈ db'.findings) (horg : r.orgId = orgId) (hasset : r.assetId = payload.assetId)
    (htype : r.scannerType = payload.scannerType) (hopen : r.state.unresolved = true) :
    Reported platform orgId payload r := by
  subst horg
  by_contra hrep
  have hfp : r.fingerprint ∉ (collapseScan platform payload.assetId payload.findings).map
      CollapsedFinding.fingerprint := by
    rw [mem_fingerprints_collapseScan]
    exact fun hex => hrep ⟨rfl, hex⟩
  obtain ⟨seenAt', hfind⟩ := ingested_closes hfp h
  rw [show db'.findings.find? (r.orgId, r.fingerprint) = some r from Table.find?_of_mem hr] at hfind
  obtain ⟨r₀, -, hr₀⟩ := Option.map_eq_some_iff.mp hfind.symm
  -- a row the closing step selects is resolved, and any other is the row itself
  unfold closeEffect at hr₀
  split at hr₀
  · rw [← hr₀] at hopen
    exact absurd hopen Bool.false_ne_true
  · rename_i hkept
    subst hr₀
    apply hkept
    unfold unreported
    simp only [Bool.and_eq_true, decide_eq_true_eq]
    exact ⟨⟨⟨⟨trivial, hasset⟩, htype⟩, hopen⟩, hfp⟩

end Rows

/-- **Postcondition and frame of an ingest.** -/
theorem ingest_postcondition (platform : Platform) (orgId : OrgId)
    (payload : FindingsReportedPayload) (seenAt : Timestamp) (db db' : FindingsDb)
    (h : Ingested platform orgId payload seenAt db db') :
    IngestPost platform orgId payload db db' where
  reported := by
    intro finding hfinding
    have hmem := (mem_fingerprints_collapseScan platform payload.assetId payload.findings
      (fingerprint platform payload.assetId finding)).mpr ⟨finding, hfinding, rfl⟩
    obtain ⟨row, hrow, hfp⟩ := List.mem_map.mp hmem
    obtain ⟨seenAt', id, hfind⟩ := find?_reported h hrow
    rw [hfp] at hfind
    obtain ⟨hr, hkey⟩ := Table.find?_eq_some.mp hfind
    exact ⟨_, ⟨hr, hkey⟩, fun r' hr' => Table.eq_of_key_eq hr'.1 hr (hr'.2.trans hkey.symm)⟩
  alive := fun r hr hrep => alive_of_reported h hr hrep
  open_reported := fun r hr horg hasset htype hopen =>
    reported_of_open h hr horg hasset htype hopen
  set_aside := by
    intro r hr hstate
    have hne : r.state ≠ .resolved ∧ r.state.unresolved = false := by
      rcases hstate with heq | heq | heq <;> rw [heq] <;> decide
    by_cases hrep : Reported platform orgId payload r
    · obtain ⟨r', hr', hid, hafter⟩ := of_reported h hr hrep
      exact ⟨r', hr', hid, hafter.trans (if_neg hne.1)⟩
    · exact ⟨r, of_unreported h hr hrep (Or.inr (Or.inr (Or.inr hne.2))), rfl, rfl⟩
  triaged := by
    intro r hr hrep hstate
    have hne : r.state ≠ .resolved := by
      rcases hstate with heq | heq <;> rw [heq] <;> decide
    obtain ⟨r', hr', hid, hafter⟩ := of_reported h hr hrep
    exact ⟨r', hr', hid, hafter.trans (if_neg hne)⟩
  frame := by
    intro r hr hother hrep
    refine of_unreported h hr hrep ?_
    rcases hother with horg | hasset | htype
    · exact Or.inl horg
    · exact Or.inr (Or.inl hasset)
    · exact Or.inr (Or.inr (Or.inl htype))

/-- The first scan of the repository. -/
theorem ingest_postcondition_shop :
    IngestPost ShopScan.platform ShopScan.orgId ShopScan.found ShopScan.db
      (IngestRun.advanceAll ShopScan.db
        (.start ShopScan.platform ShopScan.orgId ShopScan.found 1) ["f1", "f2"]).1 :=
  ingest_postcondition ShopScan.platform ShopScan.orgId ShopScan.found 1 ShopScan.db _
    ⟨["f1", "f2"], _, rfl, by decide⟩

end Findings
end Ctem
