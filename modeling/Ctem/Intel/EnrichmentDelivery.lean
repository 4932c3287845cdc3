import Ctem.Intel.Enrichment

/-!
# What a refresh delivers

A refresh writes the KEV columns of the mirrored rows before it looks at any
finding, and takes its work from the rows that differ.  A run that fails in
between has spent the difference without delivering it.

* `rowAfter` is what a list of writes does to one finding row;
  `kev_refresh` computes it for a whole refresh.
* `Delivered` is what a finding is owed for a CVE of it; `Owed` is the condition,
  on the state the last run starts in, under which that run delivers it.
* `enrichment_survives_iff` holds behind any number of failed runs, each cut off
  behind any of its writes.
-/

namespace Ctem
namespace Intel

open Foundation Contracts Findings

/-! ## What a write leaves of a finding -/

/-- The columns propagation reads. -/
structure SameSubject (r r' : FindingRow) : Prop where
  id : r'.id = r.id
  orgId : r'.orgId = r.orgId
  state : r'.state = r.state
  identifiers : r'.identifiers = r.identifiers
  scannerType : r'.scannerType = r.scannerType
  evidence : r'.evidence = r.evidence

theorem SameSubject.refl (r : FindingRow) : SameSubject r r :=
  ⟨rfl, rfl, rfl, rfl, rfl, rfl⟩

theorem SameSubject.trans {r₁ r₂ r₃ : FindingRow} (h₁ : SameSubject r₁ r₂)
    (h₂ : SameSubject r₂ r₃) : SameSubject r₁ r₃ :=
  ⟨h₂.id.trans h₁.id, h₂.orgId.trans h₁.orgId, h₂.state.trans h₁.state,
    h₂.identifiers.trans h₁.identifiers, h₂.scannerType.trans h₁.scannerType,
    h₂.evidence.trans h₁.evidence⟩

theorem SameSubject.carries {r r' : FindingRow} (h : SameSubject r r') (cve : String) :
    Carries r' cve ↔ Carries r cve := by
  unfold Carries
  rw [h.identifiers]

theorem SameSubject.reachedBy {r r' : FindingRow} (h : SameSubject r r') (cve : String) :
    reachedBy cve r' = reachedBy cve r := by
  have hcarries : decide (Carries r' cve) = decide (Carries r cve) :=
    decide_eq_decide.mpr (h.carries cve)
  rw [Intel.reachedBy, Intel.reachedBy, h.state, hcarries]

theorem SameSubject.findingIntelPatch {r r' : FindingRow} (h : SameSubject r r')
    (patch : IntelPatch) : findingIntelPatch r' patch = findingIntelPatch r patch := by
  unfold Intel.findingIntelPatch
  rw [h.scannerType, h.evidence]

theorem FindingIntelPatch.sameSubject (data : FindingIntelPatch) (r : FindingRow) :
    SameSubject r (data.apply r) :=
  ⟨rfl, rfl, rfl, rfl, rfl, rfl⟩

/-- What one write does to a finding row. -/
def EnrichWrite.onRow (r : FindingRow) : EnrichWrite → FindingRow
  | .patchFindings ids data => if r.id ∈ ids then data.apply r else r
  | _ => r

/-- What a list of writes does to a finding row. -/
def rowAfter (writes : List EnrichWrite) (r : FindingRow) : FindingRow :=
  writes.foldl EnrichWrite.onRow r

theorem EnrichWrite.sameSubject (w : EnrichWrite) (r : FindingRow) :
    SameSubject r (EnrichWrite.onRow r w) := by
  cases w with
  | patchFindings ids data =>
      change SameSubject r (if r.id ∈ ids then data.apply r else r)
      split
      · exact data.sameSubject r
      · exact SameSubject.refl r
  | kevRow u => exact SameSubject.refl r
  | epssRow u => exact SameSubject.refl r
  | requestRescore orgId ids => exact SameSubject.refl r

theorem rowAfter_sameSubject (writes : List EnrichWrite) (r : FindingRow) :
    SameSubject r (rowAfter writes r) := by
  induction writes generalizing r with
  | nil => exact SameSubject.refl r
  | cons w rest ih => exact (w.sameSubject r).trans (ih (EnrichWrite.onRow r w))

theorem rowAfter_append (ws ws' : List EnrichWrite) (r : FindingRow) :
    rowAfter (ws ++ ws') r = rowAfter ws' (rowAfter ws r) :=
  List.foldl_append

/-- The finding rows behind one write. -/
theorem EnrichState.write_rows (st : EnrichState) (w : EnrichWrite) :
    (st.write w).db.findings.rows = st.db.findings.rows.map fun r => EnrichWrite.onRow r w := by
  cases w with
  | patchFindings ids data =>
      change st.db.findings.rows.map _ = _
      apply List.map_congr_left
      intro r _
      by_cases hmem : r.id ∈ ids
      · simp [EnrichWrite.onRow, hmem]
      · simp [EnrichWrite.onRow, hmem]
  | kevRow u => exact (List.map_id _).symm
  | epssRow u => exact (List.map_id _).symm
  | requestRescore orgId ids => exact (List.map_id _).symm

/-- The finding rows behind a list of writes. -/
theorem EnrichState.writeAll_rows (st : EnrichState) (writes : List EnrichWrite) :
    (st.writeAll writes).db.findings.rows = st.db.findings.rows.map (rowAfter writes) := by
  induction writes generalizing st with
  | nil => exact (List.map_id _).symm
  | cons w rest ih =>
      change ((st.write w).writeAll rest).db.findings.rows = _
      rw [ih, st.write_rows, List.map_map]
      rfl

theorem EnrichState.mem_writeAll {st : EnrichState} {writes : List EnrichWrite} {r : FindingRow} :
    r ∈ (st.writeAll writes).db.findings ↔ ∃ r₀ ∈ st.db.findings, rowAfter writes r₀ = r := by
  rw [Table.mem_def, st.writeAll_rows, List.mem_map]
  rfl

/-- Behind failed runs every finding is there, about the same subject. -/
theorem failedRefreshes_finding {st : EnrichState} (failed : List (IntelAnswers × Nat))
    {f : FindingRow} (hf : f ∈ st.db.findings) :
    ∃ r ∈ (failedRefreshes st failed).db.findings, SameSubject f r := by
  induction failed generalizing st f with
  | nil => exact ⟨f, hf, SameSubject.refl f⟩
  | cons run rest ih =>
      obtain ⟨answers, k⟩ := run
      have hrow : rowAfter ((refreshWrites st answers).take k) f ∈
          (failedRefresh st answers k).db.findings :=
        EnrichState.mem_writeAll.mpr ⟨f, hf, rfl⟩
      obtain ⟨r, hr, hsame⟩ := ih hrow
      exact ⟨r, hr, (rowAfter_sameSubject _ f).trans hsame⟩

/-! ## The writes of one CVE -/

/-- What the patch of a CVE does to a finding row. -/
def patched (r : FindingRow) (e : String × IntelPatch) : FindingRow :=
  if reachedBy e.1 r then (findingIntelPatch r e.2).apply r else r

theorem patched_sameSubject (r : FindingRow) (e : String × IntelPatch) :
    SameSubject r (patched r e) := by
  unfold patched
  split
  · exact FindingIntelPatch.sameSubject _ r
  · exact SameSubject.refl r

/-- The ids of a group: the findings the CVE reaches whose patch is the group's. -/
theorem mem_patchGroups {db : FindingsDb} {cve : String} {patch : IntelPatch}
    {data : FindingIntelPatch} {r : FindingRow} (hr : r ∈ db.findings) :
    (∃ ids, (data, ids) ∈ patchGroups db cve patch ∧ r.id ∈ ids) ↔
      reachedBy cve r = true ∧ findingIntelPatch r patch = data := by
  have hpush : ∀ (s : List Uuid) (a x : Uuid), x ∈ s ++ [a] ↔ x ∈ s ∨ x = a := by simp
  have hcollect := AssocMap.mem_groupFold_collect (fun f => findingIntelPatch f patch)
    FindingRow.id (fun s a => s ++ [a]) hpush (db.findings.rows.filter (reachedBy cve)) data r.id
  refine Iff.trans hcollect ?_
  constructor
  · rintro ⟨b, hb, hdata, hid⟩
    rw [List.mem_filter] at hb
    have heq : b = r := FindingsDb.eq_of_id_eq hb.1 hr hid
    subst heq
    exact ⟨hb.2, hdata⟩
  · rintro ⟨hreach, hdata⟩
    exact ⟨r, List.mem_filter.mpr ⟨hr, hreach⟩, hdata, rfl⟩

/-- The writes of a list of groups. -/
def groupWrites (groups : AssocMap FindingIntelPatch (List Uuid)) : List EnrichWrite :=
  groups.map fun (data, ids) => .patchFindings ids data

/-- Groups that do not hold the row leave it. -/
theorem rowAfter_groups_miss (groups : AssocMap FindingIntelPatch (List Uuid)) (r : FindingRow)
    (hmiss : ∀ g ∈ groups, r.id ∉ g.2) : rowAfter (groupWrites groups) r = r := by
  induction groups with
  | nil => rfl
  | cons g rest ih =>
      have hhead : EnrichWrite.onRow r (.patchFindings g.2 g.1) = r :=
        if_neg (hmiss g List.mem_cons_self)
      change rowAfter (groupWrites rest) (EnrichWrite.onRow r (.patchFindings g.2 g.1)) = r
      rw [hhead]
      exact ih fun g' hg' => hmiss g' (List.mem_cons_of_mem _ hg')

/-- Groups that hold the row under one patch only write that patch once. -/
theorem rowAfter_groups_hit (groups : AssocMap FindingIntelPatch (List Uuid))
    (hnodup : groups.keys.Nodup) (r : FindingRow) {data : FindingIntelPatch} {ids : List Uuid}
    (hmem : (data, ids) ∈ groups) (hid : r.id ∈ ids)
    (honly : ∀ g ∈ groups, r.id ∈ g.2 → g.1 = data) :
    rowAfter (groupWrites groups) r = data.apply r := by
  obtain ⟨pre, post, rfl⟩ := List.append_of_mem hmem
  simp only [AssocMap.keys, List.map_append, List.map_cons] at hnodup
  have hmissPre : ∀ g ∈ pre, r.id ∉ g.2 := by
    intro g hg hin
    have hdata : g.1 = data := honly g (by simp [hg]) hin
    have hdisjoint := (List.nodup_append.mp hnodup).2.2 g.1 (List.mem_map_of_mem hg) data
      List.mem_cons_self
    exact hdisjoint hdata
  have hmissPost : ∀ g ∈ post, (data.apply r).id ∉ g.2 := by
    intro g hg hin
    have hdata : g.1 = data := honly g (by simp [hg]) hin
    have hfresh := (List.nodup_cons.mp (List.nodup_append.mp hnodup).2.1).1
    exact hfresh (hdata ▸ List.mem_map_of_mem hg)
  have hwrites : groupWrites (pre ++ (data, ids) :: post) =
      groupWrites pre ++ (.patchFindings ids data :: groupWrites post) := by
    simp [groupWrites]
  rw [hwrites, rowAfter_append, rowAfter_groups_miss pre r hmissPre]
  change rowAfter (groupWrites post) (EnrichWrite.onRow r (.patchFindings ids data)) = _
  have hhead : EnrichWrite.onRow r (.patchFindings ids data) = data.apply r := if_pos hid
  rw [hhead]
  exact rowAfter_groups_miss post _ hmissPost

/-- The writes of one CVE, on a row of the database or one about the same subject. -/
theorem rowAfter_patchGroups {db : FindingsDb} {r₀ r : FindingRow} (hr₀ : r₀ ∈ db.findings)
    (hsame : SameSubject r₀ r) (cve : String) (patch : IntelPatch) :
    rowAfter (groupWrites (patchGroups db cve patch)) r = patched r (cve, patch) := by
  have hgroups : ∀ data, (∃ ids, (data, ids) ∈ patchGroups db cve patch ∧ r₀.id ∈ ids) ↔
      reachedBy cve r₀ = true ∧ findingIntelPatch r₀ patch = data := fun _ => mem_patchGroups hr₀
  unfold patched
  rw [hsame.reachedBy, hsame.findingIntelPatch]
  by_cases hreach : reachedBy cve r₀ = true
  · obtain ⟨ids, hmem, hid⟩ := (hgroups _).mpr ⟨hreach, rfl⟩
    rw [if_pos hreach]
    refine rowAfter_groups_hit _ (AssocMap.nodup_keys_groupFold _ _ _) r hmem
      (hsame.id ▸ hid) ?_
    intro g hg hin
    exact ((hgroups g.1).mp ⟨g.2, hg, hsame.id ▸ hin⟩).2.symm
  · rw [if_neg hreach]
    apply rowAfter_groups_miss
    intro g hg hin
    exact hreach ((hgroups g.1).mp ⟨g.2, hg, hsame.id ▸ hin⟩).1

/-- A whole refresh, on a row of the state it starts in. -/
theorem rowAfter_refresh {st : EnrichState} {answers : IntelAnswers} {r : FindingRow}
    (hr : r ∈ st.db.findings) :
    rowAfter (refreshWrites st answers) r = (refreshPatches st answers).foldl patched r := by
  -- only the writes of `propagate` on the findings reach the row
  have hskip : ∀ (ws : List EnrichWrite), (∀ w ∈ ws, ∀ r, EnrichWrite.onRow r w = r) →
      ∀ r, rowAfter ws r = r := by
    intro ws
    induction ws with
    | nil => exact fun _ _ => rfl
    | cons w rest ih =>
        intro hws r
        change rowAfter rest (EnrichWrite.onRow r w) = r
        rw [hws w List.mem_cons_self]
        exact ih (fun w' hw' => hws w' (List.mem_cons_of_mem _ hw')) r
  have hkev : ∀ r, rowAfter ((refreshKev st answers).map .kevRow) r = r := by
    apply hskip
    intro w hw r
    obtain ⟨u, -, rfl⟩ := List.mem_map.mp hw
    rfl
  have hepss : ∀ r, rowAfter ((refreshEpss st answers).map .epssRow) r = r := by
    apply hskip
    intro w hw r
    obtain ⟨u, -, rfl⟩ := List.mem_map.mp hw
    rfl
  have hrescore : ∀ r, rowAfter (rescoreWrites st answers) r = r := by
    apply hskip
    intro w hw r
    obtain ⟨u, -, rfl⟩ := List.mem_map.mp hw
    rfl
  have hfold : ∀ (patches : AssocMap String IntelPatch) (r' : FindingRow), SameSubject r r' →
      rowAfter (patches.flatMap fun e => groupWrites (patchGroups st.db e.1 e.2)) r' =
        patches.foldl patched r' := by
    intro patches
    induction patches with
    | nil => exact fun _ _ => rfl
    | cons e rest ih =>
        intro r' hsame
        rw [List.flatMap_cons, rowAfter_append, rowAfter_patchGroups hr hsame, List.foldl_cons]
        exact ih _ (hsame.trans (patched_sameSubject r' e))
  unfold refreshWrites
  rw [rowAfter_append, rowAfter_append, rowAfter_append, hkev, hepss, hrescore]
  exact hfold _ r (SameSubject.refl r)

/-! ## The KEV flag behind a refresh -/

/-- The CVEs of the rows that differ from the catalogue, in the order the refresh
propagates them in. -/
def differingCves (st : EnrichState) (catalog : KevCatalog) : List String :=
  ((computeKevUpdates st.mirror.vulns.rows catalog).map KevUpdate.cve).eraseDups

/-- Those a finding carries. -/
def pushedCves (st : EnrichState) (catalog : KevCatalog) (f : FindingRow) : List String :=
  (differingCves st catalog).filter fun cve => decide (Carries f cve)

theorem mem_pushedCves {st : EnrichState} {catalog : KevCatalog} {f : FindingRow} {cve : String} :
    cve ∈ pushedCves st catalog f ↔ cve ∈ differingCves st catalog ∧ Carries f cve := by
  simp [pushedCves]

/-- A KEV update carries the catalogue's membership of its CVE. -/
theorem kevUpdate_kev {catalog : KevCatalog} {r : VulnerabilityRow} {u : KevUpdate}
    (hu : kevUpdate? catalog r = some u) : u.kev = catalog.member u.cve := by
  unfold kevUpdate? at hu
  cases hcve : resolveCve r with
  | none => simp [hcve] at hu
  | some cve =>
      simp only [hcve] at hu
      split at hu
      · rw [Option.some_inj] at hu
        subst hu
        rfl
      · exact absurd hu (by simp)

/-- What a patch of the map says of the KEV flag of a row, if it reaches the row. -/
def kevPush (r : FindingRow) (e : String × IntelPatch) : Option Bool :=
  if reachedBy e.1 r then e.2.kev else none

theorem SameSubject.kevPush {r r' : FindingRow} (h : SameSubject r r') :
    kevPush r' = kevPush r := by
  funext e
  unfold Intel.kevPush
  rw [h.reachedBy]

/-- The last patch that has a KEV flag and reaches the row decides. -/
theorem kev_foldl_patched (patches : AssocMap String IntelPatch) (r : FindingRow) :
    (patches.foldl patched r).kev = ((patches.filterMap (kevPush r)).getLast?).getD r.kev := by
  induction patches generalizing r with
  | nil => rfl
  | cons e rest ih =>
      have hsame := patched_sameSubject r e
      have hkev : (patched r e).kev = (kevPush r e).getD r.kev := by
        unfold patched kevPush
        split <;> rfl
      rw [List.foldl_cons, ih, hsame.kevPush, List.filterMap_cons]
      cases hpush : kevPush r e with
      | none => simp [hkev, hpush]
      | some kev =>
          rw [hkev, hpush, List.getLast?_cons]
          simp

/-- An EPSS score added to the patch of a CVE pushes no KEV flag. -/
theorem filterMap_kevPush_upsert (m : AssocMap String IntelPatch) (cve : String) (score : Rat)
    (r : FindingRow) :
    (m.upsert cve fun old => { old.getD {} with epssScore := some score }).filterMap (kevPush r) =
      m.filterMap (kevPush r) := by
  induction m with
  | nil => simp [AssocMap.upsert, kevPush]
  | cons e rest ih =>
      obtain ⟨c, patch⟩ := e
      unfold AssocMap.upsert
      split
      · rfl
      · rw [List.filterMap_cons, List.filterMap_cons, ih]

/-- The KEV flags a refresh pushes onto an open finding, in order. -/
theorem filterMap_kevPush_refreshPatches (st : EnrichState) (answers : IntelAnswers)
    {r : FindingRow} (hopen : r.state.unresolved = true) :
    (refreshPatches st answers).filterMap (kevPush r) =
      (pushedCves st answers.catalog r).map answers.catalog.member := by
  have hepss : ∀ (epss : List EpssUpdate) (m : AssocMap String IntelPatch),
      (epss.foldl (fun m u => m.upsert u.cve fun old =>
        { old.getD {} with epssScore := some u.epssScore }) m).filterMap (kevPush r) =
          m.filterMap (kevPush r) := by
    intro epss
    induction epss with
    | nil => exact fun _ => rfl
    | cons u rest ih =>
        intro m
        rw [List.foldl_cons, ih, filterMap_kevPush_upsert]
  have hkev : ∀ e ∈ AssocMap.groupFold KevUpdate.cve
      (fun (u : KevUpdate) (old : Option IntelPatch) => { old.getD {} with kev := some u.kev })
      (refreshKev st answers), e.2.kev = some (answers.catalog.member e.1) := by
    apply AssocMap.forall_mem_groupFold
    intro u hu old
    obtain ⟨row, -, hrow⟩ := List.mem_filterMap.mp hu
    exact congrArg some (kevUpdate_kev hrow)
  have hpush : ∀ e ∈ AssocMap.groupFold KevUpdate.cve
      (fun (u : KevUpdate) (old : Option IntelPatch) => { old.getD {} with kev := some u.kev })
      (refreshKev st answers),
      kevPush r e = if Carries r e.1 then some (answers.catalog.member e.1) else none := by
    intro e he
    unfold kevPush reachedBy
    rw [hopen, hkev e he]
    simp
  unfold refreshPatches patchesByCve
  rw [hepss, List.filterMap_congr hpush]
  have hkeys := AssocMap.keys_groupFold KevUpdate.cve
    (fun (u : KevUpdate) (old : Option IntelPatch) => { old.getD {} with kev := some u.kev })
    (refreshKev st answers)
  unfold pushedCves differingCves
  change _ = ((((refreshKev st answers).map KevUpdate.cve).eraseDups).filter _).map _
  rw [← hkeys]
  generalize AssocMap.groupFold KevUpdate.cve _ (refreshKev st answers) = m
  induction m with
  | nil => rfl
  | cons e rest ih =>
      simp only [AssocMap.keys, List.map_cons, List.filterMap_cons, List.filter_cons] at ih ⊢
      by_cases hcarries : Carries r e.1
      · simp [hcarries, ih]
      · simp [hcarries, ih]

/-- The KEV flag of an open finding behind a refresh: the membership of the CVE
pushed last, and the flag it had when none is pushed. -/
theorem kev_refresh {st : EnrichState} {answers : IntelAnswers} {r : FindingRow}
    (hr : r ∈ st.db.findings) (hopen : r.state.unresolved = true) :
    (rowAfter (refreshWrites st answers) r).kev =
      ((pushedCves st answers.catalog r).getLast?.map answers.catalog.member).getD r.kev := by
  rw [rowAfter_refresh hr, kev_foldl_patched, filterMap_kevPush_refreshPatches st answers hopen,
    List.getLast?_map]

/-! ## The rescore requests of a refresh -/

/-- A rescore request that names the finding has been sent to its organisation. -/
def Rescored (st : EnrichState) (f : FindingRow) : Prop :=
  ∃ ids, (f.orgId, ids) ∈ st.sent ∧ f.id ∈ ids

/-- The request a write publishes. -/
def EnrichWrite.request? : EnrichWrite → Option (OrgId × List Uuid)
  | .requestRescore orgId ids => some (orgId, ids)
  | _ => none

theorem EnrichState.writeAll_sent (st : EnrichState) (writes : List EnrichWrite) :
    (st.writeAll writes).sent = st.sent ++ writes.filterMap EnrichWrite.request? := by
  induction writes generalizing st with
  | nil => exact (List.append_nil _).symm
  | cons w rest ih =>
      change ((st.write w).writeAll rest).sent = _
      rw [ih]
      cases w with
      | requestRescore orgId ids => simp [EnrichState.write, EnrichWrite.request?]
      | kevRow u => rfl
      | epssRow u => rfl
      | patchFindings ids data => rfl

theorem refresh_sent (st : EnrichState) (answers : IntelAnswers) :
    (refresh st answers).sent =
      st.sent ++ touchedFindings st.db (refreshPatches st answers) := by
  have hrows : ∀ ws : List EnrichWrite, (∀ w ∈ ws, EnrichWrite.request? w = none) →
      ws.filterMap EnrichWrite.request? = [] := by
    intro ws hws
    exact List.filterMap_eq_nil_iff.mpr hws
  have hkev : ((refreshKev st answers).map EnrichWrite.kevRow).filterMap
      EnrichWrite.request? = [] := by
    apply hrows
    intro w hw
    obtain ⟨u, -, rfl⟩ := List.mem_map.mp hw
    rfl
  have hepss : ((refreshEpss st answers).map EnrichWrite.epssRow).filterMap
      EnrichWrite.request? = [] := by
    apply hrows
    intro w hw
    obtain ⟨u, -, rfl⟩ := List.mem_map.mp hw
    rfl
  have hfindings : (findingWrites st answers).filterMap EnrichWrite.request? = [] := by
    apply hrows
    intro w hw
    obtain ⟨e, -, hw⟩ := List.mem_flatMap.mp hw
    obtain ⟨g, -, rfl⟩ := List.mem_map.mp hw
    rfl
  have hrescore : (rescoreWrites st answers).filterMap EnrichWrite.request? =
      touchedFindings st.db (refreshPatches st answers) := by
    unfold rescoreWrites
    rw [List.filterMap_map]
    exact List.filterMap_some
  unfold refresh refreshWrites
  rw [st.writeAll_sent, List.filterMap_append, List.filterMap_append, List.filterMap_append,
    hkev, hepss, hfindings, hrescore]
  rfl

/-- The CVEs a refresh has a patch for. -/
theorem mem_keys_refreshPatches {st : EnrichState} {answers : IntelAnswers} {cve : String} :
    cve ∈ (refreshPatches st answers).keys ↔
      cve ∈ differingCves st answers.catalog ∨ ∃ u ∈ refreshEpss st answers, u.cve = cve := by
  have hepss := AssocMap.mem_keys_foldl_upsert EpssUpdate.cve
    (fun (u : EpssUpdate) (old : Option IntelPatch) =>
      { old.getD {} with epssScore := some u.epssScore })
    (refreshEpss st answers)
    (AssocMap.groupFold KevUpdate.cve (fun u old => { old.getD {} with kev := some u.kev })
      (refreshKev st answers)) cve
  refine hepss.trans ?_
  rw [AssocMap.keys_groupFold]
  rfl

/-- Whom a refresh has rescored: the open findings that carry a CVE with a patch. -/
theorem rescored_refresh {st : EnrichState} {answers : IntelAnswers} {r : FindingRow}
    (hr : r ∈ st.db.findings) (hopen : r.state.unresolved = true) :
    Rescored (refresh st answers) r ↔
      Rescored st r ∨ pushedCves st answers.catalog r ≠ [] ∨
        ∃ u ∈ refreshEpss st answers, Carries r u.cve := by
  have htouched := AssocMap.mem_groupFold_collect FindingRow.orgId FindingRow.id setAdd mem_setAdd
    ((refreshPatches st answers).flatMap fun e =>
      st.db.findings.rows.filter (reachedBy e.1)) r.orgId r.id
  have hreached : (∃ ids, (r.orgId, ids) ∈ touchedFindings st.db (refreshPatches st answers) ∧
      r.id ∈ ids) ↔ ∃ cve ∈ (refreshPatches st answers).keys, Carries r cve := by
    refine htouched.trans ?_
    constructor
    · rintro ⟨b, hb, -, hid⟩
      obtain ⟨e, he, hb⟩ := List.mem_flatMap.mp hb
      rw [List.mem_filter] at hb
      have heq : b = r := FindingsDb.eq_of_id_eq hb.1 hr hid
      subst heq
      have hreach := hb.2
      unfold reachedBy at hreach
      simp only [Bool.and_eq_true, decide_eq_true_eq] at hreach
      exact ⟨e.1, List.mem_map_of_mem he, hreach.2⟩
    · rintro ⟨cve, hcve, hcarries⟩
      obtain ⟨e, he, rfl⟩ := List.mem_map.mp hcve
      have hreach : reachedBy e.1 r = true := by simp [reachedBy, hopen, hcarries]
      exact ⟨r, List.mem_flatMap.mpr ⟨e, he, List.mem_filter.mpr ⟨hr, hreach⟩⟩, rfl, rfl⟩
  have hsplit : Rescored (refresh st answers) r ↔ Rescored st r ∨
      ∃ ids, (r.orgId, ids) ∈ touchedFindings st.db (refreshPatches st answers) ∧ r.id ∈ ids := by
    unfold Rescored
    rw [refresh_sent]
    simp only [List.mem_append, or_and_right, exists_or]
  rw [hsplit, hreached]
  apply or_congr_right
  simp only [mem_keys_refreshPatches]
  constructor
  · rintro ⟨cve, hdiffers | ⟨u, hu, rfl⟩, hcarries⟩
    · exact Or.inl (List.ne_nil_of_mem (mem_pushedCves.mpr ⟨hdiffers, hcarries⟩))
    · exact Or.inr ⟨u, hu, hcarries⟩
  · rintro (hpushed | ⟨u, hu, hcarries⟩)
    · obtain ⟨cve, hcve⟩ := List.exists_mem_of_ne_nil _ hpushed
      obtain ⟨hdiffers, hcarries⟩ := mem_pushedCves.mp hcve
      exact ⟨cve, Or.inl hdiffers, hcarries⟩
    · exact ⟨u.cve, Or.inr ⟨u, hu, rfl⟩, hcarries⟩

/-! ## Delivery -/

/-- The state before the first run: no request has been sent. -/
def EnrichState.start (mirror : MirrorStore) (db : FindingsDb) : EnrichState :=
  ⟨mirror, db, []⟩

/-- The catalogue's membership of the CVE is not what a mirrored row of it says. -/
def MembershipChanged (mirror : MirrorStore) (catalog : KevCatalog) (cve : String) : Prop :=
  ∃ v ∈ mirror.vulns, resolveCve v = some cve ∧ v.kev ≠ catalog.member cve

/-- The finding has the flag and its organisation has been asked to rescore it. -/
structure Delivered (st : EnrichState) (f : FindingRow) (kev : Bool) : Prop where
  flag : ∃ r ∈ st.db.findings, r.id = f.id ∧ r.kev = kev
  rescored : Rescored st f

/-- In the state a run starts in, the finding of this row can still get the
membership of the CVE: the last of its CVEs with a row that differs has the same
membership; or no row of its CVEs differs, the flag is there already, and the
request is sent or an EPSS change will send it. -/
structure Deliverable (st : EnrichState) (answers : IntelAnswers) (r : FindingRow) (cve : String) :
    Prop where
  pushed : ∀ last ∈ (pushedCves st answers.catalog r).getLast?,
    answers.catalog.member last = answers.catalog.member cve
  spent : pushedCves st answers.catalog r = [] →
    r.kev = answers.catalog.member cve ∧
      (Rescored st r ∨ ∃ u ∈ refreshEpss st answers, Carries r u.cve)

/-- One refresh delivers precisely what is deliverable when it starts. -/
theorem delivered_refresh_iff {st : EnrichState} {answers : IntelAnswers} {r : FindingRow}
    (hr : r ∈ st.db.findings) (hopen : r.state.unresolved = true) (cve : String) :
    Delivered (refresh st answers) r (answers.catalog.member cve) ↔
      Deliverable st answers r cve := by
  have hflag : (∃ r' ∈ (refresh st answers).db.findings, r'.id = r.id ∧
      r'.kev = answers.catalog.member cve) ↔
      (rowAfter (refreshWrites st answers) r).kev = answers.catalog.member cve := by
    have hmem : rowAfter (refreshWrites st answers) r ∈ (refresh st answers).db.findings :=
      EnrichState.mem_writeAll.mpr ⟨r, hr, rfl⟩
    have hid := (rowAfter_sameSubject (refreshWrites st answers) r).id
    constructor
    · rintro ⟨r', hr', hid', hkev⟩
      rw [FindingsDb.eq_of_id_eq hmem hr' (hid.trans hid'.symm)]
      exact hkev
    · exact fun hkev => ⟨_, hmem, hid, hkev⟩
  have hdelivered : Delivered (refresh st answers) r (answers.catalog.member cve) ↔
      (rowAfter (refreshWrites st answers) r).kev = answers.catalog.member cve ∧
        Rescored (refresh st answers) r := by
    rw [← hflag]
    exact ⟨fun h => ⟨h.flag, h.rescored⟩, fun h => ⟨h.1, h.2⟩⟩
  rw [hdelivered, kev_refresh hr hopen, rescored_refresh hr hopen]
  cases hlast : (pushedCves st answers.catalog r).getLast? with
  | none =>
      have hnil : pushedCves st answers.catalog r = [] := List.getLast?_eq_none_iff.mp hlast
      constructor
      · rintro ⟨hkev, hrescored⟩
        refine ⟨by simp [hlast], fun _ => ⟨hkev, ?_⟩⟩
        rcases hrescored with hsent | hne | hepss
        · exact Or.inl hsent
        · exact absurd hnil hne
        · exact Or.inr hepss
      · intro h
        obtain ⟨hkev, hsent | hepss⟩ := h.spent hnil
        · exact ⟨hkev, Or.inl hsent⟩
        · exact ⟨hkev, Or.inr (Or.inr hepss)⟩
  | some last =>
      have hne : pushedCves st answers.catalog r ≠ [] := by
        intro hnil
        simp [hnil] at hlast
      constructor
      · rintro ⟨hkev, -⟩
        refine ⟨?_, fun hnil => absurd hnil hne⟩
        intro last' hlast'
        rw [hlast, Option.mem_some_iff] at hlast'
        subst hlast'
        exact hkev
      · intro h
        exact ⟨h.pushed last hlast, Or.inr (Or.inl hne)⟩

/-- A row that still differs in KEV keeps its CVE among those to propagate. -/
theorem differs_of_changed {st : EnrichState} {catalog : KevCatalog} {cve : String}
    (hchanged : MembershipChanged st.mirror catalog cve) : cve ∈ differingCves st catalog := by
  obtain ⟨v, hv, hcve, hkev⟩ := hchanged
  have hupdate : kevUpdate? catalog v = some ⟨v.id, cve, catalog.member cve,
      (AssocMap.lookup? catalog cve).getD none⟩ := by
    unfold kevUpdate?
    rw [hcve]
    exact if_pos (Or.inl (Ne.symm hkev))
  unfold differingCves
  rw [List.mem_eraseDups]
  exact List.mem_map.mpr ⟨_, List.mem_filterMap.mpr ⟨v, hv, hupdate⟩, rfl⟩

/-- As long as the row of a changed CVE has not been written, a retry delivers it,
where the other CVEs pushed onto the finding agree. -/
theorem deliverable_of_unspent {st : EnrichState} {answers : IntelAnswers} {r : FindingRow}
    {cve : String} (hcarries : Carries r cve)
    (hchanged : MembershipChanged st.mirror answers.catalog cve)
    (hagree : ∀ c ∈ pushedCves st answers.catalog r,
      answers.catalog.member c = answers.catalog.member cve) :
    Deliverable st answers r cve := by
  refine ⟨fun last hlast => hagree last (List.mem_of_getLast? hlast), ?_⟩
  intro hnil
  have hpushed : cve ∈ pushedCves st answers.catalog r :=
    mem_pushedCves.mpr ⟨differs_of_changed hchanged, hcarries⟩
  rw [hnil] at hpushed
  exact absurd hpushed List.not_mem_nil

/-- Behind any failed runs, the run that succeeds delivers to every open finding
what the catalogue changed precisely when it is still deliverable in the state the
run starts in. -/
theorem enrichment_survives_iff (mirror : MirrorStore) (db : FindingsDb)
    (failed : List (IntelAnswers × Nat)) (last : IntelAnswers) :
    (∀ f ∈ db.findings, f.state.unresolved = true → ∀ cve, Carries f cve →
      MembershipChanged mirror last.catalog cve →
      Delivered (refresh (failedRefreshes (.start mirror db) failed) last) f
        (last.catalog.member cve)) ↔
      ∀ f ∈ db.findings, f.state.unresolved = true → ∀ cve, Carries f cve →
        MembershipChanged mirror last.catalog cve →
        ∃ r ∈ (failedRefreshes (.start mirror db) failed).db.findings, r.id = f.id ∧
          Deliverable (failedRefreshes (.start mirror db) failed) last r cve := by
  have hone : ∀ f ∈ db.findings, f.state.unresolved = true → ∀ cve,
      (Delivered (refresh (failedRefreshes (.start mirror db) failed) last) f
          (last.catalog.member cve) ↔
        ∃ r ∈ (failedRefreshes (.start mirror db) failed).db.findings, r.id = f.id ∧
          Deliverable (failedRefreshes (.start mirror db) failed) last r cve) := by
    intro f hf hopen cve
    have hstart : f ∈ (EnrichState.start mirror db).db.findings := hf
    obtain ⟨r, hr, hsame⟩ := failedRefreshes_finding failed hstart
    have hopen' : r.state.unresolved = true := hsame.state ▸ hopen
    have hsubject : Delivered (refresh (failedRefreshes (.start mirror db) failed) last) f
        (last.catalog.member cve) ↔
        Delivered (refresh (failedRefreshes (.start mirror db) failed) last) r
          (last.catalog.member cve) := by
      have hrescored : Rescored (refresh (failedRefreshes (.start mirror db) failed) last) f ↔
          Rescored (refresh (failedRefreshes (.start mirror db) failed) last) r := by
        unfold Rescored
        rw [hsame.id, hsame.orgId]
      constructor
      · intro h
        exact ⟨hsame.id ▸ h.flag, hrescored.mp h.rescored⟩
      · intro h
        exact ⟨hsame.id ▸ h.flag, hrescored.mpr h.rescored⟩
    rw [hsubject, delivered_refresh_iff hr hopen']
    constructor
    · exact fun h => ⟨r, hr, hsame.id, h⟩
    · rintro ⟨r', hr', hid, h⟩
      rw [FindingsDb.eq_of_id_eq hr hr' (hsame.id.trans hid.symm)]
      exact h
  constructor
  · exact fun h f hf hopen cve hcarries hchanged =>
      (hone f hf hopen cve).mp (h f hf hopen cve hcarries hchanged)
  · exact fun h f hf hopen cve hcarries hchanged =>
      (hone f hf hopen cve).mpr (h f hf hopen cve hcarries hchanged)

/-! ## A run that loses a CVE -/

/-- A mirror with one advisory, not in the catalogue yet. -/
def xzMirror : MirrorStore :=
  MirrorStore.empty.upsertVuln
    { id := "CVE-2024-3094"
      source := "OSV"
      aliases := []
      summary := ""
      details := ""
      severity := "critical"
      cvssVector := none
      cvssScore := none
      publishedAt := none
      modifiedAt := none
      references := []
      affected := [] }

/-- An open finding of it. -/
def xzFinding : FindingRow where
  id := "f1"
  orgId := "org-a"
  assetId := "a1"
  fingerprint := "fp1"
  scannerType := .sca
  scannerName := "ctem-sca"
  title := "xz-utils"
  severity := .critical
  identifiers := [⟨"cve", "CVE-2024-3094"⟩]

/-- The finding on its asset. -/
def xzDb : FindingsDb where
  assets := ⟨[⟨"a1", "org-a", "repository", "github:acme/api", "unknown", "unknown", [], .obj [],
    none, none⟩], List.nodup_singleton _⟩
  findings := ⟨[xzFinding], List.nodup_singleton _⟩
  idNodup := List.nodup_singleton _
  findingAsset := by
    intro r hr
    have heq : r = xzFinding := List.mem_singleton.mp hr
    subst heq
    exact ⟨_, List.mem_singleton.mpr rfl, rfl, rfl⟩

/-- The catalogue lists the CVE, EPSS has no score for it. -/
def xzAnswers : IntelAnswers := ⟨[("CVE-2024-3094", none)], []⟩

/-- The EPSS query of the first run fails, behind the one KEV row it wrote: the next
run finds no difference, leaves the finding's flag and asks for no rescore. -/
theorem epss_outage_loses_kev :
    xzFinding ∈ xzDb.findings ∧ xzFinding.state.unresolved = true ∧
      Carries xzFinding "CVE-2024-3094" ∧
      MembershipChanged xzMirror xzAnswers.catalog "CVE-2024-3094" ∧
      ¬ Delivered (refresh (failedRefreshes (.start xzMirror xzDb) [(xzAnswers, 1)]) xzAnswers)
        xzFinding (xzAnswers.catalog.member "CVE-2024-3094") := by
  refine ⟨List.mem_singleton.mpr rfl, rfl, by decide, ⟨_, List.mem_singleton.mpr rfl, by decide,
    by decide⟩, ?_⟩
  rintro ⟨⟨r, hr, -, hkev⟩, -⟩
  have hrows : ∀ r ∈ (refresh (failedRefreshes (.start xzMirror xzDb) [(xzAnswers, 1)])
      xzAnswers).db.findings.rows, r.kev = false := by decide
  rw [hrows r hr] at hkev
  exact absurd hkev (by decide)

end Intel
end Ctem
