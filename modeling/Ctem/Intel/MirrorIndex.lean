import Ctem.Foundation.Runs
import Ctem.Intel.MirrorCoverage

/-!
# The package index over a run of writes

Any advisories are written one behind another, in either mode, with NVD records between them.
The index follows the affected entries: a write that stores entries rewrites the rows of its
advisory, one that fills in adds rows, and an NVD record leaves both alone.

* `Stores` says that a write stores its own entries; `writeAdvisory_stores` and
  `writeAdvisory_adds` are the two effects of an advisory write.
* `EmptyUnindexed` is the invariant behind "a fill removes nothing": a row without entries has
  no index rows, so the fill that replaces it replaces nothing.
* `mirror_index_iff`: the index has a row for every stored entry, in every state of a run,
  precisely when no write stores two packages with the same `ecosystem:name` text.
-/

namespace Ctem
namespace Intel

open Foundation

namespace MirrorStore

/-! ## Columns -/

/-- A column of the row of that id. -/
def columnAt {γ : Type} (column : VulnerabilityRow → γ) (st : MirrorStore) (id : String) :
    Option γ :=
  (st.vulns.find? id).map column

/-- The affected entries that are stored. -/
def affectedAt (st : MirrorStore) (id : String) : Option (List OsvAffected) :=
  columnAt (fun r => r.data.affected) st id

/-- What the enrichment jobs have written. -/
def enrichmentAt (st : MirrorStore) (id : String) : Option (Bool × Option Rat) :=
  columnAt (fun r => (r.kev, r.epssScore)) st id

section Columns

variable {γ : Type} {column : VulnerabilityRow → γ}

/-- An update that does not write the column. -/
theorem columnAt_updateVuln (st : MirrorStore) (id : String)
    (f : VulnerabilityRow → VulnerabilityRow) (hid : ∀ r, (f r).id = r.id)
    (hf : ∀ r, column (f r) = column r) (id' : String) :
    columnAt column (st.updateVuln id f hid) id' = columnAt column st id' := by
  unfold columnAt updateVuln
  simp only
  by_cases hsame : id' = id
  · subst hsame
    cases hrow : st.vulns.find? id' with
    | none =>
        have hnone : (st.vulns.modify id' f hid).find? id' = none := by
          rw [Table.find?_eq_none] at hrow ⊢
          intro r hr
          obtain ⟨r₀, hr₀, rfl⟩ := Table.mem_modify.mp hr
          rw [if_neg (hrow r₀ hr₀)]
          exact hrow r₀ hr₀
        rw [hnone]
    | some r =>
        rw [Table.find?_modify_self hrow, Option.map_some, Option.map_some, hf]
  · rw [Table.find?_modify_ne hsame]

theorem columnAt_upsertVuln_self (st : MirrorStore) (data : VulnerabilityData) :
    columnAt column (st.upsertVuln data) data.id =
      some (((st.vulns.find? data.id).map fun r => column (withData data r)).getD
        (column { data := data })) := by
  unfold columnAt
  change ((st.vulns.upsert { data := data } (withData data) (fun _ => rfl)).find?
    (VulnerabilityRow.id { data := data })).map column = _
  refine (congrArg (Option.map column) Table.find?_upsert_self).trans ?_
  have hkey : VulnerabilityRow.id { data := data } = data.id := rfl
  rw [hkey]
  cases st.vulns.find? data.id with
  | none => rfl
  | some r => rfl

theorem columnAt_upsertVuln_ne (st : MirrorStore) (data : VulnerabilityData) {id : String}
    (hne : id ≠ data.id) : columnAt column (st.upsertVuln data) id = columnAt column st id := by
  have hkey : id ≠ VulnerabilityRow.id { data := data } := hne
  unfold columnAt
  change ((st.vulns.upsert { data := data } (withData data) (fun _ => rfl)).find? id).map column = _
  exact congrArg (Option.map column) (Table.find?_upsert_ne hkey)

theorem columnAt_dropIndex (st : MirrorStore) (vulnId id : String) :
    columnAt column (st.dropIndex vulnId) id = columnAt column st id := rfl

theorem columnAt_addIndex (st : MirrorStore) (vulnId : String) (packages : List PackageKey)
    (id : String) : columnAt column (st.addIndex vulnId packages) id = columnAt column st id := by
  unfold columnAt
  rw [addIndex_vulns]

/-- The scores that `writeNvd` lays over other advisories. -/
theorem columnAt_foldl_scoreOver (data : VulnerabilityData)
    (hcolumn : ∀ r, column (scoreOver data r) = column r) (ids : List String) (st : MirrorStore)
    (id : String) :
    columnAt column
        (ids.foldl (fun st id => st.updateVuln id (scoreOver data) (fun _ => rfl)) st) id =
      columnAt column st id := by
  induction ids generalizing st with
  | nil => rfl
  | cons other rest ih =>
      rw [List.foldl_cons, ih]
      exact columnAt_updateVuln st other (scoreOver data) (fun _ => rfl) hcolumn id

end Columns

theorem indexed_foldl_scoreOver (data : VulnerabilityData) (ids : List String) (st : MirrorStore)
    (id : String) (p : PackageKey) :
    (ids.foldl (fun st id => st.updateVuln id (scoreOver data) (fun _ => rfl)) st).Indexed id p ↔
      st.Indexed id p := by
  induction ids generalizing st with
  | nil => rfl
  | cons other rest ih => exact ih _

/-- Without a row there are no index rows. -/
theorem not_indexed_of_affectedAt_none {st : MirrorStore} {id : String}
    (h : st.affectedAt id = none) (p : PackageKey) : ¬ st.Indexed id p := by
  intro hindexed
  obtain ⟨v, hv, hid⟩ := st.affectsVuln _ hindexed
  have hrow : st.vulns.find? id = none := Option.map_eq_none_iff.mp h
  exact Table.find?_eq_none.mp hrow v hv hid

/-! ## The effect of a write -/

/-- The write stores the entries it brings. -/
def Stores (st : MirrorStore) (id : String) (mode : WriteMode) : Prop :=
  mode = .replace ∨ (st.affectedAt id).getD [] = []

/-- A write that stores its entries. -/
theorem writeAdvisory_stores {st : MirrorStore} {data : VulnerabilityData} {mode : WriteMode}
    (h : Stores st data.id mode) (packages : List PackageKey) :
    st.writeAdvisory data packages mode = st.replaceAdvisory data packages := by
  unfold writeAdvisory
  split
  · rename_i existing hrow
    rcases h with hmode | hempty
    · cases hmode
    · have hentries : existing.data.affected = [] := by
        unfold affectedAt columnAt at hempty
        rwa [hrow] at hempty
      rw [hentries]
      rfl
  · rfl

theorem affectedAt_replaceAdvisory (st : MirrorStore) (data : VulnerabilityData)
    (packages : List PackageKey) (id : String) :
    (st.replaceAdvisory data packages).affectedAt id =
      if id = data.id then some data.affected else st.affectedAt id := by
  unfold replaceAdvisory affectedAt
  rw [columnAt_addIndex, columnAt_dropIndex]
  by_cases hid : id = data.id
  · subst hid
    rw [columnAt_upsertVuln_self, if_pos rfl]
    cases st.vulns.find? data.id with
    | none => rfl
    | some r => rfl
  · rw [columnAt_upsertVuln_ne st data hid, if_neg hid]

theorem indexed_replaceAdvisory (st : MirrorStore) (data : VulnerabilityData)
    (packages : List PackageKey) (id : String) (p : PackageKey) :
    (st.replaceAdvisory data packages).Indexed id p ↔
      if id = data.id then p ∈ packages else st.Indexed id p := by
  by_cases hid : id = data.id
  · subst hid
    rw [if_pos rfl]
    exact (st.replaceAdvisory_self data packages).2 p
  · rw [if_neg hid]
    exact (st.keepsAdvisory_replaceAdvisory data packages hid).index p

/-- A write that fills in: the entries stay, the index grows. -/
theorem writeAdvisory_adds {st : MirrorStore} {data : VulnerabilityData} {mode : WriteMode}
    (h : ¬ Stores st data.id mode) (packages : List PackageKey) :
    (∀ id, (st.writeAdvisory data packages mode).affectedAt id = st.affectedAt id) ∧
      (∀ id, (st.writeAdvisory data packages mode).enrichmentAt id = st.enrichmentAt id) ∧
      ∀ id p, (st.writeAdvisory data packages mode).Indexed id p ↔
        st.Indexed id p ∨ (id = data.id ∧ p ∈ packages) := by
  obtain ⟨hmode, hentries⟩ := not_or.mp h
  obtain rfl : mode = .fill := by
    cases mode with
    | replace => exact absurd rfl hmode
    | fill => rfl
  cases hrow : st.vulns.find? data.id with
  | none =>
      unfold affectedAt columnAt at hentries
      rw [hrow] at hentries
      exact absurd rfl hentries
  | some existing =>
      have hpayload : existing.data.affected ≠ [] := by
        unfold affectedAt columnAt at hentries
        rw [hrow] at hentries
        exact hentries
      have hwrite : st.writeAdvisory data packages .fill =
          (st.updateVuln data.id (filled data) (fun _ => rfl)).addIndex data.id packages := by
        unfold writeAdvisory
        rw [hrow]
        simp only [List.isEmpty_iff, hpayload, if_false]
      obtain ⟨r, hr, -⟩ := (keepsAdvisory_updateVuln st data.id (filled data) (fun _ => rfl)
        (filled_affected data) data.id).row existing hrow
      rw [hwrite]
      refine ⟨?_, ?_, ?_⟩
      · intro id
        exact (columnAt_addIndex _ _ _ id).trans
          (columnAt_updateVuln st data.id (filled data) (fun _ => rfl) (fun _ => rfl) id)
      · intro id
        exact (columnAt_addIndex _ _ _ id).trans
          (columnAt_updateVuln st data.id (filled data) (fun _ => rfl) (fun _ => rfl) id)
      · intro id p
        exact indexed_addIndex hr packages id p

/-- A column that neither an NVD record nor a score writes. -/
theorem columnAt_writeNvd {γ : Type} {column : VulnerabilityRow → γ} (st : MirrorStore)
    (data : VulnerabilityData) (overlaid : Nat)
    (hover : ∀ r, column (nvdOver data r) = column r)
    (hscore : ∀ r, column (scoreOver data r) = column r) (id : String) :
    columnAt column (st.writeNvd data overlaid) id =
      if id = data.id then some ((columnAt column st id).getD (column { data := data }))
      else columnAt column st id := by
  unfold writeNvd
  cases hrow : st.vulns.find? data.id with
  | some existing =>
      have hwritten : columnAt column (st.updateVuln data.id (nvdOver data) (fun _ => rfl)) id =
          if id = data.id then some ((columnAt column st id).getD (column { data := data }))
          else columnAt column st id := by
        rw [columnAt_updateVuln st data.id (nvdOver data) (fun _ => rfl) hover]
        by_cases hid : id = data.id
        · subst hid
          rw [if_pos rfl]
          unfold columnAt
          rw [hrow]
          rfl
        · rw [if_neg hid]
      cases data.cvssScore with
      | none => exact hwritten
      | some score => exact (columnAt_foldl_scoreOver data hscore _ _ id).trans hwritten
  | none =>
      have hwritten : columnAt column (st.upsertVuln data) id =
          if id = data.id then some ((columnAt column st id).getD (column { data := data }))
          else columnAt column st id := by
        by_cases hid : id = data.id
        · subst hid
          rw [if_pos rfl, columnAt_upsertVuln_self]
          unfold columnAt
          rw [hrow]
          rfl
        · rw [if_neg hid, columnAt_upsertVuln_ne st data hid]
      cases data.cvssScore with
      | none => exact hwritten
      | some score => exact (columnAt_foldl_scoreOver data hscore _ _ id).trans hwritten

/-- An NVD record leaves the index alone. -/
theorem indexed_writeNvd (st : MirrorStore) (data : VulnerabilityData) (overlaid : Nat)
    (id : String) (p : PackageKey) :
    (st.writeNvd data overlaid).Indexed id p ↔ st.Indexed id p := by
  unfold writeNvd
  cases st.vulns.find? data.id with
  | some existing =>
      cases data.cvssScore with
      | none => rfl
      | some score => exact indexed_foldl_scoreOver data _ _ id p
  | none =>
      cases data.cvssScore with
      | none => rfl
      | some score => exact indexed_foldl_scoreOver data _ _ id p

/-! ## What is to be kept -/

/-- Every stored entry that names its package has an index row. -/
def IndexComplete (st : MirrorStore) : Prop :=
  ∀ r ∈ st.vulns, ∀ e ∈ r.data.affected, ∀ p, entryPackage e = some p → st.Indexed r.id p

/-- A row without entries has no index rows. -/
def EmptyUnindexed (st : MirrorStore) : Prop :=
  ∀ id, (st.affectedAt id).getD [] = [] → ∀ p, ¬ st.Indexed id p

/-- The enrichment columns of the rows that were there are as they were. -/
def KeepsEnrichment (st st' : MirrorStore) : Prop :=
  ∀ id enrichment, st.enrichmentAt id = some enrichment → st'.enrichmentAt id = some enrichment

/-- No affected entry and no index row is gone. -/
def RemovesNothing (st st' : MirrorStore) : Prop :=
  (∀ id, ∀ e ∈ (st.affectedAt id).getD [], e ∈ (st'.affectedAt id).getD []) ∧
    ∀ id p, st.Indexed id p → st'.Indexed id p

theorem indexComplete_iff {st : MirrorStore} :
    IndexComplete st ↔ ∀ id entries, st.affectedAt id = some entries →
      ∀ e ∈ entries, ∀ p, entryPackage e = some p → st.Indexed id p := by
  constructor
  · intro hall id entries hentries e he p hp
    obtain ⟨r, hr, rfl⟩ := Option.map_eq_some_iff.mp hentries
    rw [← Table.find?_key hr]
    exact hall r (Table.find?_mem hr) e he p hp
  · intro hall r hr e he p hp
    refine hall r.id r.data.affected ?_ e he p hp
    exact Option.map_eq_some_iff.mpr ⟨r, Table.find?_of_mem hr, rfl⟩

/-- Distinct packages among the entries have distinct texts. -/
def Separated (affected : List OsvAffected) : Prop :=
  ∀ p ∈ affected.filterMap entryPackage, ∀ q ∈ affected.filterMap entryPackage,
    p.text = q.text → p = q

/-- The index rows of an advisory are complete only if its packages are told apart. -/
theorem mem_affectsOf_iff_separated (affected : List OsvAffected) :
    (∀ e ∈ affected, ∀ p, entryPackage e = some p → p ∈ affectsOf affected) ↔
      Separated affected := by
  unfold Separated
  rw [← AssocMap.forall_mem_values_groupFold_iff]
  constructor
  · intro hall p hp
    obtain ⟨e, he, hpackage⟩ := List.mem_filterMap.mp hp
    exact hall e he p hpackage
  · intro hall e he p hpackage
    exact hall p (List.mem_filterMap.mpr ⟨e, he, hpackage⟩)

/-! ## Writes -/

/-- A write of one of the three feeds. -/
inductive FeedWrite where
  | osv (advisory : OsvAdvisory) (mode : WriteMode)
  | ghsa (advisory : GhsaAdvisory) (mode : WriteMode)
  /-- `overlaid` of the advisories that alias the record are reached. -/
  | nvd (cve : NvdCve) (overlaid : Nat)

section Writes

variable (runtime : FeedRuntime)

def applyWrite (st : MirrorStore) : FeedWrite → MirrorStore
  | .osv advisory mode =>
      st.writeAdvisory (advisoryToRow runtime advisory) (advisoryAffects advisory) mode
  | .ghsa advisory mode =>
      st.writeAdvisory (ghsaToRow runtime advisory) (ghsaAffects runtime advisory) mode
  | .nvd cve overlaid => st.writeNvd (nvdToRow runtime cve) overlaid

/-- The row and the mode of an advisory write. -/
def FeedWrite.brings : FeedWrite → Option (VulnerabilityData × WriteMode)
  | .osv advisory mode => some (advisoryToRow runtime advisory, mode)
  | .ghsa advisory mode => some (ghsaToRow runtime advisory, mode)
  | .nvd _ _ => none

def FeedWrite.isFill (w : FeedWrite) : Prop :=
  ∃ data, w.brings runtime = some (data, .fill)

/-- The mirror under any writes of the feeds. -/
def mirrorFeed : System MirrorStore FeedWrite where
  step := applyWrite runtime
  allowed _ _ := True

/-- If the write stores the entries it brings, it tells their packages apart. -/
def TellsApart (st : MirrorStore) (w : FeedWrite) : Prop :=
  ∀ data mode, w.brings runtime = some (data, mode) → Stores st data.id mode →
    Separated data.affected

variable {runtime}

/-- The index rows an advisory write brings are those of the entries it brings. -/
theorem applyWrite_of_brings {st : MirrorStore} {w : FeedWrite} {data : VulnerabilityData}
    {mode : WriteMode} (h : w.brings runtime = some (data, mode)) :
    applyWrite runtime st w = st.writeAdvisory data (affectsOf data.affected) mode := by
  cases w with
  | osv advisory mode =>
      cases h
      rfl
  | ghsa advisory mode =>
      cases h
      rfl
  | nvd cve overlaid => cases h

theorem applyWrite_of_brings_none (st : MirrorStore) {w : FeedWrite}
    (h : w.brings runtime = none) :
    ∃ cve overlaid, applyWrite runtime st w = st.writeNvd (nvdToRow runtime cve) overlaid := by
  cases w with
  | osv advisory mode => cases h
  | ghsa advisory mode => cases h
  | nvd cve overlaid => exact ⟨cve, overlaid, rfl⟩

variable (runtime) in
/-- **The three effects of a write.**  It stores its entries and their index rows, or leaves
the entries and adds index rows to those of an advisory that has some, or leaves both, but for
an advisory without entries that may be new. -/
theorem applyWrite_cases (st : MirrorStore) (w : FeedWrite) :
    (∃ data mode, w.brings runtime = some (data, mode) ∧ Stores st data.id mode ∧
        (∀ id, (applyWrite runtime st w).affectedAt id =
          if id = data.id then some data.affected else st.affectedAt id) ∧
        ∀ id p, (applyWrite runtime st w).Indexed id p ↔
          if id = data.id then p ∈ affectsOf data.affected else st.Indexed id p) ∨
      (∃ data mode, w.brings runtime = some (data, mode) ∧ ¬ Stores st data.id mode ∧
        (∀ id, (applyWrite runtime st w).affectedAt id = st.affectedAt id) ∧
        ∀ id p, (applyWrite runtime st w).Indexed id p ↔
          st.Indexed id p ∨ (id = data.id ∧ p ∈ affectsOf data.affected)) ∨
      (w.brings runtime = none ∧
        (∀ id, (applyWrite runtime st w).affectedAt id = st.affectedAt id ∨
          (st.affectedAt id = none ∧ (applyWrite runtime st w).affectedAt id = some [])) ∧
        ∀ id p, (applyWrite runtime st w).Indexed id p ↔ st.Indexed id p) := by
  cases hbrings : w.brings runtime with
  | none =>
      obtain ⟨cve, overlaid, hwrite⟩ := applyWrite_of_brings_none st hbrings
      rw [hwrite]
      refine Or.inr (Or.inr ⟨rfl, ?_, fun id p => st.indexed_writeNvd _ overlaid id p⟩)
      intro id
      unfold affectedAt
      rw [st.columnAt_writeNvd (nvdToRow runtime cve) overlaid (fun _ => rfl) (fun _ => rfl) id]
      split
      · cases columnAt (fun r => r.data.affected) st id with
        | none => exact Or.inr ⟨rfl, rfl⟩
        | some entries => exact Or.inl rfl
      · exact Or.inl rfl
  | some brought =>
      obtain ⟨data, mode⟩ := brought
      rw [applyWrite_of_brings hbrings]
      by_cases hstores : Stores st data.id mode
      · refine Or.inl ⟨data, mode, rfl, hstores, ?_, ?_⟩
        · intro id
          rw [writeAdvisory_stores hstores, affectedAt_replaceAdvisory]
        · intro id p
          rw [writeAdvisory_stores hstores, indexed_replaceAdvisory]
      · obtain ⟨haffected, -, hindexed⟩ := writeAdvisory_adds hstores (affectsOf data.affected)
        exact Or.inr (Or.inl ⟨data, mode, rfl, hstores, haffected, hindexed⟩)

/-! ## One write -/

theorem emptyUnindexed_applyWrite {st : MirrorStore} (h : EmptyUnindexed st) (w : FeedWrite) :
    EmptyUnindexed (applyWrite runtime st w) := by
  intro id hempty p hindexed
  rcases applyWrite_cases runtime st w with
    ⟨data, mode, -, -, haffected, hindex⟩ | ⟨data, mode, -, hstores, haffected, hindex⟩ |
      ⟨-, haffected, hindex⟩
  · rw [haffected] at hempty
    rw [hindex] at hindexed
    by_cases hid : id = data.id
    · rw [if_pos hid, Option.getD_some] at hempty
      rw [if_pos hid, hempty] at hindexed
      cases hindexed
    · rw [if_neg hid] at hempty hindexed
      exact h id hempty p hindexed
  · rw [haffected] at hempty
    rcases (hindex id p).mp hindexed with hold | ⟨rfl, -⟩
    · exact h id hempty p hold
    · exact hstores (Or.inr hempty)
  · rw [hindex] at hindexed
    rcases haffected id with hsame | ⟨hnone, -⟩
    · rw [hsame] at hempty
      exact h id hempty p hindexed
    · exact not_indexed_of_affectedAt_none hnone p hindexed

/-- **One write and the index.**  A complete index stays complete precisely when the write
tells the packages apart that it stores. -/
theorem indexComplete_applyWrite_iff {st : MirrorStore} (h : IndexComplete st) (w : FeedWrite) :
    IndexComplete (applyWrite runtime st w) ↔ TellsApart runtime st w := by
  rw [indexComplete_iff] at h ⊢
  rcases applyWrite_cases runtime st w with
    ⟨data, mode, hbrings, hstores, haffected, hindex⟩ |
      ⟨data, mode, hbrings, hstores, haffected, hindex⟩ | ⟨hbrings, haffected, hindex⟩
  · constructor
    · intro hall data' mode' hbrings' _
      obtain ⟨rfl, rfl⟩ := Prod.mk.inj (Option.some.inj (hbrings.symm.trans hbrings'))
      refine (mem_affectsOf_iff_separated data.affected).mp fun e he p hp => ?_
      have hindexed := hall data.id data.affected (by rw [haffected, if_pos rfl]) e he p hp
      rwa [hindex, if_pos rfl] at hindexed
    · intro hapart id entries hentries e he p hp
      rw [haffected] at hentries
      rw [hindex]
      by_cases hid : id = data.id
      · rw [if_pos hid] at hentries ⊢
        obtain rfl := Option.some.inj hentries
        exact (mem_affectsOf_iff_separated data.affected).mpr (hapart data mode hbrings hstores)
          e he p hp
      · rw [if_neg hid] at hentries ⊢
        exact h id entries hentries e he p hp
  · constructor
    · intro _ data' mode' hbrings' hstores'
      obtain ⟨rfl, rfl⟩ := Prod.mk.inj (Option.some.inj (hbrings.symm.trans hbrings'))
      exact absurd hstores' hstores
    · intro _ id entries hentries e he p hp
      rw [haffected] at hentries
      exact (hindex id p).mpr (Or.inl (h id entries hentries e he p hp))
  · constructor
    · intro _ data' mode' hbrings'
      cases hbrings.symm.trans hbrings'
    · intro _ id entries hentries e he p hp
      rw [hindex]
      rcases haffected id with hsame | ⟨-, hnew⟩
      · rw [hsame] at hentries
        exact h id entries hentries e he p hp
      · obtain rfl := Option.some.inj (hnew.symm.trans hentries)
        cases he

theorem keepsEnrichment_applyWrite (st : MirrorStore) (w : FeedWrite) :
    KeepsEnrichment st (applyWrite runtime st w) := by
  intro id enrichment hrow
  cases hbrings : w.brings runtime with
  | none =>
      obtain ⟨cve, overlaid, hwrite⟩ := applyWrite_of_brings_none st hbrings
      rw [hwrite]
      have hfound : columnAt (fun r => (r.kev, r.epssScore)) st id = some enrichment := hrow
      refine (st.columnAt_writeNvd (nvdToRow runtime cve) overlaid (fun _ => rfl)
        (fun _ => rfl) id).trans ?_
      rw [hfound]
      split <;> rfl
  | some brought =>
      obtain ⟨data, mode⟩ := brought
      rw [applyWrite_of_brings hbrings]
      by_cases hstores : Stores st data.id mode
      · rw [writeAdvisory_stores hstores]
        refine (columnAt_addIndex _ _ _ id).trans ((columnAt_dropIndex _ _ id).trans ?_)
        by_cases hid : id = data.id
        · subst hid
          obtain ⟨r, hr, rfl⟩ := Option.map_eq_some_iff.mp hrow
          rw [columnAt_upsertVuln_self, hr]
          rfl
        · rw [columnAt_upsertVuln_ne st data hid]
          exact hrow
      · rw [(writeAdvisory_adds hstores (affectsOf data.affected)).2.1]
        exact hrow

/-- A fill removes nothing: where it replaces, there was nothing. -/
theorem removesNothing_applyWrite {st : MirrorStore} (h : EmptyUnindexed st) {w : FeedWrite}
    (hfill : w.isFill runtime) : RemovesNothing st (applyWrite runtime st w) := by
  obtain ⟨data₀, hbrings₀⟩ := hfill
  rcases applyWrite_cases runtime st w with
    ⟨data, mode, hbrings, hstores, haffected, hindex⟩ |
      ⟨data, mode, -, -, haffected, hindex⟩ | ⟨hbrings, -, -⟩
  · obtain ⟨rfl, rfl⟩ := Prod.mk.inj (Option.some.inj (hbrings₀.symm.trans hbrings))
    have hempty : (st.affectedAt data₀.id).getD [] = [] := by
      rcases hstores with hmode | hempty
      · cases hmode
      · exact hempty
    constructor
    · intro id e he
      rw [haffected]
      by_cases hid : id = data₀.id
      · rw [hid, hempty] at he
        cases he
      · rwa [if_neg hid]
    · intro id p hindexed
      rw [hindex]
      by_cases hid : id = data₀.id
      · exact absurd (hid ▸ hindexed) (h data₀.id hempty p)
      · rwa [if_neg hid]
  · constructor
    · intro id e he
      rwa [haffected]
    · exact fun id p hindexed => (hindex id p).mpr (Or.inl hindexed)
  · cases hbrings₀.symm.trans hbrings

/-! ## A run of writes -/

theorem indexComplete_empty : IndexComplete empty := by
  intro r hr
  exact absurd hr (Table.not_mem_empty r)

theorem emptyUnindexed_run (writes : List FeedWrite) :
    EmptyUnindexed ((mirrorFeed runtime).run empty writes) := by
  induction writes using List.reverseRecOn with
  | nil =>
      intro id _ p hindexed
      exact Table.not_mem_empty _ hindexed
  | append_singleton writes w ih =>
      rw [System.run_append]
      exact emptyUnindexed_applyWrite ih w

theorem keepsEnrichment_run (writes : List FeedWrite) (st : MirrorStore) :
    KeepsEnrichment st ((mirrorFeed runtime).run st writes) := by
  induction writes generalizing st with
  | nil => exact fun _ _ hrow => hrow
  | cons w writes ih =>
      intro id enrichment hrow
      exact ih (applyWrite runtime st w) id enrichment
        (keepsEnrichment_applyWrite st w id enrichment hrow)

variable (runtime)

/-- What the mirror keeps along a run: the index is complete in every state, the enrichment
columns of a row are never written, and no fill removes an entry or an index row. -/
structure MirrorSound (writes : List FeedWrite) : Prop where
  complete : ∀ st ∈ (mirrorFeed runtime).states empty writes, IndexComplete st
  enrichment : ∀ before after, writes = before ++ after →
    KeepsEnrichment ((mirrorFeed runtime).run empty before) ((mirrorFeed runtime).run empty writes)
  fills : ∀ before w after, writes = before ++ w :: after → w.isFill runtime →
    RemovesNothing ((mirrorFeed runtime).run empty before)
      ((mirrorFeed runtime).run empty (before ++ [w]))

/-- **The package index.**  For every list of writes of the three feeds, in either mode: the
index is complete in every state and the other two hold, if and only if no write that stores
its entries brings two packages with the same `ecosystem:name` text. -/
theorem mirror_index_iff (writes : List FeedWrite) :
    MirrorSound runtime writes ↔ (mirrorFeed runtime).AllSteps (TellsApart runtime) empty writes := by
  have hcomplete : (∀ st ∈ (mirrorFeed runtime).states empty writes, IndexComplete st) ↔
      (mirrorFeed runtime).AllSteps (TellsApart runtime) empty writes :=
    (mirrorFeed runtime).forall_states_iff_allSteps (I := fun _ => True)
      (fun _ _ _ _ => trivial)
      (fun st w _ hst _ => indexComplete_applyWrite_iff hst w) trivial indexComplete_empty
      ((mirrorFeed runtime).legal_of_forall_allowed (fun _ _ => trivial) empty writes)
  constructor
  · exact fun hsound => hcomplete.mp hsound.complete
  · intro hapart
    refine ⟨hcomplete.mpr hapart, ?_, ?_⟩
    · rintro before after rfl
      rw [System.run_append]
      exact keepsEnrichment_run after _
    · rintro before w after rfl hfill
      rw [System.run_append]
      exact removesNothing_applyWrite (emptyUnindexed_run before) hfill

end Writes

end MirrorStore

/-! ## A colon in a name -/

/-- Two packages whose texts are the same. -/
def colonAdvisory : OsvAdvisory where
  id := "DSA-0001"
  affected :=
    [{ package := ⟨some "x", some "Debian:11"⟩ }, { package := ⟨some "11:x", some "Debian"⟩ }]

/-- The first of them has no index row. -/
theorem colon_advisory_half_indexed :
    ¬ ∀ (runtime : FeedRuntime) (writes : List MirrorStore.FeedWrite),
      MirrorStore.MirrorSound runtime writes := by
  intro hall
  have hindex := (hall plainRuntime [.osv colonAdvisory .replace]).complete _
    (System.run_mem_states _ _ _)
  have happart := (MirrorStore.indexComplete_applyWrite_iff MirrorStore.indexComplete_empty
    (.osv colonAdvisory .replace)).mp hindex
  have hsame := happart _ _ rfl (Or.inl rfl) ⟨"Debian:11", "x"⟩ (by decide) ⟨"Debian", "11:x"⟩
    (by decide) (by decide)
  exact absurd hsame (by decide)

end Intel
end Ctem
