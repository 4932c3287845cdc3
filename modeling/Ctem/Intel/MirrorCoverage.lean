import Ctem.Intel.Matcher

/-!
# What the mirror knows of the feed

A refresh of a package writes the OSV advisories, fills in the GitHub ones and
lays NVD scores over both.  Along these writes an advisory of the feed keeps its
affected entries, and its index lists its own packages and those GitHub documents
with its id add.

* `KeepsAdvisory` is the frame: what a write leaves of an advisory it is not
  about.
* `MirrorsAdvisory` is the invariant, `mirrorPackage_mirrors` its run over the
  three feeds.
* `mirrored_match_iff`: the mirror answers with the advisory precisely when the
  index lists the package under exactly the queried ecosystem and name, and an
  entry that covers the version is not spelled for another.
-/

namespace Ctem
namespace Intel

open Foundation

namespace MirrorStore

/-! ## The frame of a write -/

/-- The advisory's affected entries and index are as they were. -/
structure KeepsAdvisory (st st' : MirrorStore) (id : String) : Prop where
  row : ∀ r, st.vulns.find? id = some r →
    ∃ r', st'.vulns.find? id = some r' ∧ r'.data.affected = r.data.affected
  index : ∀ p, st'.Indexed id p ↔ st.Indexed id p

theorem KeepsAdvisory.refl (st : MirrorStore) (id : String) : KeepsAdvisory st st id :=
  ⟨fun r hr => ⟨r, hr, rfl⟩, fun _ => Iff.rfl⟩

theorem KeepsAdvisory.trans {st₁ st₂ st₃ : MirrorStore} {id : String}
    (h₁ : KeepsAdvisory st₁ st₂ id) (h₂ : KeepsAdvisory st₂ st₃ id) :
    KeepsAdvisory st₁ st₃ id := by
  refine ⟨?_, fun p => (h₂.index p).trans (h₁.index p)⟩
  intro r hr
  obtain ⟨r', hr', heq⟩ := h₁.row r hr
  obtain ⟨r'', hr'', heq'⟩ := h₂.row r' hr'
  exact ⟨r'', hr'', heq'.trans heq⟩

/-- An update that keeps the affected entries keeps every advisory. -/
theorem keepsAdvisory_updateVuln (st : MirrorStore) (id : String)
    (f : VulnerabilityRow → VulnerabilityRow) (hid : ∀ r, (f r).id = r.id)
    (hf : ∀ r, (f r).data.affected = r.data.affected) (id' : String) :
    KeepsAdvisory st (st.updateVuln id f hid) id' := by
  refine ⟨?_, fun _ => Iff.rfl⟩
  intro r hr
  change ∃ r', (st.vulns.modify id f hid).find? id' = some r' ∧ _
  by_cases hsame : id' = id
  · subst hsame
    exact ⟨f r, Table.find?_modify_self hr, hf r⟩
  · exact ⟨r, (Table.find?_modify_ne hsame).trans hr, rfl⟩

/-- The row an upsert leaves carries the data's affected entries. -/
theorem find?_upsertVuln_self (st : MirrorStore) (data : VulnerabilityData) :
    ∃ r, (st.upsertVuln data).vulns.find? data.id = some r ∧
      r.data.affected = data.affected := by
  change ∃ r, (st.vulns.upsert { data := data } (withData data) (fun _ => rfl)).find?
    (VulnerabilityRow.id { data := data }) = some r ∧ _
  refine ⟨_, Table.find?_upsert_self, ?_⟩
  split <;> rfl

theorem keepsAdvisory_upsertVuln (st : MirrorStore) (data : VulnerabilityData) {id : String}
    (hne : id ≠ data.id) : KeepsAdvisory st (st.upsertVuln data) id := by
  refine ⟨?_, fun _ => Iff.rfl⟩
  intro r hr
  change ∃ r', (st.vulns.upsert { data := data } (withData data) (fun _ => rfl)).find? id
    = some r' ∧ _
  have hkey : id ≠ VulnerabilityRow.id { data := data } := hne
  exact ⟨r, (Table.find?_upsert_ne hkey).trans hr, rfl⟩

/-! ## The index -/

theorem indexed_dropIndex (st : MirrorStore) (vulnId id : String) (p : PackageKey) :
    (st.dropIndex vulnId).Indexed id p ↔ st.Indexed id p ∧ id ≠ vulnId := by
  change (⟨id, p⟩ : AffectsRow) ∈ st.affects.deleteMany _ ↔ _
  rw [Table.mem_deleteMany, decide_eq_false_iff_not]
  rfl

theorem addIndex_vulns (st : MirrorStore) (vulnId : String) (packages : List PackageKey) :
    (st.addIndex vulnId packages).vulns = st.vulns := by
  unfold addIndex
  split <;> rfl

theorem indexed_addIndex {st : MirrorStore} {vulnId : String} {row : VulnerabilityRow}
    (hrow : st.vulns.find? vulnId = some row) (packages : List PackageKey) (id : String)
    (p : PackageKey) :
    (st.addIndex vulnId packages).Indexed id p ↔
      st.Indexed id p ∨ (id = vulnId ∧ p ∈ packages) := by
  unfold addIndex
  split
  · rename_i hnone
    rw [hrow] at hnone
    exact absurd hnone (by simp)
  · change (⟨id, p⟩ : AffectsRow) ∈ st.affects.ensureMany _ ↔ _
    rw [Table.mem_ensureMany]
    apply or_congr Iff.rfl
    rw [List.mem_map]
    constructor
    · rintro ⟨q, hq, heq⟩
      obtain ⟨rfl, rfl⟩ := AffectsRow.mk.inj heq
      exact ⟨rfl, hq⟩
    · rintro ⟨rfl, hp⟩
      exact ⟨p, hp, rfl⟩

/-! ## The write paths -/

/-- Replacing an advisory gives it the data's entries and exactly its packages. -/
theorem replaceAdvisory_self (st : MirrorStore) (data : VulnerabilityData)
    (packages : List PackageKey) :
    (∃ r, (st.replaceAdvisory data packages).vulns.find? data.id = some r ∧
        r.data.affected = data.affected) ∧
      ∀ p, (st.replaceAdvisory data packages).Indexed data.id p ↔ p ∈ packages := by
  obtain ⟨r, hr, haffected⟩ := find?_upsertVuln_self st data
  have hdropped : ((st.upsertVuln data).dropIndex data.id).vulns.find? data.id = some r := hr
  unfold replaceAdvisory
  constructor
  · rw [addIndex_vulns]
    exact ⟨r, hdropped, haffected⟩
  · intro p
    rw [indexed_addIndex hdropped, indexed_dropIndex]
    simp

theorem keepsAdvisory_replaceAdvisory (st : MirrorStore) (data : VulnerabilityData)
    (packages : List PackageKey) {id : String} (hne : id ≠ data.id) :
    KeepsAdvisory st (st.replaceAdvisory data packages) id := by
  have hupsert := keepsAdvisory_upsertVuln st data hne
  obtain ⟨r₀, hr₀, -⟩ := find?_upsertVuln_self st data
  have hdropped : ((st.upsertVuln data).dropIndex data.id).vulns.find? data.id = some r₀ := hr₀
  unfold replaceAdvisory
  refine ⟨?_, ?_⟩
  · rw [addIndex_vulns]
    exact hupsert.row
  · intro p
    rw [indexed_addIndex hdropped, indexed_dropIndex, hupsert.index]
    simp [hne]

theorem filled_affected (data : VulnerabilityData) (r : VulnerabilityRow) :
    (filled data r).data.affected = r.data.affected := rfl

/-- Filling in an advisory that has entries keeps them and adds to its index. -/
theorem writeAdvisory_fill_self {st : MirrorStore} {data : VulnerabilityData}
    {existing : VulnerabilityRow} (hrow : st.vulns.find? data.id = some existing)
    (hentries : existing.data.affected ≠ []) (packages : List PackageKey) :
    (∃ r, (st.writeAdvisory data packages .fill).vulns.find? data.id = some r ∧
        r.data.affected = existing.data.affected) ∧
      ∀ p, (st.writeAdvisory data packages .fill).Indexed data.id p ↔
        st.Indexed data.id p ∨ p ∈ packages := by
  have hkeeps := keepsAdvisory_updateVuln st data.id (filled data) (fun _ => rfl)
    (filled_affected data) data.id
  obtain ⟨r, hr, haffected⟩ := hkeeps.row existing hrow
  unfold writeAdvisory
  rw [hrow]
  simp only [List.isEmpty_iff, hentries, if_false]
  constructor
  · rw [addIndex_vulns]
    exact ⟨r, hr, haffected⟩
  · intro p
    rw [indexed_addIndex hr, hkeeps.index]
    simp

theorem keepsAdvisory_writeAdvisory (st : MirrorStore) (data : VulnerabilityData)
    (packages : List PackageKey) (mode : WriteMode) {id : String} (hne : id ≠ data.id) :
    KeepsAdvisory st (st.writeAdvisory data packages mode) id := by
  unfold writeAdvisory
  split
  · rename_i existing hrow
    split
    · exact keepsAdvisory_replaceAdvisory st data packages hne
    · have hkeeps := keepsAdvisory_updateVuln st data.id (filled data) (fun _ => rfl)
        (filled_affected data) id
      have hself := keepsAdvisory_updateVuln st data.id (filled data) (fun _ => rfl)
        (filled_affected data) data.id
      obtain ⟨r, hr, -⟩ := hself.row existing hrow
      refine ⟨?_, ?_⟩
      · rw [addIndex_vulns]
        exact hkeeps.row
      · intro p
        rw [indexed_addIndex hr, hkeeps.index]
        simp [hne]
  · exact keepsAdvisory_replaceAdvisory st data packages hne

/-- An NVD record keeps every advisory that is there. -/
theorem keepsAdvisory_writeNvd (st : MirrorStore) (data : VulnerabilityData) (overlaid : Nat)
    {id : String} (hrow : (st.vulns.find? id).isSome = true) :
    KeepsAdvisory st (st.writeNvd data overlaid) id := by
  have hoverlay : ∀ (ids : List String) (s : MirrorStore),
      KeepsAdvisory s
        (ids.foldl (fun st id => st.updateVuln id (scoreOver data) (fun _ => rfl)) s) id := by
    intro ids
    induction ids with
    | nil => exact fun s => KeepsAdvisory.refl s id
    | cons id' rest ih =>
        intro s
        exact (keepsAdvisory_updateVuln s id' (scoreOver data) (fun _ => rfl) (fun _ => rfl)
          id).trans (ih _)
  unfold writeNvd
  cases hfound : st.vulns.find? data.id with
  | some row =>
      have hwritten := keepsAdvisory_updateVuln st data.id (nvdOver data) (fun _ => rfl)
        (fun _ => rfl) id
      cases data.cvssScore with
      | none => exact hwritten
      | some score => exact hwritten.trans (hoverlay _ _)
  | none =>
      have hwritten : KeepsAdvisory st (st.upsertVuln data) id := by
        apply keepsAdvisory_upsertVuln
        rintro rfl
        rw [hfound] at hrow
        exact absurd hrow (by simp)
      cases data.cvssScore with
      | none => exact hwritten
      | some score => exact hwritten.trans (hoverlay _ _)

end MirrorStore

/-! ## A refresh -/

/-- The mirror holds the advisory: its entries, and in the index its packages and
the extra ones. -/
structure MirrorsAdvisory (st : MirrorStore) (a : OsvAdvisory) (extra : PackageKey → Prop) :
    Prop where
  row : ∃ r, st.vulns.find? a.id = some r ∧ r.data.affected = a.affected
  index : ∀ p, st.Indexed a.id p ↔ p ∈ advisoryAffects a ∨ extra p

/-- A write that keeps the advisory keeps what the mirror holds of it. -/
theorem MirrorsAdvisory.keeps {st st' : MirrorStore} {a : OsvAdvisory}
    {extra : PackageKey → Prop} (h : MirrorsAdvisory st a extra)
    (hkeeps : st.KeepsAdvisory st' a.id) : MirrorsAdvisory st' a extra := by
  obtain ⟨r, hr, haffected⟩ := h.row
  obtain ⟨r', hr', heq⟩ := hkeeps.row r hr
  exact ⟨⟨r', hr', heq.trans haffected⟩, fun p => (hkeeps.index p).trans (h.index p)⟩

section Refresh

variable (runtime : FeedRuntime)

/-- Writing an OSV advisory mirrors it and keeps those with another id. -/
theorem mirrorsAdvisory_writeOsv (st : MirrorStore) (a : OsvAdvisory) :
    MirrorsAdvisory (st.writeOsv runtime a) a (fun _ => False) := by
  obtain ⟨hrow, hindex⟩ := st.replaceAdvisory_self (advisoryToRow runtime a) (advisoryAffects a)
  exact ⟨hrow, fun p => (hindex p).trans (by simp)⟩

/-- **The OSV answers.**  When an id names one advisory of the answer, each of its
advisories is mirrored behind the last write. -/
theorem mirrorsAdvisory_foldl_writeOsv {advisories : List OsvAdvisory} {a : OsvAdvisory}
    (hunique : ∀ b ∈ advisories, b.id = a.id → b = a) (st : MirrorStore)
    (h : a ∈ advisories ∨ MirrorsAdvisory st a (fun _ => False)) :
    MirrorsAdvisory (advisories.foldl (MirrorStore.writeOsv runtime) st) a (fun _ => False) := by
  induction advisories generalizing st with
  | nil =>
      rcases h with hmem | hst
      · exact absurd hmem (by simp)
      · exact hst
  | cons b rest ih =>
      rw [List.foldl_cons]
      apply ih (fun c hc => hunique c (List.mem_cons_of_mem b hc))
      by_cases hid : b.id = a.id
      · right
        rw [hunique b List.mem_cons_self hid]
        exact mirrorsAdvisory_writeOsv runtime st a
      · rcases h with hmem | hst
        · rcases List.mem_cons.mp hmem with rfl | hmem
          · exact absurd rfl hid
          · exact Or.inl hmem
        · right
          exact hst.keeps (st.keepsAdvisory_writeAdvisory (advisoryToRow runtime b)
            (advisoryAffects b) .replace (Ne.symm hid))

/-- **The GitHub answers.**  A document with the advisory's id adds its packages to
the index and leaves the entries alone. -/
theorem mirrorsAdvisory_foldl_writeGhsa {a : OsvAdvisory} (hentries : a.affected ≠ [])
    (docs : List GhsaAdvisory) {st : MirrorStore} {extra : PackageKey → Prop}
    (h : MirrorsAdvisory st a extra) :
    MirrorsAdvisory (docs.foldl (MirrorStore.writeGhsa runtime) st) a
      (fun p => extra p ∨ ∃ g ∈ docs, g.ghsaId = a.id ∧ p ∈ ghsaAffects runtime g) := by
  induction docs generalizing st extra with
  | nil => exact ⟨h.row, fun p => (h.index p).trans (by simp)⟩
  | cons g rest ih =>
      rw [List.foldl_cons]
      by_cases hid : g.ghsaId = a.id
      · have hself : MirrorsAdvisory (st.writeGhsa runtime g) a
            (fun p => extra p ∨ p ∈ ghsaAffects runtime g) := by
          obtain ⟨r, hr, haffected⟩ := h.row
          have hr' : st.vulns.find? (ghsaToRow runtime g).id = some r := by
            change st.vulns.find? g.ghsaId = some r
            rw [hid]
            exact hr
          obtain ⟨⟨r', hfind, heq⟩, hindex⟩ := MirrorStore.writeAdvisory_fill_self hr'
            (haffected ▸ hentries) (ghsaAffects runtime g)
          have hdata : (ghsaToRow runtime g).id = a.id := hid
          rw [hdata] at hfind hindex
          refine ⟨⟨r', hfind, heq.trans haffected⟩, fun p => (hindex p).trans ?_⟩
          rw [h.index, or_assoc]
        have hrest := ih hself
        refine ⟨hrest.row, fun p => (hrest.index p).trans ?_⟩
        simp only [List.exists_mem_cons_iff, hid, true_and, or_assoc]
      · have hkeeps := h.keeps (st.keepsAdvisory_writeAdvisory (ghsaToRow runtime g)
          (ghsaAffects runtime g) .fill (Ne.symm hid))
        have hrest := ih hkeeps
        refine ⟨hrest.row, fun p => (hrest.index p).trans ?_⟩
        simp only [List.exists_mem_cons_iff, hid, false_and, false_or]

/-- **The NVD lookups.**  They keep every advisory that is mirrored. -/
theorem mirrorsAdvisory_foldl_enrichCve {a : OsvAdvisory} (answers : FeedAnswers)
    (cves : List String) {st : MirrorStore} {extra : PackageKey → Prop}
    (h : MirrorsAdvisory st a extra) :
    MirrorsAdvisory (cves.foldl (MirrorStore.enrichCve runtime answers) st) a extra := by
  induction cves generalizing st with
  | nil => exact h
  | cons cve rest ih =>
      rw [List.foldl_cons]
      apply ih
      unfold MirrorStore.enrichCve
      split
      · exact h
      · obtain ⟨r, hr, -⟩ := h.row
        exact h.keeps (st.keepsAdvisory_writeNvd _ _ (by rw [hr]; rfl))

/-- What a refresh leaves of an advisory of its OSV answer. -/
theorem mirrorPackage_mirrors (st : MirrorStore) (p : PackageKey) (answers : FeedAnswers)
    (now : Nat) {a : OsvAdvisory} (ha : a ∈ answers.advisories)
    (hunique : ∀ b ∈ answers.advisories, b.id = a.id → b = a) (hentries : a.affected ≠ []) :
    MirrorsAdvisory (st.mirrorPackage runtime p answers now) a
      (fun q => ∃ g ∈ answers.published, g.ghsaId = a.id ∧ q ∈ ghsaAffects runtime g) := by
  have hosv := mirrorsAdvisory_foldl_writeOsv runtime hunique st (Or.inl ha)
  have hghsa := mirrorsAdvisory_foldl_writeGhsa runtime hentries answers.published hosv
  have hnvd := mirrorsAdvisory_foldl_enrichCve runtime answers
    ((collectCves answers.advisories answers.published).take nvdPerPackage) hghsa
  refine ⟨hnvd.row, fun q => (hnvd.index q).trans ?_⟩
  simp

/-- A refresh leaves a sync row for its package. -/
theorem mirrorPackage_synced (st : MirrorStore) (p : PackageKey) (answers : FeedAnswers)
    (now : Nat) : ((st.mirrorPackage runtime p answers now).syncs.find? p).isSome = true := by
  unfold MirrorStore.mirrorPackage
  exact Table.find?_upsert_isSome rfl

/-- **What the mirror knows.**  Behind a successful refresh of `(ecosystem, name)`,
for an advisory of the OSV answer and any version: the matcher answers from the
mirror and with that advisory precisely when the ecosystem is known, the advisory
or a GitHub document with its id lists the package under exactly that ecosystem
and name, and an entry that covers the version is spelled so or leaves the
spelling out. -/
theorem mirrored_match_iff (cache : IntelCache) (st : MirrorStore) (c : MatchableComponent)
    (answers : FeedAnswers) (now : Nat)
    (queryOsv : MatchableComponent → Except String (List OsvVuln)) {a : OsvAdvisory}
    (ha : a ∈ answers.advisories) (hunique : ∀ b ∈ answers.advisories, b.id = a.id → b = a)
    (hentries : a.affected ≠ []) :
    ((matchComponent runtime cache
          (mirrorCalls (st.mirrorPackage runtime c.package answers now) queryOsv) c).mirrored
        = true ∧
      a.id ∈ (matchComponent runtime cache
        (mirrorCalls (st.mirrorPackage runtime c.package answers now) queryOsv) c).found.map
          VulnMatch.id) ↔
      c.ecosystem ≠ "unknown" ∧
        (c.package ∈ advisoryAffects a ∨
          ∃ g ∈ answers.published, g.ghsaId = a.id ∧ c.package ∈ ghsaAffects runtime g) ∧
        ∃ e ∈ a.affected, spelledFor c.ecosystem c.name e = true ∧ covers c.version e = true := by
  have hmirrors := mirrorPackage_mirrors runtime st c.package answers now ha hunique
    hentries
  have hsync := mirrorPackage_synced runtime st c.package answers now
  by_cases hunknown : c.ecosystem = "unknown"
  · have hlive : (matchComponent runtime cache
        (mirrorCalls (st.mirrorPackage runtime c.package answers now) queryOsv) c).mirrored
          = false := matchComponent_unknown runtime cache queryOsv hunknown
    simp [hlive, hunknown]
  · rw [matchComponent_mirrored runtime cache queryOsv hunknown hsync]
    simp only [true_and, ne_eq, hunknown, not_false_eq_true]
    rw [mem_mirrorMatches_ids, ← hmirrors.index]
    obtain ⟨r, hr, haffected⟩ := hmirrors.row
    constructor
    · rintro ⟨row, hrow, hindexed, hversion⟩
      rw [hr, Option.some_inj] at hrow
      subst hrow
      rw [haffected, versionAffected_iff] at hversion
      exact ⟨hindexed, hversion⟩
    · rintro ⟨hindexed, hversion⟩
      refine ⟨r, hr, hindexed, ?_⟩
      rw [haffected, versionAffected_iff]
      exact hversion

end Refresh

/-! ## A package of a distribution -/

/-- A runtime for documents without scores, in ASCII. -/
def plainRuntime : FeedRuntime where
  number := fun _ => none
  numberText := fun _ => ""
  toLowerCase := asciiLower

/-- An advisory that fixes openssl in 1.1.2, for the ecosystem as it spells it. -/
def opensslAdvisory (ecosystem : String) : OsvAdvisory where
  id := "DSA-5343-1"
  affected :=
    [{ package := ⟨some "openssl", some ecosystem⟩
       ranges := [⟨some "ECOSYSTEM", [{ introduced := some "0" }, { fixed := some "1.1.2" }]⟩] }]

/-- The feeds answer with that advisory only. -/
def opensslAnswers (ecosystem : String) : FeedAnswers where
  advisories := [opensslAdvisory ecosystem]
  ghsa := []
  nvd := fun _ => none

/-- openssl 1.1.1, as an SBOM's Debian purl names it. -/
def opensslComponent : MatchableComponent := ⟨"openssl", "1.1.1", "Debian"⟩

/-- The matcher behind a refresh of openssl from those answers. -/
def opensslMatch (ecosystem : String) : MatchResult :=
  matchComponent plainRuntime {}
    (mirrorCalls
      (MirrorStore.empty.mirrorPackage plainRuntime opensslComponent.package
        (opensslAnswers ecosystem) 1)
      fun _ => .ok [opensslAdvisory ecosystem])
    opensslComponent

/-- An advisory spelled as the query spells the package is matched from the mirror. -/
theorem openssl_same_spelling_matched :
    (opensslMatch "Debian").mirrored = true ∧
      (opensslAdvisory "Debian").id ∈ (opensslMatch "Debian").found.map VulnMatch.id :=
  (mirrored_match_iff plainRuntime {} MirrorStore.empty opensslComponent (opensslAnswers "Debian") 1
    (fun _ => .ok [opensslAdvisory "Debian"]) (List.mem_singleton.mpr rfl)
    (fun _ hb _ => List.mem_singleton.mp hb) (List.cons_ne_nil _ _)).mpr
    ⟨by decide, Or.inl (by decide), _, List.mem_singleton.mpr rfl, by decide, by decide⟩

/-- An advisory spelled with the release is not: the version is affected, the
mirror answers, and its answer is empty.  The live query would return it. -/
theorem openssl_release_suffix_lost :
    versionAffected opensslComponent.version (opensslAdvisory "Debian:11").affected {} = true ∧
      (opensslMatch "Debian:11").mirrored = true ∧
      (opensslMatch "Debian:11").found.map VulnMatch.id = [] ∧
      (matchLive plainRuntime {} (mirrorCalls MirrorStore.empty
        fun _ => .ok [opensslAdvisory "Debian:11"]) opensslComponent).map VulnMatch.id =
          ["DSA-5343-1"] ∧
      ¬ ((opensslMatch "Debian:11").mirrored = true ∧
        (opensslAdvisory "Debian:11").id ∈ (opensslMatch "Debian:11").found.map VulnMatch.id) := by
  decide

end Intel
end Ctem
