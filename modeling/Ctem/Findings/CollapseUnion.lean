import Ctem.Findings.Normalizer
import Ctem.Foundation.Utf16Order

/-!
# What a collapsed row has of its findings

`collapseScan` puts the findings of one fingerprint into one row: the first of them, the sorted
union of their lockfile paths and the union of their dependency paths.

* `findingPaths` and `findingChains` are what the code reads as the lockfile paths and the
  dependency paths of a finding, `rowPaths` and `rowChains` those of a row.
* `Unites` relates a row to the findings it was built from; `Unites.concat` is one more finding.
* `collapseScan_unites` puts it together: the rows of a batch, of the batch in another order, and
  of the batch with every finding twice.

An empty dependency path is none: `dependencyPaths` reads an empty list as no path.
-/

namespace Ctem
namespace Findings

open Foundation Contracts

/-! ## Paths of findings and rows -/

/-- The lockfile paths of a finding: its path, unless it is empty. -/
def findingPaths (finding : RawFinding) : List String :=
  lockfilePaths (finding.location.path.map Json.str)

/-- The dependency paths of a finding. -/
def findingChains (finding : RawFinding) : List (List String) :=
  dependencyPaths (finding.evidence.get? "dependencyPath")

namespace CollapsedFinding

def rowPaths (row : CollapsedFinding) : List String := lockfilePaths (row.location.get? "path")

def rowChains (row : CollapsedFinding) : List (List String) :=
  dependencyPaths (row.evidence.get? "dependencyPath")

end CollapsedFinding

/-- How a union of lockfile paths is stored. -/
def pathValue : List String → Option Json
  | [] => none
  | [path] => some (.str path)
  | paths => some (.arr (paths.map Json.str))

/-- How a union of dependency paths is stored. -/
def chainValue : List (List String) → Option Json
  | [] => none
  | [path] => some (.arr (path.map Json.str))
  | paths => some (.arr (paths.map fun path => .arr (path.map Json.str)))

section Values

theorem unionLockfilePaths_eq (a b : Option Json) :
    unionLockfilePaths a b = pathValue (sortedSet (lockfilePaths a ++ lockfilePaths b)) := rfl

theorem unionDependencyPaths_eq (a b : Option Json) :
    unionDependencyPaths a b =
      chainValue (dependencyPaths a ++ dependencyPaths b).eraseDups := rfl

theorem nonEmptyStrings_map_str {paths : List String} (h : ∀ p ∈ paths, p ≠ "") :
    nonEmptyStrings (paths.map Json.str) = paths := by
  induction paths with
  | nil => rfl
  | cons p paths ih =>
      have hp : p ≠ "" := h p List.mem_cons_self
      have hrest := ih fun q hq => h q (List.mem_cons_of_mem _ hq)
      unfold nonEmptyStrings at hrest ⊢
      have hread : Option.filter (fun s => decide (s ≠ "")) (some p) = some p := by
        simp [Option.filter, hp]
      rw [List.map_cons, List.filterMap_cons, hrest, Json.str?_str, hread]

/-- Stored paths are read back. -/
theorem lockfilePaths_pathValue {paths : List String} (h : ∀ p ∈ paths, p ≠ "") :
    lockfilePaths (pathValue paths) = paths := by
  match paths, h with
  | [], _ => rfl
  | [p], h => exact nonEmptyStrings_map_str h
  | p :: q :: rest, h => exact nonEmptyStrings_map_str h

theorem pathValue_eq_none {paths : List String} (h : pathValue paths = none) : paths = [] := by
  unfold pathValue at h
  split at h
  · rfl
  · cases h
  · cases h

theorem chainValue_eq_none {paths : List (List String)} (h : chainValue paths = none) :
    paths = [] := by
  unfold chainValue at h
  split at h
  · rfl
  · cases h
  · cases h

theorem ne_empty_of_mem_lockfilePaths {value : Option Json} {p : String}
    (hp : p ∈ lockfilePaths value) : p ≠ "" := by
  have hmem : ∀ values : List Json, p ∈ nonEmptyStrings values → p ≠ "" := by
    intro values h
    obtain ⟨v, -, hv⟩ := List.mem_filterMap.mp h
    exact of_decide_eq_true (Option.filter_eq_some_iff.mp hv).2
  unfold lockfilePaths at hp
  split at hp
  · exact hmem _ hp
  · exact hmem _ hp
  · cases hp

theorem stringList?_map_str (path : List String) :
    stringList? (path.map Json.str) = some path := by
  unfold stringList?
  induction path with
  | nil => rfl
  | cons s path ih => simp [List.mapM_cons, ih]

theorem filterMap_map_some {g : Json → Option (List String)} {f : List String → Json}
    (paths : List (List String)) (h : ∀ path, g (f path) = some path) :
    (paths.map f).filterMap g = paths := by
  rw [List.filterMap_map]
  have hsome : g ∘ f = some := funext h
  rw [hsome, List.filterMap_some]

/-- A stored union is read back, but for an empty path that is the only one. -/
theorem mem_dependencyPaths_chainValue {paths : List (List String)} {chain : List String}
    (hne : chain ≠ []) : chain ∈ dependencyPaths (chainValue paths) ↔ chain ∈ paths := by
  match paths with
  | [] => simp [chainValue, dependencyPaths]
  | [path] =>
      cases path with
      | nil =>
          -- One empty path is stored as an empty list.
          simp [chainValue, dependencyPaths, hne]
      | cons s path =>
          have hread := stringList?_map_str (s :: path)
          rw [List.map_cons] at hread
          simp [chainValue, dependencyPaths, hread]
  | p :: q :: rest =>
      have hnone : stringList? ((p :: q :: rest).map fun path => Json.arr (path.map Json.str)) =
          none := by
        simp [stringList?, List.mapM_cons, Json.str?]
      have hread : dependencyPaths (chainValue (p :: q :: rest)) = p :: q :: rest := by
        rw [List.map_cons, List.map_cons] at hnone
        simp only [chainValue, List.map_cons, dependencyPaths, hnone]
        exact @filterMap_map_some _ (fun path => .arr (path.map Json.str)) (p :: q :: rest)
          stringList?_map_str
      rw [hread]

end Values

/-! ## One row -/

/-- An object of the members that are set. -/
def definedFields (fields : List (String × Option Json)) : JsonObject :=
  fields.filterMap fun (key, value) => value.map fun v => (key, v)

theorem get?_definedFields_cons (key : String) (value : Option Json)
    (fields : List (String × Option Json)) (k : String) :
    (definedFields ((key, value) :: fields)).get? k =
      ((definedFields fields).get? k).or (if key = k then value else none) := by
  unfold definedFields
  cases value with
  | none => simp
  | some v => simp only [List.filterMap_cons, Option.map_some, JsonObject.get?_cons]

theorem get?_definedFields_nil (k : String) : (definedFields []).get? k = none := rfl

theorem get?_locationFields_path (l : Location) :
    (locationFields l).get? "path" = l.path.map Json.str := by
  change (definedFields _).get? "path" = _
  simp only [get?_definedFields_cons, get?_definedFields_nil, String.reduceEq, if_true, if_false,
    Option.or_none, Option.none_or]

/-- Assigning a key leaves the others. -/
theorem get?_assignDefined_ne {o : JsonObject} {key k : String} (hne : k ≠ key)
    (value : Option Json) : (assignDefined o key value).get? k = o.get? k := by
  cases value with
  | none => rfl
  | some v =>
      unfold assignDefined
      rw [JsonObject.get?_append, JsonObject.get?_cons, if_neg (Ne.symm hne)]
      simp

theorem get?_assignDefined_self (o : JsonObject) (key : String) (value : Option Json) :
    (assignDefined o key value).get? key = value.or (o.get? key) := by
  cases value with
  | none => rfl
  | some v =>
      unfold assignDefined
      rw [JsonObject.get?_concat_self]
      rfl

/-- The row has the paths of the findings, and all else from the first of them. -/
structure Unites (hits : List RawFinding) (row : CollapsedFinding) : Prop where
  first : hits.head? = some row.finding
  path : row.location.get? "path" =
    (pathValue (sortedSet (hits.flatMap findingPaths))).or
      (row.finding.location.path.map Json.str)
  location : ∀ key, key ≠ "path" →
    row.location.get? key = (locationFields row.finding.location).get? key
  chains : ∀ chain, chain ≠ [] →
    (chain ∈ row.rowChains ↔ ∃ finding ∈ hits, chain ∈ findingChains finding)
  evidence : ∀ key, key ≠ "dependencyPath" →
    row.evidence.get? key = row.finding.evidence.get? key

namespace Unites

variable {hits : List RawFinding} {row : CollapsedFinding}

theorem ne_empty_of_mem {p : String} (hp : p ∈ sortedSet (hits.flatMap findingPaths)) :
    p ≠ "" := by
  obtain ⟨finding, -, hmem⟩ := List.mem_flatMap.mp (mem_sortedSet.mp hp)
  exact ne_empty_of_mem_lockfilePaths hmem

/-- The lockfile paths of a row are those of its findings, sorted and each once. -/
theorem paths (h : Unites hits row) : row.rowPaths = sortedSet (hits.flatMap findingPaths) := by
  unfold CollapsedFinding.rowPaths
  rw [h.path]
  cases hvalue : pathValue (sortedSet (hits.flatMap findingPaths)) with
  | some value =>
      rw [Option.some_or, ← hvalue]
      exact lockfilePaths_pathValue fun p hp => ne_empty_of_mem hp
  | none =>
      -- Without a path of any finding the first has none, or an empty one.
      have hnil := pathValue_eq_none hvalue
      rw [Option.none_or, hnil, List.eq_nil_iff_forall_not_mem]
      intro p hp
      have hmem : p ∈ sortedSet (hits.flatMap findingPaths) :=
        mem_sortedSet.mpr (List.mem_flatMap.mpr
          ⟨row.finding, List.mem_of_mem_head? (h.first ▸ rfl), hp⟩)
      rw [hnil] at hmem
      cases hmem

/-- The first finding of a fingerprint. -/
theorem single (fp : String) (finding : RawFinding) :
    Unites [finding] (collapseInto fp finding none) where
  first := rfl
  path := by
    change (locationFields finding.location).get? "path" =
      (pathValue (sortedSet ([finding].flatMap findingPaths))).or
        (finding.location.path.map Json.str)
    rw [get?_locationFields_path, List.flatMap_singleton]
    unfold findingPaths
    cases finding.location.path with
    | none => rfl
    | some p =>
        by_cases hp : p = ""
        · subst hp
          rfl
        · have hread : lockfilePaths (some (Json.str p)) = [p] :=
            @nonEmptyStrings_map_str [p] (by simpa using hp)
          rw [Option.map_some, hread]
          rfl
  location := fun _ _ => rfl
  chains := by
    intro chain _
    simp [CollapsedFinding.rowChains, collapseInto, findingChains]
  evidence := fun _ _ => rfl

/-- One more finding of the fingerprint. -/
theorem concat (h : Unites hits row) (fp : String) (finding : RawFinding) :
    Unites (hits ++ [finding]) (collapseInto fp finding (some row)) where
  first := by
    rw [List.head?_append, h.first]
    rfl
  path := by
    change (unionLocation row.location (locationFields finding.location)).get? "path" = _
    have hunion : sortedSet (row.rowPaths ++ findingPaths finding) =
        sortedSet ((hits ++ [finding]).flatMap findingPaths) := by
      apply sortedSet_congr
      intro s
      rw [h.paths, List.flatMap_append, List.flatMap_singleton, List.mem_append, List.mem_append,
        mem_sortedSet]
    unfold unionLocation
    rw [get?_assignDefined_self, unionLockfilePaths_eq, get?_locationFields_path]
    change (pathValue (sortedSet (row.rowPaths ++ findingPaths finding))).or
      (row.location.get? "path") = _
    rw [hunion, h.path, ← Option.or_assoc]
    -- What the earlier findings had is in the union.
    cases hvalue : pathValue (sortedSet ((hits ++ [finding]).flatMap findingPaths)) with
    | some value => rfl
    | none =>
        have hnil := pathValue_eq_none hvalue
        have hearlier : sortedSet (hits.flatMap findingPaths) = [] := by
          rw [List.eq_nil_iff_forall_not_mem] at hnil ⊢
          intro p hp
          refine hnil p (mem_sortedSet.mpr ?_)
          rw [List.flatMap_append]
          exact List.mem_append_left _ (mem_sortedSet.mp hp)
        rw [hearlier]
        rfl
  location := by
    intro key hkey
    change (unionLocation row.location (locationFields finding.location)).get? key = _
    rw [unionLocation, get?_assignDefined_ne hkey, h.location key hkey]
    rfl
  chains := by
    intro chain hne
    change chain ∈ dependencyPaths
      ((unionEvidence row.evidence finding.evidence).get? "dependencyPath") ↔ _
    have hunion : chain ∈ (row.rowChains ++ findingChains finding).eraseDups ↔
        ∃ f ∈ hits ++ [finding], chain ∈ findingChains f := by
      rw [List.mem_eraseDups, List.mem_append, h.chains chain hne]
      simp only [List.mem_append, List.mem_singleton, or_and_right, exists_or, exists_eq_left]
    rw [unionEvidence, get?_assignDefined_self, unionDependencyPaths_eq, ← hunion]
    change chain ∈ dependencyPaths ((chainValue (row.rowChains ++
      findingChains finding).eraseDups).or (row.evidence.get? "dependencyPath")) ↔ _
    cases hvalue : chainValue (row.rowChains ++ findingChains finding).eraseDups with
    | some value =>
        rw [Option.some_or, ← hvalue]
        exact mem_dependencyPaths_chainValue hne
    | none =>
        have hnil := chainValue_eq_none hvalue
        rw [Option.none_or, hnil]
        have hrow : chain ∉ row.rowChains := by
          intro hchain
          have hmem : chain ∈ (row.rowChains ++ findingChains finding).eraseDups :=
            List.mem_eraseDups.mpr (List.mem_append_left _ hchain)
          rw [hnil] at hmem
          cases hmem
        exact iff_of_false hrow List.not_mem_nil
  evidence := by
    intro key hkey
    change (unionEvidence row.evidence finding.evidence).get? key = _
    rw [unionEvidence, get?_assignDefined_ne hkey, h.evidence key hkey]
    rfl

end Unites

/-! ## A batch -/

section Batch

variable (platform : Platform) (assetId : Uuid)

/-- The findings of a fingerprint. -/
def hitsOf (fp : String) (findings : List RawFinding) : List RawFinding :=
  findings.filter fun finding => decide (fingerprint platform assetId finding = fp)

/-- Two rows of a fingerprint that say the same: equal but for how dependency paths are stored. -/
structure EqualRow (row row' : CollapsedFinding) : Prop where
  finding : row.finding = row'.finding
  location : ∀ key, row.location.get? key = row'.location.get? key
  chains : ∀ chain, chain ≠ [] → (chain ∈ row.rowChains ↔ chain ∈ row'.rowChains)
  evidence : ∀ key, key ≠ "dependencyPath" → row.evidence.get? key = row'.evidence.get? key

/-- The rows of two batches: the same fingerprints in the same order, with rows that say the
same. -/
structure EqualRows (rows rows' : List CollapsedFinding) : Prop where
  fingerprints : rows.map CollapsedFinding.fingerprint = rows'.map CollapsedFinding.fingerprint
  rows : ∀ row ∈ rows, ∀ row' ∈ rows', row.fingerprint = row'.fingerprint → EqualRow row row'

variable {platform assetId} {findings others : List RawFinding}

/-- The fold over the findings of a fingerprint ends with a row that unites them. -/
theorem exists_unites (hits : List RawFinding) (hne : hits ≠ []) :
    ∃ row, hits.foldl (fun old finding =>
        some (collapseInto (fingerprint platform assetId finding) finding old)) none = some row ∧
      Unites hits row := by
  induction hits using List.reverseRecOn with
  | nil => exact absurd rfl hne
  | append_singleton hits finding ih =>
      rw [List.foldl_append]
      by_cases hnil : hits = []
      · subst hnil
        exact ⟨_, rfl, Unites.single _ finding⟩
      · obtain ⟨row, hfold, hunites⟩ := ih hnil
        rw [hfold]
        exact ⟨_, rfl, hunites.concat _ finding⟩

/-- Each row of the batch unites the findings of its fingerprint. -/
theorem unites_collapseScan {row : CollapsedFinding}
    (hrow : row ∈ collapseScan platform assetId findings) :
    Unites (hitsOf platform assetId row.fingerprint findings) row := by
  obtain ⟨⟨fp, row'⟩, hentry, rfl⟩ := List.mem_map.mp hrow
  have hfp : row'.fingerprint = fp := byFingerprint_fingerprint platform assetId findings _ hentry
  have hlookup := AssocMap.lookup?_of_mem (AssocMap.nodup_keys_groupFold _ _ findings) hentry
  rw [AssocMap.lookup?_groupFold] at hlookup
  change Unites (hitsOf platform assetId row'.fingerprint findings) row'
  rw [hfp]
  have hne : hitsOf platform assetId fp findings ≠ [] := by
    intro hnil
    unfold hitsOf at hnil
    rw [hnil] at hlookup
    cases hlookup
  obtain ⟨row'', hfold, hunites⟩ := exists_unites _ hne
  have heq : row'' = row' := Option.some.inj (hfold.symm.trans hlookup)
  exact heq ▸ hunites

/-- Rows that unite the same findings, the same one first, say the same. -/
theorem equalRow_of_unites {hits hits' : List RawFinding} {row row' : CollapsedFinding}
    (h : Unites hits row) (h' : Unites hits' row') (hmem : ∀ f, f ∈ hits ↔ f ∈ hits')
    (hfirst : hits.head? = hits'.head?) : EqualRow row row' := by
  have hfinding : row.finding = row'.finding := by
    have heq := h.first.symm.trans (hfirst.trans h'.first)
    exact Option.some.inj heq
  have hpaths : sortedSet (hits.flatMap findingPaths) = sortedSet (hits'.flatMap findingPaths) := by
    apply sortedSet_congr
    intro s
    simp only [List.mem_flatMap, hmem]
  refine ⟨hfinding, ?_, ?_, ?_⟩
  · intro key
    by_cases hkey : key = "path"
    · rw [hkey, h.path, h'.path, hpaths, hfinding]
    · rw [h.location key hkey, h'.location key hkey, hfinding]
  · intro chain hne
    rw [h.chains chain hne, h'.chains chain hne]
    simp only [hmem]
  · intro key hkey
    rw [h.evidence key hkey, h'.evidence key hkey, hfinding]

/-- Batches of the same findings, the same one first for each fingerprint, have the same rows. -/
theorem equalRows_of_hits (hmem : ∀ f, f ∈ others ↔ f ∈ findings)
    (horder : (others.map (fingerprint platform assetId)).eraseDups =
      (findings.map (fingerprint platform assetId)).eraseDups)
    (hfirst : ∀ fp, (hitsOf platform assetId fp others).head? =
      (hitsOf platform assetId fp findings).head?) :
    EqualRows (collapseScan platform assetId others) (collapseScan platform assetId findings) where
  fingerprints := by
    rw [map_fingerprint_collapseScan, map_fingerprint_collapseScan]
    unfold byFingerprint
    rw [AssocMap.keys_groupFold, AssocMap.keys_groupFold, horder]
  rows := by
    intro row hrow row' hrow' hfp
    have hunites := unites_collapseScan hrow
    rw [hfp] at hunites
    refine equalRow_of_unites hunites (unites_collapseScan hrow') ?_ (hfirst _)
    intro f
    unfold hitsOf
    rw [List.mem_filter, List.mem_filter, hmem]

theorem head?_hitsOf_self (fp : String) :
    (hitsOf platform assetId fp (findings ++ findings)).head? =
      (hitsOf platform assetId fp findings).head? := by
  unfold hitsOf
  rw [List.filter_append, List.head?_append, Option.or_self]

/-- Every finding twice in place. -/
def twice (findings : List RawFinding) : List RawFinding := findings.flatMap fun f => [f, f]

theorem mem_twice {f : RawFinding} : f ∈ twice findings ↔ f ∈ findings := by
  simp [twice]

theorem twice_concat (findings : List RawFinding) (f : RawFinding) :
    twice (findings ++ [f]) = twice findings ++ [f, f] := by
  simp [twice]

theorem head?_hitsOf_twice (fp : String) :
    (hitsOf platform assetId fp (twice findings)).head? =
      (hitsOf platform assetId fp findings).head? := by
  unfold hitsOf twice
  induction findings with
  | nil => rfl
  | cons f findings ih =>
      rw [List.flatMap_cons, List.filter_append, List.head?_append, ih, List.filter_cons]
      by_cases hfp : fingerprint platform assetId f = fp
      · simp [hfp]
      · simp [hfp]

theorem eraseDups_twice :
    ((twice findings).map (fingerprint platform assetId)).eraseDups =
      (findings.map (fingerprint platform assetId)).eraseDups := by
  induction findings using List.reverseRecOn with
  | nil => rfl
  | append_singleton findings f ih =>
      have hmem : ∀ fp, fp ∈ (twice findings).map (fingerprint platform assetId) ↔
          fp ∈ findings.map (fingerprint platform assetId) := by
        intro fp
        simp only [List.mem_map, mem_twice]
      rw [twice_concat, List.map_append, List.map_append, List.eraseDups_append,
        List.eraseDups_append, ih]
      congr 1
      -- The second copy meets the first one, or what was there before.
      by_cases hold : fingerprint platform assetId f ∈
          findings.map (fingerprint platform assetId)
      · simp only [List.map_cons, List.map_nil, List.removeAll, List.filter_cons, List.filter_nil,
          List.elem_eq_mem, hmem, hold]
        rfl
      · simp only [List.map_cons, List.map_nil, List.removeAll, List.filter_cons, List.filter_nil,
          List.elem_eq_mem, hmem, hold]
        simp [List.eraseDups_cons]

end Batch

/-- The rows of a batch: one for each fingerprint in order of first appearance, with the sorted
lockfile paths and the dependency paths of its findings, whatever their order; and with every
finding twice the rows say the same. -/
theorem collapseScan_unites (platform : Platform) (assetId : Uuid) (findings : List RawFinding) :
    (collapseScan platform assetId findings).map CollapsedFinding.fingerprint =
        (findings.map (fingerprint platform assetId)).eraseDups ∧
      (∀ row ∈ collapseScan platform assetId findings,
        row.rowPaths =
            sortedSet ((hitsOf platform assetId row.fingerprint findings).flatMap findingPaths) ∧
          ∀ chain, chain ≠ [] → (chain ∈ row.rowChains ↔
            ∃ f ∈ hitsOf platform assetId row.fingerprint findings, chain ∈ findingChains f)) ∧
      (∀ others : List RawFinding, others.Perm findings →
        ∀ row ∈ collapseScan platform assetId findings,
          ∃ row' ∈ collapseScan platform assetId others,
            row'.fingerprint = row.fingerprint ∧ row'.rowPaths = row.rowPaths ∧
              ∀ chain, chain ≠ [] → (chain ∈ row'.rowChains ↔ chain ∈ row.rowChains)) ∧
      EqualRows (collapseScan platform assetId (findings ++ findings))
          (collapseScan platform assetId findings) ∧
        EqualRows (collapseScan platform assetId (twice findings))
          (collapseScan platform assetId findings) := by
  refine ⟨?_, ?_, ?_, ?_, ?_⟩
  · rw [map_fingerprint_collapseScan]
    exact AssocMap.keys_groupFold _ _ findings
  · intro row hrow
    have hunites := unites_collapseScan hrow
    exact ⟨hunites.paths, hunites.chains⟩
  · intro others hperm row hrow
    have hunites := unites_collapseScan hrow
    obtain ⟨f, hf, hfp⟩ := (mem_fingerprints_collapseScan platform assetId findings
      row.fingerprint).mp (List.mem_map_of_mem hrow)
    obtain ⟨row', hrow', hfp'⟩ := List.mem_map.mp ((mem_fingerprints_collapseScan platform assetId
      others row.fingerprint).mpr ⟨f, hperm.mem_iff.mpr hf, hfp⟩)
    have hunites' := unites_collapseScan hrow'
    rw [hfp'] at hunites'
    have hmem : ∀ f, f ∈ hitsOf platform assetId row.fingerprint others ↔
        f ∈ hitsOf platform assetId row.fingerprint findings := by
      intro f
      unfold hitsOf
      rw [List.mem_filter, List.mem_filter, hperm.mem_iff]
    refine ⟨row', hrow', hfp', ?_, ?_⟩
    · rw [hunites.paths, hunites'.paths]
      apply sortedSet_congr
      intro s
      simp only [List.mem_flatMap, hmem]
    · intro chain hne
      rw [hunites.chains chain hne, hunites'.chains chain hne]
      simp only [hmem]
  · refine equalRows_of_hits (fun f => by simp) ?_ fun fp => head?_hitsOf_self fp
    have hnone : (findings.map (fingerprint platform assetId)).removeAll
        (findings.map (fingerprint platform assetId)) = [] := by
      rw [List.removeAll, List.filter_eq_nil_iff]
      intro fp hfp
      simpa using hfp
    rw [List.map_append, List.eraseDups_append, hnone, List.eraseDups_nil, List.append_nil]
  · exact equalRows_of_hits (fun f => mem_twice) eraseDups_twice fun fp => head?_hitsOf_twice fp

/-- A platform for runs: what is hashed stays as it is. -/
def verbatim : Platform := ⟨id, id⟩

/-- A finding with these dependency paths. -/
def chainFinding (chains : List Json) : RawFinding where
  externalId := "GHSA-0000"
  scannerType := .sca
  scannerName := "sca"
  title := "Vulnerable package"
  severity := .high
  location := { purl := some "pkg:npm/qs@6.8.0" }
  evidence := [("dependencyPath", .arr chains)]

/-- With an empty dependency path the doubled batch loses it, and one path in a list of paths is
stored bare after the union. -/
theorem collapseScan_twice_differs :
    ((collapseScan verbatim "asset" [chainFinding [.arr []]]).map CollapsedFinding.rowChains =
          [[[]]] ∧
        (collapseScan verbatim "asset" (twice [chainFinding [.arr []]])).map
          CollapsedFinding.rowChains = [[]]) ∧
      collapseScan verbatim "asset" (twice [chainFinding [.arr [.str "express"]]]) ≠
        collapseScan verbatim "asset" [chainFinding [.arr [.str "express"]]] := by
  refine ⟨⟨by decide +kernel, by decide +kernel⟩, fun h => ?_⟩
  have hstored := congrArg (List.map fun row => row.evidence.get? "dependencyPath") h
  have hbare : (collapseScan verbatim "asset" (twice [chainFinding [.arr [.str "express"]]])).map
      (fun row => row.evidence.get? "dependencyPath") = [some (.arr [.str "express"])] := rfl
  have hlist : (collapseScan verbatim "asset" [chainFinding [.arr [.str "express"]]]).map
      (fun row => row.evidence.get? "dependencyPath") =
        [some (.arr [.arr [.str "express"]])] := rfl
  rw [hbare, hlist] at hstored
  simp at hstored

end Findings
end Ctem
