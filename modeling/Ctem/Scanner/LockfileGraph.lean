import Ctem.Foundation.BfsPaths
import Ctem.Scanner.SbomParser

/-!
# Dependency chains

A lockfile parser and the SBOM parser each search a graph of components on their
own: the one from any number of roots, which its chains begin with, the other from
the root component, which its chains leave out.

* `shortestPathsFromRoots` is the search of the lockfile parsers; `DependencyChain`
  says what a chain is, without a search.
* `ShortestChains` is the full specification of a map of chains.
* `shortestPaths_length` compares the two searches on the graph of one document, and
  `dependencyChains_agree` states both results together.
-/

namespace Ctem
namespace Scanner

open Foundation

/-! ## The search of the lockfile parsers -/

/-- `edges.get(current) ?? []`. -/
def targetsOf (edges : AssocMap String (List String)) (id : String) : List String :=
  (edges.lookup? id).getD []

/-- The first loop: each root once, with itself as its path. -/
def seedRoots (roots : List String) : Bfs.State String :=
  roots.foldl (Bfs.visit []) ⟨[], []⟩

/-- The second loop, as often as there may be a node in the queue. -/
def searchFromRoots (roots : List String) (edges : AssocMap String (List String)) :
    Bfs.State String :=
  Bfs.search (targetsOf edges) (roots.length + (edges.flatMap Prod.snd).length) (seedRoots roots)

/-- `shortestPathsFromRoots`. -/
def shortestPathsFromRoots (roots : List String) (edges : AssocMap String (List String)) :
    AssocMap String (List String) :=
  (searchFromRoots roots edges).paths

/-- A chain from a root along the edges to `id`. -/
structure DependencyChain (roots : List String) (edges : AssocMap String (List String))
    (id : String) (chain : List String) : Prop where
  starts : ∃ root ∈ roots, chain.head? = some root
  linked : chain.IsChain fun a b => b ∈ targetsOf edges a
  ends : chain.getLast? = some id

/-- The chains of a map, and that no chain there is, is shorter. -/
structure ShortestChains (roots : List String) (edges : AssocMap String (List String))
    (paths : AssocMap String (List String)) : Prop where
  reachable : ∀ id, id ∈ paths.keys ↔
    ∃ root ∈ roots, Relation.ReflTransGen (fun a b => b ∈ targetsOf edges a) root id
  chains : ∀ id path, paths.lookup? id = some path → DependencyChain roots edges id path
  shortest : ∀ id path, paths.lookup? id = some path →
    ∀ chain, DependencyChain roots edges id chain → path.length ≤ chain.length

/-- A chain as its first node and the rest. -/
theorem DependencyChain.cases {roots : List String} {edges : AssocMap String (List String)}
    {id : String} {chain : List String} (h : DependencyChain roots edges id chain) :
    ∃ root ∈ roots, ∃ rest, chain = root :: rest := by
  obtain ⟨root, hroot, hhead⟩ := h.starts
  exact ⟨root, hroot, chain.tail, List.eq_cons_of_mem_head? hhead⟩

theorem DependencyChain.concat {roots : List String} {edges : AssocMap String (List String)}
    {id : String} {chain : List String} (h : DependencyChain roots edges id chain)
    {next : String} (hnext : next ∈ targetsOf edges id) :
    DependencyChain roots edges next (chain ++ [next]) := by
  obtain ⟨hlinked, hends⟩ := Bfs.isChain_concat h.linked h.ends hnext
  obtain ⟨root, hroot, rest, rfl⟩ := h.cases
  exact ⟨⟨root, hroot, rfl⟩, hlinked, hends⟩

/-- What is reachable is what a chain leads to. -/
theorem reachable_iff_chain (roots : List String) (edges : AssocMap String (List String))
    (id : String) :
    (∃ root ∈ roots, Relation.ReflTransGen (fun a b => b ∈ targetsOf edges a) root id) ↔
      ∃ chain, DependencyChain roots edges id chain := by
  constructor
  · rintro ⟨root, hroot, hreach⟩
    obtain ⟨rest, hlinked, hends⟩ := List.exists_isChain_cons_of_relationReflTransGen hreach
    exact ⟨root :: rest, ⟨root, hroot, rfl⟩, hlinked,
      (List.getLast?_eq_some_getLast (List.cons_ne_nil _ _)).trans (congrArg some hends)⟩
  · rintro ⟨chain, hchain⟩
    obtain ⟨root, hroot, rest, rfl⟩ := hchain.cases
    refine ⟨root, hroot, List.relationReflTransGen_of_exists_isChain_cons rest hchain.linked ?_⟩
    have hends := hchain.ends
    rw [List.getLast?_eq_some_getLast (List.cons_ne_nil _ _)] at hends
    exact Option.some.inj hends

/-! ## What it finds -/

theorem targetsOf_subset (edges : AssocMap String (List String)) (id : String) :
    ∀ next ∈ targetsOf edges id, next ∈ edges.flatMap Prod.snd := by
  intro next hnext
  unfold targetsOf at hnext
  cases hlookup : edges.lookup? id with
  | none => simp [hlookup] at hnext
  | some nexts =>
      rw [hlookup] at hnext
      exact List.mem_flatMap.mpr ⟨(id, nexts), AssocMap.mem_of_lookup? hlookup, hnext⟩

/-- The loop ends: its queue is empty. -/
theorem searchFromRoots_drained (roots : List String) (edges : AssocMap String (List String)) :
    (searchFromRoots roots edges).queue = [] := by
  apply Bfs.search_drained (targetsOf_subset edges)
  have hseed : (seedRoots roots).queue.length ≤ 0 + roots.length :=
    Bfs.queue_length_foldl_visit [] roots ⟨[], []⟩
  have hmeasure := Bfs.measure_le (edges.flatMap Prod.snd) (seedRoots roots)
  omega

theorem mem_keys_seedRoots (roots : List String) (id : String) :
    id ∈ (seedRoots roots).paths.keys ↔ id ∈ roots := by
  rw [seedRoots, Bfs.mem_keys_foldl_visit]
  simp [AssocMap.keys]

theorem seedRoots_spec (roots : List String) (id : String) :
    (id ∈ (seedRoots roots).queue ↔ id ∈ (seedRoots roots).paths.keys) ∧
      (id ∈ (seedRoots roots).paths.keys → (seedRoots roots).path id = [id]) :=
  Bfs.foldl_visit_nil (by simp [AssocMap.keys]) id

theorem seedRoots_layered (roots : List String) (edges : AssocMap String (List String)) :
    Bfs.Layered (targetsOf edges) (DependencyChain roots edges) [] (seedRoots roots) := by
  refine Bfs.Layered.seed ?_ (fun id => (seedRoots_spec roots id).1) 1 ?_
  · intro id hid
    rw [(seedRoots_spec roots id).2 hid]
    exact ⟨⟨id, (mem_keys_seedRoots roots id).mp hid, rfl⟩, List.isChain_singleton id, rfl⟩
  · intro id hid
    rw [Bfs.State.depth, (seedRoots_spec roots id).2 hid, List.length_singleton]

theorem searchFromRoots_layered (roots : List String) (edges : AssocMap String (List String)) :
    Bfs.Layered (targetsOf edges) (DependencyChain roots edges) [] (searchFromRoots roots edges) :=
  (seedRoots_layered roots edges).search (fun _ _ _ hchain hnext => hchain.concat hnext) _

/-- A chain leads to a node the search has found, on a path that is no longer. -/
theorem searchFromRoots_le {roots : List String} {edges : AssocMap String (List String)}
    {id : String} {chain : List String} (h : DependencyChain roots edges id chain) :
    id ∈ (shortestPathsFromRoots roots edges).keys ∧
      ((searchFromRoots roots edges).path id).length ≤ chain.length := by
  obtain ⟨root, hroot, rest, rfl⟩ := h.cases
  have hseed := (mem_keys_seedRoots roots root).mpr hroot
  obtain ⟨hseen, hpath⟩ := Bfs.search_keeps (targetsOf edges)
    (roots.length + (edges.flatMap Prod.snd).length) (seedRoots roots) hseed
  have hdepth : (searchFromRoots roots edges).depth root = 1 := by
    rw [Bfs.State.depth, searchFromRoots, hpath, (seedRoots_spec roots root).2 hseed,
      List.length_singleton]
  obtain ⟨hmem, hle⟩ := (searchFromRoots_layered roots edges).chain_le
    (searchFromRoots_drained roots edges) hseen h.linked h.ends
  refine ⟨hmem, ?_⟩
  rw [hdepth] at hle
  rw [List.length_cons, Nat.add_comm]
  exact hle

theorem path_of_lookup? {roots : List String} {edges : AssocMap String (List String)}
    {id : String} {path : List String}
    (h : (shortestPathsFromRoots roots edges).lookup? id = some path) :
    id ∈ (shortestPathsFromRoots roots edges).keys ∧
      (searchFromRoots roots edges).path id = path := by
  refine ⟨(AssocMap.isSome_lookup? _ _).mp (by rw [h]; rfl), ?_⟩
  change ((shortestPathsFromRoots roots edges).lookup? id).getD [] = path
  rw [h, Option.getD_some]

/-- The search of the lockfile parsers meets its specification on every graph. -/
theorem shortestPathsFromRoots_spec (roots : List String)
    (edges : AssocMap String (List String)) :
    ShortestChains roots edges (shortestPathsFromRoots roots edges) where
  reachable := by
    intro id
    rw [reachable_iff_chain]
    constructor
    · intro hid
      exact ⟨_, (searchFromRoots_layered roots edges).sound id hid⟩
    · rintro ⟨chain, hchain⟩
      exact (searchFromRoots_le hchain).1
  chains := by
    intro id path hpath
    obtain ⟨hid, hown⟩ := path_of_lookup? hpath
    rw [← hown]
    exact (searchFromRoots_layered roots edges).sound id hid
  shortest := by
    intro id path hpath chain hchain
    rw [← (path_of_lookup? hpath).2]
    exact (searchFromRoots_le hchain).2

/-! ## The search of the SBOM parser -/

/-- `new Map(dependencies.map(d => [d.ref, d.dependsOn ?? []]))`. -/
def dependencyMap (dependencies : List CycloneDxDependency) : AssocMap String (List String) :=
  AssocMap.groupFold CycloneDxDependency.ref (fun d _ => d.dependsOn) dependencies

theorem targetsOf_dependencyMap (dependencies : List CycloneDxDependency) :
    targetsOf (dependencyMap dependencies) = dependencyEdges dependencies := by
  funext ref
  rw [targetsOf, dependencyMap, AssocMap.lookup?_groupFold_last, List.getLast?_filter]
  rfl

section Sbom

variable {dependencies : List CycloneDxDependency} {root ref : String}

/-- The search behind `shortestPaths`; its paths go without the root. -/
theorem fromRoot_layered (dependencies : List CycloneDxDependency) (root : String) :
    Bfs.Layered (dependencyEdges dependencies)
      (fun ref path => DependencyChain [root] (dependencyMap dependencies) ref (root :: path)) []
      (Bfs.fromRoot (dependencyEdges dependencies)
        (dependencies.flatMap CycloneDxDependency.dependsOn) root) := by
  refine Bfs.Layered.search ?_ (Bfs.Layered.seed ?_ ?_ 0 ?_) _
  · intro ref path next hchain hnext
    rw [← targetsOf_dependencyMap] at hnext
    exact hchain.concat hnext
  · intro ref href
    obtain rfl : ref = root := by simpa [AssocMap.keys] using href
    have hpath : Bfs.State.path ⟨[(ref, [])], [ref]⟩ ref = [] := by
      simp [Bfs.State.path, AssocMap.lookup?]
    rw [hpath]
    exact ⟨⟨ref, List.mem_singleton_self ref, rfl⟩, List.isChain_singleton ref, rfl⟩
  · intro ref
    simp [AssocMap.keys]
  · intro ref href
    obtain rfl : ref = root := by simpa [AssocMap.keys] using href
    simp [Bfs.State.depth, Bfs.State.path, AssocMap.lookup?]

/-- A chain from the root leads to a ref with a path that is no longer. -/
theorem fromRoot_le {chain : List String}
    (h : DependencyChain [root] (dependencyMap dependencies) ref (root :: chain)) :
    ref ∈ (Bfs.fromRoot (dependencyEdges dependencies)
        (dependencies.flatMap CycloneDxDependency.dependsOn) root).paths.keys ∧
      ((Bfs.fromRoot (dependencyEdges dependencies)
        (dependencies.flatMap CycloneDxDependency.dependsOn) root).path ref).length ≤
        chain.length := by
  have hseed : root ∈ AssocMap.keys [(root, ([] : List String))] := by
    simp [AssocMap.keys]
  obtain ⟨hseen, hpath⟩ := Bfs.search_keeps (dependencyEdges dependencies)
    ((dependencies.flatMap CycloneDxDependency.dependsOn).length + 1) ⟨[(root, [])], [root]⟩ hseed
  have hdepth : (Bfs.fromRoot (dependencyEdges dependencies)
      (dependencies.flatMap CycloneDxDependency.dependsOn) root).depth root = 0 := by
    rw [Bfs.State.depth, Bfs.fromRoot, hpath]
    simp [Bfs.State.path, AssocMap.lookup?]
  have hlinked := h.linked
  rw [targetsOf_dependencyMap] at hlinked
  obtain ⟨hmem, hle⟩ := (fromRoot_layered dependencies root).chain_le
    (shortestPaths_drained dependencies root) hseen hlinked h.ends
  rw [hdepth, Nat.zero_add] at hle
  exact ⟨hmem, hle⟩

/-- The path the parser gives a ref. -/
def sbomPath (rootRef : Option String) (dependencies : List CycloneDxDependency)
    (ref : String) : List String :=
  ((shortestPaths rootRef dependencies).lookup? ref).getD []

theorem sbomPath_eq (hroot : root ≠ "") (href : ref ≠ root) :
    sbomPath (some root) dependencies ref =
      (Bfs.fromRoot (dependencyEdges dependencies)
        (dependencies.flatMap CycloneDxDependency.dependsOn) root).path ref := by
  have hfilter := AssocMap.lookup?_filter (Bfs.fromRoot (dependencyEdges dependencies)
    (dependencies.flatMap CycloneDxDependency.dependsOn) root).paths
    (fun k => decide (k ≠ root)) ref
  rw [if_pos (decide_eq_true href)] at hfilter
  unfold sbomPath shortestPaths
  simp only [if_neg hroot]
  rw [hfilter]
  rfl

/-- A ref with a chain: its path is a shortest one, without the root. -/
theorem sbomPath_spec (hroot : root ≠ "") (href : ref ≠ root) {chain : List String}
    (h : DependencyChain [root] (dependencyMap dependencies) ref (root :: chain)) :
    DependencyChain [root] (dependencyMap dependencies) ref
        (root :: sbomPath (some root) dependencies ref) ∧
      (sbomPath (some root) dependencies ref).length ≤ chain.length := by
  obtain ⟨hmem, hle⟩ := fromRoot_le h
  rw [sbomPath_eq hroot href]
  exact ⟨(fromRoot_layered dependencies root).sound ref hmem, hle⟩

/-- A ref without one has no path. -/
theorem sbomPath_eq_nil (hroot : root ≠ "") (href : ref ≠ root)
    (h : ∀ chain, ¬ DependencyChain [root] (dependencyMap dependencies) ref chain) :
    sbomPath (some root) dependencies ref = [] := by
  rw [sbomPath_eq hroot href]
  have hunseen : ref ∉ (Bfs.fromRoot (dependencyEdges dependencies)
      (dependencies.flatMap CycloneDxDependency.dependsOn) root).paths.keys := by
    intro hmem
    exact h _ ((fromRoot_layered dependencies root).sound ref hmem)
  rw [← AssocMap.isSome_lookup?, Bool.not_eq_true, Option.isSome_eq_false_iff,
    Option.isNone_iff_eq_none] at hunseen
  rw [Bfs.State.path, hunseen, Option.getD_none]

/-- The two searches agree on the length of a chain, the root not counted. -/
theorem sbomPath_length (hroot : root ≠ "") (href : ref ≠ root) {chain : List String}
    (h : (shortestPathsFromRoots [root] (dependencyMap dependencies)).lookup? ref = some chain) :
    (sbomPath (some root) dependencies ref).length + 1 = chain.length := by
  have hspec := shortestPathsFromRoots_spec [root] (dependencyMap dependencies)
  have hchain := hspec.chains ref chain h
  obtain ⟨start, hstart, rest, rfl⟩ := hchain.cases
  obtain rfl := List.mem_singleton.mp hstart
  obtain ⟨hown, hle⟩ := sbomPath_spec hroot href hchain
  have hge := hspec.shortest ref _ h _ hown
  rw [List.length_cons] at hge ⊢
  rw [List.length_cons] at hge
  omega

/-- With one entry for each ref it does not matter which one is looked for. -/
theorem find?_ref (hrefs : (dependencies.map CycloneDxDependency.ref).Nodup) (root : String) :
    ((dependencies.find? fun d => decide (some d.ref = some root)).map
      CycloneDxDependency.dependsOn).getD [] = dependencyEdges dependencies root := by
  have hfind : (dependencies.find? fun d => decide (some d.ref = some root)) =
      dependencies.reverse.find? fun d => decide (d.ref = root) := by
    simp only [Option.some_inj]
    cases hlast : dependencies.reverse.find? fun d => decide (d.ref = root) with
    | none => simpa using hlast
    | some d =>
        have hd : d ∈ dependencies := by simpa using List.mem_of_find?_eq_some hlast
        have hkey : d.ref = root := by simpa using List.find?_some hlast
        cases hfirst : dependencies.find? fun d => decide (d.ref = root) with
        | none =>
            have hnone := List.find?_eq_none.mp hfirst d hd
            simp [hkey] at hnone
        | some e =>
            have he := List.mem_of_find?_eq_some hfirst
            have hekey : e.ref = root := by simpa using List.find?_some hfirst
            rw [List.inj_on_of_nodup_map hrefs he hd (hekey.trans hkey.symm)]
  rw [hfind]
  rfl

/-- A ref the root depends on is one whose path is a single step. -/
theorem mem_dependencyEdges_iff (hroot : root ≠ "") (href : ref ≠ root) :
    ref ∈ dependencyEdges dependencies root ↔
      (sbomPath (some root) dependencies ref).length = 1 := by
  constructor
  · intro hedge
    rw [← targetsOf_dependencyMap] at hedge
    have hchain : DependencyChain [root] (dependencyMap dependencies) ref [root, ref] :=
      ⟨⟨root, List.mem_singleton_self root, rfl⟩, List.isChain_pair.mpr hedge, rfl⟩
    obtain ⟨hown, hle⟩ := sbomPath_spec hroot href hchain
    have hne : sbomPath (some root) dependencies ref ≠ [] := by
      intro hnil
      rw [hnil] at hown
      exact href (Option.some.inj hown.ends).symm
    have hpos := List.length_pos_iff.mpr hne
    rw [List.length_singleton] at hle
    omega
  · intro hlength
    by_cases hreach : ∃ chain, DependencyChain [root] (dependencyMap dependencies) ref chain
    · obtain ⟨chain, hchain⟩ := hreach
      obtain ⟨start, hstart, rest, rfl⟩ := hchain.cases
      obtain rfl := List.mem_singleton.mp hstart
      obtain ⟨hown, _⟩ := sbomPath_spec hroot href hchain
      obtain ⟨only, honly⟩ := List.length_eq_one_iff.mp hlength
      rw [honly] at hown
      obtain rfl : only = ref := Option.some.inj hown.ends
      rw [← targetsOf_dependencyMap]
      exact List.isChain_pair.mp hown.linked
    · rw [sbomPath_eq_nil hroot href (not_exists.mp hreach)] at hlength
      cases hlength

end Sbom

/-! ## What the parser reports -/

/-- What the parser says of a component, beside the chain the other search finds. -/
structure ChainAgrees (doc : CycloneDxDocument) (c : CycloneDxComponent)
    (found : ResolvedComponent) : Prop where
  length : ∀ chain, (shortestPathsFromRoots doc.rootRef.toList
    (dependencyMap doc.dependencies)).lookup? c.ref = some chain →
      found.dependencyPath.length + 1 = chain.length
  absent : (shortestPathsFromRoots doc.rootRef.toList
    (dependencyMap doc.dependencies)).lookup? c.ref = none → found.dependencyPath = []
  direct : found.direct = true ↔ found.dependencyPath.length = 1

theorem resolveComponent_agrees {doc : CycloneDxDocument}
    (hrefs : (doc.dependencies.map CycloneDxDependency.ref).Nodup) (hroot : doc.rootRef ≠ some "")
    (nameByRef : AssocMap String String) {c : CycloneDxComponent} (name : String)
    (href : some c.ref ≠ doc.rootRef) :
    ChainAgrees doc c (resolveComponent doc nameByRef c name) := by
  have hpath : (resolveComponent doc nameByRef c name).dependencyPath =
      (sbomPath doc.rootRef doc.dependencies c.ref).map fun r =>
        (AssocMap.lookup? nameByRef r).getD r := rfl
  have hdirect : (resolveComponent doc nameByRef c name).direct =
      decide (c.ref ∈ ((doc.dependencies.find? fun d =>
        decide (some d.ref = doc.rootRef)).map CycloneDxDependency.dependsOn).getD []) := rfl
  cases hdoc : doc.rootRef with
  | none =>
      -- No root: no search, and no entry of the graph is the root's.
      rw [hdoc] at hpath hdirect
      have hnil : sbomPath none doc.dependencies c.ref = [] := rfl
      have hfind : (doc.dependencies.find? fun d => decide (some d.ref = none)) = none := by
        simp
      rw [hnil] at hpath
      rw [hfind] at hdirect
      refine ⟨?_, fun _ => hpath, ?_⟩
      · intro chain hchain
        rw [hdoc] at hchain
        obtain ⟨root, hmem, _⟩ := ((shortestPathsFromRoots_spec _ _).chains _ _ hchain).starts
        exact absurd hmem List.not_mem_nil
      · rw [hdirect, hpath]
        simp
  | some root =>
      rw [hdoc] at hpath hdirect hroot href
      have hne : root ≠ "" := fun h => hroot (congrArg some h)
      have hother : c.ref ≠ root := fun h => href (congrArg some h)
      have hlength : (resolveComponent doc nameByRef c name).dependencyPath.length =
          (sbomPath (some root) doc.dependencies c.ref).length := by
        rw [hpath, List.length_map]
      refine ⟨?_, ?_, ?_⟩
      · intro chain hchain
        rw [hdoc] at hchain
        rw [hlength]
        exact sbomPath_length hne hother hchain
      · intro habsent
        rw [hdoc] at habsent
        rw [hpath, sbomPath_eq_nil hne hother, List.map_nil]
        intro chain hchain
        have hmem := ((shortestPathsFromRoots_spec _ _).reachable c.ref).mpr
          ((reachable_iff_chain _ _ _).mpr ⟨chain, hchain⟩)
        rw [← AssocMap.isSome_lookup?] at hmem
        rw [Option.toList_some] at habsent
        rw [habsent] at hmem
        cases hmem
      · rw [hdirect, hlength, find?_ref hrefs, decide_eq_true_iff]
        exact mem_dependencyEdges_iff hne hother

/-- Both searches end and find shortest chains, and the parser's agree with the other's:
over every graph and every document that does not name an empty root. -/
theorem dependencyChains_agree :
    (∀ roots edges, (searchFromRoots roots edges).queue = [] ∧
      ShortestChains roots edges (shortestPathsFromRoots roots edges)) ∧
    ∀ decode doc found, parseCycloneDx decode doc = .ok found →
      (doc.dependencies.map CycloneDxDependency.ref).Nodup → doc.rootRef ≠ some "" →
      List.Forall₂ (fun c f => some c.ref ≠ doc.rootRef → ChainAgrees doc c f)
        doc.components found := by
  refine ⟨fun roots edges =>
    ⟨searchFromRoots_drained roots edges, shortestPathsFromRoots_spec roots edges⟩, ?_⟩
  intro decode doc found hparse hrefs hroot
  obtain ⟨names, hnames, hfound⟩ := bind_eq_ok.mp hparse
  obtain rfl := Except.ok.inj hfound
  have hlength := ((mapM_eq_ok_iff _ _ _).mp hnames).length_eq
  rw [List.forall₂_map_right_iff, List.forall₂_iff_get]
  refine ⟨?_, ?_⟩
  · rw [List.length_zip, ← hlength, Nat.min_self]
  · intro i hc hz href
    have hzip : (doc.components.zip names).get ⟨i, hz⟩ =
        (doc.components.get ⟨i, hc⟩, names.get ⟨i, hlength ▸ hc⟩) := by
      simp
    rw [hzip]
    exact resolveComponent_agrees hrefs hroot _ _ href

/-- A root that is the empty string: the parser searches nothing from it and still finds
its entry, so a component is direct and has no path. -/
theorem dependencyChains_empty_root :
    let c : CycloneDxComponent := { bomRef := some "a", name := "a", version := "1" }
    let doc : CycloneDxDocument :=
      { rootRef := some "", components := [c], dependencies := [⟨"", ["a"]⟩] }
    (doc.components.map CycloneDxComponent.ref).Nodup ∧
      (doc.dependencies.map CycloneDxDependency.ref).Nodup ∧ some c.ref ≠ doc.rootRef ∧
      (shortestPathsFromRoots doc.rootRef.toList (dependencyMap doc.dependencies)).lookup? c.ref =
        some ["", "a"] ∧
      ∃ found, parseCycloneDx .ok doc = .ok [found] ∧ found.dependencyPath = [] ∧
        found.direct = true := by
  refine ⟨by decide, by decide, by decide, by decide +kernel, _, rfl, rfl, rfl⟩

end Scanner
end Ctem
