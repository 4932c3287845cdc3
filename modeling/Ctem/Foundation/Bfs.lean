import Mathlib.Data.List.Dedup
import Ctem.Foundation.JsCollections

/-!
# Breadth-first search

The shortest paths from a root along labelled edges, as a queue and a map from the
nodes seen to the path that reached them first.

* `visit` looks at one successor, `expand` pops one node; `search` repeats it.
* The fuel of `search` is a bound on its rounds: `expand_measure` says a round
  lowers the queue and the unseen targets together by one, and `search_drained`
  that the queue is empty when `search` stops.
-/

namespace Ctem
namespace Foundation
namespace Bfs

universe u

variable {ν : Type u} [DecidableEq ν]

/-- A search on its way: the path of every node seen, and the nodes to expand. -/
structure State (ν : Type u) where
  paths : AssocMap ν (List ν)
  queue : List ν

/-- One successor of a node whose path is `base`: skipped when it has been seen. -/
def visit (base : List ν) (s : State ν) (next : ν) : State ν :=
  if next ∈ s.paths.keys then s
  else ⟨s.paths ++ [(next, base ++ [next])], s.queue ++ [next]⟩

/-- Pop one node and look at its successors. -/
def expand (edges : ν → List ν) (s : State ν) : State ν :=
  match s.queue with
  | [] => s
  | current :: rest =>
      (edges current).foldl (visit ((s.paths.lookup? current).getD [])) { s with queue := rest }

/-- `fuel` rounds. -/
def search (edges : ν → List ν) : Nat → State ν → State ν
  | 0, s => s
  | fuel + 1, s => search edges fuel (expand edges s)

/-- The targets not seen yet, each once. -/
def unseen (targets : List ν) (s : State ν) : List ν :=
  targets.dedup.filter fun n => decide (n ∉ s.paths.keys)

/-- What is left to do. -/
def measure (targets : List ν) (s : State ν) : Nat :=
  s.queue.length + (unseen targets s).length

/-- Looking at a target moves it from the unseen to the queue, or changes nothing. -/
theorem visit_measure {targets : List ν} (base : List ν) (s : State ν) {next : ν}
    (htarget : next ∈ targets) : measure targets (visit base s next) = measure targets s := by
  unfold visit
  split
  · rfl
  · rename_i hfresh
    have hunseen : unseen targets ⟨s.paths ++ [(next, base ++ [next])], s.queue ++ [next]⟩ =
        (unseen targets s).erase next := by
      have hnodup : (unseen targets s).Nodup := (List.nodup_dedup targets).filter _
      rw [hnodup.erase_eq_filter]
      unfold unseen
      rw [List.filter_filter]
      apply List.filter_congr
      intro n _
      have hkeys : AssocMap.keys (s.paths ++ [(next, base ++ [next])]) =
          AssocMap.keys s.paths ++ [next] := List.map_append
      rw [hkeys]
      by_cases heq : n = next
      · simp [heq]
      · simp [heq]
    have hmem : next ∈ unseen targets s := by
      simp [unseen, htarget, hfresh]
    have hpos := List.length_pos_of_mem hmem
    unfold measure
    rw [hunseen, List.length_erase_of_mem hmem, List.length_append, List.length_singleton]
    omega

theorem foldl_visit_measure {targets : List ν} (base : List ν) (nexts : List ν) (s : State ν)
    (htargets : ∀ n ∈ nexts, n ∈ targets) :
    measure targets (nexts.foldl (visit base) s) = measure targets s := by
  induction nexts generalizing s with
  | nil => rfl
  | cons n rest ih =>
      rw [List.foldl_cons, ih _ (fun m hm => htargets m (List.mem_cons_of_mem _ hm)),
        visit_measure base s (htargets n List.mem_cons_self)]

/-- A round with a node to expand lowers what is left by one. -/
theorem expand_measure {edges : ν → List ν} {targets : List ν}
    (htargets : ∀ n, ∀ m ∈ edges n, m ∈ targets) (s : State ν) (hqueue : s.queue ≠ []) :
    measure targets (expand edges s) + 1 = measure targets s := by
  unfold expand
  cases hq : s.queue with
  | nil => exact absurd hq hqueue
  | cons current rest =>
      simp only
      rw [foldl_visit_measure _ _ _ (htargets current)]
      unfold measure
      rw [hq]
      change rest.length + (unseen targets s).length + 1 = _
      rw [List.length_cons]
      omega

/-- With as much fuel as there is left to do, the queue is drained. -/
theorem search_drained {edges : ν → List ν} {targets : List ν}
    (htargets : ∀ n, ∀ m ∈ edges n, m ∈ targets) (fuel : Nat) (s : State ν)
    (hfuel : measure targets s ≤ fuel) : (search edges fuel s).queue = [] := by
  induction fuel generalizing s with
  | zero =>
      have hlen : s.queue.length = 0 := by
        unfold measure at hfuel
        omega
      exact List.length_eq_zero_iff.mp hlen
  | succ fuel ih =>
      by_cases hqueue : s.queue = []
      · have hexpand : expand edges s = s := by
          unfold expand
          rw [hqueue]
        change (search edges fuel (expand edges s)).queue = []
        rw [hexpand]
        have hfix : ∀ fuel, search edges fuel s = s := by
          intro fuel
          induction fuel with
          | zero => rfl
          | succ fuel ih =>
              change search edges fuel (expand edges s) = s
              rw [hexpand, ih]
        rw [hfix, hqueue]
      · apply ih
        have hstep := expand_measure htargets s hqueue
        omega

/-- The search from a root, over edges whose targets are `targets`. -/
def fromRoot (edges : ν → List ν) (targets : List ν) (root : ν) : State ν :=
  search edges (targets.length + 1) ⟨[(root, [])], [root]⟩

/-- Its queue is empty at the end: every node seen has been expanded. -/
theorem fromRoot_drained {edges : ν → List ν} {targets : List ν}
    (htargets : ∀ n, ∀ m ∈ edges n, m ∈ targets) (root : ν) :
    (fromRoot edges targets root).queue = [] := by
  apply search_drained htargets
  have hfilter : (unseen targets ⟨[(root, [])], [root]⟩).length ≤ targets.dedup.length :=
    List.length_filter_le _ _
  have hdedup : targets.dedup.length ≤ targets.length := (List.dedup_sublist targets).length_le
  unfold measure
  rw [List.length_singleton]
  omega

end Bfs
end Foundation
end Ctem
