import Mathlib.Data.List.Chain
import Ctem.Foundation.Bfs

/-!
# The paths a breadth-first search finds

What the map of a breadth-first search holds when its queue is empty: the paths are
paths, and none is longer than it has to be.

* `Layered` is the invariant.  Its `front` is the node being expanded, if there is
  one; `front` and queue together are in the order of their depths, and no node seen
  lies more than one step behind the first of them.
* `Layered.visit` keeps it for one successor, `Layered.expand` for a round and
  `Layered.search` for a run; `Layered.seed` is where a run starts.
* `Layered.chain_le` reads the result: a chain that leaves a node seen arrives at a
  node seen, and at a depth its own length bounds.
-/

namespace Ctem
namespace Foundation
namespace Bfs

universe u

variable {ν : Type u} [DecidableEq ν]

/-- The path of a node seen. -/
def State.path (s : State ν) (n : ν) : List ν := (s.paths.lookup? n).getD []

/-- How far away the search has found a node. -/
def State.depth (s : State ν) (n : ν) : Nat := (s.path n).length

/-! ## One successor -/

theorem visit_of_seen (base : List ν) (s : State ν) {next : ν} (hseen : next ∈ s.paths.keys) :
    visit base s next = s := if_pos hseen

theorem visit_of_fresh (base : List ν) (s : State ν) {next : ν} (hfresh : next ∉ s.paths.keys) :
    visit base s next = ⟨s.paths ++ [(next, base ++ [next])], s.queue ++ [next]⟩ := if_neg hfresh

/-- The nodes seen are those there were, and the one looked at. -/
theorem mem_keys_visit (base : List ν) (s : State ν) (next n : ν) :
    n ∈ (visit base s next).paths.keys ↔ n ∈ s.paths.keys ∨ n = next := by
  by_cases hseen : next ∈ s.paths.keys
  · rw [visit_of_seen base s hseen]
    constructor
    · exact Or.inl
    · rintro (h | rfl)
      · exact h
      · exact hseen
  · rw [visit_of_fresh base s hseen]
    simp [AssocMap.keys]

/-- The path of a node seen does not change. -/
theorem path_visit (base : List ν) (s : State ν) (next : ν) {n : ν} (hn : n ∈ s.paths.keys) :
    (visit base s next).path n = s.path n := by
  by_cases hseen : next ∈ s.paths.keys
  · rw [visit_of_seen base s hseen]
  · rw [visit_of_fresh base s hseen]
    obtain ⟨p, hp⟩ := Option.isSome_iff_exists.mp ((AssocMap.isSome_lookup? s.paths n).mpr hn)
    simp [State.path, AssocMap.lookup?_append, hp]

/-- A node that is new gets the path of the node in front of it, and itself. -/
theorem path_visit_fresh (base : List ν) (s : State ν) {next : ν}
    (hfresh : next ∉ s.paths.keys) : (visit base s next).path next = base ++ [next] := by
  rw [visit_of_fresh base s hfresh]
  have hnone : s.paths.lookup? next = none := by
    by_contra hsome
    exact hfresh ((AssocMap.isSome_lookup? s.paths next).mp (Option.isSome_iff_ne_none.mpr hsome))
  simp [State.path, AssocMap.lookup?_append, hnone, AssocMap.lookup?]

theorem mem_keys_foldl_visit (base : List ν) (nexts : List ν) (s : State ν) (n : ν) :
    n ∈ (nexts.foldl (visit base) s).paths.keys ↔ n ∈ s.paths.keys ∨ n ∈ nexts := by
  induction nexts generalizing s with
  | nil => simp
  | cons next rest ih =>
      rw [List.foldl_cons, ih, mem_keys_visit, List.mem_cons, or_assoc]

theorem path_foldl_visit (base : List ν) (nexts : List ν) (s : State ν) {n : ν}
    (hn : n ∈ s.paths.keys) : (nexts.foldl (visit base) s).path n = s.path n := by
  induction nexts generalizing s with
  | nil => rfl
  | cons next rest ih =>
      rw [List.foldl_cons, ih _ ((mem_keys_visit base s next n).mpr (Or.inl hn)),
        path_visit base s next hn]

/-! ## A round and a run keep what has been found -/

theorem expand_keeps (edges : ν → List ν) (s : State ν) {n : ν} (hn : n ∈ s.paths.keys) :
    n ∈ (expand edges s).paths.keys ∧ (expand edges s).path n = s.path n := by
  unfold expand
  cases s.queue with
  | nil => exact ⟨hn, rfl⟩
  | cons current rest =>
      exact ⟨(mem_keys_foldl_visit _ _ _ n).mpr (Or.inl hn), path_foldl_visit _ _ _ hn⟩

theorem search_keeps (edges : ν → List ν) (fuel : Nat) (s : State ν) {n : ν}
    (hn : n ∈ s.paths.keys) :
    n ∈ (search edges fuel s).paths.keys ∧ (search edges fuel s).path n = s.path n := by
  induction fuel generalizing s with
  | zero => exact ⟨hn, rfl⟩
  | succ fuel ih =>
      obtain ⟨hseen, hpath⟩ := expand_keeps edges s hn
      obtain ⟨hmem, heq⟩ := ih (expand edges s) hseen
      exact ⟨hmem, heq.trans hpath⟩

/-! ## Chains and nodes to start from -/

omit [DecidableEq ν] in
/-- A chain goes on where it ends. -/
theorem isChain_concat {R : ν → ν → Prop} {l : List ν} {n m : ν} (hchain : l.IsChain R)
    (hlast : l.getLast? = some n) (hstep : R n m) :
    (l ++ [m]).IsChain R ∧ (l ++ [m]).getLast? = some m := by
  refine ⟨List.isChain_append.mpr ⟨hchain, List.isChain_singleton m, ?_⟩, List.getLast?_concat⟩
  intro x hx y hy
  have hxn : n = x := Option.some.inj (hlast.symm.trans hx)
  have hym : m = y := Option.some.inj hy
  rw [← hxn, ← hym]
  exact hstep

theorem queue_length_foldl_visit (base : List ν) (nexts : List ν) (s : State ν) :
    (nexts.foldl (visit base) s).queue.length ≤ s.queue.length + nexts.length := by
  induction nexts generalizing s with
  | nil => exact Nat.le_refl _
  | cons next rest ih =>
      have hvisit : (visit base s next).queue.length ≤ s.queue.length + 1 := by
        unfold visit
        split
        · exact Nat.le_succ _
        · rw [List.length_append, List.length_singleton]
      have hrest := ih (visit base s next)
      rw [List.foldl_cons, List.length_cons]
      omega

/-- Bounds what is left to do, for any queue. -/
theorem measure_le (targets : List ν) (s : State ν) :
    measure targets s ≤ s.queue.length + targets.length := by
  have hfilter : (unseen targets s).length ≤ targets.dedup.length := List.length_filter_le _ _
  have hdedup : targets.dedup.length ≤ targets.length := (List.dedup_sublist targets).length_le
  unfold measure
  omega

/-- Nodes that are looked at from nowhere wait, each with itself as its path. -/
theorem foldl_visit_nil {roots : List ν} {s : State ν}
    (hs : ∀ n, (n ∈ s.queue ↔ n ∈ s.paths.keys) ∧ (n ∈ s.paths.keys → s.path n = [n])) (n : ν) :
    (n ∈ (roots.foldl (visit []) s).queue ↔ n ∈ (roots.foldl (visit []) s).paths.keys) ∧
      (n ∈ (roots.foldl (visit []) s).paths.keys → (roots.foldl (visit []) s).path n = [n]) := by
  induction roots generalizing s with
  | nil => exact hs n
  | cons root rest ih =>
      rw [List.foldl_cons]
      apply ih
      intro m
      by_cases hseen : root ∈ s.paths.keys
      · rw [visit_of_seen [] s hseen]
        exact hs m
      · have hqueue : (visit [] s root).queue = s.queue ++ [root] := by
          rw [visit_of_fresh [] s hseen]
        rw [hqueue, mem_keys_visit, List.mem_append, List.mem_singleton, (hs m).1]
        refine ⟨Iff.rfl, ?_⟩
        rintro (hm | rfl)
        · rw [path_visit [] s root hm]
          exact (hs m).2 hm
        · exact path_visit_fresh [] s hseen

/-! ## The invariant -/

/-- The search is in layers: what waits is in the order of its depth, and everything
else that has been seen has handed its successors on. -/
structure Layered (edges : ν → List ν) (P : ν → List ν → Prop) (front : List ν)
    (s : State ν) : Prop where
  sound : ∀ n ∈ s.paths.keys, P n (s.path n)
  waiting : ∀ n ∈ front ++ s.queue, n ∈ s.paths.keys
  ordered : (front ++ s.queue).Pairwise fun a b => s.depth a ≤ s.depth b
  near : ∀ h, (front ++ s.queue).head? = some h → ∀ n ∈ s.paths.keys, s.depth n ≤ s.depth h + 1
  closed : ∀ n ∈ s.paths.keys, n ∉ front ++ s.queue →
    ∀ m ∈ edges n, m ∈ s.paths.keys ∧ s.depth m ≤ s.depth n + 1

section Invariant

variable {edges : ν → List ν} {P : ν → List ν → Prop}

/-- A search starts with nodes of one depth, all of them waiting. -/
theorem Layered.seed {s : State ν} (hsound : ∀ n ∈ s.paths.keys, P n (s.path n))
    (hqueue : ∀ n, n ∈ s.queue ↔ n ∈ s.paths.keys) (d : Nat)
    (hdepth : ∀ n ∈ s.paths.keys, s.depth n = d) : Layered edges P [] s where
  sound := hsound
  waiting n hn := (hqueue n).mp hn
  ordered := by
    rw [List.nil_append, List.pairwise_iff_forall_sublist]
    intro a b hab
    have ha := (hqueue a).mp (hab.subset (by simp))
    have hb := (hqueue b).mp (hab.subset (by simp))
    exact le_of_eq ((hdepth a ha).trans (hdepth b hb).symm)
  near := by
    intro h hh n hn
    have hseen := (hqueue h).mp (List.mem_of_mem_head? hh)
    have hdn := hdepth n hn
    have hdh := hdepth h hseen
    omega
  closed := by
    intro n hn hnot
    exact absurd ((hqueue n).mpr hn) hnot

/-- One successor of the node in front. -/
theorem Layered.visit {u : ν} {s : State ν} (hs : Layered edges P [u] s)
    (hstep : ∀ p m, P u p → m ∈ edges u → P m (p ++ [m])) {next : ν} (hnext : next ∈ edges u) :
    Layered edges P [u] (visit (s.path u) s next) := by
  by_cases hseen : next ∈ s.paths.keys
  · rw [visit_of_seen _ s hseen]
    exact hs
  · have hu : u ∈ s.paths.keys := hs.waiting u (by simp)
    have hqueue : (Bfs.visit (s.path u) s next).queue = s.queue ++ [next] := by
      rw [visit_of_fresh _ s hseen]
    have hold : ∀ n ∈ s.paths.keys, (Bfs.visit (s.path u) s next).depth n = s.depth n := by
      intro n hn
      unfold State.depth
      rw [path_visit _ s next hn]
    have hnew : (Bfs.visit (s.path u) s next).depth next = s.depth u + 1 := by
      unfold State.depth
      rw [path_visit_fresh _ s hseen, List.length_append, List.length_singleton]
    have hnear := hs.near u rfl
    refine ⟨?_, ?_, ?_, ?_, ?_⟩
    · intro n hn
      rcases (mem_keys_visit _ s next n).mp hn with hn | rfl
      · rw [path_visit _ s next hn]
        exact hs.sound n hn
      · rw [path_visit_fresh _ s hseen]
        exact hstep _ _ (hs.sound u hu) hnext
    · intro n hn
      rw [hqueue, ← List.append_assoc, List.mem_append, List.mem_singleton] at hn
      rw [mem_keys_visit]
      exact hn.imp_left (hs.waiting n)
    · rw [hqueue, ← List.append_assoc, List.pairwise_append]
      refine ⟨?_, List.pairwise_singleton _ _, ?_⟩
      · refine hs.ordered.imp_of_mem ?_
        intro a b ha hb hle
        rw [hold a (hs.waiting a ha), hold b (hs.waiting b hb)]
        exact hle
      · -- The new node is a step behind the front, and nothing seen is farther away.
        intro a ha b hb
        rw [List.mem_singleton] at hb
        rw [hb, hnew, hold a (hs.waiting a ha)]
        exact hnear a (hs.waiting a ha)
    · intro h hh n hn
      have hhu : u = h := Option.some.inj hh
      rw [← hhu, hold u hu]
      rcases (mem_keys_visit _ s next n).mp hn with hn | rfl
      · rw [hold n hn]
        exact hnear n hn
      · rw [hnew]
    · intro n hn hnot m hm
      rw [hqueue, ← List.append_assoc, List.mem_append, List.mem_singleton] at hnot
      push Not at hnot
      have hkey := ((mem_keys_visit _ s next n).mp hn).resolve_right hnot.2
      obtain ⟨hmseen, hle⟩ := hs.closed n hkey hnot.1 m hm
      refine ⟨(mem_keys_visit _ s next m).mpr (Or.inl hmseen), ?_⟩
      rw [hold m hmseen, hold n hkey]
      exact hle

theorem Layered.foldl_visit {u : ν} {s : State ν} (hs : Layered edges P [u] s)
    (hstep : ∀ p m, P u p → m ∈ edges u → P m (p ++ [m])) {nexts : List ν}
    (hnexts : ∀ m ∈ nexts, m ∈ edges u) :
    Layered edges P [u] (nexts.foldl (Bfs.visit (s.path u)) s) := by
  induction nexts generalizing s with
  | nil => exact hs
  | cons next rest ih =>
      have hvisit := hs.visit hstep (hnexts next List.mem_cons_self)
      have hpath : (Bfs.visit (s.path u) s next).path u = s.path u :=
        path_visit _ s next (hs.waiting u (by simp))
      have hrest := ih hvisit fun m hm => hnexts m (List.mem_cons_of_mem next hm)
      rw [hpath] at hrest
      exact hrest

/-- The node in front has handed all its successors on. -/
theorem Layered.done {u : ν} {s : State ν} (hs : Layered edges P [u] s)
    (hall : ∀ m ∈ edges u, m ∈ s.paths.keys) : Layered edges P [] s where
  sound := hs.sound
  waiting n hn := hs.waiting n (List.mem_cons_of_mem u hn)
  ordered := (List.pairwise_cons.mp hs.ordered).2
  near := by
    intro h hh n hn
    have hle := (List.pairwise_cons.mp hs.ordered).1 h (List.mem_of_mem_head? hh)
    have hn := hs.near u rfl n hn
    omega
  closed := by
    intro n hn hnot m hm
    by_cases hnu : n = u
    · rw [hnu] at hm ⊢
      exact ⟨hall m hm, hs.near u rfl m (hall m hm)⟩
    · refine hs.closed n hn ?_ m hm
      rw [List.singleton_append, List.mem_cons]
      exact fun h => h.elim hnu hnot

variable (hP : ∀ n p m, P n p → m ∈ edges n → P m (p ++ [m]))
include hP

theorem Layered.expand {s : State ν} (hs : Layered edges P [] s) :
    Layered edges P [] (expand edges s) := by
  unfold Bfs.expand
  cases hq : s.queue with
  | nil => exact hs
  | cons current rest =>
      have hpop : Layered edges P [current] { s with queue := rest } := by
        have hfront : [current] ++ rest = [] ++ s.queue := hq.symm
        exact ⟨hs.sound, fun n hn => hs.waiting n (hfront ▸ hn), hfront ▸ hs.ordered,
          fun h hh => hs.near h (hfront ▸ hh), fun n hn hnot => hs.closed n hn (hfront ▸ hnot)⟩
      apply (hpop.foldl_visit (hP current) fun m hm => hm).done
      intro m hm
      exact (mem_keys_foldl_visit _ _ _ m).mpr (Or.inr hm)

theorem Layered.search {s : State ν} (hs : Layered edges P [] s) (fuel : Nat) :
    Layered edges P [] (search edges fuel s) := by
  induction fuel generalizing s with
  | zero => exact hs
  | succ fuel ih => exact ih (hs.expand hP)

omit hP

/-- Once nothing waits: a chain from a node seen ends at a node seen, and the depth of
its end exceeds that of its start by no more than the steps it takes. -/
theorem Layered.chain_le {s : State ν} (hs : Layered edges P [] s) (hempty : s.queue = [])
    {a b : ν} {p : List ν} (ha : a ∈ s.paths.keys)
    (hchain : (a :: p).IsChain fun x y => y ∈ edges x) (hlast : (a :: p).getLast? = some b) :
    b ∈ s.paths.keys ∧ s.depth b ≤ s.depth a + p.length := by
  induction p generalizing a with
  | nil =>
      have hab : a = b := Option.some.inj hlast
      rw [← hab]
      exact ⟨ha, Nat.le_add_right _ _⟩
  | cons c rest ih =>
      obtain ⟨hedge, htail⟩ := List.isChain_cons_cons.mp hchain
      have hidle : a ∉ [] ++ s.queue := by
        rw [hempty]
        exact List.not_mem_nil
      obtain ⟨hc, hle⟩ := hs.closed a ha hidle c hedge
      obtain ⟨hb, hrest⟩ := ih hc htail (by simpa using hlast)
      refine ⟨hb, ?_⟩
      rw [List.length_cons]
      omega

end Invariant

end Bfs
end Foundation
end Ctem
