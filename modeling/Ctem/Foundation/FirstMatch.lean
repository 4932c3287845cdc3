import Mathlib.Data.List.Nodup

/-!
# First match by rank

Rules with distinct ranks, looked at in ascending order: the first one that accepts
decides.  `firstByRank_eq_some_iff` says which one that is without the order.
-/

namespace Ctem
namespace Foundation

universe u

variable {α : Type u} (rank : α → Nat) (accepts : α → Bool)

/-- The rule that decides, if any. -/
def firstByRank (rules : List α) : Option α :=
  (rules.mergeSort fun r r' => decide (rank r ≤ rank r')).find? accepts

variable {rank accepts} {rules : List α} {r : α}

theorem ascending_mergeSort (rank : α → Nat) (rules : List α) :
    (rules.mergeSort fun r r' => decide (rank r ≤ rank r')).Pairwise
      fun r r' => rank r ≤ rank r' := by
  have hsorted := @List.pairwise_mergeSort α (fun r r' => decide (rank r ≤ rank r'))
    (fun a b c hab hbc => by
      simp only [decide_eq_true_eq] at hab hbc ⊢
      exact Nat.le_trans hab hbc)
    (fun a b => by
      simp only [Bool.or_eq_true, decide_eq_true_eq]
      exact Nat.le_total (rank a) (rank b)) rules
  simpa only [decide_eq_true_eq] using hsorted

/-- The rule that decides accepts, and none of a lower rank does. -/
theorem firstByRank_spec (h : firstByRank rank accepts rules = some r) :
    r ∈ rules ∧ accepts r = true ∧ ∀ r' ∈ rules, rank r' < rank r → accepts r' = false := by
  obtain ⟨haccepts, before, after, hsplit, hbefore⟩ := List.find?_eq_some_iff_append.mp h
  have hmem : ∀ r', r' ∈ rules ↔ r' ∈ before ++ r :: after := fun r' => by
    rw [← hsplit, List.mem_mergeSort]
  refine ⟨(hmem r).mpr (by simp), haccepts, ?_⟩
  intro r' hr' hlt
  rcases List.mem_append.mp ((hmem r').mp hr') with hearlier | hlater
  · simpa using hbefore r' hearlier
  · -- from `r` on the ranks only rise
    have hascending := ascending_mergeSort rank rules
    rw [hsplit] at hascending
    rcases List.mem_cons.mp hlater with rfl | hlater
    · omega
    · have hle := List.rel_of_pairwise_cons (List.pairwise_append.mp hascending).2.1 hlater
      omega

theorem firstByRank_eq_some_iff (hdistinct : (rules.map rank).Nodup) :
    firstByRank rank accepts rules = some r ↔
      r ∈ rules ∧ accepts r = true ∧ ∀ r' ∈ rules, rank r' < rank r → accepts r' = false := by
  constructor
  · exact firstByRank_spec
  · rintro ⟨hr, haccepts, hlower⟩
    cases hfirst : firstByRank rank accepts rules with
    | none =>
        have hnone := List.find?_eq_none.mp hfirst r (List.mem_mergeSort.mpr hr)
        exact absurd haccepts hnone
    | some first =>
        obtain ⟨hmem, hfirstAccepts, hfirstLower⟩ := firstByRank_spec hfirst
        -- neither rank is below the other, and equal ranks are one rule
        have hle : rank first ≤ rank r := by
          by_contra hlt
          rw [hfirstLower r hr (by omega)] at haccepts
          cases haccepts
        have hge : rank r ≤ rank first := by
          by_contra hlt
          rw [hlower first hmem (by omega)] at hfirstAccepts
          cases hfirstAccepts
        have hrank : rank first = rank r := Nat.le_antisymm hle hge
        rw [List.inj_on_of_nodup_map hdistinct hmem hr hrank]

end Foundation
end Ctem
