import Mathlib.Data.List.Basic
import Mathlib.Data.List.Induction
import Mathlib.Data.List.Infix
import Mathlib.Tactic.Cases

/-!
# Since when a property has held

A history is a list, the oldest entry first, and a property of histories holds or fails after
each of its entries.  `HeldSince P history a` says that it has held without a break since the
entry `a`: it did not hold before `a`, and has held behind `a` and every entry after it.

`heldSince_concat_iff` is the step: another entry begins the time where the property did not
hold, and continues it where it did.
-/

namespace Ctem
namespace Foundation

universe u

variable {α : Type u} {P : List α → Prop} {history : List α} {a b x : α}

/-- The property has held without a break since that entry. -/
def HeldSince (P : List α → Prop) (history : List α) (a : α) : Prop :=
  ∃ before after, history = before ++ a :: after ∧ ¬ P before ∧
    ∀ seg, seg <+: after → P (before ++ a :: seg)

theorem HeldSince.holds (h : HeldSince P history a) : P history := by
  obtain ⟨before, after, rfl, -, hheld⟩ := h
  exact hheld after (List.prefix_refl _)

theorem HeldSince.mem (h : HeldSince P history a) : a ∈ history := by
  obtain ⟨before, after, rfl, -⟩ := h
  simp

/-- One entry more: the time begins with it, or goes on. -/
theorem heldSince_concat_iff :
    HeldSince P (history ++ [x]) a ↔
      P (history ++ [x]) ∧ ((¬ P history ∧ a = x) ∨ HeldSince P history a) := by
  constructor
  · intro h
    refine ⟨h.holds, ?_⟩
    obtain ⟨before, after, hsplit, hbefore, hheld⟩ := h
    rcases List.eq_nil_or_concat after with rfl | ⟨after, y, rfl⟩
    · obtain ⟨rfl, hlast⟩ := List.append_inj' hsplit rfl
      exact Or.inl ⟨hbefore, (List.cons.inj hlast).1.symm⟩
    · rw [List.concat_eq_append] at hsplit hheld
      have hmove : history ++ [x] = (before ++ a :: after) ++ [y] := by
        rw [hsplit, List.append_assoc, List.cons_append]
      obtain ⟨rfl, -⟩ := List.append_inj' hmove rfl
      exact Or.inr ⟨before, after, rfl, hbefore,
        fun seg hseg => hheld seg (hseg.trans (List.prefix_append after [y]))⟩
  · rintro ⟨hnow, ⟨hbefore, rfl⟩ | ⟨before, after, rfl, hbefore, hheld⟩⟩
    · refine ⟨history, [], rfl, hbefore, ?_⟩
      intro seg hseg
      rw [List.prefix_nil.mp hseg]
      exact hnow
    · refine ⟨before, after ++ [x], by simp, hbefore, ?_⟩
      intro seg hseg
      rcases List.prefix_concat_iff.mp hseg with rfl | hseg
      · have hmove : before ++ a :: (after ++ [x]) = before ++ a :: after ++ [x] := by simp
        rw [hmove]
        exact hnow
      · exact hheld seg hseg

/-- There is one such entry at most. -/
theorem HeldSince.unique (ha : HeldSince P history a) (hb : HeldSince P history b) : a = b := by
  induction history using List.reverseRecOn with
  | nil => exact absurd ha.mem (by simp)
  | append_singleton history x ih =>
      rcases (heldSince_concat_iff.mp ha).2 with ⟨hnew, rfl⟩ | hold
      · rcases (heldSince_concat_iff.mp hb).2 with ⟨-, rfl⟩ | hold
        · rfl
        · exact absurd hold.holds hnew
      · rcases (heldSince_concat_iff.mp hb).2 with ⟨hnew, -⟩ | hold'
        · exact absurd hold.holds hnew
        · exact ih hold hold'

/-- What holds now and did not hold at first has held since some entry. -/
theorem exists_heldSince (hnil : ¬ P []) (h : P history) : ∃ a, HeldSince P history a := by
  induction history using List.reverseRecOn with
  | nil => exact absurd h hnil
  | append_singleton history x ih =>
      by_cases hbefore : P history
      · obtain ⟨a, ha⟩ := ih hbefore
        exact ⟨a, heldSince_concat_iff.mpr ⟨h, Or.inr ha⟩⟩
      · exact ⟨x, heldSince_concat_iff.mpr ⟨h, Or.inl ⟨hbefore, rfl⟩⟩⟩

end Foundation
end Ctem
