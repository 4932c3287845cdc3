import Mathlib.Data.List.Basic

/-!
# A loop of bounded tries

`tryUpTo attempt settle left i` makes the tries `i, i + 1, ...`, at most `left` of
them, and stops at the first one that `settle` answers.  Nothing is said of what a
try or an answer is.

`tryUpTo_spec` says once what such a loop does when the last try always settles:
everything a caller wants to know follows from the position where it stopped.
-/

namespace Ctem
namespace Foundation

variable {α β : Type*}

/-- The tries that were made, and the answer that stopped the loop; `none` when the
budget ran out first. -/
def tryUpTo (attempt : Nat → α) (settle : Nat → α → Option β) : Nat → Nat → List α × Option β
  | 0, _ => ([], none)
  | left + 1, i =>
      match settle i (attempt i) with
      | some answer => ([attempt i], some answer)
      | none =>
          (attempt i :: (tryUpTo attempt settle left (i + 1)).1,
            (tryUpTo attempt settle left (i + 1)).2)

variable {attempt : Nat → α} {settle : Nat → α → Option β} {left i : Nat}

theorem tryUpTo_succ_of_some {answer : β} (h : settle i (attempt i) = some answer) :
    tryUpTo attempt settle (left + 1) i = ([attempt i], some answer) := by
  simp only [tryUpTo, h]

theorem tryUpTo_succ_of_none (h : settle i (attempt i) = none) :
    tryUpTo attempt settle (left + 1) i =
      (attempt i :: (tryUpTo attempt settle left (i + 1)).1,
        (tryUpTo attempt settle left (i + 1)).2) := by
  simp only [tryUpTo, h]

/-- The first tries, counted from `i`. -/
def triesFrom (attempt : Nat → α) : Nat → Nat → List α
  | 0, _ => []
  | n + 1, i => attempt i :: triesFrom attempt n (i + 1)

@[simp] theorem length_triesFrom (n i : Nat) : (triesFrom attempt n i).length = n := by
  induction n generalizing i with
  | zero => rfl
  | succ n ih => simp [triesFrom, ih]

theorem getElem?_triesFrom {n k : Nat} (hk : k < n) (i : Nat) :
    (triesFrom attempt n i)[k]? = some (attempt (i + k)) := by
  induction n generalizing i k with
  | zero => omega
  | succ n ih =>
      cases k with
      | zero => rfl
      | succ k =>
          have hstep := ih (Nat.lt_of_succ_lt_succ hk) (i + 1)
          rw [triesFrom, List.getElem?_cons_succ, hstep]
          congr 2
          omega

theorem getLast?_triesFrom (n i : Nat) :
    (triesFrom attempt (n + 1) i).getLast? = some (attempt (i + n)) := by
  rw [List.getLast?_eq_getElem?, length_triesFrom]
  exact getElem?_triesFrom (by omega) i

/-- If the last try within the budget always settles, the loop stops at some try
`i + k`: it settles, and the ones before it do not. -/
theorem tryUpTo_spec (attempt : Nat → α) (settle : Nat → α → Option β) (left i : Nat)
    (hlast : ∀ a, (settle (i + left) a).isSome = true) :
    ∃ k ≤ left, ∃ answer,
      tryUpTo attempt settle (left + 1) i = (triesFrom attempt (k + 1) i, some answer) ∧
        settle (i + k) (attempt (i + k)) = some answer ∧
        ∀ j < k, settle (i + j) (attempt (i + j)) = none := by
  induction left generalizing i with
  | zero =>
      obtain ⟨answer, hanswer⟩ := Option.isSome_iff_exists.mp (hlast (attempt i))
      exact ⟨0, Nat.le_refl 0, answer, tryUpTo_succ_of_some hanswer, hanswer,
        fun j hj => absurd hj (Nat.not_lt_zero j)⟩
  | succ left ih =>
      cases hsettle : settle i (attempt i) with
      | some answer =>
          exact ⟨0, Nat.zero_le _, answer, tryUpTo_succ_of_some hsettle, hsettle,
            fun j hj => absurd hj (Nat.not_lt_zero j)⟩
      | none =>
          have hshift : i + 1 + left = i + (left + 1) := by omega
          obtain ⟨k, hk, answer, hrun, hanswer, hbefore⟩ := ih (i + 1) (hshift ▸ hlast)
          refine ⟨k + 1, by omega, answer, ?_, ?_, ?_⟩
          · rw [tryUpTo_succ_of_none hsettle, hrun]
            rfl
          · rw [show i + (k + 1) = i + 1 + k by omega]
            exact hanswer
          · intro j hj
            cases j with
            | zero => exact hsettle
            | succ j =>
                rw [show i + (j + 1) = i + 1 + j by omega]
                exact hbefore j (by omega)

end Foundation
end Ctem
