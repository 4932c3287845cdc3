import Mathlib.Data.List.Infix
import Mathlib.Tactic.Cases

/-!
# Brackets in a list

One kind of bracket in a list of items: how deep a list leads, what it means for it to
be balanced, and the scan for the bracket that closes the one in front.

* `bracketDepth` counts; `BracketBalanced` asks for depth zero, and never less on the way.
* `closeBracket` is the scan, from inside `d + 1` open brackets: the items behind the
  bracket that closes the outermost of them.
* A balanced list is skipped by the scan, `BracketBalanced.closeBracket_append`; behind a list
  that closes enough brackets the scan has ended, `closeBracket_of_depth_le`.
-/

namespace Ctem
namespace Foundation

universe u

/-- A prefix of a list of two parts ends in the first or in the second. -/
theorem prefix_append_cases {α : Type u} {p w v : List α} (h : p <+: w ++ v) :
    p <+: w ∨ ∃ q, p = w ++ q ∧ q <+: v := by
  rcases Nat.le_total p.length w.length with hle | hle
  · exact Or.inl (List.prefix_of_prefix_length_le h (List.prefix_append w v) hle)
  · obtain ⟨q, rfl⟩ := List.prefix_of_prefix_length_le (List.prefix_append w v) h hle
    exact Or.inr ⟨q, rfl, (List.prefix_append_right_inj w).mp h⟩

variable {α : Type u} [DecidableEq α] (left right : α)

/-- The brackets a list opens, less those it closes. -/
def bracketDepth : List α → Int
  | [] => 0
  | a :: rest => (if a = left then 1 else if a = right then -1 else 0) + bracketDepth rest

/-- Behind the bracket that closes the outermost of `d + 1` that are open. -/
def closeBracket : Nat → List α → Option (List α)
  | _, [] => none
  | d, a :: rest =>
      if a = left then closeBracket (d + 1) rest
      else if a = right then if d = 0 then some rest else closeBracket (d - 1) rest
      else closeBracket d rest

/-- It closes what it opens, and nothing else. -/
structure BracketBalanced (w : List α) : Prop where
  total : bracketDepth left right w = 0
  prefixes : ∀ u, u <+: w → 0 ≤ bracketDepth left right u

/-- What is left of a scan one level further out. -/
def leaveBracket : Nat → List α → Option (List α)
  | 0, rest => some rest
  | d + 1, rest => closeBracket left right d rest

variable {left right}

@[simp] theorem bracketDepth_nil : bracketDepth left right [] = 0 := rfl

theorem bracketDepth_append (u v : List α) :
    bracketDepth left right (u ++ v) = bracketDepth left right u + bracketDepth left right v := by
  induction u with
  | nil => simp
  | cons a rest ih =>
      rw [List.cons_append, bracketDepth, bracketDepth, ih, Int.add_assoc]

theorem bracketDepth_left (rest : List α) :
    bracketDepth left right (left :: rest) = 1 + bracketDepth left right rest := by
  rw [bracketDepth, if_pos rfl]

theorem closeBracket_left (d : Nat) (rest : List α) :
    closeBracket left right d (left :: rest) = closeBracket left right (d + 1) rest := by
  rw [closeBracket, if_pos rfl]

theorem closeBracket_other (d : Nat) {a : α} (hleft : a ≠ left) (hright : a ≠ right)
    (rest : List α) : closeBracket left right d (a :: rest) = closeBracket left right d rest := by
  rw [closeBracket, if_neg hleft, if_neg hright]

theorem closeBracket_right (hne : right ≠ left) (d : Nat) (rest : List α) :
    closeBracket left right d (right :: rest) = leaveBracket left right d rest := by
  rw [closeBracket, if_neg hne, if_pos rfl]
  cases d with
  | zero => rfl
  | succ d => rw [if_neg (Nat.succ_ne_zero d), leaveBracket, Nat.add_sub_cancel]

/-- A scan goes over a list that does not lead out of the brackets it is in. -/
theorem closeBracket_append {u : List α} {d : Nat}
    (hprefixes : ∀ p, p <+: u → -(d : Int) ≤ bracketDepth left right p) :
    ∃ e : Nat, (e : Int) = d + bracketDepth left right u ∧
      ∀ rest, closeBracket left right d (u ++ rest) = closeBracket left right e rest := by
  induction u generalizing d with
  | nil => exact ⟨d, by simp, fun _ => rfl⟩
  | cons a rest ih =>
      have hcons : ∀ p, p <+: rest → -(d : Int) ≤ bracketDepth left right (a :: p) :=
        fun p hp => hprefixes (a :: p) ((List.prefix_cons_inj a).mpr hp)
      by_cases hleft : a = left
      · obtain ⟨e, he, hscan⟩ := @ih (d + 1) (by
          intro p hp
          have hdepth := hcons p hp
          rw [hleft, bracketDepth_left] at hdepth
          omega)
        refine ⟨e, ?_, ?_⟩
        · rw [hleft, bracketDepth_left]
          omega
        · intro more
          rw [List.cons_append, hleft, closeBracket_left]
          exact hscan more
      · by_cases hright : a = right
        · have hone : -(d : Int) ≤ bracketDepth left right [a] := hcons [] List.nil_prefix
          rw [bracketDepth, if_neg hleft, if_pos hright, bracketDepth_nil] at hone
          cases d with
          | zero => omega
          | succ d =>
              obtain ⟨e, he, hscan⟩ := @ih d (by
                intro p hp
                have hdepth := hcons p hp
                rw [bracketDepth, if_neg hleft, if_pos hright] at hdepth
                omega)
              refine ⟨e, ?_, ?_⟩
              · rw [bracketDepth, if_neg hleft, if_pos hright]
                omega
              · intro more
                rw [List.cons_append, closeBracket, if_neg hleft, if_pos hright,
                  if_neg (Nat.succ_ne_zero d), Nat.add_sub_cancel]
                exact hscan more
        · obtain ⟨e, he, hscan⟩ := @ih d (by
            intro p hp
            have hdepth := hcons p hp
            rw [bracketDepth, if_neg hleft, if_neg hright] at hdepth
            omega)
          refine ⟨e, ?_, ?_⟩
          · rw [bracketDepth, if_neg hleft, if_neg hright]
            omega
          · intro more
            rw [List.cons_append, closeBracket_other d hleft hright]
            exact hscan more

theorem BracketBalanced.closeBracket_append {w : List α} (h : BracketBalanced left right w)
    (d : Nat) (rest : List α) :
    closeBracket left right d (w ++ rest) = closeBracket left right d rest := by
  obtain ⟨e, he, hscan⟩ := @Foundation.closeBracket_append _ _ left right w d (by
    intro p hp
    have hnonneg := h.prefixes p hp
    omega)
  rw [h.total] at he
  obtain rfl : e = d := by omega
  exact hscan rest

/-- A list without brackets. -/
theorem bracketBalanced_of_not_mem {w : List α} (hleft : left ∉ w) (hright : right ∉ w) :
    BracketBalanced left right w := by
  have hzero : ∀ u : List α, (∀ a ∈ u, a ∈ w) → bracketDepth left right u = 0 := by
    intro u hu
    induction u with
    | nil => rfl
    | cons a rest ih =>
        have ha := hu a List.mem_cons_self
        have hnotLeft : a ≠ left := fun h => hleft (h ▸ ha)
        have hnotRight : a ≠ right := fun h => hright (h ▸ ha)
        rw [bracketDepth, if_neg hnotLeft, if_neg hnotRight,
          ih fun b hb => hu b (List.mem_cons_of_mem a hb), Int.add_zero]
  refine ⟨hzero w fun _ h => h, ?_⟩
  intro u hu
  exact Int.le_of_eq (hzero u fun _ h => hu.subset h).symm

/-! ## Lists with matching brackets, put together -/

theorem bracketBalanced_nil : BracketBalanced left right ([] : List α) :=
  bracketBalanced_of_not_mem List.not_mem_nil List.not_mem_nil

theorem BracketBalanced.append {u v : List α} (hu : BracketBalanced left right u)
    (hv : BracketBalanced left right v) : BracketBalanced left right (u ++ v) := by
  refine ⟨?_, ?_⟩
  · rw [bracketDepth_append, hu.total, hv.total, Int.add_zero]
  · intro p hp
    rcases prefix_append_cases hp with hp | ⟨q, rfl, hq⟩
    · exact hu.prefixes p hp
    · rw [bracketDepth_append, hu.total, Int.zero_add]
      exact hv.prefixes q hq

theorem BracketBalanced.cons {a : α} {w : List α} (hw : BracketBalanced left right w)
    (hleft : a ≠ left) (hright : a ≠ right) : BracketBalanced left right (a :: w) :=
  BracketBalanced.append (bracketBalanced_of_not_mem
    (fun h => hleft (List.mem_singleton.mp h).symm)
    (fun h => hright (List.mem_singleton.mp h).symm)) hw

/-- A list in brackets, and one behind it. -/
theorem BracketBalanced.wrap (hne : right ≠ left) {w v : List α}
    (hw : BracketBalanced left right w) (hv : BracketBalanced left right v) :
    BracketBalanced left right (left :: (w ++ right :: v)) := by
  have hclose : bracketDepth left right (right :: v) = -1 := by
    rw [bracketDepth, if_neg hne, if_pos rfl, hv.total, Int.add_zero]
  refine ⟨?_, ?_⟩
  · rw [bracketDepth_left, bracketDepth_append, hw.total, hclose]
    rfl
  · intro p hp
    cases p with
    | nil => exact Int.le_refl 0
    | cons a p =>
        obtain ⟨rfl, htail⟩ := List.cons_prefix_cons.mp hp
        rw [bracketDepth_left]
        rcases prefix_append_cases htail with hinner | ⟨q, rfl, hq⟩
        · have hnonneg := hw.prefixes p hinner
          omega
        · rw [bracketDepth_append, hw.total]
          cases q with
          | nil => simp
          | cons b q =>
              obtain ⟨rfl, hbehind⟩ := List.cons_prefix_cons.mp hq
              have hnonneg := hv.prefixes q hbehind
              rw [bracketDepth, if_neg hne, if_pos rfl]
              omega

/-- What is left of a balanced list opens no more than it closes. -/
theorem BracketBalanced.suffix_le {w t : List α} (h : BracketBalanced left right w) (ht : t <:+ w) :
    bracketDepth left right t ≤ 0 := by
  obtain ⟨u, rfl⟩ := ht
  have htotal := h.total
  have hprefix := h.prefixes u (List.prefix_append u t)
  rw [bracketDepth_append] at htotal
  omega

/-- A list that closes all the open brackets holds the end of the scan. -/
theorem closeBracket_of_depth_le {t : List α} {d : Nat}
    (h : bracketDepth left right t ≤ -((d : Int) + 1)) :
    ∃ after, after <:+ t ∧
      ∀ rest, closeBracket left right d (t ++ rest) = some (after ++ rest) := by
  induction t generalizing d with
  | nil =>
      rw [bracketDepth_nil] at h
      omega
  | cons a rest ih =>
      rw [bracketDepth] at h
      by_cases hleft : a = left
      · rw [if_pos hleft] at h
        obtain ⟨after, hsuffix, hscan⟩ := @ih (d + 1) (by omega)
        refine ⟨after, hsuffix.trans (List.suffix_cons a rest), ?_⟩
        intro more
        rw [List.cons_append, hleft, closeBracket_left]
        exact hscan more
      · by_cases hright : a = right
        · rw [if_neg hleft, if_pos hright] at h
          cases d with
          | zero =>
              refine ⟨rest, List.suffix_cons a rest, ?_⟩
              intro more
              rw [List.cons_append, closeBracket, if_neg hleft, if_pos hright, if_pos rfl]
          | succ d =>
              obtain ⟨after, hsuffix, hscan⟩ := @ih d (by omega)
              refine ⟨after, hsuffix.trans (List.suffix_cons a rest), ?_⟩
              intro more
              rw [List.cons_append, closeBracket, if_neg hleft, if_pos hright,
                if_neg (Nat.succ_ne_zero d), Nat.add_sub_cancel]
              exact hscan more
        · rw [if_neg hleft, if_neg hright] at h
          obtain ⟨after, hsuffix, hscan⟩ := @ih d (by omega)
          refine ⟨after, hsuffix.trans (List.suffix_cons a rest), ?_⟩
          intro more
          rw [List.cons_append, closeBracket_other d hleft hright]
          exact hscan more

end Foundation
end Ctem
