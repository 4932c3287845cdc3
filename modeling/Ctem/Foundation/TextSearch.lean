import Mathlib.Data.List.Basic
import Mathlib.Data.List.Infix

/-!
# Searching a text from a position

`indexOf text needle position` is the first place of the needle at or behind a position.

* `indexOf_append`: what stands in front of the position does not matter.
* `firstIndex_skip`: nor does what stands in front of the first symbol of the needle.
* `indexOf_eq_none`: a needle that stands nowhere is not found from anywhere.
* `lastIndexOf_append`: from behind, the first symbol that is met is the last one.
-/

namespace Ctem
namespace Foundation

universe u

variable {α : Type u} [DecidableEq α]

/-- The first place of the needle. -/
def firstIndex (needle : List α) : List α → Option Nat
  | [] => if needle = [] then some 0 else none
  | c :: cs =>
      if needle <+: c :: cs then some 0 else (firstIndex needle cs).map fun i => i + 1

/-- `text.indexOf(needle, position)`, for a needle that is not empty. -/
def indexOf (text needle : List α) (position : Nat) : Option Nat :=
  (firstIndex needle (text.drop position)).map fun i => position + i

variable {needle text front : List α} {a : α} {i : Nat}

theorem firstIndex_of_stands (h : needle <+: text) : firstIndex needle text = some 0 := by
  cases text with
  | nil => rw [firstIndex, if_pos (List.prefix_nil.mp h)]
  | cons c cs => rw [firstIndex, if_pos h]

theorem firstIndex_cons (h : ¬ needle <+: a :: text) :
    firstIndex needle (a :: text) = (firstIndex needle text).map fun i => i + 1 := by
  rw [firstIndex, if_neg h]

/-- A needle is found where it stands. -/
theorem prefix_of_firstIndex (h : firstIndex needle text = some i) : needle <+: text.drop i := by
  induction text generalizing i with
  | nil =>
      rw [firstIndex] at h
      split at h
      · rename_i hempty
        rw [hempty]
        exact List.nil_prefix
      · cases h
  | cons c cs ih =>
      rw [firstIndex] at h
      split at h
      · obtain rfl := Option.some.inj h
        assumption
      · obtain ⟨j, hj, rfl⟩ := Option.map_eq_some_iff.mp h
        exact ih hj

/-- A needle that is found fits in behind its place. -/
theorem length_of_firstIndex (h : firstIndex needle text = some i) :
    i + needle.length ≤ text.length := by
  induction text generalizing i with
  | nil =>
      rw [firstIndex] at h
      split at h
      · rename_i hempty
        obtain rfl := Option.some.inj h
        simp [hempty]
      · cases h
  | cons c cs ih =>
      rw [firstIndex] at h
      split at h
      · rename_i hstands
        obtain rfl := Option.some.inj h
        rw [Nat.zero_add]
        exact hstands.length_le
      · obtain ⟨j, hj, rfl⟩ := Option.map_eq_some_iff.mp h
        have hle := ih hj
        rw [List.length_cons]
        omega

/-- The search passes over what does not have the first symbol of the needle. -/
theorem firstIndex_skip (h : a ∉ front) :
    firstIndex (a :: needle) (front ++ text) =
      (firstIndex (a :: needle) text).map fun i => front.length + i := by
  induction front with
  | nil => simp
  | cons c cs ih =>
      rw [List.mem_cons, not_or] at h
      have hnot : ¬ a :: needle <+: c :: (cs ++ text) := by
        intro hstands
        exact h.1 (List.cons_prefix_cons.mp hstands).1
      rw [List.cons_append, firstIndex_cons hnot, ih h.2, Option.map_map]
      congr 1
      funext i
      simp only [Function.comp_apply, List.length_cons]
      omega

/-- The search passes over a symbol where the needle does not stand, and what follows it
without the first symbol of the needle. -/
theorem firstIndex_skip_cons {c : α} (hnot : ¬ a :: needle <+: c :: (front ++ text))
    (h : a ∉ front) :
    firstIndex (a :: needle) (c :: (front ++ text)) =
      (firstIndex (a :: needle) text).map fun i => (c :: front).length + i := by
  rw [firstIndex_cons hnot, firstIndex_skip h, Option.map_map]
  congr 1
  funext i
  simp only [Function.comp_apply, List.length_cons]
  omega

/-- A needle that stands nowhere is not found. -/
theorem firstIndex_eq_none (h : ∀ q, ¬ needle <+: text.drop q) :
    firstIndex needle text = none := by
  cases hindex : firstIndex needle text with
  | none => rfl
  | some i => exact absurd (prefix_of_firstIndex hindex) (h i)

theorem firstIndex_eq_none_iff : firstIndex needle text = none ↔ ¬ needle <:+: text := by
  induction text with
  | nil =>
      rw [firstIndex, List.infix_nil]
      split <;> simp [*]
  | cons c cs ih =>
      by_cases hstands : needle <+: c :: cs
      · rw [firstIndex_of_stands hstands]
        exact iff_of_false (Option.some_ne_none 0) fun hnot => hnot hstands.isInfix
      · rw [firstIndex_cons hstands, Option.map_eq_none_iff, ih, List.infix_cons_iff, not_or]
        exact (and_iff_right hstands).symm

theorem indexOf_eq_none {position : Nat}
    (h : ∀ q, ¬ needle <+: text.drop (position + q)) : indexOf text needle position = none := by
  unfold indexOf
  rw [firstIndex_eq_none, Option.map_none]
  intro q
  rw [List.drop_drop]
  exact h q

theorem le_of_indexOf {position : Nat} (h : indexOf text needle position = some i) :
    position ≤ i := by
  obtain ⟨j, -, rfl⟩ := Option.map_eq_some_iff.mp h
  exact Nat.le_add_right position j

theorem prefix_of_indexOf {position : Nat} (h : indexOf text needle position = some i) :
    needle <+: text.drop i := by
  obtain ⟨j, hj, rfl⟩ := Option.map_eq_some_iff.mp h
  have hstands := prefix_of_firstIndex hj
  rwa [List.drop_drop] at hstands

theorem length_of_indexOf {position : Nat} (hne : needle ≠ [])
    (h : indexOf text needle position = some i) : i + needle.length ≤ text.length := by
  obtain ⟨j, hj, rfl⟩ := Option.map_eq_some_iff.mp h
  have hle := length_of_firstIndex hj
  have hpos := List.length_pos_iff.mpr hne
  rw [List.length_drop] at hle
  omega

/-- The search sees what stands behind the position. -/
theorem indexOf_append (front text needle : List α) (position : Nat) :
    indexOf (front ++ text) needle (front.length + position) =
      (indexOf text needle position).map fun i => front.length + i := by
  unfold indexOf
  rw [← List.drop_drop, List.drop_left, Option.map_map]
  congr 1
  funext i
  simp only [Function.comp_apply]
  omega

/-- The search passes over the rest of a part without the first symbol of the needle. -/
theorem indexOf_skip {position : Nat} (hposition : position ≤ front.length)
    (h : a ∉ front.drop position) :
    indexOf (front ++ text) (a :: needle) position =
      indexOf (front ++ text) (a :: needle) front.length := by
  unfold indexOf
  rw [List.drop_append_of_le_length hposition, firstIndex_skip h, List.drop_left,
    Option.map_map]
  congr 1
  funext i
  simp only [Function.comp_apply, List.length_drop]
  omega

/-- The search passes over a part that has the first symbol of the needle in front only, where
the needle does not stand. -/
theorem indexOf_skip_cons {c : α} (hnot : ¬ a :: needle <+: c :: (front ++ text))
    (h : a ∉ front) :
    indexOf (c :: (front ++ text)) (a :: needle) 0 =
      indexOf (c :: (front ++ text)) (a :: needle) (c :: front).length := by
  have hdrop : (c :: (front ++ text)).drop (c :: front).length = text :=
    @List.drop_left _ (c :: front) text
  unfold indexOf
  rw [List.drop_zero, firstIndex_skip_cons hnot h, hdrop, Option.map_map]
  congr 1
  funext i
  simp only [Function.comp_apply]
  omega

/-- A needle is found at once where it stands. -/
theorem indexOf_of_stands {position : Nat} (h : needle <+: text.drop position) :
    indexOf text needle position = some position := by
  unfold indexOf
  rw [firstIndex_of_stands h, Option.map_some, Nat.add_zero]

/-- A needle is found at the first place where it stands. -/
theorem indexOf_of_first (hnot : ∀ q < front.length, ¬ needle <+: (front ++ text).drop q)
    (h : needle <+: text) : indexOf (front ++ text) needle 0 = some front.length := by
  have hfirst : firstIndex needle (front ++ text) = some front.length := by
    induction front with
    | nil => exact firstIndex_of_stands h
    | cons c cs ih =>
        have htail : ∀ q < cs.length, ¬ needle <+: (cs ++ text).drop q := by
          intro q hq
          exact hnot (q + 1) (Nat.succ_lt_succ hq)
        have hhead : ¬ needle <+: c :: (cs ++ text) := hnot 0 (Nat.succ_pos _)
        rw [List.cons_append, firstIndex_cons hhead, ih htail]
        rfl
  unfold indexOf
  rw [List.drop_zero, hfirst, Option.map_some, Nat.zero_add]

/-- A needle whose first symbol is not in it again does not reach over that symbol. -/
theorem infix_of_prefix_drop (hneedle : a ∉ needle) {q : Nat} (hq : q < front.length)
    (h : a :: needle <+: (front ++ a :: text).drop q) : a :: needle <:+: front := by
  obtain ⟨later, hlater⟩ := h
  rw [List.drop_append_of_le_length (Nat.le_of_lt hq)] at hlater
  cases hdrop : front.drop q with
  | nil =>
      rw [List.drop_eq_nil_iff] at hdrop
      omega
  | cons c cs =>
      rw [hdrop, List.cons_append, List.cons_append, List.cons.injEq] at hlater
      obtain ⟨rfl, hrest⟩ := hlater
      have hstands : needle <+: cs := by
        rcases List.append_eq_append_iff.mp hrest with ⟨w, rfl, -⟩ | ⟨w, hw, hmore⟩
        · exact List.prefix_append needle w
        · cases w with
          | nil =>
              rw [hw, List.append_nil]
          | cons d w =>
              rw [List.cons_append, List.cons.injEq] at hmore
              refine absurd ?_ hneedle
              rw [hw, hmore.1]
              exact List.mem_append_right _ List.mem_cons_self
      have hinfix : a :: needle <:+: front.drop q := by
        rw [hdrop]
        exact (List.cons_prefix_cons.mpr ⟨rfl, hstands⟩).isInfix
      exact hinfix.trans (List.drop_suffix q front).isInfix

/-- The first place of a symbol. -/
theorem idxOf?_append_cons (h : a ∉ front) (text : List α) :
    (front ++ a :: text).idxOf? a = some front.length := by
  induction front with
  | nil => rw [List.nil_append, List.idxOf?_cons, if_pos (beq_self_eq_true a), List.length_nil]
  | cons c cs ih =>
      rw [List.mem_cons, not_or] at h
      rw [List.cons_append, List.idxOf?_cons, if_neg (by rw [beq_iff_eq]; exact Ne.symm h.1),
        ih h.2, Option.map_some, List.length_cons]

/-! ## From behind -/

/-- `text.lastIndexOf(a)`. -/
def lastIndexOf (a : α) : List α → Option Nat
  | [] => none
  | c :: cs => ((lastIndexOf a cs).map (· + 1)).or (if c = a then some 0 else none)

theorem lastIndexOf_of_not_mem (h : a ∉ text) : lastIndexOf a text = none := by
  induction text with
  | nil => rfl
  | cons c cs ih =>
      rw [List.mem_cons, not_or] at h
      rw [lastIndexOf, ih h.2, Option.map_none, Option.none_or, if_neg (Ne.symm h.1)]

/-- The last one is the one behind which there is none. -/
theorem lastIndexOf_append (front : List α) (h : a ∉ text) :
    lastIndexOf a (front ++ a :: text) = some front.length := by
  induction front with
  | nil =>
      rw [List.nil_append, lastIndexOf, lastIndexOf_of_not_mem h, Option.map_none, Option.none_or,
        if_pos rfl, List.length_nil]
  | cons c cs ih =>
      rw [List.cons_append, lastIndexOf, ih, Option.map_some, Option.some_or, List.length_cons]

/-- A text with the symbol has a last one. -/
theorem exists_last (h : a ∈ text) : ∃ front later, text = front ++ a :: later ∧ a ∉ later := by
  induction text with
  | nil => cases h
  | cons c cs ih =>
      by_cases hcs : a ∈ cs
      · obtain ⟨front, later, rfl, hlater⟩ := ih hcs
        exact ⟨c :: front, later, rfl, hlater⟩
      · obtain rfl := (List.mem_cons.mp h).resolve_right hcs
        exact ⟨[], cs, rfl, hcs⟩

end Foundation
end Ctem
