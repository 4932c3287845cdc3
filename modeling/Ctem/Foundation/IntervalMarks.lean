import Mathlib.Data.List.Basic
import Mathlib.Data.List.Infix
import Mathlib.Order.Basic
import Mathlib.Tactic.Cases

/-!
# Marks that open and close intervals

A list of marks describes a set of places.  `opened a` puts the places from `a` on inside,
`closedAt b` takes those from `b` on out again, and `closedAfter b` those behind `b`.

Such a list is read in two ways.  `foldMarks` folds over it and lets every mark that reaches the
place set or clear one bit.  `pairMarks` pairs an opening mark with the mark directly behind it,
and asks whether the place lies in one of these intervals.

* `pairMarks_iff` and `foldMarks_iff` are the two readings on any list.
* On a list in ascending order they differ in two ways only: the place is shadowed, between two
  opening marks in a row, or cut, in a closed interval that a later mark takes it out of.
-/

namespace Ctem
namespace Foundation

universe u

/-- A mark at a place. -/
inductive IntervalMark (α : Type u) where
  | opened (a : α)
  | closedAt (b : α)
  | closedAfter (b : α)

namespace IntervalMark

variable {α : Type u}

/-- Where the mark stands. -/
def place : IntervalMark α → α
  | .opened a => a
  | .closedAt b => b
  | .closedAfter b => b

variable [Preorder α]

/-- The mark takes the place out. -/
def Clears (x : α) : IntervalMark α → Prop
  | .opened _ => False
  | .closedAt b => b ≤ x
  | .closedAfter b => b < x

end IntervalMark

/-- An opening mark of a longer list is its first mark or one of the others. -/
theorem exists_opened_cons {α : Type u} {m : IntervalMark α} {marks : List (IntervalMark α)}
    {P : α → List (IntervalMark α) → Prop} :
    (∃ a rest, IntervalMark.opened a :: rest <:+ m :: marks ∧ P a rest) ↔
      (∃ a, m = .opened a ∧ P a marks) ∨
        ∃ a rest, IntervalMark.opened a :: rest <:+ marks ∧ P a rest := by
  constructor
  · rintro ⟨a, rest, hsuffix, hP⟩
    rcases List.suffix_cons_iff.mp hsuffix with heq | hsuffix
    · obtain ⟨rfl, rfl⟩ := List.cons.inj heq
      exact Or.inl ⟨a, rfl, hP⟩
    · exact Or.inr ⟨a, rest, hsuffix, hP⟩
  · rintro (⟨a, rfl, hP⟩ | ⟨a, rest, hsuffix, hP⟩)
    · exact ⟨a, marks, List.suffix_rfl, hP⟩
    · exact ⟨a, rest, hsuffix.trans (List.suffix_cons m marks), hP⟩

section Readings

variable {α : Type u} [Preorder α]

/-- Marks in ascending order; marks at one place may stand in any order. -/
def Ascending (marks : List (IntervalMark α)) : Prop := marks.Pairwise fun m n => m.place ≤ n.place

/-- The mark directly behind an opening one has the place in its interval. -/
def ClosesOver (x : α) : List (IntervalMark α) → Prop
  | [] => True
  | .opened _ :: _ => False
  | .closedAt b :: _ => x < b
  | .closedAfter b :: _ => x ≤ b

section Definitions

variable [DecidableLE α] [DecidableLT α]

/-- One mark of the fold. -/
def foldMark (x : α) (inside : Bool) : IntervalMark α → Bool
  | .opened a => if a ≤ x then true else inside
  | .closedAt b => if b ≤ x then false else inside
  | .closedAfter b => if b < x then false else inside

/-- The fold over all marks, from outside. -/
def foldMarks (x : α) (marks : List (IntervalMark α)) : Bool := marks.foldl (foldMark x) false

/-- The pairing, with the place an open interval starts at. -/
def pairFrom (x : α) : Option α → List (IntervalMark α) → Bool
  | none, [] => false
  | some start, [] => decide (start ≤ x)
  | _, .opened a :: marks => pairFrom x (some a) marks
  | none, _ :: marks => pairFrom x none marks
  | some start, .closedAt b :: marks =>
      (decide (start ≤ x) && decide (x < b)) || pairFrom x none marks
  | some start, .closedAfter b :: marks =>
      (decide (start ≤ x) && decide (x ≤ b)) || pairFrom x none marks

/-- The pairing of all marks. -/
def pairMarks (x : α) (marks : List (IntervalMark α)) : Bool := pairFrom x none marks

end Definitions

/-- The place is in the interval of an opening mark, and no later `closedAt` takes it out. -/
def KeptIn (x : α) (marks : List (IntervalMark α)) : Prop :=
  ∃ a rest, IntervalMark.opened a :: rest <:+ marks ∧ a ≤ x ∧ ClosesOver x rest ∧
    ∀ b, IntervalMark.closedAt b ∈ rest → ¬ b ≤ x

/-- The place is in the interval of an opening mark, and a later `closedAt` takes it out. -/
def CutOff (x : α) (marks : List (IntervalMark α)) : Prop :=
  ∃ a rest, IntervalMark.opened a :: rest <:+ marks ∧ a ≤ x ∧ ClosesOver x rest ∧
    ∃ b, IntervalMark.closedAt b ∈ rest ∧ b ≤ x

/-- The place is between two opening marks in a row. -/
def Shadowed (x : α) (marks : List (IntervalMark α)) : Prop :=
  ∃ a b rest, IntervalMark.opened a :: IntervalMark.opened b :: rest <:+ marks ∧ a ≤ x ∧ ¬ b ≤ x

/-! ## Any list of marks -/

section Any

variable [DecidableLE α] [DecidableLT α] {x : α} {marks : List (IntervalMark α)}

/-- The pairing, from an open interval or from none. -/
theorem pairFrom_iff (start : Option α) :
    pairFrom x start marks = true ↔
      (∃ a, start = some a ∧ a ≤ x ∧ ClosesOver x marks) ∨
        ∃ a rest, IntervalMark.opened a :: rest <:+ marks ∧ a ≤ x ∧ ClosesOver x rest := by
  induction marks generalizing start with
  | nil => cases start <;> simp [pairFrom, ClosesOver]
  | cons m marks ih =>
      rw [exists_opened_cons]
      -- A mark that does not open ends what is open, and starts nothing.
      cases m with
      | opened a => cases start <;> simp [pairFrom, ih, ClosesOver]
      | closedAt b => cases start <;> simp [pairFrom, ih, ClosesOver]
      | closedAfter b => cases start <;> simp [pairFrom, ih, ClosesOver]

theorem pairMarks_iff :
    pairMarks x marks = true ↔
      ∃ a rest, IntervalMark.opened a :: rest <:+ marks ∧ a ≤ x ∧ ClosesOver x rest := by
  unfold pairMarks
  rw [pairFrom_iff]
  simp

/-- The pairing finds a place that is kept or cut. -/
theorem pairMarks_iff_kept_or_cut : pairMarks x marks = true ↔ KeptIn x marks ∨ CutOff x marks := by
  rw [pairMarks_iff]
  constructor
  · rintro ⟨a, rest, hsuffix, ha, hcloses⟩
    by_cases hcut : ∃ b, IntervalMark.closedAt b ∈ rest ∧ b ≤ x
    · exact Or.inr ⟨a, rest, hsuffix, ha, hcloses, hcut⟩
    · exact Or.inl ⟨a, rest, hsuffix, ha, hcloses, fun b hb hle => hcut ⟨b, hb, hle⟩⟩
  · rintro (⟨a, rest, hsuffix, ha, hcloses, -⟩ | ⟨a, rest, hsuffix, ha, hcloses, -⟩)
    · exact ⟨a, rest, hsuffix, ha, hcloses⟩
    · exact ⟨a, rest, hsuffix, ha, hcloses⟩

/-- The fold, from inside or from outside. -/
theorem foldl_foldMark_iff (inside : Bool) :
    marks.foldl (foldMark x) inside = true ↔
      (inside = true ∧ ∀ m ∈ marks, ¬ m.Clears x) ∨
        ∃ a rest, IntervalMark.opened a :: rest <:+ marks ∧ a ≤ x ∧ ∀ m ∈ rest, ¬ m.Clears x := by
  induction marks generalizing inside with
  | nil => simp
  | cons m marks ih =>
      rw [List.foldl_cons, ih, exists_opened_cons]
      cases m with
      | opened a =>
          by_cases hle : a ≤ x
          · simp only [foldMark, IntervalMark.Clears, IntervalMark.opened.injEq,
              List.forall_mem_cons, not_false_eq_true, true_and, exists_eq_left', hle]
            tauto
          · simp [foldMark, IntervalMark.Clears, hle]
      | closedAt b => by_cases hle : b ≤ x <;> simp [foldMark, IntervalMark.Clears, hle]
      | closedAfter b => by_cases hlt : b < x <;> simp [foldMark, IntervalMark.Clears, hlt]

theorem foldMarks_iff :
    foldMarks x marks = true ↔
      ∃ a rest, IntervalMark.opened a :: rest <:+ marks ∧ a ≤ x ∧ ∀ m ∈ rest, ¬ m.Clears x := by
  unfold foldMarks
  rw [foldl_foldMark_iff]
  simp

end Any

/-! ## Marks in ascending order -/

section Sorted

variable {x : α} {marks rest : List (IntervalMark α)} {m : IntervalMark α}

/-- Behind a mark that the place does not reach, none takes the place out. -/
theorem not_clears_of_ascending (hsorted : Ascending (m :: rest)) (hbehind : ¬ m.place ≤ x)
    {n : IntervalMark α} (hn : n ∈ rest) : ¬ n.Clears x := by
  have hle : m.place ≤ n.place := (List.pairwise_cons.mp hsorted).1 n hn
  intro hclears
  cases n with
  | opened a => exact hclears
  | closedAt b => exact hbehind (hle.trans hclears)
  | closedAfter b => exact hbehind (hle.trans (le_of_lt hclears))

/-- A place that is in its interval is taken out by a later `closedAt` or not at all. -/
theorem not_clears_of_closes (hsorted : Ascending rest) (hcloses : ClosesOver x rest)
    (hkept : ∀ b, IntervalMark.closedAt b ∈ rest → ¬ b ≤ x) : ∀ m ∈ rest, ¬ m.Clears x := by
  intro m hm
  cases m with
  | opened a => exact id
  | closedAt b => exact hkept b hm
  | closedAfter c =>
      intro hclears
      cases rest with
      | nil => cases hm
      | cons first rest =>
          -- The first mark is not in front of the place, and this one stands behind it.
          have hle : first.place ≤ c := by
            rcases List.mem_cons.mp hm with rfl | hm
            · exact le_rfl
            · exact (List.pairwise_cons.mp hsorted).1 _ hm
          cases first with
          | opened a => exact hcloses
          | closedAt b => exact lt_irrefl x (hcloses.trans_le (hle.trans (le_of_lt hclears)))
          | closedAfter b => exact lt_irrefl x ((le_trans hcloses hle).trans_lt hclears)

variable [DecidableLE α] [DecidableLT α]

/-- The fold finds a place that is kept or shadowed. -/
theorem foldMarks_iff_kept_or_shadowed [Std.Total (α := α) (· ≤ ·)] (hsorted : Ascending marks) :
    foldMarks x marks = true ↔ KeptIn x marks ∨ Shadowed x marks := by
  have hnot_le : ∀ a b : α, ¬ a ≤ b → b < a := fun a b h =>
    lt_of_le_not_ge ((Std.Total.total (r := (· ≤ ·)) a b).resolve_left h) h
  have hnot_lt : ∀ a b : α, ¬ a < b → b ≤ a := fun a b h =>
    (Std.Total.total (r := (· ≤ ·)) a b).elim
      (fun hle => not_not.mp fun hnot => h (lt_of_le_not_ge hle hnot)) id
  rw [foldMarks_iff]
  constructor
  · rintro ⟨a, rest, hsuffix, ha, hclear⟩
    -- The last opening mark that reaches the place decides, so later ones are tried first.
    induction rest generalizing a with
    | nil => exact Or.inl ⟨a, [], hsuffix, ha, trivial, by simp⟩
    | cons m rest ih =>
        have hkept : ∀ b, IntervalMark.closedAt b ∈ m :: rest → ¬ b ≤ x := fun b hb => hclear _ hb
        cases m with
        | opened b =>
            by_cases hb : b ≤ x
            · exact ih b ((List.suffix_cons _ _).trans hsuffix) hb
                fun m hm => hclear m (List.mem_cons_of_mem _ hm)
            · exact Or.inr ⟨a, b, rest, hsuffix, ha, hb⟩
        | closedAt b =>
            exact Or.inl ⟨a, _, hsuffix, ha, hnot_le b x (hclear _ List.mem_cons_self), hkept⟩
        | closedAfter b =>
            exact Or.inl ⟨a, _, hsuffix, ha, hnot_lt b x (hclear _ List.mem_cons_self), hkept⟩
  · rintro (⟨a, rest, hsuffix, ha, hcloses, hkept⟩ | ⟨a, b, rest, hsuffix, ha, hb⟩)
    · have hrest : Ascending rest := (List.pairwise_cons.mp (hsorted.sublist hsuffix.sublist)).2
      exact ⟨a, rest, hsuffix, ha, not_clears_of_closes hrest hcloses hkept⟩
    · have hrest : Ascending (IntervalMark.opened b :: rest) :=
        (List.pairwise_cons.mp (hsorted.sublist hsuffix.sublist)).2
      refine ⟨a, _, hsuffix, ha, ?_⟩
      intro m hm
      rcases List.mem_cons.mp hm with rfl | hm
      · exact id
      · exact not_clears_of_ascending hrest hb hm

end Sorted

end Readings

end Foundation
end Ctem
