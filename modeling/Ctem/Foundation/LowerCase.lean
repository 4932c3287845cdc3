import Mathlib.Data.List.Basic
import Mathlib.Data.List.Infix
import Mathlib.Tactic.Common

/-!
# Lower case, by code units

What `toLowerCase` is known to do to a text of UTF-16 code units.  Its table is large, and
these are the facts of it that a search needs:

* `İ` (U+0130) becomes two units and nothing else changes its length;
* mark-up symbols and white space have no case, are not made from anything else, and what
  stands on one side of them does not matter to the other;
* the letters of ASCII change as they do in ASCII.

`asciiLowerCase` is a table with these properties.
-/

namespace Ctem
namespace Foundation

/-- What ends a name or is mark-up by itself: `<`, `>`, `/`, `?` and white space. -/
def markSymbols : List Nat := [60, 62, 47, 63, 32, 9, 10, 13]

/-- `İ`, the one unit that becomes longer. -/
def dottedI : Nat := 304

def asciiLowerUnit (u : Nat) : Nat := if 65 ≤ u ∧ u ≤ 90 then u + 32 else u

/-- `text.toLowerCase()`. -/
structure LowerCase where
  text : List Nat → List Nat
  length_text : ∀ x, (text x).length = x.length + x.count dottedI
  split : ∀ x y, ∀ d ∈ markSymbols, text (x ++ d :: y) = text x ++ d :: text y
  plain : ∀ x, (∀ u ∈ x, u ∉ markSymbols) → ∀ u ∈ text x, u ∉ markSymbols
  ascii : ∀ x, (∀ u ∈ x, u < 128) → text x = x.map asciiLowerUnit

namespace LowerCase

variable (lower : LowerCase) {x y u v : List Nat} {d : Nat}

/-! ## Lengths -/

theorem length_of_not_mem (h : dottedI ∉ x) : (lower.text x).length = x.length := by
  rw [lower.length_text, List.count_eq_zero_of_not_mem h, Nat.add_zero]

theorem length_le : x.length ≤ (lower.text x).length := by
  rw [lower.length_text]
  exact Nat.le_add_right _ _

@[simp] theorem text_nil : lower.text [] = [] :=
  List.length_eq_zero_iff.mp (lower.length_text [])

theorem eq_nil_of_text (h : lower.text x = []) : x = [] := by
  have hle := lower.length_le (x := x)
  rw [h] at hle
  exact List.length_eq_zero_iff.mp (Nat.le_zero.mp hle)

/-! ## At a mark-up symbol -/

/-- A text with symbols has a first one. -/
theorem exists_first_mark (h : ¬ ∀ e ∈ x, e ∉ markSymbols) :
    ∃ a e b, x = a ++ e :: b ∧ e ∈ markSymbols ∧ ∀ f ∈ a, f ∉ markSymbols := by
  induction x with
  | nil => exact absurd (fun e he => nomatch he) h
  | cons c x ih =>
      by_cases hc : c ∈ markSymbols
      · exact ⟨[], c, x, rfl, hc, fun f hf => nomatch hf⟩
      · have hx : ¬ ∀ e ∈ x, e ∉ markSymbols := by
          intro hx
          exact h (List.forall_mem_cons.mpr ⟨hc, hx⟩)
        obtain ⟨a, e, b, rfl, he, ha⟩ := ih hx
        exact ⟨c :: a, e, b, rfl, he, List.forall_mem_cons.mpr ⟨hc, ha⟩⟩

theorem text_cons (hd : d ∈ markSymbols) : lower.text (d :: y) = d :: lower.text y := by
  have h := lower.split [] y d hd
  rwa [lower.text_nil, List.nil_append, List.nil_append] at h

theorem text_singleton (hd : d ∈ markSymbols) : lower.text [d] = [d] := by
  rw [lower.text_cons hd, lower.text_nil]

/-- Every symbol of the copy stands for the same one in the text. -/
theorem exists_split (hd : d ∈ markSymbols) (h : lower.text x = u ++ d :: v) :
    ∃ a b, x = a ++ d :: b ∧ lower.text a = u ∧ lower.text b = v := by
  -- over the symbols of the text, the first of which is the first of its copy
  induction hlength : x.length using Nat.strong_induction_on generalizing x u with
  | _ n ih =>
    by_cases hplain : ∀ e ∈ x, e ∉ markSymbols
    · have hmem : d ∈ lower.text x := by
        rw [h]
        exact List.mem_append_right _ List.mem_cons_self
      exact absurd hd (lower.plain x hplain d hmem)
    · obtain ⟨a, e, b, rfl, he, ha⟩ := exists_first_mark hplain
      rw [lower.split a b e he, List.append_eq_append_iff] at h
      rcases h with ⟨w, rfl, hw⟩ | ⟨w, hw, htail⟩
      · cases w with
        | nil =>
            rw [List.nil_append, List.cons.injEq] at hw
            obtain ⟨rfl, rfl⟩ := hw
            exact ⟨a, b, rfl, (List.append_nil _).symm, rfl⟩
        | cons f w =>
            rw [List.cons_append, List.cons.injEq] at hw
            obtain ⟨rfl, hw⟩ := hw
            have hlt : b.length < n := by
              rw [← hlength, List.length_append, List.length_cons]
              omega
            obtain ⟨a', b', rfl, rfl, rfl⟩ := ih b.length hlt hw rfl
            exact ⟨a ++ e :: a', b', by simp, lower.split a a' e he, rfl⟩
      · cases w with
        | nil =>
            rw [List.nil_append, List.cons.injEq] at htail
            obtain ⟨rfl, rfl⟩ := htail
            rw [List.append_nil] at hw
            exact ⟨a, b, rfl, hw, rfl⟩
        | cons f w =>
            -- the symbol would be in front of the first one
            rw [List.cons_append, List.cons.injEq] at htail
            obtain ⟨rfl, -⟩ := htail
            have hmem : d ∈ lower.text a := by
              rw [hw]
              exact List.mem_append_right _ List.mem_cons_self
            exact absurd hd (lower.plain a ha d hmem)

theorem mem_text_iff (hd : d ∈ markSymbols) : d ∈ lower.text x ↔ d ∈ x := by
  constructor
  · intro h
    obtain ⟨u, v, huv⟩ := List.append_of_mem h
    obtain ⟨a, b, rfl, -, -⟩ := lower.exists_split hd huv
    exact List.mem_append_right _ List.mem_cons_self
  · intro h
    obtain ⟨a, b, rfl⟩ := List.append_of_mem h
    rw [lower.split a b d hd]
    exact List.mem_append_right _ List.mem_cons_self

/-! ## Texts that come apart -/

/-- The copy of the whole is made of the copies of the parts. -/
def Splits (x y : List Nat) : Prop := lower.text (x ++ y) = lower.text x ++ lower.text y

theorem splits_nil : lower.Splits x [] := by
  rw [Splits, List.append_nil, lower.text_nil, List.append_nil]

theorem splits_before (hd : d ∈ markSymbols) : lower.Splits x (d :: y) := by
  rw [Splits, lower.split x y d hd, lower.text_cons hd]

theorem splits_after (hd : d ∈ markSymbols) : lower.Splits (x ++ [d]) y := by
  rw [Splits, List.append_assoc, List.singleton_append, lower.split x y d hd,
    lower.split x [] d hd, lower.text_nil, List.append_assoc, List.singleton_append]

theorem Splits.append_left {lower : LowerCase} {z : List Nat} (h : lower.Splits x (y ++ z))
    (h' : lower.Splits y z) (h'' : lower.Splits x y) : lower.Splits (x ++ y) z := by
  rw [Splits, List.append_assoc, h, h', h'', List.append_assoc]

end LowerCase

/-! ## A table -/

/-- The letters of ASCII, and `İ`. -/
def asciiLowerCase : LowerCase where
  text x := x.flatMap fun u => if u = dottedI then [105, 775] else [asciiLowerUnit u]
  length_text x := by
    induction x with
    | nil => rfl
    | cons u x ih =>
        rw [List.flatMap_cons, List.length_append, ih, List.count_cons, List.length_cons]
        by_cases hu : u = dottedI
        · rw [if_pos hu, if_pos (beq_iff_eq.mpr hu), List.length_cons, List.length_singleton]
          omega
        · rw [if_neg hu, if_neg (by rwa [beq_iff_eq]), List.length_singleton]
          omega
  split x y d hd := by
    have hfixed : ∀ d ∈ markSymbols,
        (if d = dottedI then [105, 775] else [asciiLowerUnit d]) = [d] := by decide
    rw [List.flatMap_append, List.flatMap_cons, hfixed d hd, List.singleton_append]
  plain x hx u hu := by
    obtain ⟨c, hc, huc⟩ := List.mem_flatMap.mp hu
    have hplain := hx c hc
    split at huc
    · simp only [List.mem_cons, List.not_mem_nil, or_false] at huc
      rcases huc with rfl | rfl <;> decide
    · rw [List.mem_singleton.mp huc, asciiLowerUnit]
      split
      · simp only [markSymbols, List.mem_cons, List.not_mem_nil, or_false]
        omega
      · exact hplain
  ascii x hx := by
    induction x with
    | nil => rfl
    | cons u x ih =>
        have hu : u ≠ dottedI := by
          have := hx u List.mem_cons_self
          rw [dottedI]
          omega
        rw [List.flatMap_cons, if_neg hu, ih fun v hv => hx v (List.mem_cons_of_mem u hv)]
        rfl

instance : Inhabited LowerCase := ⟨asciiLowerCase⟩

end Foundation
end Ctem
