import Mathlib.Data.List.Basic
import Mathlib.Data.List.Infix
import Mathlib.Tactic.Common

/-!
# Redaction

A text with every match of a pattern replaced by a mark, from the front on.  The pattern is
given by the length of its match at the front of a text.

* `suffix_redact_cases`: what stands at a place of the result: the result from a place where
  nothing matches, or the rest of a mark.
* `not_infix_redact`: a word that is longer than what the mark has between its ends, and has
  neither of them, does not come about.
* `redact_of_none`: without a match the text stays as it is.
-/

namespace Ctem
namespace Foundation

universe u

variable {α : Type u}

/-- The text with the mark for every match.  The number counts what is left of a match that is
being passed. -/
def redact (matched : List α → Option Nat) (mark : List α) : Nat → List α → List α
  | _, [] => []
  | k + 1, _ :: cs => redact matched mark k cs
  | 0, c :: cs =>
      (matched (c :: cs)).elim (c :: redact matched mark 0 cs)
        fun n => mark ++ redact matched mark (n - 1) cs

variable {matched : List α → Option Nat} {mark inner text w u : List α} {first last : α}

theorem redact_none {c : α} {cs : List α} (h : matched (c :: cs) = none) :
    redact matched mark 0 (c :: cs) = c :: redact matched mark 0 cs := by
  rw [redact, h, Option.elim_none]

theorem redact_some {c : α} {cs : List α} {n : Nat} (h : matched (c :: cs) = some n) :
    redact matched mark 0 (c :: cs) = mark ++ redact matched mark (n - 1) cs := by
  rw [redact, h, Option.elim_some]

theorem redact_of_none (h : ∀ rest, rest <:+ text → rest ≠ [] → matched rest = none) :
    redact matched mark 0 text = text := by
  induction text with
  | nil => rfl
  | cons c cs ih =>
      have htail : redact matched mark 0 cs = cs :=
        ih fun rest hrest hne => h rest (hrest.trans (List.suffix_cons c cs)) hne
      rw [redact_none (h _ (List.suffix_refl _) (List.cons_ne_nil c cs)), htail]

/-- What stands at a place of the result. -/
theorem suffix_redact_cases {k : Nat} {v : List α} (hv : v <:+ redact matched mark k text)
    (hne : v ≠ []) :
    (∃ rest, rest <:+ text ∧ rest ≠ [] ∧ matched rest = none ∧
      v = redact matched mark 0 rest) ∨
    ∃ m later, m ≠ [] ∧ m <:+ mark ∧ v = m ++ later := by
  induction text generalizing k v with
  | nil =>
      have hnil : redact matched mark k [] = [] := by
        cases k <;> rfl
      rw [hnil, List.suffix_nil] at hv
      exact absurd hv hne
  | cons c cs ih =>
      have htail : ∀ {j : Nat} {v' : List α}, v' <:+ redact matched mark j cs → v' ≠ [] →
          (∃ rest, rest <:+ c :: cs ∧ rest ≠ [] ∧ matched rest = none ∧
            v' = redact matched mark 0 rest) ∨
          ∃ m later, m ≠ [] ∧ m <:+ mark ∧ v' = m ++ later := by
        intro j v' hv' hne'
        rcases ih hv' hne' with ⟨rest, hrest, h⟩ | hmark
        · exact Or.inl ⟨rest, hrest.trans (List.suffix_cons c cs), h⟩
        · exact Or.inr hmark
      cases k with
      | succ k => exact htail (j := k) hv hne
      | zero =>
          cases hmatched : matched (c :: cs) with
          | none =>
              have hredact : redact matched mark 0 (c :: cs) = c :: redact matched mark 0 cs :=
                redact_none hmatched
              rw [hredact, List.suffix_cons_iff] at hv
              rcases hv with rfl | hv
              · exact Or.inl ⟨c :: cs, List.suffix_refl _, List.cons_ne_nil c cs, hmatched,
                  hredact.symm⟩
              · exact htail hv hne
          | some n =>
              rw [redact_some hmatched] at hv
              obtain ⟨before, hbefore⟩ := hv
              rcases List.append_eq_append_iff.mp hbefore with ⟨m, hm, hlater⟩ | ⟨m, -, hrest⟩
              · by_cases hempty : m = []
                · subst hempty
                  rw [List.nil_append] at hlater
                  exact htail (j := n - 1) (by rw [hlater]) hne
                · exact Or.inr ⟨m, _, hempty, ⟨before, hm.symm⟩, hlater⟩
              · exact htail (j := n - 1) ⟨m, hrest.symm⟩ hne

/-! ## What came from the text -/

/-- In front of a mark the result is the text. -/
theorem prefix_of_redact (hu : first ∉ u)
    (h : u <+: redact matched (first :: inner) 0 text) : u <+: text := by
  induction u generalizing text with
  | nil => exact List.nil_prefix
  | cons x u ih =>
      rw [List.mem_cons, not_or] at hu
      cases text with
      | nil =>
          rw [redact, List.prefix_nil] at h
          cases h
      | cons c cs =>
          cases hmatched : matched (c :: cs) with
          | none =>
              rw [redact_none hmatched, List.cons_prefix_cons] at h
              exact List.cons_prefix_cons.mpr ⟨h.1, ih hu.2 h.2⟩
          | some n =>
              rw [redact_some hmatched, List.cons_append, List.cons_prefix_cons] at h
              exact absurd h.1.symm hu.1

/-- One symbol further it is the text, or a match begins there. -/
theorem next_of_redact {x : α} (hu : first ∉ u)
    (h : u ++ [x] <+: redact matched (first :: inner) 0 text) :
    ∃ y, u ++ [y] <+: text ∧ (y = x ∨ (matched (text.drop u.length)).isSome) := by
  induction u generalizing text with
  | nil =>
      cases text with
      | nil =>
          rw [redact, List.prefix_nil] at h
          cases h
      | cons c cs =>
          refine ⟨c, List.cons_prefix_cons.mpr ⟨rfl, List.nil_prefix⟩, ?_⟩
          cases hmatched : matched (c :: cs) with
          | none =>
              rw [redact_none hmatched, List.nil_append, List.cons_prefix_cons] at h
              exact Or.inl h.1.symm
          | some n =>
              refine Or.inr ?_
              rw [List.length_nil, List.drop_zero, hmatched]
              rfl
  | cons z u ih =>
      rw [List.mem_cons, not_or] at hu
      cases text with
      | nil =>
          rw [redact, List.prefix_nil] at h
          cases h
      | cons c cs =>
          cases hmatched : matched (c :: cs) with
          | none =>
              rw [redact_none hmatched, List.cons_append, List.cons_prefix_cons] at h
              obtain ⟨y, hy, hcase⟩ := ih hu.2 h.2
              exact ⟨y, List.cons_prefix_cons.mpr ⟨h.1, hy⟩, hcase⟩
          | some n =>
              rw [redact_some hmatched, List.cons_append, List.cons_append,
                List.cons_prefix_cons] at h
              exact absurd h.1.symm hu.1

/-- A word in the result comes from the text, when it does not fit between the ends of a mark. -/
theorem not_infix_redact (hfirst : first ∉ w) (hlast : last ∉ w) (hlong : inner.length < w.length)
    (hword : ∀ rest, rest <:+ text → matched rest = none → ¬ w <+: rest) :
    ¬ w <:+: redact matched (first :: (inner ++ [last])) 0 text := by
  rintro ⟨before, behind, heq⟩
  have hv : w ++ behind <:+ redact matched (first :: (inner ++ [last])) 0 text :=
    ⟨before, by rw [← List.append_assoc, heq]⟩
  have hw : w ≠ [] := by
    refine List.length_pos_iff.mp ?_
    omega
  rcases suffix_redact_cases hv (List.append_ne_nil_of_left_ne_nil hw behind) with
    ⟨rest, hrest, -, hnone, hfrom⟩ | ⟨m, later, hm, ⟨skipped, hskipped⟩, hfrom⟩
  · have hstands : w <+: redact matched (first :: (inner ++ [last])) 0 rest := by
      rw [← hfrom]
      exact List.prefix_append w behind
    exact hword rest hrest hnone (prefix_of_redact hfirst hstands)
  · -- the rest of a mark ends with the last symbol, which the word would have to pass
    obtain ⟨front, e, rfl⟩ : ∃ front e, m = front ++ [e] :=
      ⟨m.dropLast, m.getLast hm, (List.dropLast_append_getLast hm).symm⟩
    rw [← List.append_assoc, ← List.cons_append] at hskipped
    obtain ⟨hfront, hend⟩ := List.append_inj' hskipped rfl
    obtain rfl : e = last := List.singleton_inj.mp hend
    have hinside : ∀ x, front ≠ w ++ x := by
      rintro x rfl
      have hlength := congrArg List.length hfront
      simp only [List.length_append, List.length_cons] at hlength
      have hnil : skipped = [] := List.length_eq_zero_iff.mp (by omega)
      rw [hnil, List.nil_append] at hfront
      obtain ⟨c, w', rfl⟩ := List.exists_cons_of_ne_nil hw
      rw [List.cons_append, List.cons.injEq] at hfront
      exact hfirst (hfront.1 ▸ List.mem_cons_self)
    rw [List.append_assoc] at hfrom
    rcases List.append_eq_append_iff.mp hfrom with ⟨x, hx, -⟩ | ⟨x, hx, hmore⟩
    · exact hinside x hx
    · cases x with
      | nil => exact hinside [] (by rw [hx, List.append_nil, List.append_nil])
      | cons c x =>
          have hc : e = c := List.head_eq_of_cons_eq hmore
          refine hlast ?_
          rw [hx, ← hc]
          exact List.mem_append_right _ List.mem_cons_self

end Foundation
end Ctem
