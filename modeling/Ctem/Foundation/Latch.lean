import Mathlib.Data.List.Basic
import Mathlib.Tactic.Cases

/-!
# A latch and its log

A latch is set by a claim, which finds it open, and opened by a reset.  The log of what
has happened to it is a list, the oldest entry first; entries are named by their
positions, which do not move as the log grows.

* `Since P log i` says that no entry behind position `i` satisfies `P`.
* `Latched` relates the log to whether the latch is set: a claim without a reset behind
  it has left it set, and any two claims have a reset between them.
* `Latched.concat` is the step: what an entry must say of the latch before and after it.
-/

namespace Ctem
namespace Foundation

universe u

variable {α : Type u}

/-- The entry at a position satisfies `P`. -/
def EntryAt (P : α → Prop) (log : List α) (i : Nat) : Prop :=
  ∃ a, log[i]? = some a ∧ P a

/-- No entry behind the position satisfies `P`. -/
def Since (P : α → Prop) (log : List α) (i : Nat) : Prop :=
  ∀ j, i < j → ¬ EntryAt P log j

section Log

variable {P Q : α → Prop} {log : List α} {a : α} {i : Nat}

theorem EntryAt.lt_length (h : EntryAt P log i) : i < log.length := by
  obtain ⟨a, ha, -⟩ := h
  exact (List.getElem?_eq_some_iff.mp ha).1

theorem EntryAt.concat (h : EntryAt P log i) (a : α) : EntryAt P (log ++ [a]) i := by
  have hlt : i < log.length := h.lt_length
  obtain ⟨b, hb, hP⟩ := h
  refine ⟨b, ?_, hP⟩
  rw [List.getElem?_append_left hlt]
  exact hb

/-- The last entry is the one that was added. -/
theorem entryAt_concat_length (h : P a) : EntryAt P (log ++ [a]) log.length :=
  ⟨a, by simp, h⟩

/-- An entry of the longer log is an old one or the one that was added. -/
theorem entryAt_concat_iff :
    EntryAt P (log ++ [a]) i ↔ EntryAt P log i ∨ (i = log.length ∧ P a) := by
  constructor
  · rintro ⟨b, hb, hP⟩
    rcases Nat.lt_trichotomy i log.length with hlt | heq | hgt
    · rw [List.getElem?_append_left hlt] at hb
      exact Or.inl ⟨b, hb, hP⟩
    · subst heq
      rw [List.getElem?_concat_length, Option.some_inj] at hb
      exact Or.inr ⟨rfl, hb ▸ hP⟩
    · have hnone : (log ++ [a])[i]? = none := by
        rw [List.getElem?_eq_none_iff, List.length_append, List.length_singleton]
        exact hgt
      rw [hnone] at hb
      cases hb
  · rintro (h | ⟨rfl, hP⟩)
    · exact h.concat a
    · exact entryAt_concat_length hP

theorem getElem?_concat_eq_some {b : α} :
    (log ++ [a])[i]? = some b ↔ log[i]? = some b ∨ (i = log.length ∧ a = b) := by
  have hentry : ∀ xs : List α, EntryAt (fun x => x = b) xs i ↔ xs[i]? = some b := fun xs =>
    ⟨fun ⟨_, hx, heq⟩ => heq ▸ hx, fun h => ⟨b, h, rfl⟩⟩
  rw [← hentry, ← hentry]
  exact entryAt_concat_iff

theorem since_concat_iff :
    Since P (log ++ [a]) i ↔ Since P log i ∧ (i < log.length → ¬ P a) := by
  constructor
  · intro h
    refine ⟨fun j hj hentry => h j hj (hentry.concat a), ?_⟩
    exact fun hlt hP => h log.length hlt (entryAt_concat_length hP)
  · rintro ⟨h, hnew⟩ j hj hentry
    rcases entryAt_concat_iff.mp hentry with hold | ⟨rfl, hP⟩
    · exact h j hj hold
    · exact hnew hj hP

theorem Since.mono (h : Since P log i) (himp : ∀ a, Q a → P a) : Since Q log i := by
  intro j hj hentry
  obtain ⟨a, ha, hQ⟩ := hentry
  exact h j hj ⟨a, ha, himp a hQ⟩

/-- There is nothing behind the end of the log. -/
theorem since_length (P : α → Prop) (log : List α) : Since P log log.length := by
  intro j hj hentry
  exact Nat.lt_irrefl _ (Nat.lt_trans hj hentry.lt_length)

end Log

/-- The log of a latch that is set or open. -/
structure Latched (claims resets : α → Prop) (log : List α) (set : Prop) : Prop where
  /-- A claim without a reset behind it has left the latch set. -/
  left_set : ∀ i, EntryAt claims log i → Since resets log i → set
  /-- Between two claims the latch was opened. -/
  between : ∀ i j, i < j → EntryAt claims log i → EntryAt claims log j →
    ∃ m, i < m ∧ m < j ∧ EntryAt resets log m

section Latch

variable {claims resets : α → Prop} {log : List α} {set set' : Prop}

theorem latched_nil (set : Prop) : Latched claims resets [] set where
  left_set := by
    intro i hclaim
    exact absurd hclaim.lt_length (Nat.not_lt_zero i)
  between := by
    intro i j _ hclaim
    exact absurd hclaim.lt_length (Nat.not_lt_zero i)

/-- The latch may be set or opened in any way the log need not know of. -/
theorem Latched.mono (h : Latched claims resets log set) (himp : set → set') :
    Latched claims resets log set' :=
  ⟨fun i hclaim hsince => himp (h.left_set i hclaim hsince), h.between⟩

/-- An entry is added: a claim finds the latch open and leaves it set, and only a reset
opens it. -/
theorem Latched.concat (h : Latched claims resets log set) {a : α} (hopen : claims a → ¬ set)
    (hset : claims a → set') (hkeep : set → ¬ resets a → set') :
    Latched claims resets (log ++ [a]) set' where
  left_set := by
    intro i hclaim hsince
    obtain ⟨hold, hnew⟩ := since_concat_iff.mp hsince
    rcases entryAt_concat_iff.mp hclaim with hclaim | ⟨-, hclaim⟩
    · exact hkeep (h.left_set i hclaim hold) (hnew hclaim.lt_length)
    · exact hset hclaim
  between := by
    intro i j hij hi hj
    rcases entryAt_concat_iff.mp hi with hi | ⟨rfl, -⟩
    · rcases entryAt_concat_iff.mp hj with hj | ⟨rfl, hclaim⟩
      · obtain ⟨m, him, hmj, hreset⟩ := h.between i j hij hi hj
        exact ⟨m, him, hmj, hreset.concat a⟩
      · -- the latch was open, so the earlier claim has a reset behind it
        have hnot : ¬ Since resets log i := fun hsince => hopen hclaim (h.left_set i hi hsince)
        unfold Since at hnot
        push Not at hnot
        obtain ⟨m, him, hreset⟩ := hnot
        exact ⟨m, him, hreset.lt_length, hreset.concat a⟩
    · -- the added entry is the last one
      have hlt : j < (log ++ [a]).length := hj.lt_length
      rw [List.length_append, List.length_singleton] at hlt
      exact absurd hij (Nat.not_lt.mpr (Nat.le_of_lt_succ hlt))

end Latch

end Foundation
end Ctem
