import Mathlib.Data.List.Dedup

/-!
# Recursive queries

`WITH RECURSIVE q AS (base UNION step)` as a database evaluates it: a working table of
the rows found last, the rows found so far, and in each iteration the rows that `step`
makes of the working table and that are not there yet.  The query ends when an
iteration finds nothing new.

`step` works row by row here: the recursive term joins the working table with tables
that do not change.  `mem_withRecursive_iff` says what the rows are, `withRecursive_isSome`
that the query ends when a rank bounds the derivations.
-/

namespace Ctem
namespace Foundation

universe u

variable {ρ : Type u} [DecidableEq ρ] (step : ρ → List ρ)

/-- What `UNION` keeps of the rows an iteration found. -/
def unionNew (seen found : List ρ) : List ρ :=
  found.dedup.filter fun r => decide (r ∉ seen)

/-- At most `fuel` iterations; `none` when there are still rows to work on. -/
def iterations : Nat → List ρ → List ρ → Option (List ρ)
  | _, [], seen => some seen
  | 0, _ :: _, _ => none
  | fuel + 1, r :: working, seen =>
      iterations fuel (unionNew seen ((r :: working).flatMap step))
        (seen ++ unionNew seen ((r :: working).flatMap step))

/-- The rows of the query, if it ends within `fuel` iterations. -/
def withRecursive (fuel : Nat) (base : List ρ) : Option (List ρ) :=
  iterations step fuel base.dedup base.dedup

/-- A row of the base, or a row made of such a row in `n` steps. -/
inductive Derived (base : List ρ) : Nat → ρ → Prop
  | base {r : ρ} : r ∈ base → Derived base 0 r
  | step {n : Nat} {r r' : ρ} : Derived base n r → r' ∈ step r → Derived base (n + 1) r'

variable {step} {base working seen rows : List ρ} {fuel : Nat}

theorem mem_unionNew {found : List ρ} {r : ρ} :
    r ∈ unionNew seen found ↔ r ∈ found ∧ r ∉ seen := by
  simp [unionNew]

/-- A query that has ended gives the same rows with more fuel. -/
theorem iterations_of_le {fuel' : Nat} (hle : fuel ≤ fuel')
    (h : iterations step fuel working seen = some rows) :
    iterations step fuel' working seen = some rows := by
  induction fuel generalizing fuel' working seen with
  | zero =>
      cases working with
      | nil => cases fuel' <;> exact h
      | cons r working => cases h
  | succ fuel ih =>
      cases working with
      | nil => cases fuel' <;> exact h
      | cons r working =>
          cases fuel' with
          | zero => omega
          | succ fuel' =>
              have hle' : fuel ≤ fuel' := by omega
              show iterations step fuel' _ _ = some rows
              exact ih hle' h

/-- Everything seen is derived, and every row made of a row that is not in the working
table has been seen. -/
structure Working (step : ρ → List ρ) (base working seen : List ρ) : Prop where
  starts : ∀ r ∈ base, r ∈ seen
  subset : ∀ r ∈ working, r ∈ seen
  sound : ∀ r ∈ seen, ∃ n, Derived step base n r
  closed : ∀ r ∈ seen, r ∈ working ∨ ∀ r' ∈ step r, r' ∈ seen

theorem working_start (step : ρ → List ρ) (base : List ρ) :
    Working step base base.dedup base.dedup where
  starts := fun _ hr => List.mem_dedup.mpr hr
  subset := fun _ hr => hr
  sound := fun _ hr => ⟨0, .base (List.mem_dedup.mp hr)⟩
  closed := fun _ hr => Or.inl hr

/-- An iteration keeps the books. -/
theorem Working.iterate (h : Working step base working seen) :
    Working step base (unionNew seen (working.flatMap step))
      (seen ++ unionNew seen (working.flatMap step)) where
  starts := fun r hr => List.mem_append_left _ (h.starts r hr)
  subset := fun r hr => List.mem_append_right _ hr
  sound := by
    intro r hr
    rcases List.mem_append.mp hr with hseen | hnew
    · exact h.sound r hseen
    · obtain ⟨r₀, hr₀, hstep⟩ := List.mem_flatMap.mp (mem_unionNew.mp hnew).1
      obtain ⟨n, hn⟩ := h.sound r₀ (h.subset r₀ hr₀)
      exact ⟨n + 1, hn.step hstep⟩
  closed := by
    intro r hr
    rcases List.mem_append.mp hr with hseen | hnew
    · -- a row that was in the working table has just been stepped
      refine Or.inr fun r' hr' => ?_
      rcases h.closed r hseen with hworking | hdone
      · by_cases hold : r' ∈ seen
        · exact List.mem_append_left _ hold
        · exact List.mem_append_right _
            (mem_unionNew.mpr ⟨List.mem_flatMap.mpr ⟨r, hworking, hr'⟩, hold⟩)
      · exact List.mem_append_left _ (hdone r' hr')
    · exact Or.inl hnew

omit [DecidableEq ρ] in
/-- When the working table is empty, the rows seen are all there are. -/
theorem Working.mem_iff (h : Working step base [] seen) (r : ρ) :
    r ∈ seen ↔ ∃ n, Derived step base n r := by
  constructor
  · exact h.sound r
  · rintro ⟨n, hn⟩
    induction hn with
    | base hr => exact h.starts _ hr
    | step _ hr' ih =>
        rcases h.closed _ ih with hworking | hdone
        · cases hworking
        · exact hdone _ hr'

theorem mem_iterations_iff (h : Working step base working seen)
    (hrows : iterations step fuel working seen = some rows) (r : ρ) :
    r ∈ rows ↔ ∃ n, Derived step base n r := by
  induction fuel generalizing working seen with
  | zero =>
      cases working with
      | nil =>
          obtain rfl := Option.some.inj hrows
          exact h.mem_iff r
      | cons r₀ working => cases hrows
  | succ fuel ih =>
      cases working with
      | nil =>
          obtain rfl := Option.some.inj hrows
          exact h.mem_iff r
      | cons r₀ working => exact ih h.iterate hrows

/-- The rows of a query that ends are the derived ones. -/
theorem mem_withRecursive_iff (hrows : withRecursive step fuel base = some rows) (r : ρ) :
    r ∈ rows ↔ ∃ n, Derived step base n r :=
  mem_iterations_iff (working_start step base) hrows r

theorem withRecursive_of_le {fuel' : Nat} (hle : fuel ≤ fuel')
    (h : withRecursive step fuel base = some rows) :
    withRecursive step fuel' base = some rows :=
  iterations_of_le hle h

/-- Each iteration lifts the rank of the working table, so the fuel bounds the ranks
that are left. -/
theorem iterations_isSome (rank : ρ → Nat) (limit : Nat)
    (hstep : ∀ r, ∀ r' ∈ step r, rank r < rank r' ∧ rank r' ≤ limit)
    (hworking : ∀ r ∈ working, rank r ≤ limit ∧ limit < fuel + rank r) :
    (iterations step fuel working seen).isSome = true := by
  induction fuel generalizing working seen with
  | zero =>
      cases working with
      | nil => rfl
      | cons r working =>
          have hrank := hworking r List.mem_cons_self
          omega
  | succ fuel ih =>
      cases working with
      | nil => rfl
      | cons r working =>
          refine ih fun r' hr' => ?_
          obtain ⟨r₀, hr₀, hmade⟩ := List.mem_flatMap.mp (mem_unionNew.mp hr').1
          have hrank := hworking r₀ hr₀
          have hlifted := hstep r₀ r' hmade
          omega

theorem withRecursive_isSome (rank : ρ → Nat) (limit : Nat)
    (hstep : ∀ r, ∀ r' ∈ step r, rank r < rank r' ∧ rank r' ≤ limit)
    (hbase : ∀ r ∈ base, rank r ≤ limit ∧ limit < fuel + rank r) :
    (withRecursive step fuel base).isSome = true :=
  iterations_isSome rank limit hstep fun r hr => hbase r (List.mem_dedup.mp hr)

end Foundation
end Ctem
