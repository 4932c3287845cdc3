import Ctem.Intel.Matcher

/-!
# Matching an inventory

The loop the SCA and the container scanner share: every package of the inventory
is matched, its matches become findings, and the packages the mirror does not know
are remembered.  The deadline is checked before each package.
-/

namespace Ctem
namespace Scanner

open Foundation Contracts Intel

universe u

/-- What the loop has gathered. -/
structure MatchLoop where
  findings : List RawFinding := []
  observed : AssocMap String (String × String) := []
  mirroredCount : Nat := 0

section Loop

variable {α : Type u} (component : α → MatchableComponent)
  (lookup : MatchableComponent → MatchResult) (toFinding : α → VulnMatch → RawFinding)

/-- One round. -/
def matchStep (st : MatchLoop) (a : α) : MatchLoop :=
  let c := component a
  let result := lookup c
  { findings := st.findings ++ result.found.map (toFinding a)
    observed :=
      if result.mirrored = false ∧ c.ecosystem ≠ "unknown" then
        st.observed.upsert (c.ecosystem ++ ":" ++ c.name) fun _ => (c.ecosystem, c.name)
      else st.observed
    mirroredCount := if result.mirrored then st.mirroredCount + 1 else st.mirroredCount }

/-- The loop from its `n`-th round on; `inTime n` is the deadline check of that round
and `late` what a missed deadline throws. -/
def matchAll (late : String) (inTime : Nat → Bool) :
    Nat → List α → MatchLoop → Except String MatchLoop
  | _, [], st => .ok st
  | n, a :: rest, st =>
      if inTime n then matchAll late inTime (n + 1) rest (matchStep component lookup toFinding st a)
      else .error late

/-- The loop misses its deadline, or runs to the end. -/
theorem matchAll_eq (late : String) (inTime : Nat → Bool) (n : Nat) (items : List α)
    (st : MatchLoop) :
    ((∃ i < items.length, inTime (n + i) = false) ∧
        matchAll component lookup toFinding late inTime n items st = .error late) ∨
      ((∀ i < items.length, inTime (n + i) = true) ∧
        matchAll component lookup toFinding late inTime n items st =
          .ok (items.foldl (matchStep component lookup toFinding) st)) := by
  induction items generalizing n st with
  | nil => exact Or.inr ⟨by simp, rfl⟩
  | cons a rest ih =>
      unfold matchAll
      cases hnow : inTime n with
      | false => exact Or.inl ⟨⟨0, by simp, hnow⟩, by simp⟩
      | true =>
          simp only [if_true, List.foldl_cons]
          rcases ih (n + 1) (matchStep component lookup toFinding st a) with
            ⟨⟨i, hi, hlate⟩, heq⟩ | ⟨hall, heq⟩
          · refine Or.inl ⟨⟨i + 1, by simpa using hi, ?_⟩, heq⟩
            rw [show n + (i + 1) = n + 1 + i by omega]
            exact hlate
          · refine Or.inr ⟨?_, heq⟩
            intro i hi
            cases i with
            | zero => exact hnow
            | succ i =>
                rw [show n + (i + 1) = n + 1 + i by omega]
                exact hall i (by simpa using hi)

/-- The findings of the loop are those of its packages, in order. -/
theorem foldl_matchStep_findings (items : List α) (st : MatchLoop) :
    (items.foldl (matchStep component lookup toFinding) st).findings =
      st.findings ++ items.flatMap fun a => (lookup (component a)).found.map (toFinding a) := by
  induction items generalizing st with
  | nil => exact (List.append_nil _).symm
  | cons a rest ih =>
      rw [List.foldl_cons, ih, List.flatMap_cons, ← List.append_assoc]
      rfl

end Loop

/-! ## Over lookups that fail -/

section Lookups

variable {α : Type u} (component : α → MatchableComponent)
  (toFinding : α → VulnMatch → RawFinding) (runtime : FeedRuntime) (cache : IntelCache)
  (calls : MatcherCalls)

/-- A finding of a package whose lookups answered. -/
def AnsweredFinding (items : List α) (finding : RawFinding) : Prop :=
  ∃ a ∈ items, ∃ found, lookupAnswer runtime cache calls (component a) = .ok found ∧
    ∃ vuln ∈ found, toFinding a vuln = finding

theorem mem_loop_findings (items : List α) (finding : RawFinding) :
    finding ∈ (items.foldl
        (matchStep component (matchComponent runtime cache calls) toFinding) {}).findings ↔
      AnsweredFinding component toFinding runtime cache calls items finding := by
  rw [foldl_matchStep_findings, List.nil_append, List.mem_flatMap]
  unfold AnsweredFinding
  apply exists_congr
  intro a
  apply and_congr_right
  intro _
  rw [matchComponent_found, List.mem_map]
  cases lookupAnswer runtime cache calls (component a) with
  | ok found => simp
  | error message => simp

/-- The loop misses its deadline, or reports what the lookups that answered found: a
lookup that failed is missing without a trace. -/
theorem matchAll_lookups (late : String) (inTime : Nat → Bool) (items : List α) :
    ((∃ i < items.length, inTime i = false) ∧
        matchAll component (matchComponent runtime cache calls) toFinding late inTime 0 items {} =
          .error late) ∨
      ((¬ ∃ i < items.length, inTime i = false) ∧
        ∃ st, matchAll component (matchComponent runtime cache calls) toFinding late inTime 0 items
            {} = .ok st ∧
          ∀ finding, finding ∈ st.findings ↔
            AnsweredFinding component toFinding runtime cache calls items finding) := by
  rcases matchAll_eq component (matchComponent runtime cache calls) toFinding late inTime 0 items
    {} with ⟨⟨i, hi, hlate⟩, hloop⟩ | ⟨hall, hloop⟩
  · rw [Nat.zero_add] at hlate
    exact Or.inl ⟨⟨i, hi, hlate⟩, hloop⟩
  · refine Or.inr ⟨?_, _, hloop, mem_loop_findings component toFinding runtime cache calls items⟩
    rintro ⟨i, hi, hlate⟩
    have hnow := hall i hi
    rw [Nat.zero_add, hlate] at hnow
    exact absurd hnow (by decide)

end Lookups

end Scanner
end Ctem
