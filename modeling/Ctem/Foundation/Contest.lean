import Mathlib.Data.List.Induction

/-!
# The winner of a contest

A loop over candidates keeps the first one and replaces it by each later one that beats it.

* `champion` is the loop.
* `Unbeaten` is what the winner is when beating is a strict weak order on the candidates
  (`Ranked`), in whatever order they come; `champion_unbeaten`.
* `champion_of_tie`: among candidates that do not beat each other the first one wins.
-/

namespace Ctem
namespace Foundation

universe u

variable {α : Type u} (beats : α → α → Bool)

/-- One candidate meets the one that has won so far. -/
def contest : Option α → α → Option α
  | none, c => some c
  | some current, c => if beats c current then some c else some current

/-- The candidate that is left. -/
def champion (candidates : List α) : Option α := candidates.foldl (contest beats) none

/-- A candidate none of the others beats. -/
def Unbeaten (candidates : List α) (c : α) : Prop :=
  c ∈ candidates ∧ ∀ d ∈ candidates, beats d c = false

/-- On these candidates beating is a strict weak order. -/
structure Ranked (candidates : List α) : Prop where
  asymm : ∀ a ∈ candidates, ∀ b ∈ candidates, beats a b = true → beats b a = false
  split : ∀ a ∈ candidates, ∀ b ∈ candidates, ∀ c ∈ candidates,
    beats a c = true → beats a b = true ∨ beats b c = true

variable {beats} {candidates candidates' : List α}

theorem Ranked.irrefl (h : Ranked beats candidates) {a : α} (ha : a ∈ candidates) :
    beats a a = false := by
  cases hself : beats a a with
  | false => rfl
  | true => exact hself.symm.trans (h.asymm a ha a ha hself)

theorem Ranked.perm (h : Ranked beats candidates) (hperm : candidates.Perm candidates') :
    Ranked beats candidates' where
  asymm a ha b hb := h.asymm a (hperm.mem_iff.mpr ha) b (hperm.mem_iff.mpr hb)
  split a ha b hb c hc :=
    h.split a (hperm.mem_iff.mpr ha) b (hperm.mem_iff.mpr hb) c (hperm.mem_iff.mpr hc)

theorem Unbeaten.perm {c : α} (h : Unbeaten beats candidates c)
    (hperm : candidates.Perm candidates') : Unbeaten beats candidates' c :=
  ⟨hperm.mem_iff.mp h.1, fun d hd => h.2 d (hperm.mem_iff.mpr hd)⟩

@[simp] theorem contest_none (c : α) : contest beats none c = some c := rfl

@[simp] theorem contest_some (current c : α) :
    contest beats (some current) c = if beats c current = true then some c else some current := rfl

theorem champion_concat (candidates : List α) (c : α) :
    champion beats (candidates ++ [c]) = contest beats (champion beats candidates) c := by
  unfold champion
  rw [List.foldl_append]
  rfl

theorem champion_eq_none_iff : champion beats candidates = none ↔ candidates = [] := by
  constructor
  · intro h
    rcases List.eq_nil_or_concat candidates with rfl | ⟨front, c, rfl⟩
    · rfl
    · rw [List.concat_eq_append, champion_concat] at h
      cases hfront : champion beats front with
      | none =>
          rw [hfront] at h
          cases h
      | some current =>
          rw [hfront, contest_some] at h
          split at h <;> cases h
  · rintro rfl
    rfl

theorem exists_champion (beats : α → α → Bool) (h : candidates ≠ []) :
    ∃ c, champion beats candidates = some c := by
  cases hchampion : champion beats candidates with
  | none => exact absurd (champion_eq_none_iff.mp hchampion) h
  | some c => exact ⟨c, rfl⟩

theorem champion_mem {c : α} (h : champion beats candidates = some c) : c ∈ candidates := by
  induction candidates using List.reverseRecOn with
  | nil => cases h
  | append_singleton front next ih =>
      rw [champion_concat] at h
      cases hfront : champion beats front with
      | none =>
          rw [hfront] at h
          obtain rfl := Option.some.inj h
          exact List.mem_append_right _ List.mem_cons_self
      | some current =>
          rw [hfront, contest_some] at h
          split at h
          · obtain rfl := Option.some.inj h
            exact List.mem_append_right _ List.mem_cons_self
          · obtain rfl := Option.some.inj h
            exact List.mem_append_left _ (ih hfront)

/-- The winner is unbeaten. -/
theorem champion_unbeaten {c : α} (hranked : Ranked beats candidates)
    (h : champion beats candidates = some c) : Unbeaten beats candidates c := by
  -- at each turn the winner so far is unbeaten by what has been met
  have hfold : ∀ met, met <+: candidates → ∀ c, champion beats met = some c →
      Unbeaten beats met c := by
    intro met
    induction met using List.reverseRecOn with
    | nil =>
        intro _ c hc
        cases hc
    | append_singleton met next ih =>
        intro hprefix c hc
        have hsub : ∀ {d}, d ∈ met ++ [next] → d ∈ candidates := fun hd => hprefix.subset hd
        have hmet : met <+: candidates := (List.prefix_append met [next]).trans hprefix
        have hnext : next ∈ candidates := hsub (List.mem_append_right _ List.mem_cons_self)
        rw [champion_concat] at hc
        cases hcurrent : champion beats met with
        | none =>
            obtain rfl := champion_eq_none_iff.mp hcurrent
            rw [hcurrent] at hc
            obtain rfl := Option.some.inj hc
            refine ⟨List.mem_cons_self, fun d hd => ?_⟩
            obtain rfl := List.mem_singleton.mp hd
            exact hranked.irrefl hnext
        | some current =>
            obtain ⟨hin, hunbeaten⟩ := ih hmet current hcurrent
            have hincand : current ∈ candidates := hsub (List.mem_append_left _ hin)
            rw [hcurrent, contest_some] at hc
            split at hc
            · next hbeats =>
                obtain rfl := Option.some.inj hc
                refine ⟨List.mem_append_right _ List.mem_cons_self, fun d hd => ?_⟩
                rcases List.mem_append.mp hd with hd | hd
                · cases hbeat : beats d next with
                  | false => rfl
                  | true =>
                      have hd' : d ∈ candidates := hsub (List.mem_append_left _ hd)
                      rcases hranked.split d hd' current hincand next hnext hbeat with hlt | hlt
                      · exact absurd hlt (by rw [hunbeaten d hd]; exact Bool.false_ne_true)
                      · rw [hranked.asymm next hnext current hincand hbeats] at hlt
                        cases hlt
                · obtain rfl := List.mem_singleton.mp hd
                  exact hranked.irrefl hnext
            · next hbeats =>
                obtain rfl := Option.some.inj hc
                refine ⟨List.mem_append_left _ hin, fun d hd => ?_⟩
                rcases List.mem_append.mp hd with hd | hd
                · exact hunbeaten d hd
                · obtain rfl := List.mem_singleton.mp hd
                  exact Bool.eq_false_iff.mpr hbeats
  exact hfold candidates List.prefix_rfl c h

/-- Among candidates that do not beat the first one it wins. -/
theorem champion_of_tie {c : α} {rest : List α} (h : ∀ d ∈ rest, beats d c = false) :
    champion beats (c :: rest) = some c := by
  have hfold : ∀ ds : List α, (∀ d ∈ ds, beats d c = false) →
      ds.foldl (contest beats) (some c) = some c := by
    intro ds hds
    induction ds with
    | nil => rfl
    | cons d ds ih =>
        rw [List.foldl_cons, contest_some, hds d List.mem_cons_self, if_neg Bool.false_ne_true]
        exact ih fun e he => hds e (List.mem_cons_of_mem d he)
  exact hfold rest h

end Foundation
end Ctem
