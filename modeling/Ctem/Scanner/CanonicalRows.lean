import Ctem.Scanner.LockfileOrder

/-!
# One row for a component

The deduplication keeps one component of each key: a direct one if there is one, and among those
of its kind one with the shortest chain.

* `ranked_preferred`: the preference is a strict weak order on all components.
* `dedupeComponents_canonical` is the law of the whole list.
-/

namespace Ctem
namespace Scanner

open Foundation

theorem preferred_iff (c d : ResolvedComponent) : preferred c d = true ↔
    (c.direct = true ∧ d.direct = false) ∨
      (c.direct = d.direct ∧ 0 < c.dependencyPath.length ∧
        (d.dependencyPath.length = 0 ∨ c.dependencyPath.length < d.dependencyPath.length)) := by
  simp only [preferred, Bool.or_eq_true, Bool.and_eq_true, Bool.not_eq_true', decide_eq_true_eq,
    and_assoc]

/-- Any two components can be compared, also with empty chains. -/
theorem ranked_preferred (components : List ResolvedComponent) : Ranked preferred components where
  asymm a _ b _ hab := by
    rw [Bool.eq_false_iff]
    intro hba
    rw [preferred_iff] at hab hba
    rcases hab with ⟨hdirect, hother⟩ | ⟨hsame, hab⟩
    · rcases hba with ⟨hdirect', -⟩ | ⟨hsame, -⟩
      · rw [hother] at hdirect'
        cases hdirect'
      · rw [hdirect, hother] at hsame
        cases hsame
    · rcases hba with ⟨hdirect, hother⟩ | ⟨-, hba⟩
      · rw [hother, hdirect] at hsame
        cases hsame
      · omega
  split a _ b _ c _ hac := by
    rw [preferred_iff] at hac
    rw [preferred_iff, preferred_iff]
    rcases hac with ⟨ha, hc⟩ | ⟨hsame, hac⟩
    · cases hb : b.direct with
      | false => exact Or.inl (Or.inl ⟨ha, rfl⟩)
      | true => exact Or.inr (Or.inl ⟨rfl, hc⟩)
    · by_cases hb : b.direct = a.direct
      · rcases Nat.lt_or_ge 0 b.dependencyPath.length with hpos | hzero
        · rcases Nat.lt_or_ge a.dependencyPath.length b.dependencyPath.length with hlt | hge
          · exact Or.inl (Or.inr ⟨hb.symm, by omega⟩)
          · exact Or.inr (Or.inr ⟨hb.trans hsame, by omega⟩)
        · exact Or.inl (Or.inr ⟨hb.symm, by omega⟩)
      · cases ha : a.direct with
        | false =>
            rw [ha] at hb hsame
            exact Or.inr (Or.inl ⟨Bool.eq_true_of_not_eq_false hb, hsame.symm⟩)
        | true =>
            rw [ha] at hb
            exact Or.inl (Or.inl ⟨rfl, Bool.eq_false_iff.mpr hb⟩)

/-- The components of a key. -/
def sameKey (key : String) (components : List ResolvedComponent) : List ResolvedComponent :=
  components.filter fun d => decide (dedupeKey d = key)

theorem mem_sameKey {key : String} {components : List ResolvedComponent} {c : ResolvedComponent} :
    c ∈ sameKey key components ↔ c ∈ components ∧ dedupeKey c = key := by
  rw [sameKey, List.mem_filter, decide_eq_true_eq]

/-- What is kept of a list is unbeaten among the components of its key. -/
theorem unbeaten_of_mem_dedupe {components : List ResolvedComponent} {c : ResolvedComponent}
    (h : c ∈ dedupeComponents components) :
    Unbeaten preferred (sameKey (dedupeKey c) components) c := by
  obtain ⟨key, hkept⟩ := mem_dedupeComponents.mp h
  have hunbeaten := champion_unbeaten (ranked_preferred _) hkept
  have hkey : dedupeKey c = key := (mem_sameKey.mp hunbeaten.1).2
  rw [hkey]
  exact hunbeaten

/-- An unbeaten component is direct if one is, and no chain of its kind is shorter. -/
theorem canonical_of_unbeaten {components : List ResolvedComponent} {c : ResolvedComponent}
    (h : Unbeaten preferred components c) :
    (c.direct = true ↔ ∃ d ∈ components, d.direct = true) ∧
      ∀ d ∈ components, d.direct = c.direct → d.dependencyPath ≠ [] →
        c.dependencyPath ≠ [] ∧ c.dependencyPath.length ≤ d.dependencyPath.length := by
  have hnot : ∀ d ∈ components, ¬preferred d c = true := fun d hd => by
    rw [h.2 d hd]
    exact Bool.false_ne_true
  constructor
  · constructor
    · exact fun hc => ⟨c, h.1, hc⟩
    · rintro ⟨d, hd, hdirect⟩
      have hbeaten := hnot d hd
      rw [preferred_iff] at hbeaten
      cases hc : c.direct with
      | true => rfl
      | false => exact absurd (Or.inl ⟨hdirect, hc⟩) hbeaten
  · intro d hd hdirect hpath
    have hbeaten := hnot d hd
    rw [preferred_iff] at hbeaten
    have hpos : 0 < d.dependencyPath.length := List.length_pos_of_ne_nil hpath
    rw [← List.length_pos_iff_ne_nil]
    by_contra hlonger
    refine hbeaten (Or.inr ⟨hdirect, hpos, ?_⟩)
    omega

/-! ## The list of rows -/

/-- Items of different keys are kept as they come. -/
theorem groupFold_of_nodup {κ : Type} {α : Type} {β : Type} [DecidableEq κ] (key : β → κ)
    (f : β → Option α → α) {items : List β} (hnodup : (items.map key).Nodup) :
    AssocMap.groupFold key f items = items.map fun b => (key b, f b none) := by
  induction items using List.reverseRecOn with
  | nil => rfl
  | append_singleton items b ih =>
      rw [List.map_append, List.nodup_append] at hnodup
      obtain ⟨hitems, -, hdisjoint⟩ := hnodup
      have hnone : AssocMap.lookup? (AssocMap.groupFold key f items) (key b) = none := by
        rw [← Option.not_isSome_iff_eq_none, AssocMap.isSome_lookup?, AssocMap.mem_keys_groupFold]
        rintro ⟨b', hb', heq⟩
        exact hdisjoint (key b') (List.mem_map_of_mem hb') (key b) List.mem_cons_self heq
      rw [AssocMap.groupFold_concat, AssocMap.upsert_of_lookup_none hnone, ih hitems,
        List.map_append]
      rfl

/-- A row stands under its own key. -/
theorem dedupeComponents_map_key (components : List ResolvedComponent) :
    (dedupeComponents components).map dedupeKey = (dedupeMap components).keys := by
  rw [dedupeComponents_eq]
  unfold AssocMap.values AssocMap.keys
  rw [List.map_map]
  refine List.map_congr_left fun e he => ?_
  have hlookup := AssocMap.lookup?_of_mem (nodup_keys_dedupeMap components) he
  rw [lookup?_dedupeMap] at hlookup
  exact of_decide_eq_true (List.mem_filter.mp (champion_mem hlookup)).2

/-- The rows of a list whose keys differ are the list. -/
theorem dedupeComponents_of_nodup {components : List ResolvedComponent}
    (h : (components.map dedupeKey).Nodup) : dedupeComponents components = components := by
  rw [dedupeComponents_eq, dedupeMap, groupFold_of_nodup _ _ h, AssocMap.values, List.map_map]
  exact List.map_id components

/-- One row for each key, direct if a component of the key is, with the shortest chain of its
kind; and what is told of a key does not depend on the order. -/
theorem dedupeComponents_canonical (components : List ResolvedComponent) :
    ((dedupeComponents components).map dedupeKey).Nodup ∧
      (∀ key, key ∈ (dedupeComponents components).map dedupeKey ↔
        key ∈ components.map dedupeKey) ∧
      (∀ c ∈ dedupeComponents components, c ∈ components ∧
        (c.direct = true ↔ ∃ d ∈ components, dedupeKey d = dedupeKey c ∧ d.direct = true) ∧
        ∀ d ∈ components, dedupeKey d = dedupeKey c → d.direct = c.direct →
          d.dependencyPath ≠ [] → c.dependencyPath ≠ [] ∧
            c.dependencyPath.length ≤ d.dependencyPath.length) ∧
      (∀ components', components.Perm components' → ∀ c ∈ dedupeComponents components,
        ∀ c' ∈ dedupeComponents components', dedupeKey c = dedupeKey c' →
          c.direct = c'.direct ∧ c.dependencyPath.length = c'.dependencyPath.length) ∧
      dedupeComponents (dedupeComponents components) = dedupeComponents components := by
  have hnodup : ∀ cs, ((dedupeComponents cs).map dedupeKey).Nodup := fun cs => by
    rw [dedupeComponents_map_key]
    exact nodup_keys_dedupeMap cs
  refine ⟨hnodup components, fun key => ?_, ?_, ?_, dedupeComponents_of_nodup (hnodup components)⟩
  · rw [dedupeComponents_map_key, dedupeMap, AssocMap.mem_keys_groupFold, List.mem_map]
  · intro c hc
    have hunbeaten := unbeaten_of_mem_dedupe hc
    obtain ⟨hdirect, hpath⟩ := canonical_of_unbeaten hunbeaten
    refine ⟨(mem_sameKey.mp hunbeaten.1).1, ?_, ?_⟩
    · rw [hdirect]
      simp only [mem_sameKey, and_assoc]
    · exact fun d hd hkey => hpath d (mem_sameKey.mpr ⟨hd, hkey⟩)
  · intro components' hperm c hc c' hc' hkey
    have hunbeaten := unbeaten_of_mem_dedupe hc
    have hunbeaten' : Unbeaten preferred (sameKey (dedupeKey c) components) c' := by
      rw [hkey]
      exact (unbeaten_of_mem_dedupe hc').perm (hperm.filter _).symm
    obtain ⟨hdirect, hpath⟩ := canonical_of_unbeaten hunbeaten
    obtain ⟨hdirect', hpath'⟩ := canonical_of_unbeaten hunbeaten'
    have hsame : c.direct = c'.direct := Bool.eq_iff_iff.mpr (hdirect.trans hdirect'.symm)
    refine ⟨hsame, ?_⟩
    -- each chain is at most as long as the other, or both are empty
    by_cases hempty : c.dependencyPath = []
    · by_cases hempty' : c'.dependencyPath = []
      · rw [hempty, hempty']
      · exact absurd hempty (hpath c' hunbeaten'.1 hsame.symm hempty').1
    · have hle' := hpath' c hunbeaten.1 hsame hempty
      have hle := hpath c' hunbeaten'.1 hsame.symm hle'.1
      omega

end Scanner
end Ctem
