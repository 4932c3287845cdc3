import Ctem.Foundation.JsCollections

/-!
# Strings in the order of their code units

A sort without comparator orders strings by their UTF-16 code units.  The units say what the
string is, so the order is a linear one, and a sorted list without duplicates is determined by
its members.

* `utf16Units_injective`: no two strings have the same units.
* `sortedSet_congr`: sorting what a set has gives one list, in whichever order it was collected.
-/

namespace Ctem
namespace Foundation

/-- The units of one character. -/
def charUnits (c : Char) : List Nat :=
  if c.toNat < 0x10000 then [c.toNat]
  else [0xD800 + (c.toNat - 0x10000) / 0x400, 0xDC00 + (c.toNat - 0x10000) % 0x400]

theorem utf16Units_eq (s : String) : utf16Units s = s.toList.flatMap charUnits := rfl

/-- A character is no surrogate, and below `0x110000`. -/
theorem char_range (c : Char) : c.toNat < 0xD800 ∨ (0xDFFF < c.toNat ∧ c.toNat < 0x110000) := by
  have hvalid : c.val.toNat.isValidChar := c.valid
  exact hvalid

/-- The units of a text are read one character at a time. -/
theorem charUnits_append_inj {c d : Char} {us vs : List Nat}
    (h : charUnits c ++ us = charUnits d ++ vs) : c = d ∧ us = vs := by
  have hc := char_range c
  have hd := char_range d
  have hsame : ∀ {a b : Char}, a.toNat = b.toNat → a = b := fun hab => Char.toNat_inj.mp hab
  unfold charUnits at h
  -- A first unit in the surrogate range belongs to a pair, any other is the character.
  split at h
  · split at h
    · obtain ⟨heq, htail⟩ := List.cons.inj h
      exact ⟨hsame heq, htail⟩
    · obtain ⟨heq, -⟩ := List.cons.inj h
      omega
  · split at h
    · obtain ⟨heq, -⟩ := List.cons.inj h
      omega
    · obtain ⟨hhigh, hrest⟩ := List.cons.inj h
      obtain ⟨hlow, htail⟩ := List.cons.inj hrest
      refine ⟨hsame ?_, htail⟩
      omega

theorem charUnits_ne_nil (c : Char) : charUnits c ≠ [] := by
  unfold charUnits
  split <;> exact List.cons_ne_nil _ _

theorem utf16Units_injective {s t : String} (h : utf16Units s = utf16Units t) : s = t := by
  have hlists : ∀ cs ds : List Char, cs.flatMap charUnits = ds.flatMap charUnits → cs = ds := by
    intro cs
    induction cs with
    | nil =>
        intro ds heq
        cases ds with
        | nil => rfl
        | cons d ds =>
            have hnil := (List.append_eq_nil_iff.mp (heq.symm : _ ++ _ = [])).1
            exact absurd hnil (charUnits_ne_nil d)
    | cons c cs ih =>
        intro ds heq
        cases ds with
        | nil =>
            have hnil := (List.append_eq_nil_iff.mp (heq : _ ++ _ = [])).1
            exact absurd hnil (charUnits_ne_nil c)
        | cons d ds =>
            obtain ⟨rfl, htail⟩ := charUnits_append_inj heq
            rw [ih ds htail]
  exact String.toList_inj.mp (hlists s.toList t.toList h)

/-! ## Sorting -/

/-- One string is not behind another. -/
def unitsLE (a b : String) : Prop := utf16Units a ≤ utf16Units b

instance : DecidableRel unitsLE := fun a b =>
  inferInstanceAs (Decidable (utf16Units a ≤ utf16Units b))

theorem pairwise_sortStrings (xs : List String) : (sortStrings xs).Pairwise unitsLE := by
  have : Std.Total unitsLE := ⟨fun a b => le_total (utf16Units a) (utf16Units b)⟩
  have : IsTrans String unitsLE := ⟨fun _ _ _ hab hbc => le_trans hab hbc⟩
  exact List.pairwise_insertionSort unitsLE xs

theorem perm_sortStrings (xs : List String) : (sortStrings xs).Perm xs :=
  List.perm_insertionSort _ xs

theorem mem_sortStrings {xs : List String} {s : String} : s ∈ sortStrings xs ↔ s ∈ xs :=
  (perm_sortStrings xs).mem_iff

/-- The members of a list in order, each once. -/
def sortedSet (xs : List String) : List String := sortStrings xs.eraseDups

theorem mem_sortedSet {xs : List String} {s : String} : s ∈ sortedSet xs ↔ s ∈ xs := by
  rw [sortedSet, mem_sortStrings, List.mem_eraseDups]

theorem nodup_sortedSet (xs : List String) : (sortedSet xs).Nodup :=
  (perm_sortStrings _).nodup_iff.mpr (by
    have h := AssocMap.nodup_keys_groupFold (fun s : String => s) (fun _ _ => ()) xs
    rwa [AssocMap.keys_groupFold, List.map_id'] at h)

/-- What the list is sorted to depends on its members only. -/
theorem sortedSet_congr {xs ys : List String} (h : ∀ s, s ∈ xs ↔ s ∈ ys) :
    sortedSet xs = sortedSet ys := by
  have hperm : (sortedSet xs).Perm (sortedSet ys) := by
    rw [List.perm_ext_iff_of_nodup (nodup_sortedSet xs) (nodup_sortedSet ys)]
    intro s
    rw [mem_sortedSet, mem_sortedSet, h]
  have : Std.Antisymm unitsLE :=
    ⟨fun _ _ hab hba => utf16Units_injective (le_antisymm hab hba)⟩
  exact hperm.eq_of_pairwise' (pairwise_sortStrings _) (pairwise_sortStrings _)

end Foundation
end Ctem
