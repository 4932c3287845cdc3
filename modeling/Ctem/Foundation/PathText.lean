import Ctem.Foundation.JsText

/-!
# Paths as text

A path is a list of parts, and its text the parts with slashes between them.  A part is not
empty and has no slash in it, so the text says what the parts are: comparing texts, or the
beginning of one with another and a slash behind it, compares the paths.
-/

namespace Ctem
namespace Foundation

universe u

/-! ## Splitting -/

theorem splitOn_cons_sep (sep : Char) (cs : List Char) :
    splitOn sep (sep :: cs) = [] :: splitOn sep cs := by
  rw [splitOn, if_pos rfl]

/-- A character that is no separator goes to the first piece. -/
theorem splitOn_cons_ne {sep c : Char} (hne : c ≠ sep) (cs : List Char) :
    ∃ piece pieces, splitOn sep cs = piece :: pieces ∧
      splitOn sep (c :: cs) = (c :: piece) :: pieces := by
  cases hpieces : splitOn sep cs with
  | nil =>
      cases cs with
      | nil => exact absurd hpieces (by simp [splitOn])
      | cons d rest =>
          rw [splitOn] at hpieces
          split at hpieces
          · exact absurd hpieces (by simp)
          · split at hpieces <;> exact absurd hpieces (by simp)
  | cons piece pieces =>
      refine ⟨piece, pieces, rfl, ?_⟩
      rw [splitOn, if_neg hne, hpieces]

theorem splitOn_ne_nil (sep : Char) (cs : List Char) : splitOn sep cs ≠ [] := by
  cases cs with
  | nil => simp [splitOn]
  | cons c rest =>
      by_cases hsep : c = sep
      · subst hsep
        simp [splitOn_cons_sep]
      · obtain ⟨piece, pieces, -, heq⟩ := splitOn_cons_ne hsep rest
        simp [heq]

theorem splitOn_of_not_mem {sep : Char} {cs : List Char} (h : sep ∉ cs) :
    splitOn sep cs = [cs] := by
  induction cs with
  | nil => rfl
  | cons c rest ih =>
      rw [List.mem_cons, not_or] at h
      obtain ⟨piece, pieces, hrest, heq⟩ := splitOn_cons_ne (Ne.symm h.1) rest
      rw [ih h.2] at hrest
      obtain ⟨rfl, rfl⟩ := List.cons.inj hrest
      exact heq

/-- A separator splits. -/
theorem splitOn_append_sep (sep : Char) (as bs : List Char) :
    splitOn sep (as ++ sep :: bs) = splitOn sep as ++ splitOn sep bs := by
  induction as with
  | nil =>
      rw [List.nil_append, splitOn_cons_sep]
      rfl
  | cons a rest ih =>
      rw [List.cons_append]
      by_cases hsep : a = sep
      · subst hsep
        rw [splitOn_cons_sep, splitOn_cons_sep, ih]
        rfl
      · obtain ⟨piece, pieces, hrest, heq⟩ := splitOn_cons_ne hsep rest
        obtain ⟨piece', pieces', hrest', heq'⟩ :=
          splitOn_cons_ne hsep (rest ++ sep :: bs)
        rw [ih, hrest, List.cons_append] at hrest'
        obtain ⟨rfl, rfl⟩ := List.cons.inj hrest'
        rw [heq, heq', List.cons_append]

/-- Every character is a separator or in a piece. -/
theorem mem_splitOn (sep : Char) {cs : List Char} {c : Char} (hc : c ∈ cs) :
    c = sep ∨ ∃ piece ∈ splitOn sep cs, c ∈ piece := by
  induction cs with
  | nil => cases hc
  | cons d rest ih =>
      by_cases hsep : d = sep
      · subst hsep
        rw [splitOn_cons_sep]
        rcases List.mem_cons.mp hc with rfl | hc
        · exact Or.inl rfl
        · refine (ih hc).imp_right ?_
          rintro ⟨piece, hpiece, hmem⟩
          exact ⟨piece, List.mem_cons_of_mem _ hpiece, hmem⟩
      · obtain ⟨piece, pieces, hrest, heq⟩ := splitOn_cons_ne hsep rest
        rw [heq]
        rcases List.mem_cons.mp hc with rfl | hc
        · exact Or.inr ⟨_, List.mem_cons_self, List.mem_cons_self⟩
        · refine (ih hc).imp_right ?_
          rintro ⟨piece', hpiece, hmem⟩
          rw [hrest] at hpiece
          rcases List.mem_cons.mp hpiece with rfl | hpiece
          · exact ⟨_, List.mem_cons_self, List.mem_cons_of_mem _ hmem⟩
          · exact ⟨piece', List.mem_cons_of_mem _ hpiece, hmem⟩

/-- The pieces, and a separator between any two. -/
theorem length_splitOn (sep : Char) (cs : List Char) :
    ((splitOn sep cs).map List.length).sum + (splitOn sep cs).length = cs.length + 1 := by
  induction cs with
  | nil => rfl
  | cons c rest ih =>
      by_cases hsep : c = sep
      · subst hsep
        rw [splitOn_cons_sep]
        simp only [List.map_cons, List.sum_cons, List.length_cons, List.length_nil]
        omega
      · obtain ⟨piece, pieces, hrest, heq⟩ := splitOn_cons_ne hsep rest
        rw [hrest] at ih
        rw [heq]
        simp only [List.map_cons, List.sum_cons, List.length_cons] at ih ⊢
        omega

/-! ## Joining -/

/-- The characters of a joined text. -/
theorem mem_intercalate {c sep : Char} {parts : List (List Char)}
    (hc : c ∈ [sep].intercalate parts) : c = sep ∨ ∃ part ∈ parts, c ∈ part := by
  induction parts with
  | nil => simp at hc
  | cons part parts ih =>
      cases parts with
      | nil => exact Or.inr ⟨part, List.mem_cons_self, by simpa using hc⟩
      | cons next rest =>
          rw [List.intercalate_cons_cons, List.append_assoc, List.mem_append, List.mem_append,
            List.mem_singleton] at hc
          rcases hc with hc | rfl | hc
          · exact Or.inr ⟨part, List.mem_cons_self, hc⟩
          · exact Or.inl rfl
          · refine (ih hc).imp_right ?_
            rintro ⟨part', hpart', hmem⟩
            exact ⟨part', List.mem_cons_of_mem _ hpart', hmem⟩

theorem mem_intercalate_of_mem {c sep : Char} {parts : List (List Char)} {part : List Char}
    (hpart : part ∈ parts) (hc : c ∈ part) : c ∈ [sep].intercalate parts := by
  induction parts with
  | nil => cases hpart
  | cons head parts ih =>
      cases parts with
      | nil =>
          rw [List.intercalate_singleton, ← List.mem_singleton.mp hpart]
          exact hc
      | cons next rest =>
          rw [List.intercalate_cons_cons, List.append_assoc]
          rcases List.mem_cons.mp hpart with rfl | hpart
          · exact List.mem_append_left _ hc
          · exact List.mem_append_right _ (List.mem_append_right _ (ih hpart))

/-- Splitting a joined text gives its parts back. -/
theorem splitOn_intercalate {sep : Char} {parts : List (List Char)} (hne : parts ≠ [])
    (hfree : ∀ part ∈ parts, sep ∉ part) : splitOn sep ([sep].intercalate parts) = parts := by
  induction parts with
  | nil => exact absurd rfl hne
  | cons part parts ih =>
      cases parts with
      | nil =>
          rw [List.intercalate_singleton]
          exact splitOn_of_not_mem (hfree part List.mem_cons_self)
      | cons next rest =>
          rw [List.intercalate_cons_cons, List.append_assoc, List.singleton_append,
            splitOn_append_sep, splitOn_of_not_mem (hfree part List.mem_cons_self),
            ih (by simp) (fun part' h => hfree part' (List.mem_cons_of_mem _ h))]
          rfl

/-! ## Cutting at a separator -/

section Cut

variable {α : Type u} {sep : α} {a a' b b' : List α}

/-- The first separator cuts a text in one way. -/
theorem append_sep_inj (ha : sep ∉ a) (ha' : sep ∉ a') :
    a ++ sep :: b = a' ++ sep :: b' ↔ a = a' ∧ b = b' := by
  constructor
  · intro heq
    induction a generalizing a' with
    | nil =>
        cases a' with
        | nil => exact ⟨rfl, (List.cons.inj heq).2⟩
        | cons x rest => exact absurd ((List.cons.inj heq).1 ▸ List.mem_cons_self) ha'
    | cons x rest ih =>
        cases a' with
        | nil => exact absurd ((List.cons.inj heq).1 ▸ List.mem_cons_self) ha
        | cons y rest' =>
            obtain ⟨rfl, htail⟩ := List.cons.inj heq
            rw [List.mem_cons, not_or] at ha ha'
            obtain ⟨rfl, rfl⟩ := ih ha.2 ha'.2 htail
            exact ⟨rfl, rfl⟩
  · rintro ⟨rfl, rfl⟩
    rfl

/-- The last separator cuts a text in one way. -/
theorem append_sep_inj_last (hb : sep ∉ b) (hb' : sep ∉ b') :
    a ++ sep :: b = a' ++ sep :: b' ↔ a = a' ∧ b = b' := by
  have hreverse : a ++ sep :: b = a' ++ sep :: b' ↔
      b.reverse ++ sep :: a.reverse = b'.reverse ++ sep :: a'.reverse := by
    rw [← List.reverse_inj]
    simp only [List.reverse_append, List.reverse_cons, List.append_assoc, List.singleton_append]
  rw [hreverse, append_sep_inj (mt List.mem_reverse.mp hb) (mt List.mem_reverse.mp hb'),
    List.reverse_inj, List.reverse_inj, and_comm]

end Cut

/-! ## The text of a path -/

/-- A name as it can stand between slashes. -/
def IsPart (s : String) : Prop := s ≠ "" ∧ '/' ∉ s.toList

section PathText

variable {α : Type u} (part : α → String)

/-- `parts.join('/')`. -/
def pathText (p : List α) : String := joinWith "/" (p.map part)

@[simp] theorem pathText_nil : pathText part [] = "" := rfl

theorem pathText_singleton (a : α) : pathText part [a] = part a := rfl

theorem pathText_cons_cons (a b : α) (p : List α) :
    pathText part (a :: b :: p) = part a ++ "/" ++ pathText part (b :: p) := rfl

theorem pathText_append {p q : List α} (hp : p ≠ []) (hq : q ≠ []) :
    pathText part (p ++ q) = pathText part p ++ "/" ++ pathText part q := by
  induction p with
  | nil => exact absurd rfl hp
  | cons a rest ih =>
      cases rest with
      | nil =>
          cases q with
          | nil => exact absurd rfl hq
          | cons b q => rfl
      | cons b rest =>
          rw [List.cons_append, List.cons_append, pathText_cons_cons, ← List.cons_append,
            ih (List.cons_ne_nil _ _), pathText_cons_cons]
          simp only [String.append_assoc]

variable {part} (hpart : ∀ a, IsPart (part a))

include hpart

/-- The text says what the parts are. -/
theorem splitOn_pathText {p : List α} (hp : p ≠ []) :
    splitOn '/' (pathText part p).toList = p.map fun a => (part a).toList := by
  induction p with
  | nil => exact absurd rfl hp
  | cons a rest ih =>
      cases rest with
      | nil => exact splitOn_of_not_mem (hpart a).2
      | cons b rest =>
          rw [pathText_cons_cons, String.toList_append, String.toList_append, List.append_assoc]
          change splitOn '/' ((part a).toList ++ '/' :: (pathText part (b :: rest)).toList) = _
          rw [splitOn_append_sep, splitOn_of_not_mem (hpart a).2, ih (List.cons_ne_nil _ _)]
          rfl

theorem pathText_ne_empty {p : List α} (hp : p ≠ []) : pathText part p ≠ "" := by
  cases p with
  | nil => exact absurd rfl hp
  | cons a rest =>
      cases rest with
      | nil => exact (hpart a).1
      | cons b rest =>
          intro h
          have hlist := congrArg String.toList h
          rw [pathText_cons_cons, String.toList_append, String.toList_append] at hlist
          simp at hlist

theorem pathText_injective (hinj : Function.Injective part) :
    Function.Injective (pathText part) := by
  have hlist : Function.Injective fun a => (part a).toList :=
    fun a b h => hinj (String.toList_injective h)
  intro p q heq
  by_cases hp : p = []
  · by_cases hq : q = []
    · rw [hp, hq]
    · rw [hp, pathText_nil] at heq
      exact absurd heq.symm (pathText_ne_empty hpart hq)
  · by_cases hq : q = []
    · rw [hq, pathText_nil] at heq
      exact absurd heq (pathText_ne_empty hpart hp)
    · have hsplit := splitOn_pathText hpart hp
      rw [heq, splitOn_pathText hpart hq] at hsplit
      exact hlist.list_map hsplit.symm

/-- What begins with a directory's text and a slash lies below the directory. -/
theorem startsWith_pathText_iff (hinj : Function.Injective part) {d p : List α} (hd : d ≠ []) :
    startsWith (pathText part p) (pathText part d ++ "/") = true ↔ d <+: p ∧ d ≠ p := by
  have hlist : Function.Injective fun a => (part a).toList :=
    fun a b h => hinj (String.toList_injective h)
  unfold startsWith
  rw [List.isPrefixOf_iff_prefix]
  constructor
  · rintro ⟨rest, hrest⟩
    have hp : p ≠ [] := by
      rintro rfl
      have hlength := congrArg List.length hrest
      simp at hlength
    rw [String.toList_append, List.append_assoc] at hrest
    change (pathText part d).toList ++ '/' :: rest = _ at hrest
    have hsplit := splitOn_pathText hpart hp
    rw [← hrest, splitOn_append_sep, splitOn_pathText hpart hd] at hsplit
    have hprefix : d.map (fun a => (part a).toList) <+: p.map fun a => (part a).toList :=
      ⟨_, hsplit⟩
    refine ⟨(List.prefix_map_iff_of_injective hlist).mp hprefix, ?_⟩
    rintro rfl
    have hlength := congrArg List.length hsplit
    rw [List.length_append] at hlength
    exact splitOn_ne_nil '/' rest (List.length_eq_zero_iff.mp (by omega))
  · rintro ⟨⟨e, rfl⟩, hne⟩
    have he : e ≠ [] := by
      rintro rfl
      exact hne (List.append_nil d).symm
    have htext : (pathText part (d ++ e)).toList =
        (pathText part d ++ "/").toList ++ (pathText part e).toList := by
      rw [pathText_append part hd he]
      exact String.toList_append
    rw [htext]
    exact List.prefix_append _ _

end PathText

end Foundation
end Ctem
