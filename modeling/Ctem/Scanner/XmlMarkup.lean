import Ctem.Scanner.AwsXml

/-!
# What the scanner passes over

The two searches of `extractTagBlocks` over a piece of rendered XML in which no `İ` stands.

* `Passes` of character data, of an end tag and of a tag with another name.
* `findOpenTag_tag`: a tag of the name is found where it stands.
-/

namespace Ctem
namespace Scanner

open Foundation

variable {lower : LowerCase} {tag name : XmlName} {x rest body tail : List Nat}

/-! ## Passing over -/

theorem needle_eq (lower : LowerCase) (tag : XmlName) :
    lower.text (60 :: tag.units) = 60 :: lower.text tag.units :=
  lower.text_cons (by decide)

theorem closeTag_units (tag : XmlName) : closeTag tag.units = endTag tag := rfl

theorem indexOf_at_end (hplain : dottedI ∉ x) (hsplit : lower.Splits x rest)
    (needle : List Nat) :
    indexOf (lower.text (x ++ rest)) needle x.length =
      (indexOf (lower.text rest) needle 0).map fun i => x.length + i :=
  indexOf_behind hplain hsplit needle 0

/-- Searches that find the same candidate find the same tag. -/
theorem findOpenTag_of_index (hplain : dottedI ∉ x) (hsplit : lower.Splits x rest) {i : Nat}
    (hi : i ≤ x.length)
    (h : indexOf (lower.text (x ++ rest)) (lower.text (60 :: tag.units)) i =
      indexOf (lower.text (x ++ rest)) (lower.text (60 :: tag.units)) x.length) :
    findOpenTag lower (x ++ rest) tag.units i =
      (findOpenTag lower rest tag.units 0).map (OpenTag.shift x.length) := by
  rw [← findOpenTag_behind hplain hsplit, Nat.add_zero]
  cases hindex : indexOf (lower.text (x ++ rest)) (lower.text (60 :: tag.units)) x.length with
  | none =>
      rw [hindex] at h
      rw [findOpenTag_none _ _ _ h, findOpenTag_none _ _ _ hindex]
  | some start =>
      have hne : rest ≠ [] := by
        rintro rfl
        rw [needle_eq] at hindex
        have hlength := length_of_indexOf (List.cons_ne_nil _ _) hindex
        have hle := le_of_indexOf hindex
        rw [List.append_nil, lower.length_of_not_mem hplain, List.length_cons] at hlength
        omega
      have hlt : x.length < (x ++ rest).length := by
        have hpos := List.length_pos_iff.mpr hne
        rw [List.length_append]
        omega
      rw [hindex] at h
      rw [findOpenTag_some _ _ _ (Nat.lt_of_le_of_lt hi hlt) h, findOpenTag_some _ _ _ hlt hindex]

/-- Character data in front of mark-up. -/
theorem passes_text (tag : XmlName) (hx : 60 ∉ x) (hplain : dottedI ∉ x)
    (hrest : OpensMarkup rest) : Passes lower tag.units x rest := by
  have hsplit : lower.Splits x rest := lower.splits_opens hrest
  have hlength := lower.length_of_not_mem hplain
  have hcopy : 60 ∉ (lower.text x).drop 0 := by
    rw [List.drop_zero, lower.mem_text_iff (by decide)]
    exact hx
  have hskip : ∀ needle, indexOf (lower.text (x ++ rest)) (60 :: needle) 0 =
      indexOf (lower.text (x ++ rest)) (60 :: needle) x.length := by
    intro needle
    rw [hsplit, indexOf_skip (Nat.zero_le _) hcopy, hlength]
  refine ⟨hplain, hsplit, findOpenTag_of_index hplain hsplit (Nat.zero_le _) ?_, ?_⟩
  · rw [needle_eq]
    exact hskip _
  · rw [closeTag_units, lower.text_endTag, hskip, indexOf_at_end hplain hsplit]

theorem text_markup_append (lower : LowerCase) (body rest : List Nat) :
    lower.text (markup body ++ rest) =
      60 :: ((lower.text body ++ [62]) ++ lower.text rest) := by
  rw [lower.splits_markup, lower.text_markup]
  rfl

/-- Behind its first symbol mark-up is passed over. -/
theorem indexOf_inside (hplain : dottedI ∉ markup body) (hlt : 60 ∉ body) (needle : List Nat)
    {i : Nat} (hi : 0 < i) (hle : i ≤ (markup body).length) :
    indexOf (lower.text (markup body ++ rest)) (60 :: needle) i =
      indexOf (lower.text (markup body ++ rest)) (60 :: needle) (markup body).length := by
  obtain ⟨k, rfl⟩ : ∃ k, i = k + 1 := ⟨i - 1, by omega⟩
  have hlength := lower.length_of_not_mem hplain
  have hdrop : 60 ∉ (lower.text (markup body)).drop (k + 1) := by
    rw [lower.text_markup, markup, List.drop_succ_cons]
    intro hmem
    have hbody := List.mem_of_mem_drop hmem
    rw [List.mem_append, List.mem_singleton, lower.mem_text_iff (by decide)] at hbody
    exact hbody.elim hlt (by decide)
  rw [lower.splits_markup, indexOf_skip (by rwa [hlength]) hdrop, hlength]

/-- So is mark-up in front of which the needle does not stand. -/
theorem indexOf_markup (hplain : dottedI ∉ markup body) (hlt : 60 ∉ body) {needle : List Nat}
    (hnot : ¬ needle <+: lower.text body ++ 62 :: lower.text rest) :
    indexOf (lower.text (markup body ++ rest)) (60 :: needle) 0 =
      indexOf (lower.text (markup body ++ rest)) (60 :: needle) (markup body).length := by
  have hcopy : 60 ∉ lower.text body ++ [62] := by
    rw [List.mem_append, List.mem_singleton, not_or, lower.mem_text_iff (by decide)]
    exact ⟨hlt, by decide⟩
  have hstands : ¬ 60 :: needle <+: 60 :: ((lower.text body ++ [62]) ++ lower.text rest) := by
    rw [List.cons_prefix_cons, List.append_assoc, List.singleton_append]
    exact fun h => hnot h.2
  have hlength : (markup body).length = (60 :: (lower.text body ++ [62])).length := by
    rw [← lower.length_of_not_mem hplain, lower.text_markup]
    rfl
  rw [text_markup_append, indexOf_skip_cons hstands hcopy, hlength]

/-- Nothing but a name stands between the marks of a copied name. -/
theorem head_text_name (lower : LowerCase) (name : XmlName) {d : Nat} (hd : d ∈ markSymbols)
    (more : List Nat) : ∀ u, (lower.text name.units ++ more).head? = some u → u ≠ d := by
  intro u hu hud
  cases htext : lower.text name.units with
  | nil => exact lower.text_name_ne_nil name htext
  | cons c cs =>
      rw [htext, List.cons_append, List.head?_cons] at hu
      have hc : c = d := (Option.some.inj hu).trans hud
      refine lower.not_mem_text_name name hd ?_
      rw [htext, hc]
      exact List.mem_cons_self

/-- No end tag is a start tag. -/
theorem findOpenTag_endTag (tag : XmlName) (hplain : dottedI ∉ endTag name) (rest : List Nat) :
    findOpenTag lower (endTag name ++ rest) tag.units 0 =
      (findOpenTag lower rest tag.units 0).map (OpenTag.shift (endTag name).length) := by
  have hlt : 60 ∉ 47 :: name.units := by
    rw [List.mem_cons, not_or]
    exact ⟨by decide, name.not_mem (by decide)⟩
  refine findOpenTag_of_index hplain lower.splits_markup (Nat.zero_le _) ?_
  rw [needle_eq]
  refine indexOf_markup hplain hlt ?_
  rw [lower.text_cons (by decide)]
  rintro ⟨more, hmore⟩
  exact head_text_name lower tag (by decide) more 47 (by rw [hmore]; rfl) rfl

/-- The end tag of another name. -/
theorem passes_endTag (hname : lower.sameName tag name = false)
    (hplain : dottedI ∉ endTag name) (rest : List Nat) :
    Passes lower tag.units (endTag name) rest := by
  have hlt : 60 ∉ 47 :: name.units := by
    rw [List.mem_cons, not_or]
    exact ⟨by decide, name.not_mem (by decide)⟩
  have hcopy : lower.text (47 :: name.units) = 47 :: lower.text name.units :=
    lower.text_cons (by decide)
  refine ⟨hplain, lower.splits_markup, findOpenTag_endTag tag hplain rest, ?_⟩
  rw [closeTag_units, lower.text_endTag, ← indexOf_at_end hplain lower.splits_markup]
  refine indexOf_markup hplain hlt ?_
  rw [hcopy, List.cons_append, List.cons_prefix_cons]
  rintro ⟨-, more, hmore⟩
  rw [List.append_assoc, List.singleton_append] at hmore
  obtain ⟨hsame, -⟩ := append_gt_inj (lower.not_mem_text_name tag (by decide))
    (lower.not_mem_text_name name (by decide)) hmore
  rw [LowerCase.sameName, decide_eq_false_iff_not] at hname
  exact hname hsame.symm

/-! ## Tags -/

/-- What stands behind the name in a tag: attributes, and `/` in one without content. -/
structure TagTail (tail : List Nat) : Prop where
  noMarkup : ∀ u ∈ tail, u ≠ 60 ∧ u ≠ 62
  delimits : ∀ u, tail.head? = some u → u = 32 ∨ u = 47

theorem tagTail_attributes (attributes : List XmlAttribute) :
    TagTail (attributeUnits attributes) := by
  refine ⟨fun u hu => mem_attributeUnits hu, fun u hu => ?_⟩
  rcases head?_attributeUnits attributes with hnil | ⟨more, hcons⟩
  · rw [hnil] at hu
    cases hu
  · rw [hcons] at hu
    exact Or.inl (Option.some.inj hu).symm

theorem tagTail_empty (attributes : List XmlAttribute) :
    TagTail (attributeUnits attributes ++ [47]) := by
  refine ⟨fun u hu => ?_, fun u hu => ?_⟩
  · rcases List.mem_append.mp hu with hattribute | hslash
    · exact mem_attributeUnits hattribute
    · rw [List.mem_singleton.mp hslash]
      decide
  · rcases head?_attributeUnits attributes with hnil | ⟨more, hcons⟩
    · rw [hnil] at hu
      exact Or.inr (Option.some.inj hu).symm
    · rw [hcons] at hu
      exact Or.inl (Option.some.inj hu).symm

/-- A delimiter comes behind the name. -/
theorem TagTail.exists_delimiter (htail : TagTail tail) (rest : List Nat) :
    ∃ d more, tail ++ 62 :: rest = d :: more ∧ d ∈ markSymbols ∧ d ∈ tagDelimiters := by
  cases tail with
  | nil => exact ⟨62, rest, rfl, by decide, by decide⟩
  | cons d tail =>
      refine ⟨d, tail ++ 62 :: rest, rfl, ?_⟩
      rcases htail.delimits d rfl with rfl | rfl
      · exact ⟨by decide, by decide⟩
      · exact ⟨by decide, by decide⟩

theorem TagTail.not_mem_body (htail : TagTail tail) (name : XmlName) :
    60 ∉ name.units ++ tail ∧ 62 ∉ name.units ++ tail := by
  constructor
  · rw [List.mem_append, not_or]
    exact ⟨name.not_mem (by decide), fun h => (htail.noMarkup 60 h).1 rfl⟩
  · rw [List.mem_append, not_or]
    exact ⟨name.not_mem (by decide), fun h => (htail.noMarkup 62 h).2 rfl⟩

/-- The copy of a tag: its name, and a delimiter. -/
theorem TagTail.exists_copy (htail : TagTail tail) (lower : LowerCase) (name : XmlName)
    (rest : List Nat) :
    ∃ d more, d ∈ markSymbols ∧
      lower.text (name.units ++ tail) ++ 62 :: lower.text rest =
        lower.text name.units ++ d :: more := by
  obtain ⟨d, more, heq, hd, -⟩ := htail.exists_delimiter rest
  refine ⟨d, lower.text more, hd, ?_⟩
  rw [← lower.split _ _ 62 (by decide), List.append_assoc, heq, lower.split _ _ d hd]

/-- Nor is a start tag an end tag. -/
theorem indexOf_tag (tag : XmlName) (htail : TagTail tail)
    (hplain : dottedI ∉ markup (name.units ++ tail)) (rest : List Nat) :
    indexOf (lower.text (markup (name.units ++ tail) ++ rest))
        (lower.text (closeTag tag.units)) 0 =
      (indexOf (lower.text rest) (lower.text (closeTag tag.units)) 0).map
        fun c => (markup (name.units ++ tail)).length + c := by
  obtain ⟨d, more, -, hcopy⟩ := htail.exists_copy lower name rest
  rw [closeTag_units, lower.text_endTag, ← indexOf_at_end hplain lower.splits_markup]
  refine indexOf_markup hplain (htail.not_mem_body name).1 ?_
  rw [hcopy]
  rintro ⟨later, hlater⟩
  exact head_text_name lower name (by decide) (d :: more) 47 (by rw [← hlater]; rfl) rfl

/-- A start tag of another name, or one without content. -/
theorem passes_tag (hname : lower.sameName tag name = false) (htag : dottedI ∉ tag.units)
    (htail : TagTail tail) (hplain : dottedI ∉ markup (name.units ++ tail)) (rest : List Nat) :
    Passes lower tag.units (markup (name.units ++ tail)) rest := by
  obtain ⟨hlt, -⟩ := htail.not_mem_body name
  obtain ⟨d, more, hd, hcopy⟩ := htail.exists_copy lower name rest
  have hother : lower.text name.units ≠ lower.text tag.units := of_decide_eq_false hname
  have hsplit : lower.Splits (markup (name.units ++ tail)) rest := lower.splits_markup
  refine ⟨hplain, hsplit, ?_, indexOf_tag tag htail hplain rest⟩
  · by_cases hstands : lower.text tag.units <+:
        lower.text (name.units ++ tail) ++ 62 :: lower.text rest
    · -- the name goes on where the other one ends, with no delimiter there
      have hstart : indexOf (lower.text (markup (name.units ++ tail) ++ rest))
          (lower.text (60 :: tag.units)) 0 = some 0 := by
        refine indexOf_of_stands ?_
        rw [needle_eq, List.drop_zero, text_markup_append, List.cons_prefix_cons,
          List.append_assoc, List.singleton_append]
        exact ⟨rfl, hstands⟩
      have hlonger : tag.units.length < name.units.length := by
        have hnameUnits : dottedI ∉ name.units := fun h =>
          hplain (List.mem_cons_of_mem _ (List.mem_append_left _ (List.mem_append_left _ h)))
        rw [← lower.length_of_not_mem htag, ← lower.length_of_not_mem hnameUnits]
        obtain ⟨later, hlater⟩ := hstands
        rw [hcopy] at hlater
        rcases List.append_eq_append_iff.mp hlater with ⟨w, hw, -⟩ | ⟨w, hw, hmore⟩
        · cases w with
          | nil =>
              rw [List.append_nil] at hw
              exact absurd hw hother
          | cons u w =>
              rw [hw, List.length_append, List.length_cons]
              omega
        · cases w with
          | nil =>
              rw [List.append_nil] at hw
              exact absurd hw.symm hother
          | cons u w =>
              rw [List.cons_append, List.cons.injEq] at hmore
              refine absurd ?_ (lower.not_mem_text_name tag hd)
              rw [hw, hmore.1]
              exact List.mem_append_right _ List.mem_cons_self
      have hunit : (markup (name.units ++ tail) ++ rest)[0 + (tag.units.length + 1)]? =
          name.units[tag.units.length]? := by
        rw [Nat.zero_add, markup, List.cons_append, List.getElem?_cons_succ, List.append_assoc,
          List.append_assoc, List.getElem?_append_left hlonger]
      have hnot : ¬ (name.units[tag.units.length]?.any tagDelimiters.contains) = true := by
        rw [List.getElem?_eq_getElem hlonger, Option.any_some, List.contains_iff_mem]
        intro hdelimiter
        have hmark : name.units[tag.units.length] ∈ markSymbols := by
          simp only [tagDelimiters, List.mem_cons, List.not_mem_nil, or_false] at hdelimiter
          simp only [markSymbols, List.mem_cons, List.not_mem_nil, or_false]
          omega
        exact name.not_mem hmark (List.getElem_mem hlonger)
      have hlength : tag.units.length + 1 ≤ (markup (name.units ++ tail)).length := by
        simp only [markup, List.length_cons, List.length_append]
        omega
      rw [findOpenTag_some _ _ _ (by simp [markup]) hstart, hunit, if_neg hnot, Nat.zero_add]
      refine findOpenTag_of_index hplain hsplit hlength ?_
      rw [needle_eq]
      exact indexOf_inside hplain hlt _ (Nat.succ_pos _) hlength
    · refine findOpenTag_of_index hplain hsplit (Nat.zero_le _) ?_
      rw [needle_eq]
      exact indexOf_markup hplain hlt hstands

/-- A tag of the name is found where it stands. -/
theorem findOpenTag_tag (hname : lower.sameName tag name = true) (htag : dottedI ∉ tag.units)
    (hunits : dottedI ∉ name.units) (htail : TagTail tail) (rest : List Nat) :
    findOpenTag lower (markup (name.units ++ tail) ++ rest) tag.units 0 =
      some ⟨0, (markup (name.units ++ tail)).length,
        (name.units ++ tail).getLast? == some 47⟩ := by
  have hsame : lower.text name.units = lower.text tag.units := of_decide_eq_true hname
  obtain ⟨d, more, hd, hcopy⟩ := htail.exists_copy lower name rest
  obtain ⟨e, more', htext, -, hdelimiter⟩ := htail.exists_delimiter rest
  have hlength : tag.units.length = name.units.length := by
    rw [← lower.length_of_not_mem htag, ← lower.length_of_not_mem hunits, hsame]
  have hstart : indexOf (lower.text (markup (name.units ++ tail) ++ rest))
      (lower.text (60 :: tag.units)) 0 = some 0 := by
    refine indexOf_of_stands ?_
    rw [needle_eq, List.drop_zero, text_markup_append, List.cons_prefix_cons,
      List.append_assoc, List.singleton_append, hcopy, hsame]
    exact ⟨rfl, List.prefix_append _ _⟩
  have hxml : markup (name.units ++ tail) ++ rest = (60 :: name.units) ++ (tail ++ 62 :: rest) := by
    simp [markup]
  have hgt : indexOf (tail ++ 62 :: rest) [62] 0 = some tail.length := by
    rw [indexOf_skip (Nat.zero_le _) fun h => (htail.noMarkup 62 h).2 rfl]
    refine indexOf_of_stands ?_
    rw [List.drop_left]
    exact List.prefix_append [62] rest
  have hafter : 0 + (tag.units.length + 1) = (60 :: name.units).length + 0 := by
    rw [List.length_cons, hlength]
    omega
  rw [findOpenTag_some _ _ _ (by simp [markup]) hstart, hxml, hafter,
    List.getElem?_append_right (Nat.le_add_right _ _), Nat.add_sub_cancel_left, indexOf_append,
    htext, List.getElem?_cons_zero, Option.any_some, if_pos (List.contains_iff_mem.mpr hdelimiter),
    ← htext, hgt]
  -- the unit in front of `>`
  have hne : name.units ++ tail ≠ [] := List.append_ne_nil_of_left_ne_nil name.nonempty tail
  have hpos := List.length_pos_iff.mpr hne
  have hlast : ((60 :: name.units) ++ (tail ++ 62 :: rest))[
      (60 :: name.units).length + tail.length - 1]? = (name.units ++ tail).getLast? := by
    have hindex : (60 :: name.units).length + tail.length - 1 =
        ((name.units ++ tail).length - 1) + 1 := by
      simp only [List.length_cons, List.length_append] at hpos ⊢
      omega
    rw [hindex, List.cons_append, List.getElem?_cons_succ, ← List.append_assoc,
      List.getElem?_append_left (by omega), List.getLast?_eq_getElem?]
  simp only [Option.map_some, hlast, Option.some.injEq, OpenTag.mk.injEq, true_and, and_true]
  simp only [markup, List.length_cons, List.length_append, List.length_nil]
  omega

theorem getLast?_startTag (name : XmlName) (attributes : List XmlAttribute) :
    ((name.units ++ attributeUnits attributes).getLast? == some 47) = false := by
  rw [beq_eq_false_iff_ne]
  intro hlast
  by_cases hattributes : attributes = []
  · subst hattributes
    rw [show attributeUnits [] = [] from rfl, List.append_nil] at hlast
    exact name.not_mem (by decide) (List.mem_of_getLast? hlast)
  · rw [List.getLast?_append, getLast?_attributeUnits hattributes, Option.some_or] at hlast
    cases hlast

theorem getLast?_emptyTag (name : XmlName) (attributes : List XmlAttribute) :
    ((name.units ++ (attributeUnits attributes ++ [47])).getLast? == some 47) = true := by
  rw [← List.append_assoc, List.getLast?_concat]
  rfl

end Scanner
end Ctem
