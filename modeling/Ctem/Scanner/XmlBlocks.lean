import Ctem.Scanner.XmlMarkup

/-!
# The blocks of rendered XML

Over a rendered tree, with no `İ` in front of the end tags of the name, `extractTagBlocks`
cuts out the contents of the outermost elements of the name.

* `contentEnd_children`: the depth behind elements is the depth in front of them.
* `extractTagBlocks_children`: the blocks of elements, in front of any other text.
* `extractTagBlocks_eq_outermost`: behind the last end tag of the name anything may stand.
* `head?_extractTagBlocks_ne`: with an `İ` in it the first block is another text.
-/

namespace Ctem
namespace Scanner

open Foundation

variable {lower : LowerCase} {tag name : XmlName} {x rest tail : List Nat}

/-! ## The depth -/

theorem map_add (o : Option Nat) (x y : List Nat) :
    (o.map fun i => y.length + i).map (fun i => x.length + i) =
      o.map fun i => (x ++ y).length + i := by
  rw [Option.map_map]
  congr 1
  funext i
  rw [Function.comp_apply, List.length_append, Nat.add_assoc]

/-- A tag of the name is read, and counted when content follows. -/
theorem contentEnd_tag (hname : lower.sameName tag name = true) (htag : dottedI ∉ tag.units)
    (htail : TagTail tail) (hplain : dottedI ∉ markup (name.units ++ tail)) (rest : List Nat)
    (depth : Nat) :
    contentEnd lower (markup (name.units ++ tail) ++ rest) tag.units 0 depth =
      (contentEnd lower rest tag.units 0
        (if (name.units ++ tail).getLast? == some 47 then depth else depth + 1)).map
          fun i => (markup (name.units ++ tail)).length + i := by
  have hunits : dottedI ∉ name.units := fun h =>
    hplain (List.mem_cons_of_mem _ (List.mem_append_left _ (List.mem_append_left _ h)))
  have hclose := @indexOf_tag lower _ _ tag htail hplain rest
  cases hindex : indexOf (lower.text rest) (lower.text (closeTag tag.units)) 0 with
  | none =>
      rw [hindex, Option.map_none] at hclose
      rw [contentEnd_none _ _ _ hindex, contentEnd_none _ _ _ hclose, Option.map_none]
  | some nextClose =>
      rw [hindex, Option.map_some] at hclose
      have hstart : 0 < (markup (name.units ++ tail)).length + nextClose := by
        simp only [markup, List.length_cons]
        omega
      rw [contentEnd_some _ _ _ (by simp [markup]) hclose,
        findOpenTag_tag hname htag hunits htail, Option.filter_some,
        if_pos (decide_eq_true hstart), Option.elim_some]
      exact contentEnd_behind hplain lower.splits_markup 0 _

/-- An end tag of the name is where the content ends, or one level is left. -/
theorem contentEnd_endTag (hname : lower.sameName tag name = true) (htag : dottedI ∉ tag.units)
    (hplain : dottedI ∉ endTag name) (rest : List Nat) (depth : Nat) :
    contentEnd lower (endTag name ++ rest) tag.units 0 (depth + 1) =
      if depth = 0 then some 0
      else (contentEnd lower rest tag.units 0 depth).map fun i => (endTag name).length + i := by
  have hsame : lower.text name.units = lower.text tag.units := of_decide_eq_true hname
  have hunits : dottedI ∉ name.units := fun h =>
    hplain (List.mem_cons_of_mem _ (List.mem_cons_of_mem _ (List.mem_append_left _ h)))
  have hclose : indexOf (lower.text (endTag name ++ rest)) (lower.text (closeTag tag.units)) 0 =
      some 0 := by
    have hsplit : lower.Splits (endTag name) rest := lower.splits_markup
    refine indexOf_of_stands ?_
    rw [List.drop_zero, closeTag_units, hsplit, lower.text_endTag, lower.text_endTag, hsame]
    exact List.prefix_append _ _
  have hlength : (closeTag tag.units).length = (endTag name).length := by
    have hunitLengths : tag.units.length = name.units.length := by
      rw [← lower.length_of_not_mem htag, ← lower.length_of_not_mem hunits, hsame]
    simp only [closeTag_units, endTag, markup, List.length_cons, List.length_append, hunitLengths]
  have hnone : ((findOpenTag lower (endTag name ++ rest) tag.units 0).filter
      fun o => decide (o.start < 0)) = none := by
    cases findOpenTag lower (endTag name ++ rest) tag.units 0 with
    | none => rfl
    | some o => rw [Option.filter_some, if_neg (by simp)]
  rw [contentEnd_some _ _ _ (by simp [endTag, markup]) hclose, hnone, Option.elim_none,
    hlength]
  by_cases hdepth : depth = 0
  · rw [if_pos (by rw [hdepth]), if_pos hdepth]
  · rw [if_neg (by omega), if_neg hdepth, Nat.add_sub_cancel, Nat.zero_add]
    exact contentEnd_behind hplain lower.splits_markup 0 depth

mutual

/-- An element closes what it opens. -/
theorem contentEnd_element (htag : dottedI ∉ tag.units) : (element : XmlElement) →
    dottedI ∉ element.render → ∀ rest depth,
    contentEnd lower (element.render ++ rest) tag.units 0 (depth + 1) =
      (contentEnd lower rest tag.units 0 (depth + 1)).map fun i => element.render.length + i
  | .empty name attributes, hplain, rest, depth => by
      have htail := tagTail_empty attributes
      cases hname : lower.sameName tag name with
      | false => exact (passes_tag hname htag htail hplain rest).contentEnd (depth + 1)
      | true =>
          have h := contentEnd_tag hname htag htail hplain rest (depth + 1)
          rw [getLast?_emptyTag, if_pos rfl] at h
          exact h
  | .node name attributes text children, hplain, rest, depth => by
      rw [XmlElement.render] at hplain ⊢
      simp only [List.mem_append, not_or] at hplain
      obtain ⟨hstart, htext, hchildren, hend⟩ := hplain
      have htail := tagTail_attributes attributes
      have hbehind : OpensMarkup (endTag name ++ rest) := opensMarkup_markup _ _
      have hopens : OpensMarkup (children.render ++ (endTag name ++ rest)) :=
        children.opensMarkup hbehind
      simp only [List.append_assoc]
      rw [← map_add, ← map_add, ← map_add]
      cases hname : lower.sameName tag name with
      | false =>
          have h := (passes_tag hname htag htail hstart
            (text.units ++ (children.render ++ (endTag name ++ rest)))).contentEnd (depth + 1)
          refine h.trans ?_
          rw [(passes_text tag text.noMarkup htext hopens).contentEnd,
            contentEnd_children htag children hchildren _ hbehind,
            (passes_endTag hname hend rest).contentEnd]
          rfl
      | true =>
          have h := contentEnd_tag hname htag htail hstart
            (text.units ++ (children.render ++ (endTag name ++ rest))) (depth + 1)
          rw [getLast?_startTag, if_neg Bool.false_ne_true] at h
          refine h.trans ?_
          rw [(passes_text tag text.noMarkup htext hopens).contentEnd,
            contentEnd_children htag children hchildren _ hbehind,
            contentEnd_endTag hname htag hend, if_neg (Nat.succ_ne_zero depth)]
          rfl

theorem contentEnd_children (htag : dottedI ∉ tag.units) : (children : XmlChildren) →
    dottedI ∉ children.render → ∀ rest, OpensMarkup rest → ∀ depth,
    contentEnd lower (children.render ++ rest) tag.units 0 (depth + 1) =
      (contentEnd lower rest tag.units 0 (depth + 1)).map fun i => children.render.length + i
  | .nil, _, rest, _, depth => by
      rw [XmlChildren.render, List.nil_append]
      simp
  | .cons element text later, hplain, rest, hrest, depth => by
      rw [XmlChildren.render] at hplain ⊢
      simp only [List.mem_append, not_or] at hplain
      obtain ⟨helement, htext, hlater⟩ := hplain
      simp only [List.append_assoc]
      rw [← map_add, ← map_add, contentEnd_element htag element helement,
        (passes_text tag text.noMarkup htext (later.opensMarkup hrest)).contentEnd,
        contentEnd_children htag later hlater rest hrest]

end

/-- From behind its start tag, the end of an element is found. -/
theorem contentEnd_content (hname : lower.sameName tag name = true) (htag : dottedI ∉ tag.units)
    (content : XmlContent) (hplain : dottedI ∉ content.render) (hend : dottedI ∉ endTag name)
    (rest : List Nat) :
    contentEnd lower (content.render ++ (endTag name ++ rest)) tag.units 0 1 =
      some content.render.length := by
  obtain ⟨text, children⟩ := content
  simp only [XmlContent.render, List.mem_append, not_or] at hplain ⊢
  have hbehind : OpensMarkup (endTag name ++ rest) := opensMarkup_markup _ _
  rw [List.append_assoc,
    (passes_text tag text.noMarkup hplain.1 (children.opensMarkup hbehind)).contentEnd,
    contentEnd_children htag children hplain.2 _ hbehind, contentEnd_endTag hname htag hend,
    if_pos rfl, map_add, Option.map_some, Nat.add_zero]

/-! ## The blocks -/

/-- A tag of the name without content is left behind. -/
theorem extractTagBlocks_emptyTag (hname : lower.sameName tag name = true)
    (htag : dottedI ∉ tag.units) {attributes : List XmlAttribute}
    (hplain : dottedI ∉ emptyTag name attributes) (rest : List Nat) :
    extractTagBlocks lower (emptyTag name attributes ++ rest) tag.units =
      extractTagBlocks lower rest tag.units := by
  have hunits : dottedI ∉ name.units := fun h =>
    hplain (List.mem_cons_of_mem _ (List.mem_append_left _ (List.mem_append_left _ h)))
  have hopen := findOpenTag_tag hname htag hunits (tagTail_empty attributes) rest
  rw [getLast?_emptyTag] at hopen
  have hsome := extractFrom_some _ _ _ hopen
  rw [if_pos rfl] at hsome
  exact hsome.trans (extractFrom_behind hplain lower.splits_markup 0)

/-- The content of an element of the name is cut out. -/
theorem extractTagBlocks_node (hname : lower.sameName tag name = true)
    (htag : dottedI ∉ tag.units) {attributes : List XmlAttribute} {content : XmlContent}
    (hstart : dottedI ∉ startTag name attributes) (hplain : dottedI ∉ content.render)
    (hend : dottedI ∉ endTag name) (rest : List Nat) :
    extractTagBlocks lower
        (startTag name attributes ++ (content.render ++ (endTag name ++ rest))) tag.units =
      content.render :: extractTagBlocks lower rest tag.units := by
  have hsame : lower.text name.units = lower.text tag.units := of_decide_eq_true hname
  have hunits : dottedI ∉ name.units := fun h =>
    hstart (List.mem_cons_of_mem _ (List.mem_append_left _ (List.mem_append_left _ h)))
  have hlength : (closeTag tag.units).length = (endTag name).length := by
    have hunitLengths : tag.units.length = name.units.length := by
      rw [← lower.length_of_not_mem htag, ← lower.length_of_not_mem hunits, hsame]
    simp only [closeTag_units, endTag, markup, List.length_cons, List.length_append, hunitLengths]
  have hsplitStart : lower.Splits (startTag name attributes)
      (content.render ++ (endTag name ++ rest)) := lower.splits_markup
  have hsplitContent : lower.Splits content.render (endTag name ++ rest) :=
    lower.splits_opens (opensMarkup_markup _ _)
  have hopen := findOpenTag_tag hname htag hunits (tagTail_attributes attributes)
    (content.render ++ (endTag name ++ rest))
  rw [getLast?_startTag] at hopen
  have hcontent := @contentEnd_behind lower _ _ tag.units hstart hsplitStart 0 1
  rw [contentEnd_content hname htag content hplain hend rest, Option.map_some,
    Nat.add_zero] at hcontent
  have hslice := sliceUnits_behind (startTag name attributes)
    (content.render ++ (endTag name ++ rest)) 0 content.render.length
  rw [Nat.add_zero] at hslice
  have hsome := extractFrom_some _ _ _ hopen
  rw [if_neg Bool.false_ne_true] at hsome
  refine hsome.trans ?_
  change (contentEnd lower (startTag name attributes ++ (content.render ++ (endTag name ++ rest)))
    tag.units (startTag name attributes).length 1).elim [] _ = _
  rw [hcontent, Option.elim_some, Nat.add_assoc, hlength]
  refine congrArg₂ List.cons ?_ ?_
  · refine hslice.trans ?_
    rw [sliceUnits, List.take_left, List.drop_zero]
  · refine (extractFrom_behind hstart hsplitStart _).trans ?_
    refine (extractFrom_behind hplain hsplitContent _).trans ?_
    exact extractFrom_behind hend lower.splits_markup 0

mutual

theorem extractTagBlocks_element (htag : dottedI ∉ tag.units) : (element : XmlElement) →
    dottedI ∉ element.render → ∀ rest,
    extractTagBlocks lower (element.render ++ rest) tag.units =
      (element.outermost (lower.sameName tag)).map XmlContent.render ++
        extractTagBlocks lower rest tag.units
  | .empty name attributes, hplain, rest => by
      rw [XmlElement.outermost, List.map_nil, List.nil_append]
      cases hname : lower.sameName tag name with
      | false =>
          have hpasses := passes_tag hname htag (tagTail_empty attributes) hplain rest
          exact hpasses.extractTagBlocks
      | true => exact extractTagBlocks_emptyTag hname htag hplain rest
  | .node name attributes text children, hplain, rest => by
      rw [XmlElement.render] at hplain ⊢
      simp only [List.mem_append, not_or] at hplain
      obtain ⟨hstart, htext, hchildren, hend⟩ := hplain
      have hbehind : OpensMarkup (endTag name ++ rest) := opensMarkup_markup _ _
      rw [XmlElement.outermost]
      simp only [List.append_assoc]
      cases hname : lower.sameName tag name with
      | false =>
          have hpasses := passes_tag hname htag (tagTail_attributes attributes) hstart
            (text.units ++ (children.render ++ (endTag name ++ rest)))
          refine hpasses.extractTagBlocks.trans ?_
          rw [if_neg Bool.false_ne_true,
            (passes_text tag text.noMarkup htext (children.opensMarkup hbehind)).extractTagBlocks,
            extractTagBlocks_children htag children hchildren _ hbehind,
            (passes_endTag hname hend rest).extractTagBlocks]
      | true =>
          have hcontent : dottedI ∉ (XmlContent.mk text children).render := by
            rw [XmlContent.render, List.mem_append, not_or]
            exact ⟨htext, hchildren⟩
          have hnode := extractTagBlocks_node hname htag hstart hcontent hend rest
          rw [XmlContent.render, List.append_assoc] at hnode
          rw [if_pos rfl]
          exact hnode

theorem extractTagBlocks_children (htag : dottedI ∉ tag.units) : (children : XmlChildren) →
    dottedI ∉ children.render → ∀ rest, OpensMarkup rest →
    extractTagBlocks lower (children.render ++ rest) tag.units =
      (children.outermost (lower.sameName tag)).map XmlContent.render ++
        extractTagBlocks lower rest tag.units
  | .nil, _, rest, _ => rfl
  | .cons element text later, hplain, rest, hrest => by
      rw [XmlChildren.render] at hplain ⊢
      simp only [List.mem_append, not_or] at hplain
      obtain ⟨helement, htext, hlater⟩ := hplain
      simp only [List.append_assoc]
      rw [XmlChildren.outermost, extractTagBlocks_element htag element helement,
        (passes_text tag text.noMarkup htext (later.opensMarkup hrest)).extractTagBlocks,
        extractTagBlocks_children htag later hlater rest hrest, List.map_append,
        List.append_assoc]

end

/-! ## Behind the last end tag -/

/-- Without an end tag of the name there is no block. -/
theorem extractTagBlocks_of_not_ends (h : ¬ Ends (lower.sameName tag) x) :
    extractTagBlocks lower x tag.units = [] := by
  have hclose : ∀ i, indexOf (lower.text x) (lower.text (closeTag tag.units)) i = none := by
    intro i
    refine indexOf_eq_none fun q hstands => h ?_
    obtain ⟨later, hlater⟩ := hstands
    refine lower.ends_of_text (u := (lower.text x).take (i + q)) (v := later) ?_
    rw [← closeTag_units, hlater, List.take_append_drop]
  have hall : ∀ i, extractFrom lower x tag.units i = [] := by
    intro i
    induction hn : x.length - i using Nat.strong_induction_on generalizing i with
    | _ n ih =>
      cases hopen : findOpenTag lower x tag.units i with
      | none => exact extractFrom_none _ _ _ hopen
      | some o =>
          have hbounds := findOpenTag_bounds _ _ _ hopen
          rw [extractFrom_some _ _ _ hopen]
          split
          · exact ih _ (by omega) o.stop rfl
          · rw [contentEnd_none _ _ _ (hclose o.stop), Option.elim_none]
  exact hall 0

/-- No `İ` stands in front of an end tag of the name, in one, or in the name asked for. -/
def PlainUpToEnds (lower : LowerCase) (tag : XmlName) (xml : List Nat) : Prop :=
  ∀ a name b, lower.sameName tag name = true → xml = a ++ (endTag name ++ b) →
    dottedI ∉ a ∧ dottedI ∉ name.units ∧ dottedI ∉ tag.units

theorem PlainUpToEnds.append_right (h : PlainUpToEnds lower tag (x ++ rest)) :
    PlainUpToEnds lower tag rest := by
  intro a name b hname heq
  obtain ⟨ha, hunits⟩ := h (x ++ a) name b hname (by rw [heq, List.append_assoc])
  exact ⟨fun hmem => ha (List.mem_append_right _ hmem), hunits⟩

theorem PlainUpToEnds.plain (h : PlainUpToEnds lower tag (x ++ rest))
    (hends : Ends (lower.sameName tag) rest) : dottedI ∉ x ∧ dottedI ∉ tag.units := by
  obtain ⟨a, name, b, hname, rfl⟩ := hends
  obtain ⟨ha, -, htag⟩ := h (x ++ a) name b hname (by rw [List.append_assoc])
  exact ⟨fun hmem => ha (List.mem_append_left _ hmem), htag⟩

/-- A text without `İ` meets the condition, for a name without it. -/
theorem PlainUpToEnds.of_not_mem (hx : dottedI ∉ x) (htag : dottedI ∉ tag.units) :
    PlainUpToEnds lower tag x := by
  rintro a name b - rfl
  refine ⟨fun h => hx (List.mem_append_left _ h), fun h => hx ?_, htag⟩
  refine List.mem_append_right _ (List.mem_append_left _ ?_)
  exact List.mem_cons_of_mem _ (List.mem_cons_of_mem _ (List.mem_append_left _ h))

/-- A tag ends no element. -/
theorem ends_of_tag {same : XmlName → Bool} (htail : TagTail tail)
    (h : Ends same (markup (name.units ++ tail) ++ rest)) : Ends same rest := by
  obtain ⟨hlt, hgt⟩ := htail.not_mem_body name
  refine h.of_markup hlt hgt fun other hother => ?_
  cases hunits : name.units with
  | nil => exact absurd hunits name.nonempty
  | cons c cs =>
      rw [hunits, List.cons_append, List.cons.injEq] at hother
      refine absurd ?_ (name.not_mem (d := 47) (by decide))
      rw [hunits, hother.1]
      exact List.mem_cons_self

theorem ends_of_endTag {same : XmlName → Bool} (hname : same name = false)
    (h : Ends same (endTag name ++ rest)) : Ends same rest := by
  refine h.of_markup ?_ ?_ fun other hother => ?_
  · rw [List.mem_cons, not_or]
    exact ⟨by decide, name.not_mem (by decide)⟩
  · rw [List.mem_cons, not_or]
    exact ⟨by decide, name.not_mem (by decide)⟩
  · cases name
    cases other
    obtain rfl := List.tail_eq_of_cons_eq hother
    exact hname

mutual

theorem extractTagBlocks_lastElement : (element : XmlElement) → ∀ rest,
    ¬ Ends (lower.sameName tag) rest → PlainUpToEnds lower tag (element.render ++ rest) →
    extractTagBlocks lower (element.render ++ rest) tag.units =
      (element.outermost (lower.sameName tag)).map XmlContent.render
  | .empty name attributes, rest, hrest, _ =>
      extractTagBlocks_of_not_ends fun h => hrest (ends_of_tag (tagTail_empty attributes) h)
  | .node name attributes text children, rest, hrest, hplain => by
      by_cases hends : Ends (lower.sameName tag)
          (text.units ++ (children.render ++ (endTag name ++ rest)))
      · have hcondition := hplain
        rw [XmlElement.render] at hplain
        simp only [List.append_assoc] at hplain
        obtain ⟨hstart, htag⟩ := hplain.plain hends
        have hbehind : OpensMarkup (endTag name ++ rest) := opensMarkup_markup _ _
        cases hname : lower.sameName tag name with
        | true =>
            -- its end tag is an end tag of the name, so all of it is in front of one
            have hlast : Ends (lower.sameName tag) (endTag name ++ rest) :=
              ⟨[], name, rest, hname, rfl⟩
            have hinner := hplain
            rw [← List.append_assoc, ← List.append_assoc] at hinner
            obtain ⟨hfront, -⟩ := hinner.plain hlast
            obtain ⟨-, hunits, -⟩ := hinner _ name rest hname rfl
            have helement : dottedI ∉ (XmlElement.node name attributes text children).render := by
              rw [XmlElement.render, ← List.append_assoc, ← List.append_assoc, List.mem_append,
                not_or]
              refine ⟨hfront, ?_⟩
              simp only [endTag, markup, List.mem_cons, List.mem_append, List.not_mem_nil,
                or_false, not_or]
              exact ⟨by decide, ⟨by decide, hunits⟩, by decide⟩
            rw [extractTagBlocks_element htag _ helement, extractTagBlocks_of_not_ends hrest,
              List.append_nil]
        | false =>
            have hlater : Ends (lower.sameName tag) (children.render ++ (endTag name ++ rest)) :=
              hends.of_text text.noMarkup
            obtain ⟨htext, -⟩ := hplain.append_right.plain hlater
            have hpasses := passes_tag hname htag (tagTail_attributes attributes) hstart
              (text.units ++ (children.render ++ (endTag name ++ rest)))
            rw [XmlElement.render, XmlElement.outermost, hname, if_neg Bool.false_ne_true]
            simp only [List.append_assoc]
            refine hpasses.extractTagBlocks.trans ?_
            rw [(passes_text tag text.noMarkup htext
              (children.opensMarkup hbehind)).extractTagBlocks]
            exact extractTagBlocks_lastChildren children _ (fun h => hrest (ends_of_endTag hname h))
              hbehind hplain.append_right.append_right
      · have hnone : ¬ Ends (lower.sameName tag)
            ((XmlElement.node name attributes text children).render ++ rest) := by
          intro h
          rw [XmlElement.render] at h
          simp only [List.append_assoc] at h
          exact hends (ends_of_tag (tagTail_attributes attributes) h)
        rw [extractTagBlocks_of_not_ends hnone]
        by_contra hne
        refine hnone (Ends.append_right (XmlElement.ends_of_outermost _ fun houtermost => ?_))
        rw [houtermost] at hne
        exact hne rfl

theorem extractTagBlocks_lastChildren : (children : XmlChildren) → ∀ rest,
    ¬ Ends (lower.sameName tag) rest → OpensMarkup rest →
    PlainUpToEnds lower tag (children.render ++ rest) →
    extractTagBlocks lower (children.render ++ rest) tag.units =
      (children.outermost (lower.sameName tag)).map XmlContent.render
  | .nil, rest, hrest, _, _ => extractTagBlocks_of_not_ends hrest
  | .cons element text later, rest, hrest, hopens, hplain => by
      rw [XmlChildren.render] at hplain ⊢
      simp only [List.append_assoc] at hplain ⊢
      rw [XmlChildren.outermost, List.map_append]
      by_cases hends : Ends (lower.sameName tag) (later.render ++ rest)
      · obtain ⟨helement, htag⟩ := hplain.plain (hends.append_left (x := text.units))
        obtain ⟨htext, -⟩ := hplain.append_right.plain hends
        rw [extractTagBlocks_element htag element helement,
          (passes_text tag text.noMarkup htext (later.opensMarkup hopens)).extractTagBlocks,
          extractTagBlocks_lastChildren later rest hrest hopens hplain.append_right.append_right]
      · have hnone : later.outermost (lower.sameName tag) = [] := by
          by_contra hne
          exact hends (later.ends_of_outermost hne).append_right
        rw [hnone, List.map_nil, List.append_nil]
        exact extractTagBlocks_lastElement element _ (fun h => hends (h.of_text text.noMarkup))
          hplain

end

/-- A declaration is passed over. -/
theorem passes_declaration (tag : XmlName) (declaration : XmlDeclaration)
    (hplain : dottedI ∉ declaration.render) (rest : List Nat) :
    Passes lower tag.units declaration.render rest := by
  have hlt : 60 ∉ 63 :: (declaration.units ++ [63]) := by
    rw [List.mem_cons, List.mem_append, List.mem_singleton, not_or, not_or]
    exact ⟨by decide, fun h => (declaration.plain 60 h).1 rfl, by decide⟩
  have hsplit : lower.Splits declaration.render rest := lower.splits_markup
  refine ⟨hplain, hsplit, findOpenTag_of_index hplain hsplit (Nat.zero_le _) ?_, ?_⟩
  · rw [needle_eq]
    refine indexOf_markup hplain hlt ?_
    rw [lower.text_cons (by decide)]
    rintro ⟨more, hmore⟩
    exact head_text_name lower tag (by decide) more 63 (by rw [hmore]; rfl) rfl
  · rw [closeTag_units, lower.text_endTag, ← indexOf_at_end hplain hsplit]
    refine indexOf_markup hplain hlt ?_
    rw [lower.text_cons (by decide)]
    rintro ⟨more, hmore⟩
    exact absurd (List.head_eq_of_cons_eq hmore) (by decide)

theorem ends_of_declaration {same : XmlName → Bool} {declaration : XmlDeclaration}
    (h : Ends same (declaration.render ++ rest)) : Ends same rest := by
  refine h.of_markup ?_ ?_ fun name hname => absurd (List.head_eq_of_cons_eq hname) (by decide)
  · rw [List.mem_cons, List.mem_append, List.mem_singleton, not_or, not_or]
    exact ⟨by decide, fun h => (declaration.plain 60 h).1 rfl, by decide⟩
  · rw [List.mem_cons, List.mem_append, List.mem_singleton, not_or, not_or]
    exact ⟨by decide, fun h => (declaration.plain 62 h).2 rfl, by decide⟩

theorem extractTagBlocks_content (content : XmlContent)
    (hplain : PlainUpToEnds lower tag content.render) :
    extractTagBlocks lower content.render tag.units =
      (content.children.outermost (lower.sameName tag)).map XmlContent.render := by
  obtain ⟨text, children⟩ := content
  have hnil : children.render = children.render ++ [] := (List.append_nil _).symm
  simp only [XmlContent.render] at hplain ⊢
  by_cases hends : Ends (lower.sameName tag) children.render
  · obtain ⟨htext, htag⟩ := hplain.plain hends
    have hopens : OpensMarkup children.render := by
      rw [hnil]
      exact children.opensMarkup (Or.inl rfl)
    rw [(passes_text tag text.noMarkup htext hopens).extractTagBlocks, hnil]
    refine extractTagBlocks_lastChildren children [] not_ends_nil (Or.inl rfl) ?_
    rw [← hnil]
    exact hplain.append_right
  · rw [extractTagBlocks_of_not_ends fun h => hends (h.of_text text.noMarkup)]
    by_contra hne
    refine hends (children.ends_of_outermost fun houtermost => hne ?_)
    rw [houtermost, List.map_nil]

/-- `extractTagBlocks` cuts out the contents of the outermost elements of the name, in order. -/
theorem extractTagBlocks_eq_outermost (document : XmlDocument)
    (hplain : PlainUpToEnds lower tag document.render) :
    extractTagBlocks lower document.render tag.units =
      (document.content.children.outermost (lower.sameName tag)).map XmlContent.render := by
  obtain ⟨declaration, content⟩ := document
  cases declaration with
  | none => exact extractTagBlocks_content content hplain
  | some declaration =>
      change PlainUpToEnds lower tag (declaration.render ++ content.render) at hplain
      change extractTagBlocks lower (declaration.render ++ content.render) tag.units = _
      rw [← extractTagBlocks_content content hplain.append_right]
      by_cases hends : Ends (lower.sameName tag) content.render
      · exact (passes_declaration tag declaration (hplain.plain hends).1 _).extractTagBlocks
      · rw [extractTagBlocks_of_not_ends hends,
          extractTagBlocks_of_not_ends fun h => hends (ends_of_declaration h)]

/-! ## End tags belong to elements -/

mutual

theorem outermost_of_ends_element {same : XmlName → Bool} : (element : XmlElement) → ∀ {rest},
    Ends same (element.render ++ rest) → element.outermost same ≠ [] ∨ Ends same rest
  | .empty _ attributes, _, h => Or.inr (ends_of_tag (tagTail_empty attributes) h)
  | .node name attributes text children, rest, h => by
      rw [XmlElement.outermost]
      cases hname : same name with
      | true => exact Or.inl (List.cons_ne_nil _ _)
      | false =>
          rw [XmlElement.render] at h
          simp only [List.append_assoc] at h
          rcases outermost_of_ends_children children
            ((ends_of_tag (tagTail_attributes attributes) h).of_text text.noMarkup) with
            hchildren | hend
          · exact Or.inl hchildren
          · exact Or.inr (ends_of_endTag hname hend)

theorem outermost_of_ends_children {same : XmlName → Bool} : (children : XmlChildren) → ∀ {rest},
    Ends same (children.render ++ rest) → children.outermost same ≠ [] ∨ Ends same rest
  | .nil, _, h => Or.inr h
  | .cons element text later, rest, h => by
      rw [XmlChildren.render] at h
      simp only [List.append_assoc] at h
      rw [XmlChildren.outermost]
      rcases outermost_of_ends_element element h with hfirst | hmore
      · exact Or.inl (List.append_ne_nil_of_left_ne_nil hfirst _)
      · exact (outermost_of_ends_children later (hmore.of_text text.noMarkup)).imp_left
          fun hlater => List.append_ne_nil_of_right_ne_nil _ hlater

end

/-- Without an element of the name nothing of it ends. -/
theorem not_ends_of_outermost {same : XmlName → Bool} {document : XmlDocument}
    (h : document.content.children.outermost same = []) : ¬ Ends same document.render := by
  obtain ⟨declaration, text, children⟩ := document
  intro hends
  have hcontent : Ends same (text.units ++ children.render) := by
    cases declaration with
    | none => exact hends
    | some declaration => exact ends_of_declaration hends
  have hchildren := hcontent.of_text text.noMarkup
  rw [← List.append_nil children.render] at hchildren
  exact (outermost_of_ends_children children hchildren).elim (fun hne => hne h) not_ends_nil

/-- What an outermost element of the name holds is in front of an end tag. -/
theorem PlainUpToEnds.content {document : XmlDocument}
    (hplain : PlainUpToEnds lower tag document.render) {content : XmlContent}
    (h : content ∈ document.content.children.outermost (lower.sameName tag)) :
    dottedI ∉ content.render := by
  obtain ⟨a, name, b, hname, hrender⟩ := document.content.children.exists_of_outermost h
  rw [XmlDocument.render, XmlContent.render, hrender] at hplain
  have hends : Ends (lower.sameName tag) (endTag name ++ b) := ⟨[], name, b, hname, rfl⟩
  exact (hplain.append_right.append_right.append_right.plain hends).1

/-- What is not in a text is not in its elements. -/
theorem not_mem_of_outermost {same : XmlName → Bool} {content inner : XmlContent} {u : Nat}
    (hu : u ∉ content.render) (h : inner ∈ content.children.outermost same) :
    u ∉ inner.render := by
  obtain ⟨a, name, b, -, hrender⟩ := content.children.exists_of_outermost h
  intro hmem
  refine hu (List.mem_append_right _ ?_)
  rw [hrender]
  exact List.mem_append_right _ (List.mem_append_left _ hmem)

/-! ## Behind an `İ` -/

/-- The end of an element is found where it stands in the copy, when no such tag is inside. -/
theorem contentEnd_longer (hname : lower.sameName tag name = true) {inner : List Nat}
    (hopens : ¬ 60 :: lower.text tag.units <:+: lower.text inner)
    (hends : ¬ Ends (lower.sameName tag) inner) (rest : List Nat) :
    contentEnd lower (inner ++ (endTag name ++ rest)) tag.units 0 1 =
      some (lower.text inner).length := by
  have hsame : lower.text name.units = lower.text tag.units := of_decide_eq_true hname
  have hsplit : lower.Splits inner (endTag name ++ rest) :=
    lower.splits_opens (opensMarkup_markup _ _)
  have hsplitEnd : lower.Splits (endTag name) rest := lower.splits_markup
  have hcopy : lower.text (inner ++ (endTag name ++ rest)) =
      lower.text inner ++ 60 :: (47 :: (lower.text tag.units ++ [62]) ++ lower.text rest) := by
    rw [hsplit, hsplitEnd, lower.text_endTag, hsame]
    rfl
  have hname60 : 60 ∉ lower.text tag.units := lower.not_mem_text_name tag (by decide)
  have hclose : indexOf (lower.text (inner ++ (endTag name ++ rest)))
      (lower.text (closeTag tag.units)) 0 = some (lower.text inner).length := by
    have hneedle : 60 ∉ 47 :: (lower.text tag.units ++ [62]) := by
      rw [List.mem_cons, List.mem_append, List.mem_singleton, not_or, not_or]
      exact ⟨by decide, hname60, by decide⟩
    rw [hcopy, closeTag_units, lower.text_endTag]
    refine indexOf_of_first (fun q hq hstands => ?_) (List.prefix_append _ _)
    obtain ⟨before, behind, hinfix⟩ := infix_of_prefix_drop hneedle hq hstands
    refine hends (lower.ends_of_text (u := before) (v := behind) ?_)
    rw [lower.text_endTag, ← List.append_assoc, hinfix]
  have hnone : ((findOpenTag lower (inner ++ (endTag name ++ rest)) tag.units 0).filter
      fun o => decide (o.start < (lower.text inner).length)) = none := by
    rw [Option.filter_eq_none_iff]
    intro o ho hlt
    have hstands := prefix_of_findOpenTag _ _ _ ho
    rw [hcopy, needle_eq] at hstands
    exact hopens (infix_of_prefix_drop hname60 (of_decide_eq_true hlt) hstands)
  have hlength : 0 < (inner ++ (endTag name ++ rest)).length := by
    simp only [List.length_append, endTag, markup, List.length_cons]
    omega
  rw [contentEnd_some _ _ _ hlength hclose, hnone, Option.elim_none, if_pos rfl]

/-- So the first block of the name is too long, when an `İ` stands in it. -/
theorem head?_extractTagBlocks_ne (hname : lower.sameName tag name = true)
    (htag : dottedI ∉ tag.units) {attributes : List XmlAttribute}
    (hstart : dottedI ∉ startTag name attributes) {inner : List Nat}
    (hopens : ¬ 60 :: lower.text tag.units <:+: lower.text inner)
    (hends : ¬ Ends (lower.sameName tag) inner) (hinner : dottedI ∈ inner) (rest : List Nat) :
    (extractTagBlocks lower
      (startTag name attributes ++ (inner ++ (endTag name ++ rest))) tag.units).head? ≠
        some inner := by
  have hunits : dottedI ∉ name.units := fun h =>
    hstart (List.mem_cons_of_mem _ (List.mem_append_left _ (List.mem_append_left _ h)))
  have hsplit : lower.Splits (startTag name attributes) (inner ++ (endTag name ++ rest)) :=
    lower.splits_markup
  have hopen := findOpenTag_tag hname htag hunits (tagTail_attributes attributes)
    (inner ++ (endTag name ++ rest))
  rw [getLast?_startTag] at hopen
  have hcontent := @contentEnd_behind lower _ _ tag.units hstart hsplit 0 1
  rw [contentEnd_longer hname hopens hends rest, Option.map_some, Nat.add_zero] at hcontent
  have hslice := sliceUnits_behind (startTag name attributes)
    (inner ++ (endTag name ++ rest)) 0 (lower.text inner).length
  rw [Nat.add_zero, sliceUnits, sliceUnits, List.drop_zero] at hslice
  have hsome := extractFrom_some _ _ _ hopen
  rw [if_neg Bool.false_ne_true] at hsome
  have hblocks : extractTagBlocks lower
      (startTag name attributes ++ (inner ++ (endTag name ++ rest))) tag.units =
        (contentEnd lower (startTag name attributes ++ (inner ++ (endTag name ++ rest)))
          tag.units (startTag name attributes).length 1).elim [] _ := hsome
  rw [hblocks, hcontent, Option.elim_some, List.head?_cons]
  intro hhead
  have hlength := congrArg List.length (hslice.symm.trans (Option.some.inj hhead))
  have hlonger := lower.length_text inner
  have hcount := List.count_pos_iff.mpr hinner
  simp only [List.length_take, List.length_append, endTag, markup, List.length_cons] at hlength
  omega

end Scanner
end Ctem
