import Ctem.Foundation.TextSearch
import Ctem.Foundation.XmlText

/-!
# Tag blocks of a provider's XML

`extractTagBlocks` looks for the next start tag of a name, counts start and end tags up to
the end tag that belongs to it, and cuts out what stands between.  It looks for tags in
`xml.toLowerCase()` and reads and cuts at the same places of `xml`, so a unit that becomes
longer moves every place behind it.
-/

namespace Ctem
namespace Scanner

open Foundation

/-! ## The scanner -/

/-- What `findOpenTag` answers. -/
structure OpenTag where
  start : Nat
  stop : Nat
  selfClosing : Bool

/-- What ends the name in a tag. -/
def tagDelimiters : List Nat := [62, 32, 10, 9, 47, 13]

/-- `xml.slice(start, stop)`. -/
def sliceUnits (xml : List Nat) (start stop : Nat) : List Nat := (xml.take stop).drop start

/-- `</tag>`. -/
def closeTag (tag : List Nat) : List Nat := markup (47 :: tag)

section Code

variable (lower : LowerCase) (xml tag : List Nat)

def findOpenTag (idx : Nat) : Option OpenTag :=
  if idx < xml.length then
    match hstart : indexOf (lower.text xml) (lower.text (60 :: tag)) idx with
    | none => none
    | some start =>
        let after := start + (60 :: tag).length
        if xml[after]?.any tagDelimiters.contains then
          (indexOf xml [62] after).map fun gt => ⟨start, gt + 1, xml[gt - 1]? == some 47⟩
        else findOpenTag after
  else none
termination_by xml.length - idx
decreasing_by
  have hle := le_of_indexOf hstart
  simp only [List.length_cons]
  omega

theorem findOpenTag_none {idx : Nat}
    (h : indexOf (lower.text xml) (lower.text (60 :: tag)) idx = none) :
    findOpenTag lower xml tag idx = none := by
  rw [findOpenTag]
  split
  · split
    · rfl
    · rename_i hstart
      rw [h] at hstart
      cases hstart
  · rfl

theorem findOpenTag_some {idx start : Nat} (hidx : idx < xml.length)
    (h : indexOf (lower.text xml) (lower.text (60 :: tag)) idx = some start) :
    findOpenTag lower xml tag idx =
      if xml[start + (tag.length + 1)]?.any tagDelimiters.contains then
        (indexOf xml [62] (start + (tag.length + 1))).map fun gt =>
          ⟨start, gt + 1, xml[gt - 1]? == some 47⟩
      else findOpenTag lower xml tag (start + (tag.length + 1)) := by
  conv_lhs => rw [findOpenTag]
  rw [if_pos hidx]
  split
  · rename_i hstart
    rw [h] at hstart
    cases hstart
  · rename_i hstart
    rw [h] at hstart
    obtain rfl := Option.some.inj hstart
    rfl

theorem findOpenTag_of_le {idx : Nat} (hidx : xml.length ≤ idx) :
    findOpenTag lower xml tag idx = none := by
  rw [findOpenTag, if_neg (Nat.not_lt.mpr hidx)]

/-- A tag that is found stands at or behind the place, and ends behind where it begins. -/
theorem findOpenTag_bounds {idx : Nat} {o : OpenTag}
    (h : findOpenTag lower xml tag idx = some o) :
    idx ≤ o.start ∧ o.start + 1 < o.stop ∧ o.stop ≤ xml.length := by
  induction hn : xml.length - idx using Nat.strong_induction_on generalizing idx with
  | _ n ih =>
    by_cases hidx : idx < xml.length
    · cases hstart : indexOf (lower.text xml) (lower.text (60 :: tag)) idx with
      | none =>
          rw [findOpenTag_none lower xml tag hstart] at h
          cases h
      | some start =>
          have hle := le_of_indexOf hstart
          rw [findOpenTag_some lower xml tag hidx hstart] at h
          split at h
          · obtain ⟨gt, hgt, rfl⟩ := Option.map_eq_some_iff.mp h
            have hafter := le_of_indexOf hgt
            have hlength := length_of_indexOf (by simp) hgt
            simp only [List.length_singleton] at hlength
            dsimp only
            omega
          · obtain ⟨hfrom, hbehind⟩ := ih _ (by omega) h rfl
            exact ⟨by omega, hbehind⟩
    · rw [findOpenTag_of_le lower xml tag (Nat.not_lt.mp hidx)] at h
      cases h

/-- In the copy the tag stands at the place. -/
theorem prefix_of_findOpenTag {idx : Nat} {o : OpenTag}
    (h : findOpenTag lower xml tag idx = some o) :
    lower.text (60 :: tag) <+: (lower.text xml).drop o.start := by
  induction hn : xml.length - idx using Nat.strong_induction_on generalizing idx with
  | _ n ih =>
    by_cases hidx : idx < xml.length
    · cases hstart : indexOf (lower.text xml) (lower.text (60 :: tag)) idx with
      | none =>
          rw [findOpenTag_none lower xml tag hstart] at h
          cases h
      | some start =>
          have hle := le_of_indexOf hstart
          rw [findOpenTag_some lower xml tag hidx hstart] at h
          split at h
          · obtain ⟨gt, -, rfl⟩ := Option.map_eq_some_iff.mp h
            exact prefix_of_indexOf hstart
          · exact ih _ (by omega) h rfl
    · rw [findOpenTag_of_le lower xml tag (Nat.not_lt.mp hidx)] at h
      cases h

/-- The loop over the depth.  `none` is also where the end tag is missing, and both return
the blocks so far. -/
def contentEnd (j depth : Nat) : Option Nat :=
  if j < xml.length then
    match _ : indexOf (lower.text xml) (lower.text (closeTag tag)) j with
    | none => none
    | some nextClose =>
        match hopen : (findOpenTag lower xml tag j).filter (·.start < nextClose) with
        | some nextOpen =>
            contentEnd nextOpen.stop (if nextOpen.selfClosing then depth else depth + 1)
        | none =>
            if depth = 1 then some nextClose
            else contentEnd (nextClose + (closeTag tag).length) (depth - 1)
  else none
termination_by xml.length - j
decreasing_by
  · have hbounds := findOpenTag_bounds lower xml tag (Option.eq_some_of_filter_eq_some hopen)
    omega
  · have hle := le_of_indexOf ‹_›
    simp only [closeTag, markup, List.length_cons]
    omega

theorem contentEnd_none {j depth : Nat}
    (h : indexOf (lower.text xml) (lower.text (closeTag tag)) j = none) :
    contentEnd lower xml tag j depth = none := by
  rw [contentEnd]
  split
  · split
    · rfl
    · rename_i hclose
      rw [h] at hclose
      cases hclose
  · rfl

theorem contentEnd_of_le {j depth : Nat} (hj : xml.length ≤ j) :
    contentEnd lower xml tag j depth = none := by
  rw [contentEnd, if_neg (Nat.not_lt.mpr hj)]

theorem contentEnd_some {j depth nextClose : Nat} (hj : j < xml.length)
    (h : indexOf (lower.text xml) (lower.text (closeTag tag)) j = some nextClose) :
    contentEnd lower xml tag j depth =
      ((findOpenTag lower xml tag j).filter (·.start < nextClose)).elim
        (if depth = 1 then some nextClose
          else contentEnd lower xml tag (nextClose + (closeTag tag).length) (depth - 1))
        fun nextOpen => contentEnd lower xml tag nextOpen.stop
          (if nextOpen.selfClosing then depth else depth + 1) := by
  conv_lhs => rw [contentEnd]
  rw [if_pos hj]
  split
  · rename_i hclose
    rw [h] at hclose
    cases hclose
  · rename_i hclose
    rw [h] at hclose
    obtain rfl := Option.some.inj hclose
    split
    · rename_i hopen
      rw [hopen, Option.elim_some]
    · rename_i hopen
      rw [hopen, Option.elim_none]

theorem le_contentEnd {j depth stop : Nat} (h : contentEnd lower xml tag j depth = some stop) :
    j ≤ stop := by
  induction hn : xml.length - j using Nat.strong_induction_on generalizing j depth with
  | _ n ih =>
    by_cases hj : j < xml.length
    · cases hclose : indexOf (lower.text xml) (lower.text (closeTag tag)) j with
      | none =>
          rw [contentEnd_none lower xml tag hclose] at h
          cases h
      | some nextClose =>
          have hle := le_of_indexOf hclose
          have hlength : 0 < (closeTag tag).length := by simp [closeTag, markup]
          rw [contentEnd_some lower xml tag hj hclose] at h
          cases hopen : (findOpenTag lower xml tag j).filter (·.start < nextClose) with
          | none =>
              rw [hopen, Option.elim_none] at h
              split at h
              · obtain rfl := Option.some.inj h
                exact hle
              · have := ih _ (by omega) h rfl
                omega
          | some nextOpen =>
              rw [hopen, Option.elim_some] at h
              have hbounds :=
                findOpenTag_bounds lower xml tag (Option.eq_some_of_filter_eq_some hopen)
              have := ih _ (by omega) h rfl
              omega
    · rw [contentEnd_of_le lower xml tag (Nat.not_lt.mp hj)] at h
      cases h

/-- The blocks from a place on. -/
def extractFrom (i : Nat) : List (List Nat) :=
  if i < xml.length then
    match _ : findOpenTag lower xml tag i with
    | none => []
    | some tagOpen =>
        if tagOpen.selfClosing then extractFrom tagOpen.stop
        else
          match _ : contentEnd lower xml tag tagOpen.stop 1 with
          | none => []
          | some stop =>
              sliceUnits xml tagOpen.stop stop :: extractFrom (stop + (closeTag tag).length)
  else []
termination_by xml.length - i
decreasing_by
  · have hbounds := findOpenTag_bounds lower xml tag ‹_›
    omega
  · have hbounds := findOpenTag_bounds lower xml tag ‹findOpenTag lower xml tag i = _›
    have hle := le_contentEnd lower xml tag ‹_›
    simp only [closeTag, markup, List.length_cons]
    omega

def extractTagBlocks : List (List Nat) := extractFrom lower xml tag 0

theorem extractFrom_none {i : Nat} (h : findOpenTag lower xml tag i = none) :
    extractFrom lower xml tag i = [] := by
  rw [extractFrom]
  split
  · split
    · rfl
    · rename_i hopen
      rw [h] at hopen
      cases hopen
  · rfl

theorem extractFrom_some {i : Nat} {o : OpenTag} (h : findOpenTag lower xml tag i = some o) :
    extractFrom lower xml tag i =
      if o.selfClosing then extractFrom lower xml tag o.stop
      else (contentEnd lower xml tag o.stop 1).elim [] fun stop =>
        sliceUnits xml o.stop stop :: extractFrom lower xml tag (stop + (closeTag tag).length) := by
  have hbounds := findOpenTag_bounds lower xml tag h
  conv_lhs => rw [extractFrom]
  rw [if_pos (by omega)]
  split
  · rename_i hopen
    rw [h] at hopen
    cases hopen
  · rename_i hopen
    rw [h] at hopen
    obtain rfl := Option.some.inj hopen
    split
    · rfl
    · split
      · rename_i hend
        rw [hend, Option.elim_none]
      · rename_i hend
        rw [hend, Option.elim_some]

end Code

/-! ## Only what follows matters

In front of a place where the text and its copy have the same length, nothing is read. -/

/-- The same tag, with a text in front. -/
def OpenTag.shift (n : Nat) (o : OpenTag) : OpenTag := ⟨n + o.start, n + o.stop, o.selfClosing⟩

section Behind

variable {lower : LowerCase} {front rest tag : List Nat}

theorem indexOf_behind (hfront : dottedI ∉ front) (hsplit : lower.Splits front rest)
    (needle : List Nat) (k : Nat) :
    indexOf (lower.text (front ++ rest)) needle (front.length + k) =
      (indexOf (lower.text rest) needle k).map fun i => front.length + i := by
  rw [hsplit, ← lower.length_of_not_mem hfront, indexOf_append]

theorem findOpenTag_behind (hfront : dottedI ∉ front) (hsplit : lower.Splits front rest)
    (k : Nat) :
    findOpenTag lower (front ++ rest) tag (front.length + k) =
      (findOpenTag lower rest tag k).map (OpenTag.shift front.length) := by
  have hindex := indexOf_behind hfront hsplit (lower.text (60 :: tag)) k
  induction hn : rest.length - k using Nat.strong_induction_on generalizing k with
  | _ n ih =>
    by_cases hk : k < rest.length
    · have hlt : front.length + k < (front ++ rest).length := by
        rw [List.length_append]
        omega
      cases hstart : indexOf (lower.text rest) (lower.text (60 :: tag)) k with
      | none =>
          rw [hstart, Option.map_none] at hindex
          rw [findOpenTag_none _ _ _ hstart, findOpenTag_none _ _ _ hindex, Option.map_none]
      | some start =>
          have hle := le_of_indexOf hstart
          rw [hstart, Option.map_some] at hindex
          rw [findOpenTag_some _ _ _ hk hstart, findOpenTag_some _ _ _ hlt hindex,
            Nat.add_assoc, List.getElem?_append_right (by omega), Nat.add_sub_cancel_left]
          split
          · rw [indexOf_append, Option.map_map, Option.map_map]
            cases hgt : indexOf rest [62] (start + (tag.length + 1)) with
            | none => rfl
            | some gt =>
                -- the unit in front of `>` belongs to the tag
                have hafter := le_of_indexOf hgt
                have hprevious : (front ++ rest)[front.length + gt - 1]? = rest[gt - 1]? := by
                  rw [List.getElem?_append_right (by omega)]
                  congr 1
                  omega
                simp only [Option.map_some, Function.comp_apply, OpenTag.shift, hprevious,
                  Nat.add_assoc]
          · exact ih _ (by omega) _ (indexOf_behind hfront hsplit _ _) rfl
    · rw [findOpenTag_of_le _ _ _ (Nat.not_lt.mp hk), Option.map_none, findOpenTag_of_le]
      rw [List.length_append]
      omega

theorem filter_shift (o : Option OpenTag) (n stop : Nat) :
    (o.map (OpenTag.shift n)).filter (·.start < n + stop) =
      (o.filter (·.start < stop)).map (OpenTag.shift n) := by
  rw [Option.filter_map]
  congr 2
  funext o
  simp [OpenTag.shift]

/-- Where both searches go on behind the front, the loop does. -/
theorem contentEnd_of_searches {i k depth : Nat} (hi : i ≤ front.length + k)
    (hend : rest.length ≤ k → (front ++ rest).length ≤ i ∨
      indexOf (lower.text rest) (lower.text (closeTag tag)) k = none)
    (hopen : findOpenTag lower (front ++ rest) tag i =
      (findOpenTag lower rest tag k).map (OpenTag.shift front.length))
    (hclose : indexOf (lower.text (front ++ rest)) (lower.text (closeTag tag)) i =
      (indexOf (lower.text rest) (lower.text (closeTag tag)) k).map fun c => front.length + c)
    (hlater : ∀ later d, k < later → k < rest.length →
      contentEnd lower (front ++ rest) tag (front.length + later) d =
        (contentEnd lower rest tag later d).map fun c => front.length + c) :
    contentEnd lower (front ++ rest) tag i depth =
      (contentEnd lower rest tag k depth).map fun c => front.length + c := by
  by_cases hk : k < rest.length
  · have hlt : i < (front ++ rest).length := by
      rw [List.length_append]
      omega
    cases hindex : indexOf (lower.text rest) (lower.text (closeTag tag)) k with
    | none =>
        rw [hindex, Option.map_none] at hclose
        rw [contentEnd_none _ _ _ hindex, contentEnd_none _ _ _ hclose, Option.map_none]
    | some nextClose =>
        have hle := le_of_indexOf hindex
        have hlength : 0 < (closeTag tag).length := by simp [closeTag, markup]
        rw [hindex, Option.map_some] at hclose
        rw [contentEnd_some _ _ _ hk hindex, contentEnd_some _ _ _ hlt hclose, hopen,
          filter_shift]
        cases hfound : (findOpenTag lower rest tag k).filter (·.start < nextClose) with
        | none =>
            rw [Option.map_none, Option.elim_none, Option.elim_none]
            split
            · rfl
            · rw [Nat.add_assoc]
              exact hlater _ _ (by omega) hk
        | some nextOpen =>
            have hbounds := findOpenTag_bounds _ _ _ (Option.eq_some_of_filter_eq_some hfound)
            rw [Option.map_some, Option.elim_some, Option.elim_some]
            exact hlater _ _ (by omega) hk
  · rw [contentEnd_of_le _ _ _ (Nat.not_lt.mp hk), Option.map_none]
    rcases hend (Nat.not_lt.mp hk) with hlength | hnone
    · exact contentEnd_of_le _ _ _ hlength
    · rw [hnone, Option.map_none] at hclose
      exact contentEnd_none _ _ _ hclose

theorem contentEnd_behind (hfront : dottedI ∉ front) (hsplit : lower.Splits front rest)
    (k depth : Nat) :
    contentEnd lower (front ++ rest) tag (front.length + k) depth =
      (contentEnd lower rest tag k depth).map fun i => front.length + i := by
  induction hn : rest.length - k using Nat.strong_induction_on generalizing k depth with
  | _ n ih =>
    refine contentEnd_of_searches (Nat.le_refl _) (fun hk => Or.inl ?_)
      (findOpenTag_behind hfront hsplit k) (indexOf_behind hfront hsplit _ k) ?_
    · rw [List.length_append]
      omega
    · intro later d hlater hk
      exact ih _ (by omega) later d rfl

theorem sliceUnits_behind (first later : List Nat) (start stop : Nat) :
    sliceUnits (first ++ later) (first.length + start) (first.length + stop) =
      sliceUnits later start stop := by
  rw [sliceUnits, sliceUnits, List.take_length_add_append, ← List.drop_drop, List.drop_left]

/-- Where the search for a start tag goes on behind the front, the blocks are those behind. -/
theorem extractFrom_of_search (hfront : dottedI ∉ front) (hsplit : lower.Splits front rest)
    {i k : Nat} (hopen : findOpenTag lower (front ++ rest) tag i =
      (findOpenTag lower rest tag k).map (OpenTag.shift front.length))
    (hlater : ∀ later, k < later → k < rest.length →
      extractFrom lower (front ++ rest) tag (front.length + later) =
        extractFrom lower rest tag later) :
    extractFrom lower (front ++ rest) tag i = extractFrom lower rest tag k := by
  cases hfound : findOpenTag lower rest tag k with
  | none =>
      rw [hfound, Option.map_none] at hopen
      rw [extractFrom_none _ _ _ hfound, extractFrom_none _ _ _ hopen]
  | some o =>
      have hbounds := findOpenTag_bounds _ _ _ hfound
      rw [hfound, Option.map_some] at hopen
      rw [extractFrom_some _ _ _ hfound, extractFrom_some _ _ _ hopen]
      by_cases hself : o.selfClosing = true
      · rw [if_pos hself, if_pos (show (o.shift front.length).selfClosing = true from hself)]
        exact hlater o.stop (by omega) (by omega)
      · rw [if_neg hself, if_neg (show ¬ (o.shift front.length).selfClosing = true from hself)]
        change (contentEnd lower (front ++ rest) tag (front.length + o.stop) 1).elim _ _ = _
        rw [contentEnd_behind hfront hsplit]
        cases hend : contentEnd lower rest tag o.stop 1 with
        | none => rfl
        | some stop =>
            have hle := le_contentEnd _ _ _ hend
            rw [Option.map_some, Option.elim_some, Option.elim_some, Nat.add_assoc,
              hlater _ (by omega) (by omega)]
            exact congrArg (· :: _) (sliceUnits_behind front rest o.stop stop)

theorem extractFrom_behind (hfront : dottedI ∉ front) (hsplit : lower.Splits front rest)
    (k : Nat) :
    extractFrom lower (front ++ rest) tag (front.length + k) = extractFrom lower rest tag k := by
  induction hn : rest.length - k using Nat.strong_induction_on generalizing k with
  | _ n ih =>
    refine extractFrom_of_search hfront hsplit (findOpenTag_behind hfront hsplit k) ?_
    intro later hlater hk
    exact ih _ (by omega) later rfl

end Behind

/-! ## What the searches pass over -/

/-- A part that neither search stops in, or leads anywhere else. -/
structure Passes (lower : LowerCase) (tag front rest : List Nat) : Prop where
  plain : dottedI ∉ front
  splits : lower.Splits front rest
  opens : findOpenTag lower (front ++ rest) tag 0 =
    (findOpenTag lower rest tag 0).map (OpenTag.shift front.length)
  closes : indexOf (lower.text (front ++ rest)) (lower.text (closeTag tag)) 0 =
    (indexOf (lower.text rest) (lower.text (closeTag tag)) 0).map fun c => front.length + c

namespace Passes

variable {lower : LowerCase} {front rest tag : List Nat}

theorem extractTagBlocks (h : Passes lower tag front rest) :
    extractTagBlocks lower (front ++ rest) tag = extractTagBlocks lower rest tag :=
  extractFrom_of_search h.plain h.splits h.opens fun later _ _ =>
    extractFrom_behind h.plain h.splits later

theorem contentEnd (h : Passes lower tag front rest) (depth : Nat) :
    contentEnd lower (front ++ rest) tag 0 depth =
      (contentEnd lower rest tag 0 depth).map fun i => front.length + i := by
  refine contentEnd_of_searches (Nat.zero_le _) (fun hrest => Or.inr ?_) h.opens h.closes
    fun later d _ _ => contentEnd_behind h.plain h.splits later d
  rw [List.length_eq_zero_iff.mp (Nat.le_zero.mp hrest), lower.text_nil]
  refine indexOf_eq_none fun q hstands => ?_
  rw [List.drop_nil, List.prefix_nil] at hstands
  have hlength := lower.length_le (x := closeTag tag)
  rw [hstands] at hlength
  simp [closeTag, markup] at hlength

end Passes

end Scanner
end Ctem
