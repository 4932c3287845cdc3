import Ctem.Foundation.LowerCase

/-!
# XML as text

Elements, their rendering, and what their names are compared by.  A text is the list of
its UTF-16 code units: 60, 62 and 47 are `<`, `>` and `/`.

* An element is empty or has content; content is character data, and elements with
  character data behind each.  Character data is what is left of a text when its mark-up
  has been escaped: anything without a `<`.
* `outermost` are the contents of the elements of a name that are in no other such one.
* `Ends` says that an end tag of such a name stands in a text.
-/

namespace Ctem
namespace Foundation

/-! ## Trees -/

/-- The name of an element or an attribute. -/
structure XmlName where
  units : List Nat
  nonempty : units ≠ []
  plain : ∀ u ∈ units, u ∉ markSymbols

/-- An attribute, with its value as it is written. -/
structure XmlAttribute where
  name : XmlName
  value : List Nat
  plain : ∀ u ∈ value, u ≠ 60 ∧ u ≠ 62

structure CharData where
  units : List Nat := []
  noMarkup : 60 ∉ units := by simp

mutual

inductive XmlElement where
  | empty (name : XmlName) (attributes : List XmlAttribute)
  | node (name : XmlName) (attributes : List XmlAttribute) (text : CharData)
      (children : XmlChildren)

/-- Elements, each with the character data behind it. -/
inductive XmlChildren where
  | nil
  | cons (element : XmlElement) (text : CharData) (rest : XmlChildren)

end

/-- What stands between the tags of an element. -/
structure XmlContent where
  text : CharData
  children : XmlChildren

/-- What stands between `<?` and `?>` in front of a document. -/
structure XmlDeclaration where
  units : List Nat
  plain : ∀ u ∈ units, u ≠ 60 ∧ u ≠ 62

structure XmlDocument where
  declaration : Option XmlDeclaration := none
  content : XmlContent

/-! ## Rendering -/

/-- ` name="value"`, for each attribute. -/
def attributeUnits (attributes : List XmlAttribute) : List Nat :=
  attributes.flatMap fun a => 32 :: (a.name.units ++ 61 :: 34 :: (a.value ++ [34]))

/-- Mark-up, from `<` to `>`. -/
def markup (body : List Nat) : List Nat := 60 :: (body ++ [62])

def startTag (name : XmlName) (attributes : List XmlAttribute) : List Nat :=
  markup (name.units ++ attributeUnits attributes)

def emptyTag (name : XmlName) (attributes : List XmlAttribute) : List Nat :=
  markup (name.units ++ (attributeUnits attributes ++ [47]))

def endTag (name : XmlName) : List Nat := markup (47 :: name.units)

mutual

def XmlElement.render : XmlElement → List Nat
  | .empty name attributes => emptyTag name attributes
  | .node name attributes text children =>
      startTag name attributes ++ (text.units ++ (children.render ++ endTag name))

def XmlChildren.render : XmlChildren → List Nat
  | .nil => []
  | .cons element text rest => element.render ++ (text.units ++ rest.render)

end

def XmlContent.render (content : XmlContent) : List Nat :=
  content.text.units ++ content.children.render

def XmlDeclaration.render (declaration : XmlDeclaration) : List Nat :=
  markup (63 :: (declaration.units ++ [63]))

def XmlDocument.render (document : XmlDocument) : List Nat :=
  document.declaration.elim [] XmlDeclaration.render ++ document.content.render

/-! ## The outermost elements of a name -/

section Outermost

variable (same : XmlName → Bool)

mutual

def XmlElement.outermost : XmlElement → List XmlContent
  | .empty _ _ => []
  | .node name _ text children =>
      if same name then [⟨text, children⟩] else children.outermost

def XmlChildren.outermost : XmlChildren → List XmlContent
  | .nil => []
  | .cons element _ rest => element.outermost ++ rest.outermost

end

end Outermost

/-! ## Lists of children -/

namespace XmlChildren

/-- One behind another. -/
def append : XmlChildren → XmlChildren → XmlChildren
  | .nil, later => later
  | .cons element text rest, later => .cons element text (rest.append later)

def ofList : List (XmlElement × CharData) → XmlChildren
  | [] => .nil
  | (element, text) :: rest => .cons element text (ofList rest)

variable {same : XmlName → Bool}

theorem render_append : (first later : XmlChildren) →
    (first.append later).render = first.render ++ later.render
  | .nil, later => rfl
  | .cons element text rest, later => by
      rw [append, render, render, render_append rest later]
      simp only [List.append_assoc]

theorem outermost_append : (first later : XmlChildren) →
    (first.append later).outermost same = first.outermost same ++ later.outermost same
  | .nil, later => rfl
  | .cons element text rest, later => by
      rw [append, outermost, outermost, outermost_append rest later, List.append_assoc]

theorem outermost_ofList : (elements : List (XmlElement × CharData)) →
    (ofList elements).outermost same = elements.flatMap fun e => e.1.outermost same
  | [] => rfl
  | (element, text) :: rest => by
      rw [ofList, outermost, outermost_ofList rest, List.flatMap_cons]

end XmlChildren

/-! ## What rendered text looks like -/

/-- It is empty, or mark-up comes first. -/
def OpensMarkup (text : List Nat) : Prop :=
  text = [] ∨ ∃ rest, text = 60 :: rest

theorem opensMarkup_markup (body rest : List Nat) : OpensMarkup (markup body ++ rest) :=
  Or.inr ⟨body ++ [62] ++ rest, rfl⟩

theorem XmlElement.opensMarkup (element : XmlElement) (rest : List Nat) :
    OpensMarkup (element.render ++ rest) := by
  cases element with
  | empty name attributes => exact opensMarkup_markup _ _
  | node name attributes text children =>
      rw [XmlElement.render, List.append_assoc]
      exact opensMarkup_markup _ _

theorem XmlChildren.opensMarkup (children : XmlChildren) {rest : List Nat}
    (hrest : OpensMarkup rest) : OpensMarkup (children.render ++ rest) := by
  cases children with
  | nil => exact hrest
  | cons element text later =>
      rw [XmlChildren.render, List.append_assoc]
      exact element.opensMarkup _

theorem mem_attributeUnits {attributes : List XmlAttribute} {u : Nat}
    (hu : u ∈ attributeUnits attributes) : u ≠ 60 ∧ u ≠ 62 := by
  obtain ⟨a, -, ha⟩ := List.mem_flatMap.mp hu
  simp only [List.mem_cons, List.mem_append, List.not_mem_nil, or_false] at ha
  rcases ha with rfl | hname | rfl | rfl | hvalue | rfl
  · decide
  · have hmark := a.name.plain u hname
    constructor
    · rintro rfl
      exact hmark (by decide)
    · rintro rfl
      exact hmark (by decide)
  · decide
  · decide
  · exact a.plain u hvalue
  · decide

/-- The last unit of attributes is a quotation mark. -/
theorem getLast?_attributeUnits {attributes : List XmlAttribute} (hne : attributes ≠ []) :
    (attributeUnits attributes).getLast? = some 34 := by
  induction attributes with
  | nil => exact absurd rfl hne
  | cons a rest ih =>
      cases rest with
      | nil =>
          have hunits : attributeUnits [a] =
              (32 :: (a.name.units ++ 61 :: 34 :: a.value)) ++ [34] := by
            simp [attributeUnits]
          rw [hunits, List.getLast?_concat]
      | cons b later =>
          have hlast := ih (List.cons_ne_nil b later)
          have hcons : attributeUnits (a :: b :: later) =
              (32 :: (a.name.units ++ 61 :: 34 :: (a.value ++ [34]))) ++
                attributeUnits (b :: later) := rfl
          rw [hcons, List.getLast?_append, hlast, Option.some_or]

/-- Attributes begin with a blank. -/
theorem head?_attributeUnits (attributes : List XmlAttribute) :
    attributeUnits attributes = [] ∨ ∃ rest, attributeUnits attributes = 32 :: rest := by
  cases attributes with
  | nil => exact Or.inl rfl
  | cons a rest => exact Or.inr ⟨_, rfl⟩

theorem XmlName.not_mem (name : XmlName) {d : Nat} (hd : d ∈ markSymbols) : d ∉ name.units :=
  fun h => name.plain d h hd

/-! ## Ends of elements -/

section Ends

variable (same : XmlName → Bool)

/-- An end tag of such a name stands in the text. -/
def Ends (xml : List Nat) : Prop :=
  ∃ a name b, same name = true ∧ xml = a ++ (endTag name ++ b)

variable {same : XmlName → Bool} {x y body : List Nat}

theorem Ends.append_left (h : Ends same y) : Ends same (x ++ y) := by
  obtain ⟨a, name, b, hname, rfl⟩ := h
  exact ⟨x ++ a, name, b, hname, (List.append_assoc x a _).symm⟩

theorem Ends.append_right (h : Ends same x) : Ends same (x ++ y) := by
  obtain ⟨a, name, b, hname, rfl⟩ := h
  exact ⟨a, name, b ++ y, hname, by simp only [List.append_assoc]⟩

theorem not_ends_nil : ¬ Ends same [] := by
  rintro ⟨a, name, b, -, h⟩
  have := congrArg List.length h
  simp [endTag, markup] at this

/-- No end tag begins in character data. -/
theorem Ends.of_text (hx : 60 ∉ x) (h : Ends same (x ++ y)) : Ends same y := by
  obtain ⟨a, name, b, hname, heq⟩ := h
  rcases List.append_eq_append_iff.mp heq with ⟨w, -, hy⟩ | ⟨w, hxa, hend⟩
  · exact ⟨w, name, b, hname, hy⟩
  · cases w with
    | nil =>
        refine ⟨[], name, b, hname, ?_⟩
        rw [List.nil_append]
        exact hend.symm
    | cons u w =>
        have hu : 60 = u := Option.some.inj (congrArg List.head? hend)
        refine absurd ?_ hx
        rw [hxa, ← hu]
        exact List.mem_append_right _ List.mem_cons_self

/-- Up to the first `>`, mark-up is given by what it begins with. -/
theorem append_gt_inj {x y : List Nat} (hx : 62 ∉ body) (hy : 62 ∉ x) {v : List Nat}
    (h : body ++ 62 :: y = x ++ 62 :: v) : body = x ∧ y = v := by
  induction body generalizing x with
  | nil =>
      cases x with
      | nil => exact ⟨rfl, List.tail_eq_of_cons_eq h⟩
      | cons u x =>
          have hu : 62 = u := List.head_eq_of_cons_eq h
          exact absurd (hu ▸ List.mem_cons_self) hy
  | cons c body ih =>
      cases x with
      | nil =>
          have hc : c = 62 := List.head_eq_of_cons_eq h
          exact absurd (hc ▸ List.mem_cons_self) hx
      | cons u x =>
          rw [List.cons_append, List.cons_append, List.cons.injEq] at h
          obtain ⟨hbody, hrest⟩ := ih (fun hm => hx (List.mem_cons_of_mem c hm))
            (fun hm => hy (List.mem_cons_of_mem u hm)) h.2
          exact ⟨by rw [h.1, hbody], hrest⟩

/-- Nor does one begin in other mark-up. -/
theorem Ends.of_markup (hlt : 60 ∉ body) (hgt : 62 ∉ body)
    (hother : ∀ name : XmlName, body = 47 :: name.units → same name = false)
    (h : Ends same (markup body ++ y)) : Ends same y := by
  obtain ⟨a, name, b, hname, heq⟩ := h
  cases a with
  | nil =>
      rw [List.nil_append, endTag, markup, markup, List.cons_append, List.cons_append,
        List.cons.injEq, List.append_assoc, List.append_assoc, List.singleton_append,
        List.singleton_append] at heq
      have hend : 62 ∉ 47 :: name.units := by
        rw [List.mem_cons, not_or]
        exact ⟨by decide, name.not_mem (by decide)⟩
      obtain ⟨hbody, -⟩ := append_gt_inj hgt hend heq.2
      rw [hother name hbody] at hname
      cases hname
  | cons u a =>
      rw [markup, List.cons_append, List.cons_append, List.cons.injEq] at heq
      refine Ends.of_text ?_ ⟨a, name, b, hname, heq.2⟩
      rw [List.mem_append, List.mem_singleton, not_or]
      exact ⟨hlt, by decide⟩

end Ends

/-- An element of the name ends in the text. -/
theorem XmlContent.ends_node {same : XmlName → Bool} {name : XmlName} (hname : same name = true)
    (x y : List Nat) : Ends same (x ++ (endTag name ++ y)) :=
  ⟨x, name, y, hname, rfl⟩

mutual

theorem XmlElement.ends_of_outermost {same : XmlName → Bool} : (element : XmlElement) →
    element.outermost same ≠ [] → Ends same element.render
  | .empty _ _, h => absurd rfl h
  | .node name attributes text children, h => by
      rw [XmlElement.render]
      by_cases hname : same name = true
      · have hend := XmlContent.ends_node hname
          (startTag name attributes ++ (text.units ++ children.render)) []
        simpa only [List.append_assoc, List.append_nil] using hend
      · rw [XmlElement.outermost, if_neg hname] at h
        exact (children.ends_of_outermost h).append_right.append_left.append_left

theorem XmlChildren.ends_of_outermost {same : XmlName → Bool} : (children : XmlChildren) →
    children.outermost same ≠ [] → Ends same children.render
  | .nil, h => absurd rfl h
  | .cons element text rest, h => by
      rw [XmlChildren.outermost] at h
      rw [XmlChildren.render]
      by_cases helement : element.outermost same = []
      · rw [helement, List.nil_append] at h
        exact (rest.ends_of_outermost h).append_left.append_left
      · exact (element.ends_of_outermost helement).append_right

end

/-- What an outermost element holds stands in the text, and its end tag behind it. -/
theorem XmlChildren.exists_of_outermost {same : XmlName → Bool} {content : XmlContent} :
    (children : XmlChildren) → content ∈ children.outermost same →
      ∃ a name b, same name = true ∧
        children.render = a ++ (content.render ++ (endTag name ++ b))
  | .cons (.empty tag attributes) text rest, h => by
      rw [XmlChildren.outermost, XmlElement.outermost, List.nil_append] at h
      obtain ⟨a, name, b, hname, hrest⟩ := exists_of_outermost rest h
      refine ⟨(XmlElement.empty tag attributes).render ++ (text.units ++ a), name, b, hname, ?_⟩
      simp only [XmlChildren.render, hrest, List.append_assoc]
  | .cons (.node tag attributes inner children) text rest, h => by
      rw [XmlChildren.outermost, XmlElement.outermost] at h
      rcases List.mem_append.mp h with hfirst | hrest
      · split at hfirst
        · rename_i htag
          obtain rfl := List.mem_singleton.mp hfirst
          refine ⟨startTag tag attributes, tag, text.units ++ rest.render, htag, ?_⟩
          simp only [XmlChildren.render, XmlElement.render, XmlContent.render, List.append_assoc]
        · obtain ⟨a, name, b, hname, hchildren⟩ := exists_of_outermost children hfirst
          refine ⟨startTag tag attributes ++ (inner.units ++ a), name,
            b ++ (endTag tag ++ (text.units ++ rest.render)), hname, ?_⟩
          simp only [XmlChildren.render, XmlElement.render, hchildren, List.append_assoc]
      · obtain ⟨a, name, b, hname, hlater⟩ := exists_of_outermost rest hrest
        refine ⟨(XmlElement.node tag attributes inner children).render ++ (text.units ++ a), name,
          b, hname, ?_⟩
        simp only [XmlChildren.render, hlater, List.append_assoc]

/-! ## Names without case -/

/-- `toLowerCase` does not tell the names apart. -/
def LowerCase.sameName (lower : LowerCase) (tag name : XmlName) : Bool :=
  decide (lower.text name.units = lower.text tag.units)

namespace LowerCase

variable (lower : LowerCase) {tag : XmlName} {body rest x u v : List Nat}

/-- Names in ASCII are compared as there. -/
theorem sameName_ascii {tag name : XmlName} (htag : ∀ u ∈ tag.units, u < 128)
    (hname : ∀ u ∈ name.units, u < 128) :
    lower.sameName tag name =
      decide (name.units.map asciiLowerUnit = tag.units.map asciiLowerUnit) := by
  rw [sameName, lower.ascii _ htag, lower.ascii _ hname]

theorem text_markup : lower.text (markup body) = markup (lower.text body) := by
  rw [markup, lower.text_cons (by decide), lower.split body [] 62 (by decide), lower.text_nil,
    markup]

theorem text_endTag (name : XmlName) :
    lower.text (endTag name) = 60 :: 47 :: (lower.text name.units ++ [62]) := by
  rw [endTag, text_markup, lower.text_cons (by decide), markup, List.cons_append]

theorem splits_markup : lower.Splits (markup body) rest :=
  lower.splits_after (x := 60 :: body) (by decide)

theorem splits_opens (h : OpensMarkup rest) : lower.Splits x rest := by
  rcases h with rfl | ⟨rest, rfl⟩
  · exact lower.splits_nil
  · exact lower.splits_before (by decide)

/-- The copy of a name has nothing that ends a name. -/
theorem not_mem_text_name (name : XmlName) {d : Nat} (hd : d ∈ markSymbols) :
    d ∉ lower.text name.units := fun h => lower.plain name.units name.plain d h hd

theorem text_name_ne_nil (name : XmlName) : lower.text name.units ≠ [] :=
  fun h => name.nonempty (lower.eq_nil_of_text h)

/-- An end tag in the copy is one in the text. -/
theorem ends_of_text (h : lower.text x = u ++ (lower.text (endTag tag) ++ v)) :
    Ends (lower.sameName tag) x := by
  rw [text_endTag, List.cons_append] at h
  obtain ⟨a, b, rfl, rfl, hb⟩ := lower.exists_split (by decide) h
  rw [List.cons_append, List.append_assoc, List.singleton_append] at hb
  obtain ⟨a', c, rfl, ha', hc⟩ := lower.exists_split (u := []) (by decide) hb
  obtain rfl := lower.eq_nil_of_text ha'
  obtain ⟨units, rest, rfl, hunits, -⟩ := lower.exists_split (by decide) hc
  -- what stands between the marks is a name
  have hplain : ∀ d ∈ units, d ∉ markSymbols := by
    intro d hd hmark
    refine lower.not_mem_text_name tag hmark ?_
    rw [← hunits]
    exact (lower.mem_text_iff hmark).mpr hd
  have hne : units ≠ [] := by
    rintro rfl
    rw [lower.text_nil] at hunits
    exact lower.text_name_ne_nil tag hunits.symm
  refine ⟨a, ⟨units, hne, hplain⟩, rest, decide_eq_true hunits, ?_⟩
  simp [endTag, markup]

end LowerCase

end Foundation
end Ctem
