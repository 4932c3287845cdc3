import Ctem.Scanner.XmlBlocks

/-!
# Security groups from their XML

`parseSgInternetOpen` over the document a provider answers with.

* `parseSgInternetOpen_iff`: with no `İ` in front of the end of the groups, a document is open
  when an ingress permission of a group lists every address.
* `extractTagBlocks_ne`: with an `İ` in the first element of a name, its block is another text.
-/

namespace Ctem
namespace Scanner

open Foundation

/-! ## Trimmed contents -/

/-- White space and line terminators, as trimming understands them. -/
def isSpaceUnit (u : Nat) : Bool :=
  decide (u ∈ [0x09, 0x0A, 0x0B, 0x0C, 0x0D, 0x20, 0xA0, 0x1680, 0x2028, 0x2029, 0x202F,
    0x205F, 0x3000, 0xFEFF]) || (decide (0x2000 ≤ u) && decide (u ≤ 0x200A))

def trimStart (text : List Nat) : List Nat := text.dropWhile isSpaceUnit

def trimEnd (text : List Nat) : List Nat := (text.reverse.dropWhile isSpaceUnit).reverse

/-- `text.trim()`. -/
def trimUnits (text : List Nat) : List Nat := trimEnd (trimStart text)

theorem mem_of_mem_trimStart {u : Nat} {x : List Nat} (h : u ∈ trimStart x) : u ∈ x :=
  (List.dropWhile_suffix _).subset h

theorem mem_of_mem_trimEnd {u : Nat} {x : List Nat} (h : u ∈ trimEnd x) : u ∈ x := by
  rw [trimEnd, List.mem_reverse] at h
  exact List.mem_reverse.mp ((List.dropWhile_suffix _).subset h)

theorem mem_of_mem_trimUnits {u : Nat} {x : List Nat} (h : u ∈ trimUnits x) : u ∈ x :=
  mem_of_mem_trimStart (mem_of_mem_trimEnd h)

theorem trimStart_append {u : Nat} {y : List Nat} (x : List Nat) (hu : isSpaceUnit u = false) :
    trimStart (x ++ u :: y) = trimStart x ++ u :: y := by
  rw [trimStart, trimStart, List.dropWhile_append]
  split
  · rename_i hempty
    rw [List.isEmpty_iff.mp hempty, List.dropWhile_cons, hu, if_neg Bool.false_ne_true,
      List.nil_append]
  · rfl

theorem trimEnd_append {u : Nat} {y : List Nat} (x : List Nat) (hu : isSpaceUnit u = false) :
    trimEnd (x ++ u :: y) = x ++ u :: trimEnd y := by
  have h := trimStart_append (y := x.reverse) y.reverse hu
  rw [trimStart, trimStart] at h
  rw [trimEnd, List.reverse_append, List.reverse_cons, List.append_assoc,
    List.singleton_append, h, List.reverse_append, List.reverse_cons, List.reverse_reverse,
    List.append_assoc, List.singleton_append, ← trimEnd]

namespace XmlTrim

def charStart (text : CharData) : CharData :=
  ⟨trimStart text.units, fun h => text.noMarkup (mem_of_mem_trimStart h)⟩

def charEnd (text : CharData) : CharData :=
  ⟨trimEnd text.units, fun h => text.noMarkup (mem_of_mem_trimEnd h)⟩

/-- The character data behind the last element loses the spaces at its end. -/
def childrenEnd : XmlChildren → XmlChildren
  | .nil => .nil
  | .cons element text .nil => .cons element (charEnd text) .nil
  | .cons element text (.cons next gap rest) =>
      .cons element text (childrenEnd (.cons next gap rest))

/-- An element ends with `>`. -/
theorem render_element (element : XmlElement) : ∃ x, element.render = x ++ [62] := by
  cases element with
  | empty name attributes => exact ⟨60 :: (name.units ++ (attributeUnits attributes ++ [47])), rfl⟩
  | node name attributes text children =>
      refine ⟨startTag name attributes ++ (text.units ++ (children.render ++
        60 :: 47 :: name.units)), ?_⟩
      simp [XmlElement.render, endTag, markup]

theorem render_cons (element : XmlElement) (text : CharData) (rest : XmlChildren) :
    (XmlChildren.cons element text rest).render =
      element.render ++ (text.units ++ rest.render) := rfl

theorem render_childrenEnd : (children : XmlChildren) →
    (childrenEnd children).render = trimEnd children.render
  | .nil => rfl
  | .cons element text .nil => by
      obtain ⟨x, hx⟩ := render_element element
      have hnil : XmlChildren.nil.render = [] := rfl
      rw [childrenEnd, render_cons, render_cons, hx, hnil, List.append_nil, List.append_nil,
        List.append_assoc, List.append_assoc, List.singleton_append, List.singleton_append,
        trimEnd_append x rfl]
      rfl
  | .cons element text (.cons next gap rest) => by
      obtain ⟨x, hx⟩ := render_element next
      have ih := render_childrenEnd (.cons next gap rest)
      have hlater : (XmlChildren.cons next gap rest).render =
          x ++ 62 :: (gap.units ++ rest.render) := by
        rw [render_cons, hx, List.append_assoc, List.singleton_append]
      rw [childrenEnd, render_cons, ih, render_cons element text, hlater, trimEnd_append x rfl,
        ← List.append_assoc, ← List.append_assoc, ← List.append_assoc,
        ← List.append_assoc (element.render ++ text.units), trimEnd_append _ rfl]

theorem outermost_childrenEnd {same : XmlName → Bool} : (children : XmlChildren) →
    (childrenEnd children).outermost same = children.outermost same
  | .nil => rfl
  | .cons _ _ .nil => rfl
  | .cons element text (.cons next gap rest) => by
      have ih : (childrenEnd (.cons next gap rest)).outermost same = _ :=
        outermost_childrenEnd (.cons next gap rest)
      rw [childrenEnd, XmlChildren.outermost, ih]
      rfl

end XmlTrim

/-- A trimmed content is a content with the same elements. -/
theorem exists_trimmed (content : XmlContent) :
    ∃ trimmed : XmlContent, trimmed.render = trimUnits content.render ∧
      ∀ same, trimmed.children.outermost same = content.children.outermost same := by
  obtain ⟨text, children⟩ := content
  cases children with
  | nil =>
      refine ⟨⟨XmlTrim.charEnd (XmlTrim.charStart text), .nil⟩, ?_, fun _ => rfl⟩
      have hnil : XmlChildren.nil.render = [] := rfl
      simp only [XmlContent.render, hnil, List.append_nil]
      rfl
  | cons element gap rest =>
      refine ⟨⟨XmlTrim.charStart text, XmlTrim.childrenEnd (.cons element gap rest)⟩, ?_,
        fun _ => XmlTrim.outermost_childrenEnd _⟩
      obtain ⟨x, hx⟩ := XmlTrim.render_element element
      obtain ⟨more, hopens⟩ :
          ∃ more, (XmlChildren.cons element gap rest).render = 60 :: more := by
        rcases element.opensMarkup (gap.units ++ rest.render) with hnil | hcons
        · rw [hx, List.append_assoc] at hnil
          exact absurd hnil (List.append_ne_nil_of_right_ne_nil _ (List.cons_ne_nil _ _))
        · exact hcons
      have hclosed : (XmlChildren.cons element gap rest).render =
          x ++ 62 :: (gap.units ++ rest.render) := by
        rw [XmlTrim.render_cons, hx, List.append_assoc, List.singleton_append]
      simp only [XmlContent.render]
      rw [XmlTrim.render_childrenEnd, trimUnits, hopens, trimStart_append text.units rfl,
        ← hopens, hclosed, ← List.append_assoc, trimEnd_append _ rfl, trimEnd_append _ rfl,
        List.append_assoc]
      rfl

/-! ## The code -/

section Code

variable (lower : LowerCase)

def xmlTag (xml tag : List Nat) : Option (List Nat) :=
  (extractTagBlocks lower xml tag).head?.map trimUnits

def xmlTags (xml tag : List Nat) : List (List Nat) :=
  (extractTagBlocks lower xml tag).map trimUnits

def securityGroupInfo : XmlName :=
  ⟨['s', 'e', 'c', 'u', 'r', 'i', 't', 'y', 'G', 'r', 'o', 'u', 'p', 'I', 'n', 'f', 'o'].map
    Char.toNat, by decide, by decide⟩

def itemName : XmlName := ⟨['i', 't', 'e', 'm'].map Char.toNat, by decide, by decide⟩

def ipPermissions : XmlName :=
  ⟨['i', 'p', 'P', 'e', 'r', 'm', 'i', 's', 's', 'i', 'o', 'n', 's'].map Char.toNat,
    by decide, by decide⟩

def cidrIp : XmlName := ⟨['c', 'i', 'd', 'r', 'I', 'p'].map Char.toNat, by decide, by decide⟩

def cidrIpv6 : XmlName :=
  ⟨['c', 'i', 'd', 'r', 'I', 'p', 'v', '6'].map Char.toNat, by decide, by decide⟩

/-- `0.0.0.0/0`. -/
def anyIpv4 : List Nat := ['0', '.', '0', '.', '0', '.', '0', '/', '0'].map Char.toNat

/-- `::/0`. -/
def anyIpv6 : List Nat := [':', ':', '/', '0'].map Char.toNat

structure SgExposure where
  internetOpen : Bool
  cidrs : List (List Nat)

/-- The body of the loop over the groups. -/
def itemCidrs (item : List Nat) : List (List Nat) :=
  let ingress := (xmlTag lower item ipPermissions.units).getD []
  xmlTags lower ingress cidrIp.units ++ xmlTags lower ingress cidrIpv6.units

def ingressCidrs (xml : List Nat) : List (List Nat) :=
  let body := (xmlTag lower xml securityGroupInfo.units).getD xml
  (extractTagBlocks lower body itemName.units).flatMap (itemCidrs lower)

def parseSgInternetOpen (xml : List Nat) : SgExposure :=
  let cidrs := ingressCidrs lower xml
  { internetOpen := cidrs.contains anyIpv4 || cidrs.contains anyIpv6
    cidrs := cidrs.filter fun c => c == anyIpv4 || c == anyIpv6 }

end Code

/-! ## Documents -/

/-- Other elements at a place: none of these names is among them, at any depth. -/
structure Aside (lower : LowerCase) (names : List XmlName) where
  children : XmlChildren
  free : ∀ name ∈ names, children.outermost (lower.sameName name) = []

/-- An element with items in it.  Without items it may be left out or have no content. -/
inductive XmlListing (α : Type) where
  | absent
  | empty (gap : CharData)
  | listed (lead : CharData) (items : List (α × CharData)) (gap : CharData)

namespace XmlListing

variable {α : Type}

def items : XmlListing α → List α
  | .listed _ items _ => items.map Prod.fst
  | _ => []

/-- The content, where there is one. -/
def content (element : α → XmlElement) : XmlListing α → Option XmlContent
  | .listed lead items _ =>
      some ⟨lead, .ofList (items.map fun i => (element i.1, i.2))⟩
  | _ => none

def children (name : XmlName) (element : α → XmlElement) : XmlListing α → XmlChildren
  | .absent => .nil
  | .empty gap => .cons (.empty name []) gap .nil
  | .listed lead items gap =>
      .cons (.node name [] lead (.ofList (items.map fun i => (element i.1, i.2)))) gap .nil

end XmlListing

section Documents

variable (lower : LowerCase)

/-- An item of `ipRanges` or `ipv6Ranges`. -/
structure SgRange where
  lead : CharData
  before : Aside lower [cidrIp, cidrIpv6]
  cidr : CharData
  gap : CharData
  after : Aside lower [cidrIp, cidrIpv6]

def SgRange.element (tag : XmlName) (range : SgRange lower) : XmlElement :=
  .node itemName [] range.lead (range.before.children.append
    (.cons (.node tag [] range.cidr .nil) range.gap range.after.children))

def ipRanges : XmlName :=
  ⟨['i', 'p', 'R', 'a', 'n', 'g', 'e', 's'].map Char.toNat, by decide, by decide⟩

def ipv6Ranges : XmlName :=
  ⟨['i', 'p', 'v', '6', 'R', 'a', 'n', 'g', 'e', 's'].map Char.toNat, by decide, by decide⟩

/-- A permission: ranges of addresses, among what else it has. -/
structure SgPermission where
  lead : CharData
  before : Aside lower [cidrIp, cidrIpv6]
  ranges : XmlListing (SgRange lower)
  between : Aside lower [cidrIp, cidrIpv6]
  ranges6 : XmlListing (SgRange lower)
  after : Aside lower [cidrIp, cidrIpv6]

def SgPermission.element (permission : SgPermission lower) : XmlElement :=
  .node itemName [] permission.lead (permission.before.children.append
    ((permission.ranges.children ipRanges (SgRange.element lower cidrIp)).append
      (permission.between.children.append
        ((permission.ranges6.children ipv6Ranges (SgRange.element lower cidrIpv6)).append
          permission.after.children))))

/-- What the permission lists. -/
def SgPermission.cidrs (permission : SgPermission lower) : List (List Nat) :=
  (permission.ranges.items ++ permission.ranges6.items).map fun range => range.cidr.units

/-- A group: its ingress permissions, among what else it has.  The egress permissions and the
tags are behind them. -/
structure SecurityGroup where
  lead : CharData
  before : Aside lower [ipPermissions]
  ingress : XmlListing (SgPermission lower)
  after : Aside lower [ipPermissions]

def SecurityGroup.content (group : SecurityGroup lower) : XmlContent :=
  ⟨group.lead, group.before.children.append
    ((group.ingress.children ipPermissions (SgPermission.element lower)).append
      group.after.children)⟩

def SecurityGroup.element (group : SecurityGroup lower) : XmlElement :=
  .node itemName [] (SecurityGroup.content lower group).text
    (SecurityGroup.content lower group).children

def describeResponse : XmlName :=
  ⟨['D', 'e', 's', 'c', 'r', 'i', 'b', 'e', 'S', 'e', 'c', 'u', 'r', 'i', 't', 'y', 'G', 'r',
    'o', 'u', 'p', 's', 'R', 'e', 's', 'p', 'o', 'n', 's', 'e'].map Char.toNat,
    by decide, by decide⟩

/-- The answer to `DescribeSecurityGroups`. -/
structure DescribeSecurityGroups where
  declaration : Option XmlDeclaration
  first : CharData
  attributes : List XmlAttribute
  lead : CharData
  before : Aside lower [securityGroupInfo, itemName]
  groups : XmlListing (SecurityGroup lower)
  after : Aside lower [securityGroupInfo, itemName]
  last : CharData

def DescribeSecurityGroups.document (answer : DescribeSecurityGroups lower) : XmlDocument where
  declaration := answer.declaration
  content := ⟨answer.first, .cons (.node describeResponse answer.attributes answer.lead
    (answer.before.children.append
      ((answer.groups.children securityGroupInfo (SecurityGroup.element lower)).append
        answer.after.children))) answer.last .nil⟩

end Documents

/-! ## The elements of a document -/

section Elements

variable {lower : LowerCase} {α : Type} {element : α → XmlElement} {same : XmlName → Bool}

theorem XmlListing.outermost_same {name : XmlName} (hname : same name = true)
    (listing : XmlListing α) :
    (listing.children name element).outermost same = (listing.content element).toList := by
  cases listing with
  | absent => rfl
  | empty gap => rfl
  | listed lead items gap =>
      rw [XmlListing.children, XmlChildren.outermost, XmlElement.outermost, if_pos hname]
      rfl

theorem XmlListing.outermost_other {name : XmlName} (hname : same name = false)
    (listing : XmlListing α) :
    (listing.children name element).outermost same =
      listing.items.flatMap fun i => (element i).outermost same := by
  cases listing with
  | absent => rfl
  | empty gap => rfl
  | listed lead items gap =>
      rw [XmlListing.children, XmlChildren.outermost, XmlElement.outermost, hname,
        if_neg Bool.false_ne_true, XmlChildren.outermost_ofList, XmlChildren.outermost,
        List.append_nil, XmlListing.items, List.flatMap_map, List.flatMap_map]

theorem sameName_schema {tag name : XmlName} {answer : Bool} (htag : ∀ u ∈ tag.units, u < 128)
    (hname : ∀ u ∈ name.units, u < 128)
    (h : decide (name.units.map asciiLowerUnit = tag.units.map asciiLowerUnit) = answer) :
    lower.sameName tag name = answer := by
  rw [lower.sameName_ascii htag hname, h]

theorem SgRange.outermost_element {tag name : XmlName} (htag : tag ∈ [cidrIp, cidrIpv6])
    (hitem : lower.sameName tag itemName = false) (range : SgRange lower) :
    (SgRange.element lower name range).outermost (lower.sameName tag) =
      if lower.sameName tag name then [⟨range.cidr, .nil⟩] else [] := by
  rw [SgRange.element, XmlElement.outermost, hitem, if_neg Bool.false_ne_true,
    XmlChildren.outermost_append, XmlChildren.outermost, XmlElement.outermost,
    range.before.free tag htag, range.after.free tag htag, List.nil_append, List.append_nil]
  rfl

theorem SgPermission.outermost_element {tag : XmlName} (htag : tag ∈ [cidrIp, cidrIpv6])
    (hitem : lower.sameName tag itemName = false) (hranges : lower.sameName tag ipRanges = false)
    (hranges6 : lower.sameName tag ipv6Ranges = false) (permission : SgPermission lower) :
    (SgPermission.element lower permission).outermost (lower.sameName tag) =
      (permission.ranges.items.flatMap fun range =>
        if lower.sameName tag cidrIp then [⟨range.cidr, .nil⟩] else []) ++
      permission.ranges6.items.flatMap fun range =>
        if lower.sameName tag cidrIpv6 then [⟨range.cidr, .nil⟩] else [] := by
  rw [SgPermission.element, XmlElement.outermost, hitem, if_neg Bool.false_ne_true,
    XmlChildren.outermost_append, XmlChildren.outermost_append, XmlChildren.outermost_append,
    XmlChildren.outermost_append, permission.before.free tag htag,
    permission.between.free tag htag, permission.after.free tag htag,
    XmlListing.outermost_other hranges, XmlListing.outermost_other hranges6, List.nil_append,
    List.nil_append, List.append_nil]
  simp only [SgRange.outermost_element htag hitem]

theorem SgPermission.outermost_cidrIp (permission : SgPermission lower) :
    (SgPermission.element lower permission).outermost (lower.sameName cidrIp) =
      permission.ranges.items.map fun range => ⟨range.cidr, .nil⟩ := by
  have hv4 : lower.sameName cidrIp cidrIp = true :=
    sameName_schema (by decide) (by decide) rfl
  have hv6 : lower.sameName cidrIp cidrIpv6 = false :=
    sameName_schema (by decide) (by decide) rfl
  rw [SgPermission.outermost_element List.mem_cons_self
    (sameName_schema (by decide) (by decide) rfl) (sameName_schema (by decide) (by decide) rfl)
    (sameName_schema (by decide) (by decide) rfl), hv4, hv6]
  refine (congrArg₂ (· ++ ·) List.map_eq_flatMap.symm ?_).trans (List.append_nil _)
  exact List.flatMap_eq_nil_iff.mpr fun _ _ => rfl

theorem SgPermission.outermost_cidrIpv6 (permission : SgPermission lower) :
    (SgPermission.element lower permission).outermost (lower.sameName cidrIpv6) =
      permission.ranges6.items.map fun range => ⟨range.cidr, .nil⟩ := by
  have hv4 : lower.sameName cidrIpv6 cidrIp = false :=
    sameName_schema (by decide) (by decide) rfl
  have hv6 : lower.sameName cidrIpv6 cidrIpv6 = true :=
    sameName_schema (by decide) (by decide) rfl
  rw [SgPermission.outermost_element (List.mem_cons_of_mem _ List.mem_cons_self)
    (sameName_schema (by decide) (by decide) rfl) (sameName_schema (by decide) (by decide) rfl)
    (sameName_schema (by decide) (by decide) rfl), hv4, hv6]
  refine (congrArg₂ (· ++ ·) ?_ List.map_eq_flatMap.symm).trans (List.nil_append _)
  exact List.flatMap_eq_nil_iff.mpr fun _ _ => rfl

end Elements

/-! ## Reading a document -/

section Reading

variable {lower : LowerCase} {tag : XmlName} {content : XmlContent}

theorem extractTagBlocks_plain (htag : dottedI ∉ tag.units) (hplain : dottedI ∉ content.render) :
    extractTagBlocks lower content.render tag.units =
      (content.children.outermost (lower.sameName tag)).map XmlContent.render :=
  extractTagBlocks_content content (PlainUpToEnds.of_not_mem hplain htag)

/-- The same of the trimmed text. -/
theorem extractTagBlocks_trimmed (htag : dottedI ∉ tag.units)
    (hplain : dottedI ∉ content.render) :
    extractTagBlocks lower (trimUnits content.render) tag.units =
      (content.children.outermost (lower.sameName tag)).map XmlContent.render := by
  obtain ⟨trimmed, hrender, houtermost⟩ := exists_trimmed content
  have htrimmed : dottedI ∉ trimmed.render := by
    rw [hrender]
    exact fun h => hplain (mem_of_mem_trimUnits h)
  rw [← hrender, extractTagBlocks_plain htag htrimmed, houtermost]

theorem extractTagBlocks_nil : extractTagBlocks lower [] tag.units = [] :=
  extractTagBlocks_of_not_ends not_ends_nil

/-- What is read of the ranges of some permissions. -/
theorem xmlTags_ingress {ranges : SgPermission lower → List (SgRange lower)}
    (htag : dottedI ∉ tag.units)
    (hpermission : ∀ permission, (SgPermission.element lower permission).outermost
      (lower.sameName tag) = (ranges permission).map fun range => ⟨range.cidr, .nil⟩)
    {lead : CharData} {items : List (SgPermission lower × CharData)}
    (hplain : dottedI ∉ (XmlContent.mk lead (.ofList
      (items.map fun i => (SgPermission.element lower i.1, i.2)))).render) :
    xmlTags lower (trimUnits (XmlContent.mk lead (.ofList
      (items.map fun i => (SgPermission.element lower i.1, i.2)))).render) tag.units =
      (items.map Prod.fst).flatMap fun permission =>
        (ranges permission).map fun range => trimUnits range.cidr.units := by
  have hnil : XmlChildren.nil.render = [] := rfl
  rw [xmlTags, extractTagBlocks_trimmed htag hplain, XmlChildren.outermost_ofList,
    List.flatMap_map, List.flatMap_map]
  simp only [hpermission, List.map_flatMap, List.map_map, Function.comp_def, XmlContent.render,
    hnil, List.append_nil]

/-- What is read of a group. -/
def readCidrs (permissions : List (SgPermission lower)) : List (List Nat) :=
  (permissions.flatMap fun permission =>
    permission.ranges.items.map fun range => trimUnits range.cidr.units) ++
  permissions.flatMap fun permission =>
    permission.ranges6.items.map fun range => trimUnits range.cidr.units

theorem mem_readCidrs {permissions : List (SgPermission lower)} {cidr : List Nat} :
    cidr ∈ readCidrs permissions ↔
      ∃ permission ∈ permissions, ∃ listed ∈ permission.cidrs, trimUnits listed = cidr := by
  simp only [readCidrs, SgPermission.cidrs, List.mem_append, List.mem_flatMap, List.mem_map]
  constructor
  · rintro (⟨permission, hp, range, hrange, rfl⟩ | ⟨permission, hp, range, hrange, rfl⟩)
    · exact ⟨permission, hp, _, ⟨range, Or.inl hrange, rfl⟩, rfl⟩
    · exact ⟨permission, hp, _, ⟨range, Or.inr hrange, rfl⟩, rfl⟩
  · rintro ⟨permission, hp, -, ⟨range, hrange | hrange, rfl⟩, rfl⟩
    · exact Or.inl ⟨permission, hp, range, hrange, rfl⟩
    · exact Or.inr ⟨permission, hp, range, hrange, rfl⟩

/-- A group's block gives what its ingress permissions list. -/
theorem itemCidrs_group (group : SecurityGroup lower)
    (hplain : dottedI ∉ (SecurityGroup.content lower group).render) :
    itemCidrs lower (SecurityGroup.content lower group).render =
      readCidrs group.ingress.items := by
  have hself : lower.sameName ipPermissions ipPermissions = true :=
    sameName_schema (by decide) (by decide) rfl
  have houtermost : (SecurityGroup.content lower group).children.outermost
      (lower.sameName ipPermissions) =
        (group.ingress.content (SgPermission.element lower)).toList := by
    rw [SecurityGroup.content, XmlChildren.outermost_append, XmlChildren.outermost_append,
      group.before.free _ List.mem_cons_self, group.after.free _ List.mem_cons_self,
      XmlListing.outermost_same hself, List.nil_append, List.append_nil]
  have hblocks := @extractTagBlocks_plain lower ipPermissions _ (by decide) hplain
  rw [houtermost] at hblocks
  rw [itemCidrs, xmlTag, hblocks]
  cases hingress : group.ingress with
  | absent => simp [XmlListing.content, XmlListing.items, xmlTags, extractTagBlocks_nil, readCidrs]
  | empty gap =>
      simp [XmlListing.content, XmlListing.items, xmlTags, extractTagBlocks_nil, readCidrs]
  | listed lead items gap =>
      rw [hingress] at houtermost
      have hmem : XmlContent.mk lead (.ofList
          (items.map fun i => (SgPermission.element lower i.1, i.2))) ∈
            (SecurityGroup.content lower group).children.outermost
              (lower.sameName ipPermissions) := by
        rw [houtermost]
        exact List.mem_singleton.mpr rfl
      have hinner := not_mem_of_outermost hplain hmem
      exact congrArg₂ (· ++ ·)
        (xmlTags_ingress (by decide) SgPermission.outermost_cidrIp hinner)
        (xmlTags_ingress (by decide) SgPermission.outermost_cidrIpv6 hinner)

theorem ingressCidrs_document (answer : DescribeSecurityGroups lower)
    (hplain : PlainUpToEnds lower securityGroupInfo
      (DescribeSecurityGroups.document lower answer).render) :
    ingressCidrs lower (DescribeSecurityGroups.document lower answer).render =
      answer.groups.items.flatMap fun group => readCidrs group.ingress.items := by
  have hself : lower.sameName securityGroupInfo securityGroupInfo = true :=
    sameName_schema (by decide) (by decide) rfl
  have hresponse : lower.sameName securityGroupInfo describeResponse = false :=
    sameName_schema (by decide) (by decide) rfl
  have houtermost : (DescribeSecurityGroups.document lower answer).content.children.outermost
      (lower.sameName securityGroupInfo) =
        (answer.groups.content (SecurityGroup.element lower)).toList := by
    simp only [DescribeSecurityGroups.document]
    rw [XmlChildren.outermost, XmlElement.outermost, hresponse, if_neg Bool.false_ne_true,
      XmlChildren.outermost_append, XmlChildren.outermost_append,
      answer.before.free _ List.mem_cons_self, answer.after.free _ List.mem_cons_self,
      XmlListing.outermost_same hself, XmlChildren.outermost, List.nil_append, List.append_nil,
      List.append_nil]
  have hblocks := extractTagBlocks_eq_outermost _ hplain
  rw [houtermost] at hblocks
  have hnone : answer.groups.content (SecurityGroup.element lower) = none →
      answer.groups.items = [] →
      ingressCidrs lower (DescribeSecurityGroups.document lower answer).render = [] := by
    -- without groups the whole document is searched, and has no item
    intro hcontent hitems
    have hresponseItem : lower.sameName itemName describeResponse = false :=
      sameName_schema (by decide) (by decide) rfl
    have hnoItem : (DescribeSecurityGroups.document lower answer).content.children.outermost
        (lower.sameName itemName) = [] := by
      simp only [DescribeSecurityGroups.document]
      rw [XmlChildren.outermost, XmlElement.outermost, hresponseItem, if_neg Bool.false_ne_true,
        XmlChildren.outermost_append, XmlChildren.outermost_append,
        answer.before.free _ (List.mem_cons_of_mem _ List.mem_cons_self),
        answer.after.free _ (List.mem_cons_of_mem _ List.mem_cons_self),
        XmlListing.outermost_other (sameName_schema (by decide) (by decide) rfl), hitems]
      rfl
    rw [hcontent] at hblocks
    have hbody : xmlTag lower (DescribeSecurityGroups.document lower answer).render
        securityGroupInfo.units = none := by
      rw [xmlTag, hblocks]
      rfl
    rw [ingressCidrs, hbody]
    exact congrArg (List.flatMap (itemCidrs lower))
      (extractTagBlocks_of_not_ends (not_ends_of_outermost hnoItem))
  cases hgroups : answer.groups with
  | absent =>
      rw [hgroups] at hnone
      exact hnone rfl rfl
  | empty gap =>
      rw [hgroups] at hnone
      exact hnone rfl rfl
  | listed lead items gap =>
      rw [hgroups] at hblocks houtermost
      have hmem : XmlContent.mk lead (.ofList
          (items.map fun i => (SecurityGroup.element lower i.1, i.2))) ∈
            (DescribeSecurityGroups.document lower answer).content.children.outermost
              (lower.sameName securityGroupInfo) := by
        rw [houtermost]
        exact List.mem_singleton.mpr rfl
      have hinner := hplain.content hmem
      have hitems : (XmlChildren.ofList
          (items.map fun i => (SecurityGroup.element lower i.1, i.2))).outermost
            (lower.sameName itemName) =
              items.map fun i => SecurityGroup.content lower i.1 := by
        have hitem : lower.sameName itemName itemName = true :=
          sameName_schema (by decide) (by decide) rfl
        rw [XmlChildren.outermost_ofList, List.flatMap_map, List.map_eq_flatMap]
        simp only [SecurityGroup.element, XmlElement.outermost, hitem, if_true]
      have hbody : (xmlTag lower (DescribeSecurityGroups.document lower answer).render
          securityGroupInfo.units) = some (trimUnits (XmlContent.mk lead (.ofList
            (items.map fun i => (SecurityGroup.element lower i.1, i.2)))).render) := by
        rw [xmlTag, hblocks]
        rfl
      have hread := @extractTagBlocks_trimmed lower itemName _ (by decide) hinner
      rw [hitems] at hread
      rw [ingressCidrs, hbody, Option.getD_some, hread, XmlListing.items, List.flatMap_map,
        List.flatMap_map, List.flatMap_map]
      refine List.flatMap_congr fun i hi => itemCidrs_group i.1 ?_
      have hgroup := List.mem_map_of_mem (f := fun i => SecurityGroup.content lower i.1) hi
      rw [← hitems] at hgroup
      exact not_mem_of_outermost hinner hgroup

/-- The flag is set when an ingress permission lists every address. -/
theorem parseSgInternetOpen_iff (answer : DescribeSecurityGroups lower)
    (hplain : PlainUpToEnds lower securityGroupInfo
      (DescribeSecurityGroups.document lower answer).render) :
    (parseSgInternetOpen lower
        (DescribeSecurityGroups.document lower answer).render).internetOpen = true ↔
      ∃ group ∈ answer.groups.items, ∃ permission ∈ group.ingress.items,
        ∃ cidr ∈ permission.cidrs, trimUnits cidr = anyIpv4 ∨ trimUnits cidr = anyIpv6 := by
  have hcidrs : ∀ cidr, cidr ∈ ingressCidrs lower
      (DescribeSecurityGroups.document lower answer).render ↔
        ∃ group ∈ answer.groups.items, ∃ permission ∈ group.ingress.items,
          ∃ listed ∈ permission.cidrs, trimUnits listed = cidr := by
    intro cidr
    rw [ingressCidrs_document answer hplain, List.mem_flatMap]
    simp only [mem_readCidrs]
  simp only [parseSgInternetOpen, Bool.or_eq_true, List.contains_iff_mem, hcidrs]
  constructor
  · rintro (⟨group, hgroup, permission, hpermission, cidr, hcidr, heq⟩ |
      ⟨group, hgroup, permission, hpermission, cidr, hcidr, heq⟩)
    · exact ⟨group, hgroup, permission, hpermission, cidr, hcidr, Or.inl heq⟩
    · exact ⟨group, hgroup, permission, hpermission, cidr, hcidr, Or.inr heq⟩
  · rintro ⟨group, hgroup, permission, hpermission, cidr, hcidr, heq | heq⟩
    · exact Or.inl ⟨group, hgroup, permission, hpermission, cidr, hcidr, heq⟩
    · exact Or.inr ⟨group, hgroup, permission, hpermission, cidr, hcidr, heq⟩

end Reading

/-- The first element of a name gives another block, when an `İ` and no such tag is in it. -/
theorem extractTagBlocks_ne {lower : LowerCase} {tag name : XmlName} {text inner gap : CharData}
    {attributes : List XmlAttribute} {front children later : XmlChildren}
    (htag : dottedI ∉ tag.units) (hfront : dottedI ∉ (XmlContent.mk text front).render)
    (hnone : front.outermost (lower.sameName tag) = []) (hname : lower.sameName tag name = true)
    (hstart : dottedI ∉ startTag name attributes)
    (hopens : ¬ 60 :: lower.text tag.units <:+: lower.text (XmlContent.mk inner children).render)
    (hends : ¬ Ends (lower.sameName tag) (XmlContent.mk inner children).render)
    (hinner : dottedI ∈ (XmlContent.mk inner children).render) :
    extractTagBlocks lower (XmlContent.mk text (front.append
        (.cons (.node name attributes inner children) gap later))).render tag.units ≠
      ((front.append (.cons (.node name attributes inner children) gap later)).outermost
        (lower.sameName tag)).map XmlContent.render := by
  intro hblocks
  simp only [XmlContent.render, List.mem_append, not_or] at hfront
  have hrender : (XmlContent.mk text (front.append
      (.cons (.node name attributes inner children) gap later))).render =
        text.units ++ (front.render ++ (startTag name attributes ++
          ((XmlContent.mk inner children).render ++
            (endTag name ++ (gap.units ++ later.render))))) := by
    simp only [XmlContent.render, XmlChildren.render_append, XmlChildren.render,
      XmlElement.render, List.append_assoc]
  have hbehind : OpensMarkup (startTag name attributes ++
      ((XmlContent.mk inner children).render ++ (endTag name ++ (gap.units ++ later.render)))) :=
    opensMarkup_markup _ _
  rw [hrender, (passes_text tag text.noMarkup hfront.1
      (front.opensMarkup hbehind)).extractTagBlocks,
    extractTagBlocks_children htag front hfront.2 _ hbehind, XmlChildren.outermost_append, hnone,
    List.map_nil, List.nil_append, List.nil_append, XmlChildren.outermost,
    XmlElement.outermost, if_pos hname] at hblocks
  refine head?_extractTagBlocks_ne hname htag hstart hopens hends hinner
    (gap.units ++ later.render) ?_
  rw [hblocks]
  rfl

/-- In front of the last end tag of a name there may be no `İ`: up to there the blocks are the
contents of the outermost elements, and the flag is what the permissions list. -/
theorem extractTagBlocks_reads (lower : LowerCase) :
    (∀ (document : XmlDocument) (tag : XmlName), PlainUpToEnds lower tag document.render →
      extractTagBlocks lower document.render tag.units =
        (document.content.children.outermost (lower.sameName tag)).map XmlContent.render) ∧
    (∀ answer : DescribeSecurityGroups lower,
      PlainUpToEnds lower securityGroupInfo
        (DescribeSecurityGroups.document lower answer).render →
      ((parseSgInternetOpen lower
          (DescribeSecurityGroups.document lower answer).render).internetOpen = true ↔
        ∃ group ∈ answer.groups.items, ∃ permission ∈ group.ingress.items,
          ∃ cidr ∈ permission.cidrs, trimUnits cidr = anyIpv4 ∨ trimUnits cidr = anyIpv6)) ∧
    ∀ (tag name : XmlName) (text inner gap : CharData) (attributes : List XmlAttribute)
        (front children later : XmlChildren),
      dottedI ∉ tag.units → dottedI ∉ (XmlContent.mk text front).render →
      front.outermost (lower.sameName tag) = [] → lower.sameName tag name = true →
      dottedI ∉ startTag name attributes →
      ¬ 60 :: lower.text tag.units <:+: lower.text (XmlContent.mk inner children).render →
      ¬ Ends (lower.sameName tag) (XmlContent.mk inner children).render →
      dottedI ∈ (XmlContent.mk inner children).render →
      extractTagBlocks lower (XmlContent.mk text (front.append
          (.cons (.node name attributes inner children) gap later))).render tag.units ≠
        ((front.append (.cons (.node name attributes inner children) gap later)).outermost
          (lower.sameName tag)).map XmlContent.render := by
  refine ⟨fun document tag hplain => extractTagBlocks_eq_outermost document hplain,
    fun answer hplain => parseSgInternetOpen_iff answer hplain, ?_⟩
  intro tag name text inner gap attributes front children later htag hfront hnone hname hstart
    hopens hends hinner
  exact extractTagBlocks_ne htag hfront hnone hname hstart hopens hends hinner

/-- The block of `<item>İ</item>` is `İ<`. -/
theorem extractTagBlocks_dotted : ¬ ∃ lower : LowerCase, ∀ (document : XmlDocument)
    (tag : XmlName), extractTagBlocks lower document.render tag.units =
      (document.content.children.outermost (lower.sameName tag)).map XmlContent.render := by
  rintro ⟨lower, hclaim⟩
  have h := hclaim ⟨none, ⟨⟨[], by decide⟩, .cons (.node itemName [] ⟨[dottedI], by decide⟩ .nil)
    ⟨[], by decide⟩ .nil⟩⟩ itemName
  have hcopy : 60 ∉ lower.text [dottedI] := by
    rw [lower.mem_text_iff (by decide)]
    decide
  have hopens : ¬ 60 :: lower.text itemName.units <:+: lower.text [dottedI] := by
    rintro ⟨a, b, hinfix⟩
    refine hcopy ?_
    rw [← hinfix]
    exact List.mem_append_left _ (List.mem_append_right _ List.mem_cons_self)
  have hends : ¬ Ends (lower.sameName itemName) [dottedI] := by
    rintro ⟨a, name, b, -, heq⟩
    have hmem : 60 ∈ [dottedI] := by
      rw [heq]
      exact List.mem_append_right _ List.mem_cons_self
    exact absurd hmem (by decide)
  have hne := @extractTagBlocks_ne lower itemName itemName ⟨[], by decide⟩
    ⟨[dottedI], by decide⟩ ⟨[], by decide⟩ [] .nil .nil .nil (by decide) (by decide) rfl
    (decide_eq_true rfl) (by decide) hopens hends (by decide)
  exact hne h

end Scanner
end Ctem
