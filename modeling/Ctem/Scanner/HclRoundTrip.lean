import Ctem.Scanner.HclSyntax

/-!
# Resources read back

Which resources the parser reads as they are meant.

* `meantReading` is the tree a body stands for: escapes name characters, an attribute is
  a member, the blocks of one name are a list, and the labels of a block are one member
  more.
* `ReadAsMeant` is when the parser's reading of a body is that tree,
  `HclBody.members_eq_iff`; this has nothing to do with how far the parser gets.
* `parseHclResources_reads_iff` puts the two together: the parser gives the tree back
  if and only if the body is plain and read as it is meant.
-/

namespace Ctem
namespace Scanner

open Foundation

/-! ## What a body means -/

/-- A block: its members, and its labels as one more. -/
def labelledRecord (labels : List String) (nested : HclRecord) : HclValue :=
  .obj (if labels = [] then nested
    else nested ++ [("__labels", .list (labels.map HclValue.str))])

/-- The blocks of a name are a list. -/
def joinBlock (obj : HclRecord) (key : String) (labels : List String) (nested : HclRecord) :
    HclRecord :=
  obj.upsert key fun old =>
    match old with
    | some (.list existing) => .list (existing ++ [labelledRecord labels nested])
    | _ => .list [labelledRecord labels nested]

def meantReading : HclReading where
  text := meantText
  set obj key value := obj.upsert key fun _ => value
  block := joinBlock

/-- The attributes and blocks of a body. -/
def HclBody.tree (body : HclBody) : HclRecord := body.members meantReading []

def HclBody.names : HclBody → List String
  | .nil => []
  | .attr key _ _ rest => key :: rest.names
  | .block key _ _ rest => key :: rest.names

def HclBody.attrNames : HclBody → List String
  | .nil => []
  | .attr key _ _ rest => key :: rest.attrNames
  | .block _ _ _ rest => rest.attrNames

mutual

/-- Nothing has the name of an attribute, apart from the attribute. -/
def HclExpr.WellFormed : HclExpr → Prop
  | .list items => items.WellFormed
  | .obj entries => entries.WellFormed
  | .str _ => True
  | .numeral .. => True
  | .bool _ => True
  | .null => True
  | .ref .. => True

def HclItems.WellFormed : HclItems → Prop
  | .nil => True
  | .last item => item.WellFormed
  | .cons item rest => item.WellFormed ∧ rest.WellFormed

def HclBody.WellFormed : HclBody → Prop
  | .nil => True
  | .attr key value _ rest => key ∉ rest.names ∧ value.WellFormed ∧ rest.WellFormed
  | .block key _ inner rest => key ∉ rest.attrNames ∧ inner.WellFormed ∧ rest.WellFormed

end

mutual

/-- Every escape is of a quote or a backslash; no attribute is `__proto__`, no block has the
name of a member of every object, and no block with labels has an attribute for them. -/
def HclExpr.ReadAsMeant : HclExpr → Prop
  | .str parts => ∀ part ∈ parts, part.KeptAsMeant
  | .list items => items.ReadAsMeant
  | .obj entries => entries.ReadAsMeant
  | .numeral .. => True
  | .bool _ => True
  | .null => True
  | .ref .. => True

def HclItems.ReadAsMeant : HclItems → Prop
  | .nil => True
  | .last item => item.ReadAsMeant
  | .cons item rest => item.ReadAsMeant ∧ rest.ReadAsMeant

def HclBody.ReadAsMeant : HclBody → Prop
  | .nil => True
  | .attr key value _ rest => key ≠ "__proto__" ∧ value.ReadAsMeant ∧ rest.ReadAsMeant
  | .block key labels inner rest =>
      (key ∉ prototypeMembers ∧ (∀ label ∈ labels, ∀ part ∈ label, part.KeptAsMeant) ∧
        (labels ≠ [] → "__labels" ∉ inner.names) ∧ inner.ReadAsMeant) ∧ rest.ReadAsMeant

end

/-! ## Texts -/

theorem length_le_length_kept (parts : List TextPart) :
    parts.length ≤ (parts.flatMap TextPart.kept).length := by
  induction parts with
  | nil => exact Nat.le_refl _
  | cons part parts ih =>
      have hone : 1 ≤ part.kept.length := by cases part <;> simp [TextPart.kept]
      rw [List.flatMap_cons, List.length_append, List.length_cons]
      omega

theorem kept_eq_value_iff (parts : List TextPart) :
    parts.flatMap TextPart.kept = parts.map TextPart.value ↔
      ∀ part ∈ parts, part.KeptAsMeant := by
  induction parts with
  | nil => simp
  | cons part parts ih =>
      rw [List.flatMap_cons, List.map_cons, List.forall_mem_cons, ← ih]
      cases part with
      | codePoint digits hdigits =>
          -- The letter and the digits are more than one character.
          refine ⟨fun h => ?_, fun h => h.1.elim⟩
          have hlength := congrArg List.length h
          have hle := length_le_length_kept parts
          have hsome : digits ≠ [] := by
            rintro rfl
            cases hdigits
          have hpositive := List.length_pos_iff.mpr hsome
          simp only [TextPart.kept, List.length_append, List.length_cons, List.length_map]
            at hlength
          omega
      | char | newline | carriageReturn | tab | quote | backslash =>
          simp [TextPart.kept, TextPart.value, TextPart.KeptAsMeant]

theorem keptText_eq_iff (parts : List TextPart) :
    keptText parts = meantText parts ↔ ∀ part ∈ parts, part.KeptAsMeant := by
  rw [keptText, meantText, String.ofList_inj, kept_eq_value_iff]

theorem keptLabels_eq_iff (labels : List (List TextPart)) :
    labels.map keptText = labels.map meantText ↔
      ∀ label ∈ labels, ∀ part ∈ label, part.KeptAsMeant := by
  rw [List.map_inj_left]
  exact forall₂_congr fun label _ => keptText_eq_iff label

/-! ## Members -/

section Members

variable {obj c l : HclRecord} {key : String} {labels : List String} {nested : HclRecord}
  {xs ys : List HclValue}

theorem lookup_setMember_ne {k : String} (hne : k ≠ key) (value : HclValue) :
    (setMember obj key value).lookup? k = obj.lookup? k := by
  unfold setMember
  split
  · rfl
  · exact AssocMap.lookup_upsert_ne obj _ hne

theorem lookup_setMember_self (hkey : key ≠ "__proto__") (value : HclValue) :
    (setMember obj key value).lookup? key = some value := by
  rw [setMember, if_neg hkey, AssocMap.lookup_upsert_self]

theorem lookup_setMember_proto (value : HclValue) :
    (setMember obj key value).lookup? "__proto__" = obj.lookup? "__proto__" := by
  by_cases hkey : key = "__proto__"
  · rw [setMember, if_pos hkey]
  · exact lookup_setMember_ne (Ne.symm hkey) value

/-- What a block finds where no block of its name has been. -/
def inheritedItems (key : String) : List HclValue :=
  if key ∈ prototypeMembers then [.inherited key] else []

theorem addBlock_of_none (h : obj.lookup? key = none) :
    addBlock obj key labels nested =
      setMember obj key (.list (inheritedItems key ++ [blockRecord labels nested])) := by
  unfold addBlock readMember inheritedItems
  rw [h]
  by_cases hkey : key ∈ prototypeMembers
  · simp [hkey]
  · simp [hkey]

theorem addBlock_of_list (h : obj.lookup? key = some (.list xs)) :
    addBlock obj key labels nested =
      setMember obj key (.list (xs ++ [blockRecord labels nested])) := by
  unfold addBlock readMember
  rw [h]
  rfl

theorem joinBlock_of_none (h : obj.lookup? key = none) :
    joinBlock obj key labels nested =
      obj.upsert key fun _ => .list ([] ++ [labelledRecord labels nested]) := by
  rw [joinBlock, AssocMap.upsert_eq_const, h]
  rfl

theorem joinBlock_of_list (h : obj.lookup? key = some (.list xs)) :
    joinBlock obj key labels nested =
      obj.upsert key fun _ => .list (xs ++ [labelledRecord labels nested]) := by
  rw [joinBlock, AssocMap.upsert_eq_const, h]

theorem exists_addBlock (obj : HclRecord) (key : String) (labels : List String)
    (nested : HclRecord) : ∃ items, addBlock obj key labels nested =
      setMember obj key (.list items) := by
  unfold addBlock
  dsimp only
  split
  · exact ⟨_, rfl⟩
  · exact ⟨_, rfl⟩
  · exact ⟨_, rfl⟩

/-- Two records with the same value in a place are the same when they are with another value
there. -/
theorem upsert_eq_upsert_iff {v w : HclValue} (hc : c.lookup? key = some (.list xs))
    (hl : l.lookup? key = some (.list ys)) :
    (c.upsert key fun _ => .list (xs ++ [v])) = (l.upsert key fun _ => .list (ys ++ [w])) ↔
      c = l ∧ v = w := by
  constructor
  · intro h
    have hvalue := congrArg (fun m => m.lookup? key) h
    simp only [AssocMap.lookup_upsert_self, Option.some.injEq, HclValue.list.injEq] at hvalue
    obtain ⟨rfl, hlast⟩ := List.append_inj' hvalue rfl
    refine ⟨?_, List.singleton_inj.mp hlast⟩
    rw [← AssocMap.upsert_restore hc fun _ => .list (xs ++ [v]), h,
      AssocMap.upsert_restore hl]
  · rintro ⟨rfl, rfl⟩
    obtain rfl : xs = ys := HclValue.list.inj (Option.some.inj (hc.symm.trans hl))
    rfl

/-- The same for a place that is new. -/
theorem upsert_new_eq_iff {v w : HclValue} (hc : c.lookup? key = none)
    (hl : l.lookup? key = none) :
    (c.upsert key fun _ => v) = (l.upsert key fun _ => w) ↔ c = l ∧ v = w := by
  rw [AssocMap.upsert_of_lookup_none hc, AssocMap.upsert_of_lookup_none hl]
  constructor
  · intro h
    obtain ⟨rfl, hlast⟩ := List.append_inj' h rfl
    exact ⟨rfl, (Prod.mk.inj (List.singleton_inj.mp hlast)).2⟩
  · rintro ⟨rfl, rfl⟩
    rfl

end Members

/-! ## The two readings, member by member -/

/-- The records of the two readings in front of the rest of a body: a name of an attribute is
new in both; under any other there is nothing in both, or a list in both, which the parser
began differently where every object has the name. -/
structure Fits (c l : HclRecord) (rest : HclBody) : Prop where
  proto : c.lookup? "__proto__" = none
  attrs : ∀ k ∈ rest.attrNames, c.lookup? k = none ∧ l.lookup? k = none
  blocks : ∀ k ∈ rest.names, k ≠ "__proto__" →
    (c.lookup? k = none ∧ l.lookup? k = none) ∨
      ∃ xs ys, c.lookup? k = some (.list xs) ∧ l.lookup? k = some (.list ys) ∧
        (k ∈ prototypeMembers → xs ≠ ys)

theorem fits_nil (rest : HclBody) : Fits [] [] rest :=
  ⟨rfl, fun _ _ => ⟨rfl, rfl⟩, fun _ _ _ => Or.inl ⟨rfl, rfl⟩⟩

theorem HclBody.mem_names_of_mem_attrNames : ∀ (body : HclBody) {k : String},
    k ∈ body.attrNames → k ∈ body.names
  | .nil, _, h => h
  | .attr _ _ _ rest, _, h => by
      rcases List.mem_cons.mp h with rfl | h
      · exact List.mem_cons_self
      · exact List.mem_cons_of_mem _ (rest.mem_names_of_mem_attrNames h)
  | .block _ _ _ rest, _, h => List.mem_cons_of_mem _ (rest.mem_names_of_mem_attrNames h)

section Step

variable {c l nc nl : HclRecord} {key : String} {rest : HclBody}

theorem Fits.attr {value : HclExpr} {comma : Bool} {v w : HclValue}
    (h : Fits c l (.attr key value comma rest)) (hkey : key ∉ rest.names) :
    Fits (setMember c key v) (l.upsert key fun _ => w) rest := by
  have hother : ∀ k ∈ rest.names, (setMember c key v).lookup? k = c.lookup? k ∧
      (l.upsert key fun _ => w).lookup? k = l.lookup? k := by
    intro k hk
    have hne : k ≠ key := fun heq => hkey (heq ▸ hk)
    exact ⟨lookup_setMember_ne hne v, AssocMap.lookup_upsert_ne l _ hne⟩
  refine ⟨?_, ?_, ?_⟩
  · rw [lookup_setMember_proto]
    exact h.proto
  · intro k hk
    obtain ⟨hc, hl⟩ := hother k (rest.mem_names_of_mem_attrNames hk)
    rw [hc, hl]
    exact h.attrs k (List.mem_cons_of_mem _ hk)
  · intro k hk hproto
    obtain ⟨hc, hl⟩ := hother k hk
    rw [hc, hl]
    exact h.blocks k (List.mem_cons_of_mem _ hk) hproto

theorem inheritedItems_ne_nil (hkey : key ∈ prototypeMembers) : inheritedItems key ≠ [] := by
  rw [inheritedItems, if_pos hkey]
  exact List.cons_ne_nil _ _

theorem Fits.block {inner : HclBody} {labels : List (List TextPart)} {kept meant : List String}
    (h : Fits c l (.block key labels inner rest)) (hkey : key ∉ rest.attrNames) :
    Fits (addBlock c key kept nc) (joinBlock l key meant nl) rest := by
  have hother : ∀ k, k ≠ key → (addBlock c key kept nc).lookup? k = c.lookup? k ∧
      (joinBlock l key meant nl).lookup? k = l.lookup? k := by
    intro k hne
    obtain ⟨items, hitems⟩ := exists_addBlock c key kept nc
    rw [hitems]
    exact ⟨lookup_setMember_ne hne _, AssocMap.lookup_upsert_ne l _ hne⟩
  refine ⟨?_, ?_, ?_⟩
  · obtain ⟨items, hitems⟩ := exists_addBlock c key kept nc
    rw [hitems, lookup_setMember_proto]
    exact h.proto
  · intro k hk
    obtain ⟨hc, hl⟩ := hother k (fun heq => hkey (heq ▸ hk))
    rw [hc, hl]
    exact h.attrs k hk
  · intro k hk hproto
    by_cases hne : k = key
    · subst hne
      refine Or.inr ?_
      rcases h.blocks k List.mem_cons_self hproto with ⟨hc, hl⟩ | ⟨xs, ys, hc, hl, hdiffer⟩
      · rw [addBlock_of_none hc, joinBlock_of_none hl, lookup_setMember_self hproto,
          AssocMap.lookup_upsert_self]
        refine ⟨_, _, rfl, rfl, fun hmember heq => ?_⟩
        exact inheritedItems_ne_nil hmember (List.append_inj' heq rfl).1
      · rw [addBlock_of_list hc, joinBlock_of_list hl, lookup_setMember_self hproto,
          AssocMap.lookup_upsert_self]
        refine ⟨_, _, rfl, rfl, fun hmember heq => ?_⟩
        exact hdiffer hmember (List.append_inj' heq rfl).1
    · obtain ⟨hc, hl⟩ := hother k hne
      rw [hc, hl]
      exact h.blocks k (List.mem_cons_of_mem _ hk) hproto

/-- An attribute more. -/
theorem Fits.attr_eq_iff {value : HclExpr} {comma : Bool} {v w : HclValue}
    (h : Fits c l (.attr key value comma rest)) :
    setMember c key v = (l.upsert key fun _ => w) ↔ c = l ∧ key ≠ "__proto__" ∧ v = w := by
  obtain ⟨hc, hl⟩ := h.attrs key List.mem_cons_self
  by_cases hkey : key = "__proto__"
  · refine ⟨fun heq => ?_, fun hright => absurd hkey hright.2.1⟩
    have hlookup := congrArg (fun m => m.lookup? key) heq
    rw [setMember, if_pos hkey] at hlookup
    simp only [AssocMap.lookup_upsert_self, hc] at hlookup
    cases hlookup
  · rw [setMember, if_neg hkey, upsert_new_eq_iff hc hl]
    exact and_congr_right fun _ => (and_iff_right hkey).symm

/-- A block more. -/
theorem Fits.block_eq_iff {inner : HclBody} {labels : List (List TextPart)}
    {kept meant : List String} (h : Fits c l (.block key labels inner rest)) :
    addBlock c key kept nc = joinBlock l key meant nl ↔
      c = l ∧ key ∉ prototypeMembers ∧ blockRecord kept nc = labelledRecord meant nl := by
  by_cases hproto : key = "__proto__"
  · have hmember : key ∈ prototypeMembers := by
      rw [hproto]
      decide
    refine ⟨fun heq => ?_, fun hright => absurd hmember hright.2.1⟩
    have hlookup := congrArg (fun m => m.lookup? key) heq
    obtain ⟨items, hitems⟩ := exists_addBlock c key kept nc
    have hnone : c.lookup? key = none := hproto ▸ h.proto
    simp only [hitems, setMember, if_pos hproto, hnone, joinBlock,
      AssocMap.lookup_upsert_self] at hlookup
    cases hlookup
  · rcases h.blocks key List.mem_cons_self hproto with ⟨hc, hl⟩ | ⟨xs, ys, hc, hl, hdiffer⟩
    · rw [addBlock_of_none hc, joinBlock_of_none hl, setMember, if_neg hproto,
        upsert_new_eq_iff hc hl]
      refine and_congr_right fun _ => ⟨fun heq => ?_, fun hright => ?_⟩
      · obtain ⟨hnone, hlast⟩ := List.append_inj' (HclValue.list.inj heq) rfl
        exact ⟨fun hmember => inheritedItems_ne_nil hmember hnone, List.singleton_inj.mp hlast⟩
      · rw [inheritedItems, if_neg hright.1, hright.2]
    · rw [addBlock_of_list hc, joinBlock_of_list hl, setMember, if_neg hproto,
        upsert_eq_upsert_iff hc hl]
      constructor
      · rintro ⟨rfl, heq⟩
        obtain rfl : xs = ys := HclValue.list.inj (Option.some.inj (hc.symm.trans hl))
        exact ⟨rfl, fun hmember => hdiffer hmember rfl, heq⟩
      · rintro ⟨heq, _, hrecord⟩
        exact ⟨heq, hrecord⟩

end Step

/-! ## Labels -/

theorem keys_setMember (obj : HclRecord) (key : String) (value : HclValue)
    (hnodup : obj.keys.Nodup) : (setMember obj key value).keys.Nodup ∧
      ∀ k ∈ (setMember obj key value).keys, k = key ∨ k ∈ obj.keys := by
  unfold setMember
  split
  · exact ⟨hnodup, fun k hk => Or.inr hk⟩
  · exact ⟨AssocMap.nodup_keys_upsert hnodup key _,
      fun k hk => (AssocMap.mem_keys_upsert obj key _ k).mp hk⟩

/-- The parser sets each member once, and no other than the body has. -/
theorem HclBody.keys_kept : ∀ (body : HclBody) (obj : HclRecord), obj.keys.Nodup →
    (body.members parserReading obj).keys.Nodup ∧
      ∀ k ∈ (body.members parserReading obj).keys, k ∈ obj.keys ∨ k ∈ body.names
  | .nil, obj, hnodup => ⟨hnodup, fun k hk => Or.inl hk⟩
  | .attr key value _ rest, obj, hnodup => by
      obtain ⟨hset, hkeys⟩ := keys_setMember obj key (value.value parserReading) hnodup
      obtain ⟨hrest, hmembers⟩ := rest.keys_kept _ hset
      refine ⟨hrest, fun k hk => ?_⟩
      rcases hmembers k hk with hk | hk
      · rcases hkeys k hk with rfl | hk
        · exact Or.inr List.mem_cons_self
        · exact Or.inl hk
      · exact Or.inr (List.mem_cons_of_mem _ hk)
  | .block key labels inner rest, obj, hnodup => by
      obtain ⟨items, hitems⟩ := exists_addBlock obj key (labels.map keptText)
        (inner.members parserReading [])
      obtain ⟨hset, hkeys⟩ := keys_setMember obj key (.list items) hnodup
      rw [← hitems] at hset hkeys
      obtain ⟨hrest, hmembers⟩ := rest.keys_kept _ hset
      refine ⟨hrest, fun k hk => ?_⟩
      rcases hmembers k hk with hk | hk
      · rcases hkeys k hk with rfl | hk
        · exact Or.inr List.mem_cons_self
        · exact Or.inl hk
      · exact Or.inr (List.mem_cons_of_mem _ hk)

theorem mem_keys_joinBlock (obj : HclRecord) (key : String) (labels : List String)
    (nested : HclRecord) (k : String) :
    k ∈ (joinBlock obj key labels nested).keys ↔ k = key ∨ k ∈ obj.keys :=
  AssocMap.mem_keys_upsert obj key _ k

/-- The tree has all the names of the body. -/
theorem HclBody.mem_keys_tree : ∀ (body : HclBody) (obj : HclRecord) {k : String},
    k ∈ obj.keys ∨ k ∈ body.names → k ∈ (body.members meantReading obj).keys
  | .nil, _, _, h => h.resolve_right List.not_mem_nil
  | .attr key value _ rest, obj, k, h => by
      apply rest.mem_keys_tree
      rw [HclBody.names, List.mem_cons] at h
      have hset := AssocMap.mem_keys_upsert obj key (fun _ => value.value meantReading) k
      rcases h with h | h | h
      · exact Or.inl (hset.mpr (Or.inr h))
      · exact Or.inl (hset.mpr (Or.inl h))
      · exact Or.inr h
  | .block key labels inner rest, obj, k, h => by
      apply rest.mem_keys_tree
      rw [HclBody.names, List.mem_cons] at h
      have hset := mem_keys_joinBlock obj key (labels.map meantText) inner.tree k
      rcases h with h | h | h
      · exact Or.inl (hset.mpr (Or.inr h))
      · exact Or.inl (hset.mpr (Or.inl h))
      · exact Or.inr h

theorem strList_eq_iff (xs ys : List String) :
    HclValue.list (xs.map HclValue.str) = .list (ys.map HclValue.str) ↔ xs = ys := by
  rw [HclValue.list.injEq]
  exact (List.map_injective_iff.mpr fun _ _ h => HclValue.str.inj h).eq_iff

/-- A block, with its labels. -/
theorem HclBody.record_eq_iff (inner : HclBody) (labels : List (List TextPart))
    (hinner : inner.members parserReading [] = inner.tree ↔ inner.ReadAsMeant) :
    blockRecord (labels.map keptText) (inner.members parserReading []) =
        labelledRecord (labels.map meantText) inner.tree ↔
      (∀ label ∈ labels, ∀ part ∈ label, part.KeptAsMeant) ∧
        (labels ≠ [] → "__labels" ∉ inner.names) ∧ inner.ReadAsMeant := by
  rw [← keptLabels_eq_iff, ← hinner, blockRecord, labelledRecord, HclValue.obj.injEq]
  by_cases hnil : labels = []
  · simp [hnil]
  · rw [if_neg (by simpa using hnil), if_neg (by simpa using hnil), setMember,
      if_neg (by decide)]
    obtain ⟨hnodup, hmembers⟩ := inner.keys_kept [] List.nodup_nil
    by_cases hlabels : "__labels" ∈ inner.names
    · -- The tree has the member twice, the parser's record does not.
      refine ⟨fun heq => ?_, fun hright => absurd hlabels (hright.2.1 hnil)⟩
      have hnodup' := AssocMap.nodup_keys_upsert hnodup "__labels"
        fun _ => HclValue.list ((labels.map keptText).map HclValue.str)
      rw [heq, AssocMap.keys, List.map_append, List.nodup_append] at hnodup'
      exact absurd rfl (hnodup'.2.2 _ (inner.mem_keys_tree [] (Or.inr hlabels)) _
        List.mem_cons_self)
    · have hnone : AssocMap.lookup? (inner.members parserReading []) "__labels" = none := by
        rw [← Option.not_isSome_iff_eq_none, AssocMap.isSome_lookup?]
        intro hk
        rcases hmembers _ hk with hk | hk
        · cases hk
        · exact hlabels hk
      rw [AssocMap.upsert_of_lookup_none hnone]
      constructor
      · intro heq
        obtain ⟨hrecord, hlast⟩ := List.append_inj' heq rfl
        have hvalue := (Prod.mk.inj (List.singleton_inj.mp hlast)).2
        exact ⟨(strList_eq_iff _ _).mp hvalue, fun _ => hlabels, hrecord⟩
      · rintro ⟨htexts, _, hrecord⟩
        rw [htexts, hrecord]

/-! ## When the readings agree -/

mutual

theorem HclExpr.value_eq_iff : ∀ e : HclExpr, e.WellFormed →
    (e.value parserReading = e.value meantReading ↔ e.ReadAsMeant)
  | .str parts, _ => by
      rw [HclExpr.value, HclExpr.value, HclValue.str.injEq]
      exact keptText_eq_iff parts
  | .numeral .., _ => iff_of_true rfl trivial
  | .bool _, _ => iff_of_true rfl trivial
  | .null, _ => iff_of_true rfl trivial
  | .ref .., _ => iff_of_true rfl trivial
  | .list items, h => by
      rw [HclExpr.value, HclExpr.value, HclValue.list.injEq]
      exact items.values_eq_iff h
  | .obj entries, h => by
      rw [HclExpr.value, HclExpr.value, HclValue.obj.injEq]
      have hread := entries.members_eq_iff [] [] h (fits_nil entries)
      rw [eq_self_iff_true, true_and] at hread
      exact hread

theorem HclItems.values_eq_iff : ∀ items : HclItems, items.WellFormed →
    (items.values parserReading = items.values meantReading ↔ items.ReadAsMeant)
  | .nil, _ => iff_of_true rfl trivial
  | .last item, h => by
      rw [HclItems.values, HclItems.values, List.singleton_inj]
      exact item.value_eq_iff h
  | .cons item rest, h => by
      rw [HclItems.values, HclItems.values, List.cons_eq_cons]
      exact and_congr (item.value_eq_iff h.1) (rest.values_eq_iff h.2)

theorem HclBody.members_eq_iff : ∀ (body : HclBody) (c l : HclRecord), body.WellFormed →
    Fits c l body →
    (body.members parserReading c = body.members meantReading l ↔ c = l ∧ body.ReadAsMeant)
  | .nil, _, _, _, _ => (and_iff_left trivial).symm
  | .attr key value _ rest, c, l, hwf, hfits => by
      obtain ⟨hkey, hvalue, hrest⟩ := hwf
      have hbehind := rest.members_eq_iff (setMember c key (value.value parserReading))
        (l.upsert key fun _ => value.value meantReading) hrest (hfits.attr hkey)
      rw [hfits.attr_eq_iff, value.value_eq_iff hvalue] at hbehind
      refine hbehind.trans ?_
      rw [HclBody.ReadAsMeant]
      tauto
  | .block key labels inner rest, c, l, hwf, hfits => by
      obtain ⟨hkey, hinner, hrest⟩ := hwf
      have hown := inner.members_eq_iff [] [] hinner (fits_nil inner)
      rw [eq_self_iff_true, true_and] at hown
      have hbehind := rest.members_eq_iff
        (addBlock c key (labels.map keptText) (inner.members parserReading []))
        (joinBlock l key (labels.map meantText) inner.tree) hrest (hfits.block hkey)
      rw [hfits.block_eq_iff, inner.record_eq_iff labels hown] at hbehind
      refine hbehind.trans ?_
      rw [HclBody.ReadAsMeant]
      tauto

end

/-! ## A resource in a file -/

def resourceLexemes (type name : String) (body : HclBody) : List Lexeme :=
  .word "resource" :: .quoted type.toList :: .quoted name.toList :: .mark '\x7b' ::
    (body.lexemes ++ [.mark '\x7d'])

/-- The tokens of a resource, one by one. -/
theorem exists_resource_toks {type name : String} {body : HclBody} {toks : List Tok}
    (hplain : '\\' ∉ type.toList ∧ '\\' ∉ name.toList)
    (hkinds : kinds toks = lexed (resourceLexemes type name body)) :
    ∃ line rest inside, toks = ⟨.ident "resource", line⟩ :: rest ∧
      resourceHeader? rest = some (type, name, inside) ∧
      kinds inside = lexed body.lexemes ++ [.punct '\x7d'] := by
  have hlabel : ∀ label : String, '\\' ∉ label.toList →
      (Lexeme.quoted label.toList).kind = .str label := by
    intro label hlabel
    have hdrop := dropBackslashes_append hlabel []
    rw [List.append_nil] at hdrop
    rw [Lexeme.kind, hdrop, dropBackslashes, List.append_nil, String.ofList_toList]
  rw [resourceLexemes, lexed_cons, lexed_cons, lexed_cons, lexed_cons, lexed_append,
    hlabel type hplain.1, hlabel name hplain.2] at hkinds
  obtain ⟨⟨_, line⟩, _, rfl, rfl, hlabels⟩ := kinds_eq_cons hkinds
  obtain ⟨⟨_, _⟩, _, rfl, rfl, hsecond⟩ := kinds_eq_cons hlabels
  obtain ⟨⟨_, _⟩, _, rfl, rfl, hbrace⟩ := kinds_eq_cons hsecond
  obtain ⟨⟨_, _⟩, inside, rfl, rfl, hinside⟩ := kinds_eq_cons hbrace
  exact ⟨line, _, inside, rfl, rfl, hinside⟩

/-- What the parser makes of the tokens of one resource: the resource with the parser's own
reading of its body if that is plain, and a failure if it is not. -/
theorem scanTopLevel_resource {type name : String} {body : HclBody} {toks : List Tok}
    (hplain : '\\' ∉ type.toList ∧ '\\' ∉ name.toList)
    (hkinds : kinds toks = lexed (resourceLexemes type name body)) :
    (body.Plain → ∃ line, scanTopLevel toks.length toks [] =
      .ok [⟨type, name, type ++ "." ++ name, body.members parserReading [], line⟩]) ∧
    (¬ body.Plain → ∃ message, scanTopLevel toks.length toks [] = .error (.parse message)) := by
  obtain ⟨line, rest, inside, rfl, hheader, hinside⟩ := exists_resource_toks hplain hkinds
  have hscan : scanTopLevel (rest.length + 1) (⟨.ident "resource", line⟩ :: rest) [] = (do
      let parsed ← parseObject (turnsFor inside) inside []
      scanTopLevel rest.length parsed.2
        [⟨type, name, type ++ "." ++ name, parsed.1, line⟩]) := by
    rw [scanTopLevel]
    simp only [if_true, hheader, List.nil_append]
  rw [List.length_cons, hscan]
  have hread := body.reads (turnsFor inside) [] hinside
  have hends := (parse_ends (turnsFor inside)).1 inside [] (Nat.lt_succ_self _)
  cases hparse : parseObject (turnsFor inside) inside [] with
  | error failure =>
      rw [hparse] at hread hends
      cases failure with
      | parse message => exact ⟨fun h => absurd h hread, fun _ => ⟨message, rfl⟩⟩
      | outOfTurns => exact absurd rfl hends
  | ok r =>
      rw [hparse] at hread
      have hnil := parseObject_takes hparse body.braced_lexemes hinside
      refine ⟨fun h => ⟨line, ?_⟩, fun h => ?_⟩
      · obtain ⟨hrecord, _⟩ := hread.1 h
        simp only [bind, Except.bind]
        rw [List.map_eq_nil_iff.mp hnil, hrecord]
        cases rest <;> rfl
      · -- The parser has stopped at the end, where no bracket is open.
        have hopen := hread.2 h
        rw [hnil] at hopen
        exact absurd hopen (Int.lt_irrefl _)

/-- The same for a text. -/
theorem parseHclResources_resource {text type name : String} {body : HclBody}
    (hspells : Spells false text.toList (resourceLexemes type name body))
    (hplain : '\\' ∉ type.toList ∧ '\\' ∉ name.toList) :
    (body.Plain → ∃ line, parseHclResources text =
      .ok [⟨type, name, type ++ "." ++ name, body.members parserReading [], line⟩]) ∧
    (¬ body.Plain → ∃ message, parseHclResources text = .error (.parse message)) := by
  obtain ⟨toks, htoks, hkinds⟩ := tokenizeFrom_spells hspells 1
  have hparse : parseHclResources text = scanTopLevel toks.length toks [] := by
    rw [parseHclResources, tokenize, htoks]
    rfl
  rw [hparse]
  exact scanTopLevel_resource hplain hkinds

/-- The parser ends on every text.  On any text of a resource without a comment glued to a
word it gives back the attributes and blocks if and only if the body is plain and read as it
is meant. -/
theorem parseHclResources_reads_iff {text type name : String} {body : HclBody}
    (hspells : Spells false text.toList (resourceLexemes type name body))
    (hplain : '\\' ∉ type.toList ∧ '\\' ∉ name.toList) (hwf : body.WellFormed) :
    (∀ content, parseHclResources content ≠ .error .outOfTurns) ∧
      ((∃ line, parseHclResources text =
        .ok [⟨type, name, type ++ "." ++ name, body.tree, line⟩]) ↔
          body.Plain ∧ body.ReadAsMeant) := by
  refine ⟨parseHclResources_ne_outOfTurns, ?_⟩
  obtain ⟨hreads, hfails⟩ := parseHclResources_resource hspells hplain
  have hagree := body.members_eq_iff [] [] hwf (fits_nil body)
  rw [eq_self_iff_true, true_and] at hagree
  by_cases hbody : body.Plain
  · obtain ⟨line, hline⟩ := hreads hbody
    rw [and_iff_right hbody, ← hagree, hline]
    constructor
    · rintro ⟨line', heq⟩
      exact (HclResource.mk.inj (List.singleton_inj.mp (Except.ok.inj heq))).2.2.2.1
    · intro heq
      exact ⟨line, by rw [heq, HclBody.tree]⟩
  · obtain ⟨message, hmessage⟩ := hfails hbody
    rw [hmessage]
    exact ⟨fun ⟨_, heq⟩ => (nomatch heq), fun h => absurd h.1 hbody⟩

/-- A subnet by its key. -/
def indexedBody : HclBody :=
  .attr "subnet" (.ref "subnets" (by decide) (.index (.str [.char 'a' (by decide)]) .nil)) false
    .nil

def indexedText : String :=
  "resource \"aws_instance\" \"web\" \x7b\n subnet = subnets[\"a\"]\n\x7d\n"

theorem indexedText_spells :
    Spells false indexedText.toList (resourceLexemes "aws_instance" "web" indexedBody) := by
  have hlayout := @spells_layout false
    [(.word "resource", [' ']), (.quoted "aws_instance".toList, [' ']),
      (.quoted "web".toList, [' ']), (.mark '\x7b', ['\n', ' ']), (.word "subnet", [' ']),
      (.mark '=', [' ']), (.word "subnets", []), (.mark '[', []), (.quoted ['a'], []),
      (.mark ']', ['\n']), (.mark '\x7d', ['\n'])]
    (by decide +kernel)
  exact hlayout

theorem indexedBody_wellFormed : indexedBody.WellFormed := by
  simp [indexedBody, HclBody.WellFormed, HclExpr.WellFormed, HclBody.names]

/-- The theorem on that resource. -/
theorem indexedText_reads_iff :
    (∀ content, parseHclResources content ≠ .error .outOfTurns) ∧
      ((∃ line, parseHclResources indexedText =
        .ok [⟨"aws_instance", "web", "aws_instance" ++ "." ++ "web", indexedBody.tree, line⟩]) ↔
          indexedBody.Plain ∧ indexedBody.ReadAsMeant) :=
  parseHclResources_reads_iff indexedText_spells (by decide) indexedBody_wellFormed

/-- The closing bracket is left over, and the parser refuses the resource. -/
theorem indexedText_refused :
    Spells false indexedText.toList (resourceLexemes "aws_instance" "web" indexedBody) ∧
      indexedBody.WellFormed ∧
      ∃ message, parseHclResources indexedText = .error (.parse message) :=
  ⟨indexedText_spells, indexedBody_wellFormed,
    (parseHclResources_resource indexedText_spells (by decide)).2 fun h => h.1⟩

end Scanner
end Ctem
