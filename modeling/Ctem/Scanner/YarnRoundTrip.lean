import Ctem.Scanner.YarnLayout

/-!
# What comes back of a yarn classic lockfile

The text of a lockfile is cut into blocks and every block into its lines, and the entries are
put together again.

* `parseBlock_lines`: a block gives its entry, with the name and the edges that are read of it.
* `parseYarnClassic_iff`: the files that come back as they were written.
-/

namespace Ctem
namespace Scanner

open Foundation

/-! ## Lines -/

/-- A line has no line break in it. -/
def Unbroken (line : List Char) : Prop := ∀ c ∈ line, isLineTerminator c = false

theorem Unbroken.not_mem {line : List Char} (h : Unbroken line) : '\n' ∉ line := fun hmem =>
  Bool.false_ne_true ((h '\n' hmem).symm.trans rfl)

theorem Unbroken.append {front later : List Char} (hfront : Unbroken front)
    (hlater : Unbroken later) : Unbroken (front ++ later) := fun c hc =>
  (List.mem_append.mp hc).elim (hfront c) (hlater c)

theorem Unbroken.cons {c : Char} {line : List Char} (hc : isLineTerminator c = false)
    (h : Unbroken line) : Unbroken (c :: line) := fun d hd =>
  (List.mem_cons.mp hd).elim (fun heq => heq ▸ hc) (h d)

theorem isLineTerminator_of_noSpace {c : Char} (h : isJsSpace c = false) :
    isLineTerminator c = false := by
  by_contra hno
  simp only [isLineTerminator, Bool.not_eq_false, Bool.or_eq_true, beq_iff_eq] at hno
  rcases hno with ((rfl | rfl) | rfl) | rfl <;> exact absurd h (by decide)

theorem unbroken_noSpace {line : List Char} (h : ∀ c ∈ line, isJsSpace c = false) :
    Unbroken line := fun c hc => isLineTerminator_of_noSpace (h c hc)

theorem unbroken_name (name : YarnName) : Unbroken name.text :=
  unbroken_noSpace fun _ hc => name.noSpace hc

theorem unbroken_text (text : YarnText) : Unbroken text.chars := fun c hc => (text.plain c hc).2.1

theorem unbroken_version (version : YarnVersion) : Unbroken version.text := by
  intro c hc
  rcases version.mem_text hc with hdigit | hplain
  · by_contra hno
    simp only [isLineTerminator, Bool.not_eq_false, Bool.or_eq_true, beq_iff_eq] at hno
    rcases hno with ((rfl | rfl) | rfl) | rfl <;> exact absurd hdigit (by decide)
  · exact isLineTerminator_of_noSpace (isNameChar_iff.mp hplain).1

theorem unbroken_maybeWrap {chars : List Char} (h : Unbroken chars) :
    Unbroken (maybeWrap chars) := by
  rw [maybeWrap]
  split
  · exact .cons rfl (.append (fun c hc => h c (mem_escaped.mp hc)) (.cons rfl fun c hc => by
      cases hc))
  · exact h

theorem unbroken_depLine (dep : YarnName × YarnText) : Unbroken (depLine dep) :=
  .cons rfl (.cons rfl (.cons rfl (.cons rfl (.append
    (unbroken_maybeWrap (unbroken_name dep.1))
    (.cons rfl (unbroken_maybeWrap (unbroken_text dep.2)))))))

theorem unbroken_memberLine {key value : List Char} (hkey : Unbroken key)
    (hvalue : Unbroken value) : Unbroken (memberLine key value) :=
  .cons rfl (.cons rfl (.append hkey (.cons rfl (unbroken_maybeWrap hvalue))))

theorem unbroken_intercalate {parts : List (List Char)} (h : ∀ part ∈ parts, Unbroken part) :
    Unbroken ([',', ' '].intercalate parts) := by
  induction parts with
  | nil => exact fun c hc => by cases hc
  | cons part parts ih =>
    have hrest := ih fun next hnext => h next (List.mem_cons_of_mem _ hnext)
    cases parts with
    | nil =>
      rw [List.intercalate_singleton]
      exact h part List.mem_cons_self
    | cons next more =>
      rw [List.intercalate_cons_cons]
      exact .append (.append (h part List.mem_cons_self) (.cons rfl (.cons rfl fun c hc => by
        cases hc))) hrest

theorem unbroken_header (entry : YarnLocked) : Unbroken entry.header := by
  refine .append (unbroken_intercalate fun part hpart => ?_) (.cons rfl fun c hc => by cases hc)
  obtain ⟨descriptor, hdescriptor, rfl⟩ := List.mem_map.mp hpart
  obtain ⟨range, -, rfl⟩ := List.mem_map.mp hdescriptor
  exact unbroken_maybeWrap (.append (unbroken_name _) (.cons rfl (unbroken_text range)))

theorem isContentLine_append {lead line : List Char} {c : Char}
    (hlead : ∀ d ∈ lead, isJsSpace d = true) (hspace : isJsSpace c = false) (hc : c ≠ '#') :
    isContentLine (lead ++ c :: line) = true := by
  have hdrop : (c :: line).dropWhile isJsSpace = c :: line :=
    dropSpaces_of_head fun d hd => Option.some_inj.mp hd ▸ hspace
  rw [isContentLine, List.dropWhile_append_of_pos hlead, hdrop]
  exact decide_eq_true hc

theorem isContentLine_depLine (dep : YarnName × YarnText) :
    isContentLine (depLine dep) = true := by
  obtain ⟨c, cs, hwritten, hc⟩ := exists_head_maybeWrap dep.1.text
  have hne : c ≠ '#' := by
    rintro rfl
    exact hc.elim (by decide) fun h => absurd h (by decide)
  rw [depLine, hwritten]
  exact @isContentLine_append [' ', ' ', ' ', ' '] _ c (by simp [isJsSpace])
    (isJsSpace_of_head hc) hne

theorem noSpace_word (field : YarnField) : ∀ c ∈ field.word, isJsSpace c = false := by
  cases field <;> simp [YarnField.word, isJsSpace]

/-- A line of an entry is on one line, and it is read. -/
theorem line_of_entry {entry : YarnLocked} {line : List Char} (h : line ∈ entry.lines) :
    Unbroken line ∧ isContentLine line = true := by
  have hblock : ∀ {word deps}, Unbroken word → (∃ c cs, word = c :: cs ∧ isJsSpace c = false ∧
      c ≠ '#') → line ∈ depBlock word deps → Unbroken line ∧ isContentLine line = true := by
    intro word deps hword ⟨c, cs, hcs, hspace, hc⟩ hline
    rw [depBlock] at hline
    split at hline
    · cases hline
    · rcases List.mem_cons.mp hline with rfl | hline
      · exact ⟨.cons rfl (.cons rfl hword), by
          rw [hcs]
          exact @isContentLine_append [' ', ' '] _ c (by simp [isJsSpace]) hspace hc⟩
      · obtain ⟨dep, -, rfl⟩ := List.mem_map.mp hline
        exact ⟨unbroken_depLine dep, isContentLine_depLine dep⟩
  have hmember : ∀ {key value : List Char}, Unbroken key → Unbroken value →
      (∃ c cs, key = c :: cs ∧ isJsSpace c = false ∧ c ≠ '#') →
      Unbroken (memberLine key value) ∧ isContentLine (memberLine key value) = true := by
    intro key value hkey hvalue ⟨c, cs, hcs, hspace, hc⟩
    refine ⟨unbroken_memberLine hkey hvalue, ?_⟩
    rw [memberLine, hcs]
    exact @isContentLine_append [' ', ' '] _ c (by simp [isJsSpace]) hspace hc
  rw [YarnLocked.lines, List.mem_cons, List.mem_append, List.mem_append] at h
  rcases h with rfl | h | h | h
  · refine ⟨unbroken_header entry, ?_⟩
    obtain ⟨c, cs, hheader, hc⟩ := exists_head_header entry
    have hne : c ≠ '#' := by
      rintro rfl
      exact hc.elim (by decide) fun h => absurd h (by decide)
    rw [hheader]
    exact @isContentLine_append [] _ c (by simp) (isJsSpace_of_head hc) hne
  · rcases List.mem_cons.mp h with rfl | h
    · have hword : ∀ c ∈ versionWord, isJsSpace c = false := by simp [versionWord, isJsSpace]
      exact hmember (unbroken_noSpace hword) (unbroken_version _) ⟨_, _, rfl, rfl, by decide⟩
    · obtain ⟨⟨field, value⟩, -, rfl⟩ := List.mem_map.mp h
      have hword := unbroken_noSpace (noSpace_word field)
      cases field <;> exact hmember hword (unbroken_text _) ⟨_, _, rfl, rfl, by decide⟩
  · have hword : ∀ c ∈ dependenciesWord, isJsSpace c = false := by
      simp [dependenciesWord, isJsSpace]
    exact hblock (unbroken_noSpace hword) ⟨_, _, rfl, rfl, by decide⟩ h
  · have hword : ∀ c ∈ optionalWord, isJsSpace c = false := by simp [optionalWord, isJsSpace]
    exact hblock (unbroken_noSpace hword) ⟨_, _, rfl, rfl, by decide⟩ h

/-! ## A block -/

theorem cutFields_eq_self {sep : Char} {lines : List (List Char)}
    (h : ∀ line ∈ lines, sep ∉ line) : cutFields sep lines = lines := by
  induction lines with
  | nil => rfl
  | cons line lines ih =>
    rw [cutFields, List.flatMap_cons, splitOn_of_not_mem (h line List.mem_cons_self)]
    exact congrArg (line :: ·) (ih fun next hnext => h next (List.mem_cons_of_mem _ hnext))

/-- No version is read inside of a line. -/
theorem versionMatch_skip {line : List Char} (h : Unbroken line) (rest : List Char) :
    versionMatch false (line ++ '\n' :: rest) = versionMatch true rest := by
  induction line with
  | nil => exact Option.none_or
  | cons c line ih =>
    rw [List.cons_append, versionMatch, if_neg Bool.false_ne_true, Option.none_or,
      h c List.mem_cons_self]
    exact ih fun d hd => h d (List.mem_cons_of_mem _ hd)

theorem versionMatch_line {c : Char} {line : List Char} (hspace : isJsSpace c = false)
    (h : Unbroken (c :: line)) (rest : List Char) :
    versionMatch true (c :: (line ++ '\n' :: rest)) = versionMatch true rest := by
  have hnone : versionHere (c :: (line ++ '\n' :: rest)) = none := by
    have hhead : ¬ ((c :: (line ++ '\n' :: rest)).head?.any isJsSpace = true) := by
      show ¬ isJsSpace c = true
      rw [hspace]
      decide
    rw [versionHere, afterSpaces, if_neg hhead]
    rfl
  rw [versionMatch, if_pos rfl, hnone, Option.none_or, h c List.mem_cons_self]
  exact versionMatch_skip (fun d hd => h d (List.mem_cons_of_mem _ hd)) rest

theorem versionMatch_memberLine (version : YarnVersion) (rest : List Char) :
    versionMatch true (memberLine versionWord version.text ++ rest) = some version.text := by
  have hquote : '"' ∉ version.text := version.not_mem (by decide)
  have hback : escaped version.text = version.text := escaped_eq_self (version.not_mem (by decide))
  have hline : memberLine versionWord version.text ++ rest =
      [' ', ' '] ++ (versionWord ++ ([' '] ++ '"' :: (version.text ++ '"' :: rest))) := by
    rw [memberLine, maybeWrap_wrapped (shouldWrapKey_digit version), hback]
    simp
  have hfirst : afterSpaces ([' ', ' '] ++
      (versionWord ++ ([' '] ++ '"' :: (version.text ++ '"' :: rest)))) =
      some (versionWord ++ ([' '] ++ '"' :: (version.text ++ '"' :: rest))) :=
    afterSpaces_append (List.cons_ne_nil _ _) (by simp [isJsSpace])
      fun d hd => Option.some_inj.mp hd ▸ rfl
  have hsecond : afterSpaces ([' '] ++ '"' :: (version.text ++ '"' :: rest)) =
      some ('"' :: (version.text ++ '"' :: rest)) :=
    afterSpaces_append (List.cons_ne_nil _ _) (by simp [isJsSpace])
      fun d hd => Option.some_inj.mp hd ▸ rfl
  have hhere : versionHere ([' ', ' '] ++
      (versionWord ++ ([' '] ++ '"' :: (version.text ++ '"' :: rest)))) = some version.text := by
    rw [versionHere, hfirst, Option.bind_some, afterLetters, if_pos (List.prefix_append _ _),
      Option.bind_some, List.drop_left, hsecond, Option.bind_some, afterQuoted_stands hquote,
      Option.bind_some]
    exact if_neg (List.cons_ne_nil _ _)
  rw [hline, List.cons_append, versionMatch, if_pos rfl, ← List.cons_append, hhere, Option.some_or]

/-- An entry as it is read. -/
def YarnLocked.entryRead (entry : YarnLocked) : YarnEntry :=
  ⟨entry.nameRead, entry.version.text, readDeps false entry.lines⟩

/-- A block gives its entry, whether a line break ends it or not. -/
theorem parseBlock_lines (entry : YarnLocked) {blank : List (List Char)}
    (hblank : ∀ line ∈ blank, line = []) :
    parseBlock (['\n'].intercalate (entry.lines ++ blank)) = some entry.entryRead := by
  have hlines : splitOn '\n' (['\n'].intercalate (entry.lines ++ blank)) =
      entry.lines ++ blank := by
    rw [splitOn_joined (by simp [YarnLocked.lines]), cutFields_eq_self]
    intro line hline
    rcases List.mem_append.mp hline with hline | hline
    · exact (line_of_entry hline).1.not_mem
    · rw [hblank line hline]
      exact List.not_mem_nil
  have hfilter : (entry.lines ++ blank).filter isContentLine = entry.lines := by
    have hkept : entry.lines.filter isContentLine = entry.lines :=
      List.filter_eq_self.mpr fun line hline => (line_of_entry hline).2
    have hdropped : blank.filter isContentLine = [] := by
      refine List.filter_eq_nil_iff.mpr fun line hline => ?_
      rw [hblank line hline]
      exact Bool.false_ne_true
    rw [List.filter_append, hkept, hdropped, List.append_nil]
  have hversion : versionMatch true (['\n'].intercalate (entry.lines ++ blank)) =
      some entry.version.text := by
    obtain ⟨c, cs, hheader, hc⟩ := exists_head_header entry
    have hunbroken := unbroken_header entry
    rw [hheader] at hunbroken
    have hsplit : ∃ rest, ['\n'].intercalate (entry.lines ++ blank) =
        c :: (cs ++ '\n' :: (memberLine versionWord entry.version.text ++ rest)) := by
      rw [YarnLocked.lines, YarnLocked.members, hheader, List.cons_append, List.cons_append,
        List.cons_append, List.intercalate_cons_cons]
      cases entry.fields.map (fun field => memberLine field.1.word field.2.chars) ++
          (depBlock dependenciesWord entry.dependencies ++
            depBlock optionalWord entry.optionalDependencies) ++ blank with
      | nil => exact ⟨[], by simp⟩
      | cons next more => exact ⟨_, by rw [List.intercalate_cons_cons]; simp; rfl⟩
    obtain ⟨rest, hrest⟩ := hsplit
    rw [hrest, versionMatch_line (isJsSpace_of_head hc) hunbroken, versionMatch_memberLine]
  have hends : ¬ (entry.header.getLast? ≠ some ':' ∨ entry.header.head? = some ' ') := by
    obtain ⟨c, cs, hheader, hc⟩ := exists_head_header entry
    rintro (h | h)
    · exact h List.getLast?_concat
    · rw [hheader] at h
      have hspace := isJsSpace_of_head hc
      rw [Option.some_inj.mp h] at hspace
      exact absurd hspace (by decide)
  have hhead : entry.lines.head? = some entry.header := rfl
  have hname : nameFromDescriptor ((splitDescriptors entry.header.dropLast).head?.getD []) ≠ [] :=
    nameRead_ne_nil entry
  rw [parseBlock, hlines, hfilter]
  simp only [hhead, Option.bind_some, if_neg hends, hversion, if_neg hname]
  rfl

/-! ## The blocks of a file -/

section Blocks

variable {line rest : List Char} {lines : List (List Char)}

theorem modifyHead_nil (blocks : List (List Char)) :
    blocks.modifyHead (([] : List Char) ++ ·) = blocks := by
  cases blocks <;> rfl

theorem modifyHead_cons (c : Char) (front : List Char) (blocks : List (List Char)) :
    (blocks.modifyHead (front ++ ·)).modifyHead (c :: ·) =
      blocks.modifyHead ((c :: front) ++ ·) := by
  cases blocks <;> rfl

theorem splitBlocks_line (h : '\n' ∉ line) :
    splitBlocks false (line ++ rest) = (splitBlocks false rest).modifyHead (line ++ ·) := by
  induction line with
  | nil => rw [List.nil_append, modifyHead_nil]
  | cons c line ih =>
    rw [List.mem_cons, not_or] at h
    rw [List.cons_append, splitBlocks, if_neg fun hc => h.1 hc.1.symm,
      if_neg fun hc => h.1 hc.1.symm, ih h.2, modifyHead_cons]

/-- A single line break does not end a block. -/
theorem splitBlocks_break (h : rest.head? ≠ some '\n') :
    splitBlocks false ('\n' :: rest) = (splitBlocks false rest).modifyHead ('\n' :: ·) := by
  rw [splitBlocks, if_neg fun hc => Bool.false_ne_true hc.2, if_neg fun hc => h hc.2]

theorem splitBlocks_passed (h : rest.head? ≠ some '\n') :
    splitBlocks true rest = splitBlocks false rest := by
  cases rest with
  | nil => rfl
  | cons c rest =>
    have hc : c ≠ '\n' := fun hc => h (by rw [hc]; rfl)
    rw [splitBlocks, splitBlocks, if_neg fun h => hc h.1, if_neg fun h => hc h.1,
      if_neg fun h => hc h.1]

theorem splitBlocks_blank :
    splitBlocks false ('\n' :: '\n' :: rest) = [] :: splitBlocks true rest := by
  rw [splitBlocks, if_neg fun hc => Bool.false_ne_true hc.2, if_pos ⟨rfl, rfl⟩, splitBlocks,
    if_pos ⟨rfl, rfl⟩]

/-- A line that is not empty does not begin with a line break. -/
theorem head_line (hne : line ≠ []) (h : '\n' ∉ line) : (line ++ rest).head? ≠ some '\n' := by
  obtain ⟨c, cs, rfl⟩ := List.exists_cons_of_ne_nil hne
  exact fun hc => h (Option.some_inj.mp hc ▸ List.mem_cons_self)

/-- Lines with text in them stay in one block. -/
theorem splitBlocks_lines (h : ∀ line ∈ lines, line ≠ [] ∧ '\n' ∉ line) :
    splitBlocks false (['\n'].intercalate lines ++ rest) =
      (splitBlocks false rest).modifyHead (['\n'].intercalate lines ++ ·) := by
  induction lines with
  | nil => exact (modifyHead_nil _).symm
  | cons line lines ih =>
    have hline := h line List.mem_cons_self
    have htail := ih fun next hnext => h next (List.mem_cons_of_mem _ hnext)
    cases lines with
    | nil => rw [List.intercalate_singleton, splitBlocks_line hline.2]
    | cons next more =>
      have hnext := h next (List.mem_cons_of_mem _ List.mem_cons_self)
      have hhead : (['\n'].intercalate (next :: more) ++ rest).head? ≠ some '\n' := by
        cases more with
        | nil =>
          rw [List.intercalate_singleton]
          exact head_line hnext.1 hnext.2
        | cons later more =>
          rw [List.intercalate_cons_cons, List.append_assoc, List.append_assoc]
          exact head_line hnext.1 hnext.2
      rw [List.intercalate_cons_cons, List.append_assoc, List.append_assoc,
        splitBlocks_line hline.2, List.singleton_append, splitBlocks_break hhead, htail]
      cases splitBlocks false rest <;> simp

/-- A line break behind every line stands in front of an empty one. -/
theorem joinLines_eq (eol : List Char) (lines : List (List Char)) :
    joinLines eol lines = eol.intercalate (lines ++ [[]]) := by
  induction lines with
  | nil => rfl
  | cons line lines ih =>
    have hne : lines ++ [[]] ≠ [] := List.append_ne_nil_of_right_ne_nil _ (List.cons_ne_nil _ _)
    rw [joinLines] at ih
    rw [joinLines, List.flatMap_cons, List.cons_append, List.intercalate_cons_of_ne_nil hne, ih]

theorem joinLines_append (eol : List Char) (front later : List (List Char)) :
    joinLines eol (front ++ later) = joinLines eol front ++ joinLines eol later :=
  List.flatMap_append

theorem joinLines_eq_append {eol : List Char} (hne : lines ≠ []) :
    joinLines eol lines = eol.intercalate lines ++ eol := by
  induction lines with
  | nil => exact absurd rfl hne
  | cons line lines ih =>
    cases lines with
    | nil => rw [List.intercalate_singleton, joinLines, List.flatMap_singleton]
    | cons next more =>
      have htail := ih (List.cons_ne_nil _ _)
      rw [joinLines] at htail
      rw [joinLines, List.flatMap_cons, htail, List.intercalate_cons_cons, List.append_assoc,
        List.append_assoc, List.append_assoc]

end Blocks

/-! ## Files with one line break a line -/

theorem line_ne_nil {entry : YarnLocked} {line : List Char} (h : line ∈ entry.lines) :
    line ≠ [] ∧ '\n' ∉ line := by
  obtain ⟨hunbroken, hcontent⟩ := line_of_entry h
  refine ⟨?_, hunbroken.not_mem⟩
  rintro rfl
  exact Bool.false_ne_true hcontent

theorem splitBlocks_entry (entry : YarnLocked) (rest : List Char) :
    splitBlocks true (['\n'].intercalate entry.lines ++ rest) =
      (splitBlocks false rest).modifyHead (['\n'].intercalate entry.lines ++ ·) := by
  have hhead : (['\n'].intercalate entry.lines ++ rest).head? ≠ some '\n' := by
    have hheader : entry.header ∈ entry.lines := List.mem_cons_self
    rw [YarnLocked.lines, YarnLocked.members, List.cons_append, List.intercalate_cons_cons,
      List.append_assoc, List.append_assoc]
    exact head_line (line_ne_nil hheader).1 (line_ne_nil hheader).2
  rw [splitBlocks_passed hhead, splitBlocks_lines fun line hline => line_ne_nil hline]

/-- Every entry is a block of its own. -/
theorem filterMap_blocks (entries : List YarnLocked) :
    (splitBlocks true (joinLines ['\n'] ([[]].intercalate
      (entries.map YarnLocked.lines)))).filterMap parseBlock =
      entries.map YarnLocked.entryRead := by
  induction entries with
  | nil => rfl
  | cons entry entries ih =>
    have hlines : entry.lines ≠ [] := List.cons_ne_nil _ _
    cases entries with
    | nil =>
      -- the last block takes the line break at the end of the file along
      have hend : splitBlocks false ['\n'] = [['\n']] := rfl
      have hblank : ∀ line ∈ ([[]] : List (List Char)), line = [] := by simp
      rw [List.map_singleton, List.intercalate_singleton, joinLines_eq_append hlines,
        splitBlocks_entry, hend, List.modifyHead_cons, ← joinLines_eq_append hlines, joinLines_eq,
        List.filterMap_cons_some (parseBlock_lines entry hblank)]
      rfl
    | cons next more =>
      have hblank : ∀ line ∈ ([] : List (List Char)), line = [] := by simp
      have hparse := parseBlock_lines entry hblank
      rw [List.append_nil] at hparse
      have hbreak : joinLines ['\n'] [[]] = ['\n'] := rfl
      rw [List.map_cons] at ih
      rw [List.map_cons, List.map_cons, List.intercalate_cons_cons, joinLines_append,
        joinLines_append, joinLines_eq_append hlines, hbreak, List.append_assoc, List.append_assoc,
        splitBlocks_entry, List.singleton_append, List.singleton_append, splitBlocks_blank,
        List.modifyHead_cons, List.append_nil, List.filterMap_cons_some hparse, ih]
      rfl

theorem isContentLine_commentLine (text : YarnText) (eol : List Char) :
    isContentLine (commentLine text ++ eol) = false := rfl

theorem parseBlock_none {block : List Char}
    (h : ∀ line ∈ splitOn '\n' block, isContentLine line = false) : parseBlock block = none := by
  have hnone : (splitOn '\n' block).filter isContentLine = [] :=
    List.filter_eq_nil_iff.mpr fun line hline => by
      rw [h line hline]
      exact Bool.false_ne_true
  rw [parseBlock, hnone]
  rfl

theorem commentLine_ne_nil {comments : List YarnText} {line : List Char}
    (h : line ∈ comments.map commentLine) : line ≠ [] ∧ '\n' ∉ line := by
  obtain ⟨text, -, rfl⟩ := List.mem_map.mp h
  exact ⟨List.cons_ne_nil _ _,
    (Unbroken.cons rfl (Unbroken.cons rfl (unbroken_text text))).not_mem⟩

theorem parseBlock_comments (comments : List YarnText) :
    parseBlock (['\n'].intercalate (comments.map commentLine)) = none := by
  refine parseBlock_none fun line hline => ?_
  cases comments with
  | nil =>
    obtain rfl := List.mem_singleton.mp hline
    rfl
  | cons text comments =>
    have hne : (text :: comments).map commentLine ≠ [] := List.cons_ne_nil _ _
    rw [splitOn_joined hne,
      cutFields_eq_self fun line hline => (commentLine_ne_nil hline).2] at hline
    obtain ⟨comment, -, rfl⟩ := List.mem_map.mp hline
    have hcomment := isContentLine_commentLine comment []
    rwa [List.append_nil] at hcomment

/-- With one line break a line, every entry is read. -/
theorem parseYarnClassic_lf (comments : List YarnText) (entries : List YarnLocked) :
    parseYarnClassic (lockfileText .lf comments entries) =
      entries.map YarnLocked.entryRead := by
  have htail : ∀ rest, joinLines ['\n'] ([] :: [] :: rest) =
      '\n' :: '\n' :: joinLines ['\n'] rest := fun _ => rfl
  have hblocks : splitBlocks false (lockfileText .lf comments entries) =
      ['\n'].intercalate (comments.map commentLine) ::
        splitBlocks true (joinLines ['\n'] ([[]].intercalate (entries.map YarnLocked.lines))) := by
    rw [lockfileText, LineEnd.text, lockfileLines, joinLines_append, htail]
    cases comments with
    | nil => exact splitBlocks_blank
    | cons text comments =>
      have hpassed : ∀ rest, splitBlocks true ('\n' :: rest) = splitBlocks true rest := fun rest =>
        if_pos ⟨rfl, rfl⟩
      have hne : (text :: comments).map commentLine ≠ [] := List.cons_ne_nil _ _
      rw [joinLines_eq_append hne, List.append_assoc, List.singleton_append,
        splitBlocks_lines fun line hline => commentLine_ne_nil hline, splitBlocks_blank, hpassed,
        List.modifyHead_cons, List.append_nil]
  rw [parseYarnClassic, hblocks, List.filterMap_cons_none (parseBlock_comments comments),
    filterMap_blocks]

/-! ## Files with carriage returns -/

theorem splitBlocks_crlf {lines : List (List Char)} (h : ∀ line ∈ lines, '\n' ∉ line) :
    splitBlocks false (joinLines ['\r', '\n'] lines) = [joinLines ['\r', '\n'] lines] := by
  induction lines with
  | nil => rfl
  | cons line lines ih =>
    have htail := ih fun next hnext => h next (List.mem_cons_of_mem _ hnext)
    have hhead : (joinLines ['\r', '\n'] lines).head? ≠ some '\n' := by
      cases lines with
      | nil => exact (Option.some_ne_none _).symm
      | cons next more =>
        have hnext := h next (List.mem_cons_of_mem _ List.mem_cons_self)
        rw [joinLines, List.flatMap_cons]
        cases next with
        | nil => exact fun hr => absurd (Option.some_inj.mp hr) (by decide)
        | cons c cs => exact fun hc => hnext (Option.some_inj.mp hc ▸ List.mem_cons_self)
    have hline : '\n' ∉ line ++ ['\r'] := by
      rw [List.mem_append, List.mem_singleton, not_or]
      exact ⟨h line List.mem_cons_self, by decide⟩
    have hsplit : joinLines ['\r', '\n'] (line :: lines) =
        (line ++ ['\r']) ++ '\n' :: joinLines ['\r', '\n'] lines := by
      rw [joinLines, List.flatMap_cons, List.append_assoc, List.append_assoc]
      rfl
    rw [hsplit, splitBlocks_line hline, splitBlocks_break hhead, htail]
    rfl

/-- The lines of a file with carriage returns keep them. -/
theorem splitOn_crlf {lines : List (List Char)} (h : ∀ line ∈ lines, '\n' ∉ line) :
    splitOn '\n' (joinLines ['\r', '\n'] lines) =
      lines.map (fun line => line ++ ['\r']) ++ [[]] := by
  have hjoined : joinLines ['\r', '\n'] lines =
      joinLines ['\n'] (lines.map fun line => line ++ ['\r']) := by
    rw [joinLines, joinLines, List.flatMap_map]
    refine List.flatMap_congr fun line _ => ?_
    rw [List.append_assoc]
    rfl
  rw [hjoined, joinLines_eq, splitOn_joined
    (List.append_ne_nil_of_right_ne_nil _ (List.cons_ne_nil _ _)), cutFields_eq_self]
  intro line hline
  rcases List.mem_append.mp hline with hline | hline
  · obtain ⟨front, hfront, rfl⟩ := List.mem_map.mp hline
    rw [List.mem_append, List.mem_singleton, not_or]
    exact ⟨h front hfront, by decide⟩
  · rw [List.mem_singleton.mp hline]
    exact List.not_mem_nil

theorem not_mem_lockfileLines {comments : List YarnText} {entries : List YarnLocked}
    {line : List Char} (h : line ∈ lockfileLines comments entries) : '\n' ∉ line := by
  have hentries : ∀ entries : List YarnLocked,
      ∀ line ∈ [[]].intercalate (entries.map YarnLocked.lines), '\n' ∉ line := by
    intro entries
    induction entries with
    | nil => exact fun line hline => by cases hline
    | cons entry entries ih =>
      intro line hline
      cases entries with
      | nil =>
        rw [List.map_singleton, List.intercalate_singleton] at hline
        exact (line_ne_nil hline).2
      | cons next more =>
        rw [List.map_cons, List.map_cons, List.intercalate_cons_cons, List.append_assoc,
          List.mem_append, List.mem_append, List.mem_singleton] at hline
        rcases hline with hline | rfl | hline
        · exact (line_ne_nil hline).2
        · exact List.not_mem_nil
        · exact ih line hline
  rw [lockfileLines, List.mem_append, List.mem_cons, List.mem_cons] at h
  rcases h with h | rfl | rfl | h
  · exact (commentLine_ne_nil h).2
  · exact List.not_mem_nil
  · exact List.not_mem_nil
  · exact hentries entries line h

/-- With carriage returns nothing is read: the file is one block, and its first header does not
end with a colon. -/
theorem parseYarnClassic_crlf (comments : List YarnText) (entries : List YarnLocked) :
    parseYarnClassic (lockfileText .crlf comments entries) = [] := by
  have hlines : ∀ line ∈ lockfileLines comments entries, '\n' ∉ line := fun line hline =>
    not_mem_lockfileLines hline
  have hcomments : ((comments.map commentLine).map (· ++ ['\r'])).filter isContentLine = [] :=
    List.filter_eq_nil_iff.mpr fun line hline => by
      obtain ⟨comment, hcomment, rfl⟩ := List.mem_map.mp hline
      obtain ⟨text, -, rfl⟩ := List.mem_map.mp hcomment
      exact Bool.false_ne_true
  -- what is read begins with the first header, and a header with its carriage return
  have hfirst : ∀ header,
      ((splitOn '\n' (joinLines ['\r', '\n'] (lockfileLines comments entries))).filter
        isContentLine).head? = some header → header.getLast? = some '\r' := by
    intro header hheader
    rw [splitOn_crlf hlines, List.filter_append, lockfileLines, List.map_append,
      List.filter_append, hcomments, List.nil_append] at hheader
    cases entries with
    | nil => cases hheader
    | cons entry entries =>
      have hbegins : ∃ more, [[]].intercalate ((entry :: entries).map YarnLocked.lines) =
          entry.header :: more := by
        cases entries with
        | nil => exact ⟨_, by rw [List.map_singleton, List.intercalate_singleton]; rfl⟩
        | cons next more =>
          exact ⟨_, by rw [List.map_cons, List.map_cons, List.intercalate_cons_cons]; rfl⟩
      obtain ⟨more, hmore⟩ := hbegins
      have hcontent : isContentLine (entry.header ++ ['\r']) = true := by
        obtain ⟨c, cs, hcs, hc⟩ := exists_head_header entry
        have hne : c ≠ '#' := by
          rintro rfl
          exact hc.elim (by decide) fun h => absurd h (by decide)
        rw [hcs]
        exact @isContentLine_append [] _ c (by simp) (isJsSpace_of_head hc) hne
      rw [hmore, List.map_cons, List.map_cons, List.map_cons,
        List.filter_cons_of_neg Bool.false_ne_true, List.filter_cons_of_neg Bool.false_ne_true,
        List.filter_cons_of_pos hcontent, List.cons_append, List.head?_cons] at hheader
      rw [← Option.some_inj.mp hheader, List.getLast?_concat]
  rw [parseYarnClassic, lockfileText, LineEnd.text, splitBlocks_crlf hlines]
  refine List.filterMap_cons_none ?_
  rw [parseBlock]
  cases hhead : ((splitOn '\n' (joinLines ['\r', '\n'] (lockfileLines comments entries))).filter
    isContentLine).head? with
  | none => rfl
  | some header =>
    have hlast : header.getLast? ≠ some ':' := by
      rw [hfirst header hhead]
      exact fun h => absurd (Option.some_inj.mp h) (by decide)
    rw [Option.bind_some, if_pos (.inl hlast)]

/-! ## The files that come back -/

/-- Every entry of a file comes back as it was written exactly when the file has one line break
a line and every entry is one whose name and edges are read. -/
theorem parseYarnClassic_iff (eol : LineEnd) (comments : List YarnText)
    (entries : List YarnLocked) :
    parseYarnClassic (lockfileText eol comments entries) = entries.map YarnLocked.entry ↔
      entries = [] ∨ (eol = .lf ∧ ∀ entry ∈ entries, entry.ReadsName ∧ entry.ReadsEdges) := by
  have hentry : ∀ entry : YarnLocked,
      entry.entryRead = entry.entry ↔ entry.ReadsName ∧ entry.ReadsEdges := by
    intro entry
    rw [← nameRead_eq_iff, ← readDeps_eq_iff, YarnLocked.entryRead, YarnLocked.entry,
      YarnEntry.mk.injEq]
    exact and_congr_right' (and_iff_right rfl)
  cases eol with
  | lf =>
    rw [parseYarnClassic_lf, List.map_inj_left]
    constructor
    · exact fun h => .inr ⟨rfl, fun entry hmem => (hentry entry).mp (h entry hmem)⟩
    · rintro (rfl | ⟨-, h⟩)
      · exact fun entry hmem => by cases hmem
      · exact fun entry hmem => (hentry entry).mpr (h entry hmem)
  | crlf =>
    rw [parseYarnClassic_crlf]
    constructor
    · exact fun h => .inl (List.map_eq_nil_iff.mp h.symm)
    · rintro (rfl | ⟨heol, -⟩)
      · rfl
      · cases heol

/-- `left-pad` as yarn writes it. -/
def leftPad : YarnLocked where
  name := ⟨false, ['l', 'e', 'f', 't', '-', 'p', 'a', 'd'], List.cons_ne_nil _ _,
    List.all_eq_true.mp rfl⟩
  range := ⟨['^', '1', '.', '1', '.', '1'], by simp [isLineTerminator]⟩
  ranges := []
  version := ⟨'1', ['.', '1', '.', '3'], rfl, List.all_eq_true.mp rfl⟩
  fields := []
  dependencies := []
  optionalDependencies := []

/-- The same file with carriage returns has no entries. -/
theorem parseYarnClassic_leftPad :
    ¬ ∀ (eol : LineEnd) (comments : List YarnText) (entries : List YarnLocked),
      parseYarnClassic (lockfileText eol comments entries) = entries.map YarnLocked.entry := by
  intro h
  have hread := h .crlf [] [leftPad]
  rw [parseYarnClassic_crlf] at hread
  cases hread

end Scanner
end Ctem
