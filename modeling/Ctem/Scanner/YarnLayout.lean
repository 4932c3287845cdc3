import Ctem.Foundation.JoinedFields
import Ctem.Scanner.YarnClassic

/-!
# The layout of a yarn classic lockfile

How yarn writes its entries, and what `parseYarnClassic` reads of them.

* `YarnLocked` is what an entry locks; `lockfileText` is the file.
* `parseYarnClassic_iff`: which files come back as they were written.
-/

namespace Ctem
namespace Scanner

open Foundation

/-! ## What is written -/

/-- A range, or another text on one line. -/
structure YarnText where
  chars : List Char
  plain : ∀ c ∈ chars, c ≠ '"' ∧ isLineTerminator c = false ∧ 0x20 ≤ c.toNat

/-- What a name is written with. -/
def isNameChar (c : Char) : Bool :=
  !isJsSpace c && decide (c ∉ ['@', ',', '"', '\'', ':', '\\'] ∧ 0x20 ≤ c.toNat)

structure YarnName where
  hasScope : Bool
  body : List Char
  nonempty : body ≠ []
  plain : ∀ c ∈ body, isNameChar c = true

def YarnName.text (name : YarnName) : List Char :=
  if name.hasScope then '@' :: name.body else name.body

/-- A version begins with a digit. -/
structure YarnVersion where
  first : Char
  rest : List Char
  digit : first.isDigit = true
  plain : ∀ c ∈ rest, isNameChar c = true

def YarnVersion.text (version : YarnVersion) : List Char := version.first :: version.rest

/-- The members of an entry that are written on one line. -/
inductive YarnField where
  | uid | resolved | integrity | registry

def YarnField.word : YarnField → List Char
  | .uid => ['u', 'i', 'd']
  | .resolved => ['r', 'e', 's', 'o', 'l', 'v', 'e', 'd']
  | .integrity => ['i', 'n', 't', 'e', 'g', 'r', 'i', 't', 'y']
  | .registry => ['r', 'e', 'g', 'i', 's', 't', 'r', 'y']

/-- An entry: the ranges that its package is asked for in, and what they are locked to. -/
structure YarnLocked where
  name : YarnName
  range : YarnText
  ranges : List YarnText
  version : YarnVersion
  fields : List (YarnField × YarnText)
  dependencies : List (YarnName × YarnText)
  optionalDependencies : List (YarnName × YarnText)

/-! ## How it is written -/

/-- `JSON.stringify` between its quotes, for a text without quotes and control characters. -/
def escaped (chars : List Char) : List Char :=
  chars.flatMap fun c => if c = '\\' then ['\\', '\\'] else [c]

def quoteText (chars : List Char) : List Char := '"' :: (escaped chars ++ ['"'])

def isLetter (c : Char) : Bool :=
  (decide ('a' ≤ c) && decide (c ≤ 'z')) || (decide ('A' ≤ c) && decide (c ≤ 'Z'))

/-- What yarn quotes: a text that begins like a boolean or not with a letter, or has a mark of
the format in it. -/
def shouldWrapKey (chars : List Char) : Bool :=
  decide (['t', 'r', 'u', 'e'] <+: chars) || decide (['f', 'a', 'l', 's', 'e'] <+: chars) ||
    chars.any (fun c => isJsSpace c || decide (c ∈ [':', '\\', '"', ',', '[', ']'])) ||
    !(chars.head?.any isLetter)

def maybeWrap (chars : List Char) : List Char :=
  if shouldWrapKey chars then quoteText chars else chars

def YarnName.descriptor (name : YarnName) (range : YarnText) : List Char :=
  name.text ++ '@' :: range.chars

def YarnLocked.descriptors (entry : YarnLocked) : List (List Char) :=
  (entry.range :: entry.ranges).map entry.name.descriptor

def YarnLocked.header (entry : YarnLocked) : List Char :=
  [',', ' '].intercalate (entry.descriptors.map maybeWrap) ++ [':']

/-- `key value`, at the indent of the members of an entry. -/
def memberLine (key value : List Char) : List Char :=
  ' ' :: ' ' :: (key ++ ' ' :: maybeWrap value)

def depLine (dep : YarnName × YarnText) : List Char :=
  ' ' :: ' ' :: ' ' :: ' ' :: (maybeWrap dep.1.text ++ ' ' :: maybeWrap dep.2.chars)

/-- A block of dependencies is written when there are any. -/
def depBlock (word : List Char) (deps : List (YarnName × YarnText)) : List (List Char) :=
  if deps.isEmpty then [] else (' ' :: ' ' :: word) :: deps.map depLine

def optionalWord : List Char :=
  ['o', 'p', 't', 'i', 'o', 'n', 'a', 'l', 'D', 'e', 'p', 'e', 'n', 'd', 'e', 'n', 'c', 'i', 'e',
    's', ':']

def YarnLocked.members (entry : YarnLocked) : List (List Char) :=
  memberLine versionWord entry.version.text ::
    (entry.fields.map fun field => memberLine field.1.word field.2.chars)

def YarnLocked.lines (entry : YarnLocked) : List (List Char) :=
  entry.header :: (entry.members ++ (depBlock dependenciesWord entry.dependencies ++
    depBlock optionalWord entry.optionalDependencies))

inductive LineEnd where
  | lf | crlf
  deriving DecidableEq

def LineEnd.text : LineEnd → List Char
  | .lf => ['\n']
  | .crlf => ['\r', '\n']

def commentLine (text : YarnText) : List Char := '#' :: ' ' :: text.chars

/-- The comments, two blank lines, and the entries with a blank line between any two. -/
def lockfileLines (comments : List YarnText) (entries : List YarnLocked) : List (List Char) :=
  comments.map commentLine ++ [] :: [] :: [[]].intercalate (entries.map YarnLocked.lines)

def joinLines (eol : List Char) (lines : List (List Char)) : List Char :=
  lines.flatMap fun line => line ++ eol

def lockfileText (eol : LineEnd) (comments : List YarnText) (entries : List YarnLocked) :
    List Char :=
  joinLines eol.text (lockfileLines comments entries)

/-- What a reader of the file learns of an entry. -/
def YarnLocked.entry (entry : YarnLocked) : YarnEntry where
  name := entry.name.text
  version := entry.version.text
  deps := (entry.dependencies ++ entry.optionalDependencies).map fun dep =>
    ⟨dep.1.text, dep.2.chars⟩

/-! ## A text and its quotes -/

theorem escaped_eq_self {chars : List Char} (h : '\\' ∉ chars) : escaped chars = chars := by
  induction chars with
  | nil => rfl
  | cons c cs ih =>
    rw [List.mem_cons, not_or] at h
    rw [escaped, List.flatMap_cons, if_neg (Ne.symm h.1)]
    exact congrArg (c :: ·) (ih h.2)

theorem mem_escaped {chars : List Char} {c : Char} : c ∈ escaped chars ↔ c ∈ chars := by
  rw [escaped, List.mem_flatMap]
  constructor
  · rintro ⟨d, hd, hc⟩
    split at hc
    · rename_i hback
      obtain rfl | rfl : c = '\\' ∨ c = '\\' := by simpa using hc
      all_goals exact hback ▸ hd
    · obtain rfl := List.mem_singleton.mp hc
      exact hd
  · intro hc
    refine ⟨c, hc, ?_⟩
    split
    · rename_i hback
      simp [hback]
    · exact List.mem_singleton_self c

/-- A text is read as it was written when it has no backslash. -/
theorem escaped_eq_self_iff {chars : List Char} : escaped chars = chars ↔ '\\' ∉ chars := by
  refine ⟨fun h hmem => ?_, escaped_eq_self⟩
  have hle : ∀ cs : List Char, cs.length ≤ (escaped cs).length := by
    intro cs
    induction cs with
    | nil => exact Nat.le_refl 0
    | cons c cs ih =>
      rw [escaped, List.flatMap_cons, List.length_append, List.length_cons]
      rw [escaped] at ih
      split <;> simp only [List.length_cons, List.length_nil] <;> omega
  have hlt : ∀ cs : List Char, '\\' ∈ cs → cs.length < (escaped cs).length := by
    intro cs hcs
    induction cs with
    | nil => cases hcs
    | cons c cs ih =>
      have hrest := hle cs
      rw [escaped] at ih hrest
      rw [escaped, List.flatMap_cons, List.length_append, List.length_cons]
      split
      · simp only [List.length_cons, List.length_nil]
        omega
      · rename_i hc
        have := ih ((List.mem_cons.mp hcs).resolve_left fun h => hc h.symm)
        simp only [List.length_cons, List.length_nil]
        omega
  have := hlt chars hmem
  rw [h] at this
  exact Nat.lt_irrefl _ this

theorem escaped_append (as bs : List Char) : escaped (as ++ bs) = escaped as ++ escaped bs :=
  List.flatMap_append

theorem YarnText.not_mem_quote (text : YarnText) : '"' ∉ text.chars := fun h =>
  (text.plain '"' h).1 rfl

theorem isNameChar_iff {c : Char} : isNameChar c = true ↔
    isJsSpace c = false ∧ c ∉ ['@', ',', '"', '\'', ':', '\\'] ∧ 0x20 ≤ c.toNat := by
  simp [isNameChar]

namespace YarnName

variable (name : YarnName)

theorem mem_text {c : Char} (h : c ∈ name.text) : c = '@' ∨ isNameChar c = true := by
  rw [YarnName.text] at h
  split at h
  · exact (List.mem_cons.mp h).imp_right (name.plain c)
  · exact .inr (name.plain c h)

theorem not_mem {c : Char} (hc : c ∈ [',', '"', '\'', ':', '\\']) : c ∉ name.text := by
  intro h
  rcases name.mem_text h with rfl | hplain
  · exact absurd hc (by decide)
  · exact (isNameChar_iff.mp hplain).2.1 (List.mem_cons_of_mem _ hc)

theorem noSpace {c : Char} (h : c ∈ name.text) : isJsSpace c = false := by
  rcases name.mem_text h with rfl | hplain
  · rfl
  · exact (isNameChar_iff.mp hplain).1

theorem text_ne_nil : name.text ≠ [] := by
  rw [YarnName.text]
  split
  · exact List.cons_ne_nil _ _
  · exact name.nonempty

theorem at_not_mem_body : '@' ∉ name.body := fun h =>
  (isNameChar_iff.mp (name.plain '@' h)).2.1 List.mem_cons_self

theorem escaped_text : escaped name.text = name.text := escaped_eq_self (name.not_mem (by decide))

end YarnName

namespace YarnVersion

variable (version : YarnVersion)

theorem mem_text {c : Char} (h : c ∈ version.text) : c.isDigit = true ∨ isNameChar c = true := by
  rcases List.mem_cons.mp h with rfl | h
  · exact .inl version.digit
  · exact .inr (version.plain c h)

theorem not_mem {c : Char} (hc : c ∈ ['"', '\\']) : c ∉ version.text := by
  intro h
  rcases version.mem_text h with hdigit | hplain
  · simp only [List.mem_cons, List.not_mem_nil, or_false] at hc
    rcases hc with rfl | rfl <;> exact absurd hdigit (by decide)
  · refine (isNameChar_iff.mp hplain).2.1 ?_
    simp only [List.mem_cons, List.not_mem_nil, or_false] at hc ⊢
    tauto

end YarnVersion

theorem isLetter_bounds {c : Char} (h : isLetter c = true) :
    (97 ≤ c.toNat ∧ c.toNat ≤ 122) ∨ (65 ≤ c.toNat ∧ c.toNat ≤ 90) := by
  simp only [isLetter, Bool.or_eq_true, Bool.and_eq_true, decide_eq_true_eq, Char.le_def,
    UInt32.le_iff_toNat_le] at h
  exact h

theorem isJsSpace_of_isLetter {c : Char} (h : isLetter c = true) : isJsSpace c = false := by
  have hbounds := isLetter_bounds h
  simp only [isJsSpace, List.mem_cons, List.not_mem_nil, or_false, Bool.or_eq_false_iff,
    Bool.and_eq_false_iff, decide_eq_false_iff_not]
  omega

/-- What is written as it stands begins with a letter and has none of the marks in it. -/
theorem exists_letter {chars : List Char} (h : shouldWrapKey chars = false) :
    ∃ c cs, chars = c :: cs ∧ isLetter c = true ∧
      ∀ d ∈ chars, isJsSpace d = false ∧ d ∉ [':', '\\', '"', ',', '[', ']'] := by
  simp only [shouldWrapKey, Bool.or_eq_false_iff, Bool.not_eq_false', List.any_eq_false] at h
  obtain ⟨⟨-, hmarks⟩, hletter⟩ := h
  cases chars with
  | nil => cases hletter
  | cons c cs =>
    refine ⟨c, cs, rfl, hletter, fun d hd => ?_⟩
    have hplain := hmarks d hd
    rw [Bool.not_eq_true, Bool.or_eq_false_iff, decide_eq_false_iff_not] at hplain
    exact hplain

theorem maybeWrap_wrapped {chars : List Char} (h : shouldWrapKey chars = true) :
    maybeWrap chars = '"' :: (escaped chars ++ ['"']) := if_pos h

theorem maybeWrap_plain {chars : List Char} (h : shouldWrapKey chars = false) :
    maybeWrap chars = chars := by
  rw [maybeWrap, h]
  rfl

/-- A written text begins with a quote or a letter. -/
theorem exists_head_maybeWrap (chars : List Char) :
    ∃ c cs, maybeWrap chars = c :: cs ∧ (c = '"' ∨ isLetter c = true) := by
  cases h : shouldWrapKey chars with
  | true => exact ⟨'"', _, maybeWrap_wrapped h, .inl rfl⟩
  | false =>
    obtain ⟨c, cs, hchars, hletter, -⟩ := exists_letter h
    exact ⟨c, cs, by rw [maybeWrap_plain h, hchars], .inr hletter⟩

theorem isJsSpace_of_head {c : Char} (h : c = '"' ∨ isLetter c = true) : isJsSpace c = false := by
  rcases h with rfl | h
  · rfl
  · exact isJsSpace_of_isLetter h

theorem isJsSpace_head_maybeWrap (chars rest : List Char) :
    ∀ c, (maybeWrap chars ++ rest).head? = some c → isJsSpace c = false := by
  intro c hc
  obtain ⟨d, ds, hwritten, hd⟩ := exists_head_maybeWrap chars
  rw [hwritten] at hc
  exact Option.some_inj.mp hc ▸ isJsSpace_of_head hd

theorem shouldWrapKey_digit (version : YarnVersion) : shouldWrapKey version.text = true := by
  have hletter : isLetter version.first = false := by
    have hdigit := version.digit
    by_contra hno
    have hbounds := isLetter_bounds (Bool.not_eq_false _ ▸ hno : isLetter version.first = true)
    simp only [Char.isDigit, Bool.and_eq_true, decide_eq_true_eq, ge_iff_le,
      UInt32.le_iff_toNat_le] at hdigit
    have hnine : version.first.toNat ≤ 57 := hdigit.2
    omega
  simp [shouldWrapKey, YarnVersion.text, hletter]

/-! ## A line of dependencies -/

theorem afterSpaces_append {lead cs : List Char} (hne : lead ≠ [])
    (hlead : ∀ c ∈ lead, isJsSpace c = true)
    (hhead : ∀ c, cs.head? = some c → isJsSpace c = false) :
    afterSpaces (lead ++ cs) = some cs := by
  obtain ⟨c, rest, rfl⟩ := List.exists_cons_of_ne_nil hne
  have hfirst : ((c :: rest ++ cs).head?.any isJsSpace) = true := hlead c List.mem_cons_self
  rw [afterSpaces, if_pos hfirst, List.dropWhile_append_of_pos hlead, dropSpaces_of_head hhead]

theorem afterQuoted_stands {chars : List Char} (h : '"' ∉ chars) (rest : List Char) :
    afterQuoted ('"' :: (chars ++ '"' :: rest)) = some (chars, rest) := by
  have hkeep : ∀ c ∈ chars, decide (c ≠ '"') = true := fun c hc =>
    decide_eq_true fun h' => h (h' ▸ hc)
  have hmem : '"' ∈ chars ++ '"' :: rest := by simp
  rw [afterQuoted, if_pos ⟨rfl, hmem⟩, List.takeWhile_append_of_pos hkeep,
    List.dropWhile_append_of_pos hkeep]
  simp

theorem afterQuoted_of_head {c : Char} (h : c ≠ '"') (cs : List Char) :
    afterQuoted (c :: cs) = none := by
  rw [afterQuoted, if_neg fun hc => h hc.1]

theorem rangeHere_maybeWrap {chars : List Char} (h : '"' ∉ chars) :
    rangeHere (' ' :: maybeWrap chars) =
      if shouldWrapKey chars = true then some (escaped chars) else none := by
  have hhead := isJsSpace_head_maybeWrap chars []
  rw [List.append_nil] at hhead
  have hspaces : afterSpaces ([' '] ++ maybeWrap chars) = some (maybeWrap chars) :=
    afterSpaces_append (List.cons_ne_nil _ _) (by simp [isJsSpace]) hhead
  rw [List.singleton_append] at hspaces
  rw [rangeHere, hspaces, Option.bind_some]
  cases hwrap : shouldWrapKey chars with
  | true =>
    have hquote : '"' ∉ escaped chars := fun hmem => h (mem_escaped.mp hmem)
    rw [maybeWrap_wrapped hwrap, afterQuoted_stands hquote]
    rfl
  | false =>
    obtain ⟨d, ds, rfl, hletter, -⟩ := exists_letter hwrap
    have hne : d ≠ '"' := by
      rintro rfl
      exact absurd hletter (by decide)
    rw [maybeWrap_plain hwrap, afterQuoted_of_head hne]
    rfl

/-- Of a dependency only the range may be lost or changed. -/
theorem depMatch_depLine (dep : YarnName × YarnText) :
    depMatch (depLine dep) = if shouldWrapKey dep.2.chars = true then
      some ⟨dep.1.text, escaped dep.2.chars⟩ else none := by
  obtain ⟨name, range⟩ := dep
  have hrange := rangeHere_maybeWrap range.not_mem_quote
  have hquote : '"' ∉ name.text := name.not_mem (by decide)
  have hindent : afterIndent (depLine (name, range)) =
      some (maybeWrap name.text ++ ' ' :: maybeWrap range.chars) :=
    if_pos ⟨by simp [depLine], by simp [depLine, isJsSpace]⟩
  rw [depMatch, hindent, Option.bind_some]
  cases hname : shouldWrapKey name.text with
  | true =>
    rw [maybeWrap_wrapped hname, name.escaped_text, List.cons_append, List.append_assoc,
      List.singleton_append]
    have hquoted : quotedDep ('"' :: (name.text ++ '"' :: ' ' :: maybeWrap range.chars)) =
        if shouldWrapKey range.chars = true then
          some ⟨name.text, escaped range.chars⟩ else none := by
      rw [quotedDep, afterQuoted_stands hquote, Option.bind_some, if_neg name.text_ne_nil, hrange]
      split <;> rfl
    rw [hquoted]
    split
    · rfl
    · -- the word of the second form takes the quotes along, and no range follows either
      rename_i hwrap
      have hword : ∀ c ∈ '"' :: (name.text ++ ['"']), (!isJsSpace c) = true := by
        intro c hc
        simp only [List.mem_cons, List.mem_append, List.not_mem_nil, or_false] at hc
        rcases hc with rfl | hc | rfl
        · rfl
        · rw [name.noSpace hc]
          rfl
        · rfl
      have hsplit : '"' :: (name.text ++ '"' :: ' ' :: maybeWrap range.chars) =
          ('"' :: (name.text ++ ['"'])) ++ ' ' :: maybeWrap range.chars := by simp
      have htake : ('"' :: (name.text ++ '"' :: ' ' :: maybeWrap range.chars)).takeWhile
          (fun c => !isJsSpace c) = '"' :: (name.text ++ ['"']) := by
        rw [hsplit, List.takeWhile_append_of_pos hword, List.takeWhile_cons,
          if_neg (by decide), List.append_nil]
      rw [Option.none_or, plainDep, htake, if_neg (List.cons_ne_nil _ _), hsplit,
        List.drop_left, hrange, if_neg hwrap]
      rfl
  | false =>
    obtain ⟨c, cs, hchars, hletter, -⟩ := exists_letter hname
    have hne : c ≠ '"' := by
      rintro rfl
      exact absurd hletter (by decide)
    have hword : ∀ c ∈ name.text, (!isJsSpace c) = true := fun c hc => by
      rw [name.noSpace hc]
      rfl
    have htake : (name.text ++ ' ' :: maybeWrap range.chars).takeWhile
        (fun c => !isJsSpace c) = name.text := by
      rw [List.takeWhile_append_of_pos hword, List.takeWhile_cons, if_neg (by decide),
        List.append_nil]
    have hquoted : quotedDep (name.text ++ ' ' :: maybeWrap range.chars) = none := by
      rw [hchars, quotedDep, List.cons_append, afterQuoted_of_head hne]
      rfl
    rw [maybeWrap_plain hname, hquoted, Option.none_or, plainDep, htake,
      if_neg name.text_ne_nil, List.drop_left, hrange]
    split <;> rfl

/-! ## The lines of an entry -/

theorem prefix_of_append_cons {word front later : List Char} {sep : Char}
    (h : word <+: front ++ sep :: later) (hsep : sep ∉ word) : word <+: front := by
  rcases List.prefix_or_prefix_of_prefix h (List.prefix_append front _) with hword | hfront
  · exact hword
  obtain ⟨rest, rfl⟩ := hfront
  rw [List.prefix_append_right_inj] at h
  cases rest with
  | nil => rw [List.append_nil]
  | cons c rest =>
    obtain ⟨rfl, -⟩ := List.cons_prefix_cons.mp h
    exact absurd (List.mem_append_right front List.mem_cons_self) hsep

theorem afterSpaces_depLine (dep : YarnName × YarnText) :
    afterSpaces (depLine dep) = some (maybeWrap dep.1.text ++ ' ' :: maybeWrap dep.2.chars) :=
  @afterSpaces_append [' ', ' ', ' ', ' '] _ (List.cons_ne_nil _ _) (by simp [isJsSpace])
    (isJsSpace_head_maybeWrap _ _)

/-- A dependency does not open a block, whatever its name is. -/
theorem opensDependencies_depLine (dep : YarnName × YarnText) :
    opensDependencies (depLine dep) = false := by
  have hword : ¬ dependenciesWord <+: maybeWrap dep.1.text ++ ' ' :: maybeWrap dep.2.chars := by
    intro h
    cases hwrap : shouldWrapKey dep.1.text with
    | true =>
      rw [maybeWrap_wrapped hwrap] at h
      exact absurd (List.cons_prefix_cons.mp h).1 (by decide)
    | false =>
      rw [maybeWrap_plain hwrap] at h
      have hname := prefix_of_append_cons h (by decide)
      exact dep.1.not_mem (c := ':') (by decide) (hname.subset (by decide))
  rw [opensDependencies, afterSpaces_depLine, Option.bind_some, afterLetters, if_neg hword]
  rfl

theorem isIndented_depLine (dep : YarnName × YarnText) : isIndented (depLine dep) = true := by
  have hindent : afterIndent (depLine dep) =
      some (maybeWrap dep.1.text ++ ' ' :: maybeWrap dep.2.chars) :=
    if_pos ⟨by simp [depLine], by simp [depLine, isJsSpace]⟩
  obtain ⟨c, cs, hwritten, hc⟩ := exists_head_maybeWrap dep.1.text
  rw [isIndented, hindent, hwritten]
  show (!isJsSpace c) = true
  rw [isJsSpace_of_head hc]
  rfl

/-- No line that begins like the members of an entry opens the block, but its own. -/
theorem opensDependencies_member {c : Char} {cs : List Char} (hc : isJsSpace c = false)
    (hne : c ≠ 'd') : opensDependencies (' ' :: ' ' :: c :: cs) = false := by
  have hspaces : afterSpaces (' ' :: ' ' :: c :: cs) = some (c :: cs) :=
    @afterSpaces_append [' ', ' '] _ (List.cons_ne_nil _ _) (by simp [isJsSpace])
      fun d hd => Option.some_inj.mp hd ▸ hc
  have hword : ¬ dependenciesWord <+: c :: cs := fun h =>
    hne (List.cons_prefix_cons.mp h).1.symm
  rw [opensDependencies, hspaces, Option.bind_some, afterLetters, if_neg hword]
  rfl

theorem opensDependencies_memberLine {line : List Char} {entry : YarnLocked}
    (h : line ∈ entry.members) : opensDependencies line = false := by
  rcases List.mem_cons.mp h with rfl | h
  · exact opensDependencies_member rfl (by decide)
  · obtain ⟨⟨field, value⟩, -, rfl⟩ := List.mem_map.mp h
    cases field <;> exact opensDependencies_member rfl (by decide)

theorem exists_head_header (entry : YarnLocked) :
    ∃ c cs, entry.header = c :: cs ∧ (c = '"' ∨ isLetter c = true) := by
  obtain ⟨c, cs, hwritten, hc⟩ := exists_head_maybeWrap (entry.name.descriptor entry.range)
  rw [YarnLocked.header, YarnLocked.descriptors, List.map_cons, List.map_cons, hwritten]
  cases (entry.ranges.map entry.name.descriptor).map maybeWrap with
  | nil => exact ⟨c, _, rfl, hc⟩
  | cons next more => exact ⟨c, _, by rw [List.intercalate_cons_cons]; rfl, hc⟩

theorem opensDependencies_header (entry : YarnLocked) : opensDependencies entry.header = false := by
  obtain ⟨c, cs, hheader, hc⟩ := exists_head_header entry
  have hspace : ¬ (Option.any isJsSpace (some c) = true) := by
    show ¬ isJsSpace c = true
    rw [isJsSpace_of_head hc]
    decide
  rw [opensDependencies, hheader, afterSpaces, List.head?_cons, if_neg hspace]
  rfl

theorem readDeps_skip {lines rest : List (List Char)}
    (h : ∀ line ∈ lines, opensDependencies line = false) :
    readDeps false (lines ++ rest) = readDeps false rest := by
  induction lines with
  | nil => rfl
  | cons line lines ih =>
    rw [List.cons_append, readDeps, h line List.mem_cons_self, if_neg Bool.false_ne_true,
      if_neg fun hdeps => Bool.false_ne_true hdeps.1]
    exact ih fun next hnext => h next (List.mem_cons_of_mem _ hnext)

theorem readDeps_depLines (deps : List (YarnName × YarnText)) (rest : List (List Char)) :
    readDeps true (deps.map depLine ++ rest) =
      deps.filterMap (fun dep => depMatch (depLine dep)) ++ readDeps true rest := by
  induction deps with
  | nil => rfl
  | cons dep deps ih =>
    rw [List.map_cons, List.cons_append, readDeps, opensDependencies_depLine,
      if_neg Bool.false_ne_true, if_pos ⟨rfl, isIndented_depLine dep⟩, ih, List.filterMap_cons]
    cases depMatch (depLine dep) <;> rfl

/-- The block of optional dependencies is passed over. -/
theorem readDeps_optional (inDeps : Bool) (deps : List (YarnName × YarnText)) :
    readDeps inDeps (depBlock optionalWord deps) = [] := by
  rw [depBlock]
  split
  · cases inDeps <;> rfl
  · have hopens : opensDependencies (' ' :: ' ' :: optionalWord) = false :=
      opensDependencies_member rfl (by decide)
    have hindent : isIndented (' ' :: ' ' :: optionalWord) = false := rfl
    have hskip : readDeps false (deps.map depLine) = [] := by
      have hlines := @readDeps_skip (deps.map depLine) [] fun line hline => by
        obtain ⟨dep, -, rfl⟩ := List.mem_map.mp hline
        exact opensDependencies_depLine dep
      rwa [List.append_nil] at hlines
    rw [readDeps, hopens, hindent, if_neg Bool.false_ne_true,
      if_neg fun hdeps => Bool.false_ne_true hdeps.2, hskip]

theorem readDeps_lines (entry : YarnLocked) :
    readDeps false entry.lines =
      entry.dependencies.filterMap fun dep => depMatch (depLine dep) := by
  have hopening : ∀ line ∈ entry.header :: entry.members, opensDependencies line = false := by
    intro line hline
    rcases List.mem_cons.mp hline with rfl | hline
    · exact opensDependencies_header entry
    · exact opensDependencies_memberLine hline
  rw [YarnLocked.lines, ← List.cons_append, readDeps_skip hopening, depBlock]
  split
  · rename_i hempty
    rw [List.isEmpty_iff.mp hempty, List.nil_append, readDeps_optional]
    rfl
  · have hopens : opensDependencies (' ' :: ' ' :: dependenciesWord) = true := rfl
    rw [List.cons_append, readDeps, hopens, if_pos rfl, readDeps_depLines, readDeps_optional,
      List.append_nil]

/-! ## What is read of the dependencies -/

section FilterMap

variable {α β : Type} {f : α → Option β} {g : α → β}

theorem filterMap_eq_map_iff (l : List α) :
    l.filterMap f = l.map g ↔ ∀ a ∈ l, f a = some (g a) := by
  induction l with
  | nil => simp
  | cons a l ih =>
    rw [List.map_cons, List.forall_mem_cons, ← ih]
    cases hfa : f a with
    | none =>
      rw [List.filterMap_cons_none hfa]
      refine iff_of_false (fun h => ?_) fun h => Option.some_ne_none _ h.1.symm
      have hlength := congrArg List.length h
      have hle := List.length_filterMap_le f l
      rw [List.length_cons, List.length_map] at hlength
      omega
    | some b => rw [List.filterMap_cons_some hfa, List.cons.injEq, Option.some_inj]

/-- Nothing is left out and nothing more is wanted. -/
theorem filterMap_eq_map_append_iff (l more : List α) :
    l.filterMap f = (l ++ more).map g ↔ more = [] ∧ ∀ a ∈ l, f a = some (g a) := by
  rw [← filterMap_eq_map_iff]
  constructor
  · intro h
    have hlength := congrArg List.length h
    have hle := List.length_filterMap_le f l
    rw [List.length_map, List.length_append] at hlength
    have hmore : more = [] := List.eq_nil_of_length_eq_zero (by omega)
    rw [hmore, List.append_nil] at h
    exact ⟨hmore, h⟩
  · rintro ⟨rfl, h⟩
    rw [List.append_nil, h]

end FilterMap

/-- The edges of an entry are read. -/
def YarnLocked.ReadsEdges (entry : YarnLocked) : Prop :=
  entry.optionalDependencies = [] ∧
    ∀ dep ∈ entry.dependencies, shouldWrapKey dep.2.chars = true ∧ '\\' ∉ dep.2.chars

theorem readDeps_eq_iff (entry : YarnLocked) :
    readDeps false entry.lines = entry.entry.deps ↔ entry.ReadsEdges := by
  rw [readDeps_lines]
  refine (filterMap_eq_map_append_iff _ _).trans (and_congr_right' (forall₂_congr ?_))
  intro dep _
  rw [depMatch_depLine]
  split
  · rename_i hwrap
    simp [hwrap, escaped_eq_self_iff]
  · rename_i hwrap
    simp [hwrap]

/-! ## What is read of the name -/

def npmWord : List Char := ['n', 'p', 'm', ':']

/-- A descriptor with this range, as it is written, is cut behind the name. -/
def YarnName.CutsAt (name : YarnName) (range : List Char) : Prop :=
  npmWord <+: range ∨ (¬ npmProtocol <:+: range ∧ (name.hasScope = true → '@' ∉ range))

theorem take_eq_front_iff {front later : List Char} {k : Nat} (hk : front.length ≤ k)
    (hlater : k ≤ (front ++ later).length) :
    (front ++ later).take k = front ↔ k = front.length := by
  constructor
  · intro h
    have hlength := congrArg List.length h
    rw [List.length_take, Nat.min_eq_left hlater] at hlength
    exact hlength
  · rintro rfl
    exact List.take_left

/-- The protocol does not stand inside a name. -/
theorem firstIndex_name (name : YarnName) (range : List Char) :
    firstIndex npmProtocol (name.text ++ '@' :: range) =
      (firstIndex npmProtocol ('@' :: range)).map fun i => name.text.length + i := by
  rw [YarnName.text]
  split
  · have hnot : ¬ npmProtocol <+: '@' :: (name.body ++ '@' :: range) := by
      intro h
      have hbody := prefix_of_append_cons (List.cons_prefix_cons.mp h).2 (by decide)
      exact (isNameChar_iff.mp (name.plain ':' (hbody.subset (by decide)))).2.1 (by decide)
    exact firstIndex_skip_cons hnot name.at_not_mem_body
  · exact firstIndex_skip name.at_not_mem_body

theorem nameOfRaw_eq_iff (name : YarnName) (range : List Char) :
    nameOfRaw (name.text ++ '@' :: range) = name.text ↔ name.CutsAt range := by
  have hpos : 0 < name.text.length := List.length_pos_of_ne_nil name.text_ne_nil
  rw [nameOfRaw, firstIndex_name, YarnName.CutsAt]
  by_cases hnpm : npmWord <+: range
  · have hstands : npmProtocol <+: '@' :: range := List.cons_prefix_cons.mpr ⟨rfl, hnpm⟩
    refine iff_of_true ?_ (.inl hnpm)
    rw [firstIndex_of_stands hstands, Option.map_some, Nat.add_zero, Option.filter_some,
      if_pos (decide_eq_true hpos)]
    exact List.take_left
  have hnot : ¬ npmProtocol <+: '@' :: range := fun h => hnpm (List.cons_prefix_cons.mp h).2
  rw [firstIndex_cons hnot]
  cases hindex : firstIndex npmProtocol range with
  | some i =>
    -- the protocol stands inside the range, and the name runs up to it
    have hinfix : npmProtocol <:+: range := by
      by_contra hno
      exact Option.some_ne_none i (hindex.symm.trans (firstIndex_eq_none_iff.mpr hno))
    have hlength := length_of_firstIndex hindex
    refine iff_of_false (fun h => ?_) fun h => h.elim hnpm fun h => h.1 hinfix
    rw [Option.map_some, Option.map_some, Option.filter_some,
      if_pos (decide_eq_true (by omega))] at h
    have hk := (take_eq_front_iff (by omega) (by
      rw [List.length_append, List.length_cons]
      omega)).mp h
    omega
  | none =>
    have hinfix := firstIndex_eq_none_iff.mp hindex
    rw [Option.map_none, Option.map_none, Option.filter_none, Option.elim_none]
    simp only [hnpm, hinfix, false_or, not_false_eq_true, true_and]
    cases hscope : name.hasScope with
    | true =>
      have hhead : (name.text ++ '@' :: range).head? = some '@' := by
        rw [YarnName.text, hscope]
        rfl
      rw [if_pos hhead]
      by_cases hmem : '@' ∈ range
      · obtain ⟨front, later, rfl, hlater⟩ := exists_last hmem
        have hlast : lastIndexOf '@' (name.text ++ '@' :: (front ++ '@' :: later)) =
            some (name.text ++ '@' :: front).length := by
          rw [← lastIndexOf_append _ hlater, List.append_assoc, List.cons_append]
        refine iff_of_false (fun h => ?_) fun h => h rfl hmem
        rw [hlast, Option.filter_some, if_pos (decide_eq_true (by
          rw [List.length_append]
          omega))] at h
        have hk := (take_eq_front_iff (by rw [List.length_append]; omega) (by
          simp only [List.length_append, List.length_cons]
          omega)).mp h
        rw [List.length_append, List.length_cons] at hk
        omega
      · refine iff_of_true ?_ fun _ => hmem
        rw [lastIndexOf_append _ hmem, Option.filter_some, if_pos (decide_eq_true hpos)]
        exact List.take_left
    | false =>
      have htext : name.text = name.body := by
        rw [YarnName.text, hscope]
        rfl
      have hat : '@' ∉ name.text := htext ▸ name.at_not_mem_body
      have hhead : (name.text ++ '@' :: range).head? ≠ some '@' := by
        obtain ⟨c, cs, hcs⟩ := List.exists_cons_of_ne_nil name.text_ne_nil
        rw [hcs]
        intro h
        exact hat (hcs ▸ Option.some_inj.mp h ▸ List.mem_cons_self)
      refine iff_of_true ?_ fun h => absurd h Bool.false_ne_true
      rw [if_neg hhead, idxOf?_append_cons hat]
      exact List.take_left

/-- A name that is cut off begins where the descriptor does. -/
theorem head_nameOfRaw (c : Char) (cs : List Char) : (nameOfRaw (c :: cs)).head? = some c := by
  have htake : ∀ k, 0 < k → ((c :: cs).take k).head? = some c := by
    intro k hk
    obtain ⟨j, rfl⟩ := Nat.exists_eq_succ_of_ne_zero (Nat.pos_iff_ne_zero.mp hk)
    rfl
  rw [nameOfRaw]
  cases hnpm : (firstIndex npmProtocol (c :: cs)).filter fun i => decide (0 < i) with
  | some k => exact htake k (of_decide_eq_true (Option.filter_eq_some_iff.mp hnpm).2)
  | none =>
    rw [Option.elim_none]
    by_cases hc : c = '@'
    · rw [if_pos (by rw [hc]; rfl)]
      cases hlast : (lastIndexOf '@' (c :: cs)).filter fun i => decide (0 < i) with
      | some k => exact htake k (of_decide_eq_true (Option.filter_eq_some_iff.mp hlast).2)
      | none => rfl
    · have hhead : (c :: cs).head? ≠ some '@' := fun h => hc (Option.some_inj.mp h)
      rw [if_neg hhead, List.idxOf?_cons, if_neg (by rwa [beq_iff_eq])]
      cases cs.idxOf? '@' with
      | some k => exact htake (k + 1) (Nat.succ_pos k)
      | none => rfl

theorem unquote_of_head {c : Char} (cs : List Char) (hc : c ≠ '"' ∧ c ≠ '\'') :
    unquote (c :: cs) = c :: cs := by
  simp [unquote, startsAndEnds, hc.1, hc.2]

theorem unquote_quoted (chars : List Char) : unquote ('"' :: (chars ++ ['"'])) = chars := by
  have hends : startsAndEnds '"' ('"' :: (chars ++ ['"'])) = true := by
    rw [startsAndEnds, ← List.cons_append, List.getLast?_concat]
    rfl
  rw [unquote, hends, Bool.true_or, if_pos rfl, List.tail_cons, List.dropLast_concat]

/-- A quote without its other half stays. -/
theorem unquote_open {chars : List Char} (hne : chars ≠ []) (h : '"' ∉ chars) :
    unquote ('"' :: chars) = '"' :: chars := by
  have hlast : ('"' :: chars).getLast? ≠ some '"' := by
    rw [List.getLast?_cons_of_ne_nil hne]
    exact fun hlast => h (List.mem_of_getLast? hlast)
  simp [unquote, startsAndEnds, hlast]

theorem trimChars_cons_cons {c d : Char} (hc : isJsSpace c = false) (hd : isJsSpace d = false)
    (cs : List Char) : ∃ kept, trimChars (c :: d :: cs) = c :: d :: kept ∧ kept <+: cs := by
  have hfirst : (c :: d :: cs).dropWhile isJsSpace = c :: d :: cs :=
    dropSpaces_of_head fun e he => Option.some_inj.mp he ▸ hc
  have hrest : ([d, c] : List Char).dropWhile isJsSpace = [d, c] :=
    dropSpaces_of_head fun e he => Option.some_inj.mp he ▸ hd
  refine ⟨(cs.reverse.dropWhile isJsSpace).reverse, ?_, ?_⟩
  · rw [trimChars, hfirst, List.reverse_cons, List.reverse_cons, List.append_assoc,
      List.singleton_append, List.dropWhile_append, hrest]
    split
    · rename_i hnone
      rw [List.isEmpty_iff.mp hnone]
      rfl
    · rw [List.reverse_append]
      rfl
  · rw [← List.reverse_suffix, List.reverse_reverse]
    exact List.dropWhile_suffix _

/-- The first piece of a text that is cut at commas. -/
theorem exists_splitOn_comma {front later : List Char} (hfront : ',' ∉ front)
    (hlater : later = [] ∨ ∃ rest, later = ',' :: rest) :
    ∃ pieces, splitOn ',' (front ++ later) = front :: pieces := by
  rcases hlater with rfl | ⟨rest, rfl⟩
  · exact ⟨[], by rw [List.append_nil, splitOn_of_not_mem hfront]⟩
  · exact ⟨splitOn ',' rest, by rw [splitOn_append_sep, splitOn_of_not_mem hfront]; rfl⟩

theorem head_splitDescriptors {front later raw : List Char} (hfront : ',' ∉ front)
    (hlater : later = [] ∨ ∃ rest, later = ',' :: rest) (hraw : unquote (trimChars front) = raw)
    (hne : raw ≠ []) : (splitDescriptors (front ++ later)).head? = some raw := by
  obtain ⟨pieces, hpieces⟩ := exists_splitOn_comma hfront hlater
  have hkept : decide (raw ≠ []) = true := decide_eq_true hne
  rw [splitDescriptors, hpieces, List.map_cons, hraw, List.filter_cons, if_pos hkept,
    List.head?_cons]

/-- The name that is read of an entry. -/
def YarnLocked.nameRead (entry : YarnLocked) : List Char :=
  nameFromDescriptor ((splitDescriptors entry.header.dropLast).head?.getD [])

theorem dropLast_header (entry : YarnLocked) :
    ∃ later, (later = [] ∨ ∃ rest, later = ',' :: rest) ∧
      entry.header.dropLast = maybeWrap (entry.name.descriptor entry.range) ++ later := by
  rw [YarnLocked.header, List.dropLast_concat, YarnLocked.descriptors, List.map_cons,
    List.map_cons]
  cases (entry.ranges.map entry.name.descriptor).map maybeWrap with
  | nil => exact ⟨[], .inl rfl, by rw [List.intercalate_singleton, List.append_nil]⟩
  | cons next more =>
    exact ⟨_, .inr ⟨_, rfl⟩, by rw [List.intercalate_cons_cons, List.append_assoc]; rfl⟩

theorem escaped_descriptor (name : YarnName) (range : YarnText) :
    escaped (name.descriptor range) = name.text ++ '@' :: escaped range.chars := by
  rw [YarnName.descriptor, escaped_append, name.escaped_text]
  rfl

/-- The entry's name is the one that is read, or a quote is read in front of it. -/
def YarnLocked.ReadsName (entry : YarnLocked) : Prop :=
  ',' ∉ entry.range.chars ∧ entry.name.CutsAt (escaped entry.range.chars)

theorem YarnName.exists_head (name : YarnName) : ∃ c cs, name.text = c :: cs ∧
    isJsSpace c = false ∧ c ≠ '"' ∧ c ≠ '\'' ∧ c ≠ ',' := by
  obtain ⟨c, cs, hcs⟩ := List.exists_cons_of_ne_nil name.text_ne_nil
  have hc : c ∈ name.text := hcs ▸ List.mem_cons_self
  refine ⟨c, cs, hcs, name.noSpace hc, ?_, ?_, ?_⟩
  all_goals
    rintro rfl
    exact name.not_mem (by decide) hc

/-- The first descriptor, where no comma stands in its range. -/
theorem nameRead_of_not_mem {entry : YarnLocked} (h : ',' ∉ entry.range.chars) :
    entry.nameRead = nameOfRaw (entry.name.text ++ '@' :: escaped entry.range.chars) := by
  obtain ⟨later, hlater, hheader⟩ := dropLast_header entry
  obtain ⟨c, cs, hname, -, hquote, hsingle, -⟩ := entry.name.exists_head
  have hdescriptor := escaped_descriptor entry.name entry.range
  have hcomma : ',' ∉ escaped (entry.name.descriptor entry.range) := by
    rw [hdescriptor, List.mem_append, List.mem_cons, not_or, not_or]
    exact ⟨entry.name.not_mem (by decide), by decide, fun hmem => h (mem_escaped.mp hmem)⟩
  have hraw : unquote (trimChars (maybeWrap (entry.name.descriptor entry.range))) =
      escaped (entry.name.descriptor entry.range) := by
    cases hwrap : shouldWrapKey (entry.name.descriptor entry.range) with
    | true =>
      have htrim := @trimChars_around
        ('"' :: (escaped (entry.name.descriptor entry.range) ++ ['"'])) [] [] (by simp) (by simp)
        (List.cons_ne_nil _ _) (fun d hd => Option.some_inj.mp hd ▸ rfl) (fun d hd => by
          rw [← List.cons_append, List.getLast?_concat] at hd
          exact Option.some_inj.mp hd ▸ rfl)
      rw [List.nil_append, List.append_nil] at htrim
      rw [maybeWrap_wrapped hwrap, htrim, unquote_quoted]
    | false =>
      obtain ⟨d, ds, hd, -, hplain⟩ := exists_letter hwrap
      have hback : '\\' ∉ entry.name.descriptor entry.range := fun hmem =>
        (hplain _ hmem).2 (by decide)
      rw [maybeWrap_plain hwrap, trimChars_of_noSpace fun e he => (hplain e he).1,
        escaped_eq_self hback, YarnName.descriptor, hname, List.cons_append,
        unquote_of_head _ ⟨hquote, hsingle⟩]
  have hwritten : ',' ∉ maybeWrap (entry.name.descriptor entry.range) := by
    rw [maybeWrap]
    split
    · rw [quoteText, List.mem_cons, List.mem_append, List.mem_singleton, not_or, not_or]
      exact ⟨by decide, hcomma, by decide⟩
    · exact fun hmem => hcomma (mem_escaped.mpr hmem)
  have hne : escaped (entry.name.descriptor entry.range) ≠ [] := by
    rw [hdescriptor, hname]
    exact List.cons_ne_nil _ _
  rw [YarnLocked.nameRead, hheader, head_splitDescriptors hwritten hlater hraw hne,
    Option.getD_some, nameFromDescriptor, hdescriptor, hname, List.cons_append,
    unquote_of_head _ ⟨hquote, hsingle⟩]

/-- Where a comma stands in the first range, the quote in front of the descriptor stays. -/
theorem head_nameRead_of_mem {entry : YarnLocked} (h : ',' ∈ entry.range.chars) :
    entry.nameRead.head? = some '"' := by
  obtain ⟨later, hlater, hheader⟩ := dropLast_header entry
  obtain ⟨c, cs, hname, hspace, -, -, hcomma⟩ := entry.name.exists_head
  have hwrap : shouldWrapKey (entry.name.descriptor entry.range) = true := by
    by_contra hno
    rw [Bool.not_eq_true] at hno
    obtain ⟨d, ds, -, -, hplain⟩ := exists_letter hno
    exact (hplain ',' (List.mem_append_right _ (List.mem_cons_of_mem _ h))).2 (by decide)
  have hdescriptor := escaped_descriptor entry.name entry.range
  have hmem : ',' ∈ escaped (entry.name.descriptor entry.range) := by
    rw [hdescriptor]
    exact List.mem_append_right _ (List.mem_cons_of_mem _ (mem_escaped.mpr h))
  have hquote : '"' ∉ escaped (entry.name.descriptor entry.range) := by
    rw [hdescriptor, List.mem_append, List.mem_cons, not_or, not_or]
    exact ⟨entry.name.not_mem (by decide), by decide, fun hmem =>
      entry.range.not_mem_quote (mem_escaped.mp hmem)⟩
  obtain ⟨front, rest, hsplit, hfront⟩ := List.eq_append_cons_of_mem hmem
  -- what stands in front of the comma begins like the name
  have hbegins : ∃ more, front = c :: more := by
    cases front with
    | nil =>
      rw [hdescriptor, hname] at hsplit
      exact absurd (List.head_eq_of_cons_eq hsplit) hcomma
    | cons d more =>
      rw [hdescriptor, hname] at hsplit
      exact ⟨more, by rw [List.head_eq_of_cons_eq hsplit]⟩
  obtain ⟨more, rfl⟩ := hbegins
  obtain ⟨kept, htrim, hkept⟩ := @trimChars_cons_cons '"' c rfl hspace more
  have hopen : '"' ∉ c :: kept := by
    intro hmem
    refine hquote (hsplit ▸ List.mem_append_left _ ?_)
    exact (List.mem_cons.mp hmem).elim (fun h => h ▸ List.mem_cons_self)
      fun h => List.mem_cons_of_mem _ (hkept.subset h)
  have hraw : unquote (trimChars ('"' :: c :: more)) = '"' :: c :: kept := by
    rw [htrim, unquote_open (List.cons_ne_nil _ _) hopen]
  have hpiece : ',' ∉ '"' :: c :: more := fun hmem =>
    (List.mem_cons.mp hmem).elim (by decide) hfront
  have hheader' : entry.header.dropLast =
      ('"' :: c :: more) ++ (',' :: (rest ++ ['"'] ++ later)) := by
    rw [hheader, maybeWrap_wrapped hwrap, hsplit]
    simp
  rw [YarnLocked.nameRead, hheader', head_splitDescriptors hpiece (.inr ⟨_, rfl⟩) hraw
    (List.cons_ne_nil _ _), Option.getD_some, nameFromDescriptor,
    unquote_open (List.cons_ne_nil _ _) hopen, head_nameOfRaw]

theorem nameRead_ne_nil (entry : YarnLocked) : entry.nameRead ≠ [] := by
  intro hnil
  by_cases h : ',' ∈ entry.range.chars
  · have hhead := head_nameRead_of_mem h
    rw [hnil] at hhead
    cases hhead
  · obtain ⟨c, cs, hname, -⟩ := entry.name.exists_head
    have hhead := head_nameOfRaw c (cs ++ '@' :: escaped entry.range.chars)
    rw [← List.cons_append, ← hname, ← nameRead_of_not_mem h, hnil] at hhead
    cases hhead

theorem nameRead_eq_iff (entry : YarnLocked) :
    entry.nameRead = entry.name.text ↔ entry.ReadsName := by
  by_cases h : ',' ∈ entry.range.chars
  · refine iff_of_false (fun hname => ?_) fun hreads => hreads.1 h
    have hhead := head_nameRead_of_mem h
    rw [hname] at hhead
    exact entry.name.not_mem (by decide) (List.mem_of_mem_head? hhead)
  · rw [nameRead_of_not_mem h, nameOfRaw_eq_iff]
    exact (and_iff_right h).symm

end Scanner
end Ctem
