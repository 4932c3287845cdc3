import Mathlib.Data.List.TakeWhile
import Ctem.Foundation.UnionFs
import Ctem.Scanner.ImageLayers

/-!
# Members of a layer

What a layer says of the file system, and how an archive spells it: a member is a change of
the file system, written with or without `./` or `/` before its name, and the name stands in
the header, in the header's two name fields, or in an extension header before it.

`parseTar_members` is what `parseTar` makes of the members: each is read under its own name,
but a hard link is read as a symbolic link, and a marker spelled with a slash keeps the slash
in the name it marks.
-/

namespace Ctem
namespace Scanner

open Foundation

/-- A name as an image can hold it: names that begin as markers do are markers. -/
structure ImagePart where
  text : String
  isPart : IsPart text
  notDot : text ≠ "."
  notDotDot : text ≠ ".."
  unmarked : startsWith text ".wh." = false

theorem ImagePart.text_injective : Function.Injective ImagePart.text := by
  intro a b h
  cases a
  cases b
  cases h
  rfl

instance : DecidableEq ImagePart := fun a b =>
  decidable_of_iff (a.text = b.text) ImagePart.text_injective.eq_iff

abbrev ImagePath := List ImagePart

def textOf (p : ImagePath) : String := pathText ImagePart.text p

abbrev ImageChange := Change ImagePart String

/-- How an archive spells the beginning of its names. -/
inductive Spelling where
  | plain | dotted | rooted
deriving DecidableEq, Repr

def Spelling.start : Spelling → String
  | plain => ""
  | dotted => "./"
  | rooted => "/"

/-- The name a change goes by in an archive. -/
def changeName : ImageChange → String
  | .file parent base _ => joinDir (textOf parent) base.text
  | .hardLink parent base _ => joinDir (textOf parent) base.text
  | .symlink parent base _ => joinDir (textOf parent) base.text
  | .dir path => if path = [] then "" else textOf path ++ "/"
  | .whiteout parent base => joinDir (textOf parent) (".wh." ++ base.text)
  | .opaqueDir path => joinDir (textOf path) ".wh..wh..opq"

/-- Where the name of a member stands. -/
inductive NameForm (name : String) where
  | header
  | split (namePrefix rawName : String) (h : namePrefix ≠ "" ∧ namePrefix ++ "/" ++ rawName = name)
  | pax (namePrefix rawName : String)
  | gnu (namePrefix rawName : String)

/-- A member of an archive. -/
structure TarMember where
  entry : ImageChange
  spelling : Spelling := .plain
  form : NameForm (spelling.start ++ changeName entry) := .header

namespace TarMember

def name (m : TarMember) : String := m.spelling.start ++ changeName m.entry

def marker (m : TarMember) : Bool := m.entry.marker

def typeflag (m : TarMember) : Char :=
  match m.entry with
  | .hardLink _ _ _ => '1'
  | .symlink _ _ _ => '2'
  | .dir _ => '5'
  | _ => '0'

def linkname (m : TarMember) : String :=
  match m.entry with
  | .hardLink _ _ target => textOf target
  | .symlink _ _ target => target
  | _ => ""

def body (m : TarMember) : String :=
  match m.entry with
  | .file _ _ body => body
  | _ => ""

/-- The headers a member is written as. -/
def headers (m : TarMember) : List TarHeader :=
  let header (namePrefix rawName : String) : TarHeader :=
    { typeflag := m.typeflag, rawName := rawName, namePrefix := namePrefix
      linkname := m.linkname, body := m.body }
  match m.form with
  | .header => [header "" m.name]
  | .split namePrefix rawName _ => [header namePrefix rawName]
  | .pax namePrefix rawName =>
      [{ typeflag := 'x', rawName := "PaxHeader", pax := [("path", m.name)] },
        header namePrefix rawName]
  | .gnu namePrefix rawName =>
      [{ typeflag := 'L', rawName := "././@LongLink", longName := m.name },
        header namePrefix rawName]

/-- What is left of the spelling in a name the walk has normalized. -/
def root (m : TarMember) : String :=
  if m.spelling = .rooted then "/" else ""

/-- A marker is recognised unless a slash before its name is left in what it marks. -/
def recognised (m : TarMember) (parent : ImagePath) : Bool :=
  decide (m.spelling ≠ .rooted) || decide (parent = [])

/-- The entry `parseTar` reads. -/
def read (m : TarMember) : Option TarEntry :=
  match m.entry with
  | .file parent base body =>
      some { name := m.root ++ joinDir (textOf parent) base.text, type := .file, body := some body }
  | .hardLink parent base target =>
      some { name := m.root ++ joinDir (textOf parent) base.text, type := .symlink
             linkname := some (textOf target) }
  | .symlink parent base target =>
      some { name := m.root ++ joinDir (textOf parent) base.text, type := .symlink
             linkname := some target }
  | .dir path => if path = [] then none else some { name := m.root ++ textOf path, type := .dir }
  | .whiteout parent base =>
      some { name := (if m.recognised parent then "" else "/") ++ joinDir (textOf parent) base.text
             type := .whiteout }
  | .opaqueDir path =>
      some { name := (if m.recognised path then "" else "/") ++ textOf path, type := .opaqueDir }

end TarMember

/-! ## Names in an archive -/

theorem stripStart_of_not {pre name : String} (h : startsWith name pre = false) :
    stripStart pre name = name := by
  unfold stripStart
  rw [h]
  rfl

theorem stripStart_append (pre name : String) : stripStart pre (pre ++ name) = name := by
  have hstarts : startsWith (pre ++ name) pre = true := by
    unfold startsWith
    rw [List.isPrefixOf_iff_prefix, String.toList_append]
    exact List.prefix_append _ _
  unfold stripStart
  rw [if_pos hstarts, String.toList_append, List.drop_left, String.ofList_toList]

/-- The last part of a name, behind the directory it is in. -/
theorem basename_append_slash (dir : String) {name : String} (h : '/' ∉ name.toList) :
    basename (dir ++ "/" ++ name) = name := by
  unfold basename
  rw [String.toList_append, String.toList_append, List.reverse_append, List.reverse_append,
    List.takeWhile_append_of_pos]
  · change String.ofList (name.toList.reverse ++ List.takeWhile _ ('/' :: _)).reverse = name
    rw [List.takeWhile_cons_of_neg (by simp), List.append_nil, List.reverse_reverse,
      String.ofList_toList]
  · intro c hc
    rw [List.mem_reverse] at hc
    exact decide_eq_true fun heq => h (heq ▸ hc)

theorem dirname_append_slash (dir : String) {name : String} (h : '/' ∉ name.toList) :
    dirname (dir ++ "/" ++ name) = dir := by
  unfold dirname
  rw [String.toList_append, String.toList_append, List.reverse_append, List.reverse_append,
    List.dropWhile_append_of_pos]
  · change String.ofList (List.drop 1 (List.dropWhile _ ('/' :: dir.toList.reverse))).reverse = dir
    rw [List.dropWhile_cons_of_neg (by simp), List.drop_one, List.tail_cons, List.reverse_reverse,
      String.ofList_toList]
  · intro c hc
    rw [List.mem_reverse] at hc
    exact decide_eq_true fun heq => h (heq ▸ hc)

theorem basename_of_part {name : String} (h : '/' ∉ name.toList) : basename name = name := by
  unfold basename
  rw [List.takeWhile_eq_self_iff.mpr, List.reverse_reverse, String.ofList_toList]
  intro c hc
  rw [List.mem_reverse] at hc
  exact decide_eq_true fun heq => h (heq ▸ hc)

theorem dirname_of_part {name : String} (h : '/' ∉ name.toList) : dirname name = "" := by
  unfold dirname
  rw [List.dropWhile_eq_nil_iff.mpr]
  · rfl
  · intro c hc
    rw [List.mem_reverse] at hc
    exact decide_eq_true fun heq => h (heq ▸ hc)

/-- Slashes at the end go, and no more than these. -/
theorem stripSlashes_append {name : String} {last : String} (hlast : IsPart last)
    (hends : ∃ before, name.toList = before ++ last.toList) (slashes : String)
    (hslashes : ∀ c ∈ slashes.toList, c = '/') : stripSlashes (name ++ slashes) = name := by
  obtain ⟨before, hbefore⟩ := hends
  have hkeep : name.toList.reverse.dropWhile (fun c => decide (c = '/')) = name.toList.reverse := by
    rw [hbefore, List.reverse_append]
    cases hreverse : last.toList.reverse with
    | nil =>
        have hnil : last.toList = [] := List.reverse_eq_nil_iff.mp hreverse
        exact absurd (String.toList_eq_nil_iff.mp hnil) hlast.1
    | cons c rest =>
        have hmem : c ∈ last.toList := by
          rw [← List.mem_reverse, hreverse]
          exact List.mem_cons_self
        rw [List.cons_append, List.dropWhile_cons_of_neg]
        exact fun heq => hlast.2 (of_decide_eq_true heq ▸ hmem)
  unfold stripSlashes
  rw [String.toList_append, List.reverse_append, List.dropWhile_append_of_pos, hkeep,
    List.reverse_reverse, String.ofList_toList]
  intro c hc
  rw [List.mem_reverse] at hc
  exact decide_eq_true (hslashes c hc)

/-- A text begins with a name and a slash only where the name is its first part. -/
theorem head_of_startsWith {t x : String} (hx : '/' ∉ x.toList)
    (h : startsWith t (x ++ "/") = true) : (splitOn '/' t.toList).head? = some x.toList := by
  unfold startsWith at h
  rw [List.isPrefixOf_iff_prefix] at h
  obtain ⟨rest, hrest⟩ := h
  rw [String.toList_append, List.append_assoc] at hrest
  change x.toList ++ '/' :: rest = t.toList at hrest
  rw [← hrest, splitOn_append_sep, splitOn_of_not_mem hx]
  rfl

theorem stripStart_of_head {t x : String} (hx : '/' ∉ x.toList)
    (h : (splitOn '/' t.toList).head? ≠ some x.toList) : stripStart (x ++ "/") t = t := by
  apply stripStart_of_not
  by_contra hstarts
  exact h (head_of_startsWith hx (Bool.not_eq_false _ ▸ hstarts))

/-! ## The names of members -/

section Names

variable (parent : ImagePath)

theorem textOf_eq_empty_iff {p : ImagePath} : textOf p = "" ↔ p = [] := by
  constructor
  · intro h
    by_contra hne
    exact pathText_ne_empty ImagePart.isPart hne h
  · rintro rfl
    rfl

theorem joinDir_textOf (base : ImagePart) :
    joinDir (textOf parent) base.text = textOf (parent ++ [base]) := by
  unfold joinDir
  by_cases hparent : parent = []
  · subst hparent
    rfl
  · rw [if_pos fun h => hparent (textOf_eq_empty_iff.mp h)]
    exact (pathText_append ImagePart.text hparent (List.cons_ne_nil base [])).symm

theorem exists_joinDir_toList (last : String) :
    ∃ before, (joinDir (textOf parent) last).toList = before ++ last.toList := by
  unfold joinDir
  split
  · exact ⟨_, String.toList_append⟩
  · exact ⟨[], rfl⟩

variable {last : String} (hlast : IsPart last) (hdot : last ≠ ".")

include hlast

/-- The parts of a member's name. -/
theorem splitOn_joinDir :
    splitOn '/' (joinDir (textOf parent) last).toList =
      parent.map (fun a => a.text.toList) ++ [last.toList] := by
  unfold joinDir
  by_cases hparent : parent = []
  · subst hparent
    exact splitOn_of_not_mem hlast.2
  · rw [if_pos fun h => hparent (textOf_eq_empty_iff.mp h), String.toList_append,
      String.toList_append, List.append_assoc]
    change splitOn '/' ((textOf parent).toList ++ '/' :: last.toList) = _
    rw [splitOn_append_sep, splitOn_of_not_mem hlast.2]
    exact congrArg (· ++ [last.toList]) (splitOn_pathText ImagePart.isPart hparent)

/-- A member's name begins with a part, and so with no slash. -/
theorem head_joinDir_ne_empty (rest : List (List Char)) :
    (splitOn '/' (joinDir (textOf parent) last).toList ++ rest).head? ≠ some "".toList := by
  rw [splitOn_joinDir parent hlast]
  intro h
  cases parent with
  | nil => exact hlast.1 (String.toList_injective (Option.some_inj.mp h))
  | cons a parent => exact a.isPart.1 (String.toList_injective (Option.some_inj.mp h))

include hdot

theorem head_joinDir_ne_dot (rest : List (List Char)) :
    (splitOn '/' (joinDir (textOf parent) last).toList ++ rest).head? ≠ some ".".toList := by
  rw [splitOn_joinDir parent hlast]
  intro h
  cases parent with
  | nil => exact hdot (String.toList_injective (Option.some_inj.mp h))
  | cons a parent => exact a.notDot (String.toList_injective (Option.some_inj.mp h))

omit hdot

theorem joinDir_ne_empty : joinDir (textOf parent) last ≠ "" := by
  obtain ⟨before, hbefore⟩ := exists_joinDir_toList parent last
  intro h
  rw [h] at hbefore
  have hnil : last.toList = [] := (List.append_eq_nil_iff.mp hbefore.symm).2
  exact hlast.1 (String.toList_eq_nil_iff.mp hnil)

end Names

/-! ## What the walk reads of a member -/

namespace TarMember

section Read

variable (m : TarMember) (parent : ImagePath) {last : String} (hlast : IsPart last)

/-- The directory of a member's name, with the slash that is left in front of it. -/
def dirOf : String :=
  (if m.recognised parent then "" else "/") ++ textOf parent

/-- A name is its last part, or this behind its directory. -/
theorem root_joinDir (last : String) :
    (m.root ++ joinDir (textOf parent) last = last ∧ m.dirOf parent = "") ∨
      m.root ++ joinDir (textOf parent) last = m.dirOf parent ++ "/" ++ last := by
  unfold root dirOf recognised joinDir
  by_cases hparent : parent = []
  · subst hparent
    by_cases hrooted : m.spelling = .rooted
    · right
      rw [if_pos hrooted]
      simp [textOf]
    · left
      rw [if_neg hrooted]
      simp [textOf]
  · right
    rw [if_pos fun h => hparent (textOf_eq_empty_iff.mp h)]
    by_cases hrooted : m.spelling = .rooted
    · simp [hrooted, hparent, String.append_assoc]
    · simp [hrooted, String.append_assoc]

include hlast

theorem basename_root_joinDir : basename (m.root ++ joinDir (textOf parent) last) = last := by
  rcases m.root_joinDir parent last with ⟨heq, -⟩ | heq
  · rw [heq]
    exact basename_of_part hlast.2
  · rw [heq]
    exact basename_append_slash _ hlast.2

theorem dirname_root_joinDir :
    dirname (m.root ++ joinDir (textOf parent) last) = m.dirOf parent := by
  rcases m.root_joinDir parent last with ⟨heq, hdir⟩ | heq
  · rw [heq, hdir]
    exact dirname_of_part hlast.2
  · rw [heq]
    exact dirname_append_slash _ hlast.2

/-- Normalizing takes `./` off, and slashes at the end. -/
theorem clean_joinDir (hdot : last ≠ ".") {slashes : String}
    (hslashes : slashes = "" ∨ slashes = "/") :
    stripSlashes (stripStart "./"
        (m.spelling.start ++ (joinDir (textOf parent) last ++ slashes))) =
      m.root ++ joinDir (textOf parent) last := by
  have hends : ∀ root : String, ∃ before,
      (root ++ joinDir (textOf parent) last).toList = before ++ last.toList := by
    intro root
    obtain ⟨before, hbefore⟩ := exists_joinDir_toList parent last
    exact ⟨root.toList ++ before, by rw [String.toList_append, hbefore, List.append_assoc]⟩
  have hstrip : stripStart "./" (m.spelling.start ++ (joinDir (textOf parent) last ++ slashes)) =
      m.root ++ joinDir (textOf parent) last ++ slashes := by
    unfold root
    cases m.spelling with
    | dotted =>
        change stripStart "./" ("./" ++ _) = _
        rw [stripStart_append]
        simp
    | plain =>
        change stripStart ("." ++ "/") ("" ++ _) = _
        rw [String.empty_append, stripStart_of_head (by decide)]
        · simp
        · rcases hslashes with rfl | rfl
          · have h := head_joinDir_ne_dot parent hlast hdot []
            rw [List.append_nil] at h
            rw [String.append_empty]
            exact h
          · rw [String.toList_append]
            change (splitOn '/' ((joinDir (textOf parent) last).toList ++ '/' :: [])).head? ≠ _
            rw [splitOn_append_sep]
            exact head_joinDir_ne_dot parent hlast hdot _
    | rooted =>
        change stripStart ("." ++ "/") ("/" ++ _) = _
        rw [stripStart_of_head (by decide)]
        · simp [String.append_assoc]
        · rw [String.toList_append]
          change (splitOn '/' ('/' :: _)).head? ≠ _
          rw [splitOn_cons_sep]
          exact fun h => absurd (Option.some_inj.mp h) (by decide)
  rw [hstrip]
  refine stripSlashes_append hlast (hends m.root) slashes ?_
  rcases hslashes with rfl | rfl
  · simp
  · simp

end Read

theorem isPart_marked (base : ImagePart) : IsPart (".wh." ++ base.text) := by
  refine ⟨fun h => ?_, ?_⟩
  · have hlist := congrArg String.toList h
    rw [String.toList_append] at hlist
    exact absurd hlist (by simp)
  · rw [String.toList_append, List.mem_append, not_or]
    exact ⟨by decide, base.isPart.2⟩

/-- The name of an entry is no marker's. -/
theorem unmarked_base (base : ImagePart) :
    base.text ≠ ".wh..wh..opq" ∧ startsWith base.text ".wh." = false := by
  refine ⟨?_, base.unmarked⟩
  intro h
  have hunmarked := base.unmarked
  rw [h] at hunmarked
  exact absurd hunmarked (by decide)

theorem endsWith_slash_root_joinDir (m : TarMember) (parent : ImagePath) {last : String}
    (hlast : IsPart last) : endsWith (m.root ++ joinDir (textOf parent) last) "/" = false := by
  obtain ⟨before, hbefore⟩ := exists_joinDir_toList parent last
  by_contra hends
  rw [Bool.not_eq_false] at hends
  unfold endsWith at hends
  rw [List.isSuffixOf_iff_suffix, String.toList_append, hbefore, ← List.append_assoc] at hends
  obtain ⟨rest, hrest⟩ := hends
  change rest ++ ['/'] = _ at hrest
  have hgetLast := congrArg List.getLast? hrest
  rw [List.getLast?_concat, List.getLast?_append] at hgetLast
  cases hreverse : last.toList.getLast? with
  | none => exact hlast.1 (String.toList_eq_nil_iff.mp (List.getLast?_eq_none_iff.mp hreverse))
  | some c =>
      rw [hreverse] at hgetLast
      have hc : '/' = c := Option.some_inj.mp hgetLast
      exact hlast.2 (hc ▸ List.mem_of_getLast? hreverse)

/-- An entry is read under its name, unless it is refused. -/
theorem entryOf_entry (m : TarMember) (parent : ImagePath) (base : ImagePart)
    (pax : AssocMap String String) (h : TarHeader) :
    entryOf (m.root ++ joinDir (textOf parent) base.text) pax h =
      if h.typeflag = '5' then
        .ok (some { name := m.root ++ joinDir (textOf parent) base.text, type := .dir })
      else if h.typeflag = '2' ∨ h.typeflag = '1' then
        .ok (some
          { name := m.root ++ joinDir (textOf parent) base.text, type := .symlink
            linkname := (pax.lookup? "linkpath").or h.linkname })
      else if h.typeflag = '0' ∨ h.typeflag = '\x00' then
        if h.body.utf8ByteSize > maxInventoryFileBytes ∧
            isInventoryPath (m.root ++ joinDir (textOf parent) base.text) = true then
          .error ("Inventory file '" ++ (m.root ++ joinDir (textOf parent) base.text) ++ "' is " ++
            toString h.body.utf8ByteSize ++
            " bytes over cap — refusing incomplete layer inventory")
        else
          .ok (some
            { name := m.root ++ joinDir (textOf parent) base.text, type := .file
              body := some h.body })
      else .ok none := by
  have hbase := m.basename_root_joinDir parent base.isPart
  have hne : m.root ++ joinDir (textOf parent) base.text ≠ "" := by
    intro hempty
    have hlist := congrArg String.toList hempty
    rw [String.toList_append] at hlist
    exact joinDir_ne_empty parent base.isPart
      (String.toList_eq_nil_iff.mp (List.append_eq_nil_iff.mp hlist).2)
  have hends := m.endsWith_slash_root_joinDir parent base.isPart
  have hstrip : stripSlashes (m.root ++ joinDir (textOf parent) base.text) =
      m.root ++ joinDir (textOf parent) base.text := by
    obtain ⟨before, hbefore⟩ := exists_joinDir_toList parent base.text
    have happend : stripSlashes (m.root ++ joinDir (textOf parent) base.text ++ "") =
        m.root ++ joinDir (textOf parent) base.text :=
      stripSlashes_append base.isPart ⟨m.root.toList ++ before, by
        rw [String.toList_append, hbefore, List.append_assoc]⟩ "" (by simp)
    rwa [String.append_empty] at happend
  unfold entryOf
  rw [if_neg hne, hbase, if_neg (unmarked_base base).1, if_neg (by simp [base.unmarked]), hends,
    hstrip]
  simp only [Bool.false_eq_true, or_false]

/-- A whiteout is read as its name without the mark. -/
theorem entryOf_whiteout (m : TarMember) (parent : ImagePath) (base : ImagePart)
    (pax : AssocMap String String) (h : TarHeader) :
    entryOf (m.root ++ joinDir (textOf parent) (".wh." ++ base.text)) pax h =
      .ok (some
        { name := (if m.recognised parent then "" else "/") ++ joinDir (textOf parent) base.text
          type := .whiteout }) := by
  have hbase := m.basename_root_joinDir parent (isPart_marked base)
  have hne : m.root ++ joinDir (textOf parent) (".wh." ++ base.text) ≠ "" := by
    intro hempty
    have hlist := congrArg String.toList hempty
    rw [String.toList_append] at hlist
    exact joinDir_ne_empty parent (isPart_marked base)
      (String.toList_eq_nil_iff.mp (List.append_eq_nil_iff.mp hlist).2)
  have hopaque : ".wh." ++ base.text ≠ ".wh..wh..opq" := by
    intro heq
    have hlist := congrArg String.toList heq
    rw [String.toList_append] at hlist
    have htail : base.text.toList = ".wh..opq".toList := List.append_cancel_left hlist
    have hunmarked := base.unmarked
    rw [String.toList_injective htail] at hunmarked
    exact absurd hunmarked (by decide)
  have hmarked : startsWith (".wh." ++ base.text) ".wh." = true := by
    unfold startsWith
    rw [List.isPrefixOf_iff_prefix, String.toList_append]
    exact List.prefix_append _ _
  have hjoin : joinDir (m.dirOf parent) base.text =
      (if m.recognised parent then "" else "/") ++ joinDir (textOf parent) base.text := by
    unfold dirOf
    by_cases hrecognised : m.recognised parent = true
    · rw [if_pos hrecognised, String.empty_append, String.empty_append]
    · have hparent : parent ≠ [] := by
        rintro rfl
        exact hrecognised (by simp [recognised])
      rw [if_neg hrecognised]
      unfold joinDir
      rw [if_pos, if_pos fun h => hparent (textOf_eq_empty_iff.mp h)]
      · simp only [String.append_assoc]
      · intro hempty
        have hlist := congrArg String.toList hempty
        rw [String.toList_append] at hlist
        exact absurd (List.append_eq_nil_iff.mp hlist).1 (by decide)
  unfold entryOf
  rw [if_neg hne, hbase, if_neg hopaque, if_pos hmarked,
    m.dirname_root_joinDir parent (isPart_marked base), stripStart_append, hjoin]

theorem entryOf_opaqueDir (m : TarMember) (path : ImagePath) (pax : AssocMap String String)
    (h : TarHeader) :
    entryOf (m.root ++ joinDir (textOf path) ".wh..wh..opq") pax h =
      .ok (some
        { name := (if m.recognised path then "" else "/") ++ textOf path, type := .opaqueDir }) := by
  have hpart : IsPart ".wh..wh..opq" := by
    unfold IsPart
    decide
  have hne : m.root ++ joinDir (textOf path) ".wh..wh..opq" ≠ "" := by
    intro hempty
    have hlist := congrArg String.toList hempty
    rw [String.toList_append] at hlist
    exact joinDir_ne_empty path hpart
      (String.toList_eq_nil_iff.mp (List.append_eq_nil_iff.mp hlist).2)
  unfold entryOf
  rw [if_neg hne, m.basename_root_joinDir path hpart, if_pos rfl,
    m.dirname_root_joinDir path hpart]
  rfl

/-- The name of a member as the walk has it behind its normalizing. -/
def cleanName (m : TarMember) : String :=
  match m.entry with
  | .file parent base _ => m.root ++ joinDir (textOf parent) base.text
  | .hardLink parent base _ => m.root ++ joinDir (textOf parent) base.text
  | .symlink parent base _ => m.root ++ joinDir (textOf parent) base.text
  | .dir path => if path = [] then "" else m.root ++ textOf path
  | .whiteout parent base => m.root ++ joinDir (textOf parent) (".wh." ++ base.text)
  | .opaqueDir path => m.root ++ joinDir (textOf path) ".wh..wh..opq"

theorem clean_name (m : TarMember) : stripSlashes (stripStart "./" m.name) = m.cleanName := by
  have hentry : ∀ (parent : ImagePath) {last : String}, IsPart last → last ≠ "." →
      stripSlashes (stripStart "./" (m.spelling.start ++ joinDir (textOf parent) last)) =
        m.root ++ joinDir (textOf parent) last := by
    intro parent last hlast hdot
    have hclean := m.clean_joinDir parent hlast hdot (Or.inl rfl)
    rwa [String.append_empty] at hclean
  unfold name cleanName
  cases m.entry with
  | file parent base body => exact hentry parent base.isPart base.notDot
  | hardLink parent base target => exact hentry parent base.isPart base.notDot
  | symlink parent base target => exact hentry parent base.isPart base.notDot
  | whiteout parent base =>
      refine hentry parent (isPart_marked base) fun h => ?_
      have hlist := congrArg String.toList h
      rw [String.toList_append] at hlist
      exact absurd (List.cons.inj hlist).2 (by simp)
  | opaqueDir path => exact hentry path (by unfold IsPart; decide) (by decide)
  | dir path =>
      rcases List.eq_nil_or_concat path with rfl | ⟨parent, base, rfl⟩
      · have hroot : ∀ spelling : Spelling,
            stripSlashes (stripStart "./" (spelling.start ++ "")) = "" := by
          intro spelling
          cases spelling <;> rfl
        exact hroot m.spelling
      · rw [List.concat_eq_append]
        simp only [changeName, List.append_eq_nil_iff, List.cons_ne_nil, and_false, if_false]
        rw [← joinDir_textOf]
        exact m.clean_joinDir parent base.isPart base.notDot (Or.inr rfl)

/-- **One member.**  The walk reads what the member says, or refuses it. -/
theorem entryOf_member (m : TarMember) {pax : AssocMap String String}
    (hpax : pax.lookup? "linkpath" = none) {h : TarHeader} (htype : h.typeflag = m.typeflag)
    (hbody : h.body = m.body) (hlink : h.linkname = m.linkname) {entry : Option TarEntry}
    (hread : entryOf (stripSlashes (stripStart "./" m.name)) pax h = .ok entry) :
    entry = m.read := by
  rw [clean_name] at hread
  obtain ⟨change, spelling, form⟩ := m
  cases change with
  | file parent base body =>
      have hflag : h.typeflag = '0' := htype
      have hcontent : h.body = body := hbody
      unfold cleanName at hread
      rw [entryOf_entry, hflag, hcontent, if_neg (by decide), if_neg (by decide),
        if_pos (by decide)] at hread
      exact (Except.ok.inj (eq_ok_of_guard hread).2).symm
  | hardLink parent base target =>
      have hflag : h.typeflag = '1' := htype
      have htarget : h.linkname = textOf target := hlink
      unfold cleanName at hread
      rw [entryOf_entry, hflag, htarget, hpax, if_neg (by decide), if_pos (by decide)] at hread
      exact (Except.ok.inj hread).symm
  | symlink parent base target =>
      have hflag : h.typeflag = '2' := htype
      have htarget : h.linkname = target := hlink
      unfold cleanName at hread
      rw [entryOf_entry, hflag, htarget, hpax, if_neg (by decide), if_pos (by decide)] at hread
      exact (Except.ok.inj hread).symm
  | dir path =>
      have hflag : h.typeflag = '5' := htype
      unfold cleanName at hread
      unfold read
      by_cases hpath : path = []
      · simp only [if_pos hpath] at hread ⊢
        exact (Except.ok.inj hread).symm
      · obtain ⟨parent, base, hconcat⟩ := (List.eq_nil_or_concat path).resolve_left hpath
        have htext : textOf path = joinDir (textOf parent) base.text := by
          rw [hconcat, List.concat_eq_append, joinDir_textOf]
        simp only [if_neg hpath, htext] at hread ⊢
        rw [entryOf_entry, hflag, if_pos rfl] at hread
        exact (Except.ok.inj hread).symm
  | whiteout parent base =>
      unfold cleanName at hread
      rw [entryOf_whiteout] at hread
      exact (Except.ok.inj hread).symm
  | opaqueDir path =>
      unfold cleanName at hread
      rw [entryOf_opaqueDir] at hread
      exact (Except.ok.inj hread).symm

/-- A header that is no extension. -/
theorem walkHeader_member (m : TarMember) {walk walk' : TarWalk} {h : TarHeader}
    (htype : h.typeflag = m.typeflag) (hbody : h.body = m.body) (hlink : h.linkname = m.linkname)
    (hpax : walk.pendingPax.lookup? "linkpath" = none) (hname : walk.nameOf h = m.name)
    (hwalk : walkHeader walk h = .ok walk') : walk' = walk.past m.read := by
  have hplain : ¬ (h.typeflag = 'x' ∨ h.typeflag = 'g') ∧ h.typeflag ≠ 'L' ∧
      h.typeflag ≠ 'K' := by
    have hflag : m.typeflag = '0' ∨ m.typeflag = '1' ∨ m.typeflag = '2' ∨ m.typeflag = '5' := by
      unfold typeflag
      cases m.entry <;> simp
    rw [htype]
    rcases hflag with hflag | hflag | hflag | hflag <;> rw [hflag] <;> decide
  unfold walkHeader at hwalk
  have hentry := (eq_ok_of_guard hwalk).2
  rw [if_neg hplain.1, if_neg hplain.2.1, if_neg hplain.2.2, hname] at hentry
  cases hread : entryOf (stripSlashes (stripStart "./" m.name)) walk.pendingPax h with
  | error message =>
      rw [hread] at hentry
      cases hentry
  | ok entry =>
      rw [hread] at hentry
      rw [← m.entryOf_member hpax htype hbody hlink hread]
      exact (Except.ok.inj hentry).symm

/-- The headers of a member, extensions and all. -/
theorem walk_headers (m : TarMember) {entries : List TarEntry} {walk : TarWalk}
    (hwalk : m.headers.foldlM walkHeader { entries := entries } = .ok walk) :
    walk = { entries := entries ++ m.read.toList } := by
  obtain ⟨change, spelling, form⟩ := m
  cases form with
  | header =>
      simp only [headers, List.foldlM_cons, List.foldlM_nil, bind_pure] at hwalk
      exact walkHeader_member _ rfl rfl rfl rfl rfl hwalk
  | split namePrefix rawName h =>
      simp only [headers, List.foldlM_cons, List.foldlM_nil, bind_pure] at hwalk
      refine walkHeader_member _ rfl rfl rfl rfl ?_ hwalk
      exact (if_pos h.1).trans h.2
  | pax namePrefix rawName =>
      simp only [headers, List.foldlM_cons, List.foldlM_nil, bind_pure] at hwalk
      obtain ⟨walk₁, hfirst, hrest⟩ := bind_eq_ok.mp hwalk
      have hpending := (eq_ok_of_guard hfirst).2
      obtain rfl := Except.ok.inj hpending
      rw [walkHeader_member _ rfl rfl rfl rfl rfl hrest]
      simp [TarWalk.past]
  | gnu namePrefix rawName =>
      simp only [headers, List.foldlM_cons, List.foldlM_nil, bind_pure] at hwalk
      obtain ⟨walk₁, hfirst, hrest⟩ := bind_eq_ok.mp hwalk
      have hpending := (eq_ok_of_guard hfirst).2
      obtain rfl := Except.ok.inj hpending
      rw [walkHeader_member _ rfl rfl rfl rfl rfl hrest]
      simp [TarWalk.past]

end TarMember

/-- **An archive.**  What `parseTar` returns are its members, as they are read. -/
theorem parseTar_members {members : List TarMember} {entries : List TarEntry}
    (hparse : parseTar (members.flatMap TarMember.headers) = .ok entries) :
    entries = members.filterMap TarMember.read := by
  have hwalk : ∀ (members : List TarMember) (before : List TarEntry) (walk : TarWalk),
      (members.flatMap TarMember.headers).foldlM walkHeader { entries := before } = .ok walk →
        walk.entries = before ++ members.filterMap TarMember.read := by
    intro members
    induction members with
    | nil =>
        intro before walk h
        obtain rfl := Except.ok.inj h
        simp
    | cons m rest ih =>
        intro before walk h
        rw [List.flatMap_cons, List.foldlM_append] at h
        obtain ⟨walk₁, hfirst, hrest⟩ := bind_eq_ok.mp h
        obtain rfl := m.walk_headers hfirst
        rw [ih _ _ hrest, List.filterMap_cons, List.append_assoc]
        cases m.read <;> rfl
  unfold parseTar at hparse
  cases hresult : (members.flatMap TarMember.headers).foldlM walkHeader {} with
  | error message =>
      rw [hresult] at hparse
      cases hparse
  | ok walk =>
      rw [hresult] at hparse
      obtain rfl := Except.ok.inj hparse
      exact (hwalk members [] walk hresult).trans (List.nil_append _)

end Scanner
end Ctem
