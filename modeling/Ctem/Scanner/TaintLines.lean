import Mathlib.Data.List.DropRight
import Mathlib.Data.List.TakeWhile
import Ctem.Foundation.PathText
import Ctem.Scanner.TaintTracker

/-!
# Straight-line JavaScript and its patterns

A line assigns an expression to an identifier or takes an object apart, and what the patterns
of the tracker find in it.

* `TaintLine` is a line with its text, its expression and the identifiers it binds.
* `assignment?_text` and `destructuring?_text` say what the patterns match.
* `mem_patternNames_text`: a property is read under its key unless it has a default and no other
  name.
-/

namespace Ctem
namespace Scanner

open Foundation

/-! ## Lines -/

/-- Identifier characters: word characters, `$`, and what is beyond ASCII and no space. -/
def isJsIdentChar (c : Char) : Bool :=
  isWordChar c || c == '$' || (decide (0x80 ≤ c.toNat) && !isJsSpace c)

structure JsIdent where
  chars : List Char
  ident : ∀ c ∈ chars, isJsIdentChar c = true
  first : ∃ c rest, chars = c :: rest ∧ c.isDigit = false

/-- White space inside a line. -/
structure Blank where
  chars : List Char
  space : ∀ c ∈ chars, isJsSpace c = true
  oneLine : '\n' ∉ chars

/-- An expression on one line. -/
structure JsExpr where
  chars : List Char
  given : chars ≠ []
  noTerminator : ∀ c ∈ chars, isLineTerminator c = false
  firstInk : ∀ c, chars.head? = some c → isJsSpace c = false
  lastInk : ∀ c, chars.getLast? = some c → isJsSpace c = false

inductive DeclKeyword where
  | const | let_ | var_

def DeclKeyword.chars : DeclKeyword → List Char
  | .const => "const".toList
  | .let_ => "let".toList
  | .var_ => "var".toList

/-- A property of a pattern: `key`, `key: name`, each also with a default. -/
structure PatternProperty where
  lead : Blank
  key : JsIdent
  rename : Option (Blank × Blank × JsIdent)
  default : Option (Blank × List Char)
  trail : Blank
  oneLine : ∀ d ∈ default, '\n' ∉ d.2

namespace PatternProperty

variable (p : PatternProperty)

def renameText : List Char :=
  match p.rename with
  | none => []
  | some (before, behind, name) => before.chars ++ ':' :: (behind.chars ++ name.chars)

def defaultText : List Char :=
  match p.default with
  | none => []
  | some (before, text) => before.chars ++ '=' :: text

def text : List Char :=
  p.lead.chars ++ (p.key.chars ++ (p.renameText ++ (p.defaultText ++ p.trail.chars)))

/-- The identifier the property binds. -/
def bound : List Char :=
  match p.rename with
  | none => p.key.chars
  | some (_, _, name) => name.chars

/-- The property is read under its key. -/
def KeyRead : Prop := p.rename.isSome = true ∨ p.default = none

end PatternProperty

/-- A line: an assignment to an identifier, or an object taken apart. -/
inductive TaintLine where
  | assign (lead : Blank) (keyword : Option (DeclKeyword × { b : Blank // b.chars ≠ [] }))
      (name : JsIdent) (before behind : Blank) (expr : JsExpr) (trail : Blank)
  | destructure (lead : Blank) (keyword : DeclKeyword) (gap : Blank)
      (properties : List PatternProperty) (before behind : Blank) (expr : JsExpr) (trail : Blank)

namespace TaintLine

def patternText (properties : List PatternProperty) : List Char :=
  [','].intercalate (properties.map PatternProperty.text)

def declText : Option (DeclKeyword × { b : Blank // b.chars ≠ [] }) → List Char
  | none => []
  | some (keyword, gap) => keyword.chars ++ gap.val.chars

def text : TaintLine → List Char
  | .assign lead keyword name before behind expr trail =>
      lead.chars ++ (declText keyword ++ (name.chars ++ (before.chars ++ '=' ::
        (behind.chars ++ expr.chars)))) ++ trail.chars
  | .destructure lead keyword gap properties before behind expr trail =>
      lead.chars ++ (keyword.chars ++ (gap.chars ++ '\x7b' :: (patternText properties ++ '\x7d' ::
        (before.chars ++ '=' :: (behind.chars ++ (expr.chars ++ trail.chars))))))

def expr : TaintLine → List Char
  | .assign _ _ _ _ _ expr _ => expr.chars
  | .destructure _ _ _ _ _ _ expr _ => expr.chars

/-- The identifiers a line binds. -/
def binds : TaintLine → List (List Char)
  | .assign _ _ name _ _ _ _ => [name.chars]
  | .destructure _ _ _ properties _ _ _ _ => properties.map PatternProperty.bound

/-- The patterns find what the line binds. -/
def Reads (line : TaintLine) : Prop :=
  match line with
  | .assign _ _ name _ _ _ _ =>
      name.chars.all isWordChar = true ∧ destructuring? line.text = none
  | .destructure _ _ _ properties _ _ _ _ =>
      (∀ p ∈ properties, '\x7d' ∉ p.text) ∧
        ∀ p ∈ properties, ∃ q ∈ properties, q.key.chars = p.bound ∧ q.KeyRead

/-- The line takes no pattern for an object, and its defaults are plain. -/
def Plain (line : TaintLine) : Prop :=
  match line with
  | .assign _ _ _ _ _ _ _ => destructuring? line.text = none
  | .destructure _ _ _ properties _ _ _ _ =>
      ∀ p ∈ properties, '\x7d' ∉ p.text ∧ ∀ d ∈ p.default, ',' ∉ d.2

end TaintLine

/-! ## Characters -/

theorem range_of_isWordChar {c : Char} (h : isWordChar c = true) :
    (48 ≤ c.toNat ∧ c.toNat ≤ 57) ∨ (65 ≤ c.toNat ∧ c.toNat ≤ 90) ∨ c.toNat = 95 ∨
      (97 ≤ c.toNat ∧ c.toNat ≤ 122) := by
  unfold isWordChar at h
  rw [Bool.or_eq_true] at h
  rcases h with h | h
  · delta Char.isAlphanum Char.isAlpha Char.isUpper Char.isLower Char.isDigit at h
    simp only [Bool.or_eq_true, Bool.and_eq_true, decide_eq_true_eq, UInt32.le_iff_toNat_le] at h
    change (((65 ≤ c.toNat ∧ c.toNat ≤ 90) ∨ (97 ≤ c.toNat ∧ c.toNat ≤ 122)) ∨
      (48 ≤ c.toNat ∧ c.toNat ≤ 57)) at h
    omega
  · rw [eq_of_beq h]
    decide

/-- No identifier has a space in it. -/
theorem isJsSpace_of_ident {c : Char} (h : isJsIdentChar c = true) : isJsSpace c = false := by
  unfold isJsIdentChar at h
  simp only [Bool.or_eq_true, Bool.and_eq_true, Bool.not_eq_true', beq_iff_eq] at h
  rcases h with (h | rfl) | h
  · have hrange := range_of_isWordChar h
    unfold isJsSpace
    simp only [List.mem_cons, List.not_mem_nil, or_false, Bool.or_eq_false_iff,
      decide_eq_false_iff_not, Bool.and_eq_false_iff]
    omega
  · rfl
  · exact h.2

/-- Punctuation is in no identifier. -/
theorem not_ident_of_punctuation {c : Char}
    (h : c = ',' ∨ c = ':' ∨ c = '=' ∨ c = '\x7d' ∨ c = '\n') : isJsIdentChar c = false := by
  rcases h with rfl | rfl | rfl | rfl | rfl <;> decide

/-- Punctuation other than a line feed is no space. -/
theorem notMem_blank {c : Char} (b : Blank) (h : isJsSpace c = false) : c ∉ b.chars := by
  intro hc
  rw [b.space c hc] at h
  cases h

theorem JsIdent.notMem {c : Char} (name : JsIdent)
    (h : c = ',' ∨ c = ':' ∨ c = '=' ∨ c = '\x7d' ∨ c = '\n') : c ∉ name.chars := by
  intro hc
  have hident := name.ident c hc
  rw [not_ident_of_punctuation h] at hident
  cases hident

theorem JsIdent.chars_ne_nil (name : JsIdent) : name.chars ≠ [] := by
  obtain ⟨c, rest, hchars, -⟩ := name.first
  rw [hchars]
  exact List.cons_ne_nil c rest

theorem JsIdent.head_ink (name : JsIdent) :
    ∀ c, name.chars.head? = some c → isJsSpace c = false :=
  fun c hc => isJsSpace_of_ident (name.ident c (List.mem_of_mem_head? hc))

theorem JsIdent.last_ink (name : JsIdent) :
    ∀ c, name.chars.getLast? = some c → isJsSpace c = false :=
  fun c hc => isJsSpace_of_ident (name.ident c (List.mem_of_mem_getLast? hc))

/-! ## Spaces -/

theorem dropSpace_blank (b : Blank) {cs : List Char}
    (h : ∀ c, cs.head? = some c → isJsSpace c = false) : dropSpace (b.chars ++ cs) = cs := by
  unfold dropSpace
  rw [List.dropWhile_append_of_pos b.space, dropSpaces_of_head h]

theorem equals?_blank (b : Blank) (rest : List Char) :
    equals? (b.chars ++ '=' :: rest) = some rest := by
  unfold equals?
  rw [dropSpace_blank b (by rintro c ⟨⟩; rfl)]
  rfl

theorem equals?_of_ident {c : Char} (h : isJsIdentChar c = true) (rest : List Char) :
    equals? (c :: rest) = none := by
  unfold equals? dropSpace
  rw [dropSpaces_of_head (by rintro d ⟨⟩; exact isJsSpace_of_ident h)]
  split
  · next hcons =>
      obtain ⟨rfl, -⟩ := List.cons.inj hcons
      exact absurd h (by decide)
  · rfl

theorem restGroupToEnd_expr (b : Blank) (expr : JsExpr) :
    restGroupToEnd (b.chars ++ expr.chars) = some expr.chars := by
  unfold restGroupToEnd
  rw [dropSpace_blank b expr.firstInk]
  cases hchars : expr.chars with
  | nil => exact absurd hchars expr.given
  | cons c rest =>
      have hany : (c :: rest).any isLineTerminator = false := by
        rw [List.any_eq_false]
        intro d hd
        rw [expr.noTerminator d (hchars ▸ hd)]
        exact Bool.false_ne_true
      dsimp only
      rw [if_neg (by rw [hany]; exact Bool.false_ne_true)]

/-- Behind the expression the group takes what is left of the line. -/
theorem restGroup_expr (b : Blank) (expr : JsExpr) (trail : List Char) :
    restGroup (b.chars ++ (expr.chars ++ trail)) =
      some (expr.chars ++ trail.takeWhile fun c => !isLineTerminator c) := by
  have hfirst : ∀ c, (expr.chars ++ trail).head? = some c → isJsSpace c = false := by
    intro c hc
    rw [List.head?_append_of_ne_nil _ expr.given] at hc
    exact expr.firstInk c hc
  unfold restGroup
  rw [dropSpace_blank b hfirst]
  have htake : (expr.chars ++ trail).takeWhile (fun c => !isLineTerminator c) =
      expr.chars ++ trail.takeWhile fun c => !isLineTerminator c :=
    List.takeWhile_append_of_pos fun c hc => by rw [expr.noTerminator c hc]; rfl
  rw [← htake]
  cases hchars : expr.chars ++ trail with
  | nil => exact absurd (List.append_eq_nil_iff.mp hchars).1 expr.given
  | cons c rest => rfl

/-! ## Assignments -/

/-- What stands behind the name of an assignment. -/
def assignTail (before behind : Blank) (expr : JsExpr) : List Char :=
  before.chars ++ '=' :: (behind.chars ++ expr.chars)

theorem head_assignTail (before behind : Blank) (expr : JsExpr) :
    ∃ c rest, assignTail before behind expr = c :: rest ∧ isWordChar c = false ∧
      isWordStart c = false := by
  unfold assignTail
  cases hbefore : before.chars with
  | nil => exact ⟨'=', _, rfl, by decide, by decide⟩
  | cons c rest =>
      have hspace : isJsSpace c = true := before.space c (hbefore ▸ List.mem_cons_self)
      have hword : isWordChar c = false := by
        cases h : isWordChar c with
        | false => rfl
        | true =>
            rw [isJsSpace_of_ident (by unfold isJsIdentChar; rw [h]; rfl)] at hspace
            cases hspace
      refine ⟨c, _, rfl, hword, ?_⟩
      unfold isWordChar Char.isAlphanum at hword
      unfold isWordStart
      rw [Bool.or_eq_false_iff, Bool.or_eq_false_iff] at hword
      rw [hword.1.1, hword.2]
      rfl

theorem JsIdent.isWordStart {name : JsIdent} {c : Char} {rest : List Char}
    (hchars : name.chars = c :: rest) (hword : isWordChar c = true) : isWordStart c = true := by
  obtain ⟨d, ds, hname, hdigit⟩ := name.first
  obtain ⟨rfl, rfl⟩ := List.cons.inj (hname.symm.trans hchars)
  unfold isWordChar Char.isAlphanum at hword
  rw [hdigit, Bool.or_false] at hword
  exact hword

/-- The pattern of an assignment matches a name of word characters, and no other. -/
theorem namedAssignment?_name (name : JsIdent) (before behind : Blank) (expr : JsExpr) :
    namedAssignment? (name.chars ++ assignTail before behind expr) =
      if name.chars.all isWordChar = true then some (name.chars, expr.chars) else none := by
  obtain ⟨t, tail, htail, hword, -⟩ := head_assignTail before behind expr
  obtain ⟨c, rest, hchars, -⟩ := name.first
  rw [hchars, List.cons_append]
  unfold namedAssignment?
  dsimp only
  by_cases hall : (c :: rest).all isWordChar = true
  · rw [if_pos hall]
    rw [List.all_cons, Bool.and_eq_true, List.all_eq_true] at hall
    have htake : (rest ++ assignTail before behind expr).takeWhile isWordChar = rest := by
      rw [List.takeWhile_append_of_pos hall.2, htail, List.takeWhile_cons,
        if_neg (by rw [hword]; exact Bool.false_ne_true), List.append_nil]
    have hdrop : (rest ++ assignTail before behind expr).dropWhile isWordChar =
        assignTail before behind expr := by
      rw [List.dropWhile_append_of_pos hall.2, htail, List.dropWhile_cons,
        if_neg (by rw [hword]; exact Bool.false_ne_true)]
    rw [if_pos (name.isWordStart hchars hall.1), htake, hdrop]
    unfold assignTail
    rw [equals?_blank, Option.bind_eq_bind, Option.bind_some, restGroupToEnd_expr]
    rfl
  · rw [if_neg hall]
    by_cases hstart : isWordStart c = true
    · -- the first character that is no word character stands where the pattern wants `=`
      have hrest : rest.dropWhile isWordChar ≠ [] := by
        intro hnil
        rw [List.dropWhile_eq_nil_iff] at hnil
        apply hall
        rw [List.all_cons, Bool.and_eq_true, List.all_eq_true]
        refine ⟨?_, hnil⟩
        unfold isWordStart at hstart
        unfold isWordChar Char.isAlphanum
        rw [Bool.or_eq_true] at hstart ⊢
        exact hstart.imp_left fun h => by rw [h]; rfl
      obtain ⟨d, ds, hd⟩ := List.exists_cons_of_ne_nil hrest
      have hmem : d ∈ rest := List.dropWhile_subset _ (hd ▸ List.mem_cons_self)
      have hident : isJsIdentChar d = true :=
        name.ident d (hchars ▸ List.mem_cons_of_mem c hmem)
      have hdrop : (rest ++ assignTail before behind expr).dropWhile isWordChar =
          d :: (ds ++ assignTail before behind expr) := by
        rw [List.dropWhile_append, hd]
        rfl
      rw [if_pos hstart, hdrop, equals?_of_ident hident]
      rfl
    · rw [if_neg hstart]

/-! ### Keywords -/

theorem DeclKeyword.word (keyword : DeclKeyword) : keyword.chars.all isWordChar = true := by
  cases keyword <;> rfl

theorem declaration?_keyword (keyword : DeclKeyword) (rest : List Char) :
    declaration? (keyword.chars ++ rest) = some rest := by
  cases keyword <;> simp [declaration?, DeclKeyword.chars]

theorem declaration?_eq_some {cs behind : List Char} (h : declaration? cs = some behind) :
    ∃ keyword : DeclKeyword, cs = keyword.chars ++ behind := by
  have hcut : ∀ {word : List Char}, word.isPrefixOf cs = true →
      cs = word ++ cs.drop word.length := by
    intro word hword
    obtain ⟨rest, rfl⟩ := List.isPrefixOf_iff_prefix.mp hword
    rw [List.drop_left]
  unfold declaration? at h
  split at h
  · next hword =>
      obtain rfl := Option.some.inj h
      exact ⟨.const, hcut hword⟩
  · split at h
    · next hword =>
        obtain rfl := Option.some.inj h
        exact ⟨.let_, hcut hword⟩
    · split at h
      · next hword =>
          obtain rfl := Option.some.inj h
          exact ⟨.var_, hcut hword⟩
      · cases h

theorem head_name (name : JsIdent) (tail : List Char) :
    ∀ c, (name.chars ++ tail).head? = some c → isJsSpace c = false := by
  obtain ⟨d, rest, hchars, -⟩ := name.first
  intro c hc
  rw [hchars] at hc
  obtain rfl := Option.some.inj hc
  exact isJsSpace_of_ident (name.ident d (hchars ▸ List.mem_cons_self))

/-- A line with a keyword is read behind it. -/
theorem declarationSpace?_keyword (keyword : DeclKeyword) {gap : Blank} (hgap : gap.chars ≠ [])
    (name : JsIdent) (tail : List Char) :
    declarationSpace? (keyword.chars ++ (gap.chars ++ (name.chars ++ tail))) =
      some (name.chars ++ tail) := by
  obtain ⟨c, rest, hchars⟩ := List.exists_cons_of_ne_nil hgap
  have hspace : (gap.chars ++ (name.chars ++ tail)).head?.any isJsSpace = true := by
    rw [hchars]
    exact gap.space c (hchars ▸ List.mem_cons_self)
  unfold declarationSpace?
  rw [declaration?_keyword, Option.bind_eq_bind, Option.bind_some, if_pos hspace,
    dropSpace_blank gap (head_name name tail)]

/-- Without the keyword's pattern such a line is none. -/
theorem namedAssignment?_keyword (keyword : DeclKeyword) {gap : Blank} (hgap : gap.chars ≠ [])
    (name : JsIdent) (tail : List Char) :
    namedAssignment? (keyword.chars ++ (gap.chars ++ (name.chars ++ tail))) = none := by
  obtain ⟨g, gs, hg⟩ := List.exists_cons_of_ne_nil hgap
  have hword : isWordChar g = false := by
    cases h : isWordChar g with
    | false => rfl
    | true =>
        have hspace := gap.space g (hg ▸ List.mem_cons_self)
        rw [isJsSpace_of_ident (by unfold isJsIdentChar; rw [h]; rfl)] at hspace
        cases hspace
  obtain ⟨d, rest, hchars, -⟩ := name.first
  have hequals : equals? (gap.chars ++ (name.chars ++ tail)) = none := by
    have hdrop := dropSpace_blank gap (head_name name tail)
    have hident := equals?_of_ident (name.ident d (hchars ▸ List.mem_cons_self)) (rest ++ tail)
    unfold equals? at hident ⊢
    rw [hdrop, hchars, List.cons_append]
    rw [dropSpace, dropSpaces_of_head (by
      rintro c ⟨⟩
      exact isJsSpace_of_ident (name.ident d (hchars ▸ List.mem_cons_self)))] at hident
    exact hident
  have htake : ∀ word : List Char, word.all isWordChar = true →
      (word ++ (gap.chars ++ (name.chars ++ tail))).dropWhile isWordChar =
        gap.chars ++ (name.chars ++ tail) := by
    intro word hall
    rw [List.dropWhile_append_of_pos (List.all_eq_true.mp hall), hg, List.cons_append,
      List.dropWhile_cons, if_neg (by rw [hword]; exact Bool.false_ne_true)]
  cases hkeyword : keyword.chars with
  | nil => cases keyword <;> cases hkeyword
  | cons k ks =>
      have hall := keyword.word
      rw [hkeyword, List.all_cons, Bool.and_eq_true] at hall
      unfold namedAssignment?
      rw [List.cons_append]
      dsimp only
      split
      · rw [htake ks hall.2, hequals]
        rfl
      · rfl

/-- A line without a keyword is not read behind one. -/
theorem declarationSpace?_name (name : JsIdent) (before behind : Blank) (expr : JsExpr) :
    (declarationSpace? (name.chars ++ assignTail before behind expr)).bind namedAssignment? =
      none := by
  obtain ⟨t, tail, htail, hword, hstart⟩ := head_assignTail before behind expr
  unfold declarationSpace?
  cases hdecl : declaration? (name.chars ++ assignTail before behind expr) with
  | none => rfl
  | some left =>
      obtain ⟨keyword, hcs⟩ := declaration?_eq_some hdecl
      -- the keyword ends inside the name, or the name is the keyword
      have hleft : ∃ more, name.chars = keyword.chars ++ more ∧
          left = more ++ assignTail before behind expr := by
        rcases List.append_eq_append_iff.mp hcs with ⟨rest, hkeyword, hrest⟩ | ⟨rest, hname, hrest⟩
        · cases rest with
          | nil => exact ⟨[], by simpa using hkeyword.symm, hrest.symm⟩
          | cons r rest =>
              have hr : isWordChar r = true :=
                List.all_eq_true.mp keyword.word r (hkeyword ▸ by simp)
              rw [htail] at hrest
              obtain ⟨rfl, -⟩ := List.cons.inj hrest
              rw [hword] at hr
              cases hr
        · exact ⟨rest, hname, hrest⟩
      obtain ⟨rest, hname, rfl⟩ := hleft
      rw [Option.bind_eq_bind, Option.bind_some]
      cases rest with
      | cons r rest =>
          have hident : isJsIdentChar r = true := name.ident r (hname ▸ by simp)
          rw [List.cons_append, List.head?_cons, Option.any_some, isJsSpace_of_ident hident,
            if_neg Bool.false_ne_true]
          rfl
      | nil =>
          rw [List.nil_append]
          split
          · unfold assignTail
            rw [dropSpace_blank before (by rintro c ⟨⟩; rfl)]
            rfl
          · rfl

theorem getLast?_append_expr (cs : List Char) (expr : JsExpr) :
    (cs ++ expr.chars).getLast? = expr.chars.getLast? :=
  List.getLast?_append_of_ne_nil cs expr.given

/-- What the pattern of an assignment makes of an assignment. -/
theorem assignment?_text (lead : Blank)
    (keyword : Option (DeclKeyword × { b : Blank // b.chars ≠ [] })) (name : JsIdent)
    (before behind : Blank) (expr : JsExpr) (trail : Blank) :
    assignment? .javascript
        (TaintLine.assign lead keyword name before behind expr trail).text =
      if name.chars.all isWordChar = true then some (name.chars, expr.chars) else none := by
  have hink : ∀ front : List Char,
      (∀ c, (front ++ (name.chars ++ assignTail before behind expr)).head? = some c →
        isJsSpace c = false) →
      trimChars (lead.chars ++ (front ++ (name.chars ++ assignTail before behind expr)) ++
        trail.chars) = front ++ (name.chars ++ assignTail before behind expr) := by
    intro front hfront
    refine trimChars_around lead.space trail.space ?_ hfront ?_
    · obtain ⟨d, rest, hchars, -⟩ := name.first
      simp [hchars]
    · intro c hc
      have hsplit : front ++ (name.chars ++ assignTail before behind expr) =
          (front ++ (name.chars ++ (before.chars ++ '=' :: behind.chars))) ++ expr.chars := by
        simp [assignTail]
      rw [hsplit, getLast?_append_expr] at hc
      exact expr.lastInk c hc
  have hlanguage : ¬SastLanguage.javascript = SastLanguage.python := by decide
  unfold assignment?
  rw [if_neg hlanguage]
  cases keyword with
  | none =>
      have htrim := hink [] (head_name name _)
      change trimChars (TaintLine.assign lead none name before behind expr trail).text =
        name.chars ++ assignTail before behind expr at htrim
      rw [htrim, declarationSpace?_name, Option.none_or, namedAssignment?_name]
  | some declared =>
      obtain ⟨keyword, gap, hgap⟩ := declared
      have hfront : ∀ c, ((keyword.chars ++ gap.chars) ++
          (name.chars ++ assignTail before behind expr)).head? = some c →
          isJsSpace c = false := by
        cases keyword <;> rintro c ⟨⟩ <;> rfl
      have htrim := hink _ hfront
      change trimChars (TaintLine.assign lead (some (keyword, ⟨gap, hgap⟩)) name before behind expr
        trail).text = _ at htrim
      rw [htrim, List.append_assoc, declarationSpace?_keyword keyword hgap,
        namedAssignment?_keyword keyword hgap, Option.bind_some, Option.or_none,
        namedAssignment?_name]

/-! ## Destructuring -/

/-- A text that begins with a space is no declaration. -/
theorem destructuringAt?_space {c : Char} (h : isJsSpace c = true) (rest : List Char) :
    destructuringAt? (c :: rest) = none := by
  unfold destructuringAt?
  cases hdecl : declaration? (c :: rest) with
  | none => rfl
  | some behind =>
      obtain ⟨keyword, hcs⟩ := declaration?_eq_some hdecl
      cases keyword <;>
        · obtain ⟨rfl, -⟩ := List.cons.inj hcs
          exact absurd h (by decide)

theorem destructuring?_cons (c : Char) (rest : List Char) :
    destructuring? (c :: rest) = (destructuringAt? (c :: rest)).or (destructuring? rest) := by
  unfold destructuring?
  change ((c :: rest) :: rest.tails).findSome? destructuringAt? = _
  rw [List.findSome?_cons]
  cases destructuringAt? (c :: rest) <;> rfl

theorem destructuring?_of_at {cs : List Char} {found : List Char × List Char}
    (h : destructuringAt? cs = some found) : destructuring? cs = some found := by
  cases cs with
  | nil => cases h
  | cons c rest => rw [destructuring?_cons, h, Option.some_or]

/-- The pattern of a destructuring behind its keyword. -/
theorem destructuringAt?_keyword (keyword : DeclKeyword) (gap : Blank) {pattern : List Char}
    (rest : List Char) (hgiven : pattern ≠ []) (hbrace : '\x7d' ∉ pattern) :
    destructuringAt? (keyword.chars ++ (gap.chars ++ '\x7b' :: (pattern ++ '\x7d' :: rest))) =
      (equals? rest).bind fun behind => (restGroup behind).map fun expr => (pattern, expr) := by
  have htake : (pattern ++ '\x7d' :: rest).takeWhile (fun c => c != '\x7d') = pattern := by
    rw [List.takeWhile_append_of_pos (fun c hc => by
      rw [bne_iff_ne]
      rintro rfl
      exact hbrace hc)]
    simp
  unfold destructuringAt?
  rw [declaration?_keyword, Option.bind_eq_bind, Option.bind_some,
    dropSpace_blank gap (by rintro c ⟨⟩; rfl)]
  show (if (pattern ++ '\x7d' :: rest).takeWhile (fun c => c != '\x7d') = [] ∨
      ((pattern ++ '\x7d' :: rest).takeWhile (fun c => c != '\x7d')).length =
        (pattern ++ '\x7d' :: rest).length then none else _) = _
  rw [htake, if_neg (by simp [hgiven]), List.drop_length_add_append, List.drop_succ_cons,
    List.drop_zero]

theorem destructuring?_blank (lead : Blank) (cs : List Char) :
    destructuring? (lead.chars ++ cs) = destructuring? cs := by
  have hspace : ∀ spaces : List Char, (∀ c ∈ spaces, isJsSpace c = true) →
      destructuring? (spaces ++ cs) = destructuring? cs := by
    intro spaces
    induction spaces with
    | nil => intro _; rfl
    | cons c spaces ih =>
        intro hall
        have hrest := ih fun d hd => hall d (List.mem_cons_of_mem c hd)
        rw [List.cons_append, destructuring?_cons,
          destructuringAt?_space (hall c List.mem_cons_self)]
        exact hrest
  exact hspace lead.chars lead.space

/-- What the pattern of a destructuring makes of one. -/
theorem destructuring?_text (lead : Blank) (keyword : DeclKeyword) (gap : Blank)
    {properties : List PatternProperty} (before behind : Blank) (expr : JsExpr) (trail : Blank)
    (hgiven : TaintLine.patternText properties ≠ [])
    (hbrace : '\x7d' ∉ TaintLine.patternText properties) :
    destructuring?
        (TaintLine.destructure lead keyword gap properties before behind expr trail).text =
      some (TaintLine.patternText properties,
        expr.chars ++ trail.chars.takeWhile fun c => !isLineTerminator c) := by
  unfold TaintLine.text
  rw [destructuring?_blank]
  apply destructuring?_of_at
  rw [destructuringAt?_keyword keyword gap _ hgiven hbrace, equals?_blank, Option.bind_some,
    restGroup_expr]
  rfl

/-! ## Names between braces -/

@[simp] theorem patternNames_nil : patternNames [] = [] := rfl

theorem patternNames_append_sep (as bs : List Char) :
    patternNames (as ++ ',' :: bs) = patternNames as ++ patternNames bs := by
  unfold patternNames
  rw [splitOn_append_sep, List.map_append, List.filter_append]

/-- The names of a pattern are those of its properties. -/
theorem patternNames_patternText (properties : List PatternProperty) :
    patternNames (TaintLine.patternText properties) =
      properties.flatMap fun p => patternNames p.text := by
  unfold TaintLine.patternText
  induction properties with
  | nil => rfl
  | cons p properties ih =>
      cases properties with
      | nil => simp
      | cons next rest =>
          rw [List.map_cons, List.map_cons, List.intercalate_cons_cons, List.append_assoc,
            List.singleton_append, patternNames_append_sep, ← List.map_cons, ih]
          rfl

/-- A text without commas at its beginning begins the first piece. -/
theorem splitOn_front {front : List Char} (hfront : ',' ∉ front) (rest : List Char) :
    ∃ more pieces, splitOn ',' (front ++ rest) = (front ++ more) :: pieces := by
  by_cases hmem : ',' ∈ rest
  · obtain ⟨a, b, rfl, ha⟩ := List.eq_append_cons_of_mem hmem
    refine ⟨a, splitOn ',' b, ?_⟩
    rw [← List.append_assoc, splitOn_append_sep, splitOn_of_not_mem (by simp [hfront, ha])]
    rfl
  · exact ⟨rest, [], splitOn_of_not_mem (by simp [hfront, hmem])⟩

/-- A name that is not empty is among the names when its piece is the first. -/
theorem mem_patternNames_of_first {cs piece name : List Char} {pieces : List (List Char)}
    (hsplit : splitOn ',' cs = piece :: pieces) (hname : patternName piece = name)
    (hne : name ≠ []) : name ∈ patternNames cs := by
  unfold patternNames
  rw [hsplit, List.map_cons, hname, List.filter_cons_of_pos (by simpa using hne)]
  exact List.mem_cons_self

/-- Trimming leaves what is in front of a character that is no space. -/
theorem trimChars_ink (lead : Blank) {front : List Char} {c : Char}
    (hfront : ∀ d, (front ++ [c]).head? = some d → isJsSpace d = false)
    (hc : isJsSpace c = false) (rest : List Char) :
    ∃ more, trimChars (lead.chars ++ (front ++ c :: rest)) = front ++ c :: more := by
  refine ⟨(rest.reverse.dropWhile isJsSpace).reverse, ?_⟩
  have hhead : ∀ d, (front ++ c :: rest).head? = some d → isJsSpace d = false := by
    intro d hd
    apply hfront d
    cases front with
    | nil => exact hd
    | cons f front => exact hd
  have hstop : (c :: front.reverse).dropWhile isJsSpace = c :: front.reverse := by
    rw [List.dropWhile_cons, if_neg (by rw [hc]; exact Bool.false_ne_true)]
  unfold trimChars
  rw [List.dropWhile_append_of_pos lead.space, dropSpaces_of_head hhead, List.reverse_append,
    List.reverse_cons, List.append_assoc, List.singleton_append, List.dropWhile_append, hstop]
  split
  · next hempty =>
      rw [List.isEmpty_iff.mp hempty]
      simp
  · simp

theorem JsIdent.front_ne_colon (key : JsIdent) (before : Blank) {c : Char}
    (hc : c ∈ key.chars ++ before.chars) : (c != ':') = true := by
  rw [bne_iff_ne]
  rintro rfl
  rcases List.mem_append.mp hc with hc | hc
  · exact key.notMem (by simp) hc
  · exact notMem_blank before (by decide) hc

theorem patternName_renamed (lead : Blank) (key : JsIdent) (before : Blank) (rest : List Char) :
    patternName (lead.chars ++ (key.chars ++ (before.chars ++ ':' :: rest))) = key.chars := by
  obtain ⟨more, htrim⟩ := @trimChars_ink lead (key.chars ++ before.chars) ':'
    (by rw [List.append_assoc]; exact head_name key _) (by decide) rest
  have htake : (key.chars ++ before.chars ++ ':' :: more).takeWhile (fun c => c != ':') =
      key.chars ++ before.chars := by
    rw [List.takeWhile_append_of_pos (fun c hc => key.front_ne_colon before hc)]
    simp
  rw [List.append_assoc] at htrim
  unfold patternName
  rw [htrim, htake]
  have haround := @trimChars_around key.chars [] before.chars (by simp) before.space
    key.chars_ne_nil
    key.head_ink key.last_ink
  exact haround

theorem patternName_key (lead : Blank) (key : JsIdent) (trail : Blank) :
    patternName (lead.chars ++ (key.chars ++ trail.chars)) = key.chars := by
  have htake : key.chars.takeWhile (fun c => c != ':') = key.chars := by
    rw [List.takeWhile_eq_self_iff]
    intro c hc
    rw [bne_iff_ne]
    rintro rfl
    exact key.notMem (by simp) hc
  unfold patternName
  rw [← List.append_assoc, trimChars_around lead.space trail.space key.chars_ne_nil
    key.head_ink key.last_ink, htake]
  exact trimChars_of_noSpace fun c hc => isJsSpace_of_ident (key.ident c hc)

/-- A default without a new name is read as part of the name. -/
theorem mem_patternName_default (lead : Blank) (key : JsIdent) (before : Blank)
    (rest : List Char) :
    '=' ∈ patternName (lead.chars ++ (key.chars ++ (before.chars ++ '=' :: rest))) := by
  have hhead : ∀ d, (key.chars ++ before.chars ++ ['=']).head? = some d → isJsSpace d = false := by
    rw [List.append_assoc]
    exact head_name key _
  obtain ⟨more, htrim⟩ := trimChars_ink lead hhead (by decide) rest
  have htake : (key.chars ++ before.chars ++ '=' :: more).takeWhile (fun c => c != ':') =
      key.chars ++ before.chars ++ '=' :: more.takeWhile fun c => c != ':' := by
    rw [List.takeWhile_append_of_pos (fun c hc => key.front_ne_colon before hc)]
    rfl
  obtain ⟨left, hagain⟩ := trimChars_ink ⟨[], by simp, by simp⟩ hhead (by decide)
    (more.takeWhile fun c => c != ':')
  rw [List.append_assoc] at htrim
  unfold patternName
  rw [htrim, htake]
  rw [List.nil_append] at hagain
  rw [hagain]
  simp

namespace PatternProperty

variable (p : PatternProperty)

theorem text_renamed {before behind : Blank} {name : JsIdent}
    (hrename : p.rename = some (before, behind, name)) :
    p.text = p.lead.chars ++ (p.key.chars ++ (before.chars ++ ':' ::
      (behind.chars ++ (name.chars ++ (p.defaultText ++ p.trail.chars))))) := by
  simp [text, renameText, hrename]

theorem text_default {before : Blank} {text' : List Char} (hrename : p.rename = none)
    (hdefault : p.default = some (before, text')) :
    p.text =
      p.lead.chars ++ (p.key.chars ++ (before.chars ++ '=' :: (text' ++ p.trail.chars))) := by
  simp [text, renameText, defaultText, hrename, hdefault]

theorem text_key (hrename : p.rename = none) (hdefault : p.default = none) :
    p.text = p.lead.chars ++ (p.key.chars ++ p.trail.chars) := by
  simp [text, renameText, defaultText, hrename, hdefault]

/-- Commas come from a default only. -/
theorem comma_notMem_text (hplain : ∀ d ∈ p.default, ',' ∉ d.2) : ',' ∉ p.text := by
  have hblank : ∀ b : Blank, ',' ∉ b.chars := fun b => notMem_blank b (by decide)
  have hident : ∀ name : JsIdent, ',' ∉ name.chars := fun name => name.notMem (by simp)
  have hrename : ',' ∉ p.renameText := by
    unfold renameText
    cases p.rename with
    | none => simp
    | some found => simp [hblank, hident]
  have hdefault : ',' ∉ p.defaultText := by
    unfold defaultText
    cases hd : p.default with
    | none => simp
    | some found => simp [hblank, hplain found hd]
  unfold text
  simp [hblank, hident, hrename, hdefault]

/-- A property that is read under its key gives the key. -/
theorem key_mem_patternNames (hread : p.KeyRead) : p.key.chars ∈ patternNames p.text := by
  cases hrename : p.rename with
  | some found =>
      obtain ⟨before, behind, name⟩ := found
      have hfront : ',' ∉ p.lead.chars ++ (p.key.chars ++ (before.chars ++ [':'])) := by
        simp [notMem_blank p.lead (c := ',') (by decide),
          notMem_blank before (c := ',') (by decide), p.key.notMem (c := ',') (by simp)]
      obtain ⟨more, pieces, hsplit⟩ := splitOn_front hfront
        (behind.chars ++ (name.chars ++ (p.defaultText ++ p.trail.chars)))
      have htext : p.text = p.lead.chars ++ (p.key.chars ++ (before.chars ++ [':'])) ++
          (behind.chars ++ (name.chars ++ (p.defaultText ++ p.trail.chars))) := by
        rw [p.text_renamed hrename]
        simp
      rw [htext]
      refine mem_patternNames_of_first hsplit ?_ p.key.chars_ne_nil
      have hpiece : p.lead.chars ++ (p.key.chars ++ (before.chars ++ [':'])) ++ more =
          p.lead.chars ++ (p.key.chars ++ (before.chars ++ ':' :: more)) := by
        simp
      rw [hpiece, patternName_renamed]
  | none =>
      have hdefault : p.default = none :=
        hread.resolve_left (by rw [hrename]; exact Bool.false_ne_true)
      have hcomma := p.comma_notMem_text (by rw [hdefault]; rintro d ⟨⟩)
      refine mem_patternNames_of_first (splitOn_of_not_mem hcomma) ?_ p.key.chars_ne_nil
      rw [p.text_key hrename hdefault, patternName_key]

/-- Without commas in the default it gives no other identifier. -/
theorem eq_key_of_mem_patternNames (hplain : ∀ d ∈ p.default, ',' ∉ d.2) {name : List Char}
    (hname : name ∈ patternNames p.text) : (name = p.key.chars ∧ p.KeyRead) ∨ '=' ∈ name := by
  unfold patternNames at hname
  rw [splitOn_of_not_mem (p.comma_notMem_text hplain)] at hname
  obtain rfl : name = patternName p.text := by
    have hmem := (List.mem_filter.mp hname).1
    exact List.mem_singleton.mp hmem
  cases hrename : p.rename with
  | some found =>
      obtain ⟨before, behind, name⟩ := found
      refine Or.inl ⟨?_, Or.inl (by rw [hrename]; rfl)⟩
      rw [p.text_renamed hrename, patternName_renamed]
  | none =>
      cases hdefault : p.default with
      | none =>
          refine Or.inl ⟨?_, Or.inr hdefault⟩
          rw [p.text_key hrename hdefault, patternName_key]
      | some found =>
          refine Or.inr ?_
          rw [p.text_default hrename hdefault]
          exact mem_patternName_default p.lead p.key found.1 _

theorem equals_notMem_bound : '=' ∉ p.bound := by
  unfold bound
  split
  · exact p.key.notMem (by simp)
  · exact JsIdent.notMem _ (by simp)

theorem text_ne_nil : p.text ≠ [] := by
  unfold text
  simp [p.key.chars_ne_nil]

theorem newline_notMem_text : '\n' ∉ p.text := by
  have hblank : ∀ b : Blank, '\n' ∉ b.chars := Blank.oneLine
  have hident : ∀ name : JsIdent, '\n' ∉ name.chars := fun name => name.notMem (by simp)
  have hrename : '\n' ∉ p.renameText := by
    unfold renameText
    cases p.rename with
    | none => simp
    | some found => simp [hblank, hident]
  have hdefault : '\n' ∉ p.defaultText := by
    unfold defaultText
    cases hd : p.default with
    | none => simp
    | some found => simp [hblank, p.oneLine found hd]
  unfold text
  simp [hblank, hident, hrename, hdefault]

end PatternProperty

/-! ## Whole lines -/

namespace TaintLine

theorem patternText_ne_nil {properties : List PatternProperty} (hne : properties ≠ []) :
    patternText properties ≠ [] := by
  obtain ⟨p, rest, rfl⟩ := List.exists_cons_of_ne_nil hne
  unfold patternText
  cases rest with
  | nil => simp [p.text_ne_nil]
  | cons next rest =>
      rw [List.map_cons, List.map_cons, List.intercalate_cons_cons]
      simp [p.text_ne_nil]

theorem brace_notMem_patternText {properties : List PatternProperty}
    (h : ∀ p ∈ properties, '\x7d' ∉ p.text) : '\x7d' ∉ patternText properties := by
  intro hmem
  rcases mem_intercalate hmem with heq | ⟨part, hpart, hc⟩
  · cases heq
  · obtain ⟨p, hp, rfl⟩ := List.mem_map.mp hpart
    exact h p hp hc

/-- A line is one line. -/
theorem newline_notMem_text (line : TaintLine) : '\n' ∉ line.text := by
  have hblank : ∀ b : Blank, '\n' ∉ b.chars := Blank.oneLine
  have hident : ∀ name : JsIdent, '\n' ∉ name.chars := fun name => name.notMem (by simp)
  have hkeyword : ∀ keyword : DeclKeyword, '\n' ∉ keyword.chars := by
    intro keyword
    cases keyword <;> decide
  have hexpr : ∀ expr : JsExpr, '\n' ∉ expr.chars := by
    intro expr hmem
    cases expr.noTerminator _ hmem
  cases line with
  | assign lead keyword name before behind expr trail =>
      have hdecl : '\n' ∉ declText keyword := by
        unfold declText
        cases keyword with
        | none => simp
        | some found => simp [hkeyword, hblank]
      simp [text, hblank, hident, hexpr, hdecl]
  | destructure lead keyword gap properties before behind expr trail =>
      have hpattern : '\n' ∉ patternText properties := by
        intro hmem
        rcases mem_intercalate hmem with heq | ⟨part, hpart, hc⟩
        · cases heq
        · obtain ⟨p, -, rfl⟩ := List.mem_map.mp hpart
          exact p.newline_notMem_text hc
      simp [text, hblank, hexpr, hkeyword, hpattern]

/-- A line that is read gives every identifier it binds, from an expression with its own
expression at the beginning. -/
theorem bindings?_of_reads {line : TaintLine} (hreads : line.Reads) (hbinds : line.binds ≠ []) :
    ∃ names trail, bindings? .javascript line.text = some (names, line.expr ++ trail) ∧
      (∀ c ∈ trail, isJsSpace c = true) ∧ ∀ id ∈ line.binds, id ∈ names := by
  unfold bindings?
  cases line with
  | assign lead keyword name before behind expr trail =>
      obtain ⟨hword, hpattern⟩ := hreads
      rw [hpattern, assignment?_text, if_pos hword]
      exact ⟨[name.chars], [], by rw [List.append_nil]; rfl, by simp, fun id hid => hid⟩
  | destructure lead keyword gap properties before behind expr trail =>
      obtain ⟨hbrace, hread⟩ := hreads
      have hne : properties ≠ [] := by
        rintro rfl
        exact hbinds rfl
      rw [destructuring?_text lead keyword gap before behind expr trail (patternText_ne_nil hne)
        (brace_notMem_patternText hbrace)]
      refine ⟨_, _, rfl, ?_, ?_⟩
      · intro c hc
        exact trail.space c (List.takeWhile_subset _ hc)
      · intro id hid
        obtain ⟨p, hp, rfl⟩ := List.mem_map.mp hid
        obtain ⟨q, hq, hkey, hqread⟩ := hread p hp
        rw [patternNames_patternText, List.mem_flatMap]
        exact ⟨q, hq, hkey ▸ q.key_mem_patternNames hqread⟩

/-- A plain line that gives what it binds is read. -/
theorem reads_of_bindings? {line : TaintLine} (hplain : line.Plain)
    (h : ∀ id ∈ line.binds, ∃ found, bindings? .javascript line.text = some found ∧
      id ∈ found.1) : line.Reads := by
  unfold bindings? at h
  cases line with
  | assign lead keyword name before behind expr trail =>
      refine ⟨?_, hplain⟩
      obtain ⟨found, hfound, -⟩ := h name.chars List.mem_cons_self
      have hpattern : destructuring? (assign lead keyword name before behind expr trail).text =
        none := hplain
      rw [hpattern, assignment?_text] at hfound
      by_cases hword : name.chars.all isWordChar = true
      · exact hword
      · rw [if_neg hword] at hfound
        cases hfound
  | destructure lead keyword gap properties before behind expr trail =>
      have hbrace : ∀ p ∈ properties, '\x7d' ∉ p.text := fun p hp => (hplain p hp).1
      refine ⟨hbrace, ?_⟩
      intro p hp
      obtain ⟨found, hfound, hid⟩ := h p.bound (List.mem_map_of_mem hp)
      rw [destructuring?_text lead keyword gap before behind expr trail
        (patternText_ne_nil (List.ne_nil_of_mem hp)) (brace_notMem_patternText hbrace)] at hfound
      obtain rfl := Option.some.inj hfound
      dsimp only at hid
      rw [patternNames_patternText, List.mem_flatMap] at hid
      obtain ⟨q, hq, hmem⟩ := hid
      rcases q.eq_key_of_mem_patternNames (hplain q hq).2 hmem with ⟨hkey, hread⟩ | hequals
      · exact ⟨q, hq, hkey.symm, hread⟩
      · exact absurd hequals p.equals_notMem_bound

end TaintLine

end Scanner
end Ctem
