import Ctem.Foundation.InetText
import Ctem.Scanner.HclBlocks

/-!
# The body of a resource

The syntax of the part of the language the parser supports, its lexemes, and what the
parser makes of them.

* `HclExpr`, `HclSteps`, `HclItems` and `HclBody` are the syntax; `lexemes` spells it.
* `HclReading` is a way to read it as a tree: what a quoted text says, and how
  attributes and blocks go into the record of a body.
* `Plain` is the syntax without index steps and without commas between entries.
* `HclBody.reads`: on a plain body the parser returns the tree of `parserReading`, and
  on any other it fails, or it goes on behind a square bracket that is not closed.
-/

namespace Ctem
namespace Scanner

open Foundation

/-! ## Quoted text -/

/-- The digits of a `\u` or a `\U` escape. -/
def isCodePoint (digits : List Char) : Bool :=
  decide (digits.length ∈ [4, 8]) && digits.all (fun c => (hexValue c).isSome) &&
    decide (hexNumber digits).isValidChar

/-- A piece of a quoted text: a character that stands for itself, or an escape. -/
inductive TextPart where
  | char (c : Char) (hc : c ∉ ['"', '\\', '\n'])
  | newline
  | carriageReturn
  | tab
  | quote
  | backslash
  | codePoint (digits : List Char) (hdigits : isCodePoint digits = true)

namespace TextPart

def raw : TextPart → List Char
  | char c _ => [c]
  | newline => ['\\', 'n']
  | carriageReturn => ['\\', 'r']
  | tab => ['\\', 't']
  | quote => ['\\', '"']
  | backslash => ['\\', '\\']
  | codePoint digits _ => '\\' :: (if digits.length = 4 then 'u' else 'U') :: digits

/-- The character it stands for. -/
def value : TextPart → Char
  | char c _ => c
  | newline => '\n'
  | carriageReturn => '\r'
  | tab => '\t'
  | quote => '"'
  | backslash => '\\'
  | codePoint digits _ => Char.ofNat (hexNumber digits)

/-- What the parser makes of it. -/
def kept : TextPart → List Char
  | char c _ => [c]
  | newline => ['n']
  | carriageReturn => ['r']
  | tab => ['t']
  | quote => ['"']
  | backslash => ['\\']
  | codePoint digits _ => (if digits.length = 4 then 'u' else 'U') :: digits

/-- The backslash is all that the character needs. -/
def KeptAsMeant : TextPart → Prop
  | char .. => True
  | quote => True
  | backslash => True
  | newline => False
  | carriageReturn => False
  | tab => False
  | codePoint .. => False

end TextPart

/-- `String.ofList` of the characters the pieces stand for. -/
def meantText (parts : List TextPart) : String :=
  String.ofList (parts.map TextPart.value)

def keptText (parts : List TextPart) : String :=
  String.ofList (parts.flatMap TextPart.kept)

/-! ## Syntax -/

/-- The words that are values. -/
def valueWords : List String := ["true", "false", "null"]

mutual

/-- A value. -/
inductive HclExpr where
  | str (parts : List TextPart)
  | numeral (negative : Bool) (whole decimals : List Char)
  | bool (value : Bool)
  | null
  | ref (head : String) (hhead : head ∉ valueWords) (steps : HclSteps)
  | list (items : HclItems)
  | obj (entries : HclBody)

/-- The steps of a reference. -/
inductive HclSteps where
  | nil
  | attr (name : String) (rest : HclSteps)
  | index (at' : HclExpr) (rest : HclSteps)

/-- The items of a list; the last may have a comma behind it. -/
inductive HclItems where
  | nil
  | last (item : HclExpr)
  | cons (item : HclExpr) (rest : HclItems)

/-- Attributes and blocks.  The entries of an object are attributes, with or without a comma
behind each. -/
inductive HclBody where
  | nil
  | attr (key : String) (value : HclExpr) (comma : Bool) (rest : HclBody)
  | block (key : String) (labels : List (List TextPart)) (inner rest : HclBody)

end

/-- A quoted text as a lexeme. -/
def quotedText (parts : List TextPart) : Lexeme :=
  .quoted (parts.flatMap TextPart.raw)

mutual

def HclExpr.lexemes : HclExpr → List Lexeme
  | .str parts => [quotedText parts]
  | .numeral negative whole decimals => [.numeral negative whole decimals]
  | .bool value => [.word (if value then "true" else "false")]
  | .null => [.word "null"]
  | .ref head _ steps => .word head :: steps.lexemes
  | .list items => .mark '[' :: (items.lexemes ++ [.mark ']'])
  | .obj entries => .mark '\x7b' :: (entries.lexemes ++ [.mark '\x7d'])

def HclSteps.lexemes : HclSteps → List Lexeme
  | .nil => []
  | .attr name rest => .mark '.' :: .word name :: rest.lexemes
  | .index at' rest => .mark '[' :: (at'.lexemes ++ .mark ']' :: rest.lexemes)

def HclItems.lexemes : HclItems → List Lexeme
  | .nil => []
  | .last item => item.lexemes
  | .cons item rest => item.lexemes ++ .mark ',' :: rest.lexemes

def HclBody.lexemes : HclBody → List Lexeme
  | .nil => []
  | .attr key value comma rest =>
      .word key :: .mark '=' ::
        (value.lexemes ++ ((if comma then [.mark ','] else []) ++ rest.lexemes))
  | .block key labels inner rest =>
      .word key :: (labels.map quotedText ++
        .mark '\x7b' :: (inner.lexemes ++ .mark '\x7d' :: rest.lexemes))

end

/-! ## Trees -/

/-- A reference is kept as text. -/
def HclSteps.text : HclSteps → String
  | .nil => ""
  | .attr name rest => "." ++ name ++ rest.text
  | .index at' rest =>
      "[" ++ String.ofList (at'.lexemes.flatMap Lexeme.text) ++ "]" ++ rest.text

/-- A way to read the syntax. -/
structure HclReading where
  /-- What a quoted text says. -/
  text : List TextPart → String
  /-- The record with one attribute more. -/
  set : HclRecord → String → HclValue → HclRecord
  /-- The record with one block more. -/
  block : HclRecord → String → List String → HclRecord → HclRecord

mutual

def HclExpr.value (ρ : HclReading) : HclExpr → HclValue
  | .str parts => .str (ρ.text parts)
  | .numeral negative whole decimals => .number (numeralValue negative whole decimals)
  | .bool value => .bool value
  | .null => .null
  | .ref head _ steps => .str (head ++ steps.text)
  | .list items => .list (items.values ρ)
  | .obj entries => .obj (entries.members ρ [])

def HclItems.values (ρ : HclReading) : HclItems → List HclValue
  | .nil => []
  | .last item => [item.value ρ]
  | .cons item rest => item.value ρ :: rest.values ρ

/-- The members of a body, behind those that are there. -/
def HclBody.members (ρ : HclReading) : HclBody → HclRecord → HclRecord
  | .nil, obj => obj
  | .attr key value _ rest, obj => rest.members ρ (ρ.set obj key (value.value ρ))
  | .block key labels inner rest, obj =>
      rest.members ρ (ρ.block obj key (labels.map ρ.text) (inner.members ρ []))

end

/-- The parser's. -/
def parserReading : HclReading where
  text := keptText
  set := setMember
  block := addBlock

mutual

/-- No index steps, and no commas between entries. -/
def HclExpr.Plain : HclExpr → Prop
  | .str _ => True
  | .numeral .. => True
  | .bool _ => True
  | .null => True
  | .ref _ _ steps => steps.Plain
  | .list items => items.Plain
  | .obj entries => entries.Plain

def HclSteps.Plain : HclSteps → Prop
  | .nil => True
  | .attr _ rest => rest.Plain
  | .index _ _ => False

def HclItems.Plain : HclItems → Prop
  | .nil => True
  | .last item => item.Plain
  | .cons item rest => item.Plain ∧ rest.Plain

def HclBody.Plain : HclBody → Prop
  | .nil => True
  | .attr _ value comma rest => value.Plain ∧ comma = false ∧ rest.Plain
  | .block _ _ inner rest => inner.Plain ∧ rest.Plain

end

/-! ## Quoted text, as the parser reads it -/

theorem dropBackslashes_cons {c : Char} (hc : c ≠ '\\') (rest : List Char) :
    dropBackslashes (c :: rest) = c :: dropBackslashes rest := by
  cases rest with
  | nil => rfl
  | cons d rest => rw [dropBackslashes, if_neg hc]

theorem dropBackslashes_append {cs : List Char} (hcs : '\\' ∉ cs) (rest : List Char) :
    dropBackslashes (cs ++ rest) = cs ++ dropBackslashes rest := by
  induction cs with
  | nil => rfl
  | cons c cs ih =>
      rw [List.mem_cons, not_or] at hcs
      rw [List.cons_append, dropBackslashes_cons (Ne.symm hcs.1), ih hcs.2, List.cons_append]

theorem dropBackslashes_raw (parts : List TextPart) :
    dropBackslashes (parts.flatMap TextPart.raw) = parts.flatMap TextPart.kept := by
  have hescape : ∀ d rest, dropBackslashes ('\\' :: d :: rest) = d :: dropBackslashes rest := by
    intro d rest
    rw [dropBackslashes, if_pos rfl]
  induction parts with
  | nil => rfl
  | cons part parts ih =>
      rw [List.flatMap_cons, List.flatMap_cons, ← ih]
      cases part with
      | char c hc =>
          have hslash : c ≠ '\\' := fun h => hc (by simp [h])
          exact dropBackslashes_cons hslash _
      | codePoint digits hdigits =>
          have hnone : '\\' ∉ digits := by
            intro hmem
            unfold isCodePoint at hdigits
            rw [Bool.and_eq_true, Bool.and_eq_true, List.all_eq_true] at hdigits
            exact absurd (hdigits.1.2 _ hmem) (by decide)
          rw [TextPart.raw, TextPart.kept, List.cons_append, List.cons_append, hescape,
            dropBackslashes_append hnone, List.cons_append]
      | newline => exact hescape _ _
      | carriageReturn => exact hescape _ _
      | tab => exact hescape _ _
      | quote => exact hescape _ _
      | backslash => exact hescape _ _

@[simp] theorem kind_quotedText (parts : List TextPart) :
    (quotedText parts).kind = .str (keptText parts) := by
  rw [quotedText, Lexeme.kind, dropBackslashes_raw, keptText]

/-! ## Brackets in the tokens -/

/-- The kinds of the tokens of lexemes. -/
def lexed (ls : List Lexeme) : List TokKind := ls.map Lexeme.kind

@[simp] theorem lexed_nil : lexed [] = [] := rfl

@[simp] theorem lexed_cons (l : Lexeme) (ls : List Lexeme) :
    lexed (l :: ls) = l.kind :: lexed ls := rfl

@[simp] theorem lexed_append (ls ls' : List Lexeme) :
    lexed (ls ++ ls') = lexed ls ++ lexed ls' := List.map_append

/-- Square brackets that are opened, less those that are closed. -/
def squareDepth (ks : List TokKind) : Int :=
  bracketDepth (.punct '[') (.punct ']') ks

@[simp] theorem squareDepth_nil : squareDepth [] = 0 := rfl

theorem squareDepth_cons (k : TokKind) (ks : List TokKind) : squareDepth (k :: ks) =
    (if k = .punct '[' then 1 else if k = .punct ']' then -1 else 0) + squareDepth ks := rfl

theorem squareDepth_append (ks ks' : List TokKind) :
    squareDepth (ks ++ ks') = squareDepth ks + squareDepth ks' := bracketDepth_append ks ks'

theorem squareDepth_labels (labels : List (List TextPart)) :
    squareDepth (lexed (labels.map quotedText)) = 0 := by
  induction labels with
  | nil => rfl
  | cons label labels ih =>
      rw [List.map_cons, lexed_cons, squareDepth_cons, ih]
      simp

mutual

theorem HclExpr.squareDepth_lexemes : ∀ e : HclExpr, squareDepth (lexed e.lexemes) = 0
  | .str _ => by simp [HclExpr.lexemes, squareDepth_cons]
  | .numeral .. => by simp [HclExpr.lexemes, squareDepth_cons, Lexeme.kind]
  | .bool _ => by simp [HclExpr.lexemes, squareDepth_cons, Lexeme.kind]
  | .null => by simp [HclExpr.lexemes, squareDepth_cons, Lexeme.kind]
  | .ref _ _ steps => by
      simp [HclExpr.lexemes, squareDepth_cons, Lexeme.kind, steps.squareDepth_lexemes]
  | .list items => by
      simp [HclExpr.lexemes, squareDepth_cons, squareDepth_append, Lexeme.kind,
        items.squareDepth_lexemes]
  | .obj entries => by
      simp [HclExpr.lexemes, squareDepth_cons, squareDepth_append, Lexeme.kind,
        entries.squareDepth_lexemes]

theorem HclSteps.squareDepth_lexemes : ∀ s : HclSteps, squareDepth (lexed s.lexemes) = 0
  | .nil => by simp [HclSteps.lexemes]
  | .attr _ rest => by
      simp [HclSteps.lexemes, squareDepth_cons, Lexeme.kind, rest.squareDepth_lexemes]
  | .index at' rest => by
      simp [HclSteps.lexemes, squareDepth_cons, squareDepth_append, Lexeme.kind,
        at'.squareDepth_lexemes, rest.squareDepth_lexemes]

theorem HclItems.squareDepth_lexemes : ∀ items : HclItems, squareDepth (lexed items.lexemes) = 0
  | .nil => by simp [HclItems.lexemes]
  | .last item => by simp [HclItems.lexemes, item.squareDepth_lexemes]
  | .cons item rest => by
      simp [HclItems.lexemes, squareDepth_cons, squareDepth_append, Lexeme.kind,
        item.squareDepth_lexemes, rest.squareDepth_lexemes]

theorem HclBody.squareDepth_lexemes : ∀ body : HclBody, squareDepth (lexed body.lexemes) = 0
  | .nil => by simp [HclBody.lexemes]
  | .attr _ value comma rest => by
      cases comma <;>
        simp [HclBody.lexemes, squareDepth_cons, squareDepth_append, Lexeme.kind,
          value.squareDepth_lexemes, rest.squareDepth_lexemes]
  | .block _ labels inner rest => by
      simp [HclBody.lexemes, squareDepth_cons, squareDepth_append, Lexeme.kind,
        squareDepth_labels, inner.squareDepth_lexemes, rest.squareDepth_lexemes]

end

/-- Balanced braces. -/
def Braced (ks : List TokKind) : Prop := BracketBalanced leftBrace rightBrace ks

theorem Braced.cons {k : TokKind} {ks : List TokKind} (hks : Braced ks) (hleft : k ≠ leftBrace)
    (hright : k ≠ rightBrace) : Braced (k :: ks) :=
  BracketBalanced.cons hks hleft hright

theorem Braced.append {ks ks' : List TokKind} (hks : Braced ks) (hks' : Braced ks') :
    Braced (ks ++ ks') :=
  BracketBalanced.append hks hks'

theorem Braced.wrap {ks ks' : List TokKind} (hks : Braced ks) (hks' : Braced ks') :
    Braced (.punct '\x7b' :: (ks ++ .punct '\x7d' :: ks')) :=
  BracketBalanced.wrap (by simp [leftBrace, rightBrace]) hks hks'

theorem braced_nil : Braced [] := bracketBalanced_nil

/-- A lexeme that is no brace, in front. -/
theorem Braced.cons_kind {l : Lexeme} {ks : List TokKind} (hks : Braced ks)
    (hl : l ≠ .mark '\x7b' ∧ l ≠ .mark '\x7d') : Braced (l.kind :: ks) := by
  apply hks.cons
  · intro h
    cases l <;> simp_all [Lexeme.kind, leftBrace]
  · intro h
    cases l <;> simp_all [Lexeme.kind, rightBrace]

theorem Braced.labels {ks : List TokKind} (hks : Braced ks) (labels : List (List TextPart)) :
    Braced (lexed (labels.map quotedText) ++ ks) := by
  induction labels with
  | nil => exact hks
  | cons label labels ih => exact ih.cons_kind (by simp [quotedText])

mutual

theorem HclExpr.braced_lexemes : ∀ e : HclExpr, Braced (lexed e.lexemes)
  | .str _ => braced_nil.cons_kind (by simp [quotedText])
  | .numeral .. => braced_nil.cons_kind (by simp)
  | .bool _ => braced_nil.cons_kind (by simp)
  | .null => braced_nil.cons_kind (by simp)
  | .ref _ _ steps => steps.braced_lexemes.cons_kind (by simp)
  | .list items => by
      rw [HclExpr.lexemes, lexed_cons, lexed_append]
      exact (items.braced_lexemes.append (braced_nil.cons_kind (by simp))).cons_kind (by simp)
  | .obj entries => by
      rw [HclExpr.lexemes, lexed_cons, lexed_append]
      exact entries.braced_lexemes.wrap braced_nil

theorem HclSteps.braced_lexemes : ∀ s : HclSteps, Braced (lexed s.lexemes)
  | .nil => braced_nil
  | .attr _ rest => (rest.braced_lexemes.cons_kind (by simp)).cons_kind (by simp)
  | .index at' rest => by
      rw [HclSteps.lexemes, lexed_cons, lexed_append]
      exact (at'.braced_lexemes.append (rest.braced_lexemes.cons_kind (by simp))).cons_kind
        (by simp)

theorem HclItems.braced_lexemes : ∀ items : HclItems, Braced (lexed items.lexemes)
  | .nil => braced_nil
  | .last item => item.braced_lexemes
  | .cons item rest => by
      rw [HclItems.lexemes, lexed_append]
      exact item.braced_lexemes.append (rest.braced_lexemes.cons_kind (by simp))

theorem HclBody.braced_lexemes : ∀ body : HclBody, Braced (lexed body.lexemes)
  | .nil => braced_nil
  | .attr _ value comma rest => by
      have hbehind : Braced (lexed ((if comma then [.mark ','] else []) ++ rest.lexemes)) := by
        cases comma with
        | true => exact rest.braced_lexemes.cons_kind (by simp)
        | false => exact rest.braced_lexemes
      rw [HclBody.lexemes, lexed_cons, lexed_cons, lexed_append]
      exact ((value.braced_lexemes.append hbehind).cons_kind (by simp)).cons_kind (by simp)
  | .block _ labels inner rest => by
      rw [HclBody.lexemes, lexed_cons, lexed_append, lexed_cons, lexed_append, lexed_cons]
      exact ((inner.braced_lexemes.wrap rest.braced_lexemes).labels labels).cons_kind (by simp)

end

/-! ## Square brackets in what a call takes -/

theorem kinds_cons (tok : Tok) (toks : List Tok) :
    kinds (tok :: toks) = tok.kind :: kinds toks := rfl

theorem squareDepth_readSteps (toks : List Tok) (text : String) :
    squareDepth (kinds (readSteps toks text).2) ≤ squareDepth (kinds toks) := by
  have hmark : ∀ {tok : Tok} {mark : String} (ks : List TokKind), tok.kind.stepMark = some mark →
      squareDepth (tok.kind :: ks) = (if mark = "[" then 1 else 0) + squareDepth ks := by
    intro tok mark ks hmark
    rw [squareDepth_cons]
    obtain ⟨hkind, rfl⟩ | ⟨hkind, rfl⟩ := stepMark_eq_some hmark <;> simp [hkind]
  have hpart : ∀ {tok : Tok} {value : String} (ks : List TokKind),
      tok.kind.partText = some value → squareDepth (tok.kind :: ks) = squareDepth ks := by
    intro tok value ks hpart
    rw [squareDepth_cons]
    cases hkind : tok.kind with
    | punct c =>
        rw [hkind] at hpart
        cases hpart
    | ident | str | number => simp
  fun_induction readSteps toks text with
  | case1 => exact Int.le_refl _
  | case2 => exact Int.le_refl _
  | case3 tok text mark hstep =>
      rw [kinds_cons, hmark _ hstep]
      split <;> simp [kinds]
  | case4 => exact Int.le_refl _
  | case5 tok part rest text mark hstep value hvalue ih =>
      rw [kinds_cons, hmark _ hstep, kinds_cons, hpart _ hvalue]
      split <;> omega
  | case6 tok part rest text mark hstep hvalue hclose ih =>
      rw [kinds_cons, hmark _ hstep, kinds_cons, squareDepth_cons, if_pos hclose.1, hclose.2]
      simp only [TokKind.punct.injEq, Char.reduceEq, if_true, if_false]
      omega
  | case7 tok part rest text mark hstep hvalue hclose ih =>
      rw [kinds_cons, hmark _ hstep]
      split <;> omega

/-- What a call takes opens at least the square brackets it closes; a list is called behind
its own. -/
theorem parse_squareDepth (turns : Nat) :
    (∀ toks obj r, parseObject turns toks obj = .ok r →
      squareDepth (kinds r.2) ≤ squareDepth (kinds toks)) ∧
    (∀ toks r, parseValue turns toks = .ok r →
      squareDepth (kinds r.2) ≤ squareDepth (kinds toks)) ∧
    ∀ toks items r, parseList turns toks items = .ok r →
      squareDepth (kinds r.2) ≤ squareDepth (kinds toks) + 1 := by
  have hother : ∀ {tok : Tok} (rest : List Tok) {k : TokKind}, tok.kind = k →
      k ≠ .punct '[' → k ≠ .punct ']' →
      squareDepth (kinds (tok :: rest)) = squareDepth (kinds rest) := by
    intro tok rest k hk hopen hclose
    rw [kinds_cons, squareDepth_cons, hk, if_neg hopen, if_neg hclose, Int.zero_add]
  have hlabels : ∀ rest : List Tok,
      squareDepth (kinds (takeLabels rest).2) = squareDepth (kinds rest) := by
    intro rest
    fun_induction takeLabels rest with
    | case1 label line rest ih =>
        rw [ih]
        exact (hother rest rfl (by simp) (by simp)).symm
    | case2 => rfl
  apply @parse_takes
    (fun toks after => squareDepth (kinds after) ≤ squareDepth (kinds toks))
    (fun toks after => squareDepth (kinds after) ≤ squareDepth (kinds toks))
    (fun toks after => squareDepth (kinds after) ≤ squareDepth (kinds toks) + 1)
  case hclose =>
    intro tok rest hkind
    rw [hother rest hkind (by simp) (by simp)]
  case hattr =>
    intro tok key eq rest mid after hkey heq hvalue hmid
    rw [hother _ hkey (by simp) (by simp), hother _ heq (by simp) (by simp)]
    exact Int.le_trans hmid hvalue
  case hblock =>
    intro tok key rest brace body mid after hkey htaken hbrace hbody hmid
    rw [hother _ hkey (by simp) (by simp), ← hlabels rest, htaken,
      hother _ hbrace (by simp) (by simp)]
    exact Int.le_trans hmid hbody
  case hstr =>
    intro tok value rest hkind
    rw [hother rest hkind (by simp) (by simp)]
  case hnumber =>
    intro tok value rest hkind
    rw [hother rest hkind (by simp) (by simp)]
  case hident =>
    intro tok name rest hkind
    rw [hother rest hkind (by simp) (by simp)]
    unfold identValue
    split
    · exact Int.le_refl _
    split
    · exact Int.le_refl _
    split
    · exact Int.le_refl _
    · exact squareDepth_readSteps rest name
  case hlist =>
    intro tok rest after hkind hlist
    rw [kinds_cons, squareDepth_cons, hkind, if_pos rfl, Int.add_comm]
    exact hlist
  case hobj =>
    intro tok rest after hkind hobj
    rw [hother rest hkind (by simp) (by simp)]
    exact hobj
  case hend =>
    intro tok rest hkind
    rw [kinds_cons, squareDepth_cons, hkind, if_neg (by simp), if_pos rfl]
    omega
  case hcomma =>
    intro tok rest after hkind hlist
    rw [hother rest hkind (by simp) (by simp)]
    exact hlist
  case hitem =>
    intro tok rest mid after _ _ hvalue hlist
    omega

/-! ## What the parser makes of the syntax -/

section ReadsTo

variable {α β : Type}

/-- A call reads this value and stops in front of these tokens, if the syntax is plain; if it
is not, a call that returns has left a square bracket open.  A call without turns says
nothing. -/
def ReadsTo (plain : Prop) (value : α) (rest : List TokKind) :
    Except HclFailure (α × List Tok) → Prop
  | .ok r => (plain → r.1 = value ∧ kinds r.2 = rest) ∧
      (¬ plain → squareDepth (kinds r.2) < squareDepth rest)
  | .error (.parse _) => ¬ plain
  | .error .outOfTurns => True

theorem ReadsTo.of_ok {value : α} {toks : List Tok} {rest : List TokKind}
    (hrest : kinds toks = rest) : ReadsTo True value rest (.ok (value, toks)) :=
  ⟨fun _ => ⟨rfl, hrest⟩, fun h => absurd trivial h⟩

/-- One call behind another.  Where the first has left a bracket open, the second does not
make up for it. -/
theorem ReadsTo.bind {p q : Prop} {v : α} {w : β} {mid rest : List TokKind}
    {first : Except HclFailure (α × List Tok)}
    {next : α × List Tok → Except HclFailure (β × List Tok)} (hfirst : ReadsTo p v mid first)
    (hgood : ∀ r, r.1 = v → kinds r.2 = mid → ReadsTo q w rest (next r))
    (hbad : ∀ r s, next r = .ok s →
      squareDepth (kinds s.2) + squareDepth mid ≤ squareDepth (kinds r.2) + squareDepth rest) :
    ReadsTo (p ∧ q) w rest (first >>= next) := by
  cases first with
  | error failure =>
      cases failure with
      | parse message => exact fun h => hfirst h.1
      | outOfTurns => trivial
  | ok r =>
      by_cases hp : p
      · obtain ⟨hvalue, hmid⟩ := hfirst.1 hp
        have hnext := hgood r hvalue hmid
        rw [and_iff_right hp]
        exact hnext
      · have hopen := hfirst.2 hp
        have hnot : ¬ (p ∧ q) := fun h => hp h.1
        show ReadsTo (p ∧ q) w rest (next r)
        cases hnext : next r with
        | error failure =>
            cases failure with
            | parse message => exact hnot
            | outOfTurns => trivial
        | ok s =>
            refine ⟨fun h => absurd h hnot, fun _ => ?_⟩
            have hle := hbad r s hnext
            omega

theorem ReadsTo.map {p : Prop} {v : α} {rest : List TokKind}
    {first : Except HclFailure (α × List Tok)} (hfirst : ReadsTo p v rest first) (f : α → β) :
    ReadsTo p (f v) rest (do
      let r ← first
      pure (f r.1, r.2)) := by
  cases first with
  | error failure => cases failure <;> exact hfirst
  | ok r => exact ⟨fun hp => ⟨congrArg f (hfirst.1 hp).1, (hfirst.1 hp).2⟩, hfirst.2⟩

end ReadsTo

/-- Tokens that begin with a kind. -/
theorem kinds_eq_cons {toks : List Tok} {k : TokKind} {ks : List TokKind}
    (h : kinds toks = k :: ks) : ∃ tok rest, toks = tok :: rest ∧ tok.kind = k ∧ kinds rest = ks :=
  List.map_eq_cons_iff.mp h

/-- A value begins with a token that neither ends a list nor separates its items. -/
theorem HclExpr.exists_head (e : HclExpr) :
    ∃ k ks, lexed e.lexemes = k :: ks ∧ k ≠ .punct ']' ∧ k ≠ .punct ',' := by
  cases e with
  | str | numeral | bool | null | ref => exact ⟨_, _, rfl, by simp [Lexeme.kind, quotedText]⟩
  | list items => exact ⟨.punct '[', _, rfl, by simp⟩
  | obj entries => exact ⟨.punct '\x7b', _, rfl, by simp⟩

theorem takeLabels_spec {toks : List Tok} {labels : List (List TextPart)} {ks : List TokKind}
    (hkinds : kinds toks = lexed (labels.map quotedText) ++ ks)
    (hks : ∀ text, ks.head? ≠ some (.str text)) :
    (takeLabels toks).1 = labels.map keptText ∧ kinds (takeLabels toks).2 = ks := by
  induction labels generalizing toks with
  | nil =>
      have hstop : takeLabels toks = ([], toks) := by
        unfold takeLabels
        split
        · rename_i label line rest
          exact absurd (congrArg List.head? hkinds).symm (hks label)
        · rfl
      rw [hstop]
      exact ⟨rfl, hkinds⟩
  | cons label labels ih =>
      rw [List.map_cons, lexed_cons, kind_quotedText, List.cons_append] at hkinds
      obtain ⟨⟨kind, line⟩, rest, rfl, rfl, hrest⟩ := kinds_eq_cons hkinds
      obtain ⟨htaken, hbehind⟩ := ih hrest
      exact ⟨congrArg (keptText label :: ·) htaken, hbehind⟩

theorem HclSteps.reads : ∀ (steps : HclSteps) {toks : List Tok} {rest : List TokKind}
    (text : String), kinds toks = lexed steps.lexemes ++ rest →
    (∀ k, rest.head? = some k → k.stepMark = none) →
    (steps.Plain →
      (readSteps toks text).1 = text ++ steps.text ∧ kinds (readSteps toks text).2 = rest) ∧
    (¬ steps.Plain → squareDepth (kinds (readSteps toks text).2) < squareDepth rest)
  | .nil, toks, rest, text, hkinds, hrest => by
      have hstop : readSteps toks text = (text, toks) := by
        have hmark : ∀ tok more, toks = tok :: more → tok.kind.stepMark = none := by
          rintro tok more rfl
          exact hrest tok.kind (congrArg List.head? hkinds).symm
        match toks with
        | [] => rfl
        | [tok] => simp [readSteps, hmark tok [] rfl]
        | tok :: part :: more => simp [readSteps, hmark tok (part :: more) rfl]
      rw [hstop]
      refine ⟨fun _ => ⟨?_, hkinds⟩, fun h => absurd trivial h⟩
      rw [HclSteps.text, String.append_empty]
  | .attr name steps, toks, rest, text, hkinds, hrest => by
      obtain ⟨tok, toks, rfl, htok, hkinds⟩ := kinds_eq_cons hkinds
      obtain ⟨part, toks, rfl, hpart, hkinds⟩ := kinds_eq_cons hkinds
      have hstep : readSteps (tok :: part :: toks) text = readSteps toks (text ++ "." ++ name) := by
        rw [readSteps, htok, hpart]
        rfl
      obtain ⟨hplain, hnot⟩ := HclSteps.reads steps (text ++ "." ++ name) hkinds hrest
      rw [hstep]
      refine ⟨fun h => ⟨?_, (hplain h).2⟩, hnot⟩
      rw [(hplain h).1, HclSteps.text]
      simp only [String.append_assoc]
  | .index at' steps, toks, rest, text, hkinds, hrest => by
      refine ⟨fun h => h.elim, fun _ => ?_⟩
      obtain ⟨k, ks, hat, hclose, _⟩ := at'.exists_head
      have htotal : squareDepth (kinds toks) = squareDepth rest := by
        rw [hkinds, squareDepth_append, HclSteps.squareDepth_lexemes, Int.zero_add]
      rw [HclSteps.lexemes, lexed_cons, lexed_append, hat] at hkinds
      obtain ⟨tok, toks, rfl, htok, hkinds⟩ := kinds_eq_cons hkinds
      obtain ⟨part, toks, rfl, hpart, hkinds⟩ := kinds_eq_cons hkinds
      rw [kinds_cons, squareDepth_cons, htok] at htotal
      simp only [Lexeme.kind, if_true] at htotal
      rw [readSteps, htok]
      simp only [Lexeme.kind, TokKind.stepMark]
      -- The bracket that is opened here is closed by none of the later steps.
      cases hvalue : part.kind.partText with
      | some value =>
          have hle := squareDepth_readSteps toks (text ++ "[" ++ value)
          have hnone : squareDepth (kinds (part :: toks)) = squareDepth (kinds toks) := by
            rw [kinds_cons, squareDepth_cons]
            cases hkind : part.kind with
            | punct c =>
                rw [hkind] at hvalue
                cases hvalue
            | ident | str | number => simp
          dsimp only
          omega
      | none =>
          have hle := squareDepth_readSteps (part :: toks) (text ++ "[")
          rw [hpart]
          dsimp only
          rw [if_neg (fun h => hclose h.2)]
          omega

theorem parseList_close {turns : Nat} {toks : List Tok} {rest : List TokKind}
    (hkinds : kinds toks = .punct ']' :: rest) (items : List HclValue) :
    ReadsTo True items rest (parseList turns toks items) := by
  obtain ⟨tok, toks, rfl, htok, hrest⟩ := kinds_eq_cons hkinds
  cases turns with
  | zero => trivial
  | succ turns =>
      rw [parseList, if_pos htok]
      exact ReadsTo.of_ok hrest

/-- An item, and what the list goes on with. -/
theorem parseList_item {e : HclExpr} {q : Prop} {turns : Nat} {toks : List Tok}
    {mid rest : List TokKind} {items values : List HclValue}
    (hkinds : kinds toks = lexed e.lexemes ++ mid)
    (hvalue : ∀ turns, ReadsTo e.Plain (e.value parserReading) mid (parseValue turns toks))
    (hnext : ∀ turns toks', kinds toks' = mid →
      ReadsTo q values rest (parseList turns toks' (items ++ [e.value parserReading])))
    (hdepth : squareDepth rest = squareDepth mid + 1) :
    ReadsTo (e.Plain ∧ q) values rest (parseList turns toks items) := by
  obtain ⟨k, ks, hhead, hclose, hcomma⟩ := e.exists_head
  rw [hhead] at hkinds
  obtain ⟨tok, toks, rfl, htok, _⟩ := kinds_eq_cons hkinds
  cases turns with
  | zero => trivial
  | succ turns =>
      rw [parseList, if_neg (htok ▸ hclose), if_neg (htok ▸ hcomma)]
      apply (hvalue turns).bind
      · intro r hr hmid
        rw [hr]
        exact hnext turns r.2 hmid
      · intro r s hs
        have hle := (parse_squareDepth turns).2.2 _ _ _ hs
        omega

mutual

/-- A value is read up to its end. -/
theorem HclExpr.reads : ∀ (e : HclExpr) (turns : Nat) {toks : List Tok} {rest : List TokKind},
    kinds toks = lexed e.lexemes ++ rest → (∀ k, rest.head? = some k → k.stepMark = none) →
    ReadsTo e.Plain (e.value parserReading) rest (parseValue turns toks)
  | _, 0, _, _, _, _ => by
      rw [parseValue]
      trivial
  | .str parts, turns + 1, toks, rest, hkinds, _ => by
      rw [HclExpr.lexemes, lexed_cons, kind_quotedText] at hkinds
      obtain ⟨tok, toks, rfl, htok, hkinds⟩ := kinds_eq_cons hkinds
      rw [parseValue, htok]
      exact ReadsTo.of_ok hkinds
  | .numeral .., turns + 1, toks, rest, hkinds, _ => by
      obtain ⟨tok, toks, rfl, htok, hkinds⟩ := kinds_eq_cons hkinds
      rw [parseValue, htok]
      exact ReadsTo.of_ok hkinds
  | .bool value, turns + 1, toks, rest, hkinds, _ => by
      obtain ⟨tok, toks, rfl, htok, hbehind⟩ := kinds_eq_cons hkinds
      rw [parseValue, htok]
      cases value with
      | true => exact ReadsTo.of_ok hbehind
      | false => exact ReadsTo.of_ok hbehind
  | .null, turns + 1, toks, rest, hkinds, _ => by
      obtain ⟨tok, toks, rfl, htok, hkinds⟩ := kinds_eq_cons hkinds
      rw [parseValue, htok]
      exact ReadsTo.of_ok hkinds
  | .ref head hhead steps, turns + 1, toks, rest, hkinds, hrest => by
      obtain ⟨tok, toks, rfl, htok, hkinds⟩ := kinds_eq_cons hkinds
      obtain ⟨hplain, hnot⟩ := steps.reads head hkinds hrest
      simp only [valueWords, List.mem_cons, List.not_mem_nil, or_false, not_or] at hhead
      rw [parseValue, htok]
      simp only [Lexeme.kind, identValue]
      rw [if_neg hhead.1, if_neg hhead.2.1, if_neg hhead.2.2]
      exact ⟨fun h => ⟨congrArg HclValue.str (hplain h).1, (hplain h).2⟩, hnot⟩
  | .list items, turns + 1, toks, rest, hkinds, _ => by
      rw [HclExpr.lexemes, lexed_cons, List.cons_append, lexed_append, List.append_assoc] at hkinds
      obtain ⟨tok, toks, rfl, htok, hkinds⟩ := kinds_eq_cons hkinds
      rw [parseValue, htok]
      exact (items.reads turns [] hkinds).map HclValue.list
  | .obj entries, turns + 1, toks, rest, hkinds, _ => by
      rw [HclExpr.lexemes, lexed_cons, List.cons_append, lexed_append, List.append_assoc] at hkinds
      obtain ⟨tok, toks, rfl, htok, hkinds⟩ := kinds_eq_cons hkinds
      rw [parseValue, htok]
      exact (entries.reads turns [] hkinds).map HclValue.obj

/-- A list is read up to its bracket. -/
theorem HclItems.reads : ∀ (items : HclItems) (turns : Nat) {toks : List Tok}
    {rest : List TokKind} (done : List HclValue),
    kinds toks = lexed items.lexemes ++ .punct ']' :: rest →
    ReadsTo items.Plain (done ++ items.values parserReading) rest (parseList turns toks done)
  | .nil, turns, toks, rest, done, hkinds => by
      rw [HclItems.values, List.append_nil]
      exact parseList_close hkinds done
  | .last item, turns, toks, rest, done, hkinds => by
      have hread := @parseList_item item True turns toks (.punct ']' :: rest) rest done
        (done ++ [item.value parserReading]) hkinds
        (fun turns => item.reads turns hkinds (by simp [TokKind.stepMark]))
        (fun turns toks' hkinds' => parseList_close hkinds' _) (by simp [squareDepth_cons])
      rw [and_true] at hread
      exact hread
  | .cons item items, turns, toks, rest, done, hkinds => by
      rw [HclItems.lexemes, lexed_append, List.append_assoc] at hkinds
      have hread := @parseList_item item items.Plain turns toks _ rest done
        (done ++ (item.value parserReading :: items.values parserReading)) hkinds
        (fun turns => item.reads turns hkinds (by simp [Lexeme.kind, TokKind.stepMark]))
        (by
          intro turns toks' hkinds'
          obtain ⟨tok, toks', rfl, htok, hkinds'⟩ := kinds_eq_cons hkinds'
          cases turns with
          | zero => trivial
          | succ turns =>
              rw [parseList, htok, if_neg (by simp [Lexeme.kind]), if_pos (by rfl),
                List.append_cons]
              exact items.reads turns (done ++ [item.value parserReading]) hkinds')
        (by
          rw [lexed_cons, List.cons_append, squareDepth_cons, squareDepth_append,
            items.squareDepth_lexemes]
          simp [squareDepth_cons, Lexeme.kind])
      exact hread

/-- A body is read up to its brace. -/
theorem HclBody.reads : ∀ (body : HclBody) (turns : Nat) {toks : List Tok}
    {rest : List TokKind} (obj : HclRecord),
    kinds toks = lexed body.lexemes ++ .punct '\x7d' :: rest →
    ReadsTo body.Plain (body.members parserReading obj) rest (parseObject turns toks obj)
  | _, 0, _, _, _, _ => by
      rw [parseObject]
      trivial
  | .nil, turns + 1, toks, rest, obj, hkinds => by
      obtain ⟨tok, toks, rfl, htok, hkinds⟩ := kinds_eq_cons hkinds
      rw [parseObject, if_pos htok]
      exact ReadsTo.of_ok hkinds
  | .attr key value comma body, turns + 1, toks, rest, obj, hkinds => by
      rw [HclBody.lexemes, lexed_cons, lexed_cons, lexed_append, lexed_append, List.cons_append,
        List.cons_append, List.append_assoc, List.append_assoc] at hkinds
      obtain ⟨tok, toks, rfl, htok, hkinds⟩ := kinds_eq_cons hkinds
      obtain ⟨eq, toks, rfl, heq, hkinds⟩ := kinds_eq_cons hkinds
      rw [parseObject, htok, if_neg (by simp [Lexeme.kind])]
      simp only [Lexeme.kind, nextKind, List.head?_cons, Option.map_some, heq, if_true,
        List.tail_cons]
      apply (value.reads turns hkinds ?_).bind
      · intro r hr hmid
        rw [hr]
        cases comma with
        | false =>
            rw [HclBody.members, eq_self_iff_true, true_and]
            exact body.reads turns _ hmid
        | true =>
            -- The comma is where the parser expects a name.
            obtain ⟨mark, toks', hr2, hmark, _⟩ := kinds_eq_cons hmid
            rw [hr2]
            cases turns with
            | zero => trivial
            | succ turns =>
                rw [parseObject, hmark, if_neg (by simp [Lexeme.kind])]
                exact fun h => nomatch h.1
      · intro r s hs
        have hle := (parse_squareDepth turns).1 _ _ _ hs
        have hmid : squareDepth (lexed (if comma = true then [.mark ','] else []) ++
            (lexed body.lexemes ++ .punct '\x7d' :: rest)) = squareDepth rest := by
          rw [squareDepth_append, squareDepth_append, body.squareDepth_lexemes, squareDepth_cons]
          cases comma <;> simp [squareDepth_cons, Lexeme.kind]
        omega
      · intro k hk
        cases comma with
        | true =>
            obtain rfl := Option.some.inj hk
            rfl
        | false =>
            cases body with
            | nil | attr | block =>
                obtain rfl := Option.some.inj hk
                rfl
  | .block key labels inner body, turns + 1, toks, rest, obj, hkinds => by
      rw [HclBody.lexemes, lexed_cons, lexed_append, List.cons_append, List.append_assoc] at hkinds
      obtain ⟨tok, toks, rfl, htok, hkinds⟩ := kinds_eq_cons hkinds
      obtain ⟨hlabels, hbehind⟩ := takeLabels_spec hkinds (by
        intro text h
        cases h)
      rw [lexed_cons, lexed_append, lexed_cons, List.cons_append, List.append_assoc,
        List.cons_append] at hbehind
      obtain ⟨brace, inside, htaken, hbrace, hinside⟩ := kinds_eq_cons hbehind
      have hnot : nextKind toks ≠ some (.punct '=') := by
        have hfirst : nextKind toks = (kinds toks).head? := List.head?_map.symm
        rw [hfirst, hkinds]
        cases labels with
        | nil => exact fun h => nomatch h
        | cons label labels => exact fun h => nomatch h
      rw [parseObject, htok, if_neg (by simp [Lexeme.kind])]
      simp only [Lexeme.kind]
      rw [if_neg hnot, htaken, hlabels]
      simp only [nextKind, List.head?_cons, Option.map_some, hbrace, Lexeme.kind, if_true,
        List.tail_cons]
      apply (inner.reads turns [] hinside).bind
      · intro r hr hmid
        rw [hr]
        exact body.reads turns _ hmid
      · intro r s hs
        have hle := (parse_squareDepth turns).1 _ _ _ hs
        have hmid : squareDepth (lexed body.lexemes ++ .punct '\x7d' :: rest) =
            squareDepth rest := by
          rw [squareDepth_append, body.squareDepth_lexemes, squareDepth_cons]
          simp
        omega

end

end Scanner
end Ctem
