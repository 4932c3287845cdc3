import Ctem.Scanner.TaintTracker

/-!
# Masked sources

`stripCommentsPreserve` over any symbols, with those it looks for among them: over the UTF-16
code units of a source, where the offsets of a match are taken, and over its characters.

* `JsPieces` and `PyPieces` say how a source is cut into comments and the rest.
* `stripCommentsOver_pieces`: the masked source is that with its comments blanked.
* `SameLines`: two texts of one length with their line breaks at the same offsets.
-/

namespace Ctem
namespace Scanner

universe u

/-! ## The scan -/

/-- Where the scan stands.  Behind a backslash, and inside the marks of a block comment, the
next symbol is taken whatever it is. -/
inductive MaskState (α : Type u) where
  | code
  | quoted (quote : α)
  | escaped (quote : α)
  | lineComment
  | blockOpen
  | blockComment
  | blockClose

/-- A scan that writes a symbol for each it reads, with the next one in sight. -/
def scanWith {α σ : Type u} (step : σ → α → Option α → α × σ) : σ → List α → List α
  | _, [] => []
  | state, c :: rest =>
      (step state c rest.head?).1 :: scanWith step (step state c rest.head?).2 rest

theorem scanWith_cons {α σ : Type u} {step : σ → α → Option α → α × σ} {state state' : σ}
    {c d : α} {rest : List α} (h : step state c rest.head? = (d, state')) :
    scanWith step state (c :: rest) = d :: scanWith step state' rest := by
  rw [scanWith, h]

section Code

variable {α : Type u} [DecidableEq α] (sym : Char → α)

def opensQuoted (c : α) : Bool :=
  decide (c = sym '"') || decide (c = sym '\'') || decide (c = sym '`')

/-- A symbol of a comment. -/
def blank (c : α) : α := if c = sym '\n' then sym '\n' else sym ' '

/-- Inside a string. -/
def quotedStep (escapes : Prop) [Decidable escapes] (quote c : α) : α × MaskState α :=
  if escapes ∧ c = sym '\\' then (c, .escaped quote)
  else (c, if c = quote then .code else .quoted quote)

/-- Inside a line comment. -/
def lineStep (c : α) : α × MaskState α :=
  if c = sym '\n' then (c, .code) else (sym ' ', .lineComment)

/-- A turn of `stripJsCommentsPreserve`, with `skipQuoted` for the strings.  A template knows no
escapes, and the last symbol of a block comment that is not closed is copied. -/
def jsStep (state : MaskState α) (c : α) (next : Option α) : α × MaskState α :=
  match state with
  | .code =>
      if opensQuoted sym c then (c, .quoted c)
      else if c = sym '/' ∧ next = some (sym '/') then (sym ' ', .lineComment)
      else if c = sym '/' ∧ next = some (sym '*') then (sym ' ', .blockOpen)
      else (c, .code)
  | .quoted quote => quotedStep sym (quote ≠ sym '`') quote c
  | .escaped quote => (c, .quoted quote)
  | .lineComment => lineStep sym c
  | .blockOpen => (sym ' ', .blockComment)
  | .blockComment =>
      if next = none then (c, .blockComment)
      else if c = sym '*' ∧ next = some (sym '/') then (sym ' ', .blockClose)
      else (blank sym c, .blockComment)
  | .blockClose => (sym ' ', .code)

/-- A turn of `stripPyCommentsPreserve`, which is never in a block comment. -/
def pyStep (state : MaskState α) (c : α) (_ : Option α) : α × MaskState α :=
  match state with
  | .quoted quote => quotedStep sym True quote c
  | .escaped quote => (c, .quoted quote)
  | .lineComment => lineStep sym c
  | _ =>
      if c = sym '"' ∨ c = sym '\'' then (c, .quoted c)
      else if c = sym '#' then (sym ' ', .lineComment)
      else (c, .code)

def stripJsOver (state : MaskState α) (source : List α) : List α :=
  scanWith (jsStep sym) state source

def stripPyOver (state : MaskState α) (source : List α) : List α :=
  scanWith (pyStep sym) state source

/-- `stripCommentsPreserve`. -/
def stripCommentsOver (source : List α) (language : SastLanguage) : List α :=
  if language = .python then stripPyOver sym .code source else stripJsOver sym .code source

/-- `lineAt(source, index)`. -/
def lineAt (source : List α) (index : Nat) : Nat :=
  1 + (source.take (min index source.length)).count (sym '\n')

/-! ## How a source is cut -/

/-- A run of a source that is left as it stands, or a comment. -/
inductive Piece (α : Type u) where
  | kept (text : List α)
  | comment (text : List α)

def Piece.text : Piece α → List α
  | .kept text => text
  | .comment text => text

def Piece.masked : Piece α → List α
  | .kept text => text
  | .comment text => text.map (blank sym)

/-- The body of a string behind its quote, with the closing quote, or to the end of the text.
A backslash takes the symbol behind it along where the string knows escapes. -/
inductive QuotedBody (escapes : Prop) (quote : α) : List α → List α → Prop
  | ends : QuotedBody escapes quote [] []
  | close (rest : List α) : QuotedBody escapes quote [quote] rest
  | trailing (hescapes : escapes) : QuotedBody escapes quote [sym '\\'] []
  | escape (c : α) (body rest : List α) (hescapes : escapes)
      (hbody : QuotedBody escapes quote body rest) :
      QuotedBody escapes quote (sym '\\' :: c :: body) rest
  | unit (c : α) (body rest : List α) (hquote : c ≠ quote) (hc : ¬ (escapes ∧ c = sym '\\'))
      (hbody : QuotedBody escapes quote body rest) :
      QuotedBody escapes quote (c :: body) rest

/-- A text that is at its end, or at a line break. -/
def AtLineEnd (rest : List α) : Prop := ∀ c ∈ rest.head?, c = sym '\n'

/-- What stands between the marks of a block comment. -/
def OpenBlock (body : List α) : Prop := ¬ [sym '*', sym '/'] <:+: body

/-- A JavaScript source, cut as the scanner reads it: strings run to their quote, a comment to
its line break or to its closing mark. -/
inductive JsPieces : List α → List (Piece α) → Prop
  | done : JsPieces [] []
  | literal (quote : α) (body rest : List α) (pieces : List (Piece α))
      (hquote : opensQuoted sym quote)
      (hbody : QuotedBody sym (quote ≠ sym '`') quote body rest) (hrest : JsPieces rest pieces) :
      JsPieces (quote :: (body ++ rest)) (.kept (quote :: body) :: pieces)
  | line (body rest : List α) (pieces : List (Piece α)) (hbody : sym '\n' ∉ body)
      (hend : AtLineEnd sym rest) (hrest : JsPieces rest pieces) :
      JsPieces (sym '/' :: sym '/' :: (body ++ rest))
        (.comment (sym '/' :: sym '/' :: body) :: pieces)
  | block (body rest : List α) (pieces : List (Piece α)) (hbody : OpenBlock sym body)
      (hrest : JsPieces rest pieces) :
      JsPieces (sym '/' :: sym '*' :: (body ++ sym '*' :: sym '/' :: rest))
        (.comment (sym '/' :: sym '*' :: (body ++ [sym '*', sym '/'])) :: pieces)
  | openEmpty : JsPieces [sym '/', sym '*'] [.comment [sym '/', sym '*']]
  -- the last symbol of a comment that is never closed is left out of it
  | openBlock (body : List α) (last : α) (hbody : OpenBlock sym (body ++ [last])) :
      JsPieces (sym '/' :: sym '*' :: (body ++ [last]))
        [.comment (sym '/' :: sym '*' :: body), .kept [last]]
  | unit (c : α) (rest : List α) (pieces : List (Piece α)) (hquote : ¬ opensQuoted sym c)
      (hmark : c = sym '/' → rest.head? ≠ some (sym '/') ∧ rest.head? ≠ some (sym '*'))
      (hrest : JsPieces rest pieces) :
      JsPieces (c :: rest) (.kept [c] :: pieces)

/-- A Python source, cut as the scanner reads it. -/
inductive PyPieces : List α → List (Piece α) → Prop
  | done : PyPieces [] []
  | literal (quote : α) (body rest : List α) (pieces : List (Piece α))
      (hquote : quote = sym '"' ∨ quote = sym '\'')
      (hbody : QuotedBody sym True quote body rest) (hrest : PyPieces rest pieces) :
      PyPieces (quote :: (body ++ rest)) (.kept (quote :: body) :: pieces)
  | line (body rest : List α) (pieces : List (Piece α)) (hbody : sym '\n' ∉ body)
      (hend : AtLineEnd sym rest) (hrest : PyPieces rest pieces) :
      PyPieces (sym '#' :: (body ++ rest)) (.comment (sym '#' :: body) :: pieces)
  | unit (c : α) (rest : List α) (pieces : List (Piece α))
      (hquote : ¬ (c = sym '"' ∨ c = sym '\'')) (hmark : c ≠ sym '#')
      (hrest : PyPieces rest pieces) :
      PyPieces (c :: rest) (.kept [c] :: pieces)

/-- How a source of the language is cut. -/
def SourcePieces (language : SastLanguage) (source : List α) (pieces : List (Piece α)) : Prop :=
  if language = .python then PyPieces sym source pieces else JsPieces sym source pieces

end Code

/-! ## The scan and the cut -/

section Cut

variable {α : Type u} [DecidableEq α] {sym : Char → α}
  {step : MaskState α → α → Option α → α × MaskState α}

/-- A string is copied as it stands. -/
theorem scanWith_quotedBody {escapes : Prop} [Decidable escapes] {quote : α} {body rest : List α}
    (hstep : ∀ c next, step (.quoted quote) c next = quotedStep sym escapes quote c)
    (hescaped : ∀ c next, step (.escaped quote) c next = (c, .quoted quote))
    (hquote : ¬ (escapes ∧ quote = sym '\\'))
    (hbody : QuotedBody sym escapes quote body rest) :
    scanWith step (.quoted quote) (body ++ rest) = body ++ scanWith step .code rest := by
  induction hbody with
  | ends => rfl
  | close rest =>
    have hturn : quotedStep sym escapes quote quote = (quote, .code) := by
      rw [quotedStep, if_neg hquote, if_pos rfl]
    exact scanWith_cons (by rw [hstep, hturn])
  | trailing hescapes =>
    have hturn : quotedStep sym escapes quote (sym '\\') = (sym '\\', .escaped quote) :=
      if_pos ⟨hescapes, rfl⟩
    rw [List.append_nil, scanWith_cons (by rw [hstep, hturn])]
    rfl
  | escape c body rest hescapes hbody ih =>
    have hturn : quotedStep sym escapes quote (sym '\\') = (sym '\\', .escaped quote) :=
      if_pos ⟨hescapes, rfl⟩
    rw [List.cons_append, List.cons_append, scanWith_cons (by rw [hstep, hturn]),
      scanWith_cons (hescaped c _), ih]
    rfl
  | unit c body rest hne hc hbody ih =>
    have hturn : quotedStep sym escapes quote c = (c, .quoted quote) := by
      rw [quotedStep, if_neg hc, if_neg hne]
    rw [List.cons_append, scanWith_cons (by rw [hstep, hturn]), ih]
    rfl

/-- A line comment leaves blanks up to the line break. -/
theorem scanWith_lineBody {body rest : List α}
    (hstep : ∀ c next, step .lineComment c next = lineStep sym c)
    (hbreak : ∀ next, step .code (sym '\n') next = (sym '\n', .code))
    (hbody : sym '\n' ∉ body) (hend : AtLineEnd sym rest) :
    scanWith step .lineComment (body ++ rest) =
      body.map (blank sym) ++ scanWith step .code rest := by
  induction body with
  | nil =>
    cases rest with
    | nil => rfl
    | cons c rest =>
      obtain rfl : c = sym '\n' := hend c rfl
      have hturn : lineStep sym (sym '\n') = (sym '\n', .code) := if_pos rfl
      rw [List.nil_append, scanWith_cons (by rw [hstep, hturn]), scanWith_cons (hbreak _)]
      rfl
  | cons c body ih =>
    have hc : c ≠ sym '\n' := fun h => hbody (h ▸ List.mem_cons_self)
    have htail : sym '\n' ∉ body := fun h => hbody (List.mem_cons_of_mem c h)
    have hturn : lineStep sym c = (blank sym c, .lineComment) := by
      rw [lineStep, blank, if_neg hc, if_neg hc]
    rw [List.cons_append, scanWith_cons (by rw [hstep, hturn]), ih htail]
    rfl

omit [DecidableEq α] in
theorem OpenBlock.tail {c : α} {body : List α} (h : OpenBlock sym (c :: body)) :
    OpenBlock sym body :=
  fun hbody => h (List.infix_cons hbody)

omit [DecidableEq α] in
theorem OpenBlock.cons {c : α} {body : List α}
    (hc : ¬ [sym '*', sym '/'] <+: c :: body) (h : OpenBlock sym body) :
    OpenBlock sym (c :: body) :=
  fun hbody => (List.infix_cons_iff.mp hbody).elim hc h

/-- A turn inside a block comment that does not stand at its closing mark. -/
theorem jsStep_blockComment {c : α} {body rest : List α} (hbody : OpenBlock sym (c :: body))
    (hnext : body ++ rest ≠ []) (hrest : body = [] → rest.head? ≠ some (sym '/')) :
    jsStep sym .blockComment c (body ++ rest).head? = (blank sym c, .blockComment) := by
  have hclosed : ¬ (c = sym '*' ∧ (body ++ rest).head? = some (sym '/')) := by
    rintro ⟨rfl, hhead⟩
    cases body with
    | nil => exact hrest rfl hhead
    | cons d body =>
      obtain rfl : d = sym '/' := Option.some_inj.mp hhead
      exact hbody ⟨[], body, rfl⟩
  have hnone : (body ++ rest).head? ≠ none := fun h => hnext (List.head?_eq_none_iff.mp h)
  exact (if_neg hnone).trans (if_neg hclosed)

/-- Inside a block comment everything up to its closing mark is blanked. -/
theorem stripJsOver_blockBody {body : List α} (rest : List α) (hbody : OpenBlock sym body)
    (hmarks : sym '*' ≠ sym '/') :
    stripJsOver sym .blockComment (body ++ sym '*' :: sym '/' :: rest) =
      body.map (blank sym) ++ sym ' ' :: sym ' ' :: stripJsOver sym .code rest := by
  induction body with
  | nil =>
    have hturn : jsStep sym .blockComment (sym '*') (some (sym '/')) = (sym ' ', .blockClose) := by
      rw [jsStep, if_neg (Option.some_ne_none _), if_pos ⟨rfl, rfl⟩]
    exact (scanWith_cons hturn).trans (congrArg _ (scanWith_cons rfl))
  | cons c body ih =>
    have hmark : (sym '*' :: sym '/' :: rest).head? ≠ some (sym '/') := fun h =>
      hmarks (Option.some_inj.mp h)
    rw [List.cons_append, stripJsOver,
      scanWith_cons (jsStep_blockComment hbody (by simp) fun _ => hmark)]
    exact congrArg _ (ih hbody.tail)

/-- A block comment that is not closed is blanked but for its last symbol. -/
theorem stripJsOver_openBody {body : List α} {last : α}
    (hbody : OpenBlock sym (body ++ [last])) :
    stripJsOver sym .blockComment (body ++ [last]) = body.map (blank sym) ++ [last] := by
  induction body with
  | nil =>
    have hturn : jsStep sym .blockComment last none = (last, .blockComment) := by
      rw [jsStep, if_pos rfl]
    exact scanWith_cons hturn
  | cons c body ih =>
    have hturn : jsStep sym .blockComment c (body ++ [last]).head? =
        (blank sym c, .blockComment) := by
      have hshort := @jsStep_blockComment α _ sym c (body ++ [last]) [] hbody (by simp) (by simp)
      rwa [List.append_nil] at hshort
    rw [List.cons_append, stripJsOver, scanWith_cons hturn]
    exact congrArg _ (ih hbody.tail)

theorem opensQuoted_iff {c : α} :
    opensQuoted sym c = true ↔ c = sym '"' ∨ c = sym '\'' ∨ c = sym '`' := by
  simp [opensQuoted, or_assoc]

theorem jsStep_plain {c : α} {next : Option α} (hc : ¬ opensQuoted sym c)
    (hmark : c = sym '/' → next ≠ some (sym '/') ∧ next ≠ some (sym '*')) :
    jsStep sym .code c next = (c, .code) := by
  have hline : ¬ (c = sym '/' ∧ next = some (sym '/')) := fun h => (hmark h.1).1 h.2
  have hblock : ¬ (c = sym '/' ∧ next = some (sym '*')) := fun h => (hmark h.1).2 h.2
  rw [jsStep, if_neg hc, if_neg hline, if_neg hblock]

/-- The JavaScript scanner leaves the pieces of a source, its comments blanked. -/
theorem stripJsOver_pieces (hsym : Function.Injective sym) {source : List α}
    {pieces : List (Piece α)} (h : JsPieces sym source pieces) :
    stripJsOver sym .code source = pieces.flatMap (Piece.masked sym) := by
  have hne : ∀ {a b : Char}, a ≠ b → sym a ≠ sym b := fun hab h => hab (hsym h)
  have hquote : ∀ {a : Char}, a ≠ '"' → a ≠ '\'' → a ≠ '`' → ¬ opensQuoted sym (sym a) :=
    fun h₁ h₂ h₃ h => (opensQuoted_iff.mp h).elim (hne h₁) (·.elim (hne h₂) (hne h₃))
  have hslash : ¬ opensQuoted sym (sym '/') := hquote (by decide) (by decide) (by decide)
  have hblank : ∀ {a : Char}, a ≠ '\n' → blank sym (sym a) = sym ' ' := fun ha =>
    if_neg (hne ha)
  have hstar : ¬ (sym '/' = sym '/' ∧ some (sym '*') = some (sym '/')) := fun h =>
    hne (by decide) (Option.some_inj.mp h.2)
  -- the two symbols that open a block comment
  have hopening : ∀ text : List α, stripJsOver sym .code (sym '/' :: sym '*' :: text) =
      sym ' ' :: sym ' ' :: stripJsOver sym .blockComment text := by
    intro text
    have hturn : jsStep sym .code (sym '/') (some (sym '*')) = (sym ' ', .blockOpen) := by
      rw [jsStep, if_neg hslash, if_neg hstar, if_pos ⟨rfl, rfl⟩]
    exact (scanWith_cons hturn).trans (congrArg _ (scanWith_cons rfl))
  induction h with
  | done => rfl
  | literal quote body rest pieces hopens hbody hrest ih =>
    have hback : ¬ (quote ≠ sym '`' ∧ quote = sym '\\') := by
      rintro ⟨-, rfl⟩
      exact hquote (by decide) (by decide) (by decide) hopens
    have hturn : ∀ next, jsStep sym .code quote next = (quote, .quoted quote) := fun next =>
      if_pos hopens
    rw [stripJsOver] at ih
    rw [stripJsOver, scanWith_cons (hturn _),
      scanWith_quotedBody (fun _ _ => rfl) (fun _ _ => rfl) hback hbody, ih]
    rfl
  | line body rest pieces hbody hend hrest ih =>
    have hturn : jsStep sym .code (sym '/') (some (sym '/')) = (sym ' ', .lineComment) := by
      rw [jsStep, if_neg hslash, if_pos ⟨rfl, rfl⟩]
    have hsecond : lineStep sym (sym '/') = (sym ' ', .lineComment) := if_neg (hne (by decide))
    have hbreak : ∀ next, jsStep sym .code (sym '\n') next = (sym '\n', .code) := fun next =>
      jsStep_plain (hquote (by decide) (by decide) (by decide)) fun h => absurd h (hne (by decide))
    rw [stripJsOver] at ih
    rw [stripJsOver, scanWith_cons hturn, scanWith_cons hsecond,
      scanWith_lineBody (fun _ _ => rfl) hbreak hbody hend, ih]
    simp [Piece.masked, hblank]
  | block body rest pieces hbody hrest ih =>
    rw [hopening, stripJsOver_blockBody rest hbody (hne (by decide)), ih]
    simp [Piece.masked, hblank]
  | openEmpty =>
    rw [hopening]
    simp [Piece.masked, hblank, stripJsOver, scanWith]
  | openBlock body last hbody =>
    rw [hopening, stripJsOver_openBody hbody]
    simp [Piece.masked, hblank]
  | unit c rest pieces hopens hmark hrest ih =>
    rw [stripJsOver] at ih
    rw [stripJsOver, scanWith_cons (jsStep_plain hopens hmark), ih]
    rfl

theorem pyStep_plain {c : α} {next : Option α} (hquote : ¬ (c = sym '"' ∨ c = sym '\''))
    (hmark : c ≠ sym '#') : pyStep sym .code c next = (c, .code) :=
  (if_neg hquote).trans (if_neg hmark)

/-- The Python scanner leaves the pieces of a source, its comments blanked. -/
theorem stripPyOver_pieces (hsym : Function.Injective sym) {source : List α}
    {pieces : List (Piece α)} (h : PyPieces sym source pieces) :
    stripPyOver sym .code source = pieces.flatMap (Piece.masked sym) := by
  have hne : ∀ {a b : Char}, a ≠ b → sym a ≠ sym b := fun hab h => hab (hsym h)
  have hquote : ∀ {a : Char}, a ≠ '"' → a ≠ '\'' → ¬ (sym a = sym '"' ∨ sym a = sym '\'') :=
    fun h₁ h₂ h => h.elim (hne h₁) (hne h₂)
  induction h with
  | done => rfl
  | literal quote body rest pieces hopens hbody hrest ih =>
    have hback : ¬ (True ∧ quote = sym '\\') := by
      rintro ⟨-, rfl⟩
      exact hquote (by decide) (by decide) hopens
    have hturn : ∀ next, pyStep sym .code quote next = (quote, .quoted quote) := fun next =>
      if_pos hopens
    rw [stripPyOver] at ih
    rw [stripPyOver, scanWith_cons (hturn _),
      scanWith_quotedBody (fun _ _ => rfl) (fun _ _ => rfl) hback hbody, ih]
    rfl
  | line body rest pieces hbody hend hrest ih =>
    have hhash : ¬ (sym '#' = sym '"' ∨ sym '#' = sym '\'') := hquote (by decide) (by decide)
    have hturn : ∀ next, pyStep sym .code (sym '#') next = (sym ' ', .lineComment) := fun next =>
      (if_neg hhash).trans (if_pos rfl)
    have hbreak : ∀ next, pyStep sym .code (sym '\n') next = (sym '\n', .code) := fun next =>
      pyStep_plain (hquote (by decide) (by decide)) (hne (by decide))
    have hblank : blank sym (sym '#') = sym ' ' := if_neg (hne (by decide))
    rw [stripPyOver] at ih
    rw [stripPyOver, scanWith_cons (hturn _),
      scanWith_lineBody (fun _ _ => rfl) hbreak hbody hend, ih]
    simp [Piece.masked, hblank]
  | unit c rest pieces hopens hmark hrest ih =>
    rw [stripPyOver] at ih
    rw [stripPyOver, scanWith_cons (pyStep_plain hopens hmark), ih]
    rfl

end Cut

/-! ## Every source is cut -/

section Exists

variable {α : Type u} (sym : Char → α)

/-- A string ends: at its quote, or with the text. -/
theorem exists_quotedBody (escapes : Prop) (quote : α) : ∀ text : List α,
    ∃ body rest, text = body ++ rest ∧ QuotedBody sym escapes quote body rest
  | [] => ⟨[], [], rfl, .ends⟩
  | c :: text => by
    by_cases hback : escapes ∧ c = sym '\\'
    · obtain ⟨hescapes, rfl⟩ := hback
      cases text with
      | nil => exact ⟨[sym '\\'], [], rfl, .trailing hescapes⟩
      | cons d text =>
        obtain ⟨body, rest, rfl, hbody⟩ := exists_quotedBody escapes quote text
        exact ⟨sym '\\' :: d :: body, rest, rfl, .escape d body rest hescapes hbody⟩
    · by_cases hquote : c = quote
      · subst hquote
        exact ⟨[c], text, rfl, .close text⟩
      · obtain ⟨body, rest, rfl, hbody⟩ := exists_quotedBody escapes quote text
        exact ⟨c :: body, rest, rfl, .unit c body rest hquote hback hbody⟩

theorem exists_lineEnd : ∀ text : List α,
    ∃ body rest, text = body ++ rest ∧ sym '\n' ∉ body ∧ AtLineEnd sym rest
  | [] => ⟨[], [], rfl, List.not_mem_nil, fun c hc => by simp at hc⟩
  | c :: text => by
    by_cases hc : c = sym '\n'
    · exact ⟨[], c :: text, rfl, List.not_mem_nil, fun d hd => by
        rw [← hc]; exact (Option.some_inj.mp hd).symm⟩
    · obtain ⟨body, rest, rfl, hbody, hend⟩ := exists_lineEnd text
      refine ⟨c :: body, rest, rfl, fun h => ?_, hend⟩
      exact (List.mem_cons.mp h).elim (fun h => hc h.symm) hbody

/-- The first closing mark of a text, where it has one. -/
theorem exists_blockEnd : ∀ text : List α,
    (∃ body rest, text = body ++ sym '*' :: sym '/' :: rest ∧ OpenBlock sym body) ∨
      OpenBlock sym text
  | [] => .inr fun h => by simp at h
  | c :: text => by
    by_cases hc : [sym '*', sym '/'] <+: c :: text
    · obtain ⟨rest, hrest⟩ := hc
      exact .inl ⟨[], rest, hrest.symm, fun h => by simp at h⟩
    · obtain ⟨body, rest, rfl, hbody⟩ | htext := exists_blockEnd text
      · refine .inl ⟨c :: body, rest, rfl, hbody.cons fun h => hc (h.trans ?_)⟩
        exact List.prefix_append (c :: body) _
      · exact .inr (htext.cons hc)

/-- Every JavaScript source is cut. -/
theorem exists_jsPieces [DecidableEq α] (source : List α) :
    ∃ pieces, JsPieces sym source pieces := by
  induction hn : source.length using Nat.strong_induction_on generalizing source with
  | h n ih =>
  cases source with
  | nil => exact ⟨[], .done⟩
  | cons c source =>
  by_cases hquote : opensQuoted sym c
  · obtain ⟨body, rest, rfl, hbody⟩ := exists_quotedBody sym (c ≠ sym '`') c source
    obtain ⟨pieces, hrest⟩ := ih rest.length (by simp at hn; omega) rest rfl
    exact ⟨_, .literal c body rest pieces hquote hbody hrest⟩
  by_cases hmark : c = sym '/' → source.head? ≠ some (sym '/') ∧ source.head? ≠ some (sym '*')
  · obtain ⟨pieces, hrest⟩ := ih source.length (by simp at hn; omega) source rfl
    exact ⟨_, .unit c source pieces hquote hmark hrest⟩
  -- what is left opens a comment of one of the two kinds
  have hopens : c = sym '/' ∧ (source.head? = some (sym '/') ∨ source.head? = some (sym '*')) := by
    by_contra hno
    exact hmark fun hc => ⟨fun h => hno ⟨hc, .inl h⟩, fun h => hno ⟨hc, .inr h⟩⟩
  obtain ⟨rfl, hline | hblock⟩ := hopens
  · obtain ⟨text, rfl⟩ := List.head?_eq_some_iff.mp hline
    obtain ⟨body, rest, rfl, hbody, hend⟩ := exists_lineEnd sym text
    obtain ⟨pieces, hrest⟩ := ih rest.length (by simp at hn; omega) rest rfl
    exact ⟨_, .line body rest pieces hbody hend hrest⟩
  · obtain ⟨text, rfl⟩ := List.head?_eq_some_iff.mp hblock
    obtain ⟨body, rest, rfl, hbody⟩ | htext := exists_blockEnd sym text
    · obtain ⟨pieces, hrest⟩ := ih rest.length (by simp at hn; omega) rest rfl
      exact ⟨_, .block body rest pieces hbody hrest⟩
    · obtain rfl | ⟨body, last, rfl⟩ := text.eq_nil_or_concat'
      · exact ⟨_, .openEmpty⟩
      · exact ⟨_, .openBlock body last htext⟩

/-- Every Python source is cut. -/
theorem exists_pyPieces (source : List α) : ∃ pieces, PyPieces sym source pieces := by
  induction hn : source.length using Nat.strong_induction_on generalizing source with
  | h n ih =>
  cases source with
  | nil => exact ⟨[], .done⟩
  | cons c source =>
  by_cases hquote : c = sym '"' ∨ c = sym '\''
  · obtain ⟨body, rest, rfl, hbody⟩ := exists_quotedBody sym True c source
    obtain ⟨pieces, hrest⟩ := ih rest.length (by simp at hn; omega) rest rfl
    exact ⟨_, .literal c body rest pieces hquote hbody hrest⟩
  by_cases hmark : c = sym '#'
  · subst hmark
    obtain ⟨body, rest, rfl, hbody, hend⟩ := exists_lineEnd sym source
    obtain ⟨pieces, hrest⟩ := ih rest.length (by simp at hn; omega) rest rfl
    exact ⟨_, .line body rest pieces hbody hend hrest⟩
  · obtain ⟨pieces, hrest⟩ := ih source.length (by simp at hn; omega) source rfl
    exact ⟨_, .unit c source pieces hquote hmark hrest⟩

end Exists

/-! ## Positions -/

section Positions

variable {α : Type u} [DecidableEq α] (sym : Char → α)

/-- Where the line breaks of a text are. -/
def lineBreaks (text : List α) : List Bool := text.map fun c => decide (c = sym '\n')

@[simp] theorem length_lineBreaks (text : List α) :
    (lineBreaks sym text).length = text.length := List.length_map _

theorem getElem?_lineBreaks (text : List α) (i : Nat) :
    (lineBreaks sym text)[i]? = some true ↔ text[i]? = some (sym '\n') := by
  rw [lineBreaks, List.getElem?_map]
  cases text[i]? <;> simp

theorem lineAt_eq (text : List α) (index : Nat) :
    lineAt sym text index =
      1 + ((lineBreaks sym text).take (min index (lineBreaks sym text).length)).count true := by
  rw [lineAt, length_lineBreaks, lineBreaks, ← List.map_take, List.count, List.count,
    List.countP_map]
  congr 2
  funext c
  rw [Function.comp_apply, beq_true, beq_eq_decide]

theorem lineBreaks_masked (hsym : Function.Injective sym) (piece : Piece α) :
    lineBreaks sym (piece.masked sym) = lineBreaks sym piece.text := by
  have hspace : sym ' ' ≠ sym '\n' := fun h => absurd (hsym h) (by decide)
  cases piece with
  | kept text => rfl
  | comment text =>
    rw [Piece.masked, Piece.text, lineBreaks, lineBreaks, List.map_map]
    refine List.map_congr_left fun c _ => ?_
    by_cases hc : c = sym '\n'
    · simp [blank, hc]
    · simp [blank, hc, hspace]

theorem lineBreaks_flatMap (hsym : Function.Injective sym) (pieces : List (Piece α)) :
    lineBreaks sym (pieces.flatMap (Piece.masked sym)) =
      lineBreaks sym (pieces.flatMap Piece.text) := by
  induction pieces with
  | nil => rfl
  | cons piece pieces ih =>
    have hpiece := lineBreaks_masked sym hsym piece
    rw [lineBreaks, lineBreaks] at hpiece ih
    rw [lineBreaks, lineBreaks, List.flatMap_cons, List.flatMap_cons, List.map_append,
      List.map_append, hpiece, ih]

theorem stripCommentsOver_pieces {language : SastLanguage} (hsym : Function.Injective sym)
    {source : List α} {pieces : List (Piece α)} (h : SourcePieces sym language source pieces) :
    stripCommentsOver sym source language = pieces.flatMap (Piece.masked sym) := by
  rw [SourcePieces] at h
  rw [stripCommentsOver]
  split at h
  · rename_i hpython
    rw [if_pos hpython, stripPyOver_pieces hsym h]
  · rename_i hpython
    rw [if_neg hpython, stripJsOver_pieces hsym h]

theorem JsPieces.text {source : List α} {pieces : List (Piece α)}
    (h : JsPieces sym source pieces) : pieces.flatMap Piece.text = source := by
  induction h <;> simp_all [Piece.text]

omit [DecidableEq α] in
theorem PyPieces.text {source : List α} {pieces : List (Piece α)}
    (h : PyPieces sym source pieces) : pieces.flatMap Piece.text = source := by
  induction h <;> simp_all [Piece.text]

theorem SourcePieces.text {language : SastLanguage} {source : List α} {pieces : List (Piece α)}
    (h : SourcePieces sym language source pieces) : pieces.flatMap Piece.text = source := by
  rw [SourcePieces] at h
  split at h
  · exact PyPieces.text sym h
  · exact JsPieces.text sym h

theorem exists_sourcePieces (language : SastLanguage) (source : List α) :
    ∃ pieces, SourcePieces sym language source pieces := by
  by_cases hpython : language = .python
  · simpa only [SourcePieces, if_pos hpython] using exists_pyPieces sym source
  · simpa only [SourcePieces, if_neg hpython] using exists_jsPieces sym source

end Positions

/-- A symbol of a JavaScript literal. -/
inductive LiteralUnit where
  | plain (c : Char)
  | escaped (c : Char)

def LiteralUnit.text : LiteralUnit → List Nat
  | .plain c => [c.toNat]
  | .escaped c => ['\\'.toNat, c.toNat]

/-- A program that is one literal, of the forms that may hold the marks of a comment as they
stand; there is no comment in it. -/
inductive JsLiteral where
  /-- A regular expression; a slash is escaped in it. -/
  | regularExpression (body : List LiteralUnit) (hbody : body ≠ [])
      (hplain : ∀ c, .plain c ∈ body → c ∉ ['/', '\\', '[', '\n'])
      (hescaped : ∀ c, .escaped c ∈ body → c ≠ '\n')
      (hfirst : body.head? ≠ some (.plain '*'))
  /-- A template without substitutions; a backtick is escaped in it. -/
  | template (body : List LiteralUnit) (hplain : ∀ c, .plain c ∈ body → c ∉ ['`', '\\', '$'])

def JsLiteral.text : JsLiteral → List Nat
  | .regularExpression body _ _ _ _ => '/'.toNat :: (body.flatMap LiteralUnit.text ++ ['/'.toNat])
  | .template body _ => '`'.toNat :: (body.flatMap LiteralUnit.text ++ ['`'.toNat])

def StripState.mask : StripState → MaskState Char
  | .code => .code
  | .quoted quote => .quoted quote
  | .lineComment => .lineComment
  | .blockComment => .blockComment

theorem opensQuoted_id (c : Char) : opensQuoted id c = isQuote c := by
  simp only [opensQuoted, isQuote, id_eq, beq_eq_decide]

/-- Over characters it is the scan of the tracker. -/
theorem stripJs_eq (state : StripState) (source : List Char) :
    stripJs state source = scanWith (jsStep id) state.mask source := by
  fun_induction stripJs state source with
  | case1 state => rfl
  | case2 rest ih => exact ih ▸ rfl
  | case3 rest ih => exact ih ▸ rfl
  | case4 c rest hline hblock ih =>
    rw [ih]
    by_cases hc : isQuote c = true
    · have hturn : jsStep id .code c rest.head? = (c, .quoted c) := by
        rw [jsStep, if_pos (by rwa [opensQuoted_id])]
      rw [if_pos hc]
      exact (scanWith_cons hturn).symm
    · rw [if_neg hc]
      refine (scanWith_cons (jsStep_plain (by rwa [opensQuoted_id]) ?_)).symm
      refine fun hslash => ⟨fun h => ?_, fun h => ?_⟩
      · obtain ⟨tail, htail⟩ := List.head?_eq_some_iff.mp h
        exact hline tail hslash htail
      · obtain ⟨tail, htail⟩ := List.head?_eq_some_iff.mp h
        exact hblock tail hslash htail
  | case5 quote c hback =>
    have hturn : jsStep id (.quoted quote) c none = (c, .escaped quote) := if_pos hback
    exact (@scanWith_cons _ _ _ _ _ c c [] hturn).symm
  | case6 quote c hback d rest ih =>
    have hturn : quotedStep id (quote ≠ '`') quote c = (c, .escaped quote) := if_pos hback
    rw [ih]
    exact ((scanWith_cons hturn).trans (congrArg _ (scanWith_cons rfl))).symm
  | case7 quote c rest hback ih =>
    have hturn : quotedStep id (quote ≠ '`') quote c =
        (c, if c = quote then .code else .quoted quote) := if_neg hback
    rw [ih]
    refine .trans ?_ (scanWith_cons hturn).symm
    split <;> rfl
  | case8 rest ih => exact ih ▸ rfl
  | case9 c rest hc ih =>
    have hturn : lineStep id c = (' ', .lineComment) := if_neg hc
    rw [ih]
    exact (scanWith_cons hturn).symm
  | case10 rest ih => exact ih ▸ rfl
  | case11 c =>
    have hturn : jsStep id .blockComment c none = (c, .blockComment) := by rw [jsStep, if_pos rfl]
    exact (@scanWith_cons _ _ _ _ _ c c [] hturn).symm
  | case12 c rest hmark hlast ih =>
    have hnone : rest.head? ≠ none := fun h => hlast (List.head?_eq_none_iff.mp h)
    have hclosed : ¬ (c = '*' ∧ rest.head? = some '/') := by
      rintro ⟨hc, h⟩
      obtain ⟨tail, htail⟩ := List.head?_eq_some_iff.mp h
      exact hmark tail hc htail
    have hturn : jsStep id .blockComment c rest.head? = (blank id c, .blockComment) := by
      rw [jsStep, if_neg hnone]
      exact if_neg hclosed
    rw [ih]
    exact (scanWith_cons hturn).symm

theorem stripPy_eq (state : StripState) (source : List Char) :
    stripPy state source = scanWith (pyStep id) state.mask source := by
  fun_induction stripPy state source with
  | case1 state => rfl
  | case2 quote => rfl
  | case3 quote d rest ih => exact ih ▸ rfl
  | case4 quote c rest hc ih =>
    have hturn : quotedStep id True quote c =
        (c, if c = quote then .code else .quoted quote) := if_neg fun h => hc h.2
    rw [ih]
    refine .trans ?_ (scanWith_cons hturn).symm
    split <;> rfl
  | case5 rest ih => exact ih ▸ rfl
  | case6 c rest hc ih =>
    have hturn : lineStep id c = (' ', .lineComment) := if_neg hc
    rw [ih]
    exact (scanWith_cons hturn).symm
  | case7 state c rest hquoted hline hquote ih =>
    have hturn : ∀ next, pyStep id state.mask c next = (c, .quoted c) := by
      intro next
      cases state with
      | quoted quote => exact (hquoted quote rfl).elim
      | lineComment => exact (hline rfl).elim
      | _ => exact if_pos hquote
    rw [ih]
    exact (scanWith_cons (hturn _)).symm
  | case8 state rest hquoted hline hquote ih =>
    have hturn : ∀ next, pyStep id state.mask '#' next = (' ', .lineComment) := by
      intro next
      cases state with
      | quoted quote => exact (hquoted quote rfl).elim
      | lineComment => exact (hline rfl).elim
      | _ => rfl
    rw [ih]
    exact (scanWith_cons (hturn _)).symm
  | case9 state c rest hquoted hline hquote hmark ih =>
    have hturn : ∀ next, pyStep id state.mask c next = (c, .code) := by
      intro next
      cases state with
      | quoted quote => exact (hquoted quote rfl).elim
      | lineComment => exact (hline rfl).elim
      | _ => exact @pyStep_plain _ _ _ c next hquote hmark
    rw [ih]
    exact (scanWith_cons (hturn _)).symm

/-- `stripCommentsPreserve` of the tracker is the scan over characters. -/
theorem stripCommentsPreserve_eq (source : List Char) (language : SastLanguage) :
    stripCommentsPreserve source language = stripCommentsOver id source language := by
  rw [stripCommentsPreserve, stripCommentsOver, stripPy_eq, stripJs_eq]
  rfl

end Scanner
end Ctem
