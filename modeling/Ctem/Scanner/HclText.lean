import Mathlib.Data.Rat.Defs
import Ctem.Foundation.JsText

/-!
# Tokens of a Terraform file

The tokenizer of the built-in parser: strings, heredocs, numbers, identifiers and
seven punctuation characters, with white space and comments between them.  A
character that starts none of these is skipped.

* `lexStep` takes the next token off a text, or a piece of what lies between tokens;
  it always takes something, `lexStep_shorter`.
* `tokenizeFrom` is the loop, turn by turn in `tokenizeFrom_cons`.
* A failure is a message of the parser, or that a loop of the model has used up its
  turns; `tokenizeFrom_ne_outOfTurns` says that this does not happen.

Numbers are the decimal values; the rounding of a double is left out.
-/

namespace Ctem
namespace Scanner

open Foundation

/-- `HclParseError`, or a model that has run out of turns. -/
inductive HclFailure where
  | parse (message : String)
  | outOfTurns
deriving DecidableEq, Repr

/-- What a token is. -/
inductive TokKind where
  | ident (value : String)
  | str (value : String)
  | number (value : Rat)
  | punct (value : Char)
deriving DecidableEq, Repr

/-- `Tok`. -/
structure Tok where
  kind : TokKind
  line : Nat
deriving DecidableEq, Repr

/-! ## Characters -/

/-- `[A-Za-z_]`. -/
def isIdentStart (c : Char) : Bool :=
  c.isAlpha || c == '_'

/-- `[A-Za-z0-9_]`, a hyphen or a slash. -/
def isIdentPart (c : Char) : Bool :=
  c.isAlphanum || c == '_' || c == '/' || c == '-'

/-- `[0-9.]`. -/
def isNumberPart (c : Char) : Bool :=
  c.isDigit || c == '.'

/-- `'\x7b\x7d[]=,.'.includes(ch)`. -/
def isPunct (c : Char) : Bool :=
  decide (c ∈ ['\x7b', '\x7d', '[', ']', '=', ',', '.'])

/-! ## What lies between tokens, and tokens of more than one character -/

/-- The text behind the end of a block comment, and the line it is on. -/
def skipBlockComment : List Char → Nat → List Char × Nat
  | [], line => ([], line)
  | [c], line => ([], if c = '\n' then line + 1 else line)
  | c :: d :: rest, line =>
      if c = '*' ∧ d = '/' then (rest, line)
      else skipBlockComment (d :: rest) (if c = '\n' then line + 1 else line)

/-- `readString`, behind the opening quote; a backslash gives the character behind it. -/
def readString (quote : Char) : List Char → List Char → Nat →
    Except HclFailure (String × List Char × Nat)
  | [], _, line => .error (.parse ("Unclosed string at line " ++ toString line))
  | [c], out, line =>
      if c = quote then .ok (String.ofList out, [], line)
      else .error (.parse ("Unclosed string at line " ++
        toString (if c = '\n' then line + 1 else line)))
  | c :: d :: rest, out, line =>
      if c = '\\' then readString quote rest (out ++ [d]) line
      else if c = quote then .ok (String.ofList out, d :: rest, line)
      else readString quote (d :: rest) (out ++ [c]) (if c = '\n' then line + 1 else line)

/-- The end of a line, as `^` and `$` see it in a multiline pattern. -/
def isLineEnd (c : Char) : Bool :=
  decide (c.toNat ∈ [0x0A, 0x0D, 0x2028, 0x2029])

/-- `/^[ \t]*MARKER\s*$/m` at the start of a line: the text behind the match, which takes
as much white space as it can and still end before a line end. -/
def heredocMarker? (indent : Bool) (marker cs : List Char) : Option (List Char) :=
  let cs := if indent then cs.dropWhile fun c => decide (c ∈ [' ', '\t']) else cs
  if marker.isPrefixOf cs then
    let after := cs.drop marker.length
    let space := after.takeWhile isJsSpace
    let tail := after.dropWhile isJsSpace
    let lastEnd := space.reverse.dropWhile fun c => !isLineEnd c
    match tail, lastEnd with
    | [], _ => some []
    | _, [] => none
    | _, _ :: front => some (space.drop front.length ++ tail)
  else none

/-- The first line with the marker: the text in front of it and the text behind it. -/
def heredocEnd? (indent : Bool) (marker : List Char) :
    Bool → List Char → List Char → Option (List Char × List Char)
  | _, [], _ => none
  | lineStart, c :: rest, body =>
      match if lineStart then heredocMarker? indent marker (c :: rest) else none with
      | some after => some (body, after)
      | none => heredocEnd? indent marker (isLineEnd c) rest (body ++ [c])

/-- The text behind a character, where it begins with it. -/
def dropHead (c : Char) (cs : List Char) : List Char :=
  if cs.head? = some c then cs.tail else cs

/-- `[A-Za-z0-9_]`. -/
def isMarkerChar (c : Char) : Bool :=
  c.isAlphanum || c == '_'

/-- `readHeredoc`, behind the two opening characters. -/
def readHeredoc (cs : List Char) (line : Nat) : Except HclFailure (String × List Char × Nat) :=
  let indent := decide (cs.head? = some '-')
  let marker := (dropHead '-' cs).takeWhile isMarkerChar
  let behind := (dropHead '-' cs).dropWhile isMarkerChar
  let bodyLine := if behind.head? = some '\n' then line + 1 else line
  if marker = [] then .error (.parse ("Malformed heredoc at line " ++ toString line))
  else
    match heredocEnd? indent marker true (dropHead '\n' behind) [] with
    | none =>
        .error (.parse ("Unclosed heredoc '" ++ String.ofList marker ++ "' at line " ++
          toString bodyLine))
    | some (body, after) =>
        .ok (String.ofList (if body.getLast? = some '\n' then body.dropLast else body), after,
          bodyLine + (splitOn '\n' body).length)

/-- `Number(raw)` for a text of digits and dots with a sign; `none` is `NaN`. -/
def numberValue? (raw : List Char) : Option Rat :=
  let negative := decide (raw.head? = some '-')
  let unsigned : Option Rat :=
    match splitOn '.' (if negative then raw.tail else raw) with
    | [whole] => if isDigits whole then some (digitsValue whole : Rat) else none
    | [whole, decimals] =>
        if (whole ++ decimals).all Char.isDigit && !(whole ++ decimals).isEmpty then
          some ((digitsValue (whole ++ decimals) : Rat) / 10 ^ decimals.length)
        else none
    | _ => none
  unsigned.map fun n => if negative then -n else n

/-- A number at the start of a text, with the text behind it. -/
def lexNumber : List Char → Option (Rat × List Char)
  | [] => none
  | c :: rest =>
      if c = '-' ∨ c.isDigit = true then
        (numberValue? (c :: rest.takeWhile isNumberPart)).map fun n =>
          (n, rest.dropWhile isNumberPart)
      else none

/-! ## The loop -/

/-- One turn: a token or nothing, the text behind it, and the line that text begins on. -/
def lexStep (c : Char) (rest : List Char) (line : Nat) :
    Except HclFailure (Option Tok × List Char × Nat) :=
  if c = '\n' then .ok (none, rest, line + 1)
  else if c = ' ' ∨ c = '\t' ∨ c = '\r' then .ok (none, rest, line)
  else if c = '#' ∨ (c = '/' ∧ rest.head? = some '/') then
    .ok (none, rest.dropWhile fun d => decide (d ≠ '\n'), line)
  else if c = '/' ∧ rest.head? = some '*' then .ok (none, skipBlockComment rest.tail line)
  else if c = '"' ∨ c = '\'' then
    (readString c rest [] line).map fun r => (some ⟨.str r.1, line⟩, r.2)
  else if c = '<' ∧ rest.head? = some '<' then
    (readHeredoc rest.tail line).map fun r => (some ⟨.str r.1, line⟩, r.2)
  else
    match lexNumber (c :: rest) with
    | some (n, after) => .ok (some ⟨.number n, line⟩, after, line)
    | none =>
        if isIdentStart c then
          .ok (some ⟨.ident (String.ofList (c :: rest.takeWhile isIdentPart)), line⟩,
            rest.dropWhile isIdentPart, line)
        else if isPunct c then .ok (some ⟨.punct c, line⟩, rest, line)
        else .ok (none, rest, line)

def lexLoop : Nat → List Char → Nat → Except HclFailure (List Tok)
  | _, [], _ => .ok []
  | 0, _ :: _, _ => .error .outOfTurns
  | turns + 1, c :: rest, line => do
      let step ← lexStep c rest line
      let toks ← lexLoop turns step.2.1 step.2.2
      pure (step.1.toList ++ toks)

/-- The tokens of a text that begins on `line`. -/
def tokenizeFrom (cs : List Char) (line : Nat) : Except HclFailure (List Tok) :=
  lexLoop cs.length cs line

def tokenize (source : String) : Except HclFailure (List Tok) :=
  tokenizeFrom source.toList 1

/-! ## Every turn takes something -/

theorem length_skipBlockComment (cs : List Char) (line : Nat) :
    (skipBlockComment cs line).1.length ≤ cs.length := by
  fun_induction skipBlockComment cs line with
  | case1 => exact Nat.le_refl _
  | case2 => exact Nat.zero_le _
  | case3 => exact Nat.le_succ_of_le (Nat.le_succ _)
  | case4 _ _ _ _ _ ih => exact Nat.le_succ_of_le ih

theorem length_readString {quote : Char} {cs out : List Char} {line : Nat}
    {r : String × List Char × Nat} (h : readString quote cs out line = .ok r) :
    r.2.1.length ≤ cs.length := by
  fun_induction readString quote cs out line with
  | case1 => cases h
  | case2 =>
      obtain rfl := Except.ok.inj h
      exact Nat.zero_le _
  | case3 => cases h
  | case4 _ _ _ _ ih => exact Nat.le_succ_of_le (Nat.le_succ_of_le (ih h))
  | case5 =>
      obtain rfl := Except.ok.inj h
      exact Nat.le_succ _
  | case6 _ _ _ _ _ _ _ ih => exact Nat.le_succ_of_le (ih h)

theorem length_heredocMarker? {indent : Bool} {marker cs after : List Char}
    (h : heredocMarker? indent marker cs = some after) : after.length ≤ cs.length := by
  unfold heredocMarker? at h
  generalize hstart : (if indent = true then cs.dropWhile fun c => decide (c ∈ [' ', '\t'])
    else cs) = start at h
  have hle : start.length ≤ cs.length := by
    rw [← hstart]
    split
    · exact (List.dropWhile_sublist _).length_le
    · exact Nat.le_refl _
  refine Nat.le_trans ?_ hle
  have hdrop : (start.drop marker.length).length ≤ start.length := by
    rw [List.length_drop]
    exact Nat.sub_le _ _
  refine Nat.le_trans ?_ hdrop
  simp only at h
  split at h
  · split at h
    · obtain rfl := Option.some.inj h
      exact Nat.zero_le _
    · cases h
    · obtain rfl := Option.some.inj h
      conv => rhs; rw [← List.takeWhile_append_dropWhile (p := isJsSpace)
        (l := start.drop marker.length)]
      rw [List.length_append, List.length_append, List.length_drop]
      omega
  · cases h

theorem length_heredocEnd? {indent : Bool} {marker : List Char} {lineStart : Bool}
    {cs body : List Char} {r : List Char × List Char}
    (h : heredocEnd? indent marker lineStart cs body = some r) : r.2.length ≤ cs.length := by
  induction cs generalizing lineStart body with
  | nil => cases h
  | cons c rest ih =>
      unfold heredocEnd? at h
      split at h
      · rename_i after hmarker
        obtain rfl := Option.some.inj h
        split at hmarker
        · exact length_heredocMarker? hmarker
        · cases hmarker
      · rw [List.length_cons]
        exact Nat.le_succ_of_le (ih h)

theorem length_dropHead (c : Char) (cs : List Char) : (dropHead c cs).length ≤ cs.length := by
  unfold dropHead
  split
  · rw [List.length_tail]
    exact Nat.sub_le _ _
  · exact Nat.le_refl _

theorem length_readHeredoc {cs : List Char} {line : Nat} {r : String × List Char × Nat}
    (h : readHeredoc cs line = .ok r) : r.2.1.length ≤ cs.length := by
  unfold readHeredoc at h
  simp only at h
  split at h
  · cases h
  · split at h
    · cases h
    · rename_i body after hend
      obtain rfl := Except.ok.inj h
      exact Nat.le_trans (length_heredocEnd? hend) (Nat.le_trans (length_dropHead _ _)
        (Nat.le_trans (List.dropWhile_sublist _).length_le (length_dropHead _ _)))

theorem length_lexNumber {c : Char} {rest : List Char} {n : Rat} {after : List Char}
    (h : lexNumber (c :: rest) = some (n, after)) : after.length ≤ rest.length := by
  simp only [lexNumber] at h
  split at h
  · obtain ⟨m, _, heq⟩ := Option.map_eq_some_iff.mp h
    obtain ⟨_, rfl⟩ := Prod.mk.inj heq
    exact (List.dropWhile_sublist _).length_le
  · cases h

theorem lexStep_shorter {c : Char} {rest : List Char} {line : Nat}
    {r : Option Tok × List Char × Nat} (h : lexStep c rest line = .ok r) :
    r.2.1.length ≤ rest.length := by
  have htail : rest.tail.length ≤ rest.length := by
    rw [List.length_tail]
    exact Nat.sub_le _ _
  have hmap : ∀ {x : Except HclFailure (String × List Char × Nat)}
      {f : String × List Char × Nat → Option Tok},
      x.map (fun v => (f v, v.2)) = .ok r → ∃ v, x = .ok v ∧ r.2 = v.2 := by
    intro x f hx
    cases x with
    | error e => cases hx
    | ok v =>
        obtain rfl := Except.ok.inj hx
        exact ⟨v, rfl, rfl⟩
  unfold lexStep at h
  split at h
  · obtain rfl := Except.ok.inj h
    exact Nat.le_refl _
  split at h
  · obtain rfl := Except.ok.inj h
    exact Nat.le_refl _
  split at h
  · obtain rfl := Except.ok.inj h
    exact (List.dropWhile_sublist _).length_le
  split at h
  · obtain rfl := Except.ok.inj h
    exact Nat.le_trans (length_skipBlockComment _ _) htail
  split at h
  · obtain ⟨v, hv, heq⟩ := hmap h
    rw [heq]
    exact length_readString hv
  split at h
  · obtain ⟨v, hv, heq⟩ := hmap h
    rw [heq]
    exact Nat.le_trans (length_readHeredoc hv) htail
  split at h
  · rename_i n after hnumber
    obtain rfl := Except.ok.inj h
    exact length_lexNumber hnumber
  split at h
  · obtain rfl := Except.ok.inj h
    exact (List.dropWhile_sublist _).length_le
  split at h
  · obtain rfl := Except.ok.inj h
    exact Nat.le_refl _
  · obtain rfl := Except.ok.inj h
    exact Nat.le_refl _

/-- Once there is a turn for each character, more of them change nothing. -/
theorem lexLoop_enough (turns : Nat) (cs : List Char) (line : Nat) (h : cs.length ≤ turns) :
    lexLoop turns cs line = tokenizeFrom cs line := by
  unfold tokenizeFrom
  induction turns using Nat.strong_induction_on generalizing cs line with
  | _ turns ih =>
      cases cs with
      | nil => cases turns <;> rfl
      | cons c rest =>
          cases turns with
          | zero => cases h
          | succ turns =>
              rw [List.length_cons, lexLoop, lexLoop]
              rw [List.length_cons] at h
              cases hstep : lexStep c rest line with
              | error e => rfl
              | ok step =>
                  have hshorter := lexStep_shorter hstep
                  have hmore := ih turns (Nat.lt_succ_self _) step.2.1 step.2.2 (by omega)
                  have hown : lexLoop rest.length step.2.1 step.2.2 =
                      lexLoop step.2.1.length step.2.1 step.2.2 := by
                    rcases Nat.lt_or_ge rest.length (turns + 1) with hlt | hge
                    · exact ih rest.length hlt step.2.1 step.2.2 hshorter
                    · omega
                  simp only [bind, Except.bind]
                  rw [hmore, hown]

@[simp] theorem tokenizeFrom_nil (line : Nat) : tokenizeFrom [] line = .ok [] := rfl

/-- The loop, turn by turn. -/
theorem tokenizeFrom_cons (c : Char) (rest : List Char) (line : Nat) :
    tokenizeFrom (c :: rest) line = (do
      let step ← lexStep c rest line
      let toks ← tokenizeFrom step.2.1 step.2.2
      pure (step.1.toList ++ toks)) := by
  unfold tokenizeFrom
  rw [List.length_cons, lexLoop]
  cases hstep : lexStep c rest line with
  | error e => rfl
  | ok step =>
      have henough := lexLoop_enough rest.length step.2.1 step.2.2 (lexStep_shorter hstep)
      simp only [bind, Except.bind]
      rw [henough]
      rfl

/-- The failures of a turn are the parser's own. -/
theorem lexStep_ne_outOfTurns (c : Char) (rest : List Char) (line : Nat) :
    lexStep c rest line ≠ .error .outOfTurns := by
  have hstring : ∀ quote cs out line, readString quote cs out line ≠ .error .outOfTurns := by
    intro quote cs out line
    fun_induction readString quote cs out line <;> simp_all
  have hheredoc : ∀ cs line, readHeredoc cs line ≠ .error .outOfTurns := by
    intro cs line
    unfold readHeredoc
    simp only
    split
    · simp
    · split <;> simp
  have hmap : ∀ {x : Except HclFailure (String × List Char × Nat)}
      {f : String × List Char × Nat → Option Tok × List Char × Nat},
      x ≠ .error .outOfTurns → x.map f ≠ .error .outOfTurns := by
    intro x f hx
    cases x with
    | error e => exact fun h => hx (congrArg Except.error (Except.error.inj h))
    | ok v => exact fun h => nomatch h
  unfold lexStep
  repeat' split
  all_goals first
    | exact hmap (hstring _ _ _ _)
    | exact hmap (hheredoc _ _)
    | exact fun h => nomatch h

/-- The tokenizer ends on every text. -/
theorem tokenizeFrom_ne_outOfTurns (cs : List Char) (line : Nat) :
    tokenizeFrom cs line ≠ .error .outOfTurns := by
  induction hlength : cs.length using Nat.strong_induction_on generalizing cs line with
  | _ length ih =>
      cases cs with
      | nil => exact fun h => nomatch h
      | cons c rest =>
          rw [tokenizeFrom_cons]
          cases hstep : lexStep c rest line with
          | error e =>
              intro h
              exact lexStep_ne_outOfTurns c rest line
                (hstep.trans (congrArg Except.error (Except.error.inj h)))
          | ok step =>
              have hshorter := lexStep_shorter hstep
              rw [List.length_cons] at hlength
              have hrest := ih step.2.1.length (by omega) step.2.1 step.2.2 rfl
              simp only [bind, Except.bind]
              cases htoks : tokenizeFrom step.2.1 step.2.2 with
              | error e =>
                  intro h
                  exact hrest (htoks.trans (congrArg Except.error (Except.error.inj h)))
              | ok toks => exact fun h => nomatch h

end Scanner
end Ctem
