import Mathlib.Algebra.Field.Rat
import Ctem.Foundation.PathText
import Ctem.Scanner.HclText

/-!
# How a Terraform file is spelled

The lexical rules of the language for the part of it the parser supports, on their
own: which texts spell which lexemes, with white space and comments anywhere between
them.

* `Lexeme` is a word, a quoted string, a numeral or a mark; `Spells` is the relation.
* The rules let a comment that begins with a slash follow a word directly.  The
  tokenizer takes a slash into the word, so `Spells` has a flag for such comments.
* `tokenizeFrom_spells`: where there is none, the tokenizer finds the lexemes.
-/

namespace Ctem
namespace Scanner

open Foundation

/-! ## Lexemes -/

/-- A lexeme of the language.  `quoted` has the text between the quotes as it is written. -/
inductive Lexeme where
  | word (name : String)
  | quoted (raw : List Char)
  | numeral (negative : Bool) (whole decimals : List Char)
  | mark (c : Char)
deriving DecidableEq, Repr

/-- A character an identifier of the language may go on with. -/
def isWordPart (c : Char) : Bool :=
  c.isAlphanum || c == '_' || c == '-'

/-- Text between quotes: no quote and no line end outside an escape. -/
def quotable : List Char → Bool
  | [] => true
  | [c] => decide (c ∉ ['"', '\\', '\n'])
  | c :: d :: rest =>
      if c = '\\' then quotable rest else decide (c ∉ ['"', '\n']) && quotable (d :: rest)

/-- Escapes as the parser reads them: the character behind the backslash. -/
def dropBackslashes : List Char → List Char
  | [] => []
  | [c] => [c]
  | c :: d :: rest =>
      if c = '\\' then d :: dropBackslashes rest else c :: dropBackslashes (d :: rest)

/-- The number a numeral denotes. -/
def numeralValue (negative : Bool) (whole decimals : List Char) : Rat :=
  let n : Rat := (digitsValue (whole ++ decimals) : Rat) / 10 ^ decimals.length
  if negative then -n else n

namespace Lexeme

def text : Lexeme → List Char
  | word name => name.toList
  | quoted raw => '"' :: (raw ++ ['"'])
  | numeral negative whole decimals =>
      (if negative then ['-'] else []) ++ whole ++ if decimals = [] then [] else '.' :: decimals
  | mark c => [c]

/-- The token the parser makes of it. -/
def kind : Lexeme → TokKind
  | word name => .ident name
  | quoted raw => .str (String.ofList (dropBackslashes raw))
  | numeral negative whole decimals => .number (numeralValue negative whole decimals)
  | mark c => .punct c

def wellFormed : Lexeme → Bool
  | word name =>
      match name.toList with
      | [] => false
      | c :: rest => isIdentStart c && rest.all isWordPart
  | quoted raw => quotable raw
  | numeral _ whole decimals => isDigits whole && decimals.all Char.isDigit
  | mark c => isPunct c

/-- It is not longer than this in front of `rest`.  `glued` is for a word with a comment
that follows it directly. -/
def endsAt (glued : Bool) (rest : List Char) : Lexeme → Bool
  | word _ => rest.head?.all fun c => !isWordPart c && (glued || c != '/')
  | numeral .. => rest.head?.all fun c => !isWordPart c && c != '.'
  | quoted _ => true
  | mark _ => true

end Lexeme

/-- The texts that spell a list of lexemes. -/
inductive Spells (glued : Bool) : List Char → List Lexeme → Prop
  | done : Spells glued [] []
  | space {c : Char} {rest : List Char} {ls : List Lexeme} (hspace : c ∈ [' ', '\t', '\r', '\n'])
      (h : Spells glued rest ls) : Spells glued (c :: rest) ls
  | lineComment {start body rest : List Char} {ls : List Lexeme}
      (hstart : start = ['#'] ∨ start = ['/', '/']) (hbody : '\n' ∉ body)
      (hend : ∀ c, rest.head? = some c → c = '\n') (h : Spells glued rest ls) :
      Spells glued (start ++ (body ++ rest)) ls
  | blockComment {body rest : List Char} {ls : List Lexeme} (hbody : ¬ ['*', '/'] <:+: body)
      (h : Spells glued rest ls) : Spells glued ('/' :: '*' :: (body ++ '*' :: '/' :: rest)) ls
  | lexeme {l : Lexeme} {rest : List Char} {ls : List Lexeme} (hl : l.wellFormed = true)
      (hends : l.endsAt glued rest = true) (h : Spells glued rest ls) :
      Spells glued (l.text ++ rest) (l :: ls)

/-- The flag only allows more. -/
theorem Spells.glue {cs : List Char} {ls : List Lexeme} (h : Spells false cs ls) :
    Spells true cs ls := by
  induction h with
  | done => exact .done
  | space hspace _ ih => exact .space hspace ih
  | lineComment hstart hbody hend _ ih => exact .lineComment hstart hbody hend ih
  | blockComment hbody _ ih => exact .blockComment hbody ih
  | @lexeme l rest ls hl hends _ ih =>
      refine .lexeme hl ?_ ih
      cases l with
      | word name =>
          unfold Lexeme.endsAt at hends ⊢
          cases hhead : rest.head? with
          | none => rfl
          | some c =>
              rw [hhead, Option.all_some, Bool.and_eq_true] at hends
              rw [Option.all_some, hends.1]
              rfl
      | quoted raw => rfl
      | numeral negative whole decimals => exact hends
      | mark c => rfl

/-- Lexemes with the white space behind each. -/
def layout (ps : List (Lexeme × List Char)) : List Char :=
  ps.flatMap fun p => p.1.text ++ p.2

/-- There may be none where a lexeme ends anyway. -/
def layoutOk (glued : Bool) : List (Lexeme × List Char) → Bool
  | [] => true
  | (l, gap) :: rest =>
      l.wellFormed && gap.all (fun c => decide (c ∈ [' ', '\t', '\r', '\n'])) &&
        l.endsAt glued (gap ++ layout rest) && layoutOk glued rest

theorem spells_layout {glued : Bool} {ps : List (Lexeme × List Char)}
    (h : layoutOk glued ps = true) : Spells glued (layout ps) (ps.map Prod.fst) := by
  have hspaces : ∀ {gap rest : List Char} {ls : List Lexeme},
      (∀ c ∈ gap, c ∈ [' ', '\t', '\r', '\n']) → Spells glued rest ls →
      Spells glued (gap ++ rest) ls := by
    intro gap rest ls hgap h
    induction gap with
    | nil => exact h
    | cons c gap ih =>
        exact .space (hgap c List.mem_cons_self) (ih fun d hd => hgap d (List.mem_cons_of_mem c hd))
  induction ps with
  | nil => exact .done
  | cons p ps ih =>
      obtain ⟨l, gap⟩ := p
      simp only [layoutOk, Bool.and_eq_true, List.all_eq_true, decide_eq_true_eq] at h
      obtain ⟨⟨⟨hl, hgap⟩, hends⟩, hrest⟩ := h
      rw [layout, List.flatMap_cons, List.map_cons, List.append_assoc]
      exact .lexeme hl hends (hspaces hgap (ih hrest))

/-! ## The tokenizer on one lexeme -/

/-- A text that begins with characters of one class and goes on with another. -/
theorem takeWhile_append_of_head {p : Char → Bool} {cs rest : List Char}
    (hall : ∀ c ∈ cs, p c = true) (hhead : ∀ c, rest.head? = some c → p c = false) :
    (cs ++ rest).takeWhile p = cs ∧ (cs ++ rest).dropWhile p = rest := by
  induction cs with
  | nil =>
      cases rest with
      | nil => exact ⟨rfl, rfl⟩
      | cons d rest =>
          have hd := hhead d rfl
          simp [hd]
  | cons c cs ih =>
      have hc := hall c List.mem_cons_self
      obtain ⟨htake, hdrop⟩ := ih fun d hd => hall d (List.mem_cons_of_mem c hd)
      simp only [List.cons_append, List.takeWhile_cons, List.dropWhile_cons, hc, if_true, htake,
        hdrop, and_self]

theorem skipBlockComment_spec (body rest : List Char) (hbody : ¬ ['*', '/'] <:+: body)
    (line : Nat) : ∃ line', skipBlockComment (body ++ '*' :: '/' :: rest) line = (rest, line') := by
  induction body generalizing line with
  | nil => exact ⟨line, by simp [skipBlockComment]⟩
  | cons c body ih =>
      have htail : ¬ ['*', '/'] <:+: body :=
        fun h => hbody (h.trans (List.suffix_cons c body).isInfix)
      cases body with
      | nil =>
          obtain ⟨line', hline⟩ := ih htail (if c = '\n' then line + 1 else line)
          refine ⟨line', ?_⟩
          rw [List.cons_append, List.nil_append, skipBlockComment, if_neg (by simp)]
          exact hline
      | cons d body =>
          obtain ⟨line', hline⟩ := ih htail (if c = '\n' then line + 1 else line)
          refine ⟨line', ?_⟩
          have hopen : ¬ (c = '*' ∧ d = '/') := by
            rintro ⟨rfl, rfl⟩
            exact hbody ⟨[], body, rfl⟩
          rw [List.cons_append, List.cons_append, skipBlockComment, if_neg hopen]
          exact hline

theorem readString_spec (raw rest out : List Char) (hraw : quotable raw = true) (line : Nat) :
    ∃ line', readString '"' (raw ++ '"' :: rest) out line =
      .ok (String.ofList (out ++ dropBackslashes raw), rest, line') := by
  fun_induction quotable raw generalizing out line with
  | case1 =>
      refine ⟨line, ?_⟩
      cases rest with
      | nil => simp [readString, dropBackslashes]
      | cons d rest => simp [readString, dropBackslashes]
  | case2 c =>
      obtain ⟨hquote, hslash, hnewline⟩ : c ≠ '"' ∧ c ≠ '\\' ∧ c ≠ '\n' := by simpa using hraw
      refine ⟨line, ?_⟩
      rw [List.cons_append, List.nil_append, readString, if_neg hslash, if_neg hquote,
        if_neg hnewline]
      cases rest with
      | nil => simp [readString, dropBackslashes]
      | cons d rest => simp [readString, dropBackslashes]
  | case3 d rest' ih =>
      obtain ⟨line', hline⟩ := ih (out ++ [d]) hraw line
      refine ⟨line', ?_⟩
      rw [List.cons_append, List.cons_append, readString, if_pos rfl, hline, dropBackslashes,
        if_pos rfl, List.append_assoc]
      rfl
  | case4 c d rest' hslash ih =>
      rw [Bool.and_eq_true, decide_eq_true_eq] at hraw
      obtain ⟨hc, hrest⟩ := hraw
      obtain ⟨hquote, hnewline⟩ : c ≠ '"' ∧ c ≠ '\n' := by simpa using hc
      obtain ⟨line', hline⟩ := ih (out ++ [c]) hrest line
      refine ⟨line', ?_⟩
      rw [List.cons_append, List.cons_append, readString, if_neg hslash, if_neg hquote,
        if_neg hnewline]
      rw [List.cons_append] at hline
      rw [hline, dropBackslashes, if_neg hslash, List.append_assoc]
      rfl

/-- A character that begins an identifier is none that does not. -/
theorem ne_of_isIdentStart {c d : Char} (hc : isIdentStart c = true) (hd : isIdentStart d = false) :
    c ≠ d := by
  rintro rfl
  rw [hc] at hd
  cases hd

theorem not_isDigit_of_isIdentStart {c : Char} (hc : isIdentStart c = true) :
    c.isDigit = false := by
  unfold isIdentStart at hc
  rw [Bool.or_eq_true] at hc
  rcases hc with hc | hc
  · rw [Bool.eq_false_iff]
    intro hdigit
    delta Char.isAlpha Char.isUpper Char.isLower at hc
    delta Char.isDigit at hdigit
    simp only [Bool.or_eq_true, Bool.and_eq_true, decide_eq_true_eq,
      UInt32.le_iff_toNat_le] at hc hdigit
    have hA : 'A'.val.toNat = 65 := rfl
    have ha : 'a'.val.toNat = 97 := rfl
    have h9 : '9'.val.toNat = 57 := rfl
    omega
  · rw [eq_of_beq hc]
    rfl

theorem lexStep_word {c : Char} (hc : isIdentStart c = true) (rest : List Char) (line : Nat) :
    lexStep c rest line =
      .ok (some ⟨.ident (String.ofList (c :: rest.takeWhile isIdentPart)), line⟩,
        rest.dropWhile isIdentPart, line) := by
  have hdigit := not_isDigit_of_isIdentStart hc
  have hne : ∀ d, isIdentStart d = false → c ≠ d := fun d hd => ne_of_isIdentStart hc hd
  have hnumber : lexNumber (c :: rest) = none := by
    simp [lexNumber, hdigit, hne '-' rfl]
  unfold lexStep
  rw [if_neg (hne '\n' rfl), if_neg (by simp [hne ' ' rfl, hne '\t' rfl, hne '\r' rfl]),
    if_neg (by simp [hne '#' rfl, hne '/' rfl]), if_neg (by simp [hne '/' rfl]),
    if_neg (by simp [hne '"' rfl, hne '\'' rfl]), if_neg (by simp [hne '<' rfl]), hnumber]
  simp only [hc, if_true]

/-- Digits and dots are none of the characters that are looked for before a number. -/
theorem lexStep_number {c : Char} {rest after : List Char} {n : Rat}
    (hc : c = '-' ∨ c.isDigit = true) (h : lexNumber (c :: rest) = some (n, after)) (line : Nat) :
    lexStep c rest line = .ok (some ⟨.number n, line⟩, after, line) := by
  have hne : ∀ d : Char, d ≠ '-' → d.isDigit = false → c ≠ d := by
    rintro d hminus hdigit rfl
    rcases hc with hc | hc
    · exact hminus hc
    · rw [hc] at hdigit
      cases hdigit
  unfold lexStep
  rw [if_neg (hne '\n' (by decide) rfl),
    if_neg (by simp [hne ' ' (by decide) rfl, hne '\t' (by decide) rfl, hne '\r' (by decide) rfl]),
    if_neg (by simp [hne '#' (by decide) rfl, hne '/' (by decide) rfl]),
    if_neg (by simp [hne '/' (by decide) rfl]),
    if_neg (by simp [hne '"' (by decide) rfl, hne '\'' (by decide) rfl]),
    if_neg (by simp [hne '<' (by decide) rfl]), h]

theorem lexStep_mark {c : Char} (hc : isPunct c = true) (rest : List Char) (line : Nat) :
    lexStep c rest line = .ok (some ⟨.punct c, line⟩, rest, line) := by
  have hmem : c ∈ ['\x7b', '\x7d', '[', ']', '=', ',', '.'] := of_decide_eq_true hc
  have hclass : isIdentStart c = false ∧ lexNumber (c :: rest) = none := by
    simp only [List.mem_cons, List.not_mem_nil, or_false] at hmem
    rcases hmem with rfl | rfl | rfl | rfl | rfl | rfl | rfl <;> exact ⟨rfl, rfl⟩
  have hne : ∀ d, isPunct d = false → c ≠ d := by
    rintro d hd rfl
    rw [hc] at hd
    cases hd
  unfold lexStep
  rw [if_neg (hne '\n' rfl), if_neg (by simp [hne ' ' rfl, hne '\t' rfl, hne '\r' rfl]),
    if_neg (by simp [hne '#' rfl, hne '/' rfl]), if_neg (by simp [hne '/' rfl]),
    if_neg (by simp [hne '"' rfl, hne '\'' rfl]), if_neg (by simp [hne '<' rfl]), hclass.2]
  simp [hclass.1, hc]

/-! ## Numerals -/

theorem numberValue?_unsigned {whole decimals : List Char} (hwhole : isDigits whole = true)
    (hdecimals : ∀ d ∈ decimals, d.isDigit = true) :
    numberValue? (whole ++ if decimals = [] then [] else '.' :: decimals) =
      some (numeralValue false whole decimals) := by
  unfold isDigits at hwhole
  rw [Bool.and_eq_true, Bool.not_eq_true', List.isEmpty_eq_false_iff, List.all_eq_true] at hwhole
  obtain ⟨hnonempty, hdigits⟩ := hwhole
  have hdot : ∀ cs : List Char, (∀ d ∈ cs, d.isDigit = true) → '.' ∉ cs := by
    intro cs hcs hmem
    exact absurd (hcs '.' hmem) (by decide)
  have hunsigned : ∀ tail : List Char, decide ((whole ++ tail).head? = some '-') = false := by
    intro tail
    cases whole with
    | nil => exact absurd rfl hnonempty
    | cons c rest =>
        rw [List.cons_append, List.head?_cons, decide_eq_false_iff_not, Option.some_inj]
        rintro rfl
        exact absurd (hdigits '-' List.mem_cons_self) (by decide)
  by_cases hnil : decimals = []
  · have hdigitsOf : isDigits whole = true := by
      unfold isDigits
      rw [Bool.and_eq_true, Bool.not_eq_true', List.isEmpty_eq_false_iff, List.all_eq_true]
      exact ⟨hnonempty, hdigits⟩
    unfold numberValue?
    rw [if_pos hnil, hunsigned]
    simp only [Bool.false_eq_true, if_false, List.append_nil]
    rw [splitOn_of_not_mem (hdot whole hdigits)]
    simp [hdigitsOf, numeralValue, hnil]
  · have hall : ((whole ++ decimals).all Char.isDigit && !(whole ++ decimals).isEmpty) = true := by
      rw [Bool.and_eq_true, List.all_eq_true, Bool.not_eq_true', List.isEmpty_eq_false_iff]
      refine ⟨?_, fun h => hnil (List.append_eq_nil_iff.mp h).2⟩
      intro d hd
      rcases List.mem_append.mp hd with hd | hd
      · exact hdigits d hd
      · exact hdecimals d hd
    unfold numberValue?
    rw [if_neg hnil, hunsigned]
    simp only [Bool.false_eq_true, if_false]
    rw [splitOn_append_sep, splitOn_of_not_mem (hdot whole hdigits),
      splitOn_of_not_mem (hdot decimals hdecimals)]
    simp only [List.singleton_append, hall, if_true, Option.map_some, numeralValue,
      Bool.false_eq_true, if_false]

theorem numberValue?_negative {whole decimals : List Char} (hwhole : isDigits whole = true)
    (hdecimals : ∀ d ∈ decimals, d.isDigit = true) :
    numberValue? ('-' :: (whole ++ if decimals = [] then [] else '.' :: decimals)) =
      some (numeralValue true whole decimals) := by
  have hunsigned := numberValue?_unsigned hwhole hdecimals
  generalize htext : (whole ++ if decimals = [] then [] else '.' :: decimals) = text at hunsigned ⊢
  have hhead : decide (text.head? = some '-') = false := by
    rw [← htext]
    unfold isDigits at hwhole
    cases whole with
    | nil => cases hwhole
    | cons c rest =>
        rw [List.cons_append, List.head?_cons, decide_eq_false_iff_not, Option.some_inj]
        rintro rfl
        simp at hwhole
  unfold numberValue? at hunsigned ⊢
  simp only [hhead, List.head?_cons, decide_true, if_true, List.tail_cons, Bool.false_eq_true,
    if_false, Option.map_id'] at hunsigned ⊢
  rw [hunsigned]
  rfl

/-! ## The tokenizer on a text -/

theorem exists_of_wellFormed_word {name : String} (h : (Lexeme.word name).wellFormed = true) :
    ∃ c cs, name.toList = c :: cs ∧ isIdentStart c = true ∧ ∀ d ∈ cs, isWordPart d = true := by
  unfold Lexeme.wellFormed at h
  cases hname : name.toList with
  | nil => simp [hname] at h
  | cons c cs =>
      simp only [hname, Bool.and_eq_true, List.all_eq_true] at h
      exact ⟨c, cs, rfl, h⟩

/-- In front of a text it ends at, a lexeme is one turn of the tokenizer. -/
theorem lexStep_lexeme {l : Lexeme} {rest : List Char} (hl : l.wellFormed = true)
    (hends : l.endsAt false rest = true) (line : Nat) :
    ∃ c cs line', l.text ++ rest = c :: cs ∧
      lexStep c cs line = .ok (some ⟨l.kind, line⟩, rest, line') := by
  cases l with
  | word name =>
      obtain ⟨c, cs, hname, hstart, hparts⟩ := exists_of_wellFormed_word hl
      have hall : ∀ d ∈ cs, isIdentPart d = true := by
        intro d hd
        have hpart := hparts d hd
        unfold isWordPart at hpart
        unfold isIdentPart
        rw [Bool.or_eq_true, Bool.or_eq_true] at hpart
        rw [Bool.or_eq_true, Bool.or_eq_true, Bool.or_eq_true]
        tauto
      have hhead : ∀ d, rest.head? = some d → isIdentPart d = false := by
        intro d hd
        simp only [Lexeme.endsAt, hd, Option.all_some, Bool.and_eq_true, Bool.not_eq_true',
          Bool.false_or, bne_iff_ne] at hends
        obtain ⟨hpart, hslash⟩ := hends
        unfold isWordPart at hpart
        unfold isIdentPart
        simp only [Bool.or_eq_false_iff, beq_eq_false_iff_ne] at hpart ⊢
        exact ⟨⟨⟨hpart.1.1, hpart.1.2⟩, hslash⟩, hpart.2⟩
      obtain ⟨htake, hdrop⟩ := takeWhile_append_of_head hall hhead
      refine ⟨c, cs ++ rest, line, ?_, ?_⟩
      · rw [Lexeme.text, hname, List.cons_append]
      · rw [lexStep_word hstart, htake, hdrop, ← hname, String.ofList_toList]
        rfl
  | quoted raw =>
      obtain ⟨line', hread⟩ := readString_spec raw rest [] hl line
      refine ⟨'"', raw ++ '"' :: rest, line', ?_, ?_⟩
      · rw [Lexeme.text, List.cons_append, List.append_assoc]
        rfl
      · unfold lexStep
        rw [if_neg (by decide), if_neg (by decide), if_neg (by simp), if_neg (by simp),
          if_pos (Or.inl rfl), hread]
        rfl
  | numeral negative whole decimals =>
      unfold Lexeme.wellFormed at hl
      rw [Bool.and_eq_true, List.all_eq_true] at hl
      obtain ⟨hwhole, hdecimals⟩ := hl
      have hwhole' := hwhole
      unfold isDigits at hwhole'
      rw [Bool.and_eq_true, Bool.not_eq_true', List.isEmpty_eq_false_iff,
        List.all_eq_true] at hwhole'
      obtain ⟨hnonempty, hdigits⟩ := hwhole'
      have hpart : ∀ d ∈ whole ++ if decimals = [] then [] else '.' :: decimals,
          isNumberPart d = true := by
        intro d hd
        unfold isNumberPart
        rw [Bool.or_eq_true, beq_iff_eq]
        rcases List.mem_append.mp hd with hd | hd
        · exact Or.inl (hdigits d hd)
        · split at hd
          · cases hd
          · rcases List.mem_cons.mp hd with rfl | hd
            · exact Or.inr rfl
            · exact Or.inl (hdecimals d hd)
      have hhead : ∀ d, rest.head? = some d → isNumberPart d = false := by
        intro d hd
        simp only [Lexeme.endsAt, hd, Option.all_some, Bool.and_eq_true, Bool.not_eq_true',
          bne_iff_ne] at hends
        obtain ⟨hword, hdot⟩ := hends
        unfold isWordPart Char.isAlphanum at hword
        unfold isNumberPart
        simp only [Bool.or_eq_false_iff, beq_eq_false_iff_ne] at hword ⊢
        exact ⟨hword.1.1.2, hdot⟩
      cases negative with
      | true =>
          obtain ⟨htake, hdrop⟩ := takeWhile_append_of_head hpart hhead
          refine ⟨'-', (whole ++ if decimals = [] then [] else '.' :: decimals) ++ rest, line,
            rfl, ?_⟩
          apply lexStep_number (Or.inl rfl)
          rw [lexNumber, if_pos (Or.inl rfl), htake, hdrop, numberValue?_negative hwhole hdecimals]
          rfl
      | false =>
          cases whole with
          | nil => exact absurd rfl hnonempty
          | cons c digits =>
              have hc := hdigits c List.mem_cons_self
              rw [List.cons_append] at hpart
              obtain ⟨htake, hdrop⟩ := takeWhile_append_of_head
                (fun d hd => hpart d (List.mem_cons_of_mem c hd)) hhead
              refine ⟨c, (digits ++ if decimals = [] then [] else '.' :: decimals) ++ rest, line,
                rfl, ?_⟩
              have hvalue := numberValue?_unsigned hwhole hdecimals
              rw [List.cons_append] at hvalue
              apply lexStep_number (Or.inr hc)
              rw [lexNumber, if_pos (Or.inr hc), htake, hdrop, hvalue]
              rfl
  | mark c => exact ⟨c, rest, line, rfl, lexStep_mark hl rest line⟩

/-- The tokens of a text that spells lexemes, where no comment is glued to a word. -/
theorem tokenizeFrom_spells {cs : List Char} {ls : List Lexeme} (h : Spells false cs ls)
    (line : Nat) : ∃ toks, tokenizeFrom cs line = .ok toks ∧
      toks.map Tok.kind = ls.map Lexeme.kind := by
  -- A turn that takes no token leaves the tokens of what is behind it.
  have hskip : ∀ {c : Char} {mid rest : List Char} {line line' : Nat} {ls : List Lexeme},
      lexStep c mid line = .ok (none, rest, line') →
      (∃ toks, tokenizeFrom rest line' = .ok toks ∧ toks.map Tok.kind = ls.map Lexeme.kind) →
      ∃ toks, tokenizeFrom (c :: mid) line = .ok toks ∧
        toks.map Tok.kind = ls.map Lexeme.kind := by
    rintro c mid rest line line' ls hstep ⟨toks, htoks, hkinds⟩
    refine ⟨toks, ?_, hkinds⟩
    rw [tokenizeFrom_cons, hstep]
    simp only [bind, Except.bind]
    rw [htoks]
    rfl
  induction h generalizing line with
  | done => exact ⟨[], rfl, rfl⟩
  | @space c rest ls hspace _ ih =>
      simp only [List.mem_cons, List.not_mem_nil, or_false] at hspace
      rcases hspace with rfl | rfl | rfl | rfl
      · exact hskip rfl (ih line)
      · exact hskip rfl (ih line)
      · exact hskip rfl (ih line)
      · exact hskip rfl (ih (line + 1))
  | @lineComment start body rest ls hstart hbody hend _ ih =>
      have hrun := (@takeWhile_append_of_head (fun d => decide (d ≠ '\n')) body rest
        (fun d hd => decide_eq_true fun heq => hbody (heq ▸ hd))
        (fun d hd => by simp [hend d hd])).2
      rcases hstart with rfl | rfl
      · have hstep : lexStep '#' (body ++ rest) line = .ok (none, rest, line) := by
          unfold lexStep
          rw [if_neg (by decide), if_neg (by decide), if_pos (Or.inl rfl), hrun]
        exact hskip hstep (ih line)
      · have hstep : lexStep '/' ('/' :: (body ++ rest)) line = .ok (none, rest, line) := by
          unfold lexStep
          rw [if_neg (by decide), if_neg (by decide), if_pos (Or.inr ⟨rfl, rfl⟩),
            List.dropWhile_cons, if_pos (by decide), hrun]
        exact hskip hstep (ih line)
  | @blockComment body rest ls hbody _ ih =>
      obtain ⟨line', hline⟩ := skipBlockComment_spec body rest hbody line
      have hstep : lexStep '/' ('*' :: (body ++ '*' :: '/' :: rest)) line =
          .ok (none, rest, line') := by
        unfold lexStep
        rw [if_neg (by decide), if_neg (by decide), if_neg (by simp), if_pos ⟨rfl, rfl⟩,
          List.tail_cons, hline]
      exact hskip hstep (ih line')
  | @lexeme l rest ls hl hends _ ih =>
      obtain ⟨c, cs, line', htext, hstep⟩ := lexStep_lexeme hl hends line
      obtain ⟨toks, htoks, hkinds⟩ := ih line'
      refine ⟨⟨l.kind, line⟩ :: toks, ?_, ?_⟩
      · rw [htext, tokenizeFrom_cons, hstep]
        simp only [bind, Except.bind]
        rw [htoks]
        rfl
      · rw [List.map_cons, List.map_cons, hkinds]

end Scanner
end Ctem
