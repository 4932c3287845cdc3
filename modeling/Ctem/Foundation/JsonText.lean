import Mathlib.Data.Rat.Defs
import Ctem.Foundation.Json
import Ctem.Foundation.JsText

/-!
# JSON as text

`parseJson` reads a text as `JSON.parse` does, or refuses it, and `stringifyStrings` writes an
object whose members are strings.  A string is read as UTF-16 code units, as its escapes name
them; half a surrogate pair becomes the replacement character.

`parseJson_stringifyStrings`: what has been written is read back.
-/

namespace Ctem
namespace Foundation

/-! ## Strings -/

def isJsonSpace (c : Char) : Bool :=
  c = ' ' || c = '\t' || c = '\n' || c = '\r'

def skipSpace (cs : List Char) : List Char :=
  cs.dropWhile isJsonSpace

def hexValue (c : Char) : Option Nat :=
  if '0' ≤ c ∧ c ≤ '9' then some (c.toNat - '0'.toNat)
  else if 'a' ≤ c ∧ c ≤ 'f' then some (c.toNat - 'a'.toNat + 10)
  else if 'A' ≤ c ∧ c ≤ 'F' then some (c.toNat - 'A'.toNat + 10)
  else none

/-- The code unit `\uabcd` names. -/
def unitOfHex (a b c d : Char) : Option Nat := do
  let a ← hexValue a
  let b ← hexValue b
  let c ← hexValue c
  let d ← hexValue d
  some (a * 0x1000 + b * 0x100 + c * 0x10 + d)

/-- The code unit a one-letter escape names. -/
def unitOfEscape (e : Char) : Option Nat :=
  if e = '"' ∨ e = '\\' ∨ e = '/' then some e.toNat
  else if e = 'b' then some 0x08
  else if e = 't' then some 0x09
  else if e = 'n' then some 0x0A
  else if e = 'f' then some 0x0C
  else if e = 'r' then some 0x0D
  else none

/-- The UTF-16 code units of a character. -/
def unitsOf (c : Char) : List Nat :=
  if c.toNat < 0x10000 then [c.toNat]
  else [0xD800 + (c.toNat - 0x10000) / 0x400, 0xDC00 + (c.toNat - 0x10000) % 0x400]

/-- A string up to its closing quote, and what follows. -/
def parseUnits : List Char → Option (List Nat × List Char)
  | [] => none
  | '"' :: rest => some ([], rest)
  | '\\' :: 'u' :: a :: b :: c :: d :: rest => do
      let u ← unitOfHex a b c d
      let (units, rest) ← parseUnits rest
      some (u :: units, rest)
  | '\\' :: e :: rest => do
      let u ← unitOfEscape e
      let (units, rest) ← parseUnits rest
      some (u :: units, rest)
  | c :: rest =>
      if c.toNat < 0x20 ∨ c = '\\' then none
      else do
        let (units, rest) ← parseUnits rest
        some (unitsOf c ++ units, rest)

/-- A code unit on its own. -/
def charOfUnit (u : Nat) : Char :=
  if 0xD800 ≤ u ∧ u ≤ 0xDFFF then '\uFFFD' else Char.ofNat u

/-- The characters of code units. -/
def charsOfUnits : List Nat → List Char
  | [] => []
  | [u] => [charOfUnit u]
  | hi :: lo :: rest =>
      if (0xD800 ≤ hi ∧ hi ≤ 0xDBFF) ∧ 0xDC00 ≤ lo ∧ lo ≤ 0xDFFF then
        Char.ofNat (0x10000 + (hi - 0xD800) * 0x400 + (lo - 0xDC00)) :: charsOfUnits rest
      else charOfUnit hi :: charsOfUnits (lo :: rest)

/-! ## Numbers -/

/-- `/^[+-]?\d+/`, behind the `e` of an exponent. -/
def parseExponent (cs : List Char) : Option (Int × List Char) :=
  let (negative, cs) :=
    match cs with
    | '-' :: rest => (true, rest)
    | '+' :: rest => (false, rest)
    | _ => (false, cs)
  let digits := cs.takeWhile Char.isDigit
  if digits = [] then none
  else
    let n : Int := digitsValue digits
    some (if negative then -n else n, cs.dropWhile Char.isDigit)

/-- `/^-?(0|[1-9]\d*)(\.\d+)?([eE][+-]?\d+)?/`. -/
def parseNumber (cs : List Char) : Option (Rat × List Char) :=
  let (negative, cs) :=
    match cs with
    | '-' :: rest => (true, rest)
    | _ => (false, cs)
  let (whole, cs) :=
    match cs with
    | '0' :: rest => (['0'], rest)
    | _ => (cs.takeWhile Char.isDigit, cs.dropWhile Char.isDigit)
  if whole = [] then none
  else
    let fraction :=
      match cs with
      | '.' :: rest => some (rest.takeWhile Char.isDigit, rest.dropWhile Char.isDigit)
      | _ => none
    let (digits, cs) := fraction.getD ([], cs)
    if fraction.isSome ∧ digits = [] then none
    else do
      let (exponent, cs) ←
        match cs with
        | 'e' :: rest => parseExponent rest
        | 'E' :: rest => parseExponent rest
        | _ => some (0, cs)
      let n : Rat := digitsValue (whole ++ digits)
      let value := n * (10 : Rat) ^ (exponent - digits.length)
      some (if negative then -value else value, cs)

/-! ## Values -/

mutual

/-- A value and what follows; every level of nesting takes fuel. -/
def parseValue : Nat → List Char → Option (Json × List Char)
  | 0, _ => none
  | fuel + 1, cs =>
      match skipSpace cs with
      | 'n' :: 'u' :: 'l' :: 'l' :: rest => some (.null, rest)
      | 't' :: 'r' :: 'u' :: 'e' :: rest => some (.bool true, rest)
      | 'f' :: 'a' :: 'l' :: 's' :: 'e' :: rest => some (.bool false, rest)
      | '"' :: rest => do
          let (units, rest) ← parseUnits rest
          some (.str (String.ofList (charsOfUnits units)), rest)
      | '[' :: rest =>
          match skipSpace rest with
          | ']' :: rest => some (.arr [], rest)
          | rest => do
              let (items, rest) ← parseItems fuel rest
              some (.arr items, rest)
      | '{' :: rest =>
          match skipSpace rest with
          | '}' :: rest => some (.obj [], rest)
          | rest => do
              let (fields, rest) ← parseMembers fuel rest
              some (.obj fields, rest)
      | rest => do
          let (n, rest) ← parseNumber rest
          some (.num n, rest)

/-- The items of an array up to its bracket. -/
def parseItems : Nat → List Char → Option (List Json × List Char)
  | 0, _ => none
  | fuel + 1, cs => do
      let (item, rest) ← parseValue fuel cs
      match skipSpace rest with
      | ']' :: rest => some ([item], rest)
      | ',' :: rest => do
          let (items, rest) ← parseItems fuel rest
          some (item :: items, rest)
      | _ => none

/-- The members of an object up to its brace. -/
def parseMembers : Nat → List Char → Option (JsonObject × List Char)
  | 0, _ => none
  | fuel + 1, cs =>
      match skipSpace cs with
      | '"' :: rest => do
          let (units, rest) ← parseUnits rest
          let key := String.ofList (charsOfUnits units)
          match skipSpace rest with
          | ':' :: rest => do
              let (value, rest) ← parseValue fuel rest
              match skipSpace rest with
              | '}' :: rest => some ([(key, value)], rest)
              | ',' :: rest => do
                  let (fields, rest) ← parseMembers fuel rest
                  some ((key, value) :: fields, rest)
              | _ => none
          | _ => none
      | _ => none

end

/-- `JSON.parse`; `none` is where it throws. -/
def parseJson (s : String) : Option Json :=
  match parseValue (2 * s.toList.length + 2) s.toList with
  | some (value, rest) => if skipSpace rest = [] then some value else none
  | none => none

/-! ## Writing -/

def hexDigit (n : Nat) : Char :=
  if n < 10 then Char.ofNat ('0'.toNat + n) else Char.ofNat ('a'.toNat + (n - 10))

/-- A character as it stands in a JSON string. -/
def escapeChar (c : Char) : List Char :=
  if c = '"' then ['\\', '"']
  else if c = '\\' then ['\\', '\\']
  else if c.toNat = 0x08 then ['\\', 'b']
  else if c.toNat = 0x09 then ['\\', 't']
  else if c.toNat = 0x0A then ['\\', 'n']
  else if c.toNat = 0x0C then ['\\', 'f']
  else if c.toNat = 0x0D then ['\\', 'r']
  else if c.toNat < 0x20 then
    ['\\', 'u', '0', '0', hexDigit (c.toNat / 16), hexDigit (c.toNat % 16)]
  else [c]

def quoted (s : String) : List Char :=
  '"' :: s.toList.flatMap escapeChar ++ ['"']

/-- A character that stands for itself. -/
def IsPlain (c : Char) : Prop :=
  0x20 ≤ c.toNat ∧ c ≠ '"' ∧ c ≠ '\\'

theorem quoted_plain {s : String} (h : ∀ c ∈ s.toList, IsPlain c) :
    quoted s = '"' :: s.toList ++ ['"'] := by
  have hescape : s.toList.flatMap escapeChar = s.toList.flatMap fun c => [c] := by
    refine List.flatMap_congr fun c hc => ?_
    obtain ⟨hcontrol, hquote, hslash⟩ := h c hc
    unfold escapeChar
    rw [if_neg hquote, if_neg hslash, if_neg (by omega), if_neg (by omega), if_neg (by omega),
      if_neg (by omega), if_neg (by omega), if_neg (by omega)]
  unfold quoted
  rw [hescape, List.flatMap_singleton']

def memberText (field : String × String) : List Char :=
  quoted field.1 ++ ':' :: quoted field.2

/-- The members with commas between them. -/
def membersText : List (String × String) → List Char
  | [] => []
  | [field] => memberText field
  | field :: rest => memberText field ++ ',' :: membersText rest

/-- `JSON.stringify` of an object whose members are strings. -/
def stringifyStrings (fields : List (String × String)) : String :=
  String.ofList ('{' :: membersText fields ++ ['}'])

/-! ## Reading what has been written -/

theorem hexValue_hexDigit : ∀ n < 16, hexValue (hexDigit n) = some n := by
  decide

/-- A character that needs no escape stands for itself. -/
theorem parseUnits_plain {c : Char} (hquote : c ≠ '"') (hescape : c ≠ '\\')
    (hcontrol : 0x20 ≤ c.toNat) (rest : List Char) :
    parseUnits (c :: rest) = (parseUnits rest).map fun r => (unitsOf c ++ r.1, r.2) := by
  have hplain : ¬ (c.toNat < 0x20 ∨ c = '\\') := by
    rintro (hlow | hc)
    · omega
    · exact hescape hc
  rw [parseUnits]
  · rw [if_neg hplain]
    cases parseUnits rest <;> rfl
  · exact fun h => hquote h
  · exact fun _ _ _ _ _ h => absurd h hescape
  · exact fun _ _ h => absurd h hescape

/-- A control character is named by its code. -/
theorem unitOfHex_control {n : Nat} (h : n < 0x20) :
    unitOfHex '0' '0' (hexDigit (n / 16)) (hexDigit (n % 16)) = some n := by
  have hhigh := hexValue_hexDigit (n / 16) (by omega)
  have hlow := hexValue_hexDigit (n % 16) (by omega)
  have hzero : hexValue '0' = some 0 := by decide
  unfold unitOfHex
  rw [hhigh, hlow, hzero]
  simp only [Option.bind_eq_bind, Option.bind_some, Option.some_inj]
  omega

/-- **One character.**  However it is written, it is read as its code units. -/
theorem parseUnits_escapeChar (c : Char) (rest : List Char) :
    parseUnits (escapeChar c ++ rest) =
      (parseUnits rest).map fun r => (unitsOf c ++ r.1, r.2) := by
  have hescaped : ∀ e u, unitOfEscape e = some u → e ≠ 'u' → unitsOf c = [u] →
      parseUnits (['\\', e] ++ rest) = (parseUnits rest).map fun r => (unitsOf c ++ r.1, r.2) := by
    intro e u hunit hne hunits
    change parseUnits ('\\' :: e :: rest) = _
    rw [parseUnits, hunit, hunits]
    · cases parseUnits rest <;> rfl
    · exact fun _ _ _ _ _ h _ => hne h
  have hunits : ∀ n, c.toNat = n → n < 0x10000 → unitsOf c = [n] := by
    intro n hn hlow
    unfold unitsOf
    rw [hn, if_pos hlow]
  unfold escapeChar
  split
  · rename_i hc
    exact hescaped '"' 0x22 (by decide) (by decide) (hunits 0x22 (by rw [hc]; rfl) (by decide))
  split
  · rename_i hc
    exact hescaped '\\' 0x5C (by decide) (by decide) (hunits 0x5C (by rw [hc]; rfl) (by decide))
  split
  · rename_i hc
    exact hescaped 'b' 0x08 (by decide) (by decide) (hunits _ hc (by decide))
  split
  · rename_i hc
    exact hescaped 't' 0x09 (by decide) (by decide) (hunits _ hc (by decide))
  split
  · rename_i hc
    exact hescaped 'n' 0x0A (by decide) (by decide) (hunits _ hc (by decide))
  split
  · rename_i hc
    exact hescaped 'f' 0x0C (by decide) (by decide) (hunits _ hc (by decide))
  split
  · rename_i hc
    exact hescaped 'r' 0x0D (by decide) (by decide) (hunits _ hc (by decide))
  split
  · rename_i hcontrol
    change parseUnits ('\\' :: 'u' :: '0' :: '0' :: _ :: _ :: rest) = _
    rw [parseUnits, unitOfHex_control hcontrol, hunits c.toNat rfl (by omega)]
    cases parseUnits rest <;> rfl
  · rename_i hquote hescape _ _ _ _ _ hcontrol
    exact parseUnits_plain hquote hescape (by omega) rest

/-- A quoted string is read up to its closing quote. -/
theorem parseUnits_quoted (cs rest : List Char) :
    parseUnits (cs.flatMap escapeChar ++ '"' :: rest) = some (cs.flatMap unitsOf, rest) := by
  induction cs with
  | nil => simp [parseUnits]
  | cons c cs ih =>
      rw [List.flatMap_cons, List.append_assoc, parseUnits_escapeChar, ih]
      rfl

/-- A code unit that is no surrogate stands for itself, whatever follows. -/
theorem charsOfUnits_cons {u : Nat} (h : u < 0xD800 ∨ 0xDFFF < u) (rest : List Nat) :
    charsOfUnits (u :: rest) = Char.ofNat u :: charsOfUnits rest := by
  have hchar : charOfUnit u = Char.ofNat u := by
    unfold charOfUnit
    rw [if_neg (by omega)]
  cases rest with
  | nil => exact congrArg (fun c => [c]) hchar
  | cons lo rest => rw [charsOfUnits, if_neg (by omega), hchar]

theorem charsOfUnits_unitsOf (cs : List Char) : charsOfUnits (cs.flatMap unitsOf) = cs := by
  induction cs with
  | nil => rfl
  | cons c cs ih =>
      have hvalid : c.toNat < 0xD800 ∨ (0xDFFF < c.toNat ∧ c.toNat < 0x110000) := c.valid
      rw [List.flatMap_cons]
      by_cases hlow : c.toNat < 0x10000
      · rw [unitsOf, if_pos hlow, List.singleton_append, charsOfUnits_cons (by omega), ih,
          Char.ofNat_toNat]
      · -- a surrogate pair
        rw [unitsOf, if_neg hlow]
        change charsOfUnits (_ :: _ :: cs.flatMap unitsOf) = _
        rw [charsOfUnits, if_pos (by omega), ih]
        have hcode : 0x10000 + (0xD800 + (c.toNat - 0x10000) / 0x400 - 0xD800) * 0x400 +
            (0xDC00 + (c.toNat - 0x10000) % 0x400 - 0xDC00) = c.toNat := by
          omega
        rw [hcode, Char.ofNat_toNat]

theorem skipSpace_cons {c : Char} (h : isJsonSpace c = false) (rest : List Char) :
    skipSpace (c :: rest) = c :: rest := by
  unfold skipSpace
  rw [List.dropWhile_cons_of_neg (by rw [h]; decide)]

/-- A quoted string is read as the string. -/
theorem parseValue_quoted (fuel : Nat) (s : String) (rest : List Char) :
    parseValue (fuel + 1) (quoted s ++ rest) = some (.str s, rest) := by
  have htext : quoted s ++ rest = '"' :: (s.toList.flatMap escapeChar ++ '"' :: rest) := by
    simp [quoted]
  rw [htext, parseValue, skipSpace_cons (by decide)]
  change (do
    let r ← parseUnits (s.toList.flatMap escapeChar ++ '"' :: rest)
    some (Json.str (String.ofList (charsOfUnits r.1)), r.2)) = _
  rw [parseUnits_quoted, Option.bind_eq_bind, Option.bind_some, charsOfUnits_unitsOf,
    String.ofList_toList]

/-- A member is read up to what follows it. -/
theorem parseMembers_memberText (fuel : Nat) (field : String × String) (rest : List Char) :
    parseMembers (fuel + 2) (memberText field ++ '}' :: rest) =
        some ([(field.1, .str field.2)], rest) ∧
      parseMembers (fuel + 2) (memberText field ++ ',' :: rest) =
        (parseMembers (fuel + 1) rest).map fun r => ((field.1, .str field.2) :: r.1, r.2) := by
  have htext : ∀ tail, memberText field ++ tail =
      '"' :: (field.1.toList.flatMap escapeChar ++ '"' :: ':' :: (quoted field.2 ++ tail)) := by
    intro tail
    simp [memberText, quoted]
  constructor
  · rw [htext, parseMembers, skipSpace_cons (by decide)]
    simp only [parseUnits_quoted, charsOfUnits_unitsOf, String.ofList_toList, Option.bind_eq_bind,
      Option.bind_some, skipSpace_cons (show isJsonSpace ':' = false by decide),
      parseValue_quoted, skipSpace_cons (show isJsonSpace '}' = false by decide)]
  · rw [htext, parseMembers, skipSpace_cons (by decide)]
    simp only [parseUnits_quoted, charsOfUnits_unitsOf, String.ofList_toList, Option.bind_eq_bind,
      Option.bind_some, skipSpace_cons (show isJsonSpace ':' = false by decide),
      parseValue_quoted, skipSpace_cons (show isJsonSpace ',' = false by decide)]
    cases parseMembers (fuel + 1) rest <;> rfl

/-- The members of an object are read up to its brace. -/
theorem parseMembers_membersText {fields : List (String × String)} (hne : fields ≠ [])
    (rest : List Char) {fuel : Nat} (hfuel : fields.length < fuel) :
    parseMembers fuel (membersText fields ++ '}' :: rest) =
      some (fields.map fun field => (field.1, Json.str field.2), rest) := by
  induction fields generalizing fuel with
  | nil => exact absurd rfl hne
  | cons field fields ih =>
      rw [List.length_cons] at hfuel
      obtain ⟨fuel, rfl⟩ : ∃ n, fuel = n + 2 := ⟨fuel - 2, by omega⟩
      cases fields with
      | nil => exact (parseMembers_memberText fuel field rest).1
      | cons next fields =>
          have htext : membersText (field :: next :: fields) ++ '}' :: rest =
              memberText field ++ ',' :: (membersText (next :: fields) ++ '}' :: rest) := by
            simp [membersText]
          rw [htext, (parseMembers_memberText fuel field _).2,
            ih (List.cons_ne_nil _ _) (by omega)]
          rfl

theorem length_membersText (fields : List (String × String)) :
    fields.length ≤ (membersText fields).length := by
  induction fields with
  | nil => exact Nat.zero_le _
  | cons field fields ih =>
      cases fields with
      | nil =>
          simp only [membersText, memberText, List.length_append, List.length_cons, List.length_nil]
          omega
      | cons next fields =>
          simp only [membersText, List.length_append, List.length_cons] at ih ⊢
          omega

/-- An object with a first member. -/
theorem parseValue_obj (fuel : Nat) (rest : List Char) :
    parseValue (fuel + 1) ('{' :: '"' :: rest) =
      (parseMembers fuel ('"' :: rest)).map fun r => (.obj r.1, r.2) := by
  rw [parseValue, skipSpace_cons (by decide)]
  simp only [skipSpace_cons (show isJsonSpace '"' = false by decide)]
  change (do
    let r ← parseMembers fuel ('"' :: rest)
    some (Json.obj r.1, r.2)) = _
  cases parseMembers fuel ('"' :: rest) <;> rfl

/-- **Round trip.**  An object of strings that has been written is read back. -/
theorem parseJson_stringifyStrings {fields : List (String × String)} (hne : fields ≠ []) :
    parseJson (stringifyStrings fields) =
      some (.obj (fields.map fun field => (field.1, Json.str field.2))) := by
  have hstart : ∃ rest, membersText fields ++ ['}'] = '"' :: rest := by
    cases fields with
    | nil => exact absurd rfl hne
    | cons field fields => cases fields <;> exact ⟨_, rfl⟩
  obtain ⟨rest, hrest⟩ := hstart
  have hlength := length_membersText fields
  have htotal : (membersText fields).length + 1 = ('"' :: rest).length := by
    rw [← hrest, List.length_append]
    rfl
  have hvalue : parseValue (2 * ('{' :: '"' :: rest).length + 2) ('{' :: '"' :: rest) =
      some (.obj (fields.map fun field => (field.1, Json.str field.2)), []) := by
    have hfuel : fields.length < 2 * ('{' :: '"' :: rest).length + 1 := by
      rw [List.length_cons]
      omega
    rw [parseValue_obj, ← hrest, parseMembers_membersText hne [] (hrest ▸ hfuel)]
    rfl
  unfold parseJson stringifyStrings
  rw [String.toList_ofList, List.cons_append, hrest, hvalue]
  rfl

end Foundation
end Ctem
