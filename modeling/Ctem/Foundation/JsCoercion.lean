import Mathlib.Data.List.TakeWhile
import Ctem.Foundation.IsoText
import Ctem.Foundation.JsonText

/-!
# Values as strings and numbers

What `String`, `Number` and `??` make of a value that may be anything.

* `stringOf` joins the texts of an array; numbers are written by a parameter.
* `numberOf` is `none` for `NaN`.  A numeral is read exactly, without rounding to a double.
-/

namespace Ctem
namespace Foundation

section Strings

-- `Number.prototype.toString`
variable (numberText : Rat → String)

mutual

/-- `String(value)`. -/
def stringOf : Json → String
  | .null => "null"
  | .bool b => if b then "true" else "false"
  | .num n => numberText n
  | .str s => s
  | .arr items => ",".intercalate (itemTexts items)
  | .obj _ => "[object Object]"

/-- The texts an array is joined from; `null` has none. -/
def itemTexts : List Json → List String
  | [] => []
  | .null :: rest => "" :: itemTexts rest
  | item :: rest => stringOf item :: itemTexts rest

end
end Strings

/-! ## Numbers -/

/-- A number other than `NaN`. -/
inductive JsNumber where
  | minusInfinity
  | finite (n : Rat)
  | infinity

/-- `a <= b`. -/
def JsNumber.le : JsNumber → JsNumber → Bool
  | .minusInfinity, _ => true
  | _, .infinity => true
  | .finite a, .finite b => decide (a ≤ b)
  | _, _ => false

def JsNumber.neg : JsNumber → JsNumber
  | .minusInfinity => .infinity
  | .finite n => .finite (-n)
  | .infinity => .minusInfinity

/-- The exponent behind the digits; nothing may stand behind it. -/
def exponentOf? : List Char → Option Int
  | [] => some 0
  | c :: rest =>
      if c = 'e' ∨ c = 'E' then
        match parseExponent rest with
        | some (exponent, []) => some exponent
        | _ => none
      else none

/-- A decimal numeral without a sign. -/
def decimalNumeral? (cs : List Char) : Option Rat :=
  let whole := cs.takeWhile Char.isDigit
  let behind := cs.dropWhile Char.isDigit
  let fraction := if behind.head? = some '.' then behind.tail.takeWhile Char.isDigit else []
  let rest := if behind.head? = some '.' then behind.tail.dropWhile Char.isDigit else behind
  if whole ++ fraction = [] then none
  else (exponentOf? rest).map fun (exponent : Int) =>
    (digitsValue (whole ++ fraction) : Rat) * (10 : Rat) ^ (exponent - (fraction.length : Int))

/-- A numeral behind `0x`, `0o` or `0b`. -/
def radixNumeral? (radix : Nat) (cs : List Char) : Option Rat :=
  if cs = [] then none
  else (cs.foldlM (fun n c => (hexValue c).bind fun d =>
    if d < radix then some (radix * n + d) else none) 0).map fun (n : Nat) => (n : Rat)

/-- The radix a numeral begins with. -/
def radixOf? (cs : List Char) : Option Nat :=
  match cs with
  | '0' :: c :: _ =>
      if c = 'x' ∨ c = 'X' then some 16
      else if c = 'o' ∨ c = 'O' then some 8
      else if c = 'b' ∨ c = 'B' then some 2
      else none
  | _ => none

def unsignedNumeral? (cs : List Char) : Option JsNumber :=
  if cs = "Infinity".toList then some .infinity else (decimalNumeral? cs).map .finite

/-- `Number(text)`. -/
def numberOfText (text : String) : Option JsNumber :=
  let cs := trimChars text.toList
  match radixOf? cs with
  | some radix => (radixNumeral? radix (cs.drop 2)).map .finite
  | none =>
      if cs = [] then some (.finite 0)
      else if cs.head? = some '-' then (unsignedNumeral? cs.tail).map JsNumber.neg
      else if cs.head? = some '+' then unsignedNumeral? cs.tail
      else unsignedNumeral? cs

/-- `Number(value)`. -/
def numberOf (numberText : Rat → String) : Json → Option JsNumber
  | .null => some (.finite 0)
  | .bool b => some (.finite (if b then 1 else 0))
  | .num n => some (.finite n)
  | .str s => numberOfText s
  | value => numberOfText (stringOf numberText value)

/-! ## Missing values -/

/-- `a ?? b`. -/
def coalesce (a b : Option Json) : Option Json :=
  match a with
  | none => b
  | some .null => b
  | some value => some value

/-! ## Digits -/

theorem decimalNumeral?_digits {ds : List Char} (hne : ds ≠ [])
    (hdigits : ∀ c ∈ ds, c.isDigit = true) : decimalNumeral? ds = some (digitsValue ds : Rat) := by
  have hwhole : ds.takeWhile Char.isDigit = ds := List.takeWhile_eq_self_iff.mpr hdigits
  have hbehind : ds.dropWhile Char.isDigit = [] := List.dropWhile_eq_nil_iff.mpr hdigits
  simp only [decimalNumeral?, hwhole, hbehind, List.head?_nil, reduceCtorEq, if_false,
    List.append_nil, if_neg hne, exponentOf?, Option.map_some, List.length_nil,
    Int.ofNat_zero, Int.sub_self, Rat.zpow_zero, Rat.mul_one]

/-- A digit is no sign and no radix. -/
theorem radixOf?_digits {ds : List Char} (hdigits : ∀ c ∈ ds, c.isDigit = true) :
    radixOf? ds = none := by
  unfold radixOf?
  split
  · rename_i c rest
    have hrange := range_of_isDigit (hdigits c (List.mem_cons_of_mem _ List.mem_cons_self))
    have hother : ∀ d : Char, 57 < d.toNat → c ≠ d := by
      rintro d hd rfl
      omega
    rw [if_neg (not_or.mpr ⟨hother _ (by decide), hother _ (by decide)⟩),
      if_neg (not_or.mpr ⟨hother _ (by decide), hother _ (by decide)⟩),
      if_neg (not_or.mpr ⟨hother _ (by decide), hother _ (by decide)⟩)]
  · rfl

/-- Digits are read as the number they say. -/
theorem numberOfText_digits {ds : List Char} (hne : ds ≠ [])
    (hdigits : ∀ c ∈ ds, c.isDigit = true) :
    numberOfText (String.ofList ds) = some (.finite (digitsValue ds : Rat)) := by
  have htrim : trimChars ds = ds :=
    trimChars_of_noSpace fun c hc => isJsSpace_of_isDigit (hdigits c hc)
  have hsign : ∀ d : Char, d.isDigit = false → ds.head? ≠ some d := by
    intro d hd hhead
    rw [hdigits d (List.mem_of_mem_head? hhead)] at hd
    cases hd
  have hword : ds ≠ "Infinity".toList := by
    rintro rfl
    exact absurd (hdigits 'I' List.mem_cons_self) (by decide)
  simp only [numberOfText, String.toList_ofList, htrim, radixOf?_digits hdigits, if_neg hne,
    if_neg (hsign '-' rfl), if_neg (hsign '+' rfl), unsignedNumeral?, if_neg hword,
    decimalNumeral?_digits hne hdigits, Option.map_some]

theorem numberOfText_toDigits (n : Nat) :
    numberOfText (String.ofList (Nat.toDigits 10 n)) = some (.finite (n : Rat)) := by
  rw [numberOfText_digits Nat.toDigits_ne_nil
    (fun c hc => Nat.isDigit_of_mem_toDigits (by decide) (by decide) hc), digitsValue_toDigits]

end Foundation
end Ctem
