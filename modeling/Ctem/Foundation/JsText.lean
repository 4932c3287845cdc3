import Mathlib.Algebra.Group.Nat.Defs
import Mathlib.Algebra.GroupWithZero.Nat
import Mathlib.Algebra.Order.Monoid.Unbundled.WithTop
import Mathlib.Data.List.Basic
import Mathlib.Data.Nat.Log
import Ctem.Foundation.JsCollections

/-!
# Text operations

The string functions a parser of version numbers and ranges needs, on lists of
characters: trimming, splitting at a character, digits, and the number a digit
string denotes once it is a double.

* `splitOn` is a split at one character.
* `roundToDouble` rounds a natural number to 53 significant bits, ties to even;
  from the largest double on it is `⊤`.
-/

namespace Ctem
namespace Foundation

/-- White space and line terminators, as trimming understands them. -/
def isJsSpace (c : Char) : Bool :=
  decide (c.toNat ∈ [0x09, 0x0A, 0x0B, 0x0C, 0x0D, 0x20, 0xA0, 0x1680, 0x2028, 0x2029, 0x202F,
    0x205F, 0x3000, 0xFEFF]) || (decide (0x2000 ≤ c.toNat) && decide (c.toNat ≤ 0x200A))

/-- `text.trim()`. -/
def trimChars (cs : List Char) : List Char :=
  ((cs.dropWhile isJsSpace).reverse.dropWhile isJsSpace).reverse

/-- A text without spaces at its ends is trimmed already. -/
theorem trimChars_of_noSpace {cs : List Char} (h : ∀ c ∈ cs, isJsSpace c = false) :
    trimChars cs = cs := by
  have hkeep : ∀ ds : List Char, (∀ c ∈ ds, isJsSpace c = false) → ds.dropWhile isJsSpace = ds := by
    intro ds hds
    cases ds with
    | nil => rfl
    | cons d rest => rw [List.dropWhile_cons, if_neg (by simp [hds d List.mem_cons_self])]
  unfold trimChars
  rw [hkeep cs h, hkeep cs.reverse (fun c hc => h c (List.mem_reverse.mp hc)), List.reverse_reverse]

section Trim

variable {cs lead trail : List Char}

theorem dropSpaces_of_head (h : ∀ c, cs.head? = some c → isJsSpace c = false) :
    cs.dropWhile isJsSpace = cs := by
  cases cs with
  | nil => rfl
  | cons c cs => rw [List.dropWhile_cons, if_neg (by simp [h c rfl])]

/-- Trimming takes away the spaces around a text that neither begins nor ends with one. -/
theorem trimChars_around (hlead : ∀ c ∈ lead, isJsSpace c = true)
    (htrail : ∀ c ∈ trail, isJsSpace c = true) (hne : cs ≠ [])
    (hfirst : ∀ c, cs.head? = some c → isJsSpace c = false)
    (hlast : ∀ c, cs.getLast? = some c → isJsSpace c = false) :
    trimChars (lead ++ cs ++ trail) = cs := by
  have hhead : (cs ++ trail).dropWhile isJsSpace = cs ++ trail := by
    apply dropSpaces_of_head
    intro c hc
    rw [List.head?_append_of_ne_nil _ hne] at hc
    exact hfirst c hc
  have hrev : cs.reverse.dropWhile isJsSpace = cs.reverse := by
    apply dropSpaces_of_head
    intro c hc
    rw [List.head?_reverse] at hc
    exact hlast c hc
  unfold trimChars
  rw [List.append_assoc, List.dropWhile_append_of_pos hlead, hhead, List.reverse_append,
    List.dropWhile_append_of_pos (fun c hc => htrail c (List.mem_reverse.mp hc)), hrev,
    List.reverse_reverse]

end Trim

/-- `text.trim()` on strings. -/
def trimText (s : String) : String :=
  String.ofList (trimChars s.toList)

/-- `text.split(sep)` for a separator of one character. -/
def splitOn (sep : Char) : List Char → List (List Char)
  | [] => [[]]
  | c :: cs =>
      if c = sep then [] :: splitOn sep cs
      else
        match splitOn sep cs with
        | [] => [[c]]
        | part :: parts => (c :: part) :: parts

/-- The characters of a digit string as a number. -/
def digitsValue (cs : List Char) : Nat :=
  cs.foldl (fun n c => 10 * n + (c.toNat - '0'.toNat)) 0

/-- `/^\d+$/`. -/
def isDigits (cs : List Char) : Bool :=
  !cs.isEmpty && cs.all Char.isDigit

/-- The double nearest to a natural number, ties to even; `⊤` is infinity. -/
def roundToDouble (n : Nat) : WithTop Nat :=
  if n < 2 ^ 53 then n
  else
    let e := Nat.log 2 n - 52
    let q := n / 2 ^ e
    let r := n % 2 ^ e
    let rounded :=
      if 2 * r < 2 ^ e then q
      else if 2 ^ e < 2 * r then q + 1
      else if q % 2 = 0 then q else q + 1
    if rounded * 2 ^ e < 2 ^ 1024 then ((rounded * 2 ^ e : Nat) : WithTop Nat) else ⊤

/-- The text when it is not empty. -/
def nonEmpty (text : Option String) : Option String :=
  text.filter fun s => decide (s ≠ "")

theorem nonEmpty_eq_some {text : Option String} {s : String} :
    nonEmpty text = some s ↔ text = some s ∧ s ≠ "" := by
  unfold nonEmpty
  simp only [Option.filter_eq_some_iff, decide_eq_true_eq]

/-- `text.length`. -/
def utf16Length (s : String) : Nat :=
  (utf16Units s).length

/-- `text.startsWith(pre)`. -/
def startsWith (s pre : String) : Bool :=
  pre.toList.isPrefixOf s.toList

/-- `text.endsWith(suf)`. -/
def endsWith (s suf : String) : Bool :=
  suf.toList.isSuffixOf s.toList

end Foundation
end Ctem
