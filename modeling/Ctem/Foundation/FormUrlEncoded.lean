import Ctem.Foundation.PathText
import Ctem.Foundation.Utf8Text

/-!
# Form-encoded pairs

`URLSearchParams` as text: names and values in percent-encoding, with a plus sign for a space.

* `readPairs` cuts a text at every `&` and each piece at its first `=`; `writePairs` is its
  inverse on every list of pairs (`readPairs_writePairs`).
* `firstValue` is `params.get`.
-/

namespace Ctem
namespace Foundation
namespace FormUrlEncoded

/-! ## Percent-encoding -/

def hexDigit (n : Nat) : Char :=
  "0123456789ABCDEF".toList.getD n '0'

/-- The value of a hexadecimal digit of either case. -/
def hexValue? (c : Char) : Option Nat :=
  if c.isDigit then some (c.toNat - '0'.toNat)
  else if 'a' ≤ c ∧ c ≤ 'f' then some (c.toNat - 'a'.toNat + 10)
  else if 'A' ≤ c ∧ c ≤ 'F' then some (c.toNat - 'A'.toNat + 10)
  else none

def escapeByte (b : UInt8) : List Char :=
  ['%', hexDigit (b.toNat / 16), hexDigit (b.toNat % 16)]

/-- What is written as it is. -/
def isPlain (c : Char) : Bool :=
  c.isAlphanum || decide (c ∈ ['*', '-', '.', '_'])

def escapeChar (c : Char) : List Char :=
  if isPlain c then [c]
  else if c = ' ' then ['+']
  else (String.utf8EncodeChar c).flatMap escapeByte

def escape (text : String) : List Char :=
  text.toList.flatMap escapeChar

/-- The bytes a text stands for; a percent sign without two digits is itself. -/
def unescape : List Char → List UInt8
  | [] => []
  | c :: rest =>
      if c = '+' then 0x20 :: unescape rest
      else if c = '%' then
        match rest with
        | high :: low :: rest =>
            match hexValue? high, hexValue? low with
            | some h, some l => .ofNat (16 * h + l) :: unescape rest
            | _, _ => 0x25 :: unescape (high :: low :: rest)
        | rest => 0x25 :: unescape rest
      else String.utf8EncodeChar c ++ unescape rest

theorem hexValue?_hexDigit : ∀ n < 16, hexValue? (hexDigit n) = some n := by
  decide

theorem unescape_other {c : Char} (hplus : c ≠ '+') (hpercent : c ≠ '%') (rest : List Char) :
    unescape (c :: rest) = String.utf8EncodeChar c ++ unescape rest := by
  rcases rest with _ | ⟨high, _ | ⟨low, rest⟩⟩ <;> simp [unescape, hplus, hpercent]

theorem unescape_escapeByte (b : UInt8) (rest : List Char) :
    unescape (escapeByte b ++ rest) = b :: unescape rest := by
  have hlt : b.toNat < 256 := b.toNat_lt
  rw [escapeByte, List.cons_append, List.cons_append, List.singleton_append, unescape,
    if_neg (by decide), if_pos rfl]
  simp only [hexValue?_hexDigit (b.toNat / 16) (by omega),
    hexValue?_hexDigit (b.toNat % 16) (by omega)]
  rw [Nat.div_add_mod, UInt8.ofNat_toNat]

theorem unescape_escapeBytes (bytes : List UInt8) (rest : List Char) :
    unescape (bytes.flatMap escapeByte ++ rest) = bytes ++ unescape rest := by
  induction bytes with
  | nil => rfl
  | cons b bytes ih =>
      rw [List.flatMap_cons, List.append_assoc, unescape_escapeByte, ih, List.cons_append]

theorem ne_of_isPlain {c d : Char} (hc : isPlain c = true) (hd : isPlain d = false) : c ≠ d := by
  rintro rfl
  rw [hc] at hd
  cases hd

theorem unescape_escapeChar (c : Char) (rest : List Char) :
    unescape (escapeChar c ++ rest) = String.utf8EncodeChar c ++ unescape rest := by
  unfold escapeChar
  split
  · rename_i hplain
    exact unescape_other (ne_of_isPlain hplain (by decide)) (ne_of_isPlain hplain (by decide)) rest
  · split
    · rename_i hspace
      rw [hspace, List.singleton_append]
      rcases rest with _ | ⟨high, _ | ⟨low, rest⟩⟩ <;> rfl
    · exact unescape_escapeBytes _ rest

/-- **A text is read back** from what is written for it. -/
theorem unescape_escape (text : String) : utf8Lossy (unescape (escape text)) = text := by
  have hbytes : ∀ cs : List Char,
      unescape (cs.flatMap escapeChar) = cs.flatMap String.utf8EncodeChar := by
    intro cs
    induction cs with
    | nil => rfl
    | cons c cs ih => rw [List.flatMap_cons, unescape_escapeChar, ih, List.flatMap_cons]
  rw [escape, hbytes]
  exact utf8Lossy_bytes text

/-- What is written for a text has no separators. -/
theorem not_mem_escape {d : Char} (hplain : isPlain d = false) (hplus : d ≠ '+')
    (hpercent : d ≠ '%') (text : String) : d ∉ escape text := by
  intro hd
  obtain ⟨c, -, hc⟩ := List.mem_flatMap.mp hd
  unfold escapeChar at hc
  split at hc
  · rename_i hplain'
    exact ne_of_isPlain hplain' hplain (List.mem_singleton.mp hc).symm
  split at hc
  · exact hplus (List.mem_singleton.mp hc)
  · obtain ⟨b, -, hb⟩ := List.mem_flatMap.mp hc
    have hdigit : ∀ n < 16, isPlain (hexDigit n) = true := by decide
    have hlt : b.toNat < 256 := b.toNat_lt
    rcases List.mem_cons.mp hb with hb | hb
    · exact hpercent hb
    rcases List.mem_cons.mp hb with hb | hb
    · exact ne_of_isPlain (hdigit _ (by omega)) hplain hb.symm
    · exact ne_of_isPlain (hdigit _ (by omega)) hplain (List.mem_singleton.mp hb).symm

/-! ## Pairs -/

/-- Cut at the first `=`. -/
def readPair (piece : List Char) : String × String :=
  (utf8Lossy (unescape (piece.takeWhile (· ≠ '='))),
    utf8Lossy (unescape ((piece.dropWhile (· ≠ '=')).drop 1)))

/-- `new URLSearchParams(text)`, less a question mark at its head. -/
def readPairs (text : List Char) : List (String × String) :=
  ((splitOn '&' text).filter (· ≠ [])).map readPair

def writePair (pair : String × String) : List Char :=
  escape pair.1 ++ '=' :: escape pair.2

/-- `params.toString()`. -/
def writePairs (pairs : List (String × String)) : List Char :=
  ['&'].intercalate (pairs.map writePair)

/-- `params.get(name)`. -/
def firstValue (pairs : List (String × String)) (name : String) : Option String :=
  (pairs.find? fun pair => pair.1 = name).map Prod.snd

theorem readPair_writePair (pair : String × String) : readPair (writePair pair) = pair := by
  have hname : ∀ c ∈ escape pair.1, (decide (c ≠ '=')) = true := by
    intro c hc
    rw [decide_eq_true_iff]
    rintro rfl
    exact not_mem_escape (by decide) (by decide) (by decide) _ hc
  have htake : (writePair pair).takeWhile (· ≠ '=') = escape pair.1 := by
    rw [writePair, List.takeWhile_append_of_pos hname]
    simp
  have hdrop : ((writePair pair).dropWhile (· ≠ '=')).drop 1 = escape pair.2 := by
    rw [writePair, List.dropWhile_append_of_pos hname]
    simp
  rw [readPair, htake, hdrop, unescape_escape, unescape_escape]

theorem not_mem_writePair {d : Char} (hplain : isPlain d = false) (hplus : d ≠ '+')
    (hpercent : d ≠ '%') (hequals : d ≠ '=') (pair : String × String) : d ∉ writePair pair := by
  intro hmem
  rcases List.mem_append.mp hmem with hname | hvalue
  · exact not_mem_escape hplain hplus hpercent _ hname
  · rcases List.mem_cons.mp hvalue with heq | hvalue
    · exact hequals heq
    · exact not_mem_escape hplain hplus hpercent _ hvalue

theorem not_mem_writePairs {d : Char} (hplain : isPlain d = false) (hplus : d ≠ '+')
    (hpercent : d ≠ '%') (hequals : d ≠ '=') (hand : d ≠ '&') (pairs : List (String × String)) :
    d ∉ writePairs pairs := by
  unfold writePairs
  induction pairs with
  | nil => simp
  | cons pair pairs ih =>
      have hpair := not_mem_writePair hplain hplus hpercent hequals pair
      cases pairs with
      | nil => simpa using hpair
      | cons next rest =>
          rw [List.map_cons, List.map_cons, List.intercalate_cons_cons, ← List.map_cons]
          simp only [List.mem_append, List.mem_singleton, not_or]
          exact ⟨⟨hpair, hand⟩, ih⟩

/-- **Pairs are read back** from what is written for them. -/
theorem readPairs_writePairs (pairs : List (String × String)) :
    readPairs (writePairs pairs) = pairs := by
  cases pairs with
  | nil => rfl
  | cons pair pairs =>
      have hne : (pair :: pairs).map writePair ≠ [] := by simp
      have hpieces : splitOn '&' (writePairs (pair :: pairs)) = (pair :: pairs).map writePair := by
        apply splitOn_intercalate hne
        intro piece hpiece
        obtain ⟨written, -, rfl⟩ := List.mem_map.mp hpiece
        exact not_mem_writePair (by decide) (by decide) (by decide) (by decide) written
      have hkept : ((pair :: pairs).map writePair).filter (· ≠ []) =
          (pair :: pairs).map writePair := by
        rw [List.filter_eq_self]
        intro piece hpiece
        obtain ⟨written, -, rfl⟩ := List.mem_map.mp hpiece
        simp [writePair]
      rw [readPairs, hpieces, hkept, List.map_map]
      exact List.map_id'' readPair_writePair _

end FormUrlEncoded
end Foundation
end Ctem
