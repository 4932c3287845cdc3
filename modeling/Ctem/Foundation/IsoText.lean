import Ctem.Foundation.CivilTime
import Ctem.Foundation.JsText

/-!
# Civil time as text

Date-times as `2026-09-24T12:00:00.000Z`: `isoText` writes one, `readDatetime` reads one with an
offset or without.  Seconds and their fraction may be left out, of a fraction the first three
digits count.

`readDatetime_isoText`: what is written of a year of four digits is read.
-/

namespace Ctem
namespace Foundation

/-! ## Numbers of a fixed width -/

def decimalDigit (n : Nat) : Char :=
  "0123456789".toList.getD n '0'

/-- The last `width` digits of a number. -/
def decimals : Nat → Nat → List Char
  | 0, _ => []
  | width + 1, n => decimals width (n / 10) ++ [decimalDigit (n % 10)]

/-- A number of that width, and what is behind it. -/
def readNumber (width : Nat) (cs : List Char) : Option (Nat × List Char) :=
  let digits := cs.take width
  if digits.length = width ∧ digits.all Char.isDigit then
    some (digitsValue digits, cs.drop width)
  else none

/-- A fixed character, and what is behind it. -/
def readChar (c : Char) : List Char → Option (List Char)
  | [] => none
  | c' :: cs => if c' = c then some cs else none

theorem decimalDigit_spec : ∀ n < 10,
    (decimalDigit n).isDigit = true ∧ (decimalDigit n).toNat - '0'.toNat = n := by
  decide

theorem length_decimals (width n : Nat) : (decimals width n).length = width := by
  induction width generalizing n with
  | zero => rfl
  | succ width ih => rw [decimals, List.length_append, ih, List.length_singleton]

theorem isDigit_decimals (width n : Nat) : ∀ c ∈ decimals width n, c.isDigit = true := by
  induction width generalizing n with
  | zero => simp [decimals]
  | succ width ih =>
      intro c hc
      rcases List.mem_append.mp hc with hc | hc
      · exact ih (n / 10) c hc
      · rw [List.mem_singleton.mp hc]
        exact (decimalDigit_spec _ (Nat.mod_lt _ (by decide))).1

theorem digitsValue_concat (cs : List Char) (c : Char) :
    digitsValue (cs ++ [c]) = 10 * digitsValue cs + (c.toNat - '0'.toNat) := by
  unfold digitsValue
  rw [List.foldl_append, List.foldl_cons, List.foldl_nil]

/-- Decimal digits say the number they were made of. -/
theorem digitsValue_toDigits (n : Nat) : digitsValue (Nat.toDigits 10 n) = n := by
  induction n using Nat.strong_induction_on with
  | h n ih =>
      by_cases hlt : n < 10
      · rw [Nat.toDigits_of_lt_base hlt]
        change 10 * 0 + (n.digitChar.toNat - 48) = n
        rw [Nat.toNat_digitChar_sub_48_of_lt_ten hlt]
        omega
      · rw [Nat.toDigits_of_base_le (by decide) (by omega), digitsValue_concat,
          ih (n / 10) (by omega), show '0'.toNat = 48 from rfl,
          Nat.toNat_digitChar_sub_48_of_lt_ten (Nat.mod_lt n (by decide))]
        omega

theorem isDigits_toDigits (n : Nat) : isDigits (Nat.toDigits 10 n) = true := by
  unfold isDigits
  rw [Bool.and_eq_true, List.all_eq_true]
  exact ⟨by simp, fun c hc => Nat.isDigit_of_mem_toDigits (by decide) (by decide) hc⟩

theorem range_of_isDigit {c : Char} (h : c.isDigit = true) : 48 ≤ c.toNat ∧ c.toNat ≤ 57 := by
  delta Char.isDigit at h
  rw [Bool.and_eq_true, decide_eq_true_eq, decide_eq_true_eq] at h
  exact ⟨UInt32.le_iff_toNat_le.mp h.1, UInt32.le_iff_toNat_le.mp h.2⟩

theorem isJsSpace_of_isDigit {c : Char} (h : c.isDigit = true) : isJsSpace c = false := by
  have hrange := range_of_isDigit h
  unfold isJsSpace
  simp only [Bool.or_eq_false_iff, decide_eq_false_iff_not, List.mem_cons, List.not_mem_nil,
    Bool.and_eq_false_iff, or_false]
  omega

theorem digitsValue_decimals {width n : Nat} (h : n < 10 ^ width) :
    digitsValue (decimals width n) = n := by
  induction width generalizing n with
  | zero =>
      obtain rfl : n = 0 := by omega
      rfl
  | succ width ih =>
      have hten : n / 10 < 10 ^ width := by
        rw [Nat.pow_succ] at h
        omega
      rw [decimals, digitsValue_concat, ih hten,
        (decimalDigit_spec _ (Nat.mod_lt _ (by decide))).2]
      omega

theorem readNumber_decimals {width n : Nat} (h : n < 10 ^ width) (rest : List Char) :
    readNumber width (decimals width n ++ rest) = some (n, rest) := by
  have htake : (decimals width n ++ rest).take width = decimals width n := by
    rw [List.take_append_of_le_length (length_decimals width n).ge,
      List.take_of_length_le (length_decimals width n).le]
  have hdrop : (decimals width n ++ rest).drop width = rest :=
    List.drop_left' (length_decimals width n)
  unfold readNumber
  simp only [htake, hdrop]
  rw [if_pos ⟨length_decimals width n, List.all_eq_true.mpr (isDigit_decimals width n)⟩,
    digitsValue_decimals h]

theorem readChar_cons (c : Char) (rest : List Char) : readChar c (c :: rest) = some rest := by
  exact if_pos rfl

/-! ## Writing -/

/-- `date.toISOString()`; years from 10000 on have six digits and a sign. -/
def isoText (c : CivilTime) : List Char :=
  (if c.year < 10000 then decimals 4 c.year else '+' :: decimals 6 c.year) ++
    '-' :: (decimals 2 c.month ++ '-' :: (decimals 2 c.day ++ 'T' :: (decimals 2 c.hour ++
      ':' :: (decimals 2 c.minute ++ ':' :: (decimals 2 c.second ++
        '.' :: (decimals 3 c.millisecond ++ ['Z']))))))

theorem length_isoText {c : CivilTime} (hyear : c.year < 10000) : (isoText c).length = 24 := by
  unfold isoText
  rw [if_pos hyear]
  simp only [List.length_append, List.length_cons, List.length_nil, length_decimals]

/-- The characters of a date-time. -/
theorem mem_isoText {c : CivilTime} {x : Char} (hx : x ∈ isoText c) :
    x.isDigit = true ∨ x ∈ ['+', '-', 'T', ':', '.', 'Z'] := by
  have hyear : x ∈ (if c.year < 10000 then decimals 4 c.year else '+' :: decimals 6 c.year) →
      x.isDigit = true ∨ x ∈ ['+', '-', 'T', ':', '.', 'Z'] := by
    intro hmem
    split at hmem
    · exact Or.inl (isDigit_decimals 4 c.year x hmem)
    · rcases List.mem_cons.mp hmem with rfl | hmem
      · exact Or.inr (by decide)
      · exact Or.inl (isDigit_decimals 6 c.year x hmem)
  have hpart : ∀ width n, x ∈ decimals width n →
      x.isDigit = true ∨ x ∈ ['+', '-', 'T', ':', '.', 'Z'] :=
    fun width n hmem => Or.inl (isDigit_decimals width n x hmem)
  unfold isoText at hx
  simp only [List.mem_append, List.mem_cons, List.not_mem_nil, or_false] at hx
  rcases hx with hx | rfl | hx | rfl | hx | rfl | hx | rfl | hx | rfl | hx | rfl | hx | rfl
  · exact hyear hx
  · exact Or.inr (by decide)
  · exact hpart _ _ hx
  · exact Or.inr (by decide)
  · exact hpart _ _ hx
  · exact Or.inr (by decide)
  · exact hpart _ _ hx
  · exact Or.inr (by decide)
  · exact hpart _ _ hx
  · exact Or.inr (by decide)
  · exact hpart _ _ hx
  · exact Or.inr (by decide)
  · exact hpart _ _ hx
  · exact Or.inr (by decide)

/-! ## Reading -/

/-- A distance from the zero meridian, as it is written. -/
structure ZoneOffset where
  east : Bool
  hours : Nat
  minutes : Nat

/-- A date and a time, and how far from the zero meridian. -/
structure IsoDatetime where
  civil : CivilTime
  offset : Option ZoneOffset := none

/-- The seconds behind a minute, their milliseconds, and what is behind them. -/
def readSeconds (cs : List Char) : Option (Nat × Nat × List Char) :=
  match cs with
  | ':' :: cs => do
      let (second, cs) ← readNumber 2 cs
      match cs with
      | '.' :: cs =>
          let fraction := cs.takeWhile Char.isDigit
          if fraction = [] then none
          else
            pure (second, digitsValue ((fraction ++ ['0', '0']).take 3), cs.drop fraction.length)
      | cs => pure (second, 0, cs)
  | cs => some (0, 0, cs)

/-- `Z`, or an offset with or without a colon, at the end. -/
def readZone (cs : List Char) : Option (Option ZoneOffset) :=
  match cs with
  | ['Z'] => some none
  | sign :: cs => do
      let (hours, cs) ← readNumber 2 cs
      let (minutes, cs) ← readNumber 2 ((readChar ':' cs).getD cs)
      if (sign = '+' ∨ sign = '-') ∧ cs = [] then
        pure (some { east := decide (sign = '+'), hours := hours, minutes := minutes })
      else none
  | [] => none

/-- A time in the ranges of the calendar. -/
def civilTime? (year month day hour minute second millisecond : Nat) : Option CivilTime :=
  if h : (1 ≤ month ∧ month ≤ 12) ∧ (1 ≤ day ∧ day ≤ monthLength (leapDay year) month) ∧
      hour < 24 ∧ minute < 60 ∧ second < 60 ∧ millisecond < 1000 then
    some
      { year := year
        month := month
        day := day
        hour := hour
        minute := minute
        second := second
        millisecond := millisecond
        month_range := h.1
        day_range := h.2.1
        hour_lt := h.2.2.1
        minute_lt := h.2.2.2.1
        second_lt := h.2.2.2.2.1
        millisecond_lt := h.2.2.2.2.2 }
  else none

/-- A date-time with its offset; the date is one of the calendar. -/
def readDatetime (cs : List Char) : Option IsoDatetime := do
  let (year, cs) ← readNumber 4 cs
  let cs ← readChar '-' cs
  let (month, cs) ← readNumber 2 cs
  let cs ← readChar '-' cs
  let (day, cs) ← readNumber 2 cs
  let cs ← readChar 'T' cs
  let (hour, cs) ← readNumber 2 cs
  let cs ← readChar ':' cs
  let (minute, cs) ← readNumber 2 cs
  let (second, millisecond, cs) ← readSeconds cs
  let offset ← readZone cs
  let civil ← civilTime? year month day hour minute second millisecond
  pure { civil := civil, offset := offset }

theorem readSeconds_written {second millisecond : Nat} (hsecond : second < 60)
    (hmilli : millisecond < 1000) :
    readSeconds (':' :: (decimals 2 second ++ '.' :: (decimals 3 millisecond ++ ['Z']))) =
      some (second, millisecond, ['Z']) := by
  have hfraction : (decimals 3 millisecond ++ ['Z']).takeWhile Char.isDigit =
      decimals 3 millisecond := by
    rw [List.takeWhile_append_of_pos (isDigit_decimals 3 millisecond)]
    simp [Char.isDigit]
  have hne : decimals 3 millisecond ≠ [] := by
    intro hempty
    have hlength := length_decimals 3 millisecond
    rw [hempty] at hlength
    cases hlength
  have hthree : (decimals 3 millisecond ++ ['0', '0']).take 3 = decimals 3 millisecond := by
    rw [List.take_append_of_le_length (length_decimals 3 millisecond).ge,
      List.take_of_length_le (length_decimals 3 millisecond).le]
  have hdrop : (decimals 3 millisecond ++ ['Z']).drop (decimals 3 millisecond).length = ['Z'] :=
    List.drop_left
  unfold readSeconds
  simp only
  rw [readNumber_decimals (by omega)]
  simp only [Option.bind_eq_bind, Option.bind_some]
  rw [hfraction, if_neg hne, hthree, hdrop, digitsValue_decimals (by omega)]
  rfl

theorem civilTime?_self (c : CivilTime) :
    civilTime? c.year c.month c.day c.hour c.minute c.second c.millisecond = some c := by
  unfold civilTime?
  rw [dif_pos ⟨c.month_range, c.day_range, c.hour_lt, c.minute_lt, c.second_lt, c.millisecond_lt⟩]

theorem monthLength_lt : ∀ month < 13, ∀ leap < 2, monthLength leap month < 100 := by
  decide

theorem day_lt_hundred (c : CivilTime) : c.day < 100 :=
  Nat.lt_of_le_of_lt c.day_range.2
    (monthLength_lt c.month (Nat.lt_succ_of_le c.month_range.2) (leapDay c.year)
      (Nat.lt_succ_of_le (leapDay_le c.year)))

/-- **What is written is read.** -/
theorem readDatetime_isoText {c : CivilTime} (hyear : c.year < 10000) :
    readDatetime (isoText c) = some { civil := c } := by
  have hmonth := c.month_range
  have hday := day_lt_hundred c
  have hhour := c.hour_lt
  have hminute := c.minute_lt
  unfold readDatetime isoText
  rw [if_pos hyear, readNumber_decimals (by omega)]
  simp only [Option.bind_eq_bind, Option.bind_some]
  rw [readChar_cons, Option.bind_some, readNumber_decimals (by omega), Option.bind_some,
    readChar_cons, Option.bind_some, readNumber_decimals (by omega), Option.bind_some,
    readChar_cons, Option.bind_some, readNumber_decimals (by omega), Option.bind_some,
    readChar_cons, Option.bind_some, readNumber_decimals (by omega), Option.bind_some,
    readSeconds_written c.second_lt c.millisecond_lt, Option.bind_some]
  simp only [readZone, Option.bind_some, civilTime?_self]
  rfl

end Foundation
end Ctem
