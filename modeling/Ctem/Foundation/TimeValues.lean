import Ctem.Foundation.IsoText

/-!
# Time values as text

The time values of a date, in milliseconds from 1970 on and before it, and their text: a year
from 0 to 9999 has four digits, every other one a sign and six.

The calendar repeats every 400 years, so that both directions work in the years from 2000 to
2399, which `IsoText` writes and reads.

`readTimeValue_isoString`: the text of a time value is read as it.
-/

namespace Ctem
namespace Foundation

/-- The range of time values, 100 000 000 days to each side. -/
def maxTimeValue : Int := 8640000000000000

/-- The milliseconds of 400 years. -/
def cycleMillis : Nat := 146097 * millisPerDay

/-- The milliseconds from the year 0 to the year 2000, and to 1970. -/
def cycleStart : Nat := dayFromYear 2000 * millisPerDay

def epochStart : Nat := dayFromYear 1970 * millisPerDay

/-- The date that a time value has in the years from 2000 to 2399. -/
def cycleCivil (t : Int) : CivilTime :=
  CivilTime.ofMillis (((t + epochStart - cycleStart) % cycleMillis).toNat + cycleStart)

/-- The year of a time value. -/
def yearOf (t : Int) : Int :=
  (cycleCivil t).year + 400 * ((t + epochStart - cycleStart) / cycleMillis)

/-- The year as it is written. -/
def yearText (year : Int) : List Char :=
  if 0 ≤ year ∧ year < 10000 then decimals 4 year.toNat
  else (if year < 0 then '-' else '+') :: decimals 6 year.natAbs

/-- `toISOString` of a date. -/
def isoString (t : Int) : String :=
  String.ofList (yearText (yearOf t) ++ (isoText (cycleCivil t)).drop 4)

/-- A year, and what is behind it; the year 0 has no minus. -/
def readYear : List Char → Option (Int × List Char)
  | '+' :: cs => (readNumber 6 cs).map fun year => ((year.1 : Int), year.2)
  | '-' :: cs => ((readNumber 6 cs).filter fun year => decide (year.1 ≠ 0)).map fun year =>
      (-(year.1 : Int), year.2)
  | cs => (readNumber 4 cs).map fun year => ((year.1 : Int), year.2)

/-- The time value of a text as `isoString` writes it. -/
def readTimeValue (cs : List Char) : Option Int := do
  let (year, cs) ← readYear cs
  let cycles := (year - 2000) / 400
  let date ← readDatetime (decimals 4 (year - 400 * cycles).toNat ++ cs)
  match date.offset with
  | none => pure ((date.civil.toMillis : Int) + cycles * cycleMillis - epochStart)
  | some _ => none

/-! ## The years of one cycle -/

theorem dayFromYear_mono {y y' : Nat} (h : y ≤ y') : dayFromYear y ≤ dayFromYear y' := by
  induction h with
  | refl => exact Nat.le_refl _
  | step _ ih =>
      rw [Nat.succ_eq_add_one, dayFromYear_succ]
      omega

/-- A day of the cycle is in a year of the cycle. -/
theorem year_of_cycle {r : Nat} (h : r < cycleMillis) :
    2000 ≤ (CivilTime.ofMillis (r + cycleStart)).year ∧
      (CivilTime.ofMillis (r + cycleStart)).year < 2400 := by
  have hspec := yearOfDay_spec ((r + cycleStart) / millisPerDay)
  have hfirst : dayFromYear 2000 ≤ (r + cycleStart) / millisPerDay := by
    rw [Nat.le_div_iff_mul_le (by decide)]
    exact Nat.le_add_left _ _
  have hlast : (r + cycleStart) / millisPerDay < dayFromYear 2400 := by
    rw [Nat.div_lt_iff_lt_mul (by decide)]
    have hsum : dayFromYear 2400 * millisPerDay = cycleMillis + cycleStart := by decide
    omega
  show 2000 ≤ yearOfDay ((r + cycleStart) / millisPerDay) ∧
    yearOfDay ((r + cycleStart) / millisPerDay) < 2400
  generalize yearOfDay ((r + cycleStart) / millisPerDay) = y at hspec ⊢
  constructor
  · by_contra hbefore
    have hmono := dayFromYear_mono (show y + 1 ≤ 2000 by omega)
    omega
  · by_contra hbehind
    have hmono := dayFromYear_mono (show 2400 ≤ y by omega)
    omega

theorem cycleMillis_pos : (0 : Int) < cycleMillis := by decide

/-- The rest of a time value behind its cycles. -/
theorem cycleRest_lt (t : Int) :
    ((t + epochStart - cycleStart) % cycleMillis).toNat < cycleMillis := by
  have hlow := Int.emod_nonneg (t + epochStart - cycleStart) (Int.ne_of_gt cycleMillis_pos)
  have hhigh := Int.emod_lt_of_pos (t + epochStart - cycleStart) cycleMillis_pos
  omega

theorem cycleCivil_year (t : Int) : 2000 ≤ (cycleCivil t).year ∧ (cycleCivil t).year < 2400 :=
  year_of_cycle (cycleRest_lt t)

/-- The cycles before a year are those before its time value. -/
theorem cycles_yearOf (t : Int) :
    (yearOf t - 2000) / 400 = (t + epochStart - cycleStart) / cycleMillis := by
  have hyear := cycleCivil_year t
  unfold yearOf
  omega

/-- **A date and its cycles are the time value.** -/
theorem toMillis_cycleCivil (t : Int) :
    ((cycleCivil t).toMillis : Int) +
      (t + epochStart - cycleStart) / cycleMillis * cycleMillis - epochStart = t := by
  have hlow := Int.emod_nonneg (t + epochStart - cycleStart) (Int.ne_of_gt cycleMillis_pos)
  have hsplit := Int.mul_ediv_add_emod (t + epochStart - cycleStart) cycleMillis
  unfold cycleCivil
  rw [CivilTime.toMillis_ofMillis, Int.natCast_add, Int.toNat_of_nonneg hlow]
  have hcomm := Int.mul_comm (cycleMillis : Int) ((t + epochStart - cycleStart) / cycleMillis)
  omega

/-! ## Reading what is written -/

/-- A year of a time value has at most six digits. -/
theorem yearOf_lt {t : Int} (h : -maxTimeValue ≤ t ∧ t ≤ maxTimeValue) :
    (yearOf t).natAbs < 10 ^ 6 := by
  have hyear := cycleCivil_year t
  have hlow := Int.emod_nonneg (t + epochStart - cycleStart) (Int.ne_of_gt cycleMillis_pos)
  have hsplit := Int.mul_ediv_add_emod (t + epochStart - cycleStart) cycleMillis
  have hhigh := Int.emod_lt_of_pos (t + epochStart - cycleStart) cycleMillis_pos
  unfold yearOf
  have hcycle : (cycleMillis : Int) = 12622780800000 := by decide
  have hstart : (cycleStart : Int) = 63113904000000 := by decide
  have hepoch : (epochStart : Int) = 62167219200000 := by decide
  rw [hcycle, hstart, hepoch] at *
  unfold maxTimeValue at h
  omega

theorem readYear_yearText {year : Int} (hyear : year.natAbs < 10 ^ 6) (rest : List Char) :
    readYear (yearText year ++ rest) = some (year, rest) := by
  unfold yearText
  split
  case isTrue hfour =>
    obtain ⟨hnonneg, hlt⟩ := hfour
    have hdigits : ∀ cs : List Char, (∀ c ∈ cs.take 1, c.isDigit = true) →
        readYear cs = (readNumber 4 cs).map fun year => ((year.1 : Int), year.2) := by
      intro cs hcs
      unfold readYear
      split
      · exact absurd (hcs '+' List.mem_cons_self) (by decide)
      · exact absurd (hcs '-' List.mem_cons_self) (by decide)
      · rfl
    rw [hdigits, readNumber_decimals (by omega)]
    · simp [Int.toNat_of_nonneg hnonneg]
    · intro c hc
      rw [List.take_append_of_le_length (by rw [length_decimals]; decide)] at hc
      exact isDigit_decimals 4 year.toNat c (List.mem_of_mem_take hc)
  case isFalse hsix =>
    by_cases hneg : year < 0
    · rw [if_pos hneg]
      show ((readNumber 6 (decimals 6 year.natAbs ++ rest)).filter _).map _ = _
      have hne : year.natAbs ≠ 0 := by omega
      rw [readNumber_decimals hyear, Option.filter_some, if_pos (decide_eq_true hne),
        Option.map_some]
      have habs : -((year.natAbs : Nat) : Int) = year := by omega
      rw [habs]
    · rw [if_neg hneg]
      show ((readNumber 6 (decimals 6 year.natAbs ++ rest)).map fun n => ((n.1 : Int), n.2)) = _
      rw [readNumber_decimals hyear, Option.map_some]
      have habs : ((year.natAbs : Nat) : Int) = year := by omega
      rw [habs]

/-- Behind its year a date of the cycle is written as it is with it. -/
theorem isoText_cycleCivil (t : Int) :
    decimals 4 (cycleCivil t).year ++ (isoText (cycleCivil t)).drop 4 = isoText (cycleCivil t) := by
  have hyear := cycleCivil_year t
  unfold isoText
  rw [if_pos (by omega), List.drop_left' (length_decimals 4 _)]

/-- **The text of a time value is read as it.** -/
theorem readTimeValue_isoString {t : Int} (h : -maxTimeValue ≤ t ∧ t ≤ maxTimeValue) :
    readTimeValue (isoString t).toList = some t := by
  have hyear := cycleCivil_year t
  have hsame : (yearOf t - 400 * ((t + epochStart - cycleStart) / cycleMillis)).toNat =
      (cycleCivil t).year := by
    unfold yearOf
    omega
  unfold readTimeValue isoString
  rw [String.toList_ofList, readYear_yearText (yearOf_lt h), Option.bind_eq_bind,
    Option.bind_some]
  simp only
  rw [cycles_yearOf, hsame, isoText_cycleCivil, readDatetime_isoText (by omega),
    Option.bind_eq_bind, Option.bind_some]
  exact congrArg some (toMillis_cycleCivil t)

end Foundation
end Ctem
