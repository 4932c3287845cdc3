import Ctem.Foundation.IsoText
import Ctem.Foundation.PathText
import Ctem.Intel.VersionRange
import Mathlib.Data.List.Lex
import Mathlib.Order.WithBot

/-!
# The order of versions

`compareVersions` as an order.  A version is compared by its segments from the left and then by
those of its prerelease, so the comparison is a lexicographic one, and it is a total preorder
because the comparison of two segments is: numbers by their value, below all text.

* `SemVer` is a version of the SemVer 2.0.0 grammar, `SemVer.text` its text and
  `SemVer.precedence` the order of the specification.
* `compareVersions_order`: `compareVersions` is a total preorder on all texts, and SemVer
  precedence on the texts of SemVer versions whose numbers a double holds exactly.
-/

namespace Ctem
namespace Intel

open Foundation
open Std (TransCmp)

/-! ## A total preorder -/

/-- `compareOfLessAndEq` of a linear order is a comparison, however its parts are decided. -/
theorem transCmp_lessAndEq {α : Type*} [LinearOrder α] [DecidableLT α] [DecidableEq α] :
    TransCmp fun a b : α => compareOfLessAndEq a b := by
  refine Std.TransOrd.compareOfLessAndEq_of_lt_trans_of_lt_iff lt_trans ?_
  intro a b
  constructor
  · intro hlt
    exact ⟨lt_asymm hlt, hlt.ne⟩
  · rintro ⟨hnot, hne⟩
    exact lt_of_le_of_ne (not_lt.mp hnot) hne

/-- A comparison pulled back along a function. -/
theorem transCmp_pullback {α β : Type*} (f : α → β) {cmp : β → β → Ordering} (h : TransCmp cmp) :
    TransCmp fun a b => cmp (f a) (f b) where
  eq_swap := h.eq_swap
  isLE_trans := h.isLE_trans

theorem transCmp_compareText : TransCmp compareText :=
  transCmp_pullback (fun seg => utf16Units (String.ofList seg)) transCmp_lessAndEq

theorem transCmp_compareSegment : TransCmp compareSegment where
  eq_swap {a b} := by
    unfold compareSegment
    cases segmentNumber a with
    | none =>
        cases segmentNumber b with
        | none => exact transCmp_compareText.eq_swap
        | some nb => rfl
    | some na =>
        cases segmentNumber b with
        | none => rfl
        | some nb => exact transCmp_lessAndEq.eq_swap
  isLE_trans {a b c} hab hbc := by
    unfold compareSegment at *
    -- a number is below every text, so of the mixed cases only the ordered ones are left
    cases ha : segmentNumber a <;> cases hb : segmentNumber b <;> cases hc : segmentNumber c <;>
      simp only [ha, hb, hc] at hab hbc ⊢
    case none.none.none => exact transCmp_compareText.isLE_trans hab hbc
    case some.some.some => exact transCmp_lessAndEq.isLE_trans hab hbc
    all_goals first | rfl | exact absurd hab Bool.false_ne_true | exact absurd hbc Bool.false_ne_true

/-- Segments are compared lexicographically. -/
theorem compareSegments_eq (as bs : List (List Char)) :
    compareSegments as bs = List.compareLex compareSegment as bs := by
  induction as generalizing bs with
  | nil => cases bs <;> rfl
  | cons a as ih =>
      cases bs with
      | nil => rfl
      | cons b bs => rw [compareSegments, List.compareLex_cons_cons, ih]

theorem transCmp_compareDotted : TransCmp compareDotted := by
  have heq : compareDotted = fun a b =>
      List.compareLex compareSegment (splitOn '.' a) (splitOn '.' b) := by
    funext a b
    exact compareSegments_eq _ _
  have hsegment := transCmp_compareSegment
  rw [heq]
  exact transCmp_pullback (splitOn '.') inferInstance

/-- The prerelease parts of two versions with the same main part. -/
def comparePrerelease : Option (List Char) → Option (List Char) → Ordering
  | none, none => .eq
  | none, some _ => .gt
  | some _, none => .lt
  | some a, some b => compareDotted a b

theorem transCmp_comparePrerelease : TransCmp comparePrerelease where
  eq_swap {a b} := by
    cases a <;> cases b
    case some.some a b => exact transCmp_compareDotted.eq_swap
    all_goals rfl
  isLE_trans {a b c} hab hbc := by
    cases a <;> cases b <;> cases c
    case some.some.some a b c => exact transCmp_compareDotted.isLE_trans hab hbc
    all_goals first | rfl | exact absurd hab Bool.false_ne_true | exact absurd hbc Bool.false_ne_true

theorem compareVersions_eq (a b : String) :
    compareVersions a b =
      (compareDotted (splitPrerelease (normalize a.toList)).1
        (splitPrerelease (normalize b.toList)).1).then
          (comparePrerelease (splitPrerelease (normalize a.toList)).2
            (splitPrerelease (normalize b.toList)).2) := by
  unfold compareVersions comparePrerelease
  rfl

theorem transCmp_compareVersions : TransCmp compareVersions := by
  have heq : compareVersions = compareLex
      (fun a b => compareDotted (splitPrerelease (normalize a.toList)).1
        (splitPrerelease (normalize b.toList)).1)
      (fun a b => comparePrerelease (splitPrerelease (normalize a.toList)).2
        (splitPrerelease (normalize b.toList)).2) := by
    funext a b
    exact compareVersions_eq a b
  have hmain := transCmp_pullback (fun s : String => (splitPrerelease (normalize s.toList)).1)
    transCmp_compareDotted
  have hpre := transCmp_pullback (fun s : String => (splitPrerelease (normalize s.toList)).2)
    transCmp_comparePrerelease
  rw [heq]
  infer_instance

/-! ## SemVer -/

/-- `[0-9A-Za-z-]`. -/
def isIdChar (c : Char) : Bool := c.isAlphanum || decide (c = '-')

/-- An identifier that is no number. -/
structure AlphanumericId where
  chars : List Char
  idChars : ∀ c ∈ chars, isIdChar c = true
  ne_nil : chars ≠ []
  noNumber : isDigits chars = false

/-- A prerelease identifier. -/
inductive PreId where
  | numeric (n : Nat)
  | alphanumeric (id : AlphanumericId)

/-- An identifier of the build metadata. -/
structure BuildId where
  chars : List Char
  idChars : ∀ c ∈ chars, isIdChar c = true
  ne_nil : chars ≠ []

/-- A version of the SemVer 2.0.0 grammar. -/
structure SemVer where
  major : Nat
  minor : Nat
  patch : Nat
  pre : List PreId := []
  build : List BuildId := []

/-- A number in decimal, without leading zeros. -/
def numText (n : Nat) : List Char := Nat.toDigits 10 n

def PreId.text : PreId → List Char
  | .numeric n => numText n
  | .alphanumeric id => id.chars

namespace SemVer

/-- `major.minor.patch`. -/
def mainText (v : SemVer) : List Char :=
  ['.'].intercalate [numText v.major, numText v.minor, numText v.patch]

/-- The prerelease identifiers with their dots. -/
def preText (v : SemVer) : List Char := ['.'].intercalate (v.pre.map PreId.text)

/-- The text of the version. -/
def text (v : SemVer) : String :=
  String.ofList (v.mainText ++ (if v.pre = [] then [] else '-' :: v.preText) ++
    if v.build = [] then [] else '+' :: ['.'].intercalate (v.build.map BuildId.chars))

/-- Every number is below `2 ^ 53`. -/
structure Exact (v : SemVer) : Prop where
  major : v.major < 2 ^ 53
  minor : v.minor < 2 ^ 53
  patch : v.patch < 2 ^ 53
  pre : ∀ n, PreId.numeric n ∈ v.pre → n < 2 ^ 53

/-- Numbers by their value, below text; text in ASCII order. -/
def compareId : PreId → PreId → Ordering
  | .numeric n, .numeric m => compare n m
  | .numeric _, .alphanumeric _ => .lt
  | .alphanumeric _, .numeric _ => .gt
  | .alphanumeric a, .alphanumeric b =>
      compareOfLessAndEq (a.chars.map Char.toNat) (b.chars.map Char.toNat)

/-- Identifiers from the left; where all are equal, more of them are above. -/
def compareIds : List PreId → List PreId → Ordering
  | [], [] => .eq
  | [], _ :: _ => .lt
  | _ :: _, [] => .gt
  | a :: as, b :: bs => (compareId a b).then (compareIds as bs)

/-- A version without a prerelease is above those with one. -/
def comparePre : List PreId → List PreId → Ordering
  | [], [] => .eq
  | [], _ :: _ => .gt
  | _ :: _, [] => .lt
  | as, bs => compareIds as bs

/-- The precedence of the specification, which leaves the build metadata out. -/
def precedence (v w : SemVer) : Ordering :=
  (compare v.major w.major).then <| (compare v.minor w.minor).then <|
    (compare v.patch w.patch).then (comparePre v.pre w.pre)

end SemVer

/-! ### Texts -/

/-- A character that is an identifier's, or stands between identifiers. -/
def IsVersionChar (c : Char) : Prop := isIdChar c = true ∨ c = '.' ∨ c = '+'

theorem idChar_range {c : Char} (h : isIdChar c = true) : 0x2B ≤ c.toNat ∧ c.toNat ≤ 0x7A := by
  rw [isIdChar, Bool.or_eq_true, decide_eq_true_eq] at h
  rcases h with h | rfl
  · delta Char.isAlphanum Char.isAlpha Char.isUpper Char.isLower Char.isDigit at h
    simp only [Bool.or_eq_true, Bool.and_eq_true, decide_eq_true_eq, ge_iff_le,
      UInt32.le_iff_toNat_le] at h
    have hcast : c.val.toNat = c.toNat := rfl
    have hletters : 'A'.val.toNat = 65 ∧ 'Z'.val.toNat = 90 ∧ 'a'.val.toNat = 97 ∧
        'z'.val.toNat = 122 ∧ '0'.val.toNat = 48 ∧ '9'.val.toNat = 57 :=
      ⟨rfl, rfl, rfl, rfl, rfl, rfl⟩
    omega
  · decide

theorem not_isJsSpace {c : Char} (h : IsVersionChar c) : isJsSpace c = false := by
  have hrange : 0x2B ≤ c.toNat ∧ c.toNat ≤ 0x7A := by
    rcases h with h | rfl | rfl
    · exact idChar_range h
    · decide
    · decide
  unfold isJsSpace
  simp only [Bool.or_eq_false_iff, decide_eq_false_iff_not, List.mem_cons, List.not_mem_nil,
    Bool.and_eq_false_iff, or_false]
  omega

theorem isDigit_numText {n : Nat} {c : Char} (hc : c ∈ numText n) : c.isDigit = true :=
  Nat.isDigit_of_mem_toDigits (by decide) (by decide) hc

theorem isIdChar_of_isDigit {c : Char} (h : c.isDigit = true) : isIdChar c = true := by
  simp [isIdChar, Char.isAlphanum, h]

/-- Every character of an identifier is an identifier's. -/
theorem PreId.idChars (id : PreId) {c : Char} (hc : c ∈ id.text) : isIdChar c = true := by
  cases id with
  | numeric n => exact isIdChar_of_isDigit (isDigit_numText hc)
  | alphanumeric id => exact id.idChars c hc

/-! ### Numbers -/

theorem digitsValue_numText (n : Nat) : digitsValue (numText n) = n := digitsValue_toDigits n

theorem isDigits_numText (n : Nat) : isDigits (numText n) = true := isDigits_toDigits n

/-- A number that a double holds exactly is read as itself. -/
theorem segmentNumber_numText {n : Nat} (h : n < 2 ^ 53) :
    segmentNumber (numText n) = some (WithTop.some n) := by
  unfold segmentNumber roundToDouble
  rw [if_pos (isDigits_numText n), digitsValue_numText, if_pos h]
  rfl

theorem compareSegment_numText {n m : Nat} (hn : n < 2 ^ 53) (hm : m < 2 ^ 53) :
    compareSegment (numText n) (numText m) = compare n m := by
  unfold compareSegment
  rw [segmentNumber_numText hn, segmentNumber_numText hm]
  simp only [compareOfLessAndEq, WithTop.coe_lt_coe, WithTop.coe_inj]
  rfl

/-! ### Identifiers -/

/-- ASCII text is one code unit a character. -/
theorem utf16Units_of_idChars {cs : List Char} (h : ∀ c ∈ cs, isIdChar c = true) :
    utf16Units (String.ofList cs) = cs.map Char.toNat := by
  unfold utf16Units
  rw [String.toList_ofList, List.map_eq_flatMap]
  apply List.flatMap_congr
  intro c hc
  have hsmall : c.toNat < 0x10000 := by
    have hrange := idChar_range (h c hc)
    omega
  rw [if_pos hsmall]

/-- The comparison of two identifiers is the one of the specification. -/
theorem compareSegment_text {a b : PreId} (ha : ∀ n, a = .numeric n → n < 2 ^ 53)
    (hb : ∀ n, b = .numeric n → n < 2 ^ 53) :
    compareSegment a.text b.text = SemVer.compareId a b := by
  have hnone : ∀ id : AlphanumericId, segmentNumber id.chars = none := by
    intro id
    unfold segmentNumber
    rw [if_neg (by simp [id.noNumber])]
  cases a with
  | numeric n =>
      cases b with
      | numeric m => exact compareSegment_numText (ha n rfl) (hb m rfl)
      | alphanumeric b =>
          simp only [PreId.text, compareSegment, segmentNumber_numText (ha n rfl), hnone,
            SemVer.compareId]
  | alphanumeric a =>
      cases b with
      | numeric m =>
          simp only [PreId.text, compareSegment, segmentNumber_numText (hb m rfl), hnone,
            SemVer.compareId]
      | alphanumeric b =>
          simp only [PreId.text, compareSegment, hnone, SemVer.compareId, compareText,
            utf16Units_of_idChars a.idChars, utf16Units_of_idChars b.idChars]

theorem compareSegments_text {as bs : List PreId} (ha : ∀ n, PreId.numeric n ∈ as → n < 2 ^ 53)
    (hb : ∀ n, PreId.numeric n ∈ bs → n < 2 ^ 53) :
    compareSegments (as.map PreId.text) (bs.map PreId.text) = SemVer.compareIds as bs := by
  induction as generalizing bs with
  | nil => cases bs <;> rfl
  | cons a as ih =>
      cases bs with
      | nil => rfl
      | cons b bs =>
          rw [List.map_cons, List.map_cons, compareSegments, SemVer.compareIds,
            compareSegment_text (fun n hn => ha n (hn ▸ List.mem_cons_self))
              (fun n hn => hb n (hn ▸ List.mem_cons_self)),
            ih (fun n hn => ha n (List.mem_cons_of_mem _ hn))
              (fun n hn => hb n (List.mem_cons_of_mem _ hn))]

/-! ### Versions -/

namespace SemVer

variable (v : SemVer)

theorem mem_mainText {c : Char} (hc : c ∈ v.mainText) : c.isDigit = true ∨ c = '.' := by
  rcases mem_intercalate hc with rfl | ⟨part, hpart, hmem⟩
  · exact Or.inr rfl
  · simp only [List.mem_cons, List.not_mem_nil, or_false] at hpart
    rcases hpart with rfl | rfl | rfl <;> exact Or.inl (isDigit_numText hmem)

theorem mem_preText {c : Char} (hc : c ∈ v.preText) : isIdChar c = true ∨ c = '.' := by
  rcases mem_intercalate hc with rfl | ⟨part, hpart, hmem⟩
  · exact Or.inr rfl
  · obtain ⟨id, -, rfl⟩ := List.mem_map.mp hpart
    exact Or.inl (id.idChars hmem)

/-- The prerelease with its dash, when there is one. -/
def preTail : List Char := if v.pre = [] then [] else '-' :: v.preText

/-- The build metadata with its plus, when there is one. -/
def buildTail : List Char :=
  if v.build = [] then [] else '+' :: ['.'].intercalate (v.build.map BuildId.chars)

theorem toList_text : v.text.toList = v.mainText ++ v.preTail ++ v.buildTail := by
  rw [text, String.toList_ofList, preTail, buildTail]

theorem mem_preTail {c : Char} (hc : c ∈ v.preTail) : isIdChar c = true ∨ c = '.' := by
  unfold preTail at hc
  split at hc
  · cases hc
  · rcases List.mem_cons.mp hc with rfl | hc
    · exact Or.inl (by decide)
    · exact v.mem_preText hc

theorem mem_buildTail {c : Char} (hc : c ∈ v.buildTail) : IsVersionChar c := by
  unfold buildTail at hc
  split at hc
  · cases hc
  · rcases List.mem_cons.mp hc with rfl | hc
    · exact Or.inr (Or.inr rfl)
    · rcases mem_intercalate hc with rfl | ⟨part, hpart, hmem⟩
      · exact Or.inr (Or.inl rfl)
      · obtain ⟨id, -, rfl⟩ := List.mem_map.mp hpart
        exact Or.inl (id.idChars c hmem)

/-- A version has no space, so trimming leaves it alone. -/
theorem trimChars_text : trimChars v.text.toList = v.text.toList := by
  apply trimChars_of_noSpace
  intro c hc
  apply not_isJsSpace
  rw [toList_text, List.mem_append, List.mem_append] at hc
  rcases hc with (hc | hc) | hc
  · exact (v.mem_mainText hc).imp isIdChar_of_isDigit Or.inl
  · exact (v.mem_preTail hc).imp_right Or.inl
  · exact v.mem_buildTail hc

/-- The first character is a digit. -/
theorem exists_cons_text : ∃ d rest, d.isDigit = true ∧ v.text.toList = d :: rest := by
  cases hmajor : numText v.major with
  | nil => exact absurd hmajor Nat.toDigits_ne_nil
  | cons d rest =>
      have hd : d.isDigit = true := isDigit_numText (hmajor ▸ List.mem_cons_self)
      refine ⟨d, v.text.toList.tail, hd, ?_⟩
      rw [toList_text, mainText, List.intercalate_cons_cons, hmajor]
      rfl

/-- Normalising takes the build metadata off. -/
theorem normalize_text : normalize v.text.toList = v.mainText ++ v.preTail := by
  have hstripped : normalize v.text.toList =
      v.text.toList.takeWhile fun c => decide (c ≠ '+') := by
    obtain ⟨d, rest, hd, heq⟩ := v.exists_cons_text
    unfold normalize
    rw [v.trimChars_text, heq]
    split
    · rename_i hhead
      obtain ⟨rfl, -⟩ := List.cons.inj hhead
      exact absurd hd (by decide)
    · rename_i hhead
      obtain ⟨rfl, -⟩ := List.cons.inj hhead
      exact absurd hd (by decide)
    · rfl
  have hplus : ∀ c ∈ v.mainText ++ v.preTail, decide (c ≠ '+') = true := by
    intro c hc
    rw [decide_eq_true_eq]
    rintro rfl
    rcases List.mem_append.mp hc with hc | hc
    · rcases v.mem_mainText hc with h | h
      · exact absurd h (by decide)
      · exact absurd h (by decide)
    · rcases v.mem_preTail hc with h | h
      · exact absurd h (by decide)
      · exact absurd h (by decide)
  rw [hstripped, toList_text, List.takeWhile_append_of_pos hplus]
  unfold buildTail
  split
  · simp
  · simp

/-- Splitting finds the prerelease. -/
theorem splitPrerelease_text : splitPrerelease (v.mainText ++ v.preTail) =
    (v.mainText, if v.pre = [] then none else some v.preText) := by
  have hdash : ∀ c ∈ v.mainText, decide (c ≠ '-') = true := by
    intro c hc
    rw [decide_eq_true_eq]
    rintro rfl
    rcases v.mem_mainText hc with h | h
    · exact absurd h (by decide)
    · exact absurd h (by decide)
  unfold splitPrerelease
  rw [List.takeWhile_append_of_pos hdash, List.dropWhile_append_of_pos hdash]
  unfold preTail
  split
  · simp
  · simp

theorem splitOn_mainText :
    splitOn '.' v.mainText = [numText v.major, numText v.minor, numText v.patch] := by
  apply splitOn_intercalate (by simp)
  intro part hpart hdot
  simp only [List.mem_cons, List.not_mem_nil, or_false] at hpart
  rcases hpart with rfl | rfl | rfl <;> exact absurd (isDigit_numText hdot) (by decide)

theorem splitOn_preText (hpre : v.pre ≠ []) : splitOn '.' v.preText = v.pre.map PreId.text := by
  apply splitOn_intercalate (by simpa using hpre)
  intro part hpart hdot
  obtain ⟨id, -, rfl⟩ := List.mem_map.mp hpart
  exact absurd (id.idChars hdot) (by decide)

variable {v} {w : SemVer}

theorem compareDotted_mainText (hv : v.Exact) (hw : w.Exact) :
    compareDotted v.mainText w.mainText = (compare v.major w.major).then
      ((compare v.minor w.minor).then (compare v.patch w.patch)) := by
  unfold compareDotted
  rw [splitOn_mainText, splitOn_mainText]
  simp only [compareSegments, compareSegment_numText hv.major hw.major,
    compareSegment_numText hv.minor hw.minor, compareSegment_numText hv.patch hw.patch]
  cases compare v.patch w.patch <;> simp [Ordering.then]

theorem comparePrerelease_preText (hv : v.Exact) (hw : w.Exact) :
    comparePrerelease (if v.pre = [] then none else some v.preText)
      (if w.pre = [] then none else some w.preText) = comparePre v.pre w.pre := by
  by_cases hpv : v.pre = []
  · by_cases hpw : w.pre = []
    · rw [if_pos hpv, if_pos hpw, hpv, hpw]
      rfl
    · rw [if_pos hpv, if_neg hpw, hpv]
      cases hids : w.pre with
      | nil => exact absurd hids hpw
      | cons b bs => rfl
  · by_cases hpw : w.pre = []
    · rw [if_neg hpv, if_pos hpw, hpw]
      cases hids : v.pre with
      | nil => exact absurd hids hpv
      | cons a as => rfl
    · rw [if_neg hpv, if_neg hpw]
      change compareDotted v.preText w.preText = _
      unfold compareDotted
      rw [splitOn_preText v hpv, splitOn_preText w hpw, compareSegments_text hv.pre hw.pre]
      cases hids : v.pre with
      | nil => exact absurd hids hpv
      | cons a as =>
          cases hids' : w.pre with
          | nil => exact absurd hids' hpw
          | cons b bs => rfl

/-- On SemVer versions the comparison is precedence. -/
theorem compareVersions_text (hv : v.Exact) (hw : w.Exact) :
    compareVersions v.text w.text = precedence v w := by
  rw [compareVersions_eq, normalize_text, normalize_text, splitPrerelease_text,
    splitPrerelease_text, comparePrerelease_preText hv hw, compareDotted_mainText hv hw]
  unfold precedence
  cases compare v.major w.major <;> cases compare v.minor w.minor <;> rfl

end SemVer

/-! ## Both together -/

/-- A comparison whose signs are those of a total preorder. -/
structure IsTotalPreorderCmp (cmp : String → String → Ordering) : Prop where
  refl : ∀ a, cmp a a = .eq
  total : ∀ a b, (cmp a b).isLE = true ∨ (cmp b a).isLE = true
  trans : ∀ a b c, (cmp a b).isLE = true → (cmp b c).isLE = true → (cmp a c).isLE = true
  swap : ∀ a b, cmp a b = (cmp b a).swap

/-- **Version order.**  `compareVersions` is a total preorder on all texts, and SemVer precedence
on the texts of SemVer versions with numbers below `2 ^ 53`. -/
theorem compareVersions_order :
    IsTotalPreorderCmp compareVersions ∧
      ∀ v w : SemVer, v.Exact → w.Exact →
        compareVersions v.text w.text = SemVer.precedence v w := by
  have hcmp := transCmp_compareVersions
  refine ⟨⟨fun a => Std.ReflCmp.compare_self, ?_, fun a b c => hcmp.isLE_trans, fun a b => hcmp.eq_swap⟩,
    fun v w hv hw => SemVer.compareVersions_text hv hw⟩
  intro a b
  have hswap : compareVersions b a = (compareVersions a b).swap := hcmp.eq_swap
  rw [hswap]
  cases compareVersions a b <;> decide

end Intel
end Ctem
