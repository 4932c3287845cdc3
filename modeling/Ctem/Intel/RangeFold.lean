import Ctem.Foundation.IntervalMarks
import Ctem.Intel.VersionOrder

/-!
# OSV's evaluation of a range

OSV evaluates a range by a fold over its sorted events: an `introduced` at or below the version
sets a bit, a `fixed` at or below it and a `last_affected` below it clear the bit.  `inRange`
pairs an `introduced` with the event behind it instead, and takes a second `introduced` for a
new start of the interval that is open.

* `Version` is a version text in the order of `compareVersions`; an `introduced` of `"0"` is
  below all of them, so the events of a range stand at places of `WithBot Version`.
* `SortedRange` and `RangedEntry` are the ranges and entries both readings are compared on.
* `inRange_toOsv` and `osvVulnerable_eq` read the events as marks.
* `versionAffected_osv_iff` is the condition under which the two agree.
-/

namespace Ctem
namespace Intel

open Foundation
open Std (TransCmp OrientedCmp)

/-! ## Versions as an order -/

/-- A version text, in the order of `compareVersions`. -/
structure Version where
  text : String

instance : Preorder Version where
  le a b := (compareVersions a.text b.text).isLE = true
  lt a b := compareVersions a.text b.text = .lt
  le_refl a := by
    have := transCmp_compareVersions
    exact Std.ReflCmp.isLE_rfl
  le_trans a b c hab hbc := transCmp_compareVersions.isLE_trans hab hbc
  lt_iff_le_not_ge a b := by
    have := transCmp_compareVersions
    constructor
    · intro hlt
      exact ⟨Ordering.isLE_of_eq_lt hlt, OrientedCmp.not_isLE_of_lt hlt⟩
    · rintro ⟨-, hnot⟩
      exact OrientedCmp.lt_of_not_isLE hnot

instance : DecidableLE Version := fun a b =>
  inferInstanceAs (Decidable ((compareVersions a.text b.text).isLE = true))

instance : DecidableLT Version := fun a b =>
  inferInstanceAs (Decidable (compareVersions a.text b.text = .lt))

instance : Std.Total (α := Version) (· ≤ ·) where
  total a b := by
    have := transCmp_compareVersions
    rcases hcmp : compareVersions a.text b.text with - | - | -
    · exact Or.inl (Ordering.isLE_of_eq_lt hcmp)
    · exact Or.inl (Ordering.isLE_of_eq_eq hcmp)
    · exact Or.inr (Ordering.isLE_of_eq_lt (OrientedCmp.lt_of_gt hcmp))

section Comparison

variable {a b : String}

theorem le_iff_compareVersions : (⟨a⟩ : Version) ≤ ⟨b⟩ ↔ compareVersions a b ≠ .gt :=
  Ordering.isLE_iff_ne_gt

theorem ge_iff_compareVersions : (⟨b⟩ : Version) ≤ ⟨a⟩ ↔ compareVersions a b ≠ .lt := by
  have := transCmp_compareVersions
  rw [le_iff_compareVersions, Ne, OrientedCmp.gt_iff_lt]

theorem lt_iff_compareVersions : (⟨a⟩ : Version) < ⟨b⟩ ↔ compareVersions a b = .lt := Iff.rfl

end Comparison

/-! ## Events and their places -/

/-- An event of a range without `limit` events. -/
inductive RangeEvent where
  | introduced (version : String)
  | fixed (version : String)
  | lastAffected (version : String)

/-- The event as the advisory carries it. -/
def RangeEvent.toOsv : RangeEvent → OsvEvent
  | .introduced version => { introduced := some version }
  | .fixed version => { fixed := some version }
  | .lastAffected version => { lastAffected := some version }

/-- Where an `introduced` stands: `"0"` is below every version. -/
def introducedAt (version : String) : WithBot Version :=
  if version = "0" then ⊥ else ((⟨version⟩ : Version) : WithBot Version)

/-- The place of a version. -/
def versionAt (version : String) : WithBot Version := ((⟨version⟩ : Version) : WithBot Version)

/-- The event as a mark. -/
def RangeEvent.mark : RangeEvent → IntervalMark (WithBot Version)
  | .introduced version => .opened (introducedAt version)
  | .fixed version => .closedAt (versionAt version)
  | .lastAffected version => .closedAfter (versionAt version)

/-- One event of OSV's evaluation. -/
def osvStep (version : String) (vulnerable : Bool) : RangeEvent → Bool
  | .introduced v => if v = "0" ∨ compareVersions v version ≠ .gt then true else vulnerable
  | .fixed v => if compareVersions v version ≠ .gt then false else vulnerable
  | .lastAffected v => if compareVersions v version = .lt then false else vulnerable

/-- OSV's evaluation of the events of a range. -/
def osvVulnerable (version : String) (events : List RangeEvent) : Bool :=
  events.foldl (osvStep version) false

/-- The range types whose events are versions in order. -/
inductive RangeType where
  | semver
  | ecosystem

def RangeType.text : RangeType → String
  | .semver => "SEMVER"
  | .ecosystem => "ECOSYSTEM"

/-- A range whose events ascend. -/
structure SortedRange where
  type : RangeType
  events : List RangeEvent
  sorted : events.Pairwise fun e f => e.mark.place ≤ f.mark.place

namespace SortedRange

def toOsv (range : SortedRange) : OsvRange :=
  ⟨some range.type.text, range.events.map RangeEvent.toOsv⟩

def marks (range : SortedRange) : List (IntervalMark (WithBot Version)) :=
  range.events.map RangeEvent.mark

theorem ascending_marks (range : SortedRange) : Ascending range.marks :=
  List.pairwise_map.mpr range.sorted

end SortedRange

/-- An entry for a package, with ranges and without a list of versions. -/
structure RangedEntry (pkg : PackageFilter) where
  package : OsvPackage
  ranges : List SortedRange
  spelled : spelledFor pkg.ecosystem pkg.name { package } = true

def RangedEntry.toOsv {pkg : PackageFilter} (entry : RangedEntry pkg) : OsvAffected where
  package := entry.package
  ranges := entry.ranges.map SortedRange.toOsv

/-! ## The two readings -/

section Readings

variable {version : String}

theorem introducedAt_le {v : String} :
    introducedAt v ≤ versionAt version ↔ v = "0" ∨ compareVersions v version ≠ .gt := by
  unfold introducedAt versionAt
  split
  · next hzero => exact iff_of_true bot_le (Or.inl hzero)
  · next hne => rw [WithBot.coe_le_coe, le_iff_compareVersions, or_iff_right hne]

theorem gte_iff {v : String} : gte version v = true ↔ introducedAt v ≤ versionAt version := by
  unfold gte introducedAt versionAt
  rw [Bool.or_eq_true, decide_eq_true_eq, decide_eq_true_eq]
  split
  · next hzero => exact iff_of_true (Or.inl hzero) bot_le
  · next hne => rw [WithBot.coe_le_coe, ge_iff_compareVersions, or_iff_right hne]

/-- OSV's evaluation is the fold over the marks. -/
theorem osvVulnerable_eq (events : List RangeEvent) :
    osvVulnerable version events = foldMarks (versionAt version) (events.map RangeEvent.mark) := by
  unfold osvVulnerable foldMarks
  rw [List.foldl_map]
  congr 1
  funext vulnerable event
  cases event with
  | introduced v => simp only [osvStep, RangeEvent.mark, foldMark, introducedAt_le]
  | fixed v =>
      simp only [osvStep, RangeEvent.mark, foldMark, versionAt, WithBot.coe_le_coe,
        le_iff_compareVersions]
  | lastAffected v =>
      simp only [osvStep, RangeEvent.mark, foldMark, versionAt, WithBot.coe_lt_coe,
        lt_iff_compareVersions]

/-- The walk of the code is the pairing of the marks. -/
theorem inRangeFrom_toOsv (start : Option String) (events : List RangeEvent) :
    inRangeFrom version start (events.map RangeEvent.toOsv) =
      pairFrom (versionAt version) (start.map introducedAt) (events.map RangeEvent.mark) := by
  induction events generalizing start with
  | nil =>
      cases start with
      | none => rfl
      | some s =>
          rw [Bool.eq_iff_iff]
          simp only [List.map_nil, inRangeFrom, Option.map_some, pairFrom, gte_iff,
            decide_eq_true_eq]
  | cons event events ih =>
      cases event with
      | introduced v =>
          cases start <;> exact ih (some v)
      | fixed v =>
          cases start with
          | none => exact ih none
          | some s =>
              rw [Bool.eq_iff_iff]
              simp only [List.map_cons, RangeEvent.toOsv, RangeEvent.mark, inRangeFrom,
                Option.map_some, pairFrom, ih, Option.map_none, Bool.or_eq_true, Bool.and_eq_true,
                decide_eq_true_eq, gte_iff, versionAt, WithBot.coe_lt_coe, lt_iff_compareVersions]
      | lastAffected v =>
          cases start with
          | none => exact ih none
          | some s =>
              rw [Bool.eq_iff_iff]
              simp only [List.map_cons, RangeEvent.toOsv, RangeEvent.mark, inRangeFrom,
                Option.map_some, pairFrom, ih, Option.map_none, Bool.or_eq_true, Bool.and_eq_true,
                decide_eq_true_eq, gte_iff, versionAt, WithBot.coe_le_coe, le_iff_compareVersions]

theorem inRange_toOsv (range : SortedRange) :
    inRange version range.toOsv.events = pairMarks (versionAt version) range.marks :=
  inRangeFrom_toOsv none range.events

end Readings

/-! ## Where they agree -/

namespace SortedRange

variable (version : String) (range : SortedRange)

/-- An `introduced` at or below the version is followed by nothing, by a `fixed` above the
version or by a `last_affected` at or above it, and no later `fixed` is at or below it. -/
def Keeps : Prop := KeptIn (versionAt version) range.marks

/-- An `introduced` at or below the version is followed by a `last_affected` at or above it, and
a later `fixed` is at or below it: both stand at the version. -/
def CutsOff : Prop := CutOff (versionAt version) range.marks

/-- An `introduced` at or below the version is followed by an `introduced` above it. -/
def Shadows : Prop := Shadowed (versionAt version) range.marks

variable {version range}

theorem inRange_iff : inRange version range.toOsv.events = true ↔
    range.Keeps version ∨ range.CutsOff version := by
  rw [inRange_toOsv]
  exact pairMarks_iff_kept_or_cut

theorem osvVulnerable_iff : osvVulnerable version range.events = true ↔
    range.Keeps version ∨ range.Shadows version := by
  rw [osvVulnerable_eq]
  exact foldMarks_iff_kept_or_shadowed range.ascending_marks

end SortedRange

/-- The ranges of the entries for a package. -/
def rangesFor {pkg : PackageFilter} (affected : List (RangedEntry pkg)) : List SortedRange :=
  affected.flatMap RangedEntry.ranges

section Agreement

variable {version : String} {pkg : PackageFilter} {affected : List (RangedEntry pkg)}

/-- Without lists of versions, some range must cover the version. -/
theorem versionAffected_toOsv :
    versionAffected version (affected.map RangedEntry.toOsv) pkg = true ↔
      ∃ range ∈ rangesFor affected, inRange version range.toOsv.events = true := by
  have hcovers : ∀ entry : RangedEntry pkg, covers version entry.toOsv = true ↔
      ∃ range ∈ entry.ranges, inRange version range.toOsv.events = true := by
    intro entry
    have hgit : ∀ t : RangeType, some t.text ≠ some "GIT" := by
      intro t
      cases t <;> decide
    simp only [covers, RangedEntry.toOsv, List.isEmpty_nil, if_true, List.any_map,
      List.any_eq_true, Function.comp_apply, Bool.and_eq_true, decide_eq_true_eq]
    constructor
    · rintro ⟨range, hrange, -, hin⟩
      exact ⟨range, hrange, hin⟩
    · rintro ⟨range, hrange, hin⟩
      exact ⟨range, hrange, hgit range.type, hin⟩
  rw [versionAffected_iff]
  unfold rangesFor
  constructor
  · rintro ⟨_, hentry, -, hcover⟩
    obtain ⟨entry, hmem, rfl⟩ := List.mem_map.mp hentry
    obtain ⟨range, hrange, hin⟩ := (hcovers entry).mp hcover
    exact ⟨range, List.mem_flatMap.mpr ⟨entry, hmem, hrange⟩, hin⟩
  · rintro ⟨range, hmem, hin⟩
    obtain ⟨entry, hentry, hrange⟩ := List.mem_flatMap.mp hmem
    exact ⟨entry.toOsv, List.mem_map_of_mem hentry, entry.spelled,
      (hcovers entry).mpr ⟨range, hrange, hin⟩⟩

variable (version affected)

/-- The walk of the code answers as OSV's evaluation does exactly when some range keeps the
version, or when a range cuts it off just if a range shadows it. -/
theorem versionAffected_osv_iff :
    (versionAffected version (affected.map RangedEntry.toOsv) pkg = true ↔
        ∃ range ∈ rangesFor affected, osvVulnerable version range.events = true) ↔
      (∃ range ∈ rangesFor affected, range.Keeps version) ∨
        ((∃ range ∈ rangesFor affected, range.CutsOff version) ↔
          ∃ range ∈ rangesFor affected, range.Shadows version) := by
  rw [versionAffected_toOsv]
  simp only [SortedRange.inRange_iff, SortedRange.osvVulnerable_iff, and_or_left, exists_or]
  by_cases hkeeps : ∃ range ∈ rangesFor affected, range.Keeps version
  · exact iff_of_true (iff_of_true (Or.inl hkeeps) (Or.inl hkeeps)) (Or.inl hkeeps)
  · simp only [hkeeps, false_or]

end Agreement

/-- A package of the mirror with one entry of one range. -/
def oneRange (range : SortedRange) : RangedEntry ⟨"parser", "npm"⟩ where
  package := ⟨some "parser", some "npm"⟩
  ranges := [range]
  spelled := by decide

/-- Two `introduced` in a row: the walk starts the open interval anew at the second. -/
def introducedTwice : SortedRange where
  type := .semver
  events := [.introduced "1.0.0", .introduced "3.0.0", .fixed "5.0.0"]
  sorted := by decide +kernel

/-- A `fixed` at the version of the `last_affected` in front of it. -/
def fixedAtLast : SortedRange where
  type := .semver
  events := [.introduced "1.0.0", .lastAffected "2.0.0", .fixed "2.0.0"]
  sorted := by decide +kernel

/-- OSV finds version 2 in the first range only, the code in the second only. -/
theorem versionAffected_not_osv :
    ¬ (versionAffected "2.0.0" ([oneRange introducedTwice].map RangedEntry.toOsv)
          ⟨"parser", "npm"⟩ = true ↔
        ∃ range ∈ rangesFor [oneRange introducedTwice],
          osvVulnerable "2.0.0" range.events = true) ∧
      ¬ (versionAffected "2.0.0" ([oneRange fixedAtLast].map RangedEntry.toOsv)
          ⟨"parser", "npm"⟩ = true ↔
        ∃ range ∈ rangesFor [oneRange fixedAtLast],
          osvVulnerable "2.0.0" range.events = true) := by
  have honly : ∀ range, rangesFor [oneRange range] = [range] := fun range => rfl
  constructor
  · intro h
    have hmissed : versionAffected "2.0.0" ([oneRange introducedTwice].map RangedEntry.toOsv)
        ⟨"parser", "npm"⟩ = false := by decide +kernel
    have hfound : osvVulnerable "2.0.0" introducedTwice.events = true := by decide +kernel
    have hwalk := h.mpr ⟨introducedTwice, by rw [honly]; exact List.mem_singleton_self _, hfound⟩
    exact Bool.false_ne_true (hmissed.symm.trans hwalk)
  · intro h
    have hreported : versionAffected "2.0.0" ([oneRange fixedAtLast].map RangedEntry.toOsv)
        ⟨"parser", "npm"⟩ = true := by decide +kernel
    have hcleared : osvVulnerable "2.0.0" fixedAtLast.events = false := by decide +kernel
    obtain ⟨range, hrange, hosv⟩ := h.mp hreported
    rw [honly, List.mem_singleton] at hrange
    subst hrange
    exact Bool.false_ne_true (hcleared.symm.trans hosv)

end Intel
end Ctem
