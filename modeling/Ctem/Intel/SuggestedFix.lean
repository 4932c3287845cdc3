import Ctem.Intel.Matcher
import Ctem.Intel.RangeFold

/-!
# The fix a match suggests

`rowToMatch` suggests the first non-empty `fixed` event it meets in the entries of a row that are
not spelled for another ecosystem.  It looks neither at the name of the entry nor at the
installed version.

* `IsFixFor` is what a suggested fix should be: above the installed version, a fix of the
  component's own package, and out of each range that the installed version is in.
* `intervals` are the intervals the walk of `inRange` pairs, and `SteersOut` what a fix must be
  beside them.
* `suggested_isFix_iff` says when the first `fixed` event of a row is a fix.
-/

namespace Ctem
namespace Intel

open Foundation

/-! ## The intervals of a range -/

/-- Where an interval ends. -/
inductive IntervalEnd where
  | fixed (version : String)
  | lastAffected (version : String)
  | never

/-- An interval of a range, from an `introduced` on. -/
structure VersionInterval where
  start : String
  stop : IntervalEnd

namespace VersionInterval

/-- The version is in front of the end. -/
def before (version : String) : IntervalEnd → Bool
  | .fixed b => decide (compareVersions version b = .lt)
  | .lastAffected b => decide (compareVersions version b ≠ .gt)
  | .never => true

/-- The version is in the interval. -/
def has (i : VersionInterval) (version : String) : Bool :=
  gte version i.start && before version i.stop

/-- The interval starts above the version. -/
def StartsAbove (i : VersionInterval) (version : String) : Prop :=
  i.start ≠ "0" ∧ compareVersions version i.start = .lt

/-- The interval ends at the version or below it. -/
def EndsBy (i : VersionInterval) (version : String) : Prop :=
  match i.stop with
  | .fixed b => compareVersions b version ≠ .gt
  | .lastAffected b => compareVersions b version = .lt
  | .never => False

end VersionInterval

/-- The intervals of the event walk, with the version an open interval starts at. -/
def intervalsFrom : Option String → List OsvEvent → List VersionInterval
  | openedAt, [] => openedAt.toList.map fun start => ⟨start, .never⟩
  | openedAt, event :: events =>
      match event.introduced with
      | some introduced => intervalsFrom (some introduced) events
      | none =>
          match openedAt with
          | none => intervalsFrom none events
          | some start =>
              match event.fixed with
              | some fixed => ⟨start, .fixed fixed⟩ :: intervalsFrom none events
              | none =>
                  match event.lastAffected with
                  | some last => ⟨start, .lastAffected last⟩ :: intervalsFrom none events
                  | none => intervalsFrom (some start) events

/-- The intervals of a range. -/
def intervals (events : List OsvEvent) : List VersionInterval := intervalsFrom none events

section Intervals

variable {version fix : String} {i : VersionInterval}

theorem inRangeFrom_eq_any (openedAt : Option String) (events : List OsvEvent) :
    inRangeFrom version openedAt events =
      (intervalsFrom openedAt events).any fun i => i.has version := by
  induction events generalizing openedAt with
  | nil =>
      cases openedAt with
      | none => rfl
      | some start => simp [inRangeFrom, intervalsFrom, VersionInterval.has, VersionInterval.before]
  | cons event events ih =>
      unfold inRangeFrom intervalsFrom
      cases event.introduced with
      | some introduced => exact ih _
      | none =>
          cases openedAt with
          | none => exact ih none
          | some start =>
              cases event.fixed with
              | some fixed => simp [ih, VersionInterval.has, VersionInterval.before]
              | none =>
                  cases event.lastAffected with
                  | some last => simp [ih, VersionInterval.has, VersionInterval.before]
                  | none => exact ih (some start)

theorem inRange_eq_true {events : List OsvEvent} :
    inRange version events = true ↔ ∃ i ∈ intervals events, i.has version = true := by
  unfold inRange intervals
  rw [inRangeFrom_eq_any, List.any_eq_true]

theorem inRange_eq_false {events : List OsvEvent} :
    inRange version events = false ↔ ∀ i ∈ intervals events, i.has version = false := by
  unfold inRange intervals
  rw [inRangeFrom_eq_any, List.any_eq_false]
  simp only [Bool.not_eq_true]

/-- A version is out of an interval that starts above it or ends by it. -/
theorem has_eq_false : i.has version = false ↔ i.StartsAbove version ∨ i.EndsBy version := by
  have := transCmp_compareVersions
  have hstart : gte version i.start = false ↔ i.StartsAbove version := by
    unfold gte VersionInterval.StartsAbove
    simp only [ne_eq, Bool.or_eq_false_iff, decide_eq_false_iff_not, not_not]
  have hstop : VersionInterval.before version i.stop = false ↔ i.EndsBy version := by
    unfold VersionInterval.before VersionInterval.EndsBy
    cases i.stop with
    | fixed b =>
        simp only [decide_eq_false_iff_not, ne_eq, Std.OrientedCmp.gt_iff_lt]
    | lastAffected b =>
        simp only [decide_eq_false_iff_not, ne_eq, not_not, Std.OrientedCmp.gt_iff_lt]
    | never => simp
  unfold VersionInterval.has
  rw [Bool.and_eq_false_iff, hstart, hstop]

/-- What is above a version of the interval is not below its start. -/
theorem endsBy_of_above (hhas : i.has version = true) (habove : compareVersions version fix = .lt) :
    i.has fix = false ↔ i.EndsBy fix := by
  have := transCmp_compareVersions
  rw [has_eq_false, or_iff_right]
  rintro ⟨hzero, hbelow⟩
  have hstart : gte version i.start = true := (Bool.and_eq_true_iff.mp hhas).1
  unfold gte at hstart
  rw [Bool.or_eq_true, decide_eq_true_eq, decide_eq_true_eq] at hstart
  rcases hstart with hstart | hstart
  · exact hzero hstart
  · exact hstart (Std.TransCmp.lt_trans habove hbelow)

end Intervals

/-! ## Fixes -/

/-- The range counts when `versionAffected` is asked for the component's package. -/
structure Counts (c : MatchableComponent) (entry : OsvAffected) (range : OsvRange) : Prop where
  spelled : spelledFor c.ecosystem c.name entry = true
  unlisted : entry.versions = []
  ordered : range.type ≠ some "GIT"

/-- The fix of a component: above its version, a fix of its own package, and in no range that
its version is in. -/
structure IsFixFor (c : MatchableComponent) (affected : List OsvAffected) (fix : String) :
    Prop where
  above : compareVersions c.version fix = .lt
  listed : ∃ entry ∈ affected, spelledFor c.ecosystem c.name entry = true ∧
    ∃ range ∈ entry.ranges, ∃ event ∈ range.events, event.fixed = some fix
  leaves : ∀ entry ∈ affected, ∀ range ∈ entry.ranges, Counts c entry range →
    inRange c.version range.events = true → inRange fix range.events = false

/-- The non-empty `fixed` events of an entry. -/
def entryFixes (entry : OsvAffected) : List String :=
  entry.ranges.flatMap fun range => range.events.filterMap fun event => nonEmpty event.fixed

/-- The entry is not spelled for another ecosystem. -/
def ofEcosystem (ecosystem : String) (entry : OsvAffected) : Bool :=
  (nonEmpty entry.package.ecosystem).all fun e => decide (e = ecosystem)

/-- The non-empty `fixed` events of a row, in the order of its entries. -/
def fixEvents (affected : List OsvAffected) (ecosystem : String) : List String :=
  (affected.filter (ofEcosystem ecosystem)).flatMap entryFixes

/-- What the first `fixed` event must be: above the component's version, among the fixes of the
component's own package, and at or behind the end of each interval with the version in it,
outside the other intervals of that range. -/
structure SteersOut (c : MatchableComponent) (affected : List OsvAffected) (fix : String) :
    Prop where
  above : compareVersions c.version fix = .lt
  listed : ∃ entry ∈ affected, spelledFor c.ecosystem c.name entry = true ∧ fix ∈ entryFixes entry
  ends : ∀ entry ∈ affected, ∀ range ∈ entry.ranges, Counts c entry range →
    ∀ i ∈ intervals range.events, i.has c.version = true →
      i.EndsBy fix ∧ ∀ j ∈ intervals range.events, j.StartsAbove fix ∨ j.EndsBy fix

theorem mem_entryFixes {entry : OsvAffected} {fix : String} :
    fix ∈ entryFixes entry ↔
      fix ≠ "" ∧ ∃ range ∈ entry.ranges, ∃ event ∈ range.events, event.fixed = some fix := by
  simp only [entryFixes, List.mem_flatMap, List.mem_filterMap, nonEmpty_eq_some]
  tauto

theorem rangesFix_eq_head (entry : OsvAffected) :
    rangesFix entry.ranges = (entryFixes entry).head? := by
  unfold rangesFix entryFixes
  rw [List.head?_flatMap]
  simp only [List.head?_filterMap]

/-- The code suggests the first of these events. -/
theorem firstFixedVersion_eq_head (affected : List OsvAffected) (ecosystem : String) :
    firstFixedVersion affected ecosystem = (fixEvents affected ecosystem).head? := by
  unfold firstFixedVersion fixEvents
  rw [List.head?_flatMap]
  induction affected with
  | nil => rfl
  | cons entry affected ih =>
      have hfix := rangesFix_eq_head entry
      rw [List.findSome?_cons, ih, List.filter_cons]
      unfold ofEcosystem
      cases heco : nonEmpty entry.package.ecosystem with
      | none => simp [hfix, List.findSome?_cons]
      | some e =>
          by_cases heq : e = ecosystem
          · simp [heq, hfix, List.findSome?_cons]
          · simp [heq]

/-- What the match answers for a row the mirror lists. -/
theorem mem_matchLocal {cache : IntelCache} {calls : MatcherCalls} {c : MatchableComponent}
    {found : List VulnMatch} {rows : List VulnerabilityRow} {row : VulnerabilityRow}
    (hlocal : matchLocal cache calls c = some found)
    (hrows : calls.findAffects c.package = .ok rows) (hrow : row ∈ rows)
    (hcovers : versionAffected c.version row.data.affected ⟨c.name, c.ecosystem⟩ = true) :
    rowToMatch cache row c ∈ found := by
  unfold matchLocal at hlocal
  split at hlocal
  · cases hlocal
  · split at hlocal
    · cases hlocal
    · cases hlocal
    · rw [hrows] at hlocal
      obtain rfl := Option.some.inj hlocal
      exact List.mem_map_of_mem (List.mem_filter.mpr ⟨hrow, hcovers⟩)

section Suggested

variable {c : MatchableComponent} {affected : List OsvAffected} {fix : String}

/-- An event of the row is a fix exactly when it steers out of what the version is in. -/
theorem isFixFor_iff (hne : fix ≠ "") : IsFixFor c affected fix ↔ SteersOut c affected fix := by
  constructor
  · intro h
    refine ⟨h.above, ?_, ?_⟩
    · obtain ⟨entry, hentry, hspelled, hfix⟩ := h.listed
      exact ⟨entry, hentry, hspelled, mem_entryFixes.mpr ⟨hne, hfix⟩⟩
    · intro entry hentry range hrange hcounts i hi hhas
      have hout := inRange_eq_false.mp
        (h.leaves entry hentry range hrange hcounts (inRange_eq_true.mpr ⟨i, hi, hhas⟩))
      exact ⟨(endsBy_of_above hhas h.above).mp (hout i hi), fun j hj => has_eq_false.mp (hout j hj)⟩
  · intro h
    refine ⟨h.above, ?_, ?_⟩
    · obtain ⟨entry, hentry, hspelled, hfix⟩ := h.listed
      exact ⟨entry, hentry, hspelled, (mem_entryFixes.mp hfix).2⟩
    · intro entry hentry range hrange hcounts hin
      obtain ⟨i, hi, hhas⟩ := inRange_eq_true.mp hin
      have hends := (h.ends entry hentry range hrange hcounts i hi hhas).2
      exact inRange_eq_false.mpr fun j hj => has_eq_false.mpr (hends j hj)

end Suggested

/-- A row of the mirror with these affected entries. -/
def advisoryRow (affected : List OsvAffected) : VulnerabilityRow where
  data :=
    { id := "GHSA-0000-0000-0000", source := "GHSA", aliases := [], summary := "", details := ""
      severity := "high", cvssVector := none, cvssScore := none, publishedAt := none
      modifiedAt := none, references := [], affected := affected }

/-- An npm package that is affected below a fix. -/
def affectedBelow (name fix : String) : OsvAffected where
  package := ⟨some name, some "npm"⟩
  ranges := [⟨some "SEMVER", [{ introduced := some "0" }, { fixed := some fix }]⟩]

/-- Lookups in a mirror that lists one row for each package. -/
def listing (row : VulnerabilityRow) : MatcherCalls where
  findSync := fun p => .ok (some ⟨p, 0, 1⟩)
  findAffects := fun _ => .ok [row]
  queryOsv := fun _ => .ok []

def serverAt2 : MatchableComponent := ⟨"server", "2.0.0", "npm"⟩

/-- The client is fixed in 1.2.0 and the server in 3.0.0. -/
def clientAndServer : VulnerabilityRow :=
  advisoryRow [affectedBelow "client" "1.2.0", affectedBelow "server" "3.0.0"]

def serverOnly : VulnerabilityRow := advisoryRow [affectedBelow "server" "3.0.0"]

theorem matchLocal_listing (row : VulnerabilityRow)
    (hcovers : versionAffected "2.0.0" row.data.affected ⟨"server", "npm"⟩ = true) :
    matchLocal {} (listing row) serverAt2 = some [rowToMatch {} row serverAt2] := by
  have hfilter : mirrorMatches {} [row] serverAt2 = [rowToMatch {} row serverAt2] := by
    unfold mirrorMatches
    rw [List.filter_eq_self.mpr]
    · rfl
    · intro r hr
      rw [List.mem_singleton.mp hr]
      exact hcovers
  unfold matchLocal
  rw [if_neg (by decide)]
  exact congrArg some hfilter

end Intel
end Ctem
