import Ctem.Foundation.PathText
import Ctem.Intel.RangeFold
import Ctem.Intel.FeedMappers
import Mathlib.Data.List.TakeWhile

/-!
# GitHub's version ranges

A `vulnerable_version_range` of GitHub is a list of constraints separated by commas.
`ghsaRangeToOsv` turns it into one OSV range, or into a list of versions when the constraints
name an exact version and no other bound.

* `GhsaConstraint` is a constraint with the spaces it is written with, and `Holds` its meaning
  under `compareVersions`; `rangeText` is the text of a conjunction.
* `rangeConstraints_rangeText`: the text is read back as these constraints.
* `exactList` tells the conjunctions that become a list of versions.
* `ghsaRange_covers` compares the constraints with what `versionAffected` answers.
-/

namespace Ctem
namespace Intel

open Foundation

/-! ## Constraints and their texts -/

inductive ConstraintOp where
  | ge
  | gt
  | le
  | lt
  | eq
deriving DecidableEq

namespace ConstraintOp

def chars : ConstraintOp → List Char
  | .ge => ['>', '=']
  | .gt => ['>']
  | .le => ['<', '=']
  | .lt => ['<']
  | .eq => ['=']

def constraint : ConstraintOp → String → Constraint
  | .ge => .ge
  | .gt => .gt
  | .le => .le
  | .lt => .lt
  | .eq => .eq

/-- The version is on the right side of the bound. -/
def Admits (op : ConstraintOp) (version bound : String) : Prop :=
  match op with
  | .ge => compareVersions version bound ≠ .lt
  | .gt => compareVersions version bound = .gt
  | .le => compareVersions version bound ≠ .gt
  | .lt => compareVersions version bound = .lt
  | .eq => compareVersions version bound = .eq

end ConstraintOp

/-- A line terminator, which `.` does not match. -/
def endsLine (c : Char) : Bool := decide (c.toNat ∈ [0x0A, 0x0D, 0x2028, 0x2029])

/-- The version of a constraint, with the spaces in front of the operator, behind it and behind
the version. -/
structure BoundText where
  lead : List Char := []
  gap : List Char := [' ']
  chars : List Char
  trail : List Char := []
  spaces : ∀ c ∈ lead ++ gap ++ trail, isJsSpace c = true
  ne_nil : chars ≠ []
  noSpaceFirst : ∀ c, chars.head? = some c → isJsSpace c = false
  noSpaceLast : ∀ c, chars.getLast? = some c → isJsSpace c = false
  noComma : ',' ∉ chars
  oneLine : chars.any endsLine = false
  /-- An equals sign directly behind the operator would be read as a part of it. -/
  apart : gap = [] → chars.head? ≠ some '='

def BoundText.version (b : BoundText) : String := String.ofList b.chars

structure GhsaConstraint where
  op : ConstraintOp
  bound : BoundText

namespace GhsaConstraint

def chars (k : GhsaConstraint) : List Char :=
  k.bound.lead ++ (k.op.chars ++ (k.bound.gap ++ k.bound.chars)) ++ k.bound.trail

/-- The version satisfies the constraint. -/
def Holds (k : GhsaConstraint) (version : String) : Prop := k.op.Admits version k.bound.version

/-- The constraint the mapper reads. -/
def read (k : GhsaConstraint) : Constraint := k.op.constraint k.bound.version

end GhsaConstraint

/-- The text of a conjunction. -/
def rangeText (ks : List GhsaConstraint) : String :=
  String.ofList ([','].intercalate (ks.map GhsaConstraint.chars))

/-! ## Reading the text back -/

section Parse

variable (b : BoundText)

theorem BoundText.isJsSpace_lead {c : Char} (hc : c ∈ b.lead) : isJsSpace c = true :=
  b.spaces c (by simp [hc])

theorem BoundText.isJsSpace_gap {c : Char} (hc : c ∈ b.gap) : isJsSpace c = true :=
  b.spaces c (by simp [hc])

theorem BoundText.isJsSpace_trail {c : Char} (hc : c ∈ b.trail) : isJsSpace c = true :=
  b.spaces c (by simp [hc])

theorem constraintVersion_bound (make : String → Constraint) :
    constraintVersion (b.gap ++ b.chars) make = some (make b.version) := by
  have hdrop : (b.gap ++ b.chars).dropWhile isJsSpace = b.chars := by
    rw [List.dropWhile_append_of_pos (fun c hc => b.isJsSpace_gap hc)]
    exact dropSpaces_of_head b.noSpaceFirst
  have htrim : trimChars b.chars = b.chars := by
    have h := @trimChars_around b.chars [] [] (by simp) (by simp) b.ne_nil
      b.noSpaceFirst b.noSpaceLast
    rwa [List.nil_append, List.append_nil] at h
  have hline : (b.chars.any fun c => decide (c.toNat ∈ [0x0A, 0x0D, 0x2028, 0x2029])) = false :=
    b.oneLine
  unfold constraintVersion
  simp only [hdrop, htrim, hline, Bool.false_eq_true, if_false]
  rw [if_neg (by simpa using b.ne_nil)]
  rfl

/-- Behind the operator comes no equals sign. -/
theorem BoundText.exists_cons : ∃ c cs, b.gap ++ b.chars = c :: cs ∧ c ≠ '=' := by
  cases hgap : b.gap with
  | nil =>
      cases hchars : b.chars with
      | nil => exact absurd hchars b.ne_nil
      | cons c cs =>
          have hne : b.chars.head? ≠ some '=' := b.apart hgap
          rw [hchars] at hne
          exact ⟨c, cs, rfl, fun heq => hne (by rw [heq]; rfl)⟩
  | cons c gap =>
      have hspace : isJsSpace c = true := b.isJsSpace_gap (by simp [hgap])
      refine ⟨c, gap ++ b.chars, rfl, ?_⟩
      rintro rfl
      exact absurd hspace (by decide)

end Parse

namespace GhsaConstraint

variable (k : GhsaConstraint)

theorem trimChars_chars : trimChars k.chars = k.op.chars ++ (k.bound.gap ++ k.bound.chars) := by
  refine trimChars_around (fun c hc => k.bound.isJsSpace_lead hc)
    (fun c hc => k.bound.isJsSpace_trail hc) ?_ ?_ ?_
  · cases k.op <;> exact List.cons_ne_nil _ _
  · intro c hc
    cases hop : k.op <;> rw [hop] at hc <;> cases hc <;> decide
  · intro c hc
    rw [List.getLast?_append_of_ne_nil _ (by simp [k.bound.ne_nil]),
      List.getLast?_append_of_ne_nil _ k.bound.ne_nil] at hc
    exact k.bound.noSpaceLast c hc

theorem parseConstraint_chars :
    parseConstraint (k.op.chars ++ (k.bound.gap ++ k.bound.chars)) = some k.read := by
  have hversion := constraintVersion_bound k.bound
  obtain ⟨c, cs, hcons, hne⟩ := k.bound.exists_cons
  unfold read
  rw [hcons] at hversion ⊢
  cases k.op with
  | ge => simp [ConstraintOp.chars, ConstraintOp.constraint, parseConstraint, hversion]
  | le => simp [ConstraintOp.chars, ConstraintOp.constraint, parseConstraint, hversion]
  | gt => simp [ConstraintOp.chars, ConstraintOp.constraint, parseConstraint, hversion, hne]
  | lt => simp [ConstraintOp.chars, ConstraintOp.constraint, parseConstraint, hversion, hne]
  | eq => simp [ConstraintOp.chars, ConstraintOp.constraint, parseConstraint, hversion, hne]

theorem noComma : ',' ∉ k.chars := by
  have hspace : ∀ c, isJsSpace c = true → c ≠ ',' := by
    rintro c hc rfl
    exact absurd hc (by decide)
  have hop : ',' ∉ k.op.chars := by cases k.op <;> decide
  unfold chars
  simp only [List.mem_append, not_or]
  exact ⟨⟨fun h => hspace _ (k.bound.isJsSpace_lead h) rfl, hop,
    fun h => hspace _ (k.bound.isJsSpace_gap h) rfl, k.bound.noComma⟩,
    fun h => hspace _ (k.bound.isJsSpace_trail h) rfl⟩

end GhsaConstraint

/-- The mapper reads the constraints of a range text. -/
theorem rangeConstraints_rangeText {ks : List GhsaConstraint} (hne : ks ≠ []) :
    rangeConstraints (rangeText ks) = ks.map GhsaConstraint.read := by
  have hsplit : splitOn ',' ([','].intercalate (ks.map GhsaConstraint.chars)) =
      ks.map GhsaConstraint.chars := by
    apply splitOn_intercalate (by simpa using hne)
    intro part hpart
    obtain ⟨k, -, rfl⟩ := List.mem_map.mp hpart
    exact k.noComma
  unfold rangeConstraints rangeText
  rw [String.toList_ofList, hsplit, List.map_map]
  clear hsplit hne
  induction ks with
  | nil => rfl
  | cons k ks ih =>
      have hparse := k.parseConstraint_chars
      have hcons : (k.op.chars ++ (k.bound.gap ++ k.bound.chars)).isEmpty = false := by
        cases k.op <;> rfl
      rw [List.map_cons, Function.comp_apply, k.trimChars_chars, List.filter_cons_of_pos,
        List.filterMap_cons_some hparse, ih, List.map_cons]
      rw [hcons]
      rfl

theorem isJsSpace_of_trimChars {cs : List Char} (h : trimChars cs = []) {c : Char} (hc : c ∈ cs) :
    isJsSpace c = true := by
  have hrest : ∀ d ∈ cs.dropWhile isJsSpace, isJsSpace d = true := by
    intro d hd
    rw [trimChars, List.reverse_eq_nil_iff, List.dropWhile_eq_nil_iff] at h
    exact h d (List.mem_reverse.mpr hd)
  rw [← List.takeWhile_append_dropWhile (p := isJsSpace) (l := cs), List.mem_append] at hc
  rcases hc with hc | hc
  · exact List.mem_takeWhile_imp hc
  · exact hrest c hc

/-- A range text is not blank: it has an operator. -/
theorem nonEmpty_rangeText {ks : List GhsaConstraint} (hne : ks ≠ []) :
    ∃ s, nonEmpty ((some (rangeText ks)).map trimText) = some s := by
  refine ⟨_, nonEmpty_eq_some.mpr ⟨rfl, ?_⟩⟩
  intro hblank
  have hnil : trimChars (rangeText ks).toList = [] := by
    rw [trimText, String.ofList_eq_empty_iff] at hblank
    exact hblank
  obtain ⟨k, hk⟩ := List.exists_mem_of_ne_nil ks hne
  have hmem : ∀ c ∈ k.op.chars, c ∈ (rangeText ks).toList := by
    intro c hc
    rw [rangeText, String.toList_ofList]
    refine mem_intercalate_of_mem (List.mem_map_of_mem hk) ?_
    simp [GhsaConstraint.chars, hc]
  have hspace : ∀ c ∈ k.op.chars, isJsSpace c = true :=
    fun c hc => isJsSpace_of_trimChars hnil (hmem c hc)
  cases hop : k.op <;> rw [hop] at hspace <;>
    exact absurd (hspace _ List.mem_cons_self) (by decide)

/-! ## The bounds of a conjunction -/

/-- The last constraint with one of these operators decides. -/
def lastBound (ops : ConstraintOp → Bool) (ks : List GhsaConstraint) : Option String :=
  ((ks.filter fun k => ops k.op).getLast?).map fun k => k.bound.version

/-- The lower bound: the last of `>=` and `>`. -/
def lowerBound (ks : List GhsaConstraint) : Option String :=
  lastBound (fun op => decide (op = .ge) || decide (op = .gt)) ks

/-- The bounds the mapper collects. -/
def boundsOf (ks : List GhsaConstraint) : RangeBounds where
  introduced := (lowerBound ks).getD "0"
  fixed := lastBound (fun op => decide (op = .lt)) ks
  lastAffected := lastBound (fun op => decide (op = .le)) ks
  exact := lastBound (fun op => decide (op = .eq)) ks

theorem lastBound_concat (ops : ConstraintOp → Bool) (ks : List GhsaConstraint)
    (k : GhsaConstraint) :
    lastBound ops (ks ++ [k]) =
      if ops k.op then some k.bound.version else lastBound ops ks := by
  unfold lastBound
  rw [List.filter_append, List.filter_cons, List.filter_nil]
  by_cases hop : ops k.op = true
  · rw [if_pos hop, if_pos hop, List.getLast?_concat, Option.map_some]
  · rw [if_neg hop, if_neg hop, List.append_nil]

/-- Each constraint is entered into its bound, over what an earlier one left there. -/
theorem foldl_add_eq (ks : List GhsaConstraint) :
    (ks.map GhsaConstraint.read).foldl RangeBounds.add {} = boundsOf ks := by
  induction ks using List.reverseRecOn with
  | nil => rfl
  | append_singleton ks k ih =>
      rw [List.map_append, List.foldl_append, ih]
      unfold boundsOf lowerBound GhsaConstraint.read
      simp only [lastBound_concat]
      cases hop : k.op <;> simp [RangeBounds.add, ConstraintOp.constraint, hop]

/-- The conjunctions that become a list of one version: an `=` and no other bound than a `>=` or
`>` of `"0"`. -/
def exactList (ks : List GhsaConstraint) : Option String :=
  if (boundsOf ks).fixed = none ∧ (boundsOf ks).lastAffected = none ∧
      (boundsOf ks).introduced = "0" then
    (boundsOf ks).exact
  else none

/-- The event that closes the interval of a conjunction. -/
def closingEvent (ks : List GhsaConstraint) (patched : Option String) : List OsvEvent :=
  match (boundsOf ks).fixed, (boundsOf ks).lastAffected with
  | some fixed, _ => [{ fixed := some fixed }]
  | none, some last => [{ lastAffected := some last }]
  | none, none => (nonEmpty patched).toList.map fun fixed => { fixed := some fixed }

/-- What the mapper answers for a conjunction. -/
theorem ghsaRangeToOsv_rangeText {ks : List GhsaConstraint} (hne : ks ≠ [])
    (patched : Option String) :
    ghsaRangeToOsv (some (rangeText ks)) patched =
      match exactList ks with
      | some exact => ([exact], [])
      | none => ([], [⟨some "SEMVER",
          { introduced := some (boundsOf ks).introduced } :: closingEvent ks patched⟩]) := by
  obtain ⟨s, hs⟩ := nonEmpty_rangeText hne
  unfold ghsaRangeToOsv
  rw [hs]
  simp only [Option.getD_some, rangeConstraints_rangeText hne, foldl_add_eq]
  unfold exactList closingEvent
  cases hexact : (boundsOf ks).exact <;> cases hfixed : (boundsOf ks).fixed <;>
    cases hlast : (boundsOf ks).lastAffected <;> simp
  by_cases hzero : (boundsOf ks).introduced = "0" <;> simp [hzero]

/-! ## What the entry reports -/

/-- The entry the mapper writes for a package. -/
def ghsaEntry (pkg : PackageFilter) (ks : List GhsaConstraint) (patched : Option String) :
    OsvAffected where
  package := ⟨some pkg.name, some pkg.ecosystem⟩
  versions := (ghsaRangeToOsv (some (rangeText ks)) patched).1
  ranges := (ghsaRangeToOsv (some (rangeText ks)) patched).2

/-- `versionAffected` reports the version for the entry of a conjunction. -/
def Reported (version : String) (pkg : PackageFilter) (ks : List GhsaConstraint)
    (patched : Option String) : Prop :=
  versionAffected version [ghsaEntry pkg ks patched] pkg = true

/-- The version, or the version behind a `v`, has this text. -/
def SpelledAs (version exact : String) : Prop := version = exact ∨ "v" ++ version = exact

/-- `>= bound`, with every version at least `"0"`. -/
def AtLeast (version bound : String) : Prop :=
  bound = "0" ∨ ConstraintOp.ge.Admits version bound

section Reports

variable {version : String} {pkg : PackageFilter} {ks : List GhsaConstraint}
  {patched : Option String}

theorem reported_iff_covers :
    Reported version pkg ks patched ↔ covers version (ghsaEntry pkg ks patched) = true := by
  have hspelled : spelledFor pkg.ecosystem pkg.name (ghsaEntry pkg ks patched) = true := by
    simp [spelledFor, samePart, ghsaEntry]
  unfold Reported versionAffected versionAffected
  rw [if_pos hspelled, Bool.or_false]

/-- An enumerated version is compared as text. -/
theorem reported_exact (hne : ks ≠ []) {exact : String} (hexact : exactList ks = some exact) :
    Reported version pkg ks patched ↔ SpelledAs version exact := by
  have hosv := ghsaRangeToOsv_rangeText hne patched
  rw [hexact] at hosv
  rw [reported_iff_covers]
  simp [covers, ghsaEntry, hosv, SpelledAs]

/-- Any other conjunction is one interval. -/
theorem reported_interval (hne : ks ≠ []) (hexact : exactList ks = none) :
    Reported version pkg ks patched ↔
      gte version (boundsOf ks).introduced = true ∧
        match (boundsOf ks).fixed, (boundsOf ks).lastAffected with
        | some fixed, _ => compareVersions version fixed = .lt
        | none, some last => compareVersions version last ≠ .gt
        | none, none => ∀ p, nonEmpty patched = some p → compareVersions version p = .lt := by
  have hosv := ghsaRangeToOsv_rangeText hne patched
  rw [hexact] at hosv
  rw [reported_iff_covers]
  unfold closingEvent at hosv
  cases hfixed : (boundsOf ks).fixed with
  | some fixed =>
      simp only [hfixed] at hosv
      simp [covers, ghsaEntry, hosv, inRange, inRangeFrom]
  | none =>
      cases hlast : (boundsOf ks).lastAffected with
      | some last =>
          simp only [hfixed, hlast] at hosv
          simp [covers, ghsaEntry, hosv, inRange, inRangeFrom]
      | none =>
          simp only [hfixed, hlast] at hosv
          cases hpatched : nonEmpty patched with
          | none => simp [covers, ghsaEntry, hosv, hpatched, inRange, inRangeFrom]
          | some p => simp [covers, ghsaEntry, hosv, hpatched, inRange, inRangeFrom]

theorem gte_eq_true {bound : String} : gte version bound = true ↔ AtLeast version bound := by
  unfold gte AtLeast ConstraintOp.Admits
  simp

/-- The deciding bound is the bound of a constraint. -/
theorem exists_of_lastBound {ops : ConstraintOp → Bool} {bound : String}
    (h : lastBound ops ks = some bound) :
    ∃ k ∈ ks, ops k.op = true ∧ k.bound.version = bound := by
  obtain ⟨k, hk, rfl⟩ := Option.map_eq_some_iff.mp h
  obtain ⟨hmem, hop⟩ := List.mem_filter.mp (List.mem_of_getLast? hk)
  exact ⟨k, hmem, hop, rfl⟩

theorem admits_of_lastBound (op : ConstraintOp) {bound : String}
    (hholds : ∀ k ∈ ks, k.Holds version)
    (h : lastBound (fun o => decide (o = op)) ks = some bound) : op.Admits version bound := by
  obtain ⟨k, hk, hop, rfl⟩ := exists_of_lastBound h
  have hk := hholds k hk
  rw [GhsaConstraint.Holds, of_decide_eq_true hop] at hk
  exact hk

/-- A version that satisfies the constraints is above the lower bound. -/
theorem atLeast_introduced (hholds : ∀ k ∈ ks, k.Holds version) :
    AtLeast version (boundsOf ks).introduced := by
  cases hlower : lowerBound ks with
  | none => exact Or.inl (by simp [boundsOf, hlower])
  | some bound =>
      have hintro : (boundsOf ks).introduced = bound := by simp [boundsOf, hlower]
      obtain ⟨k, hk, hop, rfl⟩ := exists_of_lastBound hlower
      have hk := hholds k hk
      rw [hintro]
      refine Or.inr ?_
      unfold GhsaConstraint.Holds at hk
      simp only [Bool.or_eq_true, decide_eq_true_eq] at hop
      rcases hop with hop | hop
      · rw [hop] at hk
        exact hk
      · rw [hop] at hk
        unfold ConstraintOp.Admits at hk ⊢
        dsimp only at hk ⊢
        rw [hk]
        decide

/-- A version that satisfies the constraints and is not patched is reported, an exact one when
it is spelled alike. -/
theorem reported_of_holds (hne : ks ≠ []) (hholds : ∀ k ∈ ks, k.Holds version)
    (hpatched : ∀ p, patched = some p → compareVersions version p = .lt)
    (hexact : ∀ exact, exactList ks = some exact → SpelledAs version exact) :
    Reported version pkg ks patched := by
  cases hlist : exactList ks with
  | some exact => exact (reported_exact hne hlist).mpr (hexact exact hlist)
  | none =>
      refine (reported_interval hne hlist).mpr ⟨gte_eq_true.mpr (atLeast_introduced hholds), ?_⟩
      cases hfixed : (boundsOf ks).fixed with
      | some fixed => exact admits_of_lastBound .lt hholds hfixed
      | none =>
          cases hlast : (boundsOf ks).lastAffected with
          | some last => exact admits_of_lastBound .le hholds hlast
          | none => exact fun p hp => hpatched p (nonEmpty_eq_some.mp hp).1

end Reports

/-- Version 1.0.0. -/
def release : BoundText where
  chars := ['1', '.', '0', '.', '0']
  spaces := by simp [isJsSpace]
  ne_nil := by simp
  noSpaceFirst := by simp [isJsSpace]
  noSpaceLast := by simp [isJsSpace]
  noComma := by simp
  oneLine := by decide
  apart := by simp

def zero : BoundText where
  chars := ['0']
  spaces := by simp [isJsSpace]
  ne_nil := by simp
  noSpaceFirst := by simp [isJsSpace]
  noSpaceLast := by simp [isJsSpace]
  noComma := by simp
  oneLine := by decide
  apart := by simp

end Intel
end Ctem
