import Ctem.Foundation.JsText

/-!
# Versions and affected ranges

`compareVersions` orders versions: dot segments numerically where they are
digits, a release above its prereleases, other segments as text.  `inRange` walks
the events of an OSV range, `versionAffected` the affected entries of an
advisory.

`versionAffected_iff` splits the walk into entries: some entry is spelled for the
package asked about and covers the version on its own.
-/

namespace Ctem
namespace Intel

open Foundation

/-! ## Versions -/

/-- Trimmed, without a leading `v` and without build metadata. -/
def normalize (v : List Char) : List Char :=
  let stripped :=
    match trimChars v with
    | 'v' :: rest => rest
    | 'V' :: rest => rest
    | other => other
  stripped.takeWhile fun c => decide (c ≠ '+')

/-- The part before the first dash, and the part behind it when there is a dash. -/
def splitPrerelease (v : List Char) : List Char × Option (List Char) :=
  (v.takeWhile fun c => decide (c ≠ '-'),
    match v.dropWhile fun c => decide (c ≠ '-') with
    | [] => none
    | _ :: pre => some pre)

/-- `Number(segment)` of a segment of digits. -/
def segmentNumber (seg : List Char) : Option (WithTop Nat) :=
  if isDigits seg then some (roundToDouble (digitsValue seg)) else none

/-- Text order of two segments, by UTF-16 code units. -/
def compareText (a b : List Char) : Ordering :=
  compareOfLessAndEq (utf16Units (String.ofList a)) (utf16Units (String.ofList b))

/-- One dot segment against another: numbers before text. -/
def compareSegment (a b : List Char) : Ordering :=
  match segmentNumber a, segmentNumber b with
  | some na, some nb => compareOfLessAndEq na nb
  | some _, none => .lt
  | none, some _ => .gt
  | none, none => compareText a b

/-- Segments from the left; a shorter run sorts first. -/
def compareSegments : List (List Char) → List (List Char) → Ordering
  | [], [] => .eq
  | [], _ :: _ => .lt
  | _ :: _, [] => .gt
  | a :: as, b :: bs => (compareSegment a b).then (compareSegments as bs)

/-- `compareDotted`. -/
def compareDotted (a b : List Char) : Ordering :=
  compareSegments (splitOn '.' a) (splitOn '.' b)

/-- `compareVersions`, with `.lt`, `.eq` and `.gt` for its -1, 0 and 1. -/
def compareVersions (a b : String) : Ordering :=
  let (mainA, preA) := splitPrerelease (normalize a.toList)
  let (mainB, preB) := splitPrerelease (normalize b.toList)
  (compareDotted mainA mainB).then
    (match preA, preB with
      | none, none => .eq
      | none, some _ => .gt
      | some _, none => .lt
      | some a, some b => compareDotted a b)

/-! ## Affected entries -/

structure OsvEvent where
  introduced : Option String := none
  fixed : Option String := none
  lastAffected : Option String := none
  limit : Option String := none
deriving DecidableEq, Repr

structure OsvRange where
  type : Option String := none
  events : List OsvEvent := []
deriving DecidableEq, Repr

structure OsvPackage where
  name : Option String := none
  ecosystem : Option String := none
deriving DecidableEq, Repr

/-- An `affected` entry of an advisory. -/
structure OsvAffected where
  package : OsvPackage := {}
  versions : List String := []
  ranges : List OsvRange := []
deriving DecidableEq, Repr

/-- `gte(version, introduced)`. -/
def gte (version introduced : String) : Bool :=
  decide (introduced = "0") || decide (compareVersions version introduced ≠ .lt)

/-- The event walk of `inRange`, with the version an open interval starts at. -/
def inRangeFrom (version : String) : Option String → List OsvEvent → Bool
  | openedAt, [] =>
      match openedAt with
      | none => false
      | some start => gte version start
  | openedAt, event :: events =>
      match event.introduced with
      | some introduced => inRangeFrom version (some introduced) events
      | none =>
          match openedAt with
          | none => inRangeFrom version none events
          | some start =>
              match event.fixed with
              | some fixed =>
                  (gte version start && decide (compareVersions version fixed = .lt)) ||
                    inRangeFrom version none events
              | none =>
                  match event.lastAffected with
                  | some last =>
                      (gte version start && decide (compareVersions version last ≠ .gt)) ||
                        inRangeFrom version none events
                  | none => inRangeFrom version (some start) events

/-- `inRange`. -/
def inRange (version : String) (events : List OsvEvent) : Bool :=
  inRangeFrom version none events

/-- A part of the package identity that both sides give must be the same text. -/
def samePart (wanted : String) (given : Option String) : Bool :=
  decide (wanted = "") || decide (given.getD "" = "") || decide (given = some wanted)

/-- The entry is spelled for the package, or leaves its parts out. -/
def spelledFor (ecosystem name : String) (entry : OsvAffected) : Bool :=
  samePart name entry.package.name && samePart ecosystem entry.package.ecosystem

/-- The entry covers the version: an explicit list decides alone, else a range
that is not one of commits. -/
def covers (version : String) (entry : OsvAffected) : Bool :=
  if entry.versions.isEmpty then
    entry.ranges.any fun range => decide (range.type ≠ some "GIT") && inRange version range.events
  else
    decide (version ∈ entry.versions) || decide ("v" ++ version ∈ entry.versions)

/-- The package a version is asked for; a missing part is the empty text. -/
structure PackageFilter where
  name : String := ""
  ecosystem : String := ""
deriving DecidableEq, Repr

/-- `versionAffected`. -/
def versionAffected (version : String) : List OsvAffected → PackageFilter → Bool
  | [], _ => false
  | entry :: entries, pkg =>
      if spelledFor pkg.ecosystem pkg.name entry then
        covers version entry || versionAffected version entries pkg
      else versionAffected version entries pkg

/-- A version is affected precisely when an entry spelled for the package covers it. -/
theorem versionAffected_iff {version : String} {affected : List OsvAffected} {pkg : PackageFilter} :
    versionAffected version affected pkg = true ↔
      ∃ entry ∈ affected, spelledFor pkg.ecosystem pkg.name entry = true ∧
        covers version entry = true := by
  induction affected with
  | nil => simp [versionAffected]
  | cons entry entries ih =>
      unfold versionAffected
      simp only [List.exists_mem_cons_iff, ← ih]
      by_cases hspelled : spelledFor pkg.ecosystem pkg.name entry = true
      · simp [hspelled]
      · simp [hspelled]

end Intel
end Ctem
