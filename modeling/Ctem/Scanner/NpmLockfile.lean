import Mathlib.Data.List.Infix
import Ctem.Scanner.ImageInventory
import Ctem.Scanner.LockfileGraph
import Ctem.Scanner.RepoCheckout

/-!
# The packages map of an npm lockfile

A lockfile of version 2 or 3 lists every installed package under its location.  The
parser collapses the locations of one `name@version` into one component, resolves
the dependencies of each location as Node does, and looks for the shortest chains
from the packages the project itself depends on.

* `NpmLock` is the map: each location once, all of them relative.
* `installId?` says which locations are packages of a registry, `idByKey` lists them.
* `resolveNodeModule` climbs the `node_modules` directories; `resolveNodeModule_eq` is
  its loop.
* `parseNpmV2` is the parser.
-/

namespace Ctem
namespace Scanner

open Foundation

/-! ## The document -/

/-- One package of the map; of its dependencies only the names are read. -/
structure NpmPackage where
  name : Option String := none
  version : Option String := none
  resolved : Option String := none
  link : Bool := false
  dependencies : List String := []
  devDependencies : List String := []
  optionalDependencies : List String := []
deriving DecidableEq, Repr

/-- The packages by location. -/
structure NpmLock where
  packages : AssocMap String NpmPackage
  distinct : packages.keys.Nodup
  relative : ∀ key ∈ packages.keys, startsWith key "/" = false

/-! ## Names and locations -/

/-- The text in front of the last occurrence of `marker`, and the text behind it. -/
def cutLast (marker : List Char) : List Char → Option (List Char × List Char)
  | [] => none
  | c :: rest =>
      match cutLast marker rest with
      | some (before, after) => some (c :: before, after)
      | none =>
          if marker.isPrefixOf (c :: rest) then some ([], (c :: rest).drop marker.length) else none

def nodeId (name version : String) : String :=
  name ++ "@" ++ version

def nameFromNodeId (id : String) : String :=
  if startsWith id "@" then
    match cutLast ['@'] id.toList with
    | none => id
    | some (before, _) => if 0 < before.length then String.ofList before else id
  else String.ofList (id.toList.takeWhile fun c => decide (c ≠ '@'))

def nameFromLockKey (key : String) : String :=
  match cutLast "node_modules/".toList key.toList with
  | none => key
  | some (_, after) => String.ofList after

def isLocalResolved (resolved : Option String) : Bool :=
  match nonEmpty resolved with
  | none => false
  | some resolved =>
      startsWith resolved "file:" || startsWith resolved "link:" ||
        startsWith resolved "workspace:" || startsWith resolved "git+" ||
        startsWith resolved "github:"

/-- The id of a location, where it is an installed package of a registry. -/
def installId? (key : String) (pkg : NpmPackage) : Option String :=
  if includes key "node_modules/" then
    match nonEmpty pkg.version with
    | none => none
    | some version =>
        if pkg.link || isLocalResolved pkg.resolved then none
        else
          let name := pkg.name.getD (nameFromLockKey key)
          if name = "" then none else some (nodeId name version)
  else none

/-- Where `dep` is looked for from a directory. -/
def candidateIn (dir dep : String) : String :=
  if dir = "" then "node_modules/" ++ dep else dir ++ "/node_modules/" ++ dep

/-- The directory the next turn looks in. -/
def parentOf (dir : String) : String :=
  match cutLast "/node_modules/".toList dir.toList with
  | none => ""
  | some (before, _) => String.ofList before

/-- The loop of `resolveNodeModule`; each turn goes to a shorter directory. -/
def climb (keys : List String) (dep : String) : Nat → String → Option String
  | 0, _ => none
  | fuel + 1, current =>
      if candidateIn current dep ∈ keys then some (candidateIn current dep)
      else if current = "" then none
      else climb keys dep fuel (parentOf current)

def resolveNodeModule (fromKey dep : String) (keys : List String) : Option String :=
  climb keys dep (fromKey.length + 1) fromKey

theorem includes_iff (s part : String) :
    includes s part = true ↔ part.toList <:+: s.toList := by
  unfold includes
  simp only [List.any_eq_true, List.mem_tails, List.isPrefixOf_iff_prefix,
    List.infix_iff_prefix_suffix]
  constructor
  · rintro ⟨rest, hsuffix, hprefix⟩
    exact ⟨rest, hprefix, hsuffix⟩
  · rintro ⟨rest, hprefix, hsuffix⟩
    exact ⟨rest, hsuffix, hprefix⟩

theorem cutLast_eq_some {marker cs before after : List Char}
    (h : cutLast marker cs = some (before, after)) : cs = before ++ (marker ++ after) := by
  induction cs generalizing before with
  | nil => cases h
  | cons c rest ih =>
      unfold cutLast at h
      cases hrest : cutLast marker rest with
      | some parts =>
          obtain ⟨front, behind⟩ := parts
          rw [hrest] at h
          obtain ⟨rfl, rfl⟩ := Prod.mk.inj (Option.some.inj h)
          rw [List.cons_append, ← ih hrest]
      | none =>
          simp only [hrest] at h
          split at h
          · rename_i hmarker
            obtain ⟨rfl, rfl⟩ := Prod.mk.inj (Option.some.inj h)
            obtain ⟨behind, hbehind⟩ := List.isPrefixOf_iff_prefix.mp hmarker
            rw [← hbehind, List.drop_left, List.nil_append]
          · cases h

/-- A directory of the project itself is not below a `node_modules` directory. -/
theorem parentOf_firstParty {dir : String} (hdir : includes dir "node_modules/" = false) :
    parentOf dir = "" := by
  unfold parentOf
  cases hcut : cutLast "/node_modules/".toList dir.toList with
  | none => rfl
  | some parts =>
      obtain ⟨before, after⟩ := parts
      have hinfix : "node_modules/".toList <:+: dir.toList := by
        rw [cutLast_eq_some hcut]
        exact ⟨before ++ ['/'], after, by simp⟩
      rw [← includes_iff, hdir] at hinfix
      cases hinfix

theorem parentOf_length {dir : String} (hdir : dir ≠ "") :
    (parentOf dir).length < dir.length := by
  unfold parentOf
  cases hcut : cutLast "/node_modules/".toList dir.toList with
  | none => exact Nat.pos_of_ne_zero fun h => hdir (String.length_eq_zero_iff.mp h)
  | some parts =>
      obtain ⟨before, after⟩ := parts
      have hlength := congrArg List.length (cutLast_eq_some hcut)
      simp only [List.length_append, String.length_toList, String.reduceToList, List.length_cons]
        at hlength
      simp only [String.length_ofList]
      omega

/-- Once there is a turn for each character, more of them change nothing. -/
theorem climb_enough (keys : List String) (dep : String) (fuel : Nat) (current : String)
    (hfuel : current.length < fuel) :
    climb keys dep fuel current = climb keys dep (current.length + 1) current := by
  induction fuel using Nat.strong_induction_on generalizing current with
  | _ fuel ih =>
      cases fuel with
      | zero => cases hfuel
      | succ fuel =>
          rw [climb, climb]
          by_cases hroot : current = ""
          · simp only [if_pos hroot]
          · have hshorter := parentOf_length hroot
            rw [ih fuel (Nat.lt_succ_self fuel) _ (by omega)]
            rcases Nat.lt_or_ge current.length fuel with hlt | hge
            · rw [ih current.length (by omega) (parentOf current) hshorter]
            · have heq : fuel = current.length := by omega
              rw [← heq, ih fuel (Nat.lt_succ_self fuel) (parentOf current) (by omega)]

/-- The loop, turn by turn. -/
theorem resolveNodeModule_eq (current dep : String) (keys : List String) :
    resolveNodeModule current dep keys =
      if candidateIn current dep ∈ keys then some (candidateIn current dep)
      else if current = "" then none
      else resolveNodeModule (parentOf current) dep keys := by
  rw [resolveNodeModule, climb]
  by_cases hroot : current = ""
  · simp only [if_pos hroot]
  · rw [climb_enough keys dep current.length (parentOf current) (parentOf_length hroot)]
    rfl

/-- From the root there is one place to look in. -/
theorem resolveNodeModule_root (dep : String) (keys : List String) :
    resolveNodeModule "" dep keys =
      if candidateIn "" dep ∈ keys then some (candidateIn "" dep) else none := by
  rw [resolveNodeModule_eq, if_pos rfl]

/-- From a directory of the project there are two: its own and the root's. -/
theorem resolveNodeModule_firstParty {dir dep key : String} {keys : List String}
    (hdir : includes dir "node_modules/" = false)
    (h : resolveNodeModule dir dep keys = some key) :
    key ∈ keys ∧ (key = candidateIn dir dep ∨ key = candidateIn "" dep) := by
  have hroot : ∀ key, resolveNodeModule "" dep keys = some key →
      key ∈ keys ∧ key = candidateIn "" dep := by
    intro key hkey
    rw [resolveNodeModule_root] at hkey
    split at hkey
    · rename_i hmem
      obtain rfl := Option.some.inj hkey
      exact ⟨hmem, rfl⟩
    · cases hkey
  rw [resolveNodeModule_eq, parentOf_firstParty hdir] at h
  split at h
  · rename_i hmem
    obtain rfl := Option.some.inj h
    exact ⟨hmem, Or.inl rfl⟩
  · split at h
    · cases h
    · obtain ⟨hmem, heq⟩ := hroot key h
      exact ⟨hmem, Or.inr heq⟩

/-- What is found depends on which locations there are, not on their order. -/
theorem resolveNodeModule_congr {keys keys' : List String} (h : ∀ k, k ∈ keys ↔ k ∈ keys')
    (fromKey dep : String) :
    resolveNodeModule fromKey dep keys = resolveNodeModule fromKey dep keys' := by
  have hclimb : ∀ fuel current, climb keys dep fuel current = climb keys' dep fuel current := by
    intro fuel
    induction fuel with
    | zero => exact fun _ => rfl
    | succ fuel ih =>
        intro current
        rw [climb, climb, ih]
        simp only [h]
  exact hclimb _ fromKey

/-- A package in a `node_modules` directory that no other package owns, of a name that is
depended on. -/
def isDirectInstall (key name : String) (directNames : List String) : Bool :=
  if name ∉ directNames then false
  else if key = "node_modules/" ++ name then true
  else if endsWith key ("/node_modules/" ++ name) then
    !includes (String.ofList (key.toList.take
      (key.length - ("/node_modules/" ++ name).length))) "node_modules/"
  else false

/-- A location is a direct install when the name resolves to it from the root, or from a
directory of the project. -/
theorem isDirectInstall_iff {key name : String} {keys directNames : List String}
    (hkey : key ∈ keys) (hrelative : startsWith key "/" = false) :
    isDirectInstall key name directNames = true ↔ name ∈ directNames ∧
      ∃ dir, includes dir "node_modules/" = false ∧ resolveNodeModule dir name keys = some key := by
  unfold isDirectInstall
  by_cases hname : name ∈ directNames
  · rw [if_neg (not_not_intro hname)]
    simp only [hname, true_and]
    constructor
    · intro h
      split at h
      · rename_i htop
        have hcandidate : candidateIn "" name = key := htop.symm
        refine ⟨"", by decide +kernel, ?_⟩
        rw [resolveNodeModule_root, hcandidate, if_pos hkey]
      · split at h
        · rename_i hends
          obtain ⟨parent, hparent⟩ := List.isSuffixOf_iff_suffix.mp hends
          have htake : key.toList.take (key.length - ("/node_modules/" ++ name).length) =
              parent := by
            rw [← String.length_toList, ← String.length_toList, ← hparent, List.length_append,
              Nat.add_sub_cancel, List.take_left]
          rw [htake, Bool.not_eq_true'] at h
          have hdir : String.ofList parent ≠ "" := by
            intro hnil
            have hstart : startsWith key "/" = true := by
              rw [String.ofList_eq_empty_iff] at hnil
              unfold startsWith
              rw [← hparent, hnil, String.toList_append]
              rfl
            rw [hrelative] at hstart
            cases hstart
          have hcandidate : candidateIn (String.ofList parent) name = key := by
            unfold candidateIn
            rw [if_neg hdir, String.append_assoc]
            apply String.toList_injective
            rw [String.toList_append, String.toList_ofList, hparent]
          refine ⟨String.ofList parent, h, ?_⟩
          rw [resolveNodeModule_eq, hcandidate, if_pos hkey]
        · cases h
    · rintro ⟨dir, hdir, hresolve⟩
      by_cases htop : key = "node_modules/" ++ name
      · rw [if_pos htop]
      · obtain ⟨_, hcandidate | hcandidate⟩ := resolveNodeModule_firstParty hdir hresolve
        · unfold candidateIn at hcandidate
          by_cases hroot : dir = ""
          · rw [if_pos hroot] at hcandidate
            exact absurd hcandidate htop
          · rw [if_neg hroot, String.append_assoc] at hcandidate
            have hends : endsWith key ("/node_modules/" ++ name) = true := by
              unfold endsWith
              rw [hcandidate, List.isSuffixOf_iff_suffix]
              exact ⟨dir.toList, String.toList_append.symm⟩
            have htake : key.toList.take (key.length - ("/node_modules/" ++ name).length) =
                dir.toList := by
              rw [hcandidate, String.length_append, Nat.add_sub_cancel, String.toList_append,
                ← String.length_toList, List.take_left]
            rw [if_neg htop, if_pos hends, htake, String.ofList_toList, hdir]
            rfl
        · exact absurd hcandidate htop
  · simp [hname]

/-! ## The parser -/

/-- The dependencies of the project's own packages, those for development included. -/
def NpmPackage.declared (pkg : NpmPackage) : List String :=
  pkg.dependencies ++ pkg.devDependencies ++ pkg.optionalDependencies

/-- What an installed package needs at run time. -/
def NpmPackage.required (pkg : NpmPackage) : List String :=
  pkg.dependencies ++ pkg.optionalDependencies

namespace NpmLock

variable (lock : NpmLock)

def keys : List String := lock.packages.keys

/-- `packages[key] ?? {}`. -/
def packageAt (key : String) : NpmPackage :=
  (lock.packages.lookup? key).getD {}

/-- The installed packages, by location. -/
def idByKey : AssocMap String String :=
  lock.packages.filterMap fun e => (installId? e.1 e.2).map fun id => (e.1, id)

/-- What the root and the workspace packages depend on. -/
def directNames : List String :=
  (lock.packageAt "").declared ++ lock.packages.flatMap fun e =>
    if e.1 = "" ∨ includes e.1 "node_modules/" = true then [] else e.2.declared

/-- The components the dependencies of one location resolve to. -/
def nextIds (key : String) : List String :=
  (lock.packageAt key).required.filterMap fun dep =>
    (resolveNodeModule key dep lock.keys).bind lock.idByKey.lookup?

/-- One list of targets for each id: that of its last location. -/
def edges : AssocMap String (List String) :=
  AssocMap.groupFold (fun e : String × String => e.2) (fun e _ => lock.nextIds e.1) lock.idByKey

def directIds : List String :=
  (lock.idByKey.filter fun e =>
    isDirectInstall e.1 (nameFromNodeId e.2) lock.directNames).map Prod.snd

def paths : AssocMap String (List String) :=
  shortestPathsFromRoots lock.directIds lock.edges

/-- The component of an id, as its first location shows it. -/
def component (manifestPath : String) (key id : String) : ResolvedComponent :=
  let name := nameFromNodeId id
  let version := ((lock.packageAt key).version).getD ""
  let direct := isDirectInstall key name lock.directNames
  { purl := npmPurl name version
    name := name
    version := version
    ecosystem := "npm"
    direct := direct
    dependencyPath :=
      match lock.paths.lookup? id with
      | some path => path.map nameFromNodeId
      | none => if direct then [name] else []
    manifestPath := some manifestPath }

end NpmLock

/-- The locations whose id has not been `seen` before. -/
def firstInstalls : List String → AssocMap String String → AssocMap String String
  | _, [] => []
  | seen, (key, id) :: rest =>
      if id ∈ seen then firstInstalls seen rest else (key, id) :: firstInstalls (id :: seen) rest

/-- `parseNpmV2`. -/
def parseNpmV2 (lock : NpmLock) (manifestPath : String) : List ResolvedComponent :=
  (firstInstalls [] lock.idByKey).map fun e => lock.component manifestPath e.1 e.2

end Scanner
end Ctem
