import Mathlib.Data.List.Perm.Basic
import Ctem.Scanner.NpmLockfile

/-!
# The components of an npm lockfile

What the parser of the packages map reports, for every tree of installs.

* `Installed` says that a location holds a component, `DirectInstall` that the project
  itself depends on it, `DependsOn` that one component has an install whose dependency
  resolves to an install of another.
* `Reached` is Node's resolution followed from the project's own packages.
* `ComponentSound` holds for every map.  `ComponentComplete` asks for `InstallsAgree`:
  one list of targets and one flag is kept for each `name@version`, which is the right
  one where its installs do not differ.
* `parseNpmV2_perm` reorders the map.
-/

namespace Ctem
namespace Scanner

open Foundation

namespace NpmLock

variable (lock : NpmLock)

/-! ## Installs -/

/-- A location with the component it holds. -/
def Installed (key id : String) : Prop := lock.idByKey.lookup? key = some id

/-- An install that a name the project depends on resolves to. -/
def DirectInstall (key id : String) : Prop :=
  lock.Installed key id ∧ nameFromNodeId id ∈ lock.directNames ∧
    ∃ dir, includes dir "node_modules/" = false ∧
      resolveNodeModule dir (nameFromNodeId id) lock.keys = some key

/-- An install of `a` needs something that resolves to an install of `b`. -/
def DependsOn (a b : String) : Prop :=
  ∃ key, lock.Installed key a ∧ ∃ dep ∈ (lock.packageAt key).required,
    ∃ target, resolveNodeModule key dep lock.keys = some target ∧ lock.Installed target b

theorem nodup_keys_idByKey : lock.idByKey.keys.Nodup := by
  have hsublist : ∀ m : AssocMap String NpmPackage,
      (AssocMap.keys (m.filterMap fun e =>
        (installId? e.1 e.2).map fun id => (e.1, id))).Sublist m.keys := by
    intro m
    induction m with
    | nil => exact List.Sublist.slnil
    | cons e rest ih =>
        rw [List.filterMap_cons]
        cases installId? e.1 e.2 with
        | none => exact List.Sublist.cons _ ih
        | some id => exact List.Sublist.cons_cons _ ih
  exact (hsublist lock.packages).nodup lock.distinct

theorem installed_iff_mem (key id : String) :
    lock.Installed key id ↔ (key, id) ∈ lock.idByKey :=
  AssocMap.lookup?_eq_some_iff lock.nodup_keys_idByKey key id

/-- An install has a location of the map. -/
theorem Installed.mem_keys {lock : NpmLock} {key id : String} (h : lock.Installed key id) :
    key ∈ lock.keys := by
  obtain ⟨e, he, hid⟩ := List.mem_filterMap.mp ((lock.installed_iff_mem key id).mp h)
  obtain ⟨_, _, heq⟩ := Option.map_eq_some_iff.mp hid
  obtain rfl : e.1 = key := congrArg Prod.fst heq
  exact List.mem_map_of_mem he

theorem directInstall_iff (key id : String) :
    lock.DirectInstall key id ↔ lock.Installed key id ∧
      isDirectInstall key (nameFromNodeId id) lock.directNames = true := by
  unfold DirectInstall
  constructor
  · rintro ⟨hinstalled, hdirect⟩
    have hkey := hinstalled.mem_keys
    exact ⟨hinstalled, (isDirectInstall_iff hkey (lock.relative key hkey)).mpr hdirect⟩
  · rintro ⟨hinstalled, hdirect⟩
    have hkey := hinstalled.mem_keys
    exact ⟨hinstalled, (isDirectInstall_iff hkey (lock.relative key hkey)).mp hdirect⟩

theorem mem_directIds (id : String) : id ∈ lock.directIds ↔ ∃ key, lock.DirectInstall key id := by
  unfold directIds
  simp only [List.mem_map, List.mem_filter, directInstall_iff, installed_iff_mem]
  constructor
  · rintro ⟨⟨key, id⟩, hdirect, rfl⟩
    exact ⟨key, hdirect⟩
  · rintro ⟨key, hdirect⟩
    exact ⟨(key, id), hdirect, rfl⟩

theorem mem_nextIds (key id : String) :
    id ∈ lock.nextIds key ↔ ∃ dep ∈ (lock.packageAt key).required,
      ∃ target, resolveNodeModule key dep lock.keys = some target ∧ lock.Installed target id := by
  unfold nextIds Installed
  simp only [List.mem_filterMap, Option.bind_eq_some_iff]

/-- The targets of an id are those of one of its installs. -/
theorem targetsOf_edges (id : String) :
    targetsOf lock.edges id = [] ∧ (∀ key, ¬ lock.Installed key id) ∨
      ∃ key, lock.Installed key id ∧ targetsOf lock.edges id = lock.nextIds key := by
  unfold targetsOf edges
  rw [AssocMap.lookup?_groupFold_last]
  cases hlast : (lock.idByKey.filter fun e => decide (e.2 = id)).getLast? with
  | none =>
      refine Or.inl ⟨rfl, ?_⟩
      intro key hkey
      rw [List.getLast?_eq_none_iff, List.filter_eq_nil_iff] at hlast
      exact hlast (key, id) ((lock.installed_iff_mem key id).mp hkey) (decide_eq_true rfl)
  | some e =>
      obtain ⟨hmem, hid⟩ := List.mem_filter.mp (List.mem_of_getLast? hlast)
      refine Or.inr ⟨e.1, ?_, rfl⟩
      rw [installed_iff_mem, ← of_decide_eq_true hid]
      exact hmem

theorem dependsOn_of_mem {a b : String} (h : b ∈ targetsOf lock.edges a) : lock.DependsOn a b := by
  obtain ⟨hnil, _⟩ | ⟨key, hkey, heq⟩ := lock.targetsOf_edges a
  · rw [hnil] at h
    cases h
  · rw [heq] at h
    exact ⟨key, hkey, (lock.mem_nextIds key b).mp h⟩

/-! ## What holds for every map -/

/-- A chain of resolved dependencies from a direct install to the component. -/
structure ResolvedChain (id : String) (chain : List String) : Prop where
  starts : ∃ key first, lock.DirectInstall key first ∧ chain.head? = some first
  linked : chain.IsChain lock.DependsOn
  ends : chain.getLast? = some id

/-- What is reported of a component is so. -/
structure ComponentSound (id : String) (c : ResolvedComponent) : Prop where
  name : c.name = nameFromNodeId id
  direct : c.direct = true → ∃ key, lock.DirectInstall key id
  real : c.dependencyPath ≠ [] → ∃ chain, lock.ResolvedChain id chain ∧
    c.dependencyPath = chain.map nameFromNodeId

theorem resolvedChain_of_lookup {id : String} {path : List String}
    (h : lock.paths.lookup? id = some path) : lock.ResolvedChain id path := by
  have hchain := (shortestPathsFromRoots_spec lock.directIds lock.edges).chains id path h
  obtain ⟨root, hroot, hhead⟩ := hchain.starts
  obtain ⟨key, hkey⟩ := (lock.mem_directIds root).mp hroot
  exact ⟨⟨key, root, hkey, hhead⟩,
    hchain.linked.imp fun _ _ hedge => lock.dependsOn_of_mem hedge, hchain.ends⟩

/-- A direct install has a chain of its own. -/
theorem mem_paths_of_directInstall {key id : String} (h : lock.DirectInstall key id) :
    id ∈ lock.paths.keys :=
  ((shortestPathsFromRoots_spec lock.directIds lock.edges).reachable id).mpr
    ⟨id, (lock.mem_directIds id).mpr ⟨key, h⟩, Relation.ReflTransGen.refl⟩

/-- A component with a chain has it as its path. -/
theorem component_path {manifestPath key id : String} {path : List String}
    (h : lock.paths.lookup? id = some path) :
    (lock.component manifestPath key id).dependencyPath = path.map nameFromNodeId := by
  unfold component
  simp only [h]

theorem component_sound (manifestPath : String) {key id : String}
    (h : lock.Installed key id) : lock.ComponentSound id (lock.component manifestPath key id) where
  name := rfl
  direct := by
    intro hdirect
    exact ⟨key, (lock.directInstall_iff key id).mpr ⟨h, hdirect⟩⟩
  real := by
    intro hpath
    cases hlookup : lock.paths.lookup? id with
    | some path =>
        exact ⟨path, lock.resolvedChain_of_lookup hlookup, lock.component_path hlookup⟩
    | none =>
        -- Without a chain it is not direct either, and its path is empty.
        have hdirect : isDirectInstall key (nameFromNodeId id) lock.directNames = false := by
          rw [Bool.eq_false_iff]
          intro hdirect
          have hmem := lock.mem_paths_of_directInstall
            ((lock.directInstall_iff key id).mpr ⟨h, hdirect⟩)
          rw [← AssocMap.isSome_lookup?, hlookup] at hmem
          cases hmem
        refine absurd ?_ hpath
        unfold component
        simp only [hlookup, hdirect]
        rfl

/-! ## What holds where the installs agree -/

/-- The installs of one `name@version` have one version, are direct together or not at
all, and need the same components. -/
structure InstallsAgree : Prop where
  version : ∀ key key' id, lock.Installed key id → lock.Installed key' id →
    (lock.packageAt key).version = (lock.packageAt key').version
  direct : ∀ key key' id, lock.Installed key id → lock.Installed key' id →
    lock.DirectInstall key id → lock.DirectInstall key' id
  targets : ∀ key key' id, lock.Installed key id → lock.Installed key' id →
    ∀ next ∈ lock.nextIds key, next ∈ lock.nextIds key'

/-- They agree where each `name@version` is installed once. -/
theorem installsAgree_of_nodup (h : lock.idByKey.values.Nodup) : lock.InstallsAgree := by
  have hkey : ∀ key key' id, lock.Installed key id → lock.Installed key' id → key = key' := by
    intro key key' id hkey hkey'
    have heq := List.inj_on_of_nodup_map h ((lock.installed_iff_mem key id).mp hkey)
      ((lock.installed_iff_mem key' id).mp hkey') rfl
    exact congrArg Prod.fst heq
  refine ⟨?_, ?_, ?_⟩ <;> intro key key' id hfirst hsecond
  · rw [hkey key key' id hfirst hsecond]
  · rw [hkey key key' id hfirst hsecond]
    exact fun hdirect => hdirect
  · rw [hkey key key' id hfirst hsecond]
    exact fun _ hnext => hnext

/-- The installs Node finds from the packages of the project: those that the root or a
workspace package depends on under their own name, and what they need in turn. -/
inductive Reached : String → String → Prop
  | declared {dir dep key id : String} (hdir : dir ∈ lock.keys)
      (hown : includes dir "node_modules/" = false) (hdep : dep ∈ (lock.packageAt dir).declared)
      (hresolve : resolveNodeModule dir dep lock.keys = some key)
      (hkey : lock.Installed key id) (hname : nameFromNodeId id = dep) : Reached key id
  | required {key id dep target next : String} (hreached : Reached key id)
      (hdep : dep ∈ (lock.packageAt key).required)
      (hresolve : resolveNodeModule key dep lock.keys = some target)
      (htarget : lock.Installed target next) : Reached target next

/-- What is to be reported is. -/
structure ComponentComplete (id : String) (c : ResolvedComponent) : Prop where
  direct : c.direct = true ↔ ∃ key, lock.DirectInstall key id
  reached : (∃ key, lock.Reached key id) → c.dependencyPath ≠ []

theorem mem_directNames {dir dep : String} (hdir : dir ∈ lock.keys)
    (hown : includes dir "node_modules/" = false)
    (hdep : dep ∈ (lock.packageAt dir).declared) : dep ∈ lock.directNames := by
  unfold directNames
  by_cases hroot : dir = ""
  · rw [hroot] at hdep
    exact List.mem_append_left _ hdep
  · obtain ⟨pkg, hpkg⟩ := Option.isSome_iff_exists.mp
      ((AssocMap.isSome_lookup? lock.packages dir).mpr hdir)
    refine List.mem_append_right _ (List.mem_flatMap.mpr
      ⟨(dir, pkg), AssocMap.mem_of_lookup? hpkg, ?_⟩)
    rw [if_neg (by simp [hroot, hown])]
    unfold packageAt at hdep
    rw [hpkg] at hdep
    exact hdep

theorem Reached.installed {lock : NpmLock} {key id : String} (h : lock.Reached key id) :
    lock.Installed key id := by
  cases h with
  | declared _ _ _ _ hkey _ => exact hkey
  | required _ _ _ htarget => exact htarget

section Agree

variable {lock}
variable (hagree : lock.InstallsAgree)
include hagree

/-- The targets kept for an id are those of each of its installs. -/
theorem InstallsAgree.mem_targetsOf {key id next : String} (hkey : lock.Installed key id) :
    next ∈ targetsOf lock.edges id ↔ next ∈ lock.nextIds key := by
  obtain ⟨_, hnone⟩ | ⟨other, hother, heq⟩ := lock.targetsOf_edges id
  · exact absurd hkey (hnone key)
  · rw [heq]
    exact ⟨hagree.targets other key id hother hkey next,
      hagree.targets key other id hkey hother next⟩

/-- What Node finds has a chain; the induction follows its resolution. -/
theorem InstallsAgree.mem_paths {key id : String} (h : lock.Reached key id) :
    id ∈ lock.paths.keys := by
  induction h with
  | declared hdir hown hdep hresolve hkey hname =>
      exact lock.mem_paths_of_directInstall ⟨hkey,
        hname ▸ lock.mem_directNames hdir hown hdep, _, hown, hname ▸ hresolve⟩
  | required hreached hdep hresolve htarget ih =>
      have hspec := shortestPathsFromRoots_spec lock.directIds lock.edges
      obtain ⟨root, hroot, hreach⟩ := (hspec.reachable _).mp ih
      refine (hspec.reachable _).mpr ⟨root, hroot, hreach.tail ?_⟩
      rw [hagree.mem_targetsOf hreached.installed, mem_nextIds]
      exact ⟨_, hdep, _, hresolve, htarget⟩

theorem InstallsAgree.component_complete (manifestPath : String) {key id : String}
    (hkey : lock.Installed key id) :
    lock.ComponentComplete id (lock.component manifestPath key id) where
  direct := by
    constructor
    · exact (lock.component_sound manifestPath hkey).direct
    · rintro ⟨other, hother⟩
      exact ((lock.directInstall_iff key id).mp
        (hagree.direct other key id hother.1 hkey hother)).2
  reached := by
    rintro ⟨other, hother⟩
    obtain ⟨path, hpath⟩ := Option.isSome_iff_exists.mp
      ((AssocMap.isSome_lookup? _ _).mpr (hagree.mem_paths hother))
    rw [lock.component_path hpath]
    obtain ⟨_, first, _, hhead⟩ := (lock.resolvedChain_of_lookup hpath).starts
    intro hnil
    rw [List.map_eq_nil_iff.mp hnil] at hhead
    cases hhead

end Agree

/-! ## Another order of the locations -/

section Reordered

variable {lock} {lock' : NpmLock} (hperm : lock.packages.Perm lock'.packages)
include hperm

theorem mem_keys_perm (key : String) : key ∈ lock.keys ↔ key ∈ lock'.keys :=
  (hperm.map Prod.fst).mem_iff

theorem packageAt_perm (key : String) : lock.packageAt key = lock'.packageAt key := by
  unfold packageAt
  rw [AssocMap.lookup?_perm lock.distinct hperm]

theorem lookup_idByKey_perm (key : String) :
    lock.idByKey.lookup? key = lock'.idByKey.lookup? key :=
  AssocMap.lookup?_perm lock.nodup_keys_idByKey (hperm.filterMap _) key

theorem installed_perm (key id : String) : lock.Installed key id ↔ lock'.Installed key id := by
  unfold Installed
  rw [lookup_idByKey_perm hperm]

theorem resolve_perm (fromKey dep : String) :
    resolveNodeModule fromKey dep lock.keys = resolveNodeModule fromKey dep lock'.keys :=
  resolveNodeModule_congr (mem_keys_perm hperm) fromKey dep

theorem nextIds_perm (key : String) : lock.nextIds key = lock'.nextIds key := by
  unfold nextIds
  rw [packageAt_perm hperm]
  apply List.filterMap_congr
  intro dep _
  rw [resolve_perm hperm]
  exact congrArg _ (funext (lookup_idByKey_perm hperm))

theorem mem_directNames_perm (name : String) :
    name ∈ lock.directNames ↔ name ∈ lock'.directNames := by
  unfold directNames
  rw [packageAt_perm hperm]
  simp only [List.mem_append, List.mem_flatMap, hperm.mem_iff]

theorem directInstall_perm (key id : String) :
    lock.DirectInstall key id ↔ lock'.DirectInstall key id := by
  unfold DirectInstall
  simp only [installed_perm hperm, mem_directNames_perm hperm, resolve_perm hperm]

theorem InstallsAgree.perm (hagree : lock.InstallsAgree) : lock'.InstallsAgree where
  version key key' id hkey hkey' := by
    rw [← packageAt_perm hperm, ← packageAt_perm hperm]
    exact hagree.version key key' id ((installed_perm hperm key id).mpr hkey)
      ((installed_perm hperm key' id).mpr hkey')
  direct key key' id hkey hkey' := by
    rw [← directInstall_perm hperm, ← directInstall_perm hperm]
    exact hagree.direct key key' id ((installed_perm hperm key id).mpr hkey)
      ((installed_perm hperm key' id).mpr hkey')
  targets key key' id hkey hkey' := by
    rw [← nextIds_perm hperm, ← nextIds_perm hperm]
    exact hagree.targets key key' id ((installed_perm hperm key id).mpr hkey)
      ((installed_perm hperm key' id).mpr hkey')

theorem mem_directIds_perm (id : String) : id ∈ lock.directIds ↔ id ∈ lock'.directIds := by
  rw [mem_directIds, mem_directIds]
  simp only [directInstall_perm hperm]

variable (hagree : lock.InstallsAgree)
include hagree

theorem mem_targetsOf_perm (id next : String) :
    next ∈ targetsOf lock.edges id ↔ next ∈ targetsOf lock'.edges id := by
  by_cases hinstalled : ∃ key, lock.Installed key id
  · obtain ⟨key, hkey⟩ := hinstalled
    rw [hagree.mem_targetsOf hkey, nextIds_perm hperm,
      (hagree.perm hperm).mem_targetsOf ((installed_perm hperm key id).mp hkey)]
  · have hnone : ∀ other : NpmLock, (∀ key, ¬ other.Installed key id) →
        targetsOf other.edges id = [] := by
      intro other hno
      obtain ⟨hnil, _⟩ | ⟨key, hkey, _⟩ := other.targetsOf_edges id
      · exact hnil
      · exact absurd hkey (hno key)
    rw [hnone lock (not_exists.mp hinstalled), hnone lock' fun key hkey =>
      hinstalled ⟨key, (installed_perm hperm key id).mpr hkey⟩]

theorem dependencyChain_perm (id : String) (chain : List String) :
    DependencyChain lock.directIds lock.edges id chain ↔
      DependencyChain lock'.directIds lock'.edges id chain := by
  have hlinked : (chain.IsChain fun a b => b ∈ targetsOf lock.edges a) ↔
      chain.IsChain fun a b => b ∈ targetsOf lock'.edges a :=
    List.IsChain.iff fun a b => mem_targetsOf_perm hperm hagree a b
  have hstarts : (∃ root ∈ lock.directIds, chain.head? = some root) ↔
      ∃ root ∈ lock'.directIds, chain.head? = some root := by
    simp only [mem_directIds_perm hperm]
  exact ⟨fun h => ⟨hstarts.mp h.starts, hlinked.mp h.linked, h.ends⟩,
    fun h => ⟨hstarts.mpr h.starts, hlinked.mpr h.linked, h.ends⟩⟩

/-- The chains need not be the same, but they are as long. -/
theorem lookup_paths_perm (id : String) :
    (lock.paths.lookup? id).map List.length = (lock'.paths.lookup? id).map List.length := by
  have hspec := shortestPathsFromRoots_spec lock.directIds lock.edges
  have hspec' := shortestPathsFromRoots_spec lock'.directIds lock'.edges
  have hkeys : id ∈ lock.paths.keys ↔ id ∈ lock'.paths.keys := by
    unfold paths
    rw [hspec.reachable, hspec'.reachable, reachable_iff_chain, reachable_iff_chain]
    simp only [dependencyChain_perm hperm hagree]
  rw [← AssocMap.isSome_lookup?, ← AssocMap.isSome_lookup?] at hkeys
  cases hlookup : lock.paths.lookup? id with
  | none =>
      rw [hlookup] at hkeys
      cases hlookup' : lock'.paths.lookup? id with
      | none => rfl
      | some path' =>
          rw [hlookup'] at hkeys
          cases hkeys.mpr rfl
  | some path =>
      rw [hlookup] at hkeys
      obtain ⟨path', hlookup'⟩ := Option.isSome_iff_exists.mp (hkeys.mp rfl)
      have hle := hspec.shortest id path hlookup path'
        ((dependencyChain_perm hperm hagree id path').mpr (hspec'.chains id path' hlookup'))
      have hge := hspec'.shortest id path' hlookup' path
        ((dependencyChain_perm hperm hagree id path).mp (hspec.chains id path hlookup))
      rw [hlookup', Option.map_some, Option.map_some, Nat.le_antisymm hle hge]

end Reordered

end NpmLock

/-- A component with its path reduced to the length. -/
def withPathLength (c : ResolvedComponent) : ResolvedComponent × Nat :=
  ({ c with dependencyPath := [] }, c.dependencyPath.length)

/-- Two installs of one id show the same component, in either order of the locations. -/
theorem withPathLength_component {lock lock' : NpmLock} (hagree : lock.InstallsAgree)
    (hperm : lock.packages.Perm lock'.packages) (manifestPath : String) {key key' id : String}
    (hkey : lock.Installed key id) (hkey' : lock'.Installed key' id) :
    withPathLength (lock.component manifestPath key id) =
      withPathLength (lock'.component manifestPath key' id) := by
  have hown : lock.Installed key' id := (NpmLock.installed_perm hperm key' id).mpr hkey'
  have hversion : (lock.packageAt key).version = (lock'.packageAt key').version := by
    rw [hagree.version key key' id hkey hown, NpmLock.packageAt_perm hperm]
  have hdirect : isDirectInstall key (nameFromNodeId id) lock.directNames =
      isDirectInstall key' (nameFromNodeId id) lock'.directNames := by
    have hiff := (lock.directInstall_iff key id).symm.trans
      ((Iff.intro (hagree.direct key key' id hkey hown) (hagree.direct key' key id hown hkey)).trans
        ((NpmLock.directInstall_perm hperm key' id).trans (lock'.directInstall_iff key' id)))
    simp only [hkey, hkey', true_and] at hiff
    exact Bool.eq_iff_iff.mpr hiff
  have hlength := NpmLock.lookup_paths_perm hperm hagree id
  unfold withPathLength NpmLock.component
  simp only [hversion, hdirect]
  cases hlookup : lock.paths.lookup? id with
  | none =>
      rw [hlookup, Option.map_none, eq_comm, Option.map_eq_none_iff] at hlength
      simp only [hlength]
  | some path =>
      rw [hlookup, Option.map_some, eq_comm, Option.map_eq_some_iff] at hlength
      obtain ⟨path', hlookup', heq⟩ := hlength
      simp only [hlookup', List.length_map, heq]

/-! ## One component for each id -/

theorem firstInstalls_sublist (seen : List String) (m : AssocMap String String) :
    (firstInstalls seen m).Sublist m := by
  induction m generalizing seen with
  | nil => exact List.Sublist.slnil
  | cons e rest ih =>
      obtain ⟨key, id⟩ := e
      unfold firstInstalls
      split
      · exact (ih seen).cons _
      · exact (ih (id :: seen)).cons_cons _

theorem mem_ids_firstInstalls (seen : List String) (m : AssocMap String String) (id : String) :
    id ∈ (firstInstalls seen m).map Prod.snd ↔ id ∉ seen ∧ id ∈ m.map Prod.snd := by
  induction m generalizing seen with
  | nil => simp [firstInstalls]
  | cons e rest ih =>
      obtain ⟨key, first⟩ := e
      unfold firstInstalls
      rw [List.map_cons, List.mem_cons]
      split
      · rename_i hseen
        rw [ih seen]
        constructor
        · exact fun h => ⟨h.1, Or.inr h.2⟩
        · rintro ⟨hnot, rfl | hmem⟩
          · exact absurd hseen hnot
          · exact ⟨hnot, hmem⟩
      · rename_i hfresh
        rw [List.map_cons, List.mem_cons, ih (first :: seen), List.mem_cons]
        by_cases heq : id = first
        · simp [heq, hfresh]
        · simp [heq]

theorem nodup_ids_firstInstalls (seen : List String) (m : AssocMap String String) :
    ((firstInstalls seen m).map Prod.snd).Nodup := by
  induction m generalizing seen with
  | nil => exact List.nodup_nil
  | cons e rest ih =>
      obtain ⟨key, id⟩ := e
      unfold firstInstalls
      split
      · exact ih seen
      · rw [List.map_cons, List.nodup_cons, mem_ids_firstInstalls]
        exact ⟨fun h => h.1 List.mem_cons_self, ih (id :: seen)⟩

/-- The ids the parser reports a component for. -/
def NpmLock.ids (lock : NpmLock) : List String :=
  (firstInstalls [] lock.idByKey).map Prod.snd

theorem NpmLock.mem_ids (lock : NpmLock) (id : String) :
    id ∈ lock.ids ↔ ∃ key, lock.Installed key id := by
  unfold NpmLock.ids
  rw [mem_ids_firstInstalls]
  simp only [List.not_mem_nil, not_false_eq_true, true_and, List.mem_map, NpmLock.installed_iff_mem]
  constructor
  · rintro ⟨⟨key, id⟩, hmem, rfl⟩
    exact ⟨key, hmem⟩
  · rintro ⟨key, hmem⟩
    exact ⟨(key, id), hmem, rfl⟩

theorem NpmLock.installed_of_firstInstalls {lock : NpmLock} {e : String × String}
    (he : e ∈ firstInstalls [] lock.idByKey) : lock.Installed e.1 e.2 :=
  (lock.installed_iff_mem e.1 e.2).mpr ((firstInstalls_sublist [] lock.idByKey).subset he)

/-- Lists of one set of keys have one set of values, where the key decides the value. -/
theorem perm_map_of_key {α β γ : Type} {l l' : List α} {key : α → β} {f f' : α → γ}
    (hperm : (l.map key).Perm (l'.map key))
    (hsame : ∀ a ∈ l, ∀ b ∈ l', key a = key b → f a = f' b) : (l.map f).Perm (l'.map f') := by
  have hkeys : List.Forall₂ (fun k b => k = key b) (l'.map key) l' := by
    rw [List.forall₂_map_left_iff, List.forall₂_same]
    exact fun _ _ => rfl
  obtain ⟨l'', hforall, hl''⟩ := List.perm_comp_forall₂ hperm hkeys
  rw [List.forall₂_map_left_iff] at hforall
  have hmap : l.map f = l''.map f' := by
    have hmem : ∀ a ∈ l'', a ∈ l' := fun a => hl''.mem_iff.mp
    clear hperm hl'' hkeys
    induction hforall with
    | nil => rfl
    | cons hfirst _ ih =>
        rw [List.map_cons, List.map_cons,
          hsame _ List.mem_cons_self _ (hmem _ List.mem_cons_self) hfirst,
          ih (fun a ha => hsame a (List.mem_cons_of_mem _ ha))
            (fun a ha => hmem a (List.mem_cons_of_mem _ ha))]
  rw [hmap]
  exact hl''.map f'

/-- In another order of the locations the parser reports the same components, with paths
of the same lengths. -/
theorem parseNpmV2_perm {lock lock' : NpmLock} (hagree : lock.InstallsAgree)
    (hperm : lock.packages.Perm lock'.packages) (manifestPath : String) :
    ((parseNpmV2 lock manifestPath).map withPathLength).Perm
      ((parseNpmV2 lock' manifestPath).map withPathLength) := by
  unfold parseNpmV2
  rw [List.map_map, List.map_map]
  refine @perm_map_of_key _ _ _ _ _ Prod.snd _ _ ?_ ?_
  · refine (List.perm_ext_iff_of_nodup (nodup_ids_firstInstalls [] lock.idByKey)
      (nodup_ids_firstInstalls [] lock'.idByKey)).mpr ?_
    intro id
    change id ∈ lock.ids ↔ id ∈ lock'.ids
    rw [lock.mem_ids, lock'.mem_ids]
    simp only [NpmLock.installed_perm hperm]
  · intro a ha b hb heq
    have hb' := NpmLock.installed_of_firstInstalls hb
    rw [← heq] at hb'
    have hsame := withPathLength_component hagree hperm manifestPath
      (NpmLock.installed_of_firstInstalls ha) hb'
    simp only [Function.comp_apply]
    rw [hsame, heq]

/-- A workspace package of a project whose root depends on nothing. -/
def workspaceLock : NpmLock where
  packages :=
    [("", {}), ("packages/app", { dependencies := ["bar"] }),
      ("packages/app/node_modules/bar", { version := some "1.0.0" })]
  distinct := by decide
  relative := by decide +kernel

/-- Two direct dependencies that both need a third package, in one order and the other. -/
def diamondPackages (first second : String) : AssocMap String NpmPackage :=
  [("", { dependencies := ["a", "b"] }),
    ("node_modules/" ++ first, { version := some "1.0.0", dependencies := ["c"] }),
    ("node_modules/" ++ second, { version := some "1.0.0", dependencies := ["c"] }),
    ("node_modules/c", { version := some "1.0.0" })]

def diamondLock : NpmLock :=
  ⟨diamondPackages "a" "b", by decide +kernel, by decide +kernel⟩

def diamondLockSwapped : NpmLock :=
  ⟨diamondPackages "b" "a", by decide +kernel, by decide +kernel⟩

end Scanner
end Ctem
