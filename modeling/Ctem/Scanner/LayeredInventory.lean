import Mathlib.Data.List.Infix
import Ctem.Foundation.HeldSince
import Ctem.Scanner.ImageInventory

/-!
# Layered inventories and the last image

The packages of the operating system that `inventoryImage` returns, against those that the
databases of the last overlay list.  The two are brought up to date at different times: the
record by the layers that have written a database, the overlay by every layer; and the record
has one version for a name.

`inventory_is_parse_iff`: the inventory is the parse of the last image, with the layers that
introduced the packages, precisely when what the last written databases list last is still
listed, the last databases list one version of a name, and each version is led by the record
for as long as the databases list it.
-/

namespace Ctem
namespace Scanner

open Foundation

/-! ## What the databases list -/

/-- A package as the databases of an image know it. -/
structure OsPackage where
  ecosystem : String
  name : String
  version : String
deriving DecidableEq, Repr

def ImagePackage.osPackage (pkg : ImagePackage) : OsPackage :=
  ⟨pkg.ecosystem, pkg.name, pkg.version⟩

/-- The packages that the databases of an overlay list, in their order. -/
def osPackages (overlay : Overlay) : List OsPackage :=
  (parseOsPackages (osDbFiles overlay) "").map ImagePackage.osPackage

/-- The databases of the image list the package. -/
def Listed (layers : List LayerSnapshot) (p : OsPackage) : Prop :=
  p ∈ osPackages (overlayOf layers)

/-- The last layer has written a database. -/
def writesDatabase (layers : List LayerSnapshot) : Bool :=
  layers.getLast?.any (dbTouched (overlayOf layers))

/-- The layers up to the last one that has written a database. -/
def lastWritten (layers : List LayerSnapshot) : List LayerSnapshot :=
  (layers.inits.filter writesDatabase).getLast?.getD []

/-- The entry listed last under the name of `p`. -/
def lastListed (packages : List OsPackage) (p : OsPackage) : Option OsPackage :=
  (packages.filter fun q => decide (q.ecosystem = p.ecosystem ∧ q.name = p.name)).getLast?

/-- Under its name, the package is the one that the databases list last, as the last layer to
write one has left them. -/
def Leads (layers : List LayerSnapshot) (p : OsPackage) : Prop :=
  lastListed (osPackages (overlayOf (lastWritten layers))) p = some p

/-- The inventory has precisely the packages that the databases of the image list, each with
the layer since which it is listed. -/
structure IsParse (layers : List LayerSnapshot) (inventory : List ImagePackage) : Prop where
  packages : ∀ p, (∃ pkg ∈ inventory, pkg.origin = .os ∧ pkg.osPackage = p) ↔ Listed layers p
  introducers : ∀ pkg ∈ inventory, pkg.origin = .os →
    ∃ layer, HeldSince (Listed · pkg.osPackage) layers layer ∧ pkg.layerDigest = layer.digest

/-! ## Reading a database -/

/-- A package as a database gives it: its ecosystem is that of the database. -/
def IsOs (pkg : ImagePackage) : Prop :=
  pkg.origin = .os ∧ (pkg.ecosystem = "Alpine" ∨ pkg.ecosystem = "Debian")

theorem isOs_of_parseOsFile {path body digest : String} :
    ∀ pkg ∈ parseOsFile path body digest, IsOs pkg := by
  intro pkg hpkg
  unfold parseOsFile at hpkg
  split at hpkg
  · unfold parseApkInstalled at hpkg
    obtain ⟨stanza, -, hread⟩ := List.mem_filterMap.mp hpkg
    simp only [Option.ite_none_right_eq_some, Option.some_inj] at hread
    obtain ⟨-, rfl⟩ := hread
    exact ⟨rfl, Or.inl rfl⟩
  split at hpkg
  · unfold parseDpkgStatus at hpkg
    obtain ⟨stanza, -, hread⟩ := List.mem_filterMap.mp hpkg
    simp only [Option.ite_none_right_eq_some, Option.some_inj] at hread
    obtain ⟨-, rfl⟩ := hread
    exact ⟨rfl, Or.inr rfl⟩
  · simp at hpkg

/-- The layer that reads a database has no part in what it lists. -/
theorem map_osPackage_parseOsFile (path body digest digest' : String) :
    (parseOsFile path body digest).map ImagePackage.osPackage =
      (parseOsFile path body digest').map ImagePackage.osPackage := by
  unfold parseOsFile
  split
  · unfold parseApkInstalled
    rw [List.map_filterMap, List.map_filterMap]
    congr 1
    funext stanza
    simp only
    split <;> rfl
  split
  · unfold parseDpkgStatus
    rw [List.map_filterMap, List.map_filterMap]
    congr 1
    funext stanza
    simp only
    split <;> rfl
  · rfl

theorem map_osPackage_parseOsPackages (overlay : Overlay) (digest : String) :
    (parseOsPackages (osDbFiles overlay) digest).map ImagePackage.osPackage =
      osPackages overlay := by
  unfold osPackages parseOsPackages
  rw [List.map_flatMap, List.map_flatMap]
  congr 1
  funext e
  exact map_osPackage_parseOsFile e.1 e.2.content digest ""

theorem isOs_of_parseOsPackages {overlay : Overlay} {digest : String} :
    ∀ pkg ∈ parseOsPackages overlay digest, IsOs pkg := by
  intro pkg hpkg
  obtain ⟨e, -, hread⟩ := List.mem_flatMap.mp hpkg
  exact isOs_of_parseOsFile pkg hread

/-- Packages of the operating system have one key only if they have one name. -/
theorem osKey_inj {pkg pkg' : ImagePackage} (h : IsOs pkg) (h' : IsOs pkg') :
    pkg.osKey = pkg'.osKey ↔ pkg.ecosystem = pkg'.ecosystem ∧ pkg.name = pkg'.name := by
  constructor
  · intro hkey
    have hlist := congrArg String.toList hkey
    unfold ImagePackage.osKey osKey at hlist
    rcases h.2 with heco | heco <;> rcases h'.2 with heco' | heco' <;> rw [heco, heco'] at hlist ⊢
    all_goals simp [String.ext_iff] at hlist ⊢
    all_goals assumption
  · rintro ⟨heco, hname⟩
    unfold ImagePackage.osKey
    rw [heco, hname]

/-! ## One layer more -/

theorem overlayOf_concat (layers : List LayerSnapshot) (layer : LayerSnapshot) :
    overlayOf (layers ++ [layer]) = applyLayer (overlayOf layers) layer := by
  unfold overlayOf
  rw [List.foldl_append, List.foldl_cons, List.foldl_nil]

/-- What is in the overlay behind a layer is of that layer, or was there before. -/
theorem mem_applyLayer {overlay : Overlay} {layer : LayerSnapshot} {e : String × OverlayFile}
    (he : e ∈ applyLayer overlay layer) : e ∈ overlay ∨ e.2.layerDigest = layer.digest := by
  have hfilter : ∀ {β : Type} (hidden : β → String → Bool) (marks : List β) (overlay : Overlay),
      ∀ e ∈ (marks.foldl (fun overlay mark => overlay.filter fun e => !hidden mark e.1)
        overlay : Overlay), e ∈ overlay := by
    intro β hidden marks
    induction marks with
    | nil => exact fun _ _ he => he
    | cons mark rest ih => exact fun overlay e he => (List.mem_filter.mp (ih _ e he)).1
  have hfiles : ∀ (files : AssocMap String String) (kept : Overlay),
      (∀ e ∈ kept, e ∈ overlay ∨ e.2.layerDigest = layer.digest) →
      ∀ e ∈ (files.foldl (fun overlay file => overlay.upsert file.1 fun _ =>
        ⟨file.2, layer.digest⟩) kept : Overlay), e ∈ overlay ∨ e.2.layerDigest = layer.digest := by
    intro files
    induction files with
    | nil => exact fun _ hkept => hkept
    | cons file rest ih =>
        intro kept hkept
        exact ih _ (AssocMap.forall_mem_upsert hkept fun _ => Or.inr rfl)
  exact hfiles _ _ (fun e he => Or.inl (hfilter inOpaqueDir _ _ e (hfilter whitedOut _ _ e he))) e he

/-- A layer that has written no database adds nothing to what they list. -/
theorem listed_of_not_dbTouched {layers : List LayerSnapshot} {layer : LayerSnapshot}
    (htouched : dbTouched (overlayOf (layers ++ [layer])) layer = false) {p : OsPackage}
    (h : Listed (layers ++ [layer]) p) : Listed layers p := by
  unfold Listed osPackages parseOsPackages at h ⊢
  obtain ⟨pkg, hpkg, rfl⟩ := List.mem_map.mp h
  obtain ⟨e, he, hread⟩ := List.mem_flatMap.mp hpkg
  have hother : e.2.layerDigest ≠ layer.digest := by
    intro hdigest
    have htouches : dbTouched (overlayOf (layers ++ [layer])) layer = true :=
      List.any_eq_true.mpr ⟨e, he, beq_iff_eq.mpr hdigest⟩
    rw [htouches] at htouched
    cases htouched
  obtain ⟨hoverlay, hpath⟩ := List.mem_filter.mp he
  rw [overlayOf_concat] at hoverlay
  have hbefore : e ∈ overlayOf layers := (mem_applyLayer hoverlay).resolve_right hother
  exact List.mem_map_of_mem (List.mem_flatMap.mpr ⟨e, List.mem_filter.mpr ⟨hbefore, hpath⟩, hread⟩)

theorem lastWritten_concat (layers : List LayerSnapshot) (layer : LayerSnapshot) :
    lastWritten (layers ++ [layer]) =
      if dbTouched (overlayOf (layers ++ [layer])) layer then layers ++ [layer]
      else lastWritten layers := by
  have hinits : (layers ++ [layer]).inits = layers.inits ++ [layers ++ [layer]] := by
    rw [List.inits_append]
    rfl
  have hwrites : writesDatabase (layers ++ [layer]) =
      dbTouched (overlayOf (layers ++ [layer])) layer := by
    unfold writesDatabase
    rw [List.getLast?_concat, Option.any_some]
  unfold lastWritten
  rw [hinits, List.filter_append, List.filter_singleton, hwrites]
  cases htouched : dbTouched (overlayOf (layers ++ [layer])) layer with
  | true => simp
  | false => simp

/-- What the databases list in the end, they listed when one was last written. -/
theorem listed_lastWritten {layers : List LayerSnapshot} {p : OsPackage}
    (h : Listed layers p) : Listed (lastWritten layers) p := by
  induction layers using List.reverseRecOn with
  | nil => exact h
  | append_singleton layers layer ih =>
      rw [lastWritten_concat]
      by_cases htouched : dbTouched (overlayOf (layers ++ [layer])) layer = true
      · rw [if_pos htouched]
        exact h
      · rw [if_neg htouched]
        exact ih (listed_of_not_dbTouched (Bool.not_eq_true _ ▸ htouched) h)

theorem not_listed_nil (p : OsPackage) : ¬ Listed [] p := by
  intro h
  simp [Listed, osPackages, parseOsPackages, osDbFiles, overlayOf] at h

theorem not_leads_nil (p : OsPackage) : ¬ Leads [] p := by
  intro h
  have hnone : lastListed (osPackages (overlayOf (lastWritten []))) p = none := rfl
  unfold Leads at h
  rw [hnone] at h
  cases h

/-- A name has one leading version at most. -/
theorem Leads.version_eq {layers : List LayerSnapshot} {ecosystem name version version' : String}
    (h : Leads layers ⟨ecosystem, name, version⟩) (h' : Leads layers ⟨ecosystem, name, version'⟩) :
    version = version' := by
  unfold Leads lastListed at h h'
  have hsame := Option.some.inj (h.symm.trans h')
  exact congrArg OsPackage.version hsame

/-- The entry listed last under a name is a listed one of that name. -/
theorem lastListed_eq_some {packages : List OsPackage} {p q : OsPackage}
    (h : lastListed packages p = some q) :
    q ∈ packages ∧ q.ecosystem = p.ecosystem ∧ q.name = p.name := by
  have hmem := List.mem_filter.mp (List.mem_of_getLast? h)
  exact ⟨hmem.1, of_decide_eq_true hmem.2⟩

theorem Leads.listed {layers : List LayerSnapshot} {p : OsPackage} (h : Leads layers p) :
    Listed (lastWritten layers) p :=
  (lastListed_eq_some h).1

/-- Under the name of a listed package something leads. -/
theorem exists_leads {layers : List LayerSnapshot} {ecosystem name version : String}
    (h : Listed (lastWritten layers) ⟨ecosystem, name, version⟩) :
    ∃ version', Leads layers ⟨ecosystem, name, version'⟩ := by
  cases hlast : lastListed (osPackages (overlayOf (lastWritten layers)))
      ⟨ecosystem, name, version⟩ with
  | none =>
      have hempty := List.getLast?_eq_none_iff.mp hlast
      exact absurd (List.mem_filter.mpr ⟨h, decide_eq_true ⟨rfl, rfl⟩⟩)
        (List.eq_nil_iff_forall_not_mem.mp hempty _)
  | some q =>
      obtain ⟨-, heco, hname⟩ := lastListed_eq_some hlast
      obtain ⟨ecosystem', name', version'⟩ := q
      obtain rfl : ecosystem' = ecosystem := heco
      obtain rfl : name' = name := hname
      exact ⟨version', hlast⟩

theorem leads_concat_of_dbTouched {layers : List LayerSnapshot} {layer : LayerSnapshot}
    (htouched : dbTouched (overlayOf (layers ++ [layer])) layer = true) (p : OsPackage) :
    Leads (layers ++ [layer]) p ↔
      lastListed (osPackages (overlayOf (layers ++ [layer]))) p = some p := by
  unfold Leads
  rw [lastWritten_concat, if_pos htouched]

theorem leads_concat_of_not_dbTouched {layers : List LayerSnapshot} {layer : LayerSnapshot}
    (htouched : dbTouched (overlayOf (layers ++ [layer])) layer = false) (p : OsPackage) :
    Leads (layers ++ [layer]) p ↔ Leads layers p := by
  unfold Leads
  rw [lastWritten_concat, htouched, if_neg Bool.false_ne_true]

/-! ## What the walk records -/

/-- The record after some layers: the leading packages, each with the layer since which it
leads. -/
structure Records (layers : List LayerSnapshot) (osByName : AssocMap String ImagePackage) :
    Prop where
  nodup : osByName.keys.Nodup
  entry : ∀ key pkg, osByName.lookup? key = some pkg →
    pkg.osKey = key ∧ IsOs pkg ∧
      ∃ layer, HeldSince (Leads · pkg.osPackage) layers layer ∧ pkg.layerDigest = layer.digest
  leader : ∀ p, Leads layers p →
    ∃ pkg, osByName.lookup? (osKey p.ecosystem p.name) = some pkg ∧ pkg.osPackage = p

/-- The package listed last under a name is the last one of its key. -/
theorem lastListed_map_osPackage {parsed : List ImagePackage} (hos : ∀ pkg ∈ parsed, IsOs pkg)
    {pkg : ImagePackage} (hpkg : IsOs pkg) :
    lastListed (parsed.map ImagePackage.osPackage) pkg.osPackage =
      ((parsed.filter fun q => decide (q.osKey = pkg.osKey)).getLast?).map
        ImagePackage.osPackage := by
  unfold lastListed
  rw [List.filter_map, List.getLast?_map]
  congr 2
  refine List.filter_congr fun q hq => ?_
  rw [Function.comp_apply, decide_eq_decide, osKey_inj (hos q hq) hpkg]
  rfl

/-- The entry of a package: the one recorded under its name, if that has the version, or a new
one of the layer. -/
theorem introduced_cases {layers : List LayerSnapshot} {osByName : AssocMap String ImagePackage}
    (hrecords : Records layers osByName) {pkg : ImagePackage} (hpkg : IsOs pkg) (digest : String) :
    (osByName.lookup? pkg.osKey = some (introduced osByName digest pkg) ∧
        (introduced osByName digest pkg).osPackage = pkg.osPackage) ∨
      (introduced osByName digest pkg = { pkg with layerDigest := digest } ∧
        ¬ Leads layers pkg.osPackage) := by
  cases hlookup : osByName.lookup? pkg.osKey with
  | none =>
      have hnew : introduced osByName digest pkg = { pkg with layerDigest := digest } := by
        unfold introduced
        rw [hlookup]
      refine Or.inr ⟨hnew, fun hleads => ?_⟩
      obtain ⟨prev, hprev, -⟩ := hrecords.leader _ hleads
      cases hlookup.symm.trans hprev
  | some prev =>
      obtain ⟨hkey, hos, -⟩ := hrecords.entry _ _ hlookup
      obtain ⟨heco, hname⟩ := (osKey_inj hos hpkg).mp hkey
      by_cases hversion : prev.version = pkg.version
      · have hprev : introduced osByName digest pkg = prev := by
          unfold introduced
          rw [hlookup]
          exact if_pos hversion
        rw [hprev]
        refine Or.inl ⟨rfl, ?_⟩
        unfold ImagePackage.osPackage
        rw [heco, hname, hversion]
      · have hnew : introduced osByName digest pkg = { pkg with layerDigest := digest } := by
          unfold introduced
          rw [hlookup]
          exact if_neg hversion
        refine Or.inr ⟨hnew, fun hleads => ?_⟩
        obtain ⟨prev', hprev', hpackage⟩ := hrecords.leader _ hleads
        obtain rfl := Option.some.inj (hlookup.symm.trans hprev')
        exact hversion (congrArg OsPackage.version hpackage)

theorem introduced_osPackage {layers : List LayerSnapshot}
    {osByName : AssocMap String ImagePackage} (hrecords : Records layers osByName)
    {pkg : ImagePackage} (hpkg : IsOs pkg) (digest : String) :
    (introduced osByName digest pkg).osPackage = pkg.osPackage := by
  rcases introduced_cases hrecords hpkg digest with ⟨-, hsame⟩ | ⟨hnew, -⟩
  · exact hsame
  · rw [hnew]
    rfl

/-- A layer that has written a database: the packages it lists are recorded anew. -/
theorem Records.touched {layers : List LayerSnapshot} {layer : LayerSnapshot}
    {osByName : AssocMap String ImagePackage} (hrecords : Records layers osByName)
    (htouched : dbTouched (overlayOf (layers ++ [layer])) layer = true) :
    Records (layers ++ [layer])
      (AssocMap.groupFold ImagePackage.osKey (fun pkg _ => introduced osByName layer.digest pkg)
        (parseOsPackages (osDbFiles (overlayOf (layers ++ [layer]))) layer.digest)) := by
  generalize hparsed : parseOsPackages (osDbFiles (overlayOf (layers ++ [layer]))) layer.digest =
    parsed
  have hos : ∀ pkg ∈ parsed, IsOs pkg := hparsed ▸ isOs_of_parseOsPackages
  have hleads : ∀ p, Leads (layers ++ [layer]) p ↔
      lastListed (parsed.map ImagePackage.osPackage) p = some p := by
    intro p
    rw [leads_concat_of_dbTouched htouched, ← hparsed, map_osPackage_parseOsPackages]
  refine ⟨AssocMap.nodup_keys_groupFold _ _ _, ?_, ?_⟩
  · intro key pkg hlookup
    rw [AssocMap.lookup?_groupFold_last, Option.map_eq_some_iff] at hlookup
    obtain ⟨last, hlast, rfl⟩ := hlookup
    obtain ⟨hmem, hkey⟩ := List.mem_filter.mp (List.mem_of_getLast? hlast)
    obtain rfl := of_decide_eq_true hkey
    have hlastOs : IsOs last := hos last hmem
    have hnow : Leads (layers ++ [layer]) last.osPackage := by
      rw [hleads, lastListed_map_osPackage hos hlastOs, hlast]
      rfl
    rcases introduced_cases hrecords hlastOs layer.digest with ⟨hprev, hpackage⟩ | ⟨hnew, hbefore⟩
    · obtain ⟨hprevKey, hprevOs, since, hsince, hdigest⟩ := hrecords.entry _ _ hprev
      refine ⟨hprevKey, hprevOs, since, ?_, hdigest⟩
      rw [hpackage] at hsince ⊢
      exact heldSince_concat_iff.mpr ⟨hnow, Or.inr hsince⟩
    · rw [hnew]
      exact ⟨rfl, hlastOs, layer, heldSince_concat_iff.mpr ⟨hnow, Or.inl ⟨hbefore, rfl⟩⟩, rfl⟩
  · intro p hp
    have hlisted := (hleads p).mp hp
    obtain ⟨pkg, hpkg, rfl⟩ := List.mem_map.mp (lastListed_eq_some hlisted).1
    rw [lastListed_map_osPackage hos (hos pkg hpkg), Option.map_eq_some_iff] at hlisted
    obtain ⟨last, hlast, hpackage⟩ := hlisted
    refine ⟨introduced osByName layer.digest last, ?_, ?_⟩
    · rw [AssocMap.lookup?_groupFold_last]
      exact Option.map_eq_some_iff.mpr ⟨last, hlast, rfl⟩
    · rw [← hpackage]
      exact introduced_osPackage hrecords (hos last (List.mem_filter.mp
        (List.mem_of_getLast? hlast)).1) layer.digest

/-- A layer that has written none: the record is left as it is. -/
theorem Records.untouched {layers : List LayerSnapshot} {layer : LayerSnapshot}
    {osByName : AssocMap String ImagePackage} (hrecords : Records layers osByName)
    (htouched : dbTouched (overlayOf (layers ++ [layer])) layer = false) :
    Records (layers ++ [layer]) osByName where
  nodup := hrecords.nodup
  entry := by
    intro key pkg hlookup
    obtain ⟨hkey, hos, since, hsince, hdigest⟩ := hrecords.entry key pkg hlookup
    refine ⟨hkey, hos, since, heldSince_concat_iff.mpr ⟨?_, Or.inr hsince⟩, hdigest⟩
    exact (leads_concat_of_not_dbTouched htouched _).mpr hsince.holds
  leader := by
    intro p hp
    exact hrecords.leader p ((leads_concat_of_not_dbTouched htouched p).mp hp)

/-- **The record.**  After any layers it has the leading packages. -/
theorem records_inventoryWalk (layers : List LayerSnapshot) :
    Records layers (inventoryWalk layers).osByName := by
  induction layers using List.reverseRecOn with
  | nil =>
      refine ⟨List.nodup_nil, ?_, ?_⟩
      · intro key pkg hlookup
        cases hlookup
      · intro p hp
        exact absurd hp (not_leads_nil p)
  | append_singleton layers layer ih =>
      rw [inventoryWalk_concat]
      unfold InventoryWalk.add
      rw [overlay_inventoryWalk, ← overlayOf_concat]
      cases htouched : dbTouched (overlayOf (layers ++ [layer])) layer with
      | true =>
          simp only [htouched, if_true]
          exact ih.touched htouched
      | false =>
          simp only [htouched, Bool.false_eq_true, if_false]
          exact ih.untouched htouched

/-! ## The inventory -/

/-- The packages of the operating system in an inventory are those of the record. -/
theorem os_mem_inventoryImage {layers : List LayerSnapshot} {inventory : List ImagePackage}
    (h : inventoryImage layers = .ok inventory) (pkg : ImagePackage) :
    (pkg ∈ inventory ∧ pkg.origin = .os) ↔
      (inventoryWalk layers).osByName.lookup? pkg.osKey = some pkg := by
  have hrecords := records_inventoryWalk layers
  unfold inventoryImage at h
  obtain ⟨-, -, h⟩ := bind_eq_ok.mp h
  obtain ⟨app, happ, h⟩ := bind_eq_ok.mp h
  obtain ⟨-, h⟩ := eq_ok_of_guard h
  obtain rfl := Except.ok.inj h
  constructor
  · rintro ⟨hmem, horigin⟩
    rcases List.mem_append.mp hmem with hmem | hmem
    · obtain ⟨e, he, rfl⟩ := List.mem_map.mp hmem
      have hlookup := AssocMap.lookup?_of_mem hrecords.nodup he
      rw [(hrecords.entry _ _ hlookup).1]
      exact hlookup
    · rw [origin_of_parseAppPackages happ pkg hmem] at horigin
      cases horigin
  · intro hlookup
    exact ⟨List.mem_append_left _ (List.mem_map_of_mem (AssocMap.mem_of_lookup? hlookup)),
      (hrecords.entry _ _ hlookup).2.1.1⟩

/-- The inventory has the leading packages. -/
theorem exists_os_iff_leads {layers : List LayerSnapshot} {inventory : List ImagePackage}
    (h : inventoryImage layers = .ok inventory) (p : OsPackage) :
    (∃ pkg ∈ inventory, pkg.origin = .os ∧ pkg.osPackage = p) ↔ Leads layers p := by
  have hrecords := records_inventoryWalk layers
  constructor
  · rintro ⟨pkg, hmem, horigin, rfl⟩
    obtain ⟨-, -, layer, hsince, -⟩ :=
      hrecords.entry _ _ ((os_mem_inventoryImage h pkg).mp ⟨hmem, horigin⟩)
    exact hsince.holds
  · intro hleads
    obtain ⟨pkg, hlookup, rfl⟩ := hrecords.leader p hleads
    obtain ⟨hmem, horigin⟩ := (os_mem_inventoryImage h pkg).mpr hlookup
    exact ⟨pkg, hmem, horigin, rfl⟩

/-- The leading packages are the listed ones precisely when every leading one is listed, and
one version of a name. -/
theorem leads_iff_listed_iff (layers : List LayerSnapshot) :
    (∀ p, Leads layers p ↔ Listed layers p) ↔
      (∀ p, Leads layers p → Listed layers p) ∧
        ∀ ecosystem name version version', Listed layers ⟨ecosystem, name, version⟩ →
          Listed layers ⟨ecosystem, name, version'⟩ → version = version' := by
  constructor
  · intro hall
    refine ⟨fun p => (hall p).mp, ?_⟩
    intro ecosystem name version version' hlisted hlisted'
    exact ((hall _).mpr hlisted).version_eq ((hall _).mpr hlisted')
  · rintro ⟨hkept, hone⟩ ⟨ecosystem, name, version⟩
    refine ⟨hkept _, fun hlisted => ?_⟩
    -- something leads under the name; it is listed, so it is this version
    obtain ⟨version', hleads⟩ := exists_leads (listed_lastWritten hlisted)
    rw [hone ecosystem name version version' hlisted (hkept _ hleads)]
    exact hleads

/-- **Inventories and images.**  For every list of layers that is inventoried: the packages of
the operating system are those that the databases of the last image list, each with the layer
since which it is listed, if and only if every version that the last written databases list
last under its name is still listed, no name is listed with two versions, and the layer since
which a listed version leads is the one since which it is listed. -/
theorem inventory_is_parse_iff {layers : List LayerSnapshot} {inventory : List ImagePackage}
    (hinventory : inventoryImage layers = .ok inventory) :
    IsParse layers inventory ↔
      (∀ p, Leads layers p → Listed layers p) ∧
        (∀ ecosystem name version version', Listed layers ⟨ecosystem, name, version⟩ →
          Listed layers ⟨ecosystem, name, version'⟩ → version = version') ∧
        ∀ p leader lister, HeldSince (Leads · p) layers leader →
          HeldSince (Listed · p) layers lister → leader.digest = lister.digest := by
  have hrecords := records_inventoryWalk layers
  constructor
  · rintro ⟨hpackages, hintroducers⟩
    obtain ⟨hkept, hone⟩ := (leads_iff_listed_iff layers).mp fun p =>
      (exists_os_iff_leads hinventory p).symm.trans (hpackages p)
    refine ⟨hkept, hone, ?_⟩
    intro p leader lister hleader hlister
    obtain ⟨pkg, hlookup, rfl⟩ := hrecords.leader p hleader.holds
    obtain ⟨-, -, leader', hleader', hdigest⟩ := hrecords.entry _ _ hlookup
    obtain ⟨hmem, horigin⟩ := (os_mem_inventoryImage hinventory pkg).mpr hlookup
    obtain ⟨lister', hlister', hdigest'⟩ := hintroducers pkg hmem horigin
    obtain rfl := hleader.unique hleader'
    obtain rfl := hlister.unique hlister'
    exact hdigest.symm.trans hdigest'
  · rintro ⟨hkept, hone, hsame⟩
    have hall := (leads_iff_listed_iff layers).mpr ⟨hkept, hone⟩
    refine ⟨fun p => (exists_os_iff_leads hinventory p).trans (hall p), ?_⟩
    intro pkg hmem horigin
    obtain ⟨-, -, leader, hleader, hdigest⟩ :=
      hrecords.entry _ _ ((os_mem_inventoryImage hinventory pkg).mp ⟨hmem, horigin⟩)
    obtain ⟨lister, hlister⟩ : ∃ lister, HeldSince (Listed · pkg.osPackage) layers lister :=
      exists_heldSince (not_listed_nil pkg.osPackage) (hkept _ hleader.holds)
    exact ⟨lister, hlister, hdigest.trans (hsame _ _ _ hleader hlister)⟩

/-! ## A removed database -/

/-- A layer with a database of one package. -/
def muslLayer : LayerSnapshot where
  digest := "sha256:base"
  files := [("lib/apk/db/installed", "P:musl\nV:1.2.4-r2\n")]

def musl : ImagePackage where
  name := "musl"
  version := "1.2.4-r2"
  ecosystem := "Alpine"
  purl := "pkg:apk/musl@1.2.4-r2?distro=alpine"
  path := "lib/apk/db/installed"
  layerDigest := "sha256:base"
  origin := .os

theorem osPackages_muslLayer : osPackages (overlayOf [muslLayer]) = [musl.osPackage] := by
  decide +kernel

/-- The package of the database alone is inventoried. -/
theorem inventory_is_parse_musl : IsParse [muslLayer] [musl] := by
  have hwritten : lastWritten [muslLayer] = [muslLayer] := rfl
  refine (inventory_is_parse_iff rfl).mpr ⟨?_, ?_, ?_⟩
  · intro p hp
    exact hwritten ▸ hp.listed
  · intro ecosystem name version version' hlisted hlisted'
    unfold Listed at hlisted hlisted'
    rw [osPackages_muslLayer, List.mem_singleton] at hlisted hlisted'
    exact congrArg OsPackage.version (hlisted.trans hlisted'.symm)
  · intro p leader lister hleader hlister
    rw [List.mem_singleton.mp hleader.mem, List.mem_singleton.mp hlister.mem]

/-- A layer that removes the database. -/
def removingLayer : LayerSnapshot where
  digest := "sha256:app"
  whiteouts := ["lib/apk/db/installed"]

/-- The image has no database, the inventory still has its package. -/
theorem inventory_keeps_removed_database :
    ¬ ∀ (layers : List LayerSnapshot) (inventory : List ImagePackage),
      inventoryImage layers = .ok inventory → IsParse layers inventory := by
  intro hall
  have hparse := hall [muslLayer, removingLayer] [musl] rfl
  have hlisted : Listed [muslLayer, removingLayer] musl.osPackage :=
    (hparse.packages musl.osPackage).mp ⟨musl, List.mem_singleton_self musl, rfl, rfl⟩
  have hnone : osPackages (overlayOf [muslLayer, removingLayer]) = [] := by decide +kernel
  unfold Listed at hlisted
  rw [hnone] at hlisted
  cases hlisted

end Scanner
end Ctem
