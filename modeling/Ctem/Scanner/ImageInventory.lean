import Mathlib.Data.List.ReduceOption
import Mathlib.Logic.Function.Basic
import Ctem.Foundation.JsonText
import Ctem.Scanner.ContainerScanner
import Ctem.Scanner.ImageLayers

/-!
# The packages of an image

`inventoryImage` lays the layers over one another, oldest first.  The packages of the operating
system are read from its databases whenever a layer has written one, and recorded by name
together with the layer that introduced them; the packages of the applications are read from
the last overlay.
-/

namespace Ctem
namespace Scanner

open Foundation

/-- `MAX_INVENTORY_PACKAGES`. -/
def maxInventoryPackages : Nat := 20000

/-! ## Package URLs -/

/-- What `encodeURIComponent` leaves as it is. -/
def isUriUnreserved (c : Char) : Bool :=
  c.isAlphanum || decide (c ∈ ['-', '_', '.', '!', '~', '*', '\'', '(', ')'])

def percentByte (b : UInt8) : List Char :=
  let digits := "0123456789ABCDEF".toList
  ['%', digits.getD (b.toNat / 16) '0', digits.getD (b.toNat % 16) '0']

/-- `encodePurl`: `encodeURIComponent` with the slashes put back. -/
def encodePurl (value : String) : String :=
  String.ofList (value.toList.flatMap fun c =>
    if isUriUnreserved c || c == '/' then [c]
    else (String.utf8EncodeChar c).flatMap percentByte)

def npmPurl (name version : String) : String :=
  let slash := name.toList.findIdx? (· = '/')
  match startsWith name "@", slash with
  | true, some slash =>
      if slash > 1 then
        "pkg:npm/%40" ++ encodePurl (String.ofList ((name.toList.take slash).drop 1)) ++ "/" ++
          encodePurl (String.ofList (name.toList.drop (slash + 1))) ++ "@" ++ version
      else "pkg:npm/" ++ encodePurl name ++ "@" ++ version
  | _, _ => "pkg:npm/" ++ encodePurl name ++ "@" ++ version

/-! ## Databases of fields -/

/-- `content.split('\n')`. -/
def textLines (content : String) : List String :=
  (splitOn '\n' content.toList).map String.ofList

/-- The values of the fields of one package; a field that is not there is empty. -/
abbrev Stanza := String → String

/-- A line that begins with a label sets its field. -/
def readField (labels : List String) (stanza : Stanza) (line : String) : Stanza :=
  match labels.find? (startsWith line) with
  | some label => Function.update stanza label (trimText (stripStart label line))
  | none => stanza

/-- One line of a database: an empty one ends the stanza. -/
def stanzaLine (labels : List String) (walk : List Stanza × Stanza) (line : String) :
    List Stanza × Stanza :=
  if line = "" then (walk.1 ++ [walk.2], fun _ => "")
  else (walk.1, readField labels walk.2 line)

/-- The stanzas of a database, the last one ended by its end. -/
def stanzas (labels : List String) (content : String) : List Stanza :=
  let walk := (textLines content).foldl (stanzaLine labels) ([], fun _ => "")
  walk.1 ++ [walk.2]

def parseApkInstalled (content path layerDigest : String) : List ImagePackage :=
  (stanzas ["P:", "V:"] content).filterMap fun stanza =>
    let name := stanza "P:"
    let version := stanza "V:"
    if name ≠ "" ∧ version ≠ "" then
      some
        { name := name
          version := version
          ecosystem := "Alpine"
          purl := "pkg:apk/" ++ encodePurl name ++ "@" ++ version ++ "?distro=alpine"
          path := path
          layerDigest := layerDigest
          origin := .os }
    else none

def parseDpkgStatus (content path layerDigest : String) : List ImagePackage :=
  (stanzas ["Package:", "Version:", "Status:"] content).filterMap fun stanza =>
    let name := stanza "Package:"
    let version := stanza "Version:"
    let status := stanza "Status:"
    if name ≠ "" ∧ version ≠ "" ∧ includes status "installed" = true ∧
        includes status "not-installed" = false then
      some
        { name := name
          version := version
          ecosystem := "Debian"
          purl := "pkg:deb/debian/" ++ encodePurl name ++ "@" ++ version
          path := path
          layerDigest := layerDigest
          origin := .os }
    else none

/-! ## Packages of applications -/

def parseNpmPackageJson (content path layerDigest : String) :
    Except String (Option ImagePackage) :=
  match parseJson content with
  | none =>
      .error ("Failed to parse '" ++ path ++
        "' as JSON — refusing incomplete layer inventory")
  | some parsed =>
      let field := fun key => ((parsed.get? key).bind Json.str?).getD ""
      let name := field "name"
      let version := field "version"
      if name = "" ∨ version = "" then .ok none
      else
        .ok (some
          { name := name
            version := version
            ecosystem := "npm"
            purl := npmPurl name version
            path := path
            layerDigest := layerDigest
            origin := .app })

def parsePythonMetadata (content path layerDigest : String) : Option ImagePackage :=
  let fields := (textLines content).foldl (readField ["Name:", "Version:"]) fun _ => ""
  let name := fields "Name:"
  let version := fields "Version:"
  if name = "" ∨ version = "" then none
  else
    some
      { name := name
        version := version
        ecosystem := "PyPI"
        purl := "pkg:pypi/" ++ encodePurl name ++ "@" ++ version
        path := path
        layerDigest := layerDigest
        origin := .app }

/-- The capture of the first match of `/\.field\s*=\s*["']([^"']+)["']/`. -/
def gemAttribute (field : String) (content : String) : Option String :=
  content.toList.tails.findSome? fun rest =>
    if ('.' :: field.toList).isPrefixOf rest then
      match (rest.drop (field.toList.length + 1)).dropWhile isJsSpace with
      | '=' :: behind =>
          match behind.dropWhile isJsSpace with
          | quote :: quoted =>
              let value := quoted.takeWhile fun c => decide (c ≠ '"' ∧ c ≠ '\'')
              if (quote = '"' ∨ quote = '\'') ∧ value ≠ [] ∧ value.length < quoted.length then
                some (String.ofList value)
              else none
          | [] => none
      | _ => none
    else none

def parseGemspec (content path layerDigest : String) : Option ImagePackage :=
  match gemAttribute "name" content, gemAttribute "version" content with
  | some name, some version =>
      some
        { name := name
          version := version
          ecosystem := "RubyGems"
          purl := "pkg:gem/" ++ encodePurl name ++ "@" ++ version
          path := path
          layerDigest := layerDigest
          origin := .app }
  | _, _ => none

/-- One file of the loop of `parseAppPackages`. -/
def parseAppPackage (path : String) (file : OverlayFile) : Except String (Option ImagePackage) :=
  if endsWith path "/package.json" ∧ includes path "node_modules/" = true then
    parseNpmPackageJson file.content path file.layerDigest
  else if endsWith path ".dist-info/METADATA" ∨ endsWith path ".egg-info/PKG-INFO" = true then
    .ok (parsePythonMetadata file.content path file.layerDigest)
  else if includes path "/specifications/" ∧ endsWith path ".gemspec" = true then
    .ok (parseGemspec file.content path file.layerDigest)
  else .ok none

def parseAppPackages (overlay : Overlay) : Except String (List ImagePackage) :=
  (overlay.mapM fun e => parseAppPackage e.1 e.2).map List.reduceOption

/-! ## The databases of an overlay -/

def isOsDbPath (path : String) : Bool :=
  endsWith path "lib/apk/db/installed" || endsWith path "var/lib/dpkg/status" ||
    includes path "var/lib/dpkg/status.d/"

def osDbFiles (overlay : Overlay) : Overlay :=
  overlay.filter fun e => isOsDbPath e.1

/-- A database of the overlay is of that layer. -/
def dbTouched (overlay : Overlay) (layer : LayerSnapshot) : Bool :=
  (osDbFiles overlay).any fun e => e.2.layerDigest == layer.digest

/-- One file of the loop of `parseOsPackages`. -/
def parseOsFile (path body layerDigest : String) : List ImagePackage :=
  if endsWith path "lib/apk/db/installed" then parseApkInstalled body path layerDigest
  else if endsWith path "var/lib/dpkg/status" ∨ includes path "var/lib/dpkg/status.d/" = true then
    parseDpkgStatus body path layerDigest
  else []

def parseOsPackages (files : Overlay) (layerDigest : String) : List ImagePackage :=
  files.flatMap fun e => parseOsFile e.1 e.2.content layerDigest

/-- The path of an RPM database that `assertNoUnparsedRpm` refuses. -/
def isRpmDatabase (path : String) : Bool :=
  (includes path "var/lib/rpm/" || includes path "usr/lib/sysimage/rpm/" ||
      basename path == "Packages" || basename path == "Packages.db") &&
    (endsWith path "rpmdb.sqlite" || endsWith path "Packages" || endsWith path "Packages.db")

def assertNoUnparsedRpm (overlay : Overlay) : Except String Unit :=
  match overlay.keys.find? isRpmDatabase with
  | some path =>
      .error ("RPM database at '" ++ path ++
        "' cannot be inventoried in-process — refusing incomplete layer inventory")
  | none => .ok ()

/-! ## The loop over the layers -/

/-- The overlay so far, and the packages of the operating system by name. -/
structure InventoryWalk where
  overlay : Overlay := []
  osByName : AssocMap String ImagePackage := []

/-- `os:${pkg.ecosystem}:${pkg.name}`. -/
def osKey (ecosystem name : String) : String :=
  "os:" ++ ecosystem ++ ":" ++ name

def ImagePackage.osKey (pkg : ImagePackage) : String :=
  Scanner.osKey pkg.ecosystem pkg.name

/-- The entry of a package that a layer's databases list: what was recorded under its name if
it has that version, else one the layer introduces. -/
def introduced (osByName : AssocMap String ImagePackage) (layerDigest : String)
    (pkg : ImagePackage) : ImagePackage :=
  match osByName.lookup? pkg.osKey with
  | some prev =>
      if prev.version = pkg.version then prev else { pkg with layerDigest := layerDigest }
  | none => { pkg with layerDigest := layerDigest }

/-- One layer. -/
def InventoryWalk.add (walk : InventoryWalk) (layer : LayerSnapshot) : InventoryWalk :=
  let overlay := applyLayer walk.overlay layer
  if dbTouched overlay layer then
    { overlay := overlay
      osByName := AssocMap.groupFold ImagePackage.osKey
        (fun pkg _ => introduced walk.osByName layer.digest pkg)
        (parseOsPackages (osDbFiles overlay) layer.digest) }
  else { overlay := overlay, osByName := walk.osByName }

def inventoryWalk (layers : List LayerSnapshot) : InventoryWalk :=
  layers.foldl InventoryWalk.add {}

def inventoryImage (layers : List LayerSnapshot) : Except String (List ImagePackage) := do
  let walk := inventoryWalk layers
  assertNoUnparsedRpm walk.overlay
  let app ← parseAppPackages walk.overlay
  let all := walk.osByName.values ++ app
  if all.length > maxInventoryPackages then
    .error ("Package inventory exceeded " ++ toString maxInventoryPackages ++
      " — refusing truncated inventory")
  else pure all

theorem inventoryWalk_concat (layers : List LayerSnapshot) (layer : LayerSnapshot) :
    inventoryWalk (layers ++ [layer]) = (inventoryWalk layers).add layer := by
  unfold inventoryWalk
  rw [List.foldl_append, List.foldl_cons, List.foldl_nil]

/-- The overlay of the walk is the overlay of the layers. -/
theorem overlay_inventoryWalk (layers : List LayerSnapshot) :
    (inventoryWalk layers).overlay = overlayOf layers := by
  induction layers using List.reverseRecOn with
  | nil => rfl
  | append_singleton layers layer ih =>
      have hadd : ((inventoryWalk layers).add layer).overlay =
          applyLayer (inventoryWalk layers).overlay layer := by
        unfold InventoryWalk.add
        simp only
        split <;> rfl
      rw [inventoryWalk_concat, hadd, ih]
      unfold overlayOf
      rw [List.foldl_append, List.foldl_cons, List.foldl_nil]

/-! ## What is read -/

theorem origin_of_parseAppPackage {path : String} {file : OverlayFile} {pkg : ImagePackage}
    (h : parseAppPackage path file = .ok (some pkg)) : pkg.origin = .app := by
  unfold parseAppPackage at h
  split at h
  · unfold parseNpmPackageJson at h
    split at h
    · cases h
    · simp only at h
      split at h
      · cases h
      · cases h
        rfl
  split at h
  · have hread := Except.ok.inj h
    unfold parsePythonMetadata at hread
    simp only at hread
    split at hread
    · cases hread
    · cases hread
      rfl
  split at h
  · have hread := Except.ok.inj h
    unfold parseGemspec at hread
    split at hread
    · cases hread
      rfl
    · cases hread
  · cases h

/-- Packages of applications are of that origin. -/
theorem origin_of_parseAppPackages {overlay : Overlay} {app : List ImagePackage}
    (h : parseAppPackages overlay = .ok app) : ∀ pkg ∈ app, pkg.origin = .app := by
  intro pkg hpkg
  unfold parseAppPackages at h
  cases hall : overlay.mapM fun e => parseAppPackage e.1 e.2 with
  | error message =>
      rw [hall] at h
      cases h
  | ok found =>
      rw [hall] at h
      obtain rfl := Except.ok.inj h
      obtain ⟨e, -, he⟩ := exists_of_mem_mapM hall (List.reduceOption_mem_iff.mp hpkg)
      exact origin_of_parseAppPackage he

end Scanner
end Ctem
