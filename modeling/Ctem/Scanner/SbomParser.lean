import Ctem.Foundation.Bfs
import Ctem.Foundation.JsText

/-!
# The SBOM parser

An uploaded document is read as a CycloneDX document whatever its format is: a
member that another format does not have is missing, and a missing list of
components is the empty one.

* `CycloneDxComponent` nests, as the format allows; `parseCycloneDx` reads the top
  level only.
* `StoredDocument` is a document of one of the formats an upload may declare,
  `asCycloneDx` what the parser sees of it.
-/

namespace Ctem
namespace Scanner

open Foundation

/-- A package version a scanner found. -/
structure ResolvedComponent where
  purl : String
  name : String
  version : String
  ecosystem : String
  direct : Bool := false
  dependencyPath : List String := []
  licenses : List String := []
  manifestPath : Option String := none
deriving DecidableEq, Repr

/-! ## Package URLs -/

/-- `decodeURIComponent`, which throws on a malformed escape. -/
abbrev UriDecoder := String → Except String String

/-- The capture of `/^pkg:([^/]+)\//`. -/
def purlType? (purl : String) : Option String :=
  if startsWith purl "pkg:" then
    let rest := purl.toList.drop 4
    let type := rest.takeWhile fun c => decide (c ≠ '/')
    if type = [] ∨ type.length = rest.length then none else some (String.ofList type)
  else none

/-- The ecosystem names OSV uses, by purl type. -/
def osvEcosystems : AssocMap String String :=
  [("npm", "npm"), ("pypi", "PyPI"), ("maven", "Maven"), ("golang", "Go"), ("cargo", "crates.io"),
    ("gem", "RubyGems"), ("nuget", "NuGet"), ("composer", "Packagist"), ("deb", "Debian"),
    ("apk", "Alpine"), ("rpm", "Red Hat")]

/-- `ecosystemFromPurl`: OSV's name for the purl type, else the type itself. -/
def ecosystemFromPurl (purl : Option String) : String :=
  match purl with
  | none => "unknown"
  | some purl =>
      let type := (purlType? purl).getD "unknown"
      if purl = "" then "unknown" else (AssocMap.lookup? osvEcosystems type).getD type

/-- The captures of `/^pkg:maven\/([^/@]+)\/([^/@?#]+)/i`. -/
def mavenCoordinates? (purl : String) : Option (String × String) :=
  if asciiLower (String.ofList (purl.toList.take 10)) = "pkg:maven/" then
    let rest := purl.toList.drop 10
    let group := rest.takeWhile fun c => decide (c ∉ ['/', '@'])
    match rest.drop group.length with
    | '/' :: behind =>
        let artifact := behind.takeWhile fun c => decide (c ∉ ['/', '@', '?', '#'])
        if group = [] ∨ artifact = [] then none
        else some (String.ofList group, String.ofList artifact)
    | _ => none
  else none

/-- `mavenNameFromPurl`: `group:artifact`, as OSV names Maven packages. -/
def mavenNameFromPurl (decode : UriDecoder) (purl : Option String) :
    Except String (Option String) :=
  match purl.bind mavenCoordinates? with
  | none => .ok none
  | some (group, artifact) => do
      let group ← decode group
      let artifact ← decode artifact
      pure (some (group ++ ":" ++ artifact))

/-! ## CycloneDX documents -/

structure CycloneDxLicense where
  id : Option String := none
  name : Option String := none
deriving DecidableEq, Repr

/-- A component, with the components it is assembled from. -/
structure CycloneDxComponent where
  bomRef : Option String := none
  purl : Option String := none
  group : Option String := none
  name : String
  version : String
  licenses : List CycloneDxLicense := []
  components : List CycloneDxComponent := []

structure CycloneDxDependency where
  ref : String
  dependsOn : List String := []
deriving DecidableEq, Repr

structure CycloneDxDocument where
  rootRef : Option String := none
  components : List CycloneDxComponent := []
  dependencies : List CycloneDxDependency := []

/-- How the dependency graph refers to a component. -/
def CycloneDxComponent.ref (c : CycloneDxComponent) : String :=
  (c.bomRef.or c.purl).getD (c.name ++ "@" ++ c.version)

/-- `componentName`. -/
def componentName (decode : UriDecoder) (c : CycloneDxComponent) : Except String String := do
  let maven ← mavenNameFromPurl decode c.purl
  pure (maven.getD c.name)

/-- The edges of the dependency graph; the last entry of a ref counts. -/
def dependencyEdges (dependencies : List CycloneDxDependency) (ref : String) : List String :=
  ((dependencies.reverse.find? fun d => decide (d.ref = ref)).map
    CycloneDxDependency.dependsOn).getD []

/-- `shortestPaths`: the chain of refs from a direct dependency down to each ref. -/
def shortestPaths (rootRef : Option String) (dependencies : List CycloneDxDependency) :
    AssocMap String (List String) :=
  match rootRef with
  | none => []
  | some root =>
      if root = "" then []
      else
        (Bfs.fromRoot (dependencyEdges dependencies)
          (dependencies.flatMap CycloneDxDependency.dependsOn) root).paths.filter fun e =>
            decide (e.1 ≠ root)

/-- The search behind `shortestPaths` ends with its queue drained. -/
theorem shortestPaths_drained (dependencies : List CycloneDxDependency) (root : String) :
    (Bfs.fromRoot (dependencyEdges dependencies)
      (dependencies.flatMap CycloneDxDependency.dependsOn) root).queue = [] := by
  apply Bfs.fromRoot_drained
  intro ref next hnext
  unfold dependencyEdges at hnext
  cases hfind : dependencies.reverse.find? fun d => decide (d.ref = ref) with
  | none => simp [hfind] at hnext
  | some d =>
      rw [hfind] at hnext
      have hmem : d ∈ dependencies := by
        simpa using List.mem_of_find?_eq_some hfind
      exact List.mem_flatMap.mpr ⟨d, hmem, hnext⟩

/-- The names of a component's licenses. -/
def licenseNames (licenses : List CycloneDxLicense) : List String :=
  (licenses.map fun l => (l.id.or l.name).getD "unknown").filter fun s => decide (s ≠ "")

/-- The entry of one component, under the name it was given. -/
def resolveComponent (doc : CycloneDxDocument) (nameByRef : AssocMap String String)
    (c : CycloneDxComponent) (name : String) : ResolvedComponent where
  purl := c.purl.getD ("pkg:generic/" ++ c.name ++ "@" ++ c.version)
  name := name
  version := c.version
  ecosystem := ecosystemFromPurl c.purl
  direct := decide (c.ref ∈ ((doc.dependencies.find? fun d =>
    decide (some d.ref = doc.rootRef)).map CycloneDxDependency.dependsOn).getD [])
  dependencyPath :=
    ((AssocMap.lookup? (shortestPaths doc.rootRef doc.dependencies) c.ref).getD []).map fun r =>
      (AssocMap.lookup? nameByRef r).getD r
  licenses := licenseNames c.licenses

/-- `parseCycloneDx`: the components of the top level. -/
def parseCycloneDx (decode : UriDecoder) (doc : CycloneDxDocument) :
    Except String (List ResolvedComponent) := do
  let names ← doc.components.mapM (componentName decode)
  let named := doc.components.zip names
  let nameByRef := AssocMap.groupFold (fun e : CycloneDxComponent × String => e.1.ref)
    (fun e _ => e.2) named
  pure (named.map fun e => resolveComponent doc nameByRef e.1 e.2)

/-! ## Documents of the formats an upload declares -/

/-- `SbomFormat`. -/
inductive SbomFormat where
  | cyclonedxJson | spdxJson | syftJson
deriving DecidableEq, Repr

def SbomFormat.name : SbomFormat → String
  | cyclonedxJson => "cyclonedx-json"
  | spdxJson => "spdx-json"
  | syftJson => "syft-json"

/-- An entry of `externalRefs`. -/
structure SpdxExternalRef where
  referenceType : String
  referenceLocator : String
deriving DecidableEq, Repr

structure SpdxPackage where
  name : String
  versionInfo : Option String := none
  externalRefs : List SpdxExternalRef := []
deriving DecidableEq, Repr

structure SyftArtifact where
  name : String
  version : String
  purl : String
deriving DecidableEq, Repr

/-- A document, with what its format lists packages in. -/
inductive StoredDocument where
  | cyclonedx (doc : CycloneDxDocument)
  | spdx (packages : List SpdxPackage)
  | syft (artifacts : List SyftArtifact)

def StoredDocument.format : StoredDocument → SbomFormat
  | cyclonedx _ => .cyclonedxJson
  | spdx _ => .spdxJson
  | syft _ => .syftJson

/-- The document as the parser reads it: an SPDX or Syft document has none of the
members it looks at. -/
def StoredDocument.asCycloneDx : StoredDocument → CycloneDxDocument
  | cyclonedx doc => doc
  | spdx _ => {}
  | syft _ => {}

/-- The parse `fromArtifact` applies to what it has read. -/
def parseStored (decode : UriDecoder) (doc : StoredDocument) :
    Except String (List ResolvedComponent) :=
  parseCycloneDx decode doc.asCycloneDx

end Scanner
end Ctem
