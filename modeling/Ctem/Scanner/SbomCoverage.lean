import Ctem.Scanner.ScaScanner

/-!
# What an uploaded SBOM lists, and what of it is matched

A complete parser would return every package a document lists: the components of a
CycloneDX document at any depth, the packages of an SPDX document, the artifacts of a
Syft document.

* `listedPackages` are those with a name, a version and a purl.
* `TopLevel` is what the parser looks at.
* `sbom_matched_whole_iff`: the SCA job of a document fails or has every listed package,
  precisely when it fails or the parser's view of the document has every one.
-/

namespace Ctem
namespace Scanner

open Foundation Contracts

/-- A package a document lists. -/
structure ListedPackage where
  name : String
  version : String
  purl : String
deriving DecidableEq, Repr

/-! ## The packages of a document -/

mutual

/-- The packages of a component and of those it is assembled from. -/
def CycloneDxComponent.listed : CycloneDxComponent → List ListedPackage
  | ⟨_, purl, _, name, version, _, components⟩ =>
      (purl.map fun p => (⟨name, version, p⟩ : ListedPackage)).toList ++ listedComponents components

/-- The packages of a list of components. -/
def listedComponents : List CycloneDxComponent → List ListedPackage
  | [] => []
  | c :: cs => c.listed ++ listedComponents cs

end

/-- The package of an SPDX entry with a version and a purl reference. -/
def SpdxPackage.listed (p : SpdxPackage) : List ListedPackage :=
  match p.versionInfo, p.externalRefs.find? fun r => decide (r.referenceType = "purl") with
  | some version, some ref => [⟨p.name, version, ref.referenceLocator⟩]
  | _, _ => []

/-- What a document lists. -/
def listedPackages : StoredDocument → List ListedPackage
  | .cyclonedx doc => listedComponents doc.components
  | .spdx packages => packages.flatMap SpdxPackage.listed
  | .syft artifacts => artifacts.map fun a => ⟨a.name, a.version, a.purl⟩

/-- A component is the listed package: its name, its version, the ecosystem of its purl. -/
def ResolvedComponent.Is (c : ResolvedComponent) (p : ListedPackage) : Prop :=
  c.name = p.name ∧ c.version = p.version ∧ c.ecosystem = ecosystemFromPurl (some p.purl)

/-- A listed package is a component of the document's top level, under the name the
parser gives that one: `group:artifact` for a Maven purl. -/
def TopLevel (decode : UriDecoder) (doc : StoredDocument) (p : ListedPackage) : Prop :=
  ∃ c ∈ doc.asCycloneDx.components, componentName decode c = .ok p.name ∧ c.version = p.version ∧
    ecosystemFromPurl c.purl = ecosystemFromPurl (some p.purl)

/-- A purl the parser cannot decode. -/
def UndecodablePurl (decode : UriDecoder) (doc : StoredDocument) : Prop :=
  ∃ c ∈ doc.asCycloneDx.components, ∃ message, componentName decode c = .error message

/-! ## The parser -/

/-- The parser throws precisely for a purl it cannot decode. -/
theorem parseStored_eq_error_iff (decode : UriDecoder) (doc : StoredDocument) :
    (∃ message, parseStored decode doc = .error message) ↔ UndecodablePurl decode doc := by
  unfold UndecodablePurl
  rw [← mapM_eq_error_iff]
  unfold parseStored parseCycloneDx
  cases doc.asCycloneDx.components.mapM (componentName decode) with
  | error message => simp [bind, Except.bind]
  | ok names => simp [bind, Except.bind, pure, Except.pure]

/-- The components of a document are those of its top level. -/
theorem parseStored_components {decode : UriDecoder} {doc : StoredDocument}
    {components : List ResolvedComponent} (h : parseStored decode doc = .ok components) :
    components.length = doc.asCycloneDx.components.length ∧
      ∀ p, (∃ c ∈ components, c.Is p) ↔ TopLevel decode doc p := by
  unfold parseStored parseCycloneDx at h
  obtain ⟨names, hnames, h⟩ := bind_eq_ok.mp h
  have hall := (mapM_eq_ok_iff _ _ _).mp hnames
  obtain rfl := Except.ok.inj h
  refine ⟨by simp [hall.length_eq], ?_⟩
  intro p
  unfold TopLevel ResolvedComponent.Is
  constructor
  · rintro ⟨c, hc, hname, hversion, hecosystem⟩
    obtain ⟨⟨component, name⟩, hmem, rfl⟩ := List.mem_map.mp hc
    have hok : componentName decode component = .ok name := List.forall₂_zip hall hmem
    exact ⟨component, (List.of_mem_zip hmem).1, hname ▸ hok, hversion, hecosystem⟩
  · rintro ⟨component, hcomponent, hname, hversion, hecosystem⟩
    obtain ⟨i, hi, rfl⟩ := List.getElem_of_mem hcomponent
    have hi' : i < names.length := hall.length_eq ▸ hi
    have hok := hall.get hi hi'
    simp only [List.get_eq_getElem] at hok
    rw [hname, Except.ok.injEq] at hok
    refine ⟨_, List.mem_map_of_mem (List.getElem_mem (n := i) ?_), ?_⟩
    · rw [List.length_zip]
      omega
    · simp only [List.getElem_zip]
      exact ⟨hok.symm, hversion, hecosystem⟩

/-! ## The job -/

/-- The SCA job of a document fails or has every listed package among its components,
precisely when it cannot decode a purl, misses its deadline, or every listed package is
one of the document's top level. -/
theorem sbom_matched_whole_iff {γ : Type} (calls : ScaCalls γ) (job : ScanJob) (key : String)
    (doc : StoredDocument) (hkey : sbomKey? job = some (.str key))
    (hdoc : calls.getJson key = .ok doc) :
    ((∃ message, scaExecute calls job = .error message) ∨
      ∃ input, resolveInput calls job = .ok input ∧
        ∀ p ∈ listedPackages doc, ∃ c ∈ input.1, c.Is p) ↔
      UndecodablePurl calls.decode doc ∨
        (∃ i < doc.asCycloneDx.components.length, calls.inTime i = false) ∨
        ∀ p ∈ listedPackages doc, TopLevel calls.decode doc p := by
  have hinput : resolveInput calls job =
      (parseStored calls.decode doc).map fun components => (components, none) := by
    unfold resolveInput
    simp only [hkey]
    unfold fromArtifact
    simp [requestKey, hdoc, bind, Except.bind]
  cases hparse : parseStored calls.decode doc with
  | error message =>
      rw [hparse] at hinput
      have hbad := (parseStored_eq_error_iff calls.decode doc).mp ⟨message, hparse⟩
      refine ⟨fun _ => Or.inl hbad, fun _ => Or.inl ⟨message, ?_⟩⟩
      unfold scaExecute
      rw [hinput]
      rfl
  | ok components =>
      rw [hparse] at hinput
      have hinput' : resolveInput calls job = .ok (components, none) := hinput
      have hgood : ¬ UndecodablePurl calls.decode doc := by
        rw [← parseStored_eq_error_iff, hparse]
        simp
      obtain ⟨hlength, htop⟩ := parseStored_components hparse
      have hfails : (∃ message, scaExecute calls job = .error message) ↔
          ∃ i < doc.asCycloneDx.components.length, calls.inTime i = false := by
        have hscaFails : ScaFails calls job ↔
            ∃ i < doc.asCycloneDx.components.length, calls.inTime i = false := by
          unfold ScaFails
          rcases resolveInput_eq calls job with ⟨-, message, herror⟩ | ⟨hreads, -⟩
          · rw [hinput'] at herror
            exact absurd herror (by simp)
          · rw [hinput', ← hlength]
            simp [hreads]
        rcases scaExecute_eq calls job with ⟨hf, message, hexec⟩ | ⟨hf, -, outcome, -, hexec, -⟩
        · exact ⟨fun _ => hscaFails.mp hf, fun _ => ⟨message, hexec⟩⟩
        · rw [← hscaFails, hexec]
          simp [hf]
      rw [hfails, hinput']
      simp only [Except.ok.injEq, exists_eq_left', hgood, false_or]
      simp only [htop]

/-- The calls of a job on one stored document. -/
def storedCalls (doc : StoredDocument) : ScaCalls Unit where
  objectKey := fun _ => .error "Key is no string"
  getJson := fun _ => .ok doc
  decode := .ok
  checkout := fun _ => .error "no clone"
  localeLess := fun _ _ => false
  parsers := []
  analyze := fun _ => .ok none
  verdictForComponent := fun _ _ => "unknown"
  inTime := fun _ => true
  runtime := ⟨fun _ => none, fun _ => "", asciiLower⟩
  matcher :=
    { findSync := fun _ => .ok none
      findAffects := fun _ => .ok []
      queryOsv := fun _ => .ok [] }

/-- The job an upload results in. -/
def sbomJob : ScanJob where
  jobId := "j1"
  scanId := "s1"
  orgId := "org-a"
  scannerType := .sca
  assetId := "a1"
  target := []
  options := [("sbomArtifactKey", .str "org=org-a/sbom/a1/1.json")]

/-- A flat CycloneDX document that lists lodash. -/
def flatDocument : StoredDocument :=
  .cyclonedx
    { components := [
        { purl := some "pkg:npm/lodash@4.17.20"
          name := "lodash"
          version := "4.17.20" }] }

/-- The same package as an SPDX document lists it. -/
def spdxDocument : StoredDocument :=
  .spdx
    [{ name := "lodash"
       versionInfo := some "4.17.20"
       externalRefs := [⟨"purl", "pkg:npm/lodash@4.17.20"⟩] }]

/-- A flat CycloneDX document is matched whole. -/
theorem flat_document_matched_whole :
    (∃ message, scaExecute (storedCalls flatDocument) sbomJob = .error message) ∨
      ∃ input, resolveInput (storedCalls flatDocument) sbomJob = .ok input ∧
        ∀ p ∈ listedPackages flatDocument, ∃ c ∈ input.1, c.Is p :=
  (sbom_matched_whole_iff (storedCalls flatDocument) sbomJob "org=org-a/sbom/a1/1.json" flatDocument
    rfl rfl).mpr (Or.inr (Or.inr (by
      intro p hp
      have heq : p = ⟨"lodash", "4.17.20", "pkg:npm/lodash@4.17.20"⟩ := List.mem_singleton.mp hp
      subst heq
      exact ⟨_, List.mem_singleton.mpr rfl, rfl, rfl, rfl⟩)))

/-- An SPDX document that lists a package succeeds with no component. -/
theorem spdx_document_yields_nothing :
    listedPackages spdxDocument = [⟨"lodash", "4.17.20", "pkg:npm/lodash@4.17.20"⟩] ∧
      resolveInput (storedCalls spdxDocument) sbomJob = .ok ([], none) ∧
      (scaExecute (storedCalls spdxDocument) sbomJob).map (fun outcome => outcome.findings.length) =
        .ok 0 := by
  exact ⟨rfl, rfl, rfl⟩

end Scanner
end Ctem
