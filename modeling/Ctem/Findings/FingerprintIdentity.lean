import Ctem.Findings.Normalizer
import Ctem.Foundation.JoinedFields

/-!
# The identity behind a fingerprint

`fingerprint` hashes the fields of a finding's identity, joined with `|`.  Each scanner type has
its own identity, and the type is one of the fields.

* `FindingIdentity` is the identity of a finding in its asset: the rule or vulnerability and
  where it was found.
* `preimage_eq_iff`: two hashed texts are equal exactly when the types are and the fields are
  cut to the same pieces at every `|`.
* `preimage_identifies_iff` says for which two findings the hashed text is the identity.
-/

namespace Ctem
namespace Findings

open Foundation Contracts

/-! ## Identities -/

/-- How a finding names its package: by its purl, else by name and version. -/
inductive PackageRef where
  | purl (text : String)
  | versioned (name version : String)

/-- The text of a package in the hashed text. -/
def PackageRef.text : PackageRef → String
  | .purl text => text
  | .versioned name version => name ++ "@" ++ version

/-- What a finding is, within its asset. -/
inductive FindingIdentity where
  | iac (rule path resource : String)
  | container (vuln : String) (package : PackageRef) (layer : String)
  | cloudPosture (rule resource : String)
  | sca (vuln : String) (package : PackageRef)
  | sast (rule path : String)
  | secrets (rule path : String)
  | asm (rule place : String)

namespace FindingIdentity

def scannerType : FindingIdentity → ScannerType
  | .iac .. => .iac
  | .container .. => .container
  | .cloudPosture .. => .cloudPosture
  | .sca .. => .sca
  | .sast .. => .sast
  | .secrets .. => .secrets
  | .asm .. => .asm

/-- The texts of its parts. -/
def fields : FindingIdentity → List String
  | .iac rule path resource => [rule, path, resource]
  | .container vuln package layer => [vuln, package.text, layer]
  | .cloudPosture rule resource => [rule, resource]
  | .sca vuln package => [vuln, package.text]
  | .sast rule path => [rule, path]
  | .secrets rule path => [rule, path]
  | .asm rule place => [rule, place]

/-- The package, for the types that name one. -/
def package? : FindingIdentity → Option PackageRef
  | .container _ package _ => some package
  | .sca _ package => some package
  | _ => none

/-- How many bars each part has. -/
def bars (i : FindingIdentity) : List Nat := i.fields.map fun field => field.toList.count '|'

/-- The parts, cut at every bar. -/
def cut (i : FindingIdentity) : List (List Char) := cutFields '|' (i.fields.map String.toList)

end FindingIdentity

/-- The package of a location; `missing` stands for a part that is absent. -/
def packageRef (missing : String) (location : Location) : PackageRef :=
  match location.purl with
  | some purl => .purl purl
  | none =>
      .versioned (location.packageName.getD missing) (location.packageVersion.getD missing)

/-- The identity of a finding: an absent path, resource or layer is the empty text. -/
def identityOf (platform : Platform) (finding : RawFinding) : FindingIdentity :=
  let location := finding.location
  match finding.scannerType with
  | .iac => .iac (ruleId finding) (location.path.getD "") (location.resource.getD "")
  | .container =>
      .container (vulnOrExternalId platform finding) (packageRef "" location)
        (location.imageLayer.getD "")
  | .cloudPosture => .cloudPosture (ruleId finding) (location.resource.getD "")
  | .sca => .sca (vulnOrExternalId platform finding) (packageRef "undefined" location)
  | .sast => .sast (vulnOrExternalId platform finding) (location.path.getD "")
  | .secrets => .secrets (vulnOrExternalId platform finding) (location.path.getD "")
  | .asm =>
      .asm (vulnOrExternalId platform finding)
        (location.resource.getD (location.url.getD ((location.port.map toString).getD "")))

/-- The text `fingerprint` hashes. -/
def preimage (platform : Platform) (assetId : Uuid) (finding : RawFinding) : String :=
  joinWith "|" (identityParts platform assetId finding)

theorem fingerprint_eq (platform : Platform) (assetId : Uuid) (finding : RawFinding) :
    fingerprint platform assetId finding =
      platform.sha256Hex (preimage platform assetId finding) := rfl

section Preimages

variable {platform : Platform} {assetId : Uuid} {f g : RawFinding}

theorem scannerType_identityOf : (identityOf platform f).scannerType = f.scannerType := by
  unfold identityOf
  cases f.scannerType <;> rfl

theorem packageRef_text (missing : String) (location : Location) :
    (packageRef missing location).text =
      location.purl.getD (packageAtVersion missing location) := by
  unfold packageRef packageAtVersion
  cases location.purl <;> rfl

/-- The hashed parts: the asset, the type and the parts of the identity. -/
theorem identityParts_eq :
    identityParts platform assetId f =
      assetId :: f.scannerType.name :: (identityOf platform f).fields := by
  unfold identityParts identityOf
  cases htype : f.scannerType <;>
    simp only [FindingIdentity.fields, packageRef_text] <;> rfl

/-- The word of a scanner type has no bar. -/
theorem splitOn_name (t : ScannerType) : splitOn '|' t.name.toList = [t.name.toList] := by
  apply splitOn_of_not_mem
  cases t <;> decide

theorem name_injective {s t : ScannerType} (h : s.name = t.name) : s = t := by
  revert h
  cases s <;> cases t <;> decide

/-- For one asset the hashed texts are equal exactly when the types are equal and the parts of
the identities are cut to the same pieces. -/
theorem preimage_eq_iff :
    preimage platform assetId f = preimage platform assetId g ↔
      f.scannerType = g.scannerType ∧
        (identityOf platform f).cut = (identityOf platform g).cut := by
  have htext : ∀ h : RawFinding, (preimage platform assetId h).toList = ['|'].intercalate
      ((identityParts platform assetId h).map String.toList) :=
    fun h => toList_joinWith '|' (identityParts platform assetId h)
  have hcut : ∀ h : RawFinding, cutFields '|' ((identityParts platform assetId h).map
      String.toList) = splitOn '|' assetId.toList ++
        (h.scannerType.name.toList :: (identityOf platform h).cut) := by
    intro h
    rw [identityParts_eq]
    simp only [cutFields, FindingIdentity.cut, List.map_cons, List.flatMap_cons, splitOn_name]
    rfl
  have hne : ∀ h : RawFinding, (identityParts platform assetId h).map String.toList ≠ [] := by
    intro h
    rw [identityParts_eq]
    exact List.cons_ne_nil _ _
  rw [← String.toList_inj, htext, htext, joined_eq_iff (hne f) (hne g), hcut, hcut,
    List.append_cancel_left_eq, List.cons.injEq, String.toList_inj]
  exact and_congr_left' ⟨name_injective, congrArg ScannerType.name⟩

end Preimages

/-! ## When the text is the identity -/

/-- Two packages are named in one way: both by purl, or both by name and version with as many
at signs in the name. -/
def PackageRef.NamedAlike : PackageRef → PackageRef → Prop
  | .purl _, .purl _ => True
  | .versioned name _, .versioned name' _ => name.toList.count '@' = name'.toList.count '@'
  | _, _ => False

/-- The bars and at signs of the parts leave one way to read the text: identities of one type
whose parts are cut to the same pieces have as many bars in each part, and name the package in
one way. -/
def Unambiguous (i j : FindingIdentity) : Prop :=
  i.scannerType = j.scannerType → i.cut = j.cut →
    i.bars = j.bars ∧ ∀ p q, i.package? = some p → j.package? = some q → p.NamedAlike q

theorem PackageRef.eq_of_text {p q : PackageRef} (halike : p.NamedAlike q)
    (htext : p.text = q.text) : p = q := by
  cases p with
  | purl text =>
      cases q with
      | purl text' => exact congrArg PackageRef.purl htext
      | versioned name version => exact halike.elim
  | versioned name version =>
      cases q with
      | purl text => exact halike.elim
      | versioned name' version' =>
          have hjoined : ['@'].intercalate [name.toList, version.toList] =
              ['@'].intercalate [name'.toList, version'.toList] := by
            have hchars := congrArg String.toList htext
            simpa [PackageRef.text, List.intercalate_cons_cons] using hchars
          -- With as many at signs in the names there are as many in the versions.
          have hversion : version.toList.count '@' = version'.toList.count '@' := by
            have hcount := congrArg (List.count '@') hjoined
            simp only [List.intercalate_cons_cons, List.intercalate_singleton, List.count_append]
              at hcount
            have hname : name.toList.count '@' = name'.toList.count '@' := halike
            omega
          have hcut := (joined_eq_iff (List.cons_ne_nil _ _) (List.cons_ne_nil _ _)).mp hjoined
          have hlists := eq_of_cutFields (by
            simp only [List.map_cons, List.map_nil, hversion]
            rw [show name.toList.count '@' = name'.toList.count '@' from halike]) hcut
          obtain ⟨hname, hrest⟩ := List.cons.inj hlists
          obtain ⟨hversion', -⟩ := List.cons.inj hrest
          rw [String.toList_inj.mp hname, String.toList_inj.mp hversion']

section Identified

variable {i j : FindingIdentity}

/-- Fields of one type say what the identity is, once the package is named in one way. -/
theorem eq_of_fields (htype : i.scannerType = j.scannerType) (hfields : i.fields = j.fields)
    (hpackage : ∀ p q, i.package? = some p → j.package? = some q → p.NamedAlike q) : i = j := by
  cases i <;> cases j <;> cases htype <;>
    simp only [FindingIdentity.fields, List.cons.injEq, and_true] at hfields
  case container.container vuln p layer vuln' q layer' =>
    obtain ⟨rfl, htext, rfl⟩ := hfields
    rw [PackageRef.eq_of_text (hpackage p q rfl rfl) htext]
  case sca.sca vuln p vuln' q =>
    obtain ⟨rfl, htext⟩ := hfields
    rw [PackageRef.eq_of_text (hpackage p q rfl rfl) htext]
  case iac.iac =>
    obtain ⟨rfl, rfl, rfl⟩ := hfields
    rfl
  all_goals
    obtain ⟨rfl, rfl⟩ := hfields
    rfl

theorem PackageRef.namedAlike_refl (p : PackageRef) : p.NamedAlike p := by
  cases p with
  | purl text => trivial
  | versioned name version => rfl

theorem fields_eq_of_cut (hcut : i.cut = j.cut) (hbars : i.bars = j.bars) :
    i.fields = j.fields := by
  have hcount : (i.fields.map String.toList).map (List.count '|') =
      (j.fields.map String.toList).map (List.count '|') := by
    rw [List.map_map, List.map_map]
    exact hbars
  exact List.map_injective_iff.mpr (fun _ _ => String.toList_inj.mp)
    (eq_of_cutFields hcount hcut)

end Identified

/-- Findings of two scanner types never hash one text, and two findings hash one text exactly
when their identities are the same, if and only if the identities are unambiguous. -/
theorem preimage_identifies_iff (platform : Platform) (assetId : Uuid) (f g : RawFinding) :
    (f.scannerType ≠ g.scannerType →
        preimage platform assetId f ≠ preimage platform assetId g) ∧
      ((preimage platform assetId f = preimage platform assetId g ↔
          f.scannerType = g.scannerType ∧ identityOf platform f = identityOf platform g) ↔
        Unambiguous (identityOf platform f) (identityOf platform g)) := by
  refine ⟨fun hne heq => hne (preimage_eq_iff.mp heq).1, ?_⟩
  rw [preimage_eq_iff]
  constructor
  · intro h htype hcut
    rw [scannerType_identityOf, scannerType_identityOf] at htype
    obtain ⟨-, heq⟩ := h.mp ⟨htype, hcut⟩
    rw [heq]
    refine ⟨rfl, fun p q hp hq => ?_⟩
    rw [Option.some.inj (hp.symm.trans hq)]
    exact PackageRef.namedAlike_refl q
  · intro h
    constructor
    · rintro ⟨htype, hcut⟩
      have htype' : (identityOf platform f).scannerType = (identityOf platform g).scannerType := by
        rw [scannerType_identityOf, scannerType_identityOf, htype]
      obtain ⟨hbars, hpackage⟩ := h htype' hcut
      exact ⟨htype, eq_of_fields htype' (fields_eq_of_cut hcut hbars) hpackage⟩
    · rintro ⟨htype, heq⟩
      exact ⟨htype, by rw [heq]⟩

/-- A platform for runs: what is hashed stays as it is, and nothing is in lower case. -/
def plainPlatform : Platform := ⟨id, id⟩

/-- An IaC finding of one rule. -/
def bucketFinding (path resource : String) : RawFinding where
  externalId := "public-bucket"
  scannerType := .iac
  scannerName := "iac"
  title := "Public bucket"
  severity := .high
  location := { path := some path, resource := some resource }

/-- A bar in the path of one bucket and in the resource of another: two findings, one text. -/
theorem bucket_preimages_equal :
    preimage plainPlatform "asset" (bucketFinding "infra|prod" "bucket") =
        preimage plainPlatform "asset" (bucketFinding "infra" "prod|bucket") ∧
      identityOf plainPlatform (bucketFinding "infra|prod" "bucket") ≠
        identityOf plainPlatform (bucketFinding "infra" "prod|bucket") := by
  refine ⟨by decide, fun h => ?_⟩
  have hfields := congrArg FindingIdentity.fields h
  exact absurd hfields (by decide)

end Findings
end Ctem
