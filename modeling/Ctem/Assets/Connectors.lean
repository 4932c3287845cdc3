import Ctem.Assets.DiscoverySync
import Ctem.Assets.GitlabOrigin
import Ctem.Foundation.InetText
import Ctem.Scanner.RepoCheckout

/-!
# What the connectors list

A connector reads identifiers out of the answers of a service, keeps the ones that have the
form it expects, and maps each resource to an asset.  A listed resource carries the forms of
its identifiers, so one that its connector would skip cannot be built.

* The forms are the regular expressions of the connectors' egress modules.
* `GhcrImage` to `QuayImage` are the images, each with its `imageToAsset`.
* `ListedProject` is a GitLab project with the origin of its integration.
* `ListedCluster` is a managed Kubernetes cluster; `kubernetesExternalKey` is its key.
-/

namespace Ctem
namespace Assets

open Foundation Contracts Scanner

/-! ## The forms of identifiers -/

/-- `[a-z0-9]`. -/
def isLowerAlnum (c : Char) : Bool := c.isLower || c.isDigit

/-- `/^sha256:[a-f0-9]{64}$/i`. -/
def isSha256Digest (s : String) : Bool :=
  decide (asciiLower (String.ofList (s.toList.take 7)) = "sha256:") &&
    (decide ((s.toList.drop 7).length = 64) &&
      (s.toList.drop 7).all fun c => (hexValue c).isSome)

/-- `imageDigest`. -/
def imageDigest (raw : Option Json) : Option String :=
  ((raw.bind Json.str?).filter isSha256Digest).map asciiLower

/-- `AWS_REGION_RE`. -/
def isAwsRegion (s : String) : Bool :=
  let area (part : List Char) : Bool :=
    decide (String.ofList part ∈ ["af", "ap", "ca", "eu", "il", "me", "mx", "sa", "us"])
  let side (part : List Char) : Bool :=
    decide (String.ofList part ∈ ["central", "east", "west", "north", "south", "northeast",
      "northwest", "southeast", "southwest"])
  match splitOn '-' s.toList with
  | [a, b, n] => area a && (side b && isDigits n)
  | [a, gov, b, n] => area a && (decide (String.ofList gov = "gov") && (side b && isDigits n))
  | _ => false

/-- `/^\d{12}$/`. -/
def isAwsAccount (s : String) : Bool :=
  decide (s.toList.length = 12) && s.toList.all Char.isDigit

/-- A lower case letter, then letters, digits and `extra`, with a letter or digit at the
end; between `least` and `most` characters. -/
def isGcpId (extra : List Char) (least most : Nat) (s : String) : Bool :=
  s.toList.head?.any Char.isLower && (s.toList.getLast?.any isLowerAlnum &&
    (s.toList.all (fun c => isLowerAlnum c || decide (c ∈ extra)) &&
      (decide (least ≤ s.toList.length) && decide (s.toList.length ≤ most))))

/-- `GCP_PROJECT_ID_RE`. -/
def isGcpProjectId : String → Bool := isGcpId ['-'] 6 30

/-- `GCP_LOCATION_ID_RE`. -/
def isGcpLocationId : String → Bool := isGcpId ['-'] 1 63

/-- `GCR_REPOSITORY_ID_RE`. -/
def isGcrRepositoryId : String → Bool := isGcpId ['.', '_', '-'] 2 63

/-- `AZURE_GUID_RE`. -/
def isAzureGuid (s : String) : Bool :=
  let parts := splitOn '-' s.toList
  decide (parts.map List.length = [8, 4, 4, 4, 12]) &&
    parts.all fun part => part.all fun c => (hexValue c).isSome

/-- `ACR_REGISTRY_NAME_RE`. -/
def isAcrRegistryName (s : String) : Bool :=
  s.toList.all Char.isAlphanum && (decide (5 ≤ s.toList.length) && decide (s.toList.length ≤ 50))

/-- `[a-z0-9]+(?:[._-][a-z0-9]+)*`, with the characters the case flag makes of `[a-z0-9]`. -/
def isPathComponent (alnum : Char → Bool) (cs : List Char) : Bool :=
  (cs.splitOnP fun c => decide (c ∈ ['.', '_', '-'])).all fun run => !run.isEmpty && run.all alnum

/-- `ACR_REPOSITORY_RE`: components with slashes between them. -/
def isAcrRepository (s : String) : Bool :=
  (splitOn '/' s.toList).all (isPathComponent isLowerAlnum)

/-- `QUAY_REPOSITORY_RE`. -/
def isQuayRepository (s : String) : Bool :=
  (splitOn '/' s.toList).all (isPathComponent Char.isAlphanum)

/-- `QUAY_NAMESPACE_RE`. -/
def isQuayNamespace (s : String) : Bool :=
  s.toList.head?.any Char.isAlphanum &&
    (s.toList.all (fun c => c.isAlphanum || decide (c ∈ ['.', '_', '-'])) &&
      decide (s.toList.length ≤ 254))

/-! ## Images -/

/-- `value ?? null` of a text. -/
def textOrNull (value : Option String) : Json := (value.map Json.str).getD .null

/-- `value ?? null` of a flag. -/
def flagOrNull (value : Option Bool) : Json := (value.map Json.bool).getD .null

/-- A list of texts. -/
def textList (values : List String) : Json := .arr (values.map Json.str)

structure GhcrImage where
  owner : String
  packageName : String
  digest : String
  tags : List String
  visibility : Option String := none
  htmlUrl : Option String := none
  owner_nonempty : owner ≠ ""
  package_nonempty : packageName ≠ ""
  isDigest : ∃ raw, imageDigest raw = some digest

/-- `imageToAsset` of the GHCR connector. -/
def GhcrImage.toAsset (image : GhcrImage) : UpsertAssetRequest where
  kind := "container_image"
  externalKey := "ghcr:" ++ image.owner ++ "/" ++ image.packageName ++ "@" ++ image.digest
  name := image.owner ++ "/" ++ image.packageName
  source := "ghcr"
  exposure := some
    (if image.visibility = some "public" then "internet_facing"
    else if image.visibility = some "private" then "internal" else "unknown")
  attributes := some
    [("owner", .str image.owner), ("package", .str image.packageName),
      ("digest", .str image.digest), ("tags", textList image.tags),
      ("visibility", textOrNull image.visibility), ("htmlUrl", textOrNull image.htmlUrl),
      ("packageType", .str "container")]

structure EcrImage where
  accountId : String
  region : String
  repositoryName : String
  digest : String
  tags : List String
  repositoryArn : Option String := none
  repositoryUri : Option String := none
  /-- A text or a number. -/
  imagePushedAt : Option Json := none
  imageSizeInBytes : Option Rat := none
  isAccount : isAwsAccount accountId = true
  isRegion : isAwsRegion region = true
  repository_nonempty : repositoryName ≠ ""
  isDigest : ∃ raw, imageDigest raw = some digest

/-- `imageToAsset` of the ECR connector. -/
def EcrImage.toAsset (image : EcrImage) : UpsertAssetRequest where
  kind := "container_image"
  externalKey := "ecr:" ++ image.accountId ++ "/" ++ image.repositoryName ++ "@" ++ image.digest
  name := image.repositoryName
  source := "ecr"
  exposure := some "internal"
  attributes := some
    [("accountId", .str image.accountId), ("region", .str image.region),
      ("repository", .str image.repositoryName), ("digest", .str image.digest),
      ("tags", textList image.tags), ("repositoryArn", textOrNull image.repositoryArn),
      ("repositoryUri", textOrNull image.repositoryUri),
      ("imagePushedAt", image.imagePushedAt.getD .null),
      ("imageSizeInBytes", (image.imageSizeInBytes.map Json.num).getD .null)]

structure GcrImage where
  projectId : String
  location : String
  repository : String
  image : String
  digest : String
  tags : List String
  uri : Option String := none
  uploadTime : Option String := none
  /-- A text or a number. -/
  imageSizeBytes : Option Json := none
  mediaType : Option String := none
  isProject : isGcpProjectId projectId = true
  isLocation : isGcpLocationId location = true
  isRepository : isGcrRepositoryId repository = true
  isImage : image ≠ "" ∧ hasHttpScheme image = false
  isDigest : ∃ raw, imageDigest raw = some digest

/-- `imageToAsset` of the GCR connector. -/
def GcrImage.toAsset (image : GcrImage) : UpsertAssetRequest where
  kind := "container_image"
  externalKey := "gcr:" ++ image.projectId ++ "/" ++ image.location ++ "/" ++ image.repository ++
    "/" ++ image.image ++ "@" ++ image.digest
  name := image.repository ++ "/" ++ image.image
  source := "gcr"
  exposure := some "internal"
  attributes := some
    [("projectId", .str image.projectId), ("location", .str image.location),
      ("repository", .str image.repository), ("image", .str image.image),
      ("digest", .str image.digest), ("tags", textList image.tags),
      ("uri", textOrNull image.uri), ("uploadTime", textOrNull image.uploadTime),
      ("imageSizeBytes", image.imageSizeBytes.getD .null),
      ("mediaType", textOrNull image.mediaType)]

structure AcrImage where
  subscriptionId : String
  resourceGroup : String
  registry : String
  loginServer : String
  repository : String
  digest : String
  tags : List String
  architecture : Option String := none
  os : Option String := none
  mediaType : Option String := none
  createdTime : Option String := none
  lastUpdateTime : Option String := none
  imageSize : Option Rat := none
  /-- The configured subscription, in lower case. -/
  isSubscription : isAzureGuid subscriptionId = true ∧ asciiLower subscriptionId = subscriptionId
  /-- `/\/resourceGroups\/([^/]+)\//i` on the ARM id of the registry. -/
  isResourceGroup : resourceGroup ≠ "" ∧ '/' ∉ resourceGroup.toList
  isRegistry : isAcrRegistryName registry = true ∧ asciiLower registry = registry
  /-- `assertAcrLoginServer`. -/
  isLoginServer : loginServer = registry ++ ".azurecr.io"
  isRepository : isAcrRepository repository = true
  isDigest : ∃ raw, imageDigest raw = some digest

/-- `imageToAsset` of the ACR connector. -/
def AcrImage.toAsset (image : AcrImage) : UpsertAssetRequest where
  kind := "container_image"
  externalKey := "acr:" ++ image.subscriptionId ++ "/" ++ image.resourceGroup ++ "/" ++
    image.registry ++ "/" ++ image.repository ++ "@" ++ image.digest
  name := image.registry ++ "/" ++ image.repository
  source := "acr"
  exposure := some "internal"
  attributes := some
    [("subscriptionId", .str image.subscriptionId), ("resourceGroup", .str image.resourceGroup),
      ("registry", .str image.registry), ("loginServer", .str image.loginServer),
      ("repository", .str image.repository), ("digest", .str image.digest),
      ("tags", textList image.tags), ("architecture", textOrNull image.architecture),
      ("os", textOrNull image.os), ("mediaType", textOrNull image.mediaType),
      ("createdTime", textOrNull image.createdTime),
      ("lastUpdateTime", textOrNull image.lastUpdateTime),
      ("imageSize", (image.imageSize.map Json.num).getD .null)]

structure DockerhubImage where
  namespaceId : String
  repository : String
  digest : String
  tags : List String
  isPrivate : Option Bool := none
  isNamespace : isScmSegment namespaceId = true
  isRepository : isScmSegment repository = true
  isDigest : ∃ raw, imageDigest raw = some digest

/-- `imageToAsset` of the Docker Hub connector. -/
def DockerhubImage.toAsset (image : DockerhubImage) : UpsertAssetRequest where
  kind := "container_image"
  externalKey := "dockerhub:" ++ image.namespaceId ++ "/" ++ image.repository ++ "@" ++ image.digest
  name := image.namespaceId ++ "/" ++ image.repository
  source := "dockerhub"
  exposure := some
    (match image.isPrivate with
    | some true => "internal"
    | some false => "internet_facing"
    | none => "unknown")
  attributes := some
    [("namespace", .str image.namespaceId), ("repository", .str image.repository),
      ("digest", .str image.digest), ("tags", textList image.tags),
      ("isPrivate", flagOrNull image.isPrivate)]

structure QuayImage where
  /-- The configured namespace: of the listed one only its lower case is compared. -/
  namespaceId : String
  repository : String
  digest : String
  tags : List String
  isPublic : Option Bool := none
  lastModified : Option String := none
  size : Option Rat := none
  isManifestList : Option Bool := none
  isNamespace : isQuayNamespace namespaceId = true
  isRepository : isQuayRepository repository = true
  isDigest : ∃ raw, imageDigest raw = some digest

/-- `imageToAsset` of the Quay connector. -/
def QuayImage.toAsset (image : QuayImage) : UpsertAssetRequest where
  kind := "container_image"
  externalKey := "quay:" ++ image.namespaceId ++ "/" ++ image.repository ++ "@" ++ image.digest
  name := image.namespaceId ++ "/" ++ image.repository
  source := "quay"
  exposure := some
    (match image.isPublic with
    | some true => "internet_facing"
    | some false => "internal"
    | none => "unknown")
  attributes := some
    [("namespace", .str image.namespaceId), ("repository", .str image.repository),
      ("digest", .str image.digest), ("tags", textList image.tags),
      ("isPublic", flagOrNull image.isPublic), ("lastModified", textOrNull image.lastModified),
      ("size", (image.size.map Json.num).getD .null),
      ("isManifestList", flagOrNull image.isManifestList)]

/-! ## GitLab projects -/

structure GitLabProject where
  name : String
  path : String
  pathWithNamespace : String
  visibility : String
  archived : Bool
  forkedFromProject : Bool := false
  webUrl : Option String := none
  defaultBranch : Option String := none
  description : Option String := none
  lastActivityAt : Option String := none

/-- `safeGitLabPath`. -/
def safeGitLabPath (pathWithNamespace : String) : Except String String :=
  let parts := pathSegments pathWithNamespace
  if parts.length < 2 ∨ 10 < parts.length ∨ ¬ parts.all isScmSegment = true then
    .error ("Refusing GitLab path_with_namespace '" ++ pathWithNamespace ++ "'")
  else .ok (joinWith "/" parts)

/-- The asset of a project whose path is safe. -/
def projectAsset (project : GitLabProject) (origin : GitLabOrigin) (path : String) :
    UpsertAssetRequest where
  kind := "repository"
  -- the host of the origin is no part of it
  externalKey := "gitlab:" ++ path
  name := if project.path ≠ "" then project.path else project.name
  source := "gitlab"
  exposure := some (if project.visibility = "public" then "internet_facing" else "internal")
  attributes := some
    [("htmlUrl", textOrNull project.webUrl),
      ("cloneUrl", .str (origin.origin ++ "/" ++ path ++ ".git")),
      ("gitlabHost", .str origin.host), ("defaultBranch", textOrNull project.defaultBranch),
      ("description", textOrNull project.description), ("fork", .bool project.forkedFromProject),
      ("archived", .bool project.archived), ("pushedAt", textOrNull project.lastActivityAt),
      ("visibility", .str project.visibility),
      ("private", .bool (decide (project.visibility ≠ "public")))]

/-- `projectToAsset`. -/
def projectToAsset (project : GitLabProject) (origin : GitLabOrigin) :
    Except String UpsertAssetRequest :=
  (safeGitLabPath project.pathWithNamespace).map (projectAsset project origin)

/-- A project that an integration of this origin lists. -/
structure ListedProject where
  origin : GitLabOrigin
  project : GitLabProject
  asset : UpsertAssetRequest
  path : String
  isPath : safeGitLabPath project.pathWithNamespace = .ok path
  isAsset : projectToAsset project origin = .ok asset

/-! ## Kubernetes clusters -/

/-- `KubernetesCloud`. -/
inductive KubernetesCloud where
  | aws | gcp | azure
deriving DecidableEq, Repr

def KubernetesCloud.text : KubernetesCloud → String
  | .aws => "aws"
  | .gcp => "gcp"
  | .azure => "azure"

/-- What the key of a cluster is made of. -/
structure KubernetesCluster where
  cloud : KubernetesCloud
  scope : String
  name : String
  clusterIdentity : String
  uid : Option String := none

/-- `CLUSTER_NAMESPACE`. -/
def clusterNamespace : String := "_"

/-- `SAFE_UID_RE`. -/
def isSafeUid (uid : String) : Bool :=
  decide (uid ≠ "") && uid.toList.all fun c => c.isAlphanum || decide (c ∈ ['.', '_', '-'])

/-- `kubernetesExternalKey`. -/
def kubernetesExternalKey (cluster : KubernetesCluster) : String :=
  let base := "k8s:" ++ cluster.cloud.text ++ ":" ++ cluster.scope ++ ":" ++
    cluster.clusterIdentity ++ ":" ++ clusterNamespace ++ ":" ++ "Cluster" ++ ":" ++ cluster.name
  match cluster.uid with
  | some uid => if uid ≠ "" ∧ isSafeUid uid = true then base ++ ":" ++ uid else base
  | none => base

/-- A cluster that a control plane lists, by what it is listed under. -/
inductive ListedCluster where
  | eks (accountId region name : String)
      (isAccount : isAwsAccount accountId = true) (isRegion : isAwsRegion region = true)
  | gke (projectId location name : String) (uid : Option String)
      (isProject : isGcpProjectId projectId = true)
  | aks (subscriptionId resourceGroup name : String)
      (isSubscription : isAzureGuid subscriptionId = true)
      (isResourceGroup : '/' ∉ resourceGroup.toList)

/-- `parseEksCluster`, `parseGkeClusters` and `parseAksClusters`, as far as the key goes. -/
def ListedCluster.cluster : ListedCluster → KubernetesCluster
  | .eks accountId region name _ _ => ⟨.aws, accountId ++ ":" ++ region, name, name, none⟩
  | .gke projectId location name uid _ => ⟨.gcp, projectId, name, location ++ "/" ++ name, uid⟩
  | .aks subscriptionId resourceGroup name _ _ =>
      ⟨.azure, subscriptionId, name, resourceGroup ++ "/" ++ name, none⟩

/-! ## The characters of an identifier -/

/-- A character that the class of a text leaves out is not in it. -/
theorem not_mem_of_all {p : Char → Bool} {cs : List Char} {c : Char} (h : cs.all p = true)
    (hc : p c = false) : c ∉ cs := by
  intro hmem
  rw [List.all_eq_true.mp h c hmem] at hc
  cases hc

/-- A digit in lower case stays as it is. -/
theorem toLower_hexDigit {c : Char} (h : (hexValue c).isSome = true) :
    c.toLower.toLower = c.toLower := by
  have hall : ∀ n < 128, (Char.ofNat n).toLower.toLower = (Char.ofNat n).toLower := by decide
  have hlower := hall c.toNat (lt_of_hexValue h)
  rwa [Char.ofNat_toNat] at hlower

/-- A digest of a listing: its algorithm, and 64 digits in lower case. -/
theorem imageDigest_eq_some {raw : Option Json} {digest : String}
    (h : imageDigest raw = some digest) :
    ∃ hex : List Char, digest.toList = "sha256:".toList ++ hex ∧ hex.length = 64 ∧
      ∀ c ∈ hex, (hexValue c).isSome = true ∧ c.toLower = c := by
  obtain ⟨s, hs, rfl⟩ := Option.map_eq_some_iff.mp h
  rw [Option.filter_eq_some_iff] at hs
  have hform := hs.2
  simp only [isSha256Digest, Bool.and_eq_true, decide_eq_true_eq] at hform
  obtain ⟨hname, hlength, hhex⟩ := hform
  refine ⟨(s.toList.drop 7).map Char.toLower, ?_, by rw [List.length_map]; exact hlength, ?_⟩
  · have hlower : (s.toList.take 7).map Char.toLower = "sha256:".toList := by
      rw [← hname, asciiLower, String.toList_ofList, String.toList_ofList]
    rw [asciiLower, String.toList_ofList, ← hlower, ← List.map_append, List.take_append_drop]
  · intro c hc
    obtain ⟨d, hd, rfl⟩ := List.mem_map.mp hc
    have hvalue : (hexValue d).isSome = true := List.all_eq_true.mp hhex d hd
    refine ⟨?_, toLower_hexDigit hvalue⟩
    rw [hexValue_toLower hvalue]
    exact hvalue

/-- A digest has no character that stands between identifiers. -/
theorem not_mem_digest {digest : String} (h : ∃ raw, imageDigest raw = some digest) :
    '@' ∉ digest.toList := by
  obtain ⟨raw, hraw⟩ := h
  obtain ⟨hex, htext, -, hhex⟩ := imageDigest_eq_some hraw
  rw [htext, List.mem_append, not_or]
  refine ⟨by decide, ?_⟩
  intro hmem
  exact absurd (hhex '@' hmem).1 (by decide)

theorem mem_gcpId {extra : List Char} {least most : Nat} {s : String}
    (h : isGcpId extra least most s = true) :
    s.toList.all (fun c => isLowerAlnum c || decide (c ∈ extra)) = true := by
  simp only [isGcpId, Bool.and_eq_true] at h
  exact h.2.2.1

/-- A GUID is made of hexadecimal digits and hyphens. -/
theorem mem_azureGuid {s : String} (h : isAzureGuid s = true) {c : Char} (hc : c ∈ s.toList) :
    c = '-' ∨ (hexValue c).isSome = true := by
  simp only [isAzureGuid, Bool.and_eq_true, decide_eq_true_eq] at h
  refine (mem_splitOn '-' hc).imp_right ?_
  rintro ⟨part, hpart, hmem⟩
  exact List.all_eq_true.mp (List.all_eq_true.mp h.2 part hpart) c hmem

/-- A region is made of letters, digits and hyphens. -/
theorem colon_not_mem_region {s : String} (h : isAwsRegion s = true) : ':' ∉ s.toList := by
  intro hc
  obtain hc | ⟨part, hpart, hmem⟩ := mem_splitOn '-' hc
  · cases hc
  have hword : ∀ words : List String, (∀ word ∈ words, ':' ∉ word.toList) →
      ∀ cs : List Char, String.ofList cs ∈ words → ':' ∉ cs := by
    intro words hwords cs hcs
    have hnot := hwords _ hcs
    rwa [String.toList_ofList] at hnot
  have hdigits : ∀ cs, isDigits cs = true → ':' ∉ cs := by
    intro cs hcs
    simp only [isDigits, Bool.and_eq_true] at hcs
    exact not_mem_of_all hcs.2 (by decide)
  unfold isAwsRegion at h
  split at h
  · rename_i a b n heq
    simp only [Bool.and_eq_true, decide_eq_true_eq] at h
    rw [heq] at hpart
    simp only [List.mem_cons, List.not_mem_nil, or_false] at hpart
    rcases hpart with rfl | rfl | rfl
    · exact hword _ (by decide +kernel) _ h.1 hmem
    · exact hword _ (by decide +kernel) _ h.2.1 hmem
    · exact hdigits _ h.2.2 hmem
  · rename_i a gov b n heq
    simp only [Bool.and_eq_true, decide_eq_true_eq] at h
    rw [heq] at hpart
    simp only [List.mem_cons, List.not_mem_nil, or_false] at hpart
    rcases hpart with rfl | rfl | rfl | rfl
    · exact hword _ (by decide +kernel) _ h.1 hmem
    · exact hword ["gov"] (by decide +kernel) _ (List.mem_singleton.mpr h.2.1) hmem
    · exact hword _ (by decide +kernel) _ h.2.2.1 hmem
    · exact hdigits _ h.2.2.2 hmem
  · cases h

end Assets
end Ctem
