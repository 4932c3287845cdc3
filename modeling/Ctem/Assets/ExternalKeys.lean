import Ctem.Assets.Connectors

/-!
# External keys

`upsert` takes two assets of one organisation for one when their `externalKey` is the same.
A key is the scheme of its connector, a colon, and the identifiers with separators between
them; an identifier before a separator does not contain it, so the key says what the
identifiers are.

* `SameResource` says when two listed resources are one.
* `Told` says when keys tell two resources apart and call one resource by one name: the key
  of a GitLab project leaves out its host; the key of an ACR image has more than its registry
  in it, and that of a Quay image the namespace as it is configured; and the key of a cluster
  repeats its name, which a slash in a GKE location can shift.
* `keys_identify_iff` is exact: keys identify two resources precisely when they are told.
-/

namespace Ctem
namespace Assets

open Foundation Contracts Scanner

/-- A resource that a connector lists. -/
inductive Discovered where
  | gitlab (project : ListedProject)
  | ecr (image : EcrImage)
  | gcr (image : GcrImage)
  | acr (image : AcrImage)
  | quay (image : QuayImage)
  | kubernetes (cluster : ListedCluster)

/-- The part of an id that the key has: it is there, and safe. -/
def keyUid (uid : Option String) : Option String := uid.filter isSafeUid

/-- The name at the end of a cluster's key, with its id. -/
def KubernetesCluster.tail (cluster : KubernetesCluster) : List Char :=
  cluster.name.toList ++ (keyUid cluster.uid).elim [] fun uid => ':' :: uid.toList

/-- What stands between the identity of a cluster and its name. -/
def clusterMark : List Char := ":_:Cluster:".toList

/-- The identity of `c` goes on behind that of `d`, over a mark that `d` has there and into
the name of `d`. -/
def KubernetesCluster.Straddles (c d : KubernetesCluster) : Prop :=
  ∃ more, more ≠ [] ∧ c.clusterIdentity.toList = d.clusterIdentity.toList ++ more ∧
    clusterMark ++ d.tail = more ++ (clusterMark ++ c.tail)

namespace Discovered

def externalKey : Discovered → String
  | .gitlab project => project.asset.externalKey
  | .ecr image => image.toAsset.externalKey
  | .gcr image => image.toAsset.externalKey
  | .acr image => image.toAsset.externalKey
  | .quay image => image.toAsset.externalKey
  | .kubernetes cluster => kubernetesExternalKey cluster.cluster

/-- The two are one resource: the same origin host and project path; the same registry,
repository and digest; the same cluster.  The registry of an ECR image is its account, that
of a GCR image its project and location, and that of an ACR image its registry name; Quay
namespaces are compared in lower case. -/
def SameResource : Discovered → Discovered → Prop
  | .gitlab a, .gitlab b => a.origin.host = b.origin.host ∧ a.path = b.path
  | .ecr a, .ecr b =>
      a.accountId = b.accountId ∧ a.repositoryName = b.repositoryName ∧ a.digest = b.digest
  | .gcr a, .gcr b =>
      a.projectId = b.projectId ∧ a.location = b.location ∧ a.repository = b.repository ∧
        a.image = b.image ∧ a.digest = b.digest
  | .acr a, .acr b => a.registry = b.registry ∧ a.repository = b.repository ∧ a.digest = b.digest
  | .quay a, .quay b =>
      asciiLower a.namespaceId = asciiLower b.namespaceId ∧ a.repository = b.repository ∧
        a.digest = b.digest
  | .kubernetes a, .kubernetes b => a = b
  | _, _ => False

/-- The keys of the two serve as names for them. -/
def Told : Discovered → Discovered → Prop
  | .gitlab a, .gitlab b => a.path = b.path → a.origin.host = b.origin.host
  | .acr a, .acr b =>
      a.registry = b.registry → a.repository = b.repository → a.digest = b.digest →
        a.subscriptionId = b.subscriptionId ∧ a.resourceGroup = b.resourceGroup
  | .quay a, .quay b =>
      asciiLower a.namespaceId = asciiLower b.namespaceId → a.repository = b.repository →
        a.digest = b.digest → a.namespaceId = b.namespaceId
  | .kubernetes (.gke p l n u h), .kubernetes (.gke p' l' n' u' h') =>
      let c := (ListedCluster.gke p l n u h).cluster
      let d := (ListedCluster.gke p' l' n' u' h').cluster
      p = p' → ¬ c.Straddles d ∧ ¬ d.Straddles c ∧
        (l = l' → n = n' → keyUid u = keyUid u' → u = u')
  | _, _ => True

/-! ## The key of each connector -/

/-- What stands before the first colon of the key. -/
def scheme : Discovered → List Char
  | .gitlab _ => "gitlab".toList
  | .ecr _ => "ecr".toList
  | .gcr _ => "gcr".toList
  | .acr _ => "acr".toList
  | .quay _ => "quay".toList
  | .kubernetes _ => "k8s".toList

/-- What stands behind it. -/
def body : Discovered → List Char
  | .gitlab project => project.path.toList
  | .ecr image =>
      image.accountId.toList ++ '/' :: (image.repositoryName.toList ++ '@' :: image.digest.toList)
  | .gcr image =>
      image.projectId.toList ++ '/' :: (image.location.toList ++ '/' ::
        (image.repository.toList ++ '/' :: (image.image.toList ++ '@' :: image.digest.toList)))
  | .acr image =>
      image.subscriptionId.toList ++ '/' :: (image.resourceGroup.toList ++ '/' ::
        (image.registry.toList ++ '/' ::
          (image.repository.toList ++ '@' :: image.digest.toList)))
  | .quay image =>
      image.namespaceId.toList ++ '/' :: (image.repository.toList ++ '@' :: image.digest.toList)
  | .kubernetes cluster =>
      cluster.cluster.cloud.text.toList ++ ':' :: (cluster.cluster.scope.toList ++ ':' ::
        (cluster.cluster.clusterIdentity.toList ++ (clusterMark ++ cluster.cluster.tail)))

theorem kubernetesExternalKey_toList (c : KubernetesCluster) :
    (kubernetesExternalKey c).toList = "k8s".toList ++ ':' :: (c.cloud.text.toList ++ ':' ::
      (c.scope.toList ++ ':' :: (c.clusterIdentity.toList ++ (clusterMark ++ c.tail)))) := by
  unfold kubernetesExternalKey KubernetesCluster.tail keyUid clusterMark
  cases c.uid with
  | none => simp [String.toList_append, clusterNamespace]
  | some uid =>
      by_cases hsafe : isSafeUid uid = true
      · have hne : uid ≠ "" := by
          rintro rfl
          exact absurd hsafe (by decide)
        simp [String.toList_append, clusterNamespace, hsafe, hne, Option.filter]
      · simp [String.toList_append, clusterNamespace, hsafe, Option.filter]

theorem externalKey_toList (r : Discovered) :
    r.externalKey.toList = r.scheme ++ ':' :: r.body := by
  cases r with
  | gitlab project =>
      have hasset := project.isAsset
      rw [projectToAsset, project.isPath] at hasset
      have hkey : project.asset = projectAsset project.project project.origin project.path :=
        (Except.ok.inj hasset).symm
      show project.asset.externalKey.toList = _
      rw [hkey]
      simp [projectAsset, scheme, body, String.toList_append]
  | ecr image => simp [externalKey, EcrImage.toAsset, scheme, body, String.toList_append]
  | gcr image => simp [externalKey, GcrImage.toAsset, scheme, body, String.toList_append]
  | acr image => simp [externalKey, AcrImage.toAsset, scheme, body, String.toList_append]
  | quay image => simp [externalKey, QuayImage.toAsset, scheme, body, String.toList_append]
  | kubernetes cluster => exact kubernetesExternalKey_toList cluster.cluster

/-- Keys agree in their scheme and in what follows it. -/
theorem externalKey_eq_iff (r s : Discovered) :
    r.externalKey = s.externalKey ↔ r.scheme = s.scheme ∧ r.body = s.body := by
  have hcolon : ∀ t : Discovered, ':' ∉ t.scheme := by
    intro t
    cases t <;> (simp only [scheme]; decide)
  rw [← String.toList_inj, externalKey_toList, externalKey_toList,
    append_sep_inj (hcolon r) (hcolon s)]

/-! ## Identifiers behind one another -/

theorem slash_not_mem_gcpId {extra : List Char} {least most : Nat} {t : String}
    (h : isGcpId extra least most t = true) (hextra : '/' ∉ extra) : '/' ∉ t.toList :=
  not_mem_of_all (mem_gcpId h) (by simp [hextra]; decide)

theorem slash_not_mem_azureGuid {t : String} (h : isAzureGuid t = true) : '/' ∉ t.toList := by
  intro hmem
  rcases mem_azureGuid h hmem with hc | hc
  · cases hc
  · exact absurd hc (by decide)

theorem ecr_body_eq_iff (a b : EcrImage) : (ecr a).body = (ecr b).body ↔
    a.accountId = b.accountId ∧ a.repositoryName = b.repositoryName ∧ a.digest = b.digest := by
  have hslash : ∀ image : EcrImage, '/' ∉ image.accountId.toList := by
    intro image
    have haccount := image.isAccount
    simp only [isAwsAccount, Bool.and_eq_true] at haccount
    exact not_mem_of_all haccount.2 (by decide)
  simp only [body]
  rw [append_sep_inj (hslash a) (hslash b),
    append_sep_inj_last (not_mem_digest a.isDigest) (not_mem_digest b.isDigest)]
  simp only [String.toList_inj]

theorem gcr_body_eq_iff (a b : GcrImage) : (gcr a).body = (gcr b).body ↔
    a.projectId = b.projectId ∧ a.location = b.location ∧ a.repository = b.repository ∧
      a.image = b.image ∧ a.digest = b.digest := by
  simp only [body]
  rw [append_sep_inj (slash_not_mem_gcpId a.isProject (by decide))
      (slash_not_mem_gcpId b.isProject (by decide)),
    append_sep_inj (slash_not_mem_gcpId a.isLocation (by decide))
      (slash_not_mem_gcpId b.isLocation (by decide)),
    append_sep_inj (slash_not_mem_gcpId a.isRepository (by decide))
      (slash_not_mem_gcpId b.isRepository (by decide)),
    append_sep_inj_last (not_mem_digest a.isDigest) (not_mem_digest b.isDigest)]
  simp only [String.toList_inj]

theorem acr_body_eq_iff (a b : AcrImage) : (acr a).body = (acr b).body ↔
    a.subscriptionId = b.subscriptionId ∧ a.resourceGroup = b.resourceGroup ∧
      a.registry = b.registry ∧ a.repository = b.repository ∧ a.digest = b.digest := by
  have hregistry : ∀ image : AcrImage, '/' ∉ image.registry.toList := by
    intro image
    have hname := image.isRegistry.1
    simp only [isAcrRegistryName, Bool.and_eq_true] at hname
    exact not_mem_of_all hname.1 (by decide)
  simp only [body]
  rw [append_sep_inj (slash_not_mem_azureGuid a.isSubscription.1)
      (slash_not_mem_azureGuid b.isSubscription.1),
    append_sep_inj a.isResourceGroup.2 b.isResourceGroup.2,
    append_sep_inj (hregistry a) (hregistry b),
    append_sep_inj_last (not_mem_digest a.isDigest) (not_mem_digest b.isDigest)]
  simp only [String.toList_inj]

theorem quay_body_eq_iff (a b : QuayImage) : (quay a).body = (quay b).body ↔
    a.namespaceId = b.namespaceId ∧ a.repository = b.repository ∧ a.digest = b.digest := by
  have hslash : ∀ image : QuayImage, '/' ∉ image.namespaceId.toList := by
    intro image
    have hname := image.isNamespace
    simp only [isQuayNamespace, Bool.and_eq_true] at hname
    exact not_mem_of_all hname.2.1 (by decide)
  simp only [body]
  rw [append_sep_inj (hslash a) (hslash b),
    append_sep_inj_last (not_mem_digest a.isDigest) (not_mem_digest b.isDigest)]
  simp only [String.toList_inj]

/-! ## Clusters -/

/-- What follows the scope of a cluster is cut at the mark, in one way or in two. -/
theorem marked_eq_iff (c d : KubernetesCluster) :
    c.clusterIdentity.toList ++ (clusterMark ++ c.tail) =
        d.clusterIdentity.toList ++ (clusterMark ++ d.tail) ↔
      (c.clusterIdentity = d.clusterIdentity ∧ c.tail = d.tail) ∨ c.Straddles d ∨
        d.Straddles c := by
  rw [← String.toList_inj]
  constructor
  · intro heq
    rcases List.append_eq_append_iff.mp heq with ⟨more, hd, hc⟩ | ⟨more, hc, hd⟩
    · by_cases hmore : more = []
      · subst hmore
        exact Or.inl ⟨by simpa using hd.symm, List.append_cancel_left hc⟩
      · exact Or.inr (Or.inr ⟨more, hmore, hd, hc⟩)
    · by_cases hmore : more = []
      · subst hmore
        exact Or.inl ⟨by simpa using hc, (List.append_cancel_left hd).symm⟩
      · exact Or.inr (Or.inl ⟨more, hmore, hc, hd⟩)
  · rintro (⟨hid, htail⟩ | ⟨more, -, hid, htail⟩ | ⟨more, -, hid, htail⟩)
    · rw [hid, htail]
    · rw [hid, htail, List.append_assoc]
    · rw [hid, htail, List.append_assoc]

/-- A cluster does not straddle one of its own identity. -/
theorem not_straddles_of_identity {c d : KubernetesCluster}
    (hid : c.clusterIdentity = d.clusterIdentity) : ¬ c.Straddles d := by
  rintro ⟨more, hmore, heq, -⟩
  rw [hid, List.self_eq_append_right] at heq
  exact hmore heq

/-- A name on both sides of the mark is read off the length. -/
theorem doubled_inj {n n' : List Char}
    (h : n ++ (clusterMark ++ n) = n' ++ (clusterMark ++ n')) : n = n' := by
  have hlength := congrArg List.length h
  simp only [List.length_append] at hlength
  exact (List.append_inj h (by omega)).1

theorem keyUid_chars {uid : Option String} {v : String} (h : keyUid uid = some v) :
    ':' ∉ v.toList ∧ '/' ∉ v.toList := by
  have hsafe := (Option.filter_eq_some_iff.mp h).2
  simp only [isSafeUid, Bool.and_eq_true] at hsafe
  exact ⟨not_mem_of_all hsafe.2 (by decide), not_mem_of_all hsafe.2 (by decide)⟩

/-- The location and the name of a GKE cluster, and the part of its id that the key has, are
what its identity and its tail say. -/
theorem gke_parts {l n l' n' : List Char} {v v' : Option String}
    (hv : ∀ t, v = some t → ':' ∉ t.toList ∧ '/' ∉ t.toList)
    (hv' : ∀ t, v' = some t → ':' ∉ t.toList ∧ '/' ∉ t.toList)
    (hid : l ++ '/' :: n = l' ++ '/' :: n')
    (htail : (n ++ v.elim [] fun t => ':' :: t.toList) =
      n' ++ v'.elim [] fun t => ':' :: t.toList) : l = l' ∧ n = n' ∧ v = v' := by
  -- a name that goes on with an id cannot take the place of another after the same slash
  have hone : ∀ {l n l' n' : List Char} {t : String}, '/' ∉ t.toList →
      l ++ '/' :: n = l' ++ '/' :: n' → n' = n ++ ':' :: t.toList → False := by
    intro l n l' n' t ht hid hn
    subst hn
    have hshort : l'.length < l.length := by
      have hlength := congrArg List.length hid
      simp only [List.length_append, List.length_cons] at hlength
      omega
    have hcount := congrArg (List.count '/') hid
    have hnone : List.count '/' (':' :: t.toList) = 0 := by
      rw [List.count_eq_zero, List.mem_cons, not_or]
      exact ⟨by decide, ht⟩
    simp only [List.count_append, List.count_cons_self, hnone] at hcount
    rcases List.append_eq_append_iff.mp hid with ⟨more, hl', -⟩ | ⟨more, hl, hmore⟩
    · rw [hl', List.length_append] at hshort
      omega
    · cases more with
      | nil =>
          rw [hl, List.append_nil] at hshort
          omega
      | cons x rest =>
          obtain ⟨rfl, -⟩ := List.cons.inj hmore
          rw [hl, List.count_append, List.count_cons_self] at hcount
          omega
  cases v with
  | none =>
      cases v' with
      | none =>
          have hn : n = n' := by simpa using htail
          subst hn
          exact ⟨List.append_cancel_right hid, rfl, rfl⟩
      | some t =>
          have hn : n = n' ++ ':' :: t.toList := by simpa using htail
          exact (hone (hv' t rfl).2 hid.symm hn).elim
  | some t =>
      cases v' with
      | none =>
          have hn : n' = n ++ ':' :: t.toList := by simpa using htail.symm
          exact (hone (hv t rfl).2 hid hn).elim
      | some t' =>
          obtain ⟨hn, ht⟩ := (append_sep_inj_last (hv t rfl).1 (hv' t' rfl).1).mp htail
          subst hn
          exact ⟨List.append_cancel_right hid, rfl, congrArg some (String.toList_inj.mp ht)⟩

theorem colon_not_mem_azureGuid {t : String} (h : isAzureGuid t = true) : ':' ∉ t.toList := by
  intro hmem
  rcases mem_azureGuid h hmem with hc | hc
  · cases hc
  · exact absurd hc (by decide)

/-- The cloud comes first, and has no colon. -/
theorem cluster_body_eq_iff (a b : ListedCluster) :
    (kubernetes a).body = (kubernetes b).body ↔ a.cluster.cloud = b.cluster.cloud ∧
      a.cluster.scope.toList ++ ':' ::
          (a.cluster.clusterIdentity.toList ++ (clusterMark ++ a.cluster.tail)) =
        b.cluster.scope.toList ++ ':' ::
          (b.cluster.clusterIdentity.toList ++ (clusterMark ++ b.cluster.tail)) := by
  have hcolon : ∀ cloud : KubernetesCloud, ':' ∉ cloud.text.toList := by
    intro cloud
    cases cloud <;> decide
  have hcloud : ∀ x y : KubernetesCloud, x.text.toList = y.text.toList ↔ x = y := by
    intro x y
    cases x <;> cases y <;> decide
  simp only [body]
  rw [append_sep_inj (hcolon _) (hcolon _), hcloud]

/-- The key of an EKS cluster has its account, its region and its name in it. -/
theorem eks_body_eq_iff {account region name account' region' name' : String}
    (haccount : isAwsAccount account = true) (hregion : isAwsRegion region = true)
    (haccount' : isAwsAccount account' = true) (hregion' : isAwsRegion region' = true) :
    (kubernetes (.eks account region name haccount hregion)).body =
        (kubernetes (.eks account' region' name' haccount' hregion')).body ↔
      account = account' ∧ region = region' ∧ name = name' := by
  have hcolon : ∀ t, isAwsAccount t = true → ':' ∉ t.toList := by
    intro t ht
    simp only [isAwsAccount, Bool.and_eq_true] at ht
    exact not_mem_of_all ht.2 (by decide)
  rw [cluster_body_eq_iff]
  simp only [ListedCluster.cluster, KubernetesCluster.tail, keyUid, Option.filter_none,
    Option.elim_none, List.append_nil, String.toList_append, true_and]
  show (account.toList ++ [':'] ++ region.toList) ++ ':' :: _ =
    (account'.toList ++ [':'] ++ region'.toList) ++ ':' :: _ ↔ _
  simp only [List.append_assoc, List.cons_append, List.nil_append]
  rw [append_sep_inj (hcolon _ haccount) (hcolon _ haccount'),
    append_sep_inj (colon_not_mem_region hregion) (colon_not_mem_region hregion'),
    String.toList_inj, String.toList_inj, ← @String.toList_inj name]
  refine and_congr_right fun _ => and_congr_right fun _ => ⟨doubled_inj, ?_⟩
  intro hname
  rw [hname]

/-- The key of an AKS cluster has its subscription, its resource group and its name in it. -/
theorem aks_body_eq_iff {subscription group name subscription' group' name' : String}
    (hsub : isAzureGuid subscription = true) (hgroup : '/' ∉ group.toList)
    (hsub' : isAzureGuid subscription' = true) (hgroup' : '/' ∉ group'.toList) :
    (kubernetes (.aks subscription group name hsub hgroup)).body =
        (kubernetes (.aks subscription' group' name' hsub' hgroup')).body ↔
      subscription = subscription' ∧ group = group' ∧ name = name' := by
  rw [cluster_body_eq_iff]
  simp only [ListedCluster.cluster, KubernetesCluster.tail, keyUid, Option.filter_none,
    Option.elim_none, List.append_nil, String.toList_append, true_and]
  rw [append_sep_inj (colon_not_mem_azureGuid hsub) (colon_not_mem_azureGuid hsub')]
  show _ ∧ (group.toList ++ ['/'] ++ name.toList) ++ _ =
    (group'.toList ++ ['/'] ++ name'.toList) ++ _ ↔ _
  simp only [List.append_assoc, List.cons_append]
  rw [append_sep_inj hgroup hgroup', String.toList_inj, String.toList_inj,
    ← @String.toList_inj name]
  refine and_congr_right fun _ => and_congr_right fun _ => ⟨doubled_inj, ?_⟩
  intro hname
  rw [hname]

/-- The key of a GKE cluster has its project in it, and then the location, the name and the
id it has to tell, unless its identity straddles a mark. -/
theorem gke_body_eq_iff {p l n p' l' n' : String} {u u' : Option String}
    (hp : isGcpProjectId p = true) (hp' : isGcpProjectId p' = true) :
    (kubernetes (.gke p l n u hp)).body = (kubernetes (.gke p' l' n' u' hp')).body ↔
      p = p' ∧ ((l = l' ∧ n = n' ∧ keyUid u = keyUid u') ∨
        (ListedCluster.gke p l n u hp).cluster.Straddles
          (ListedCluster.gke p' l' n' u' hp').cluster ∨
        (ListedCluster.gke p' l' n' u' hp').cluster.Straddles
          (ListedCluster.gke p l n u hp).cluster) := by
  have hcolon : ∀ t, isGcpProjectId t = true → ':' ∉ t.toList :=
    fun t ht => not_mem_of_all (mem_gcpId ht) (by decide)
  rw [cluster_body_eq_iff]
  show _ ∧ p.toList ++ _ = p'.toList ++ _ ↔ _
  rw [append_sep_inj (hcolon p hp) (hcolon p' hp'), String.toList_inj, marked_eq_iff]
  refine (and_iff_right rfl).trans (and_congr_right fun _ => or_congr_left ?_)
  constructor
  · rintro ⟨hid, htail⟩
    have hid : (l ++ "/" ++ n).toList = (l' ++ "/" ++ n').toList := congrArg String.toList hid
    simp only [String.toList_append] at hid
    change l.toList ++ ['/'] ++ n.toList = l'.toList ++ ['/'] ++ n'.toList at hid
    simp only [List.append_assoc, List.singleton_append] at hid
    obtain ⟨hl, hn, hu⟩ := gke_parts (fun t => keyUid_chars) (fun t => keyUid_chars) hid htail
    exact ⟨String.toList_inj.mp hl, String.toList_inj.mp hn, hu⟩
  · rintro ⟨rfl, rfl, hu⟩
    refine ⟨rfl, ?_⟩
    show (n.toList ++ (keyUid u).elim [] fun uid => ':' :: uid.toList) = _
    rw [hu]
    rfl

/-- Locations without a slash do not straddle: what follows the first slash has the name twice,
and whether an id follows can be told by the number of its colons. -/
theorem not_straddles_of_plain {p l n p' l' n' : String} {u u' : Option String}
    (hp : isGcpProjectId p = true) (hp' : isGcpProjectId p' = true) (hl : '/' ∉ l.toList)
    (hl' : '/' ∉ l'.toList) : ¬ (ListedCluster.gke p l n u hp).cluster.Straddles
      (ListedCluster.gke p' l' n' u' hp').cluster := by
  intro hstraddles
  have heq := (marked_eq_iff (ListedCluster.gke p l n u hp).cluster
    (ListedCluster.gke p' l' n' u' hp').cluster).mpr (Or.inr (Or.inl hstraddles))
  simp only [ListedCluster.cluster, KubernetesCluster.tail, String.toList_append] at heq
  change (l.toList ++ ['/'] ++ n.toList) ++ _ = (l'.toList ++ ['/'] ++ n'.toList) ++ _ at heq
  simp only [List.append_assoc, List.cons_append, List.nil_append] at heq
  obtain ⟨hlocation, hrest⟩ := (append_sep_inj hl hl').mp heq
  have hnone : ∀ {v : Option String} {t : String}, keyUid v = some t →
      List.count ':' t.toList = 0 :=
    fun ht => List.count_eq_zero.mpr (keyUid_chars ht).1
  have hmark : List.count ':' clusterMark = 3 := by decide
  have hname : n.toList = n'.toList := by
    have hcount := congrArg (List.count ':') hrest
    cases hu : keyUid u with
    | none =>
        cases hu' : keyUid u' with
        | none =>
            simp only [hu, hu', Option.elim_none, List.append_nil] at hrest
            exact doubled_inj hrest
        | some t =>
            simp only [hu, hu', Option.elim_none, Option.elim_some, List.append_nil,
              List.count_append, List.count_cons_self, hmark, hnone hu'] at hcount
            omega
    | some t =>
        cases hu' : keyUid u' with
        | none =>
            simp only [hu, hu', Option.elim_none, Option.elim_some, List.append_nil,
              List.count_append, List.count_cons_self, hmark, hnone hu] at hcount
            omega
        | some t' =>
            simp only [hu, hu', Option.elim_some, ← List.append_assoc] at hrest
            obtain ⟨hdoubled, -⟩ :=
              (append_sep_inj_last (keyUid_chars hu).1 (keyUid_chars hu').1).mp hrest
            simp only [List.append_assoc] at hdoubled
            exact doubled_inj hdoubled
  refine not_straddles_of_identity ?_ hstraddles
  show l ++ "/" ++ n = l' ++ "/" ++ n'
  rw [String.toList_inj.mp hlocation, String.toList_inj.mp hname]

/-- Clusters of two clouds have different keys. -/
theorem cluster_clouds {a b : ListedCluster} (hcloud : a.cluster.cloud ≠ b.cluster.cloud) :
    (kubernetes a).body = (kubernetes b).body ↔ a = b := by
  refine iff_of_false ?_ ?_
  · intro hbody
    exact hcloud ((cluster_body_eq_iff a b).mp hbody).1
  · rintro rfl
    exact hcloud rfl

/-- The clusters of `keys_identify_iff`. -/
theorem cluster_keys_iff (a b : ListedCluster) :
    ((kubernetes a).body = (kubernetes b).body ↔ a = b) ↔ Told (.kubernetes a) (.kubernetes b) := by
  cases a with
  | eks account region name haccount hregion =>
      cases b with
      | eks account' region' name' haccount' hregion' =>
          rw [eks_body_eq_iff, ListedCluster.eks.injEq]
          exact iff_of_true Iff.rfl trivial
      | gke => exact iff_of_true (cluster_clouds (by simp [ListedCluster.cluster])) trivial
      | aks => exact iff_of_true (cluster_clouds (by simp [ListedCluster.cluster])) trivial
  | aks subscription group name hsub hgroup =>
      cases b with
      | aks subscription' group' name' hsub' hgroup' =>
          rw [aks_body_eq_iff, ListedCluster.aks.injEq]
          exact iff_of_true Iff.rfl trivial
      | eks => exact iff_of_true (cluster_clouds (by simp [ListedCluster.cluster])) trivial
      | gke => exact iff_of_true (cluster_clouds (by simp [ListedCluster.cluster])) trivial
  | gke p l n u hp =>
      cases b with
      | eks => exact iff_of_true (cluster_clouds (by simp [ListedCluster.cluster])) trivial
      | aks => exact iff_of_true (cluster_clouds (by simp [ListedCluster.cluster])) trivial
      | gke p' l' n' u' hp' =>
          rw [gke_body_eq_iff, ListedCluster.gke.injEq]
          simp only [Told]
          constructor
          · intro h hproject
            refine ⟨?_, ?_, ?_⟩
            · intro hstraddles
              obtain ⟨-, hl, hn, -⟩ := h.mp ⟨hproject, Or.inr (Or.inl hstraddles)⟩
              exact not_straddles_of_identity
                (show l ++ "/" ++ n = l' ++ "/" ++ n' by rw [hl, hn]) hstraddles
            · intro hstraddles
              obtain ⟨-, hl, hn, -⟩ := h.mp ⟨hproject, Or.inr (Or.inr hstraddles)⟩
              exact not_straddles_of_identity
                (show l' ++ "/" ++ n' = l ++ "/" ++ n by rw [hl, hn]) hstraddles
            · intro hl hn hu
              exact (h.mp ⟨hproject, Or.inl ⟨hl, hn, hu⟩⟩).2.2.2
          · intro h
            constructor
            · rintro ⟨hproject, hkey⟩
              obtain ⟨hnot, hnot', huid⟩ := h hproject
              rcases hkey with ⟨hl, hn, hu⟩ | hstraddles | hstraddles
              · exact ⟨hproject, hl, hn, huid hl hn hu⟩
              · exact absurd hstraddles hnot
              · exact absurd hstraddles hnot'
            · rintro ⟨hproject, hl, hn, hu⟩
              exact ⟨hproject, Or.inl ⟨hl, hn, congrArg keyUid hu⟩⟩

/-- **External keys identify assets**, precisely when they tell the two resources. -/
theorem keys_identify_iff (r s : Discovered) :
    (r.externalKey = s.externalKey ↔ SameResource r s) ↔ Told r s := by
  rw [externalKey_eq_iff]
  cases r with
  | gitlab a =>
      cases s with
      | gitlab b =>
          simp only [scheme, body, SameResource, Told, String.toList_inj, true_and]
          tauto
      | _ => simp [scheme, SameResource, Told]
  | ecr a =>
      cases s with
      | ecr b =>
          rw [ecr_body_eq_iff]
          simp only [scheme, SameResource, Told, true_and]
      | _ => simp [scheme, SameResource, Told]
  | gcr a =>
      cases s with
      | gcr b =>
          rw [gcr_body_eq_iff]
          simp only [scheme, SameResource, Told, true_and]
      | _ => simp [scheme, SameResource, Told]
  | acr a =>
      cases s with
      | acr b =>
          rw [acr_body_eq_iff]
          simp only [scheme, SameResource, Told, true_and]
          tauto
      | _ => simp [scheme, SameResource, Told]
  | quay a =>
      cases s with
      | quay b =>
          rw [quay_body_eq_iff]
          simp only [scheme, SameResource, Told, true_and]
          constructor
          · intro h hname hrepository hdigest
            exact (h.mpr ⟨hname, hrepository, hdigest⟩).1
          · rintro h
            constructor
            · rintro ⟨hname, hrest⟩
              exact ⟨congrArg asciiLower hname, hrest⟩
            · rintro ⟨hname, hrepository, hdigest⟩
              exact ⟨h hname hrepository hdigest, hrepository, hdigest⟩
      | _ => simp [scheme, SameResource, Told]
  | kubernetes a =>
      cases s with
      | kubernetes b =>
          simp only [scheme, SameResource, true_and]
          exact cluster_keys_iff a b
      | _ => simp [scheme, SameResource, Told]

/-- `acme/api`, as the origin lists it. -/
def acmeApi (origin : GitLabOrigin) : ListedProject where
  origin := origin
  project := { name := "api", path := "api", pathWithNamespace := "acme/api",
               visibility := "private", archived := false }
  asset := projectAsset { name := "api", path := "api", pathWithNamespace := "acme/api",
                          visibility := "private", archived := false } origin "acme/api"
  path := "acme/api"
  isPath := rfl
  isAsset := rfl

/-- The origin of the `baseUrl` `https://gitlab.example.com`. -/
def selfHosted : GitLabOrigin where
  host := "gitlab.example.com"
  origin := "https://gitlab.example.com"
  apiUrl := "https://gitlab.example.com/api/v4"

/-- Two hosts have a project of one path: one key, so the second upsert takes the row of the
first. -/
theorem shared_path_merged :
    (gitlab (acmeApi gitlabCom)).externalKey = (gitlab (acmeApi selfHosted)).externalKey ∧
      ¬ ∀ r s : Discovered, r.externalKey = s.externalKey ↔ SameResource r s := by
  have hkey : (gitlab (acmeApi gitlabCom)).externalKey =
      (gitlab (acmeApi selfHosted)).externalKey := rfl
  refine ⟨hkey, ?_⟩
  intro h
  have hhost : "gitlab.com" = "gitlab.example.com" := ((h _ _).mp hkey).1
  exact absurd hhost (by decide)

end Discovered

end Assets
end Ctem
