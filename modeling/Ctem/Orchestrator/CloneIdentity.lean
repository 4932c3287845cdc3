import Ctem.Assets.GitlabOrigin
import Ctem.Orchestrator.ScanDispatcher
import Ctem.Scanner.RepoCheckout

/-!
# The repository a job clones, and the token it takes along

The target of a job is the asset's identity with its attributes spread over it, so the
attributes may replace the key and the GitLab host the checkout goes by.

* `assetUrl` is the repository an asset row is about, on the host of the integration
  that discovered it.
* `checkout_clones_asset_iff`: a checkout clones that repository precisely when what the
  attributes leave of the target still names it.
* `credential_stays_iff`: a token goes to its provider's host precisely when the target
  has that host.
-/

namespace Ctem
namespace Orchestrator

open Foundation Contracts Scanner Findings Assets

section Identity

variable (parse : UrlParser)

/-- The GitLab host the platform has configured for an integration. -/
def configuredGitlabHost (integration : Option IntegrationRow) : Option String :=
  integration.bind fun row =>
    match parseGitLabBaseUrl parse ((row.config.get? "baseUrl").bind Json.str?) with
    | .ok origin => some origin.host
    | .error _ => none

/-- The repository of an asset row: the one its key names, on the configured host. -/
def assetUrl (integration : Option IntegrationRow) (asset : AssetRow) : Option String :=
  match httpsFromScmIdentityKey asset.externalKey (configuredGitlabHost parse integration) with
  | .ok url => url
  | .error _ => none

/-- What a target names: the repository of its key on its GitLab host, or, where its key
is one of no provider, that of its clone URL. -/
inductive TargetNames (target : JsonObject) (url : String) : Prop where
  | key (gitlabHost : Option String) (keyed : String)
      (hhost : parseTargetGitlabHost parse target = .ok gitlabHost)
      (hkey : targetKeyUrl target gitlabHost = .ok (some keyed)) (h : SameRepo parse keyed url)
  | cloneUrl (gitlabHost : Option String) (raw own : String)
      (hhost : parseTargetGitlabHost parse target = .ok gitlabHost)
      (hkey : targetKeyUrl target gitlabHost = .ok none) (hraw : targetCloneUrl? target = some raw)
      (hown : allowlistedCloneHttps parse raw gitlabHost = .ok own) (h : SameRepo parse own url)

variable {parse}

/-- A resolved URL names a repository precisely when its target does. -/
theorem sameRepo_resolved_iff {target : JsonObject} {resolved : String}
    (h : resolveCloneUrl parse target = .ok resolved) (url : String) :
    SameRepo parse resolved url ↔ TargetNames parse target url := by
  obtain ⟨gitlabHost, fromKey, hhost, hkey, hcases⟩ := resolveCloneUrl_cases h
  cases fromKey with
  | some keyed =>
      have hresolved : SameRepo parse resolved keyed := by
        rcases hcases with ⟨_, -, -, hsame⟩ | ⟨-, hkeyed⟩
        · exact hsame keyed rfl
        · rw [Option.some_inj] at hkeyed
          exact Or.inl hkeyed.symm
      rw [hresolved.congr_left]
      constructor
      · intro hsame
        exact .key gitlabHost keyed hhost hkey hsame
      · intro hnames
        cases hnames with
        | key gitlabHost' keyed' hhost' hkey' hsame =>
            rw [hhost, Except.ok.injEq] at hhost'
            subst hhost'
            rw [hkey, Except.ok.injEq, Option.some_inj] at hkey'
            exact hkey' ▸ hsame
        | cloneUrl gitlabHost' raw own hhost' hkey' hraw hown hsame =>
            rw [hhost, Except.ok.injEq] at hhost'
            subst hhost'
            rw [hkey] at hkey'
            exact absurd hkey' (by simp)
  | none =>
      obtain ⟨raw, hraw, hown, -⟩ | ⟨-, hnone⟩ := hcases
      · constructor
        · intro hsame
          exact .cloneUrl gitlabHost raw resolved hhost hkey hraw hown hsame
        · intro hnames
          cases hnames with
          | key gitlabHost' keyed' hhost' hkey' hsame =>
              rw [hhost, Except.ok.injEq] at hhost'
              subst hhost'
              rw [hkey] at hkey'
              exact absurd hkey' (by simp)
          | cloneUrl gitlabHost' raw' own hhost' hkey' hraw' hown' hsame =>
              rw [hhost, Except.ok.injEq] at hhost'
              subst hhost'
              rw [hraw, Option.some_inj] at hraw'
              subst hraw'
              rw [hown, Except.ok.injEq] at hown'
              exact hown' ▸ hsame
      · exact absurd hnone (by simp)

/-- A checkout that returns has resolved its target. -/
theorem resolveCheckout_eq_ok {env : String → Option String} {job : ScanJob} {r : ResolvedCheckout}
    (h : resolveCheckout parse env job = .ok r) :
    requireUsableCredential env job = .ok r.token ∧ resolveCloneUrl parse job.target = .ok r.url := by
  unfold resolveCheckout at h
  obtain ⟨token, htoken, h⟩ := bind_eq_ok.mp h
  obtain ⟨url, hurl, h⟩ := bind_eq_ok.mp h
  obtain rfl := Except.ok.inj h
  exact ⟨htoken, hurl⟩

/-- Attributes that leave the key alone, and give a GitLab asset the host configured for
it, leave the asset's repository in the target. -/
theorem targetNames_of_untouched {integration : Option IntegrationRow} {asset : AssetRow}
    {gitlabHost : Option String} {url : String}
    (hkey : asset.attributes.fields.get? "externalKey" = none) (hnonempty : asset.externalKey ≠ "")
    (hhost : parseTargetGitlabHost parse (scanJobTarget (dispatchAsset asset)) = .ok gitlabHost)
    (hgitlab : startsWith asset.externalKey "gitlab:" = true →
      gitlabHost.getD "gitlab.com" = (configuredGitlabHost parse integration).getD "gitlab.com")
    (hurl : assetUrl parse integration asset = some url) :
    TargetNames parse (scanJobTarget (dispatchAsset asset)) url := by
  have htarget : targetKey? (scanJobTarget (dispatchAsset asset)) = some asset.externalKey := by
    unfold targetKey? scanJobTarget
    rw [JsonObject.get?_append]
    simp [dispatchAsset, hkey, JsonObject.get?_cons, nonEmpty, Option.filter, hnonempty]
  have hsame : httpsFromScmIdentityKey asset.externalKey gitlabHost =
      httpsFromScmIdentityKey asset.externalKey (configuredGitlabHost parse integration) := by
    unfold httpsFromScmIdentityKey
    split
    · rfl
    · split
      · rename_i hlab
        rw [hgitlab hlab]
      · rfl
  refine .key gitlabHost url hhost ?_ (SameRepo.refl url)
  unfold targetKeyUrl
  rw [htarget]
  unfold assetUrl at hurl
  simp only [hsame]
  split at hurl
  case h_1 found hfound => rw [hfound, hurl]
  case h_2 => exact absurd hurl (by simp)

end Identity

/-- A checkout that returns clones the asset's repository precisely when the target the
attributes leave of the asset still names it. -/
theorem checkout_clones_asset_iff (parse : UrlParser) (env : String → Option String)
    (integration : Option IntegrationRow) (asset : AssetRow) (orgId : OrgId) (row : ScanJobRow)
    (scannerType : ScannerType) (options : JsonObject) (refs : AssocMap Uuid (Option String))
    (r : ResolvedCheckout)
    (h : resolveCheckout parse env
      (queuedJob orgId row (dispatchAsset asset) scannerType options refs) = .ok r) :
    (∃ url, assetUrl parse integration asset = some url ∧ SameRepo parse r.url url) ↔
      ∃ url, assetUrl parse integration asset = some url ∧
        TargetNames parse (scanJobTarget (dispatchAsset asset)) url := by
  have hresolved := (resolveCheckout_eq_ok h).2
  constructor
  · rintro ⟨url, hurl, hsame⟩
    exact ⟨url, hurl, (sameRepo_resolved_iff hresolved url).mp hsame⟩
  · rintro ⟨url, hurl, hnames⟩
    exact ⟨url, hurl, (sameRepo_resolved_iff hresolved url).mpr hnames⟩

/-! ## A small parser

It reads what the examples need: `https` URLs with a plain host name and path. -/

/-- The characters of plain hosts and paths. -/
def isPlainChar (c : Char) : Bool :=
  c.isLower || c.isDigit || decide (c ∈ ['.', '-', '_', '/'])

def plainUrl (text : String) : Option Url :=
  let rest := text.toList.drop 8
  let host := rest.takeWhile fun c => decide (c ≠ '/')
  let path := rest.drop host.length
  if startsWith text "https://" && rest.all isPlainChar && !host.isEmpty then
    some
      { protocol := "https:"
        hostname := String.ofList host
        pathname := if path.isEmpty then "/" else String.ofList path
        hostNoSlash := by
          rw [String.toList_ofList]
          intro hmem
          have hslash := List.all_takeWhile (l := rest) (p := fun c => decide (c ≠ '/'))
          exact absurd (List.all_eq_true.mp hslash _ hmem) (by decide) }
  else none

/-- The platform's GitLab token. -/
def platformEnv (key : String) : Option String :=
  if key = "GITLAB_TOKEN" then some "glpat-1" else none

/-- The job row of an asset. -/
def cloneRow : ScanJobRow where
  id := "j1"
  orgId := "org-a"
  scanId := "s1"
  assetId := "a1"
  scannerType := .sast

/-- A repository asset with attributes a tenant has stored on it. -/
def repositoryAsset (externalKey : String) (attributes : JsonObject) : AssetRow where
  id := "a1"
  orgId := "org-a"
  kind := "repository"
  externalKey := externalKey
  attributes := .obj attributes
  integrationId := some "i1"

/-- The integration that discovered it, with a platform token, on gitlab.com. -/
def gitlabIntegration : IntegrationRow where
  id := "i1"
  orgId := "org-a"
  credentialRef := some "env:GITLAB_TOKEN"

/-- A clone URL beside the key does not redirect the clone. -/
theorem clone_url_keeps_asset :
    (∃ url, assetUrl plainUrl none (repositoryAsset "github:acme/api"
        [("cloneUrl", .str "https://www.github.com/acme/api")]) = some url ∧
      SameRepo plainUrl "https://github.com/acme/api.git" url) :=
  (checkout_clones_asset_iff plainUrl platformEnv none
    (repositoryAsset "github:acme/api" [("cloneUrl", .str "https://www.github.com/acme/api")])
    "org-a" cloneRow .sast [] [] ⟨"https://github.com/acme/api.git", none⟩ rfl).mpr
    ⟨"https://github.com/acme/api.git", rfl,
      .key none "https://github.com/acme/api.git" rfl rfl (Or.inl rfl)⟩

/-- Attributes that carry a key of their own redirect it. -/
theorem attribute_key_redirects_clone :
    resolveCheckout plainUrl platformEnv (queuedJob "org-a" cloneRow (dispatchAsset
        (repositoryAsset "github:acme/api" [("externalKey", .str "github:evil/other")])) .sast [] []) =
      .ok ⟨"https://github.com/evil/other.git", none⟩ ∧
    assetUrl plainUrl none (repositoryAsset "github:acme/api"
        [("externalKey", .str "github:evil/other")]) = some "https://github.com/acme/api.git" ∧
    ¬ SameRepo plainUrl "https://github.com/evil/other.git" "https://github.com/acme/api.git" := by
  refine ⟨rfl, rfl, ?_⟩
  rintro (heq | ⟨t, hevil, hacme⟩)
  · exact absurd heq (by decide)
  · have hpaths : hostPath? plainUrl "https://github.com/evil/other.git" ≠
        hostPath? plainUrl "https://github.com/acme/api.git" := by decide
    exact hpaths (hevil.trans hacme.symm)

/-! ## The token -/

section Credential

variable (parse : UrlParser)

/-- The host a token may go to: that of its provider, which for GitLab may be the one the
platform has configured. -/
structure CredentialFits (configured : Option String) (ref host : String) : Prop where
  github : startsWith ref "env:GITHUB_" = true → host = "github.com"
  bitbucket : startsWith ref "env:BITBUCKET_" = true → host = "bitbucket.org"
  gitlab : startsWith ref "env:GITLAB_" = true → host = "gitlab.com" ∨ configured = some host

/-- The host a target has: the canonical one of its clone URL, or else the one of its
key's provider, where the GitLab host is the target's own. -/
def targetHost (target : JsonObject) : Option String :=
  match parseTargetGitlabHost parse target with
  | .error _ => none
  | .ok gitlabHost =>
      match targetCloneUrl? target with
      | some raw => (parse raw).bind fun parsed => canonicalCloneHost parsed.hostname gitlabHost
      | none => (targetKey? target).bind fun key => keyHost? key gitlabHost

variable {parse}

/-- A GitLab host has no slash. -/
theorem parseTargetGitlabHost_noSlash {target : JsonObject} {host : String}
    (h : parseTargetGitlabHost parse target = .ok (some host)) : '/' ∉ host.toList := by
  unfold parseTargetGitlabHost at h
  split at h
  · exact absurd h (by simp)
  · split at h
    · exact absurd h (by simp)
    · split at h
      · exact absurd h (by simp)
      · split at h
        · exact absurd h (by simp)
        · rename_i parsed _
          have hlower := slash_not_mem_lowerHost parsed.hostNoSlash
          simp only at h
          repeat' split at h
          all_goals simp only [Except.ok.injEq, Option.some_inj, reduceCtorEq] at h
          · subst h
            decide
          · exact h ▸ hlower

/-- A canonical host has none either. -/
theorem canonicalCloneHost_noSlash {parsed : Url} {allowed : Option String} {host : String}
    (h : canonicalCloneHost parsed.hostname allowed = some host) : '/' ∉ host.toList := by
  rw [canonicalCloneHost_eq_some h]
  unfold bareHost
  simp only
  split
  · decide
  · split
    · decide
    · split
      · decide
      · exact slash_not_mem_lowerHost parsed.hostNoSlash

/-- The resolved URL has the host of its target. -/
theorem targetHost_resolved {target : JsonObject} {url : String}
    (h : resolveCloneUrl parse target = .ok url) :
    targetHost parse target = some (urlHost url) := by
  obtain ⟨gitlabHost, fromKey, hhost, hkey, hcases⟩ := resolveCloneUrl_cases h
  unfold targetHost
  simp only [hhost]
  rcases hcases with ⟨raw, hraw, hown, -⟩ | ⟨hraw, rfl⟩
  · obtain ⟨parsed, host, path, hparsed, hcanonical, rfl⟩ := allowlistedCloneHttps_eq_ok hown
    simp only [hraw, hparsed, Option.bind_some, hcanonical]
    rw [urlHost_httpsUrl (canonicalCloneHost_noSlash hcanonical)]
  · simp only [hraw]
    unfold targetKeyUrl at hkey
    cases htarget : targetKey? target with
    | none => simp [htarget] at hkey
    | some key =>
        simp only [htarget] at hkey
        obtain ⟨host, path, hkeyHost, rfl⟩ := httpsFromScmIdentityKey_eq_ok hkey
        simp only [Option.bind_some, hkeyHost, Option.some_inj]
        rw [urlHost_httpsUrl]
        unfold keyHost? at hkeyHost
        repeat' split at hkeyHost
        · rw [Option.some_inj] at hkeyHost
          subst hkeyHost
          decide
        · rw [Option.some_inj] at hkeyHost
          subst hkeyHost
          cases gitlabHost with
          | none => decide
          | some own => exact parseTargetGitlabHost_noSlash hhost
        · rw [Option.some_inj] at hkeyHost
          subst hkeyHost
          decide
        · exact absurd hkeyHost (by simp)

end Credential

/-- A checkout that returns takes its token to the host of the credential's provider,
precisely when the target has that host. -/
theorem credential_stays_iff (parse : UrlParser) (env : String → Option String)
    (integration : Option IntegrationRow) (job : ScanJob) (r : ResolvedCheckout)
    (h : resolveCheckout parse env job = .ok r) :
    (∀ ref, job.credentialRef = some ref →
      CredentialFits (configuredGitlabHost parse integration) ref (urlHost r.url)) ↔
      ∀ ref host, job.credentialRef = some ref → targetHost parse job.target = some host →
        CredentialFits (configuredGitlabHost parse integration) ref host := by
  have hhost := targetHost_resolved (resolveCheckout_eq_ok h).2
  rw [hhost]
  constructor
  · intro hfits ref host href heq
    rw [Option.some_inj] at heq
    exact heq ▸ hfits ref href
  · intro hfits ref href
    exact hfits ref _ href rfl

/-- A GitLab asset whose attributes say nothing of a host keeps the GitLab token there. -/
theorem gitlab_token_stays :
    CredentialFits (configuredGitlabHost plainUrl (some gitlabIntegration)) "env:GITLAB_TOKEN"
      (urlHost "https://gitlab.com/acme/api.git") :=
  (credential_stays_iff plainUrl platformEnv (some gitlabIntegration)
    (queuedJob "org-a" cloneRow (dispatchAsset (repositoryAsset "gitlab:acme/api" [])) .sast []
      [("i1", some "env:GITLAB_TOKEN")])
    ⟨"https://gitlab.com/acme/api.git", some "glpat-1"⟩ rfl).mpr (by
    intro ref host href hhost
    have hrefEq : ref = "env:GITLAB_TOKEN" := (Option.some_inj.mp href).symm
    have hhostEq : host = "gitlab.com" := (Option.some_inj.mp hhost).symm
    subst hrefEq hhostEq
    exact ⟨fun hgithub => absurd hgithub (by decide), fun hbitbucket => absurd hbitbucket (by decide),
      fun _ => Or.inl rfl⟩) "env:GITLAB_TOKEN" rfl

/-- A `gitlabHost` among the attributes takes the platform's token to that host. -/
theorem attribute_host_takes_token :
    resolveCheckout plainUrl platformEnv (queuedJob "org-a" cloneRow (dispatchAsset
        (repositoryAsset "gitlab:acme/api" [("gitlabHost", .str "evil.example")])) .sast []
          [("i1", some "env:GITLAB_TOKEN")]) =
      .ok ⟨"https://evil.example/acme/api.git", some "glpat-1"⟩ ∧
    configuredGitlabHost plainUrl (some gitlabIntegration) = some "gitlab.com" ∧
    ¬ CredentialFits (some "gitlab.com") "env:GITLAB_TOKEN"
      (urlHost "https://evil.example/acme/api.git") := by
  refine ⟨rfl, rfl, ?_⟩
  intro hfits
  exact absurd (hfits.gitlab (by decide)) (by decide)

end Orchestrator
end Ctem
