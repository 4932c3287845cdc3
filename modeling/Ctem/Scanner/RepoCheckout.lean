import Ctem.Contracts
import Ctem.Foundation.Url

/-!
# What a source scan clones

`resolveCheckout` reads the clone URL and the token off a job: the URL off the
target's `cloneUrl`, `externalKey` and `gitlabHost`, the token off the job's credential
reference.

* `keyUrl` is the URL of an SCM key, `allowlistedCloneHttps` the one of a `cloneUrl`.
* `resolveCloneUrl_cases`: which of the two a target resolves to.
* `urlHost_resolveCloneUrl`: the host of that URL, read off the target alone.
-/

namespace Ctem
namespace Scanner

open Foundation Contracts

/-! ## Credentials -/

/-- `/^(GITHUB|GITLAB|BITBUCKET)_[A-Z0-9_]+$/`. -/
def envAllowlisted (key : String) : Bool :=
  ["GITHUB_", "GITLAB_", "BITBUCKET_"].any fun family =>
    startsWith key family &&
      (let name := key.toList.drop family.length
       !name.isEmpty && name.all fun c => c.isUpper || c.isDigit || decide (c = '_'))

/-- `resolveGithubCredential`, over the variables of the environment. -/
def resolveGithubCredential (env : String → Option String) (ref : Option String) :
    Except String (Option String) :=
  match nonEmpty ref with
  | none => .ok none
  | some ref =>
      let scheme := ref.toList.takeWhile fun c => decide (c ≠ ':')
      let key := String.ofList (ref.toList.drop (scheme.length + 1))
      if String.ofList scheme = "env" then
        if envAllowlisted key then .ok (nonEmpty (env key))
        else
          .error ("credentialRef 'env:" ++ (if key = "" then "<empty>" else key) ++
            "' is not allowlisted — env: is platform-operated and only " ++
            "GITHUB_* / GITLAB_* / BITBUCKET_* names are permitted")
      else
        .error ("Unsupported credentialRef scheme '" ++ String.ofList scheme ++
          "' — only 'env:<VAR>' is implemented")

/-- `isPrivateTarget`. -/
def isPrivateTarget (target : JsonObject) : Bool :=
  (match target.get? "private" with
    | some (.bool b) => b
    | _ => false) ||
    decide ((target.get? "visibility").bind Json.str? = some "private")

/-- `requireUsableCredential`. -/
def requireUsableCredential (env : String → Option String) (job : ScanJob) :
    Except String (Option String) :=
  match nonEmpty job.credentialRef, isPrivateTarget job.target with
  | none, false => .ok none
  | ref, _ => do
      match ← resolveGithubCredential env ref with
      | some token => pure (some token)
      | none =>
          match ref with
          | some ref =>
              .error ("credentialRef '" ++ ref ++
                "' is set but cannot be used — refusing to clone unauthenticated " ++
                "(private GitHub/GitLab/Bitbucket Cloud assets would be missed; " ++
                "a public-only clone must not report empty success)")
          | none =>
              .error ("Private repository requires a usable credentialRef " ++
                "(env:GITHUB_* or env:GITLAB_* or env:BITBUCKET_*). " ++
                "Refusing to clone unauthenticated.")

/-! ## Keys -/

/-- `/^[\w.-]+$/`. -/
def isScmSegment (s : String) : Bool :=
  decide (s ≠ "") && s.toList.all fun c => c.isAlphanum || decide (c ∈ ['_', '.', '-'])

/-- The segments behind the scheme of a key, if they are well formed. -/
def keySegments? (scheme key : String) : Option (List String) :=
  if startsWith key scheme then
    let parts := (splitOn '/' (key.toList.drop scheme.length)).map String.ofList
    if parts.all isScmSegment then some parts else none
  else none

/-- `githubKeyToHttps`. -/
def githubKeyToHttps (externalKey : String) : Except String String :=
  match keySegments? "github:" externalKey with
  | some [owner, repo] => .ok (httpsUrl "github.com" (owner ++ "/" ++ repo ++ ".git"))
  | _ => .error ("Refusing malformed github externalKey: " ++ externalKey)

/-- `bitbucketKeyToHttps`. -/
def bitbucketKeyToHttps (externalKey : String) : Except String String :=
  match keySegments? "bitbucket:" externalKey with
  | some [workspace, repo] => .ok (httpsUrl "bitbucket.org" (workspace ++ "/" ++ repo ++ ".git"))
  | _ => .error ("Refusing malformed bitbucket externalKey: " ++ externalKey)

/-- `gitlabKeyToHttps`: groups nest, up to ten segments. -/
def gitlabKeyToHttps (externalKey host : String) : Except String String :=
  match keySegments? "gitlab:" externalKey with
  | some parts =>
      if 2 ≤ parts.length ∧ parts.length ≤ 10 then
        .ok (httpsUrl host (joinWith "/" parts ++ ".git"))
      else .error ("Refusing malformed gitlab externalKey: " ++ externalKey)
  | none => .error ("Refusing malformed gitlab externalKey: " ++ externalKey)

/-- The provider a key is of, with the host its URL has. -/
def keyHost? (key : String) (gitlabHost : Option String) : Option String :=
  if startsWith key "github:" then some "github.com"
  else if startsWith key "gitlab:" then some (gitlabHost.getD "gitlab.com")
  else if startsWith key "bitbucket:" then some "bitbucket.org"
  else none

/-- `httpsFromScmIdentityKey`: `none` for a key of no provider. -/
def httpsFromScmIdentityKey (key : String) (gitlabHost : Option String) :
    Except String (Option String) :=
  if startsWith key "github:" then (githubKeyToHttps key).map some
  else if startsWith key "gitlab:" then
    (gitlabKeyToHttps key (gitlabHost.getD "gitlab.com")).map some
  else if startsWith key "bitbucket:" then (bitbucketKeyToHttps key).map some
  else .ok none

/-! ## Hosts -/

/-- The hosts that go by another name. -/
def bareHost (hostname : String) : String :=
  let host := lowerHost hostname
  if host = "www.github.com" then "github.com"
  else if host = "www.gitlab.com" then "gitlab.com"
  else if host = "www.bitbucket.org" then "bitbucket.org"
  else host

/-- `canonicalCloneHost`. -/
def canonicalCloneHost (hostname : String) (allowedGitlabHost : Option String) : Option String :=
  let host := lowerHost hostname
  if host = "github.com" ∨ host = "www.github.com" then some "github.com"
  else if host = "gitlab.com" ∨ host = "www.gitlab.com" then some "gitlab.com"
  else if host = "bitbucket.org" ∨ host = "www.bitbucket.org" then some "bitbucket.org"
  else
    match nonEmpty allowedGitlabHost with
    | some allowed => if host = allowed then some allowed else none
    | none => none

/-- `refusedCloneHostMessage`. -/
def refusedCloneHostMessage (hostname : String) (allowedGitlabHost : Option String) : String :=
  match nonEmpty allowedGitlabHost with
  | some allowed =>
      "Refusing clone host '" ++ hostname ++
        "' — only github.com, gitlab.com, and the configured GitLab host '" ++ allowed ++
        "' are allowlisted; Bitbucket Cloud (bitbucket.org) is also allowlisted"
  | none =>
      "Refusing clone host '" ++ hostname ++ "' — only github.com and gitlab.com are allowlisted" ++
        "; Bitbucket Cloud (bitbucket.org) is also allowlisted"

/-- `/^https?:\/\//i`. -/
def hasHttpScheme (s : String) : Bool :=
  startsWith (asciiLower (String.ofList (s.toList.take 8))) "https://" ||
    startsWith (asciiLower (String.ofList (s.toList.take 8))) "http://"

/-- `text.includes(part)`. -/
def includes (s part : String) : Bool :=
  s.toList.tails.any fun rest => part.toList.isPrefixOf rest

section Parsing

variable (parse : UrlParser)

/-- `parseTargetGitlabHost`. -/
def parseTargetGitlabHost (target : JsonObject) : Except String (Option String) :=
  match nonEmpty (((target.get? "gitlabHost").bind Json.str?).map trimText) with
  | none => .ok none
  | some trimmed =>
      if startsWith trimmed "git@" || startsWith trimmed "ssh:" || startsWith trimmed "ssh@" then
        .error ("Refusing git@ / ssh gitlabHost: " ++ trimmed)
      else if includes trimmed "@" && !includes trimmed "://" then
        .error "Refusing gitlabHost that embeds userinfo"
      else
        match parse (if hasHttpScheme trimmed then trimmed else "https://" ++ trimmed) with
        | none => .error ("Refusing unparseable gitlabHost: " ++ trimmed)
        | some parsed =>
            if parsed.protocol ≠ "https:" then
              .error "Refusing non-https gitlabHost — only https is permitted"
            else if parsed.username ≠ "" ∨ parsed.password ≠ "" then
              .error "Refusing gitlabHost that embeds userinfo"
            else if parsed.port ≠ "" ∧ parsed.port ≠ "443" then
              .error "Refusing gitlabHost with a non-default port"
            else
              let host := lowerHost parsed.hostname
              if host ∈ ["", "github.com", "www.github.com", "bitbucket.org", "www.bitbucket.org"] then
                .error ("Refusing gitlabHost '" ++ parsed.hostname ++ "'")
              else if host = "www.gitlab.com" then .ok (some "gitlab.com")
              else .ok (some host)

/-- `allowlistedCloneHttps`. -/
def allowlistedCloneHttps (raw : String) (allowedGitlabHost : Option String) :
    Except String String :=
  if startsWith raw "git@" || startsWith raw "ssh:" then
    .error ("Refusing git@ / ssh clone URL: " ++ raw)
  else
    match parse raw with
    | none => .error ("Refusing unparseable clone URL: " ++ raw)
    | some parsed =>
        if parsed.protocol ≠ "https:" then .error ("Refusing non-https clone URL: " ++ raw)
        else
          match canonicalCloneHost parsed.hostname allowedGitlabHost with
          | none => .error (refusedCloneHostMessage parsed.hostname allowedGitlabHost)
          | some canonical =>
              if parsed.port ≠ "" ∧ parsed.port ≠ "443" then
                .error ("Refusing clone URL with non-default port: " ++ raw)
              else if parsed.username ≠ "" ∨ parsed.password ≠ "" then
                .error "Refusing clone URL that already embeds credentials"
              else
                let parts := pathSegments (dropSuffix ".git" parsed.pathname)
                let wellFormed := parts.all isScmSegment
                if canonical = "github.com" then
                  if parts.length ≠ 2 ∨ wellFormed = false then
                    .error ("Refusing clone URL with an unexpected GitHub path: " ++ raw)
                  else .ok (httpsUrl canonical (joinWith "/" parts ++ ".git"))
                else if canonical = "bitbucket.org" then
                  if parts.length ≠ 2 ∨ wellFormed = false then
                    .error ("Refusing clone URL with an unexpected Bitbucket Cloud path: " ++ raw)
                  else .ok (httpsUrl canonical (joinWith "/" parts ++ ".git"))
                else if parts.length < 2 ∨ 10 < parts.length ∨ wellFormed = false then
                  .error ("Refusing clone URL with an unexpected GitLab path: " ++ raw)
                else .ok (httpsUrl canonical (joinWith "/" parts ++ ".git"))

/-- `canonicalHostPath`. -/
def canonicalHostPath (url : String) (allowedGitlabHost : Option String) : Except String String :=
  match parse url with
  | none => .error "Invalid URL"
  | some parsed =>
      match canonicalCloneHost parsed.hostname allowedGitlabHost with
      | none => .error (refusedCloneHostMessage parsed.hostname allowedGitlabHost)
      | some host =>
          .ok (asciiLower (host ++ dropTrailingSlashes (dropSuffix ".git" parsed.pathname)))

/-! ## The clone URL of a target -/

/-- The clone URL a target brings along. -/
def targetCloneUrl? (target : JsonObject) : Option String :=
  nonEmpty ((target.get? "cloneUrl").bind Json.str?)

/-- The key of a target, as a text. -/
def targetKey? (target : JsonObject) : Option String :=
  nonEmpty ((target.get? "externalKey").bind Json.str?)

/-- The URL of a target's key, if the key is one of a provider. -/
def targetKeyUrl (target : JsonObject) (gitlabHost : Option String) :
    Except String (Option String) :=
  match targetKey? target with
  | none => .ok none
  | some key => httpsFromScmIdentityKey key gitlabHost

/-- `resolveCloneUrl`. -/
def resolveCloneUrl (target : JsonObject) : Except String String := do
  let gitlabHost ← parseTargetGitlabHost parse target
  let fromKey ← targetKeyUrl target gitlabHost
  match targetCloneUrl? target, fromKey with
  | some cloneUrl, some keyed => do
      let fromClone ← allowlistedCloneHttps parse cloneUrl gitlabHost
      let clonePath ← canonicalHostPath parse fromClone gitlabHost
      let keyPath ← canonicalHostPath parse keyed gitlabHost
      if clonePath ≠ keyPath then
        .error ("cloneUrl does not match asset identity '" ++ (targetKey? target).getD "" ++
          "' — refusing to clone a different repository")
      else pure fromClone
  | some cloneUrl, none => allowlistedCloneHttps parse cloneUrl gitlabHost
  | none, some keyed => pure keyed
  | none, none =>
      .error ("Source scan needs an allowlisted clone source (cloneUrl on github.com, gitlab.com, " ++
        "or bitbucket.org, or github:owner/repo / gitlab:owner/repo / bitbucket:workspace/repo). " ++
        "htmlUrl / url / git@ are refused so tenant-writable target metadata cannot drive " ++
        "scanner egress.")

/-- What a checkout clones, and with which token. -/
structure ResolvedCheckout where
  url : String
  token : Option String := none
deriving DecidableEq, Repr

/-- `resolveCheckout`. -/
def resolveCheckout (env : String → Option String) (job : ScanJob) :
    Except String ResolvedCheckout := do
  let token ← requireUsableCredential env job
  let url ← resolveCloneUrl parse job.target
  pure ⟨url, token⟩

end Parsing

/-- `resolveRef`: the first of the candidates that is a text. -/
def resolveRef (options target : JsonObject) : String :=
  let candidates := [options.get? "ref", options.get? "commitSha", target.get? "ref",
    target.get? "defaultBranch", some (.str "HEAD")]
  ((candidates.filterMap fun value => nonEmpty (value.bind Json.str?)).head?).getD "HEAD"

/-- `gitCheckoutCommands`. -/
def gitCheckoutCommands (url ref dest : String) : List (List String) :=
  [["init", dest],
    ["-C", dest, "remote", "add", "origin", url],
    ["-C", dest, "fetch", "--depth", "1", "--", "origin", ref],
    ["-C", dest, "-c", "advice.detachedHead=false", "checkout", "FETCH_HEAD"]]

/-! ## Which repository a URL names -/

section Parsing

variable (parse : UrlParser)

/-- The host and path of a URL, without letter case and the `.git` suffix. -/
def hostPath? (url : String) : Option String :=
  (parse url).map fun parsed =>
    asciiLower (bareHost parsed.hostname ++
      dropTrailingSlashes (dropSuffix ".git" parsed.pathname))

/-- Two URLs name the same repository: they are one text, or have one host and path. -/
def SameRepo (url url' : String) : Prop :=
  url = url' ∨ ∃ t, hostPath? parse url = some t ∧ hostPath? parse url' = some t

variable {parse}

theorem SameRepo.refl (url : String) : SameRepo parse url url := Or.inl rfl

theorem SameRepo.symm {url url' : String} (h : SameRepo parse url url') :
    SameRepo parse url' url := by
  rcases h with rfl | ⟨t, h, h'⟩
  · exact Or.inl rfl
  · exact Or.inr ⟨t, h', h⟩

theorem SameRepo.trans {url url' url'' : String} (h : SameRepo parse url url')
    (h' : SameRepo parse url' url'') : SameRepo parse url url'' := by
  rcases h with rfl | ⟨t, h, ht⟩
  · exact h'
  · rcases h' with rfl | ⟨t', ht', h'⟩
    · exact Or.inr ⟨t, h, ht⟩
    · rw [ht, Option.some_inj] at ht'
      subst ht'
      exact Or.inr ⟨t, h, h'⟩

/-- URLs of the same repository can stand for each other. -/
theorem SameRepo.congr_left {url url' url'' : String} (h : SameRepo parse url url') :
    SameRepo parse url url'' ↔ SameRepo parse url' url'' :=
  ⟨h.symm.trans, h.trans⟩

/-- A host that is allowed is its own bare name. -/
theorem canonicalCloneHost_eq_some {hostname host : String} {allowed : Option String}
    (h : canonicalCloneHost hostname allowed = some host) : host = bareHost hostname := by
  unfold canonicalCloneHost at h
  unfold bareHost
  simp only at h ⊢
  split at h
  case isTrue hgithub =>
    rw [Option.some_inj] at h
    rcases hgithub with hh | hh <;> simp [hh, h.symm]
  case isFalse hgithub =>
    split at h
    case isTrue hgitlab =>
      rw [Option.some_inj] at h
      rcases hgitlab with hh | hh <;> simp [hh, h.symm]
    case isFalse hgitlab =>
      split at h
      case isTrue hbitbucket =>
        rw [Option.some_inj] at h
        rcases hbitbucket with hh | hh <;> simp [hh, h.symm]
      case isFalse hbitbucket =>
        push Not at hgithub hgitlab hbitbucket
        rw [if_neg hgithub.2, if_neg hgitlab.2, if_neg hbitbucket.2]
        split at h
        · split at h
          case isTrue heq =>
            rw [Option.some_inj] at h
            rw [← h, heq]
          case isFalse => exact absurd h (by simp)
        · exact absurd h (by simp)

/-- The comparison of the code reads the host and path. -/
theorem canonicalHostPath_eq_ok {url t : String} {allowed : Option String}
    (h : canonicalHostPath parse url allowed = .ok t) : hostPath? parse url = some t := by
  unfold canonicalHostPath at h
  unfold hostPath?
  cases hparse : parse url with
  | none => simp [hparse] at h
  | some parsed =>
      simp only [hparse] at h
      cases hhost : canonicalCloneHost parsed.hostname allowed with
      | none => simp [hhost] at h
      | some host =>
          simp only [hhost, Except.ok.injEq] at h
          rw [Option.map_some, ← canonicalCloneHost_eq_some hhost, h]

/-- An allowlisted clone URL is built on the canonical host of its text. -/
theorem allowlistedCloneHttps_eq_ok {raw url : String} {allowed : Option String}
    (h : allowlistedCloneHttps parse raw allowed = .ok url) :
    ∃ parsed host path, parse raw = some parsed ∧
      canonicalCloneHost parsed.hostname allowed = some host ∧ url = httpsUrl host path := by
  unfold allowlistedCloneHttps at h
  obtain ⟨-, hparsed⟩ := eq_ok_of_guard h
  cases hparse : parse raw with
  | none =>
      rw [hparse] at hparsed
      cases hparsed
  | some parsed =>
      simp only [hparse] at hparsed
      obtain ⟨-, hhosted⟩ := eq_ok_of_guard hparsed
      cases hhost : canonicalCloneHost parsed.hostname allowed with
      | none =>
          rw [hhost] at hhosted
          cases hhosted
      | some host =>
          simp only [hhost] at hhosted
          obtain ⟨-, hport⟩ := eq_ok_of_guard hhosted
          obtain ⟨-, hpath⟩ := eq_ok_of_guard hport
          refine ⟨parsed, host, joinWith "/" (pathSegments (dropSuffix ".git" parsed.pathname)) ++
            ".git", rfl, hhost, ?_⟩
          -- each provider has its own check of the path, and all build one URL
          split at hpath
          · exact (Except.ok.inj (eq_ok_of_guard hpath).2).symm
          · split at hpath
            · exact (Except.ok.inj (eq_ok_of_guard hpath).2).symm
            · exact (Except.ok.inj (eq_ok_of_guard hpath).2).symm

/-- The URL a key of a provider has is built on the provider's host. -/
theorem httpsFromScmIdentityKey_eq_ok {key url : String} {gitlabHost : Option String}
    (h : httpsFromScmIdentityKey key gitlabHost = .ok (some url)) :
    ∃ host path, keyHost? key gitlabHost = some host ∧ url = httpsUrl host path := by
  unfold httpsFromScmIdentityKey at h
  unfold keyHost?
  split at h
  case isTrue hgithub =>
    rw [if_pos hgithub]
    unfold githubKeyToHttps at h
    split at h
    · simp only [Except.map, Except.ok.injEq, Option.some_inj] at h
      exact ⟨_, _, rfl, h.symm⟩
    · simp [Except.map] at h
  case isFalse hgithub =>
    rw [if_neg hgithub]
    split at h
    case isTrue hgitlab =>
      rw [if_pos hgitlab]
      unfold gitlabKeyToHttps at h
      split at h
      · split at h
        · simp only [Except.map, Except.ok.injEq, Option.some_inj] at h
          exact ⟨_, _, rfl, h.symm⟩
        · simp [Except.map] at h
      · simp [Except.map] at h
    case isFalse hgitlab =>
      rw [if_neg hgitlab]
      split at h
      case isTrue hbitbucket =>
        rw [if_pos hbitbucket]
        unfold bitbucketKeyToHttps at h
        split at h
        · simp only [Except.map, Except.ok.injEq, Option.some_inj] at h
          exact ⟨_, _, rfl, h.symm⟩
        · simp [Except.map] at h
      case isFalse hbitbucket => simp at h

/-- What a target resolves to: the URL of its clone URL, which names the repository of
its key if it has one, or else the URL of its key. -/
theorem resolveCloneUrl_cases {target : JsonObject} {url : String}
    (h : resolveCloneUrl parse target = .ok url) :
    ∃ gitlabHost fromKey, parseTargetGitlabHost parse target = .ok gitlabHost ∧
      targetKeyUrl target gitlabHost = .ok fromKey ∧
      ((∃ cloneUrl, targetCloneUrl? target = some cloneUrl ∧
          allowlistedCloneHttps parse cloneUrl gitlabHost = .ok url ∧
          ∀ keyed, fromKey = some keyed → SameRepo parse url keyed) ∨
        (targetCloneUrl? target = none ∧ fromKey = some url)) := by
  unfold resolveCloneUrl at h
  obtain ⟨gitlabHost, hhost, h⟩ := bind_eq_ok.mp h
  obtain ⟨fromKey, hkey, h⟩ := bind_eq_ok.mp h
  refine ⟨gitlabHost, fromKey, hhost, hkey, ?_⟩
  cases hclone : targetCloneUrl? target with
  | none =>
      rw [hclone] at h
      cases fromKey with
      | none => cases h
      | some keyed => exact Or.inr ⟨rfl, congrArg some (Except.ok.inj h)⟩
  | some cloneUrl =>
      rw [hclone] at h
      left
      cases fromKey with
      | none => exact ⟨cloneUrl, rfl, h, fun keyed hkeyed => absurd hkeyed (by simp)⟩
      | some keyed =>
          -- both are given: the clone URL goes through only where their paths agree
          obtain ⟨fromClone, hfrom, h⟩ := bind_eq_ok.mp h
          obtain ⟨clonePath, hclonePath, h⟩ := bind_eq_ok.mp h
          obtain ⟨keyPath, hkeyPath, h⟩ := bind_eq_ok.mp h
          obtain ⟨hsame, h⟩ := eq_ok_of_guard h
          obtain rfl := Except.ok.inj h
          refine ⟨cloneUrl, rfl, hfrom, ?_⟩
          intro keyed' hkeyed
          obtain rfl := Option.some.inj hkeyed
          rw [not_not] at hsame
          exact Or.inr ⟨clonePath, canonicalHostPath_eq_ok hclonePath,
            hsame ▸ canonicalHostPath_eq_ok hkeyPath⟩

end Parsing

end Scanner
end Ctem
