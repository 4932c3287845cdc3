import Ctem.Orchestrator.CiGate
import Ctem.Scanner.RepoCheckout

/-!
# GitHub check runs

A scan whose options carry a repository and a commit is published as a check run on that
commit: `parseGithubChecksContext` reads the two off the options, `publishCheck` asks the gate
and builds the run.

`publishCheck_eq_some` says which scans a check run is published for, and what it says.
-/

namespace Ctem
namespace Orchestrator

open Foundation Contracts Scanner Policy

/-! ## The context -/

/-- `DEFAULT_CHECK_NAME`. -/
def defaultCheckName : String := "CTEM"

structure GithubChecksContext where
  owner : String
  repo : String
  sha : String
  /-- In UTF-16 code units, as it is cut to length. -/
  checkName : List Nat
  detailsUrl : Option String := none
deriving DecidableEq

/-- `asRecord`. -/
def asRecord (value : Option Json) : JsonObject :=
  (value.map Json.fields).getD []

/-- `stringField`. -/
def stringField (value : Option Json) : Option String :=
  nonEmpty ((value.bind Json.str?).map trimText)

/-- `looksLikeUrl`. -/
def looksLikeUrl (value : String) : Bool :=
  includes value "://" || includes value "@"

/-- `OWNER_PART`. -/
def validOwner (value : String) : Bool :=
  let cs := value.toList
  cs.all (fun c => c.isAlphanum || decide (c = '-')) && decide (cs.length ≤ 39) &&
    (cs.head?.any Char.isAlphanum) && (cs.getLast?.any Char.isAlphanum)

/-- `REPO_PART`, and not a relative path. -/
def validRepo (value : String) : Bool :=
  let cs := value.toList
  cs.all (fun c => c.isAlphanum || decide (c ∈ ['.', '_', '-'])) && decide (1 ≤ cs.length) &&
    decide (cs.length ≤ 100) && decide (value ≠ ".") && decide (value ≠ "..")

/-- `parseGithubRepository`. -/
def parseGithubRepository (repository owner repo : Option String) : Option (String × String) :=
  match repository with
  | some repository =>
      if looksLikeUrl repository then none
      else
        match (splitOn '/' repository.toList).map String.ofList with
        | [o, r] => if validOwner o && validRepo r then some (o, r) else none
        | _ => none
  | none =>
      match owner, repo with
      | some owner, some repo =>
          if looksLikeUrl owner || looksLikeUrl repo then none
          else if validOwner owner && validRepo repo then some (owner, repo)
          else none
      | _, _ => none

/-- `[0-9a-f]`, in either case. -/
def isHexLetter (c : Char) : Bool :=
  c.isDigit || decide ('a' ≤ c ∧ c ≤ 'f') || decide ('A' ≤ c ∧ c ≤ 'F')

/-- `parseSha`. -/
def parseSha (sha : Option String) : Option String :=
  match sha with
  | none => none
  | some sha =>
      if sha.toList.length = 40 ∧ sha.toList.all isHexLetter = true then some (asciiLower sha)
      else none

/-- `sanitizeCheckName`. -/
def sanitizeCheckName (raw : Option String) : List Nat :=
  let name := trimText (String.ofList ((raw.getD defaultCheckName).toList.map fun c =>
    if c = '\r' ∨ c = '\n' ∨ c.toNat = 0 then ' ' else c))
  if name = "" then utf16Units defaultCheckName else (utf16Units name).take 100

/-- `host` of a URL. -/
def urlHostPort (url : Url) : String :=
  url.hostname ++ (if url.port = "" then "" else ":" ++ url.port)

/-- `origin` of a URL; other schemes have an opaque one. -/
def urlOrigin (url : Url) : String :=
  if url.protocol ∈ ["http:", "https:", "ws:", "wss:", "ftp:"] then
    url.protocol ++ "//" ++ urlHostPort url
  else "null"

/-- `port || (https ? '443' : '80')`. -/
def effectivePort (url : Url) : String :=
  if url.port ≠ "" then url.port else if url.protocol = "https:" then "443" else "80"

/-- `allowlistedCtemDetailsUrl`, with `CTEM_PUBLIC_URL` and the URL parser. -/
def allowlistedCtemDetailsUrl (publicUrl : Option String) (parse : UrlParser) (raw : Option String)
    (scanId : Uuid) : Option String := do
  let originRaw ← nonEmpty (publicUrl.map trimText)
  let origin ← parse originRaw
  let candidate ← parse ((nonEmpty (raw.map trimText)).getD
    (dropSuffix "/" (urlOrigin origin) ++ "/v1/scans/" ++ scanId))
  let originHttpLocal := origin.protocol = "http:" ∧
    (origin.hostname = "localhost" ∨ origin.hostname = "127.0.0.1")
  if candidate.protocol ≠ "https:" ∧ ¬ (originHttpLocal ∧ candidate.protocol = "http:") then none
  else if candidate.username ≠ "" ∨ candidate.password ≠ "" then none
  else if asciiLower candidate.hostname ≠ asciiLower origin.hostname then none
  else if effectivePort origin ≠ effectivePort candidate then none
  else
    let path := (nonEmpty (some (dropSuffix "/" candidate.pathname))).getD "/"
    if path ∈ ["/v1/scans/" ++ scanId, "/scans/" ++ scanId] then
      some (candidate.protocol ++ "//" ++ urlHostPort candidate ++ path)
    else none

/-- What the publisher reads off its environment. -/
structure ChecksEnv where
  publicUrl : Option String := none
  parse : UrlParser

/-- `parseGithubChecksContext`: each field of `options.github`, or else of the options. -/
def parseGithubChecksContext (env : ChecksEnv) (options : JsonObject) (scanId : Uuid) :
    Option GithubChecksContext :=
  let github := asRecord (options.get? "github")
  let field := fun key => (stringField (github.get? key)).or (stringField (options.get? key))
  match parseGithubRepository (field "repository") (field "owner") (field "repo"),
      parseSha (field "sha") with
  | some (owner, repo), some sha =>
      some
        { owner := owner
          repo := repo
          sha := sha
          checkName := sanitizeCheckName (field "checkName")
          detailsUrl :=
            allowlistedCtemDetailsUrl env.publicUrl env.parse (field "detailsUrl") scanId }
  | _, _ => none

/-! ## The check run -/

inductive CheckConclusion where
  | success | failure
deriving DecidableEq, Repr

/-- `checkConclusionFromScan`. -/
def checkConclusionFromScan : ScanConclusion → Option CheckConclusion
  | .passed => some .success
  | .failed => some .failure
  | .pending => none

structure CheckRunBody where
  name : List Nat
  headSha : String
  conclusion : CheckConclusion
  externalId : Uuid
  detailsUrl : Option String
  title : String
  summary : String

/-- `buildCheckRunBody`. -/
def buildCheckRunBody (ctx : GithubChecksContext) (scanId : Uuid) (conclusion : CheckConclusion) :
    CheckRunBody where
  name := ctx.checkName
  headSha := ctx.sha
  conclusion := conclusion
  externalId := scanId
  detailsUrl := ctx.detailsUrl
  title := if conclusion = .failure then "CTEM fail_build" else "CTEM passed"
  summary := "CTEM scan " ++ scanId ++ " conclusion is " ++
    (if conclusion = .failure then "failed" else "passed") ++
    " (from concludeScan / fail_build policy). Scan row status is not the Check conclusion."

/-- A check run on a repository. -/
structure CheckRun where
  owner : String
  repo : String
  body : CheckRunBody

/-- `publish`, where the token is usable and GitHub takes the run: what is published for the
scan, if anything is. -/
def publishCheck (env : ChecksEnv) (scans : ScanStore) (policy : PolicyDb) (orgId : OrgId)
    (scanId : Uuid) (now : Timestamp) : Option CheckRun := do
  let scan ← (scans.scans.find? scanId).filter fun scan => decide (scan.orgId = orgId)
  let ctx ← parseGithubChecksContext env scan.options scan.id
  let row ← scans.conclusionRow scanId
  let conclusion ← checkConclusionFromScan (scanGatesForScan policy orgId now row).conclusion
  pure ⟨ctx.owner, ctx.repo, buildCheckRunBody ctx scan.id conclusion⟩

/-- A check run is published for a terminal scan of the organisation whose options name a commit,
once its gates have an answer. -/
theorem publishCheck_eq_some {env : ChecksEnv} {scans : ScanStore} {policy : PolicyDb}
    {orgId : OrgId} {scanId : Uuid} {now : Timestamp} {check : CheckRun} :
    publishCheck env scans policy orgId scanId now = some check ↔
      ∃ scan ctx row conclusion, scans.scans.find? scanId = some scan ∧ scan.orgId = orgId ∧
        parseGithubChecksContext env scan.options scan.id = some ctx ∧
        scans.conclusionRow scanId = some row ∧
        checkConclusionFromScan (scanGatesForScan policy orgId now row).conclusion =
          some conclusion ∧
        check = ⟨ctx.owner, ctx.repo, buildCheckRunBody ctx scan.id conclusion⟩ := by
  unfold publishCheck
  constructor
  · intro h
    obtain ⟨scan, hscan, h⟩ := Option.bind_eq_some_iff.mp h
    obtain ⟨ctx, hctx, h⟩ := Option.bind_eq_some_iff.mp h
    obtain ⟨row, hrow, h⟩ := Option.bind_eq_some_iff.mp h
    obtain ⟨conclusion, hconclusion, h⟩ := Option.bind_eq_some_iff.mp h
    obtain ⟨hfind, horg⟩ := Option.filter_eq_some_iff.mp hscan
    exact ⟨scan, ctx, row, conclusion, hfind, of_decide_eq_true horg, hctx, hrow, hconclusion,
      (Option.some.inj h).symm⟩
  · rintro ⟨scan, ctx, row, conclusion, hfind, horg, hctx, hrow, hconclusion, rfl⟩
    have hscan : (scans.scans.find? scanId).filter (fun scan => decide (scan.orgId = orgId)) =
        some scan := Option.filter_eq_some_iff.mpr ⟨hfind, decide_eq_true horg⟩
    rw [hscan, Option.bind_eq_bind, Option.bind_some, hctx, Option.bind_eq_bind, Option.bind_some,
      hrow, Option.bind_eq_bind, Option.bind_some, hconclusion]
    rfl

/-- The gates of a scan that is still open are pending. -/
theorem terminal_of_conclusion {policy : PolicyDb} {orgId : OrgId} {now : Timestamp}
    {row : ScanConclusionRow} {conclusion : CheckConclusion}
    (h : checkConclusionFromScan (scanGatesForScan policy orgId now row).conclusion =
      some conclusion) : row.status.terminal = true := by
  unfold scanGatesForScan at h
  split at h
  case isTrue hterminal => exact hterminal
  case isFalse => cases h

end Orchestrator
end Ctem
