import Ctem.Identity.OrgTables

/-!
# Machine tokens

`ApiTokenService` and `ApiTokenController` of the identity service, the two ways the gateway
builds a principal (`principalFromMembership` and `verifyPat`), and the permission check of
`InternalAuthGuard`.

* A token row is found by the hash of the presented text, which is unique; only revocation
  writes to a row.
* `issue` stores the scopes it is given; `verifyPat` keeps those of them that are permissions.
-/

namespace Ctem
namespace Identity

open Foundation Contracts

/-! ## Permissions -/

inductive Permission where
  | orgRead | orgWrite | memberManage | assetRead | assetWrite | scanRead | scanRun
  | findingRead | findingTriage | policyRead | policyWrite | exceptionApprove | reportRead
  | integrationManage
deriving DecidableEq, Repr

namespace Permission

/-- `Permission.options`. -/
def options : List Permission :=
  [.orgRead, .orgWrite, .memberManage, .assetRead, .assetWrite, .scanRead, .scanRun,
    .findingRead, .findingTriage, .policyRead, .policyWrite, .exceptionApprove, .reportRead,
    .integrationManage]

/-- The word of the enumeration. -/
def name : Permission → String
  | orgRead => "org:read"
  | orgWrite => "org:write"
  | memberManage => "member:manage"
  | assetRead => "asset:read"
  | assetWrite => "asset:write"
  | scanRead => "scan:read"
  | scanRun => "scan:run"
  | findingRead => "finding:read"
  | findingTriage => "finding:triage"
  | policyRead => "policy:read"
  | policyWrite => "policy:write"
  | exceptionApprove => "exception:approve"
  | reportRead => "report:read"
  | integrationManage => "integration:manage"

/-- `Permission.options.includes(s)`, with the permission found. -/
def ofScope? (scope : String) : Option Permission :=
  options.find? fun p => decide (p.name = scope)

end Permission

/-- `ROLE_PERMISSIONS`. -/
def rolePermissions : Role → List Permission
  | .owner => Permission.options
  | .admin => Permission.options.filter fun p => decide (p ≠ .orgWrite)
  | .securityAnalyst =>
      [.orgRead, .assetRead, .assetWrite, .scanRead, .scanRun, .findingRead, .findingTriage,
        .policyRead, .exceptionApprove, .reportRead]
  | .developer =>
      [.orgRead, .assetRead, .scanRead, .scanRun, .findingRead, .findingTriage, .reportRead]
  | .auditor => [.orgRead, .assetRead, .scanRead, .findingRead, .policyRead, .reportRead]

/-- Scopes as permissions; a scope that is no permission is dropped. -/
def scopePermissions (scopes : List String) : List Permission :=
  scopes.filterMap Permission.ofScope?

/-- The principal the gateway signs and sends downstream. -/
structure GatewayPrincipal where
  userId : Uuid
  orgId : Uuid
  role : Role
  permissions : List Permission
  /-- The name of the token; `none` for a member. -/
  serviceAccount : Option String
deriving DecidableEq

/-! ## The table of tokens -/

/-- A row of `api_tokens`. -/
structure ApiTokenRow where
  id : Uuid
  orgId : Uuid
  name : String
  tokenHash : String
  scopes : List String
  expiresAt : Option Timestamp
  revokedAt : Option Timestamp := none
deriving DecidableEq

/-- `token.expiresAt && token.expiresAt < new Date()`. -/
def ApiTokenRow.expired (row : ApiTokenRow) (now : Timestamp) : Bool :=
  match row.expiresAt with
  | some expiresAt => decide (expiresAt < now)
  | none => false

/-- The rows, unique in their hash and in their id. -/
structure ApiTokens where
  byHash : Table ApiTokenRow ApiTokenRow.tokenHash
  /-- No two rows share an id. -/
  ids : (byHash.rows.map ApiTokenRow.id).Nodup

namespace ApiTokens

instance : Membership ApiTokenRow ApiTokens := ⟨fun t row => row ∈ t.byHash⟩

/-- The table before the first token. -/
def empty : ApiTokens := ⟨Table.empty, List.nodup_nil⟩

/-- `apiToken.create`; `none` when a unique column is taken. -/
def create? (t : ApiTokens) (row : ApiTokenRow) : Option ApiTokens :=
  if hid : row.id ∈ t.byHash.rows.map ApiTokenRow.id then none
  else if hhash : row.tokenHash ∈ t.byHash.rows.map ApiTokenRow.tokenHash then none
  else some
    { byHash := ⟨row :: t.byHash.rows, List.nodup_cons.mpr ⟨hhash, t.byHash.nodup⟩⟩
      ids := List.nodup_cons.mpr ⟨hid, t.ids⟩ }

/-- `revoke`: an id without a row is an error and changes nothing. -/
def revoke (t : ApiTokens) (id : Uuid) (now : Timestamp) : ApiTokens where
  byHash := t.byHash.updateMany (fun row => decide (row.id = id))
    (fun row => { row with revokedAt := some now }) (fun _ => rfl)
  ids := by
    have hids : (t.byHash.rows.map fun row =>
        if decide (row.id = id) then { row with revokedAt := some now } else row).map
          ApiTokenRow.id = t.byHash.rows.map ApiTokenRow.id := by
      rw [List.map_map]
      apply List.map_congr_left
      intro row _
      by_cases h : row.id = id <;> simp [h]
    exact hids.symm ▸ t.ids

@[simp] theorem not_mem_empty (row : ApiTokenRow) : row ∉ empty :=
  Table.not_mem_empty row

/-- A row is determined by its id. -/
theorem eq_of_id_eq {t : ApiTokens} {row row' : ApiTokenRow} (h : row ∈ t) (h' : row' ∈ t)
    (hid : row.id = row'.id) : row = row' :=
  List.inj_on_of_nodup_map t.ids h h' hid

theorem mem_create? {t t' : ApiTokens} {row : ApiTokenRow} (hcreate : t.create? row = some t')
    {r : ApiTokenRow} : r ∈ t' ↔ r = row ∨ r ∈ t := by
  unfold create? at hcreate
  split at hcreate
  · simp at hcreate
  · split at hcreate
    · simp at hcreate
    · rw [Option.some_inj] at hcreate
      subst hcreate
      exact List.mem_cons

/-- The id of a created row was free. -/
theorem id_free_of_create? {t t' : ApiTokens} {row : ApiTokenRow}
    (hcreate : t.create? row = some t') {r : ApiTokenRow} (hr : r ∈ t) : r.id ≠ row.id := by
  unfold create? at hcreate
  split at hcreate
  · simp at hcreate
  · rename_i hfree
    intro heq
    exact hfree (heq ▸ List.mem_map_of_mem hr)

theorem mem_revoke {t : ApiTokens} {id : Uuid} {now : Timestamp} {r : ApiTokenRow} :
    r ∈ t.revoke id now ↔
      ∃ row ∈ t, (if decide (row.id = id) then { row with revokedAt := some now } else row) = r := by
  rw [show r ∈ t.revoke id now ↔ r ∈ (t.revoke id now).byHash from Iff.rfl, revoke,
    Table.mem_updateMany]
  rfl

end ApiTokens

/-! ## Issuing and verifying -/

/-- What the runtime provides. -/
structure TokenPlatform where
  /-- `createHash('sha256').update(token).digest('hex')`. -/
  sha256Hex : String → String
  /-- `new Date(text)`; `none` is an invalid date, which the database refuses. -/
  newDate : String → Option Timestamp

/-- What a call throws. -/
inductive TokenError where
  | unauthorized (message : String)
  | forbidden (message : String)
  /-- The database refuses the row. -/
  | refused
deriving DecidableEq

/-- The body of an issue request. -/
structure IssueTokenBody where
  name : String
  scopes : Option (List String) := none
  expiresAt : Option String := none

/-- What is drawn for a new token: the random part of its text, and the id of its row. -/
structure TokenDraw where
  random : String
  id : Uuid
  /-- A generated id is a UUID. -/
  id_ne : id ≠ ""

/-- `PREFIX`. -/
def tokenPrefix : String := "ctem_pat_"

/-- The text of the new token, which only its issuer sees. -/
def TokenDraw.secret (draw : TokenDraw) : String :=
  tokenPrefix ++ draw.random

/-- `body.scopes ?? ['scan:run', 'finding:read']`. -/
def IssueTokenBody.requested (body : IssueTokenBody) : List String :=
  body.scopes.getD ["scan:run", "finding:read"]

section Calls

variable (platform : TokenPlatform)

/-- `body.expiresAt ? new Date(body.expiresAt) : undefined`. -/
def IssueTokenBody.expiry (body : IssueTokenBody) : Except TokenError (Option Timestamp) :=
  match body.expiresAt with
  | none => .ok none
  | some text =>
      if text = "" then .ok none
      else
        match platform.newDate text with
        | some date => .ok (some date)
        | none => .error .refused

/-- `InternalAuthGuard`, once the signature of the header is verified. -/
def requirePermissions (required : List Permission) (principal : GatewayPrincipal) :
    Except TokenError Unit :=
  let missing := required.filter fun p => decide (p ∉ principal.permissions)
  if missing.isEmpty then .ok ()
  else .error (.forbidden ("Missing permission(s): " ++
    String.intercalate ", " (missing.map Permission.name)))

/-- The row `issue` creates. -/
def issuedRow (principal : GatewayPrincipal) (body : IssueTokenBody) (draw : TokenDraw)
    (expiresAt : Option Timestamp) : ApiTokenRow where
  id := draw.id
  orgId := principal.orgId
  name := body.name
  tokenHash := platform.sha256Hex draw.secret
  scopes := body.requested
  expiresAt := expiresAt

/-- `POST internal/tokens`: the row and the table with it. -/
def issue (t : ApiTokens) (principal : GatewayPrincipal) (body : IssueTokenBody)
    (draw : TokenDraw) : Except TokenError (ApiTokenRow × ApiTokens) :=
  match requirePermissions [.integrationManage] principal with
  | .error e => .error e
  | .ok () =>
      match body.expiry platform with
      | .error e => .error e
      | .ok expiresAt =>
          match t.create? (issuedRow platform principal body draw expiresAt) with
          | some t' => .ok (issuedRow platform principal body draw expiresAt, t')
          | none => .error .refused

/-- `DELETE internal/tokens/:id`. -/
def revoke (t : ApiTokens) (principal : GatewayPrincipal) (id : Uuid) (now : Timestamp) :
    Except TokenError ApiTokens :=
  match requirePermissions [.integrationManage] principal with
  | .error e => .error e
  | .ok () => .ok (t.revoke id now)

/-- What `verify` answers. -/
structure VerifiedToken where
  orgId : Uuid
  tokenId : Uuid
  scopes : List String
  name : String

def verify (t : ApiTokens) (presented : String) (now : Timestamp) :
    Except TokenError VerifiedToken :=
  if startsWith presented tokenPrefix then
    match t.byHash.find? (platform.sha256Hex presented) with
    | none => .error (.unauthorized "Invalid token")
    | some token =>
        if token.revokedAt.isSome then .error (.unauthorized "Invalid token")
        else if token.expired now then .error (.unauthorized "Token expired")
        else .ok ⟨token.orgId, token.id, token.scopes, token.name⟩
  else .error (.unauthorized "Malformed token")

/-- `verifyPat` of the gateway: the error body of the identity service is not passed on. -/
def verifyPat (t : ApiTokens) (token : String) (now : Timestamp) :
    Except TokenError GatewayPrincipal :=
  match verify platform t token now with
  | .error _ => .error (.unauthorized "Invalid token")
  | .ok verified =>
      if verified.orgId = "" ∨ verified.tokenId = "" then .error (.unauthorized "Invalid token")
      else .ok
        { userId := verified.tokenId
          orgId := verified.orgId
          role := .developer
          permissions := scopePermissions verified.scopes
          serviceAccount := some verified.name }

/-- `principalFromMembership`, for the active membership of the user. -/
def memberPrincipal (memberships : Table MembershipRow MembershipRow.userId) (orgId userId : Uuid) :
    Except TokenError GatewayPrincipal :=
  match memberships.find? userId with
  | none => .error (.forbidden "No organization membership")
  | some membership =>
      if membership.disabledAt.isSome then .error (.forbidden "No organization membership")
      else .ok
        { userId := userId
          orgId := orgId
          role := membership.role
          permissions := rolePermissions membership.role
          serviceAccount := none }

end Calls

/-! ## What the calls do -/

section Spec

variable {platform : TokenPlatform}

/-- The guard passes precisely the principals with every required permission. -/
theorem requirePermissions_eq_ok {required : List Permission} {principal : GatewayPrincipal} :
    requirePermissions required principal = .ok () ↔ required ⊆ principal.permissions := by
  unfold requirePermissions
  simp only
  split
  · rename_i hnone
    rw [List.isEmpty_iff, List.filter_eq_nil_iff] at hnone
    refine iff_of_true rfl ?_
    intro p hp
    simpa using hnone p hp
  · rename_i hsome
    refine iff_of_false (by simp) ?_
    intro hall
    apply hsome
    rw [List.isEmpty_iff, List.filter_eq_nil_iff]
    intro p hp
    simpa using hall hp

/-- What an accepted issue writes. -/
theorem issue_ok {t t' : ApiTokens} {principal : GatewayPrincipal} {body : IssueTokenBody}
    {draw : TokenDraw} {row : ApiTokenRow}
    (hissue : issue platform t principal body draw = .ok (row, t')) :
    ∃ expiresAt, body.expiry platform = .ok expiresAt ∧
      row = issuedRow platform principal body draw expiresAt ∧ t.create? row = some t' := by
  unfold issue at hissue
  split at hissue
  · simp at hissue
  · split at hissue
    · simp at hissue
    · rename_i expiresAt hexpiry
      split at hissue
      · rename_i created hcreate
        simp only [Except.ok.injEq, Prod.mk.injEq] at hissue
        obtain ⟨rfl, rfl⟩ := hissue
        exact ⟨expiresAt, hexpiry, rfl, hcreate⟩
      · simp at hissue

/-- The principal of a verified token is the row of its hash, live. -/
theorem verifyPat_ok {t : ApiTokens} {presented : String} {now : Timestamp}
    {principal : GatewayPrincipal} (hverify : verifyPat platform t presented now = .ok principal) :
    ∃ row ∈ t, row.expired now = false ∧ principal.userId = row.id ∧
      principal.orgId = row.orgId ∧ principal.permissions = scopePermissions row.scopes ∧
      principal.serviceAccount = some row.name := by
  unfold verifyPat verify at hverify
  split at hverify
  · simp at hverify
  · rename_i verified hrow
    split at hrow
    · split at hrow
      · simp at hrow
      · rename_i row hfind
        split at hrow
        · simp at hrow
        · split at hrow
          · simp at hrow
          · rename_i hlive
            rw [Except.ok.injEq] at hrow
            subst hrow
            split at hverify
            · simp at hverify
            · rw [Except.ok.injEq] at hverify
              subst hverify
              exact ⟨row, Table.find?_mem hfind, by simpa using hlive, rfl, rfl, rfl, rfl⟩
    · simp at hrow

/-- A live row verifies for the text it is the hash of. -/
theorem verifyPat_of_mem {t : ApiTokens} {presented : String} {now : Timestamp} {row : ApiTokenRow}
    (hpre : startsWith presented tokenPrefix = true) (hrow : row ∈ t)
    (hhash : row.tokenHash = platform.sha256Hex presented) (hrevoked : row.revokedAt = none)
    (hlive : row.expired now = false) (horg : row.orgId ≠ "") (hid : row.id ≠ "") :
    verifyPat platform t presented now =
      .ok ⟨row.id, row.orgId, .developer, scopePermissions row.scopes, some row.name⟩ := by
  have hfind : t.byHash.find? (platform.sha256Hex presented) = some row :=
    hhash ▸ Table.find?_of_mem hrow
  unfold verifyPat verify
  simp [hpre, hfind, hrevoked, hlive, horg, hid]

/-- The text of a token starts as every token does. -/
theorem startsWith_secret (draw : TokenDraw) : startsWith draw.secret tokenPrefix = true := by
  simp [startsWith, TokenDraw.secret]

/-- The principal of a member holds what the role holds. -/
theorem memberPrincipal_ok {memberships : Table MembershipRow MembershipRow.userId}
    {orgId userId : Uuid} {principal : GatewayPrincipal}
    (hmember : memberPrincipal memberships orgId userId = .ok principal) :
    principal.orgId = orgId ∧ principal.serviceAccount = none := by
  unfold memberPrincipal at hmember
  split at hmember
  · simp at hmember
  · split at hmember
    · simp at hmember
    · rw [Except.ok.injEq] at hmember
      subst hmember
      exact ⟨rfl, rfl⟩

end Spec

end Identity
end Ctem
