import Ctem.Foundation.JsCollections
import Ctem.Foundation.Runs
import Ctem.Foundation.Url
import Ctem.Identity.PrincipalHeader

/-!
# From a token to a service

The gateway verifies the token of a request and signs a principal; the services trust whoever
brings a signed principal, when and as often as it is brought.

* `GatewayAuthGuard.canActivate` and `InternalAuthGuard.canActivate` are the two guards.  What the
  identity service answers is part of the request.
* A run is any number of requests at both, in any order.  The only thing nobody can do is sign:
  a signature that fits a header is of a header the gateway has signed.
* `served_principal`: whoever a service acts for is a member or a token that the gateway has
  verified before, with the organisation of the token and no permission that its role or its
  scopes do not give; and a principal the gateway has signed passes wherever its permissions do.
-/

namespace Ctem
namespace Identity

open Foundation

/-! ## The gateway -/

/-- What an endpoint of the identity service answers; a body that does not parse is `noBody`. -/
inductive IdentityAnswer (α : Type) where
  | unreachable
  | refused (status : Nat)
  | noBody
  | body (answer : α)

/-- `ResolveJwtResponse`. -/
structure ResolvedMember where
  userId : String
  orgId : String
  role : Role

/-- `ResolveMembershipsResponse`. -/
structure ResolvedMemberships where
  userId : String
  memberships : List (String × Role)

/-- What `internal/tokens/verify` answers. -/
structure PatRecord where
  orgId : Option String := none
  tokenId : Option String := none
  scopes : Option (List String) := none
  name : Option String := none

/-- What each endpoint would answer to this request. -/
structure IdentityAnswers where
  pat : IdentityAnswer PatRecord
  member : IdentityAnswer ResolvedMember
  memberships : IdentityAnswer ResolvedMemberships

/-- `VerifiedToken`; an absent `org_id` may also be `null`. -/
structure TokenClaims where
  sub : String
  orgId : Option Json := none

/-- What the gateway reads of a request, with what its route requires. -/
structure GatewayCall where
  authorization : Option String
  method : Option String := none
  path : Option String := none
  originalUrl : Option String := none
  url : Option String := none
  traceId : String
  required : List Permission := []
  isPublic : Bool := false

/-- What the guard throws. -/
inductive GuardError where
  | unauthorized (message : String)
  | forbidden (message : String)
  | conflict (message : String)
deriving DecidableEq

/-- What a request goes on with: nothing, the verified subject, or a principal. -/
inductive GatewayPass where
  | anyone
  | signup (sub : String)
  | principal (p : SignedPrincipal)

/-- What the runtime provides. -/
structure TrustPlatform where
  hmac : List UInt8 → Digest
  /-- `JwtVerifier.verify`; `none` is where it throws. -/
  verifyJwt : String → Option TokenClaims
  /-- `OrgId.safeParse(text).success`. -/
  isOrgId : String → Bool

def isCreateOrgPath (value : String) : Bool :=
  let path := dropTrailingSlashes (String.ofList ((splitOn '?' value.toList).headD []))
  decide (path = "/v1/orgs")

def isCreateOrgRequest (call : GatewayCall) : Bool :=
  decide ((call.method.getD "").map Char.toUpper = "POST") &&
    [call.path, call.originalUrl, call.url].any fun value =>
      (nonEmpty value).any isCreateOrgPath

def principalFromMembership (call : GatewayCall) (userId orgId : String) (role : Role) :
    SignedPrincipal where
  userId := userId
  orgId := orgId
  role := role
  permissions := rolePermissions role
  serviceAccount := none
  traceId := call.traceId

/-- `verifyPat`. -/
def patPrincipal (call : GatewayCall) : IdentityAnswer PatRecord → Except GuardError SignedPrincipal
  | .unreachable => .error (.unauthorized "Token verification failed")
  | .refused _ => .error (.unauthorized "Invalid token")
  | .noBody => .error (.unauthorized "Invalid token")
  | .body record =>
      match nonEmpty record.orgId, nonEmpty record.tokenId with
      | some orgId, some tokenId => .ok
          { userId := tokenId
            orgId := orgId
            role := .developer
            permissions := scopePermissions (record.scopes.getD [])
            serviceAccount := record.name
            traceId := call.traceId }
      | _, _ => .error (.unauthorized "Invalid token")

/-- What `resolveMembership` and `resolveActiveMemberships` make of an answer. -/
def resolved {α : Type} : IdentityAnswer α → Except GuardError α
  | .unreachable => .error (.unauthorized "Token verification failed")
  | .refused status =>
      if status = 403 then .error (.forbidden "No organization membership")
      else .error (.unauthorized "Token verification failed")
  | .noBody => .error (.unauthorized "Token verification failed")
  | .body answer => .ok answer

section Guard

variable (platform : TrustPlatform)

/-- `resolveMembership` of the gateway, for the `org_id` of the token. -/
def gatewayResolveMembership (orgId : Json) (answer : IdentityAnswer ResolvedMember) :
    Except GuardError ResolvedMember :=
  match orgId.str?.filter platform.isOrgId with
  | none => .error (.forbidden "No organization selected")
  | some orgId => do
      let member ← resolved answer
      if member.orgId ≠ orgId then .error (.unauthorized "Token verification failed")
      else .ok member

/-- `verifyJwt`. -/
def jwtPass (call : GatewayCall) (answers : IdentityAnswers) (token : String) :
    Except GuardError GatewayPass :=
  match platform.verifyJwt token with
  | none => .error (.unauthorized "Invalid token")
  | some claims =>
      match claims.orgId.filter (fun orgId => !orgId matches .null) with
      | some orgId => do
          let member ← gatewayResolveMembership platform orgId answers.member
          .ok (.principal (principalFromMembership call member.userId member.orgId member.role))
      | none => do
          let resolved ← resolved answers.memberships
          match resolved.memberships with
          | [] =>
              if isCreateOrgRequest call then .ok (.signup claims.sub)
              else .error (.forbidden "No organization")
          | [(orgId, role)] =>
              .ok (.principal (principalFromMembership call resolved.userId orgId role))
          | _ => .error (.conflict "multiple organizations")

/-- `Missing permission(s)`. -/
def missingPermissions (required : List Permission) (p : SignedPrincipal) : List Permission :=
  required.filter fun permission => decide (permission ∉ p.permissions)

def forbidMissing (missing : List Permission) : GuardError :=
  .forbidden ("Missing permission(s): " ++ String.intercalate ", " (missing.map Permission.name))

/-- `GatewayAuthGuard.canActivate`. -/
def gatewayActivate (call : GatewayCall) (answers : IdentityAnswers) :
    Except GuardError GatewayPass :=
  if call.isPublic then .ok .anyone
  else
    match call.authorization.filter fun header => startsWith header "Bearer " with
    | none => .error (.unauthorized "Missing bearer token")
    | some header => do
        let token := String.ofList (header.toList.drop 7)
        let pass ←
          if startsWith token tokenPrefix then
            if isCreateOrgRequest call then .error (.unauthorized "Invalid token")
            else (patPrincipal call answers.pat).map GatewayPass.principal
          else jwtPass platform call answers token
        match pass with
        | .principal p =>
            let missing := missingPermissions call.required p
            if missing.isEmpty then .ok (.principal p) else .error (forbidMissing missing)
        | pass => .ok pass

/-! ## The services -/

/-- What a service reads of a request, with what its route requires. -/
structure ServiceCall where
  value : Option String
  signature : Option String
  required : List Permission := []
  isPublic : Bool := false

/-- `InternalAuthGuard.canActivate`; a public route has no principal. -/
def serviceActivate (call : ServiceCall) : Except GuardError (Option SignedPrincipal) :=
  if call.isPublic then .ok none
  else
    match nonEmpty call.value, nonEmpty call.signature with
    | some value, some signature =>
        match decodePrincipal platform.hmac value signature with
        | none => .error (.unauthorized "Invalid principal")
        | some p =>
            let missing := missingPermissions call.required p
            if missing.isEmpty then .ok (some p) else .error (forbidMissing missing)
    | _, _ => .error (.unauthorized "Missing principal")

/-! ## Runs -/

/-- The principals that were signed; a service keeps nothing of a request. -/
structure TrustWorld where
  minted : List SignedPrincipal := []

inductive TrustEvent where
  | gateway (call : GatewayCall) (answers : IdentityAnswers)
  | service (call : ServiceCall)

def TrustWorld.step (w : TrustWorld) : TrustEvent → TrustWorld
  | .gateway call answers =>
      match gatewayActivate platform call answers with
      | .ok (.principal p) => { minted := w.minted ++ [p] }
      | _ => w
  | .service _ => w

/-- Nobody but the gateway signs. -/
def Unforged (w : TrustWorld) : TrustEvent → Prop
  | .gateway _ _ => True
  | .service call => ∀ value signature, call.value = some value → call.signature = some signature →
      signature = sign platform.hmac value →
      ∃ p ∈ w.minted, (encodePrincipal platform.hmac p).value = value

def trustSystem : System TrustWorld TrustEvent where
  step := TrustWorld.step platform
  allowed := Unforged platform

/-! ## What the gateway signs -/

/-- A member whose token the gateway has verified: of the organisation the token names, or of the
only one there is. -/
structure MemberGrounds (call : GatewayCall) (answers : IdentityAnswers) (p : SignedPrincipal) :
    Prop where
  token : ∃ token claims, call.authorization = some ("Bearer " ++ token) ∧
    startsWith token tokenPrefix = false ∧ platform.verifyJwt token = some claims ∧
    ((claims.orgId = some (.str p.orgId) ∧ platform.isOrgId p.orgId = true ∧
        answers.member = .body ⟨p.userId, p.orgId, p.role⟩) ∨
      ((claims.orgId = none ∨ claims.orgId = some .null) ∧
        answers.memberships = .body ⟨p.userId, [(p.orgId, p.role)]⟩))
  permissions : p.permissions = rolePermissions p.role
  serviceAccount : p.serviceAccount = none

/-- A token of a machine, with what the identity service has stored for it. -/
structure PatGrounds (call : GatewayCall) (answers : IdentityAnswers) (p : SignedPrincipal) :
    Prop where
  token : ∃ token, call.authorization = some ("Bearer " ++ token) ∧
    startsWith token tokenPrefix = true
  noSignup : isCreateOrgRequest call = false
  record : ∃ record, answers.pat = .body record ∧ record.orgId = some p.orgId ∧ p.orgId ≠ "" ∧
    record.tokenId = some p.userId ∧ p.userId ≠ "" ∧
    p.permissions = scopePermissions (record.scopes.getD []) ∧ p.serviceAccount = record.name

variable {platform}

theorem resolved_ok {α : Type} {answer : IdentityAnswer α} {a : α} (h : resolved answer = .ok a) :
    answer = .body a := by
  cases answer with
  | unreachable => cases h
  | refused status =>
      simp only [resolved] at h
      split at h <;> cases h
  | noBody => cases h
  | body a' =>
      cases h
      rfl

theorem gatewayResolveMembership_ok {orgId : Json} {answer : IdentityAnswer ResolvedMember}
    {member : ResolvedMember} (h : gatewayResolveMembership platform orgId answer = .ok member) :
    orgId = .str member.orgId ∧ platform.isOrgId member.orgId = true ∧ answer = .body member := by
  unfold gatewayResolveMembership at h
  cases horg : orgId.str?.filter platform.isOrgId with
  | none =>
      rw [horg] at h
      cases h
  | some text =>
      rw [horg] at h
      obtain ⟨htext, hvalid⟩ := Option.filter_eq_some_iff.mp horg
      obtain ⟨found, hanswer, hfound⟩ := bind_eq_ok.mp h
      obtain ⟨hsame, hfound⟩ := eq_ok_of_guard hfound
      cases hfound
      rw [Decidable.not_not] at hsame
      cases orgId with
      | str s =>
          cases htext
          exact ⟨by rw [hsame], hsame ▸ hvalid, resolved_ok hanswer⟩
      | _ => cases htext

theorem patPrincipal_ok {call : GatewayCall} {answer : IdentityAnswer PatRecord}
    {p : SignedPrincipal} (h : patPrincipal call answer = .ok p) :
    ∃ record, answer = .body record ∧ record.orgId = some p.orgId ∧ p.orgId ≠ "" ∧
      record.tokenId = some p.userId ∧ p.userId ≠ "" ∧
      p.permissions = scopePermissions (record.scopes.getD []) ∧
      p.serviceAccount = record.name := by
  cases answer with
  | unreachable => cases h
  | refused status => cases h
  | noBody => cases h
  | body record =>
      unfold patPrincipal at h
      simp only at h
      split at h
      · rename_i orgId tokenId horg htoken
        cases h
        obtain ⟨horg, horgGiven⟩ := nonEmpty_eq_some.mp horg
        obtain ⟨htoken, htokenGiven⟩ := nonEmpty_eq_some.mp htoken
        exact ⟨record, rfl, horg, horgGiven, htoken, htokenGiven, rfl, rfl⟩
      · cases h

theorem not_null_filter {orgId : Option Json} {found : Json}
    (h : orgId.filter (fun orgId => !orgId matches .null) = some found) : orgId = some found :=
  (Option.filter_eq_some_iff.mp h).1

theorem null_of_filter {orgId : Option Json}
    (h : orgId.filter (fun orgId => !orgId matches .null) = none) :
    orgId = none ∨ orgId = some .null := by
  cases orgId with
  | none => exact .inl rfl
  | some json =>
      cases json with
      | null => exact .inr rfl
      | _ => cases h

/-- The end of the member's way through the gateway. -/
theorem jwtPass_principal {call : GatewayCall} {answers : IdentityAnswers} {token : String}
    {p : SignedPrincipal} (h : jwtPass platform call answers token = .ok (.principal p)) :
    (∃ claims, platform.verifyJwt token = some claims ∧
      ((claims.orgId = some (.str p.orgId) ∧ platform.isOrgId p.orgId = true ∧
          answers.member = .body ⟨p.userId, p.orgId, p.role⟩) ∨
        ((claims.orgId = none ∨ claims.orgId = some .null) ∧
          answers.memberships = .body ⟨p.userId, [(p.orgId, p.role)]⟩))) ∧
      p.permissions = rolePermissions p.role ∧ p.serviceAccount = none := by
  unfold jwtPass at h
  cases hclaims : platform.verifyJwt token with
  | none =>
      rw [hclaims] at h
      cases h
  | some claims =>
      rw [hclaims] at h
      simp only at h
      split at h
      · rename_i orgId horg
        obtain ⟨member, hmember, hprincipal⟩ := bind_eq_ok.mp h
        cases hprincipal
        obtain ⟨horgId, hvalid, hanswer⟩ := gatewayResolveMembership_ok hmember
        have hclaim := not_null_filter horg
        rw [horgId] at hclaim
        exact ⟨⟨claims, rfl, .inl ⟨hclaim, hvalid, hanswer⟩⟩, rfl, rfl⟩
      · rename_i horg
        obtain ⟨⟨userId, memberships⟩, hmemberships, hpass⟩ := bind_eq_ok.mp h
        simp only at hpass
        split at hpass
        · split at hpass <;> cases hpass
        · cases hpass
          exact ⟨⟨claims, rfl, .inr ⟨null_of_filter horg, resolved_ok hmemberships⟩⟩, rfl, rfl⟩
        · cases hpass

theorem bearer_eq {header : String} (h : startsWith header "Bearer " = true) :
    header = "Bearer " ++ String.ofList (header.toList.drop 7) := by
  have hprefix := List.isPrefixOf_iff_prefix.mp h
  obtain ⟨rest, hrest⟩ := hprefix
  apply String.toList_inj.mp
  rw [String.toList_append, String.toList_ofList, String.toList_ofList, ← hrest]
  rfl

theorem required_of_noMissing {required : List Permission} {p : SignedPrincipal}
    (h : (missingPermissions required p).isEmpty = true) : required ⊆ p.permissions := by
  intro permission hmem
  by_contra hnot
  rw [List.isEmpty_iff] at h
  have hmissing : permission ∈ missingPermissions required p :=
    List.mem_filter.mpr ⟨hmem, decide_eq_true hnot⟩
  rw [h] at hmissing
  cases hmissing

/-- **Whom the gateway signs for.** -/
theorem gatewayActivate_principal {call : GatewayCall} {answers : IdentityAnswers}
    {p : SignedPrincipal} (h : gatewayActivate platform call answers = .ok (.principal p)) :
    (MemberGrounds platform call answers p ∨ PatGrounds call answers p) ∧
      call.required ⊆ p.permissions := by
  unfold gatewayActivate at h
  split at h
  · cases h
  split at h
  · cases h
  · rename_i header hheader
    obtain ⟨hauthorization, hbearer⟩ := Option.filter_eq_some_iff.mp hheader
    rw [bearer_eq hbearer] at hauthorization
    generalize String.ofList (header.toList.drop 7) = token at h hauthorization
    -- What is left once the token is resolved is the check of the permissions.
    have hend : ∀ pass : GatewayPass, (match pass with
        | .principal p =>
            if (missingPermissions call.required p).isEmpty then
              (.ok (.principal p) : Except GuardError GatewayPass)
            else .error (forbidMissing (missingPermissions call.required p))
        | pass => .ok pass) = .ok (.principal p) →
        pass = .principal p ∧ call.required ⊆ p.permissions := by
      intro pass hpass
      cases pass with
      | anyone => cases hpass
      | signup sub => cases hpass
      | principal q =>
          simp only at hpass
          split at hpass
          · rename_i hmissing
            cases hpass
            exact ⟨rfl, required_of_noMissing hmissing⟩
          · cases hpass
    simp only at h
    split at h
    · rename_i hpat
      split at h
      · cases h
      · rename_i hsignup
        obtain ⟨pass, hmap, hpermitted⟩ := bind_eq_ok.mp h
        obtain ⟨rfl, hrequired⟩ := hend pass hpermitted
        cases hrecord : patPrincipal call answers.pat with
        | error e =>
            rw [hrecord] at hmap
            cases hmap
        | ok q =>
            rw [hrecord] at hmap
            cases hmap
            exact ⟨.inr ⟨⟨token, hauthorization, hpat⟩, Bool.eq_false_iff.mpr hsignup,
              patPrincipal_ok hrecord⟩, hrequired⟩
    · rename_i hpat
      obtain ⟨pass, hjwt, hpermitted⟩ := bind_eq_ok.mp h
      obtain ⟨rfl, hrequired⟩ := hend pass hpermitted
      obtain ⟨⟨claims, hclaims, horg⟩, hpermissions, haccount⟩ := jwtPass_principal hjwt
      exact ⟨.inl ⟨⟨token, claims, hauthorization, Bool.eq_false_iff.mpr hpat, hclaims, horg⟩,
        hpermissions, haccount⟩, hrequired⟩

/-! ## Whom a service acts for -/

theorem serviceActivate_principal {call : ServiceCall} {p : SignedPrincipal}
    (h : serviceActivate platform call = .ok (some p)) :
    ∃ value signature, call.value = some value ∧ call.signature = some signature ∧
      decodePrincipal platform.hmac value signature = some p ∧ call.required ⊆ p.permissions := by
  unfold serviceActivate at h
  split at h
  · cases h
  split at h
  · rename_i value signature hvalue hsignature
    obtain ⟨hvalue, -⟩ := nonEmpty_eq_some.mp hvalue
    obtain ⟨hsignature, -⟩ := nonEmpty_eq_some.mp hsignature
    cases hdecode : decodePrincipal platform.hmac value signature with
    | none =>
        simp only [hdecode] at h
        cases h
    | some q =>
        simp only [hdecode] at h
        split at h
        · rename_i hmissing
          cases h
          exact ⟨value, signature, hvalue, hsignature, hdecode, required_of_noMissing hmissing⟩
        · cases h
  · cases h

theorem serviceActivate_headers (p : SignedPrincipal) (required : List Permission) :
    serviceActivate platform
        { value := some (encodePrincipal platform.hmac p).value
          signature := some (encodePrincipal platform.hmac p).signature
          required := required } =
      .ok (some p) ↔ required ⊆ p.permissions := by
  have hvalue : nonEmpty (some (encodePrincipal platform.hmac p).value) =
      some (encodePrincipal platform.hmac p).value :=
    nonEmpty_eq_some.mpr ⟨rfl, value_ne_empty platform.hmac p⟩
  have hsignature : nonEmpty (some (encodePrincipal platform.hmac p).signature) =
      some (encodePrincipal platform.hmac p).signature :=
    nonEmpty_eq_some.mpr ⟨rfl, sign_ne_empty platform.hmac _⟩
  constructor
  · intro h
    obtain ⟨value, signature, hv, hs, hdecode, hrequired⟩ := serviceActivate_principal h
    exact hrequired
  · intro hrequired
    have hmissing : (missingPermissions required p).isEmpty = true := by
      rw [List.isEmpty_iff, missingPermissions, List.filter_eq_nil_iff]
      intro permission hmem
      simpa using hrequired hmem
    unfold serviceActivate
    simp only [hvalue, hsignature, decodePrincipal_encodePrincipal, hmissing, if_true]
    rfl

/-- Every principal that was signed has its grounds in a request of the run. -/
def Grounded (platform : TrustPlatform) (events : List TrustEvent) (w : TrustWorld) : Prop :=
  ∀ p ∈ w.minted, ∃ call answers, TrustEvent.gateway call answers ∈ events ∧
    (MemberGrounds platform call answers p ∨ PatGrounds call answers p)

/-- A header that fits its signature is read as a principal that was signed. -/
theorem minted_of_decode {w : TrustWorld} {call : ServiceCall} {p : SignedPrincipal}
    (hunforged : Unforged platform w (.service call))
    (h : serviceActivate platform call = .ok (some p)) : p ∈ w.minted := by
  obtain ⟨value, signature, hvalue, hsignature, hdecode, -⟩ := serviceActivate_principal h
  unfold decodePrincipal at hdecode
  split at hdecode
  · rename_i hsigned
    obtain ⟨q, hq, hvalue'⟩ := hunforged value signature hvalue hsignature hsigned
    rw [← hvalue', read_encodePrincipal] at hdecode
    cases hdecode
    exact hq
  · cases hdecode

theorem grounded_step {events : List TrustEvent} {w : TrustWorld}
    (h : Grounded platform events w) (event : TrustEvent) :
    Grounded platform (events ++ [event]) (w.step platform event) := by
  have hbefore : Grounded platform (events ++ [event]) w := by
    intro p hp
    obtain ⟨call, answers, hmem, hgrounds⟩ := h p hp
    exact ⟨call, answers, List.mem_append_left _ hmem, hgrounds⟩
  cases event with
  | gateway call answers =>
      unfold TrustWorld.step
      simp only
      split
      · rename_i p hpass
        intro q hq
        rcases List.mem_append.mp hq with hq | hq
        · exact hbefore q hq
        · rw [List.mem_singleton.mp hq]
          exact ⟨call, answers, List.mem_append_right _ List.mem_cons_self,
            (gatewayActivate_principal hpass).1⟩
      · exact hbefore
  | service call => exact hbefore

theorem grounded_run (events : List TrustEvent) :
    Grounded platform events ((trustSystem platform).run {} events) := by
  have hfrom : ∀ (events before : List TrustEvent) (w : TrustWorld), Grounded platform before w →
      Grounded platform (before ++ events) ((trustSystem platform).run w events) := by
    intro events
    induction events with
    | nil =>
        intro before w h
        rw [List.append_nil]
        exact h
    | cons event events ih =>
        intro before w h
        have hrun := ih (before ++ [event]) _ (grounded_step h event)
        rw [List.append_assoc, List.singleton_append] at hrun
        exact hrun
  exact hfrom events [] {} fun p hp => (List.not_mem_nil hp).elim

/-- **Whom a service acts for**, on every run in which nobody but the gateway signs: for a
principal that the gateway has signed before, on the grounds of a verified token, and only with
the permissions the route requires; and whatever the gateway signs passes at every route whose
permissions it has. -/
theorem served_principal (platform : TrustPlatform) (events : List TrustEvent) :
    ((trustSystem platform).Legal {} events →
      ∀ before call later p, events = before ++ .service call :: later →
        serviceActivate platform call = .ok (some p) →
        call.required ⊆ p.permissions ∧
        ∃ request answers, TrustEvent.gateway request answers ∈ before ∧
          (MemberGrounds platform request answers p ∨ PatGrounds request answers p)) ∧
    ∀ request answers p, gatewayActivate platform request answers = .ok (.principal p) →
      request.required ⊆ p.permissions ∧ ∀ required,
        serviceActivate platform
            { value := some (encodePrincipal platform.hmac p).value
              signature := some (encodePrincipal platform.hmac p).signature
              required := required } = .ok (some p) ↔
          required ⊆ p.permissions := by
  constructor
  · rintro hlegal before call later p rfl hserved
    obtain ⟨-, -, -, -, -, hrequired⟩ := serviceActivate_principal hserved
    have hunforged := ((trustSystem platform).allSteps_append.mp hlegal).2.1
    exact ⟨hrequired, grounded_run before p (minted_of_decode hunforged hserved)⟩
  · intro request answers p hpass
    exact ⟨(gatewayActivate_principal hpass).2, fun required => serviceActivate_headers p required⟩

end Guard

end Identity
end Ctem
