import Mathlib.Data.List.Infix
import Ctem.Identity.OrgService
import Ctem.Policy.Engine

/-!
# Creating an organisation

What `createOrgForSubject` checks, reads, writes and throws.  The statements of its transaction
are in `SignupRace`.

A unique violation is told apart by what the database client says about it: a slug that is taken,
a user who has an organisation already, or a target that leaves open which of the two it was.
-/

namespace Ctem
namespace Identity

open Foundation Contracts Policy

/-- A row of `organizations`. -/
structure OrganizationRow where
  id : OrgId
  name : String
  slug : String
  plan : String := "trial"
deriving DecidableEq

/-- A call with the verified subject, and the ids that are drawn for it. -/
structure CreateOrgInput where
  sub : String
  name : String
  slug : String
  id : OrgId
  policyIds : Fin 3 → Uuid

/-! ## The contracts -/

/-- `/^[a-z0-9-]{3,40}$/`. -/
def isOrgSlug (slug : String) : Bool :=
  decide (3 ≤ slug.toList.length ∧ slug.toList.length ≤ 40) &&
    slug.toList.all fun c => decide ('a' ≤ c ∧ c ≤ 'z') || c.isDigit || decide (c = '-')

/-- `CreateOrgRequest`. -/
structure CreateOrgRequest where
  name : String
  slug : String
deriving DecidableEq

/-- `CreateOrgRequest.safeParse`: the name is trimmed. -/
def CreateOrgRequest.parse (name slug : String) : Option CreateOrgRequest :=
  let trimmed := trimText name
  if 1 ≤ utf16Length trimmed ∧ utf16Length trimmed ≤ 80 ∧ isOrgSlug slug = true then
    some ⟨trimmed, slug⟩
  else none

def orgPlans : List String := ["trial", "team", "enterprise"]

/-- `CreateOrgResponse.parse`.  The schema of an `OrgId` is that of a `UserId`. -/
def parseCreateOrgResponse (platform : IdentityPlatform) (org : OrganizationRow) :
    Option OrganizationRow :=
  if platform.isUserId org.id = true ∧ org.name ≠ "" ∧ isOrgSlug org.slug = true ∧
      org.plan ∈ orgPlans then
    some org
  else none

/-! ## The rows -/

/-- The policies of a new organisation. -/
def defaultPolicies (orgId : OrgId) (ids : Fin 3 → Uuid) : List PolicyRow :=
  [{ id := ids 0
     orgId := orgId
     name := "Internet-facing critical"
     priority := 10
     condition := { severityAtLeast := some .critical, exposure := some ["internet_facing"] }
     actions := [.notify, .ticket, .blockDeploy]
     slaHours := some 24 },
   { id := ids 1
     orgId := orgId
     name := "Known exploited vulnerabilities"
     priority := 20
     condition := { kevOnly := some true }
     actions := [.notify, .ticket]
     slaHours := some 168 },
   { id := ids 2
     orgId := orgId
     name := "High severity with a fix"
     priority := 50
     condition := { severityAtLeast := some .high, requireFixAvailable := some true }
     actions := [.ticket, .failBuild]
     slaHours := some 336 }]

theorem orgId_of_mem_defaultPolicies {orgId : OrgId} {ids : Fin 3 → Uuid} {p : PolicyRow}
    (h : p ∈ defaultPolicies orgId ids) : p.orgId = orgId := by
  unfold defaultPolicies at h
  simp only [List.mem_cons, List.not_mem_nil, or_false] at h
  rcases h with rfl | rfl | rfl
  · rfl
  · rfl
  · rfl

/-- The row of the organisation that a call creates. -/
def organizationRow (input : CreateOrgInput) (request : CreateOrgRequest) : OrganizationRow where
  id := input.id
  name := request.name
  slug := request.slug

/-! ## Unique violations -/

/-- `SIGNUP_MEMBERSHIP_INDEX`. -/
def signupMembershipIndex : String := "memberships_userId_signup_active_key"

def slugTaken : String := "Organization slug is already taken"

def alreadyInOrg : String := "User already belongs to an organization"

/-- The `meta` of a unique violation; of a target and a constraint their texts. -/
structure UniqueViolationMeta where
  modelName : Option String := none
  target : List String := []
  constraint : List String := []

/-- A name is the token, or has it among its words. -/
def namesToken (names : List String) (token : String) : Bool :=
  names.any fun name =>
    decide (name = token) ||
      decide (token.toList ∈ name.toList.splitOnP fun c => !c.isAlphanum)

def isMembershipModel (violation : UniqueViolationMeta) : Bool :=
  violation.modelName.any fun model => decide (model = "Membership" ∨ model = "memberships")

def namesExplicitSignup (violation : UniqueViolationMeta) (names : List String) : Bool :=
  (names.any fun name => decide (signupMembershipIndex.toList <:+: name.toList)) ||
    names.contains "memberships.userId" ||
      isMembershipModel violation && decide (violation.target = ["userId"])

/-- The target is missing, or has no text. -/
def membershipTargetUnresolvable (violation : UniqueViolationMeta) : Bool :=
  isMembershipModel violation && violation.target.isEmpty

inductive CreateOrgUniqueMapping where
  | conflict (message : String)
  | recheckActiveSignup
deriving DecidableEq

def mapCreateOrgUniqueViolation (violation : UniqueViolationMeta) : CreateOrgUniqueMapping :=
  let names := violation.target ++ violation.constraint
  if namesToken names "slug" then .conflict slugTaken
  else if namesExplicitSignup violation names then .conflict alreadyInOrg
  else if membershipTargetUnresolvable violation then .recheckActiveSignup
  else .conflict "Conflict"

/-- `active` is what `hasActiveSignupMembership` reads. -/
def resolveCreateOrgUniqueViolation (violation : UniqueViolationMeta) (active : Bool) : OrgError :=
  match mapCreateOrgUniqueViolation violation with
  | .conflict message => .conflict message
  | .recheckActiveSignup => .conflict (if active then alreadyInOrg else "Conflict")

/-- What the transaction throws. -/
inductive CreateOrgError where
  | http (error : OrgError)
  | unique (violation : UniqueViolationMeta)
  | other (message : String)

/-- The handler of the call: a unique violation becomes a conflict. -/
def catchCreateOrg (error : CreateOrgError) (active : Bool) : CreateOrgError :=
  match error with
  | .unique violation => .http (resolveCreateOrgUniqueViolation violation active)
  | error => error

/-- What the client says of a column of the new organisation. -/
def organizationViolation (column : String) : UniqueViolationMeta where
  modelName := some "Organization"
  target := [column]

/-- Every unique violation becomes a conflict. -/
theorem catchCreateOrg_ne_unique (error : CreateOrgError) (active : Bool)
    (violation : UniqueViolationMeta) : catchCreateOrg error active ≠ .unique violation := by
  cases error with
  | http e => exact CreateOrgError.noConfusion
  | unique v => exact CreateOrgError.noConfusion
  | other message => exact CreateOrgError.noConfusion

end Identity
end Ctem
