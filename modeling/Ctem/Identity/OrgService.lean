import Ctem.Identity.OrgTables

/-!
# The organisation service

`OrgService` of the identity service.  Each call reads, checks and then writes in one
`withOrg` transaction; the functions here return the write, and an error where the
call throws, which rolls the transaction back.

* `assertOwnerRoleChange` and `assertNotLastActiveOwner` are the two guards of
  ownership.
* `acceptPendingInvite` is the only way to a membership: a login whose email matches a
  pending invite.
* `upsertUserFromClaims` runs before the transaction of a login and stays.
-/

namespace Ctem
namespace Identity

open Foundation Contracts

/-- What a call throws. -/
inductive OrgError where
  | badRequest (message : String)
  | forbidden (message : String)
  | notFound (message : String)
  | conflict (message : String)
deriving DecidableEq

/-- What the runtime and the contracts provide. -/
structure IdentityPlatform where
  /-- `UserId.safeParse(text).success`. -/
  isUserId : String → Bool
  trim : String → String
  toLowerCase : String → String
  /-- `createHash('sha256').update(token).digest('hex')`. -/
  sha256Hex : String → String

/-- The member who makes a call. -/
structure Principal where
  userId : String
  role : Role

/-- `INVITE_TTL_MS`. -/
def inviteTtlMs : Nat := 14 * 24 * 60 * 60 * 1000

/-- `INVITE_PREFIX`. -/
def invitePrefix : String := "ctem_inv_"

/-! ## Guards -/

def requireUserId (platform : IdentityPlatform) (userId : String) : Except OrgError Unit :=
  if platform.isUserId userId then .ok () else .error (.badRequest "Invalid user id")

def requireMembership (found : Option MembershipRow) : Except OrgError MembershipRow :=
  match found with
  | some membership => .ok membership
  | none => .error (.notFound "Member not found")

def assertOwnerRoleChange (actorRole fromRole toRole : Role) : Except OrgError Unit :=
  if toRole = .owner ∧ actorRole ≠ .owner then
    .error (.forbidden "Only an owner can grant ownership")
  else if fromRole = .owner ∧ toRole ≠ .owner ∧ actorRole ≠ .owner then
    .error (.forbidden "Only an owner can revoke ownership")
  else .ok ()

/-- `owners` is the count of active owners. -/
def assertNotLastActiveOwner (owners : Nat) : Except OrgError Unit :=
  if owners ≤ 1 then .error (.forbidden "Cannot modify the last owner") else .ok ()

/-! ## The transactions of the calls -/

section Calls

variable (platform : IdentityPlatform) (t : OrgTables)

def setRole (actor : Principal) (userId : String) (role : Role) : Except OrgError MemberWrite :=
  match requireUserId platform userId with
  | .error e => .error e
  | .ok () =>
      match requireMembership (t.memberships.find? userId) with
      | .error e => .error e
      | .ok membership =>
          match assertOwnerRoleChange actor.role membership.role role with
          | .error e => .error e
          | .ok () =>
              if membership.role = .owner ∧ role ≠ .owner then
                match assertNotLastActiveOwner t.countOwners with
                | .error e => .error e
                | .ok () => .ok (.setRole userId role)
              else .ok (.setRole userId role)

/-- `disable`: a membership that is disabled already is returned as it is. -/
def disable (actor : Principal) (userId : String) (now : Timestamp) :
    Except OrgError (Option MemberWrite) :=
  match requireUserId platform userId with
  | .error e => .error e
  | .ok () =>
      match requireMembership (t.memberships.find? userId) with
      | .error e => .error e
      | .ok membership =>
          if membership.disabledAt.isSome then .ok none
          else if membership.role = .owner then
            if actor.role ≠ .owner then .error (.forbidden "Only an owner can revoke ownership")
            else
              match assertNotLastActiveOwner t.countOwners with
              | .error e => .error e
              | .ok () => .ok (some (.disable userId now))
          else .ok (some (.disable userId now))

/-- The body of an invite, and what is drawn for it: the random part of the token and
the id of a new row. -/
structure InviteRequest where
  email : String
  role : Role
  token : String
  id : Uuid

/-- The checks of `invite` before its transaction. -/
def checkInvite (actor : Principal) (role : Role) : Except OrgError Unit :=
  if platform.isUserId actor.userId = false then
    .error (.badRequest "Only a human member can invite")
  else if role = .owner ∧ actor.role ≠ .owner then
    .error (.forbidden "Only an owner can grant ownership")
  else .ok ()

/-- `input.email.trim().toLowerCase()`. -/
def normalizedEmail (email : String) : String :=
  platform.toLowerCase (platform.trim email)

/-- The columns of the invite. -/
def inviteData (actor : Principal) (input : InviteRequest) (now : Timestamp) : InviteData where
  email := normalizedEmail platform input.email
  role := input.role
  tokenHash := platform.sha256Hex (invitePrefix ++ input.token)
  invitedBy := actor.userId
  expiresAt := now + inviteTtlMs

/-- The write of an invite: the pending one is overwritten. -/
def inviteWrite (pending : Option InviteRow) (input : InviteRequest) (data : InviteData)
    (now : Timestamp) : InviteWrite :=
  match pending with
  | some p => .update p.id data
  | none => .create input.id data now

/-- The membership of the user who has the email is active. -/
def alreadyMember (existing : Option MembershipRow) : Bool :=
  match existing with
  | some m => m.disabledAt.isNone
  | none => false

/-- The user who has the email. -/
def userByEmail (users : Table UserRow UserRow.id) (email : String) : Option UserRow :=
  users.rows.find? fun u => decide (u.email = email)

def invite (users : Table UserRow UserRow.id) (actor : Principal) (input : InviteRequest)
    (now : Timestamp) : Except OrgError InviteWrite :=
  match checkInvite platform actor input.role with
  | .error e => .error e
  | .ok () =>
      let data := inviteData platform actor input now
      let existing := (userByEmail users data.email).bind fun u => t.memberships.find? u.id
      if alreadyMember existing then
        .error (.conflict "User is already a member of this organization")
      else .ok (inviteWrite (t.pendingInvite data.email) input data now)

/-- What an accepted invite makes of the membership. -/
def acceptedMembership (existing : Option MembershipRow) (userId : Uuid) (role : Role) :
    MemberWrite :=
  match existing with
  | some _ => .restore userId role
  | none => .create userId role

/-- `acceptPendingInvite`: the writes of an accepted invite, if there is one. -/
def acceptPendingInvite (userId : Uuid) (email : String) (existing : Option MembershipRow)
    (now : Timestamp) : Option (InviteRow × InviteWrite × MemberWrite) :=
  (t.acceptableInvite (platform.toLowerCase email) now).map fun invite =>
    (invite, .accept invite.id now, acceptedMembership existing userId invite.role)

/-- The transaction of `resolveJwt`: the writes of the login, if it accepts an invite. -/
def resolveMembership (userId : Uuid) (email : String) (now : Timestamp) :
    Except OrgError (Option (InviteRow × InviteWrite × MemberWrite)) :=
  let membership := t.memberships.find? userId
  if alreadyMember membership then .ok none
  else
    match acceptPendingInvite platform t userId email membership now with
    | none => .error (.forbidden "No organization membership")
    | some writes => .ok (some writes)

end Calls

/-! ## Logins -/

/-- The verified claims of a token. -/
structure Claims where
  sub : String
  email : Option String := none
  name : Option String := none

/-- The name of a new user without one: the part of the email before the `@`. -/
def nameOfEmail (email : String) : String :=
  String.ofList ((splitOn '@' email.toList).headD [])

/-- `upsertUserFromClaims`: the users and the one who logs in. -/
def upsertUserFromClaims (platform : IdentityPlatform) (users : Table UserRow UserRow.id)
    (input : Claims) (newId : Uuid) : Except OrgError (Table UserRow UserRow.id × UserRow) :=
  let email := nonEmpty (input.email.map (normalizedEmail platform))
  let name := nonEmpty (input.name.map platform.trim)
  match users.rows.find? fun u => decide (u.idpSubject = input.sub) with
  | some existing =>
      let newEmail := email.filter fun e => (userByEmail users e).isNone
      let updated :=
        { existing with
          email := newEmail.getD existing.email
          name := name.getD existing.name }
      .ok (users.modify existing.id
        (fun u => { u with email := updated.email, name := updated.name }) (fun _ => rfl), updated)
  | none =>
      match email with
      | none => .error (.forbidden "No organization membership")
      | some e =>
          if (userByEmail users e).isSome then .error (.forbidden "No organization membership")
          else
            let row : UserRow := ⟨newId, e, name.getD (nameOfEmail e), input.sub, none⟩
            match users.insertMany? [row] with
            | none => .error (.conflict "Unique constraint failed")
            | some users' => .ok (users', row)

/-- `resolveJwt`: the users it leaves, and the writes of its transaction. -/
def resolveJwt (platform : IdentityPlatform) (users : Table UserRow UserRow.id) (t : OrgTables)
    (input : Claims) (newId : Uuid) (now : Timestamp) : Table UserRow UserRow.id ×
      Except OrgError (Option (InviteRow × InviteWrite × MemberWrite)) :=
  match upsertUserFromClaims platform users input newId with
  | .error e => (users, .error e)
  | .ok (users', user) =>
      if user.disabledAt.isSome then (users', .error (.forbidden "No organization membership"))
      else (users', resolveMembership platform t user.id user.email now)

/-- The membership `createOrg` writes beside the organisation and its policies. -/
def createOrg (ownerUserId : Uuid) : OrgTables where
  memberships := ⟨[⟨ownerUserId, .owner, none, true⟩], by simp⟩
  invites := Table.empty

/-! ## What the guards let through -/

/-- Only an owner grants or revokes ownership. -/
theorem assertOwnerRoleChange_ok {actorRole fromRole toRole : Role}
    (h : assertOwnerRoleChange actorRole fromRole toRole = .ok ()) :
    actorRole = .owner ∨ (toRole ≠ .owner ∧ fromRole ≠ .owner) := by
  unfold assertOwnerRoleChange at h
  split at h
  · cases h
  · rename_i hgrant
    split at h
    · cases h
    · rename_i hrevoke
      by_cases hactor : actorRole = .owner
      · exact Or.inl hactor
      · have hto : toRole ≠ .owner := fun hto => hgrant ⟨hto, hactor⟩
        exact Or.inr ⟨hto, fun hfrom => hrevoke ⟨hfrom, hto, hactor⟩⟩

theorem assertNotLastActiveOwner_ok {owners : Nat}
    (h : assertNotLastActiveOwner owners = .ok ()) : 2 ≤ owners := by
  unfold assertNotLastActiveOwner at h
  split at h
  · cases h
  · omega

variable {platform : IdentityPlatform} {t : OrgTables}

/-- A role that is set is the requested one, on a membership that is there, and one an
owner grants or revokes if it is about ownership. -/
theorem setRole_ok {actor : Principal} {userId : String} {role : Role} {write : MemberWrite}
    (h : setRole platform t actor userId role = .ok write) :
    write = .setRole userId role ∧ ∃ m ∈ t.memberships, m.userId = userId ∧
      (actor.role = .owner ∨ (role ≠ .owner ∧ m.role ≠ .owner)) ∧
      (m.role = .owner → role ≠ .owner → 2 ≤ t.countOwners) := by
  unfold setRole at h
  cases hid : requireUserId platform userId with
  | error e => simp [hid] at h
  | ok _ =>
      cases hfind : t.memberships.find? userId with
      | none => simp [hid, hfind, requireMembership] at h
      | some m =>
          cases hguard : assertOwnerRoleChange actor.role m.role role with
          | error e => simp [hid, hfind, requireMembership, hguard] at h
          | ok _ =>
              simp only [hid, hfind, requireMembership, hguard] at h
              obtain ⟨hmem, hkey⟩ := Table.find?_eq_some.mp hfind
              have hallowed := assertOwnerRoleChange_ok hguard
              split at h
              · cases hlast : assertNotLastActiveOwner t.countOwners with
                | error e => simp [hlast] at h
                | ok _ =>
                    simp only [hlast, Except.ok.injEq] at h
                    exact ⟨h.symm, m, hmem, hkey, hallowed,
                      fun _ _ => assertNotLastActiveOwner_ok hlast⟩
              · rename_i hnot
                rw [Except.ok.injEq] at h
                exact ⟨h.symm, m, hmem, hkey, hallowed, fun hm hr => absurd ⟨hm, hr⟩ hnot⟩

/-- A membership that is disabled is an active one, and an owner's only by an owner. -/
theorem disable_ok {actor : Principal} {userId : String} {now : Timestamp} {write : MemberWrite}
    (h : disable platform t actor userId now = .ok (some write)) :
    write = .disable userId now ∧ ∃ m ∈ t.memberships, m.userId = userId ∧
      (m.role = .owner → actor.role = .owner ∧ 2 ≤ t.countOwners) := by
  unfold disable at h
  cases hid : requireUserId platform userId with
  | error e => simp [hid] at h
  | ok _ =>
      cases hfind : t.memberships.find? userId with
      | none => simp [hid, hfind, requireMembership] at h
      | some m =>
          simp only [hid, hfind, requireMembership] at h
          obtain ⟨hmem, hkey⟩ := Table.find?_eq_some.mp hfind
          split at h
          · simp at h
          · split at h
            · split at h
              · cases h
              · rename_i hactor
                cases hlast : assertNotLastActiveOwner t.countOwners with
                | error e => simp [hlast] at h
                | ok _ =>
                    simp only [hlast, Except.ok.injEq, Option.some.injEq] at h
                    refine ⟨h.symm, m, hmem, hkey, fun _ => ⟨?_, ?_⟩⟩
                    · exact not_not.mp hactor
                    · exact assertNotLastActiveOwner_ok hlast
            · rename_i hrole
              simp only [Except.ok.injEq, Option.some.injEq] at h
              exact ⟨h.symm, m, hmem, hkey, fun howner => absurd howner hrole⟩

/-- The role of a written invite is the requested one; ownership only from an owner. -/
theorem invite_ok {users : Table UserRow UserRow.id} {actor : Principal} {input : InviteRequest}
    {now : Timestamp} {write : InviteWrite}
    (h : invite platform t users actor input now = .ok write) :
    (input.role = .owner → actor.role = .owner) ∧
      ((∃ pending ∈ t.invites, write =
          .update pending.id (inviteData platform actor input now)) ∨
        write = .create input.id (inviteData platform actor input now) now) := by
  unfold invite at h
  cases hcheck : checkInvite platform actor input.role with
  | error e => simp [hcheck] at h
  | ok _ =>
      have howner : input.role = .owner → actor.role = .owner := by
        intro hrole
        unfold checkInvite at hcheck
        split at hcheck
        · cases hcheck
        · split at hcheck
          · cases hcheck
          · rename_i hnot
            exact not_not.mp fun hactor => hnot ⟨hrole, hactor⟩
      simp only [hcheck] at h
      split at h
      · cases h
      · rw [Except.ok.injEq] at h
        subst h
        refine ⟨howner, ?_⟩
        unfold inviteWrite
        split
        · rename_i pending hpending
          exact Or.inl ⟨pending, (OrgTables.newestInvite_some hpending).1, rfl⟩
        · exact Or.inr rfl

theorem userId_acceptedMembership (existing : Option MembershipRow) (userId : Uuid) (role : Role) :
    (acceptedMembership existing userId role).userId = userId := by
  cases existing <;> rfl

/-- A login that writes accepts an invite of the organisation, for a user without an
active membership. -/
theorem resolveMembership_ok {userId : Uuid} {email : String} {now : Timestamp}
    {writes : InviteRow × InviteWrite × MemberWrite}
    (h : resolveMembership platform t userId email now = .ok (some writes)) :
    alreadyMember (t.memberships.find? userId) = false ∧ writes.1 ∈ t.invites ∧
      writes.2.1 = .accept writes.1.id now ∧
      writes.2.2 = acceptedMembership (t.memberships.find? userId) userId writes.1.role := by
  unfold resolveMembership at h
  simp only at h
  split at h
  · simp at h
  · rename_i hmember
    split at h
    · cases h
    · rename_i found haccept
      simp only [Except.ok.injEq, Option.some.injEq] at h
      subst h
      unfold acceptPendingInvite at haccept
      obtain ⟨i, hi, rfl⟩ := Option.map_eq_some_iff.mp haccept
      exact ⟨Bool.not_eq_true _ ▸ hmember, (OrgTables.newestInvite_some hi).1, rfl, rfl⟩

/-- A login that writes does so for the user its claims name, who is not disabled. -/
theorem resolveJwt_ok {users : Table UserRow UserRow.id} {input : Claims} {newId : Uuid}
    {now : Timestamp} {writes : InviteRow × InviteWrite × MemberWrite}
    (h : (resolveJwt platform users t input newId now).2 = .ok (some writes)) :
    ∃ user : UserRow, user.disabledAt = none ∧
      resolveMembership platform t user.id user.email now = .ok (some writes) := by
  unfold resolveJwt at h
  split at h
  · cases h
  · rename_i user hupsert
    split at h
    · cases h
    · rename_i hdisabled
      exact ⟨user, by simpa using hdisabled, h⟩

end Identity
end Ctem
