import Ctem.Identity.CreateOrg
import Ctem.Identity.OwnerRace

/-!
# Concurrent sign-ups

Any number of `createOrgForSubject` calls, statement by statement, beside the calls of `OwnerRace`
about the members of every organisation.  A call takes the advisory lock of its user before it
reads the user's active memberships, and keeps it until its transaction has ended.

The partial unique index on signup memberships is left out: the lock alone has to do.

* `Exclusive` is the invariant: whoever has read under the lock that the user is in no organisation
  is right until the lock is free.  No other call makes a signup membership active.
* `one_signup_org`: a user has at most one active signup membership, and a call that has thrown
  has left nothing.
-/

namespace Ctem
namespace Identity

open Foundation Contracts Policy

/-- The statement a call makes next, or how it has ended. -/
inductive CreateStage where
  | begun
  /-- The user is known, and the transaction asks for the lock. -/
  | known (userId : Uuid) (request : CreateOrgRequest)
  | locked (userId : Uuid) (request : CreateOrgRequest)
  /-- The user has no active membership. -/
  | vacant (userId : Uuid) (request : CreateOrgRequest)
  | inserted (userId : Uuid) (org : OrganizationRow)
  /-- The transaction is aborted, and the handler asks what for. -/
  | aborted (userId : Uuid) (error : CreateOrgError)
  | returned (org : OrganizationRow)
  | threw (error : CreateOrgError)

structure CreateCall where
  input : CreateOrgInput
  stage : CreateStage

/-- The committed tables, the members of each organisation with the calls about them, the calls
that create organisations, and their locks. -/
structure SignupRace where
  users : Table UserRow UserRow.id
  organizations : Table OrganizationRow OrganizationRow.id
  policies : List PolicyRow
  orgs : OrgId → OwnerRace
  calls : Nat → Option CreateCall
  userLocks : Locks Uuid Nat
  idLocks : Locks OrgId Nat
  slugLocks : Locks String Nat

inductive SignupEvent where
  | begin (call : Nat) (input : CreateOrgInput)
  | statement (call : Nat)
  | commit (call : Nat)
  /-- A failure of any kind. -/
  | fail (call : Nat) (message : String)
  /-- A call about the members of an organisation goes on. -/
  | org (orgId : OrgId) (event : RaceEvent)
  /-- A login upserts its user. -/
  | upsertUser (users : Table UserRow UserRow.id)

/-- Tables with well-formed ids, in which every row of an organisation has one. -/
structure Tenants (platform : IdentityPlatform) where
  users : Table UserRow UserRow.id
  organizations : Table OrganizationRow OrganizationRow.id
  policies : List PolicyRow
  tables : OrgId → OrgTables
  userIds : ∀ u ∈ users, platform.isUserId u.id = true
  orgIds : ∀ o ∈ organizations, platform.isUserId o.id = true
  memberOrgs : ∀ orgId, ∀ m ∈ (tables orgId).memberships, ∃ o ∈ organizations, o.id = orgId

namespace SignupRace

variable (platform : IdentityPlatform)

/-- No call is running. -/
def start {platform : IdentityPlatform} (t : Tenants platform) : SignupRace where
  users := t.users
  organizations := t.organizations
  policies := t.policies
  orgs := fun orgId => OwnerRace.start t.users (t.tables orgId)
  calls := fun _ => none
  userLocks := Locks.empty
  idLocks := Locks.empty
  slugLocks := Locks.empty

/-! ## Reads -/

/-- The active membership of a user in an organisation. -/
def activeMembership (s : SignupRace) (userId : Uuid) (o : OrganizationRow) :
    Option (OrgId × Role) :=
  ((s.orgs o.id).org.memberships.find? userId).bind fun m =>
    if m.disabledAt.isNone then some (o.id, m.role) else none

/-- `readActiveMemberships`: rows that do not parse are left out. -/
def readActiveMemberships (s : SignupRace) (userId : Uuid) : List (OrgId × Role) :=
  if platform.isUserId userId = false then []
  else
    (s.organizations.rows.filterMap (s.activeMembership userId)).filter fun row =>
      platform.isUserId row.1

/-- The membership is active, and one of a sign-up. -/
def isActiveSignup (m : MembershipRow) : Bool :=
  m.viaSignup && m.disabledAt.isNone

/-- `hasActiveSignupMembership`. -/
def hasActiveSignupMembership (s : SignupRace) (userId : Uuid) : Bool :=
  s.organizations.rows.any fun o =>
    ((s.orgs o.id).org.memberships.find? userId).any isActiveSignup

def userBySubject (s : SignupRace) (sub : String) : Option UserRow :=
  s.users.rows.find? fun u => decide (u.idpSubject = sub)

/-! ## Steps -/

/-- The call goes on. -/
def goTo (s : SignupRace) (call : Nat) (c : CreateCall) (stage : CreateStage) : SignupRace :=
  { s with calls := Function.update s.calls call (some { c with stage := stage }) }

/-- The transaction of the call ends, and its locks are free. -/
def close (s : SignupRace) (call : Nat) (c : CreateCall) (stage : CreateStage) : SignupRace :=
  { s with
    userLocks := s.userLocks.release call
    idLocks := s.idLocks.release call
    slugLocks := s.slugLocks.release call }.goTo call c stage

/-- The first statement: the body is parsed and the user looked up. -/
def findSubject (s : SignupRace) (input : CreateOrgInput) : CreateStage :=
  match CreateOrgRequest.parse input.name input.slug with
  | none => .threw (.http (.badRequest "Validation failed"))
  | some request =>
      match s.userBySubject input.sub with
      | none => .threw (.http (.forbidden "No organization"))
      | some user =>
          if user.disabledAt.isSome then .threw (.http (.forbidden "No organization"))
          else .known user.id request

/-- The insert of the organisation with its rows. -/
def insertOrg (s : SignupRace) (call : Nat) (c : CreateCall) (userId : Uuid)
    (request : CreateOrgRequest) : SignupRace :=
  let org := organizationRow c.input request
  if s.idLocks.freeFor org.id call && s.slugLocks.freeFor org.slug call then
    if (s.organizations.find? org.id).isSome then
      s.close call c (.aborted userId (.unique (organizationViolation "id")))
    else if s.organizations.rows.any fun o => decide (o.slug = org.slug) then
      s.close call c (.aborted userId (.unique (organizationViolation "slug")))
    else
      { s with
        idLocks := s.idLocks.acquire org.id call
        slugLocks := s.slugLocks.acquire org.slug call }.goTo call c (.inserted userId org)
  else s -- another transaction inserts the key

def stepStatement (s : SignupRace) (call : Nat) : SignupRace :=
  match s.calls call with
  | none => s
  | some c =>
      match c.stage with
      | .begun => s.goTo call c (s.findSubject c.input)
      | .known userId request =>
          if s.userLocks.freeFor userId call then
            { s with userLocks := s.userLocks.acquire userId call }.goTo call c
              (.locked userId request)
          else s -- the lock is waited for
      | .locked userId request =>
          if (s.readActiveMemberships platform userId).isEmpty then
            s.goTo call c (.vacant userId request)
          else s.close call c (.threw (.http (.conflict alreadyInOrg)))
      | .vacant userId request => s.insertOrg call c userId request
      | .aborted userId error =>
          s.goTo call c (.threw (catchCreateOrg error (s.hasActiveSignupMembership userId)))
      | _ => s

/-- The tables with the rows of a new organisation. -/
def withOrg (s : SignupRace) (input : CreateOrgInput) (userId : Uuid) (org : OrganizationRow) :
    SignupRace :=
  { s with
    organizations := s.organizations.ensure org
    policies := s.policies ++ defaultPolicies org.id input.policyIds
    orgs := Function.update s.orgs org.id { s.orgs org.id with org := createOrg userId } }

/-- The response is parsed inside the transaction, which then commits. -/
def stepCommit (s : SignupRace) (call : Nat) : SignupRace :=
  match s.calls call with
  | none => s
  | some c =>
      match c.stage with
      | .inserted userId org =>
          match parseCreateOrgResponse platform org with
          | none => s.close call c (.aborted userId (.other "ZodError"))
          | some response => (s.withOrg c.input userId org).close call c (.returned response)
      | _ => s

/-- A call that has not ended fails. -/
def stepFail (s : SignupRace) (call : Nat) (message : String) : SignupRace :=
  match s.calls call with
  | none => s
  | some c =>
      match c.stage with
      | .returned _ => s
      | .threw _ => s
      | _ => s.close call c (.threw (.other message))

/-- The members of an organisation after a step of a call about them.  The rows of an organisation
that is not there violate a foreign key. -/
def orgAfter (s : SignupRace) (orgId : OrgId) (event : RaceEvent) : OwnerRace :=
  match event with
  | .commit tx =>
      if (s.organizations.find? orgId).isSome then (s.orgs orgId).stepCommit tx
      else (s.orgs orgId).close tx
  | event => (s.orgs orgId).step platform event

def stepOrg (s : SignupRace) (orgId : OrgId) (event : RaceEvent) : SignupRace :=
  { s with orgs := Function.update s.orgs orgId (s.orgAfter platform orgId event) }

def step (s : SignupRace) (event : SignupEvent) : SignupRace :=
  match event with
  | .begin call input =>
      match s.calls call with
      | none => { s with calls := Function.update s.calls call (some ⟨input, .begun⟩) }
      | some _ => s
  | .statement call => s.stepStatement platform call
  | .commit call => s.stepCommit platform call
  | .fail call message => s.stepFail call message
  | .org orgId event => s.stepOrg platform orgId event
  | .upsertUser users => { s with users := users }

/-- The calls in any interleaving of their statements; ids of users are UUIDs. -/
def system : System SignupRace SignupEvent where
  step := step platform
  allowed := fun _ event =>
    match event with
    | .begin _ input => platform.isUserId input.id = true
    | .upsertUser users => ∀ u ∈ users, platform.isUserId u.id = true
    | _ => True

/-! ## Signup memberships -/

/-- The user has an active signup membership of the organisation. -/
def SignupIn (s : SignupRace) (orgId : OrgId) (userId : Uuid) : Prop :=
  ∃ m, (s.orgs orgId).org.memberships.find? userId = some m ∧ isActiveSignup m = true

section Members

variable {platform : IdentityPlatform} {t : OrgTables} {w : OwnerRace} {userId : Uuid}

/-- No write of a membership makes a signup membership active. -/
theorem activeSignup_writeMember {write : MemberWrite} {m : MembershipRow}
    (hfind : (t.writeMember write).memberships.find? userId = some m)
    (hactive : isActiveSignup m = true) :
    ∃ m₀, t.memberships.find? userId = some m₀ ∧ isActiveSignup m₀ = true := by
  by_cases hself : userId = write.userId
  · subst hself
    cases hold : t.memberships.find? write.userId with
    | none =>
        rcases OrgTables.find?_writeMember_none hold with hnone | ⟨role, hnew⟩
        · rw [hnone] at hfind
          cases hfind
        · rw [hnew] at hfind
          obtain rfl := Option.some.inj hfind
          exact absurd hactive Bool.false_ne_true
    | some m₀ =>
        rw [OrgTables.find?_writeMember_self hold] at hfind
        obtain rfl := Option.some.inj hfind
        refine ⟨m₀, rfl, ?_⟩
        cases write with
        | setRole userId role => exact hactive
        | disable userId now =>
            simp [isActiveSignup, MemberWrite.data] at hactive
        | restore userId role => exact absurd hactive Bool.false_ne_true
        | create userId role => exact hactive
  · rw [OrgTables.find?_writeMember_ne hself] at hfind
    exact ⟨m, hfind, hactive⟩

/-- No call about the members makes a signup membership active. -/
theorem activeSignup_stepCommit {tx : Nat} {m : MembershipRow}
    (hfind : (w.stepCommit tx).org.memberships.find? userId = some m)
    (hactive : isActiveSignup m = true) :
    ∃ m₀, w.org.memberships.find? userId = some m₀ ∧ isActiveSignup m₀ = true := by
  by_cases hwrote : ∃ o invite member, w.txs tx = some o ∧ o.stage = .wrote invite member
  · obtain ⟨o, invite, member, hopen, hstage⟩ := hwrote
    rw [OwnerRace.org_stepCommit hopen hstage] at hfind
    cases member with
    | none =>
        have hsame : (OwnerRace.applyWrites w.org invite none).memberships = w.org.memberships := by
          cases invite <;> rfl
        rw [hsame] at hfind
        exact ⟨m, hfind, hactive⟩
    | some write =>
        have hsame : (OwnerRace.applyWrites w.org invite (some write)).memberships =
            (w.org.writeMember write).memberships := by
          cases invite <;> rfl
        rw [hsame] at hfind
        exact activeSignup_writeMember hfind hactive
  · rw [OwnerRace.stepCommit_idle fun o invite member hopen hstage =>
      hwrote ⟨o, invite, member, hopen, hstage⟩] at hfind
    exact ⟨m, hfind, hactive⟩

end Members

/-! ## What a call knows -/

/-- The user has no active signup membership. -/
def NoSignup (s : SignupRace) (userId : Uuid) : Prop :=
  ∀ orgId, ¬ s.SignupIn orgId userId

/-- What a call at the stage knows: behind the lock it holds it, and behind the read nothing has
happened to what it has read. -/
def StageRight (s : SignupRace) (call : Nat) (input : CreateOrgInput) : CreateStage → Prop
  | .known userId _ => platform.isUserId userId = true
  | .locked userId _ => platform.isUserId userId = true ∧ s.userLocks.holder userId = some call
  | .vacant userId _ => s.userLocks.holder userId = some call ∧ s.NoSignup userId
  | .inserted userId org =>
      org.id = input.id ∧ s.userLocks.holder userId = some call ∧ s.NoSignup userId
  | _ => True

/-- The tables are those of tenants, with at most one active signup membership for each user, and
the calls know what they should. -/
structure Exclusive (s : SignupRace) : Prop where
  userIds : ∀ u ∈ s.users, platform.isUserId u.id = true
  orgIds : ∀ o ∈ s.organizations, platform.isUserId o.id = true
  memberOrgs : ∀ orgId, ∀ m ∈ (s.orgs orgId).org.memberships, ∃ o ∈ s.organizations, o.id = orgId
  drawn : ∀ call c, s.calls call = some c → platform.isUserId c.input.id = true
  stages : ∀ call c, s.calls call = some c → s.StageRight platform call c.input c.stage
  unique : ∀ orgId orgId' userId, s.SignupIn orgId userId → s.SignupIn orgId' userId →
    orgId = orgId'

section Calls

variable {platform} {s s' : SignupRace} {call call' : Nat} {c : CreateCall}
  {input : CreateOrgInput} {stage : CreateStage} {userId : Uuid}

theorem exclusive_start (t : Tenants platform)
    (hnone : ∀ orgId, ∀ m ∈ (t.tables orgId).memberships, m.viaSignup = false) :
    Exclusive platform (start t) where
  userIds := t.userIds
  orgIds := t.orgIds
  memberOrgs := t.memberOrgs
  drawn := by
    intro call c hcall
    cases hcall
  stages := by
    intro call c hcall
    cases hcall
  unique := by
    rintro orgId orgId' userId ⟨m, hfind, hactive⟩
    have hfalse := hnone orgId m (Table.find?_mem hfind)
    simp [isActiveSignup, hfalse] at hactive

/-- A call stays right while its lock is kept and its user is signed up nowhere. -/
theorem StageRight.mono (h : s.StageRight platform call input stage)
    (hkeep : ∀ userId, s.userLocks.holder userId = some call →
      s'.userLocks.holder userId = some call ∧ (s.NoSignup userId → s'.NoSignup userId)) :
    s'.StageRight platform call input stage := by
  cases stage with
  | begun => trivial
  | known userId request => exact h
  | locked userId request => exact ⟨h.1, (hkeep userId h.2).1⟩
  | vacant userId request => exact ⟨(hkeep userId h.1).1, (hkeep userId h.1).2 h.2⟩
  | inserted userId org => exact ⟨h.1, (hkeep userId h.2.1).1, (hkeep userId h.2.1).2 h.2.2⟩
  | aborted userId error => trivial
  | returned org => trivial
  | threw error => trivial

/-- One call goes on, under whatever locks leave those of the others. -/
theorem Exclusive.next (h : Exclusive platform s) (hcall : s.calls call = some c)
    {users : Locks Uuid Nat} {ids : Locks OrgId Nat} {slugs : Locks String Nat}
    (hothers : ∀ call' userId, call' ≠ call → s.userLocks.holder userId = some call' →
      users.holder userId = some call')
    (hright : StageRight platform
      { s with userLocks := users, idLocks := ids, slugLocks := slugs } call c.input stage) :
    Exclusive platform
      ({ s with userLocks := users, idLocks := ids, slugLocks := slugs }.goTo call c stage) where
  userIds := h.userIds
  orgIds := h.orgIds
  memberOrgs := h.memberOrgs
  drawn := by
    intro call' c' hcall'
    rcases update_some_eq_some hcall' with ⟨-, rfl⟩ | ⟨-, hold⟩
    · exact h.drawn call c hcall
    · exact h.drawn call' c' hold
  stages := by
    intro call' c' hcall'
    rcases update_some_eq_some hcall' with ⟨rfl, rfl⟩ | ⟨hne, hold⟩
    · exact hright.mono fun userId hheld => ⟨hheld, id⟩
    · exact (h.stages call' c' hold).mono fun userId hheld =>
        ⟨hothers call' userId hne hheld, id⟩
  unique := h.unique

theorem Exclusive.goTo (h : Exclusive platform s) (hcall : s.calls call = some c)
    (hright : s.StageRight platform call c.input stage) :
    Exclusive platform (s.goTo call c stage) :=
  h.next hcall (fun _ _ _ hheld => hheld) hright

/-- The locks of the others are kept when a call ends. -/
theorem holder_release_of_ne {κ : Type} [DecidableEq κ] {l : Locks κ Nat} {k : κ}
    (hne : call' ≠ call) (hheld : l.holder k = some call') :
    (l.release call).holder k = some call' := by
  have hnot : ¬ l.holder k = some call := by
    rw [hheld]
    exact fun heq => hne (Option.some.inj heq)
  exact (if_neg hnot).trans hheld

theorem Exclusive.close (h : Exclusive platform s) (hcall : s.calls call = some c)
    (hright : ∀ s' : SignupRace, s'.StageRight platform call c.input stage) :
    Exclusive platform (s.close call c stage) :=
  h.next hcall (fun _ _ hne hheld => holder_release_of_ne hne hheld) (hright _)

/-! ## Steps -/

theorem stageRight_findSubject (h : Exclusive platform s) (hfind : s.findSubject input = stage) :
    s.StageRight platform call input stage := by
  unfold findSubject at hfind
  split at hfind
  · subst hfind
    trivial
  · split at hfind
    · subst hfind
      trivial
    · rename_i user hfound
      split at hfind
      · subst hfind
        trivial
      · subst hfind
        exact h.userIds user (List.mem_of_find?_eq_some hfound)

/-- Whoever reads no active membership has no active signup membership. -/
theorem noSignup_of_readActiveMemberships (h : Exclusive platform s)
    (hid : platform.isUserId userId = true)
    (hread : (s.readActiveMemberships platform userId).isEmpty = true) : s.NoSignup userId := by
  rintro orgId ⟨m, hfind, hactive⟩
  obtain ⟨o, ho, rfl⟩ := h.memberOrgs orgId m (Table.find?_mem hfind)
  have henabled : m.disabledAt.isNone = true := by
    unfold isActiveSignup at hactive
    exact (Bool.and_eq_true_iff.mp hactive).2
  have hrow : s.activeMembership userId o = some (o.id, m.role) := by
    unfold activeMembership
    rw [hfind, Option.bind_some, if_pos henabled]
  have hmem : (o.id, m.role) ∈ s.readActiveMemberships platform userId := by
    unfold readActiveMemberships
    rw [if_neg (by simp [hid])]
    exact List.mem_filter.mpr ⟨List.mem_filterMap.mpr ⟨o, ho, hrow⟩, h.orgIds o ho⟩
  rw [List.isEmpty_iff.mp hread] at hmem
  exact List.not_mem_nil hmem

theorem exclusive_insertOrg (h : Exclusive platform s) (hcall : s.calls call = some c)
    {request : CreateOrgRequest} (hheld : s.userLocks.holder userId = some call)
    (hnone : s.NoSignup userId) :
    Exclusive platform (s.insertOrg call c userId request) := by
  unfold insertOrg
  simp only
  split
  · split
    · exact h.close hcall fun _ => trivial
    · split
      · exact h.close hcall fun _ => trivial
      · exact h.next hcall (fun _ _ _ hother => hother) ⟨rfl, hheld, hnone⟩
  · exact h

/-- The call takes the lock of its user, if it is free. -/
theorem exclusive_acquire (h : Exclusive platform s) (hcall : s.calls call = some c)
    {request : CreateOrgRequest} (hid : platform.isUserId userId = true)
    (hfree : s.userLocks.freeFor userId call = true) :
    Exclusive platform ({ s with userLocks := s.userLocks.acquire userId call }.goTo call c
      (.locked userId request)) := by
  refine h.next hcall ?_ ⟨hid, Function.update_self _ _ _⟩
  intro call' userId' hne hheld
  by_cases huser : userId' = userId
  · -- a lock that is free for the call is not another's
    subst huser
    unfold Locks.freeFor at hfree
    rw [hheld] at hfree
    exact absurd (of_decide_eq_true hfree) hne
  · exact (Function.update_of_ne huser _ _).trans hheld

theorem exclusive_stepStatement (h : Exclusive platform s) :
    Exclusive platform (s.stepStatement platform call) := by
  cases hcall : s.calls call with
  | none =>
      have hsame : s.stepStatement platform call = s := by
        simp only [stepStatement, hcall]
      rw [hsame]
      exact h
  | some c =>
      obtain ⟨input, stage⟩ := c
      have hright := h.stages call _ hcall
      simp only [stepStatement, hcall]
      cases stage with
      | begun =>
          simp only
          generalize hfind : s.findSubject input = stage
          exact h.goTo hcall (stageRight_findSubject h hfind)
      | known userId request =>
          simp only
          split
          · rename_i hfree
            exact exclusive_acquire h hcall hright hfree
          · exact h
      | locked userId request =>
          simp only
          split
          · rename_i hread
            exact h.goTo hcall ⟨hright.2, noSignup_of_readActiveMemberships h hright.1 hread⟩
          · exact h.close hcall fun _ => trivial
      | vacant userId request =>
          simp only
          exact exclusive_insertOrg h hcall hright.1 hright.2
      | inserted userId org => exact h
      | aborted userId error =>
          simp only
          exact h.goTo hcall trivial
      | returned org => exact h
      | threw error => exact h

theorem exclusive_stepFail (h : Exclusive platform s) (message : String) :
    Exclusive platform (s.stepFail call message) := by
  cases hcall : s.calls call with
  | none =>
      have hsame : s.stepFail call message = s := by
        simp only [stepFail, hcall]
      rw [hsame]
      exact h
  | some c =>
      simp only [stepFail, hcall]
      split
      · exact h
      · exact h
      · exact h.close hcall fun _ => trivial

/-- The members after an organisation was created. -/
theorem signupIn_withOrg (input : CreateOrgInput) {org : OrganizationRow} {orgId : OrgId} {userId' : Uuid}
    (h : (s.withOrg input userId org).SignupIn orgId userId') :
    (orgId = org.id ∧ userId' = userId) ∨ (orgId ≠ org.id ∧ s.SignupIn orgId userId') := by
  obtain ⟨m, hfind, hactive⟩ := h
  by_cases horg : orgId = org.id
  · subst horg
    have hnew : (createOrg userId).memberships.find? userId' = some m := by
      simpa [withOrg] using hfind
    obtain ⟨hmem, hkey⟩ := Table.find?_eq_some.mp hnew
    have hrow : m = ⟨userId, .owner, none, true⟩ := List.mem_singleton.mp hmem
    rw [hrow] at hkey
    exact Or.inl ⟨rfl, hkey.symm⟩
  · refine Or.inr ⟨horg, m, ?_, hactive⟩
    simpa [withOrg, Function.update_of_ne horg] using hfind

/-- The commit of a call that has read that its user is in no organisation. -/
theorem exclusive_withOrg (h : Exclusive platform s) (hcall : s.calls call = some c)
    {org response : OrganizationRow} (hid : org.id = c.input.id)
    (hheld : s.userLocks.holder userId = some call) (hnone : s.NoSignup userId) :
    Exclusive platform ((s.withOrg c.input userId org).close call c (.returned response)) where
  userIds := h.userIds
  orgIds := by
    intro o ho
    rcases Table.mem_or_eq_of_mem_ensure ho with hold | rfl
    · exact h.orgIds o hold
    · rw [hid]
      exact h.drawn call c hcall
  memberOrgs := by
    intro orgId m hm
    have hthere : ∀ o ∈ s.organizations, o ∈ s.organizations.ensure org :=
      fun o ho => Table.mem_ensure_of_mem ho
    by_cases horg : orgId = org.id
    · have hself : (s.organizations.ensure org).find? org.id =
          some ((s.organizations.find? org.id).getD org) := Table.find?_ensure_self
      obtain ⟨hmem, hkey⟩ := Table.find?_eq_some.mp hself
      exact ⟨_, hmem, hkey.trans horg.symm⟩
    · have hold : m ∈ (s.orgs orgId).org.memberships := by
        simpa [withOrg, close, goTo, Function.update_of_ne horg] using hm
      obtain ⟨o, ho, hoid⟩ := h.memberOrgs orgId m hold
      exact ⟨o, hthere o ho, hoid⟩
  drawn := by
    intro call' c' hcall'
    rcases update_some_eq_some hcall' with ⟨-, rfl⟩ | ⟨-, hold⟩
    · exact h.drawn call c hcall
    · exact h.drawn call' c' hold
  stages := by
    intro call' c' hcall'
    rcases update_some_eq_some hcall' with ⟨-, rfl⟩ | ⟨hne, hold⟩
    · trivial
    · refine (h.stages call' c' hold).mono fun userId' hheld' =>
        ⟨holder_release_of_ne hne hheld', ?_⟩
      intro hnosignup orgId hsignup
      rcases signupIn_withOrg c.input hsignup with ⟨-, rfl⟩ | ⟨-, hsigned⟩
      · -- the lock of the new owner is this call's
        exact hne (Option.some.inj (hheld'.symm.trans hheld))
      · exact hnosignup orgId hsigned
  unique := by
    intro orgId orgId' userId' hsignup hsignup'
    rcases signupIn_withOrg c.input hsignup with ⟨rfl, rfl⟩ | ⟨-, hold⟩
    · rcases signupIn_withOrg c.input hsignup' with ⟨rfl, -⟩ | ⟨-, hold'⟩
      · rfl
      · exact absurd hold' (hnone orgId')
    · rcases signupIn_withOrg c.input hsignup' with ⟨rfl, rfl⟩ | ⟨-, hold'⟩
      · exact absurd hold (hnone orgId)
      · exact h.unique orgId orgId' userId' hold hold'

theorem exclusive_stepCommit (h : Exclusive platform s) :
    Exclusive platform (s.stepCommit platform call) := by
  cases hcall : s.calls call with
  | none =>
      have hsame : s.stepCommit platform call = s := by
        simp only [stepCommit, hcall]
      rw [hsame]
      exact h
  | some c =>
      have hright := h.stages call c hcall
      simp only [stepCommit, hcall]
      split
      · rename_i userId org hstage
        rw [hstage] at hright
        split
        · exact h.close hcall fun _ => trivial
        · exact exclusive_withOrg h hcall hright.1 hright.2.1 hright.2.2
      · exact h

/-- A step about the members leaves them as they are, or commits to an organisation that is
there. -/
theorem orgAfter_cases (platform : IdentityPlatform) (s : SignupRace) (orgId : OrgId)
    (event : RaceEvent) :
    (s.orgAfter platform orgId event).org = (s.orgs orgId).org ∨
      (∃ o ∈ s.organizations, o.id = orgId) ∧
        ∃ tx, s.orgAfter platform orgId event = (s.orgs orgId).stepCommit tx := by
  by_cases hcommit : ∃ tx, event = .commit tx
  · obtain ⟨tx, rfl⟩ := hcommit
    simp only [orgAfter]
    split
    · rename_i hthere
      obtain ⟨o, ho⟩ := Option.isSome_iff_exists.mp hthere
      exact Or.inr ⟨⟨o, Table.find?_mem ho, Table.find?_key ho⟩, tx, rfl⟩
    · exact Or.inl rfl
  · have hne : ∀ tx, event ≠ .commit tx := fun tx heq => hcommit ⟨tx, heq⟩
    have hsame : ((s.orgs orgId).step platform event).org = (s.orgs orgId).org :=
      OwnerRace.org_step_of_ne_commit hne
    refine Or.inl ?_
    cases event with
    | commit tx => exact absurd rfl (hne tx)
    | begin tx request => exact hsame
    | statement tx now => exact hsame
    | rollback tx => exact hsame
    | upsertUser users => exact hsame

/-- The calls about the members of one organisation sign nobody up. -/
theorem signupIn_stepOrg {orgId orgId' : OrgId} {event : RaceEvent}
    (h : (s.stepOrg platform orgId event).SignupIn orgId' userId) : s.SignupIn orgId' userId := by
  obtain ⟨m, hfind, hactive⟩ := h
  by_cases horg : orgId' = orgId
  · subst horg
    have hafter : (s.orgAfter platform orgId' event).org.memberships.find? userId = some m := by
      simpa [stepOrg] using hfind
    rcases orgAfter_cases platform s orgId' event with hsame | ⟨-, tx, hcommit⟩
    · rw [hsame] at hafter
      exact ⟨m, hafter, hactive⟩
    · rw [hcommit] at hafter
      exact activeSignup_stepCommit hafter hactive
  · refine ⟨m, ?_, hactive⟩
    simpa [stepOrg, Function.update_of_ne horg] using hfind

theorem exclusive_stepOrg (h : Exclusive platform s) (orgId : OrgId) (event : RaceEvent) :
    Exclusive platform (s.stepOrg platform orgId event) where
  userIds := h.userIds
  orgIds := h.orgIds
  memberOrgs := by
    intro orgId' m hm
    by_cases horg : orgId' = orgId
    · subst horg
      have hafter : m ∈ (s.orgAfter platform orgId' event).org.memberships := by
        simpa [stepOrg] using hm
      rcases orgAfter_cases platform s orgId' event with hsame | ⟨hthere, -⟩
      · rw [hsame] at hafter
        exact h.memberOrgs orgId' m hafter
      · exact hthere
    · have hold : m ∈ (s.orgs orgId').org.memberships := by
        simpa [stepOrg, Function.update_of_ne horg] using hm
      exact h.memberOrgs orgId' m hold
  drawn := h.drawn
  stages := by
    intro call c hcall
    refine (h.stages call c hcall).mono fun userId hheld => ⟨hheld, ?_⟩
    exact fun hnone orgId' hsignup => hnone orgId' (signupIn_stepOrg hsignup)
  unique := by
    intro orgId₁ orgId₂ userId h₁ h₂
    exact h.unique orgId₁ orgId₂ userId (signupIn_stepOrg h₁) (signupIn_stepOrg h₂)

theorem exclusive_step {event : SignupEvent} (h : Exclusive platform s)
    (hallowed : (system platform).allowed s event) : Exclusive platform (s.step platform event) := by
  cases event with
  | begin call input =>
      unfold step
      simp only
      cases hcall : s.calls call with
      | some c => exact h
      | none =>
          refine ⟨h.userIds, h.orgIds, h.memberOrgs, ?_, ?_, h.unique⟩
          · intro call' c' hcall'
            rcases update_some_eq_some hcall' with ⟨-, rfl⟩ | ⟨-, hold⟩
            · exact hallowed
            · exact h.drawn call' c' hold
          · intro call' c' hcall'
            rcases update_some_eq_some hcall' with ⟨-, rfl⟩ | ⟨-, hold⟩
            · trivial
            · exact (h.stages call' c' hold).mono fun userId hheld => ⟨hheld, id⟩
  | statement call => exact exclusive_stepStatement h
  | commit call => exact exclusive_stepCommit h
  | fail call message => exact exclusive_stepFail h message
  | org orgId event => exact exclusive_stepOrg h orgId event
  | upsertUser users =>
      refine ⟨hallowed, h.orgIds, h.memberOrgs, h.drawn, ?_, h.unique⟩
      intro call c hcall
      exact (h.stages call c hcall).mono fun userId hheld => ⟨hheld, id⟩

end Calls

/-! ## What a call leaves -/

/-- A call that drew the id has returned. -/
def Returned (s : SignupRace) (id : OrgId) : Prop :=
  ∃ call c org, s.calls call = some c ∧ c.stage = .returned org ∧ c.input.id = id

/-- The rows are those from before, and those of calls that have returned. -/
structure Owned (t : Tenants platform) (s : SignupRace) : Prop where
  organizations : ∀ o ∈ s.organizations, o ∈ t.organizations ∨ s.Returned o.id
  policies : ∀ p ∈ s.policies, p ∈ t.policies ∨ s.Returned p.orgId

/-- No row bears the id that the call drew, but for rows that were there. -/
structure LeftNothing {platform : IdentityPlatform} (t : Tenants platform) (s : SignupRace)
    (id : OrgId) : Prop where
  organizations : ∀ o ∈ s.organizations, o.id = id → o ∈ t.organizations
  memberships : ∀ m ∈ (s.orgs id).org.memberships, ∃ o ∈ t.organizations, o.id = id
  policies : ∀ p ∈ s.policies, p.orgId = id → p ∈ t.policies

section Rows

variable {platform} {t : Tenants platform} {s : SignupRace} {call call' : Nat} {c : CreateCall}
  {org : OrganizationRow}

/-- A statement of one call leaves the others. -/
theorem calls_stepStatement_of_ne (hne : call' ≠ call) :
    (s.stepStatement platform call).calls call' = s.calls call' := by
  have hgoTo : ∀ (s' : SignupRace) (c : CreateCall) (stage : CreateStage),
      (s'.goTo call c stage).calls call' = s'.calls call' :=
    fun s' c stage => Function.update_of_ne hne _ _
  cases hcall : s.calls call with
  | none => simp only [stepStatement, hcall]
  | some c =>
      obtain ⟨input, stage⟩ := c
      simp only [stepStatement, hcall]
      cases stage with
      | begun => exact hgoTo _ _ _
      | known userId request =>
          simp only
          split
          · exact hgoTo _ _ _
          · rfl
      | locked userId request =>
          simp only
          split
          · exact hgoTo _ _ _
          · exact hgoTo _ _ _
      | vacant userId request =>
          simp only [insertOrg]
          split
          · split
            · exact hgoTo _ _ _
            · split
              · exact hgoTo _ _ _
              · exact hgoTo _ _ _
          · rfl
      | inserted userId org => rfl
      | aborted userId error => exact hgoTo _ _ _
      | returned org => rfl
      | threw error => rfl

theorem calls_stepCommit_of_ne (hne : call' ≠ call) :
    (s.stepCommit platform call).calls call' = s.calls call' := by
  cases hcall : s.calls call with
  | none => simp only [stepCommit, hcall]
  | some c =>
      simp only [stepCommit, hcall]
      split
      · split
        · exact Function.update_of_ne hne _ _
        · exact Function.update_of_ne hne _ _
      · rfl

theorem calls_stepFail_of_ne {message : String} (hne : call' ≠ call) :
    (s.stepFail call message).calls call' = s.calls call' := by
  cases hcall : s.calls call with
  | none => simp only [stepFail, hcall]
  | some c =>
      simp only [stepFail, hcall]
      split
      · rfl
      · rfl
      · exact Function.update_of_ne hne _ _

/-- A call that has returned makes no more steps. -/
theorem calls_step_returned {event : SignupEvent} (hcall : s.calls call = some c)
    (hstage : c.stage = .returned org) : (s.step platform event).calls call = some c := by
  cases event with
  | begin call' input =>
      unfold step
      simp only
      cases hother : s.calls call' with
      | some c' => exact hcall
      | none =>
          have hne : call ≠ call' := by
            rintro rfl
            rw [hcall] at hother
            cases hother
          exact (Function.update_of_ne hne _ _).trans hcall
  | statement call' =>
      by_cases hne : call = call'
      · subst hne
        have hsame : s.stepStatement platform call = s := by
          simp only [stepStatement, hcall, hstage]
        exact (congrArg (fun s' => s'.calls call) hsame).trans hcall
      · exact (calls_stepStatement_of_ne hne).trans hcall
  | commit call' =>
      by_cases hne : call = call'
      · subst hne
        have hsame : s.stepCommit platform call = s := by
          simp only [stepCommit, hcall, hstage]
        exact (congrArg (fun s' => s'.calls call) hsame).trans hcall
      · exact (calls_stepCommit_of_ne hne).trans hcall
  | fail call' message =>
      by_cases hne : call = call'
      · subst hne
        have hsame : s.stepFail call message = s := by
          simp only [stepFail, hcall, hstage]
        exact (congrArg (fun s' => s'.calls call) hsame).trans hcall
      · exact (calls_stepFail_of_ne hne).trans hcall
  | org orgId event => exact hcall
  | upsertUser users => exact hcall

theorem Returned.step {id : OrgId} (h : s.Returned id) (event : SignupEvent) :
    (s.step platform event).Returned id := by
  obtain ⟨call, c, org, hcall, hstage, hid⟩ := h
  exact ⟨call, c, org, calls_step_returned hcall hstage, hstage, hid⟩

theorem rows_stepCommit_cases (h : Exclusive platform s) :
    ((s.stepCommit platform call).organizations = s.organizations ∧
        (s.stepCommit platform call).policies = s.policies) ∨
      ∃ (input : CreateOrgInput) (org : OrganizationRow),
        (s.stepCommit platform call).organizations = s.organizations.ensure org ∧
        (s.stepCommit platform call).policies =
          s.policies ++ defaultPolicies org.id input.policyIds ∧
          (s.stepCommit platform call).Returned org.id := by
  cases hcall : s.calls call with
  | none =>
      have hsame : s.stepCommit platform call = s := by
        simp only [stepCommit, hcall]
      exact Or.inl ⟨congrArg organizations hsame, congrArg policies hsame⟩
  | some c =>
      have hright := h.stages call c hcall
      simp only [stepCommit, hcall]
      split
      · rename_i userId org hstage
        rw [hstage] at hright
        split
        · exact Or.inl ⟨rfl, rfl⟩
        · rename_i response hparse
          exact Or.inr ⟨c.input, org, rfl, rfl, call, { c with stage := .returned response },
            response, Function.update_self _ _ _, rfl, hright.1.symm⟩
      · exact Or.inl ⟨rfl, rfl⟩

/-- The organisations and policies after a step: those from before, with the rows of a call that
has returned. -/
theorem rows_step_cases (h : Exclusive platform s) (event : SignupEvent) :
    ((s.step platform event).organizations = s.organizations ∧
        (s.step platform event).policies = s.policies) ∨
      ∃ (input : CreateOrgInput) (org : OrganizationRow),
        (s.step platform event).organizations = s.organizations.ensure org ∧
        (s.step platform event).policies = s.policies ++ defaultPolicies org.id input.policyIds ∧
          (s.step platform event).Returned org.id := by
  cases event with
  | begin call input =>
      unfold step
      simp only
      split <;> exact Or.inl ⟨rfl, rfl⟩
  | statement call =>
      refine Or.inl ?_
      change (s.stepStatement platform call).organizations = _ ∧
        (s.stepStatement platform call).policies = _
      unfold stepStatement
      split
      · exact ⟨rfl, rfl⟩
      · split
        · exact ⟨rfl, rfl⟩
        · split <;> exact ⟨rfl, rfl⟩
        · split <;> exact ⟨rfl, rfl⟩
        · simp only [insertOrg]
          split
          · split
            · exact ⟨rfl, rfl⟩
            · split <;> exact ⟨rfl, rfl⟩
          · exact ⟨rfl, rfl⟩
        · exact ⟨rfl, rfl⟩
        · exact ⟨rfl, rfl⟩
  | commit call => exact rows_stepCommit_cases h
  | fail call message =>
      refine Or.inl ?_
      change (s.stepFail call message).organizations = _ ∧ (s.stepFail call message).policies = _
      unfold stepFail
      split
      · exact ⟨rfl, rfl⟩
      · split <;> exact ⟨rfl, rfl⟩
  | org orgId event => exact Or.inl ⟨rfl, rfl⟩
  | upsertUser users => exact Or.inl ⟨rfl, rfl⟩

theorem Owned.step (h : Owned platform t s) (hexclusive : Exclusive platform s)
    (event : SignupEvent) : Owned platform t (s.step platform event) := by
  rcases rows_step_cases hexclusive event with ⟨horgs, hpolicies⟩ | ⟨input, org, horgs, hpolicies,
    hreturned⟩
  · constructor
    · rw [horgs]
      exact fun o ho => (h.organizations o ho).imp_right fun hold => hold.step event
    · rw [hpolicies]
      exact fun p hp => (h.policies p hp).imp_right fun hold => hold.step event
  · constructor
    · intro o ho
      rw [horgs] at ho
      rcases Table.mem_or_eq_of_mem_ensure ho with hold | rfl
      · exact (h.organizations o hold).imp_right fun hold => hold.step event
      · exact Or.inr hreturned
    · intro p hp
      rw [hpolicies] at hp
      rcases List.mem_append.mp hp with hold | hnew
      · exact (h.policies p hold).imp_right fun hold => hold.step event
      · rw [orgId_of_mem_defaultPolicies hnew]
        exact Or.inr hreturned

theorem Owned.leftNothing (h : Owned platform t s) (hexclusive : Exclusive platform s) {id : OrgId}
    (hnot : ¬ s.Returned id) : LeftNothing t s id where
  organizations := by
    intro o ho hid
    exact (h.organizations o ho).resolve_right fun hreturned => hnot (hid ▸ hreturned)
  memberships := by
    intro m hm
    obtain ⟨o, ho, hid⟩ := hexclusive.memberOrgs id m hm
    exact ⟨o, (h.organizations o ho).resolve_right fun hreturned => hnot (hid ▸ hreturned), hid⟩
  policies := by
    intro p hp hid
    exact (h.policies p hp).resolve_right fun hreturned => hnot (hid ▸ hreturned)

end Rows

/-- **One signup organisation.**  From tables without signup memberships, in every state reached by
any interleaving of the calls: no user has active signup memberships of two organisations, and
where a call has thrown, no row bears the id that it drew, unless another call has drawn and used
it. -/
theorem one_signup_org (platform : IdentityPlatform) (t : Tenants platform)
    (hnone : ∀ orgId, ∀ m ∈ (t.tables orgId).memberships, m.viaSignup = false)
    (events : List SignupEvent) (hlegal : (system platform).Legal (start t) events) :
    ∀ s ∈ (system platform).states (start t) events,
      (∀ orgId orgId' userId, s.SignupIn orgId userId → s.SignupIn orgId' userId →
        orgId = orgId') ∧
      ∀ call c error, s.calls call = some c → c.stage = .threw error →
        ¬ s.Returned c.input.id → LeftNothing t s c.input.id := by
  intro s hs
  have hinit : Exclusive platform (start t) ∧ Owned platform t (start t) :=
    ⟨exclusive_start t hnone, ⟨fun _ ho => Or.inl ho, fun _ hp => Or.inl hp⟩⟩
  have hstep : ∀ s event, Exclusive platform s ∧ Owned platform t s →
      (system platform).allowed s event →
        Exclusive platform (s.step platform event) ∧ Owned platform t (s.step platform event) :=
    fun s event h hallowed => ⟨exclusive_step h.1 hallowed, h.2.step h.1 event⟩
  have hinvariant : Exclusive platform s ∧ Owned platform t s :=
    (system platform).forall_states_of_allSteps hstep hinit hlegal s hs
  refine ⟨hinvariant.1.unique, ?_⟩
  intro call c error _ _ hnot
  exact hinvariant.2.leftNothing hinvariant.1 hnot

namespace TwoTabs

def runtime : IdentityPlatform where
  isUserId := fun _ => true
  trim := trimText
  toLowerCase := fun text => text
  sha256Hex := fun text => text

/-- One user and no organisation. -/
def nobody : Tenants runtime where
  users := ⟨[⟨"anna", "anna@shop.example", "anna", "sub", none⟩], by decide⟩
  organizations := Table.empty
  policies := []
  tables := fun _ => ⟨Table.empty, Table.empty⟩
  userIds := fun _ _ => rfl
  orgIds := fun _ _ => rfl
  memberOrgs := by
    intro orgId m hm
    exact absurd hm (Table.not_mem_empty m)

def asks (slug : String) : CreateOrgInput where
  sub := "sub"
  name := "Shop"
  slug := slug
  id := slug
  policyIds := fun _ => slug

/-- The second call waits for the lock, and then finds the organisation of the first. -/
def events : List SignupEvent :=
  [.begin 1 (asks "shop-one"), .begin 2 (asks "shop-two"), .statement 1, .statement 2,
    .statement 1, .statement 2, .statement 1, .statement 1, .commit 1, .statement 2, .statement 2]

end TwoTabs

/-- A user asks for two organisations at once. -/
theorem one_signup_org_two_tabs :
    (∀ orgId orgId' userId,
      ((system TwoTabs.runtime).run (start TwoTabs.nobody) TwoTabs.events).SignupIn orgId userId →
      ((system TwoTabs.runtime).run (start TwoTabs.nobody) TwoTabs.events).SignupIn orgId' userId →
        orgId = orgId') ∧
      ∀ call c error,
        ((system TwoTabs.runtime).run (start TwoTabs.nobody) TwoTabs.events).calls call = some c →
        c.stage = .threw error →
          ¬ ((system TwoTabs.runtime).run (start TwoTabs.nobody) TwoTabs.events).Returned
              c.input.id →
          LeftNothing TwoTabs.nobody
            ((system TwoTabs.runtime).run (start TwoTabs.nobody) TwoTabs.events) c.input.id := by
  refine one_signup_org TwoTabs.runtime TwoTabs.nobody ?_ TwoTabs.events ?_ _
    (System.run_mem_states _ _ _)
  · intro orgId m hm
    exact absurd hm (Table.not_mem_empty m)
  · exact ⟨rfl, rfl, trivial, trivial, trivial, trivial, trivial, trivial, trivial, trivial,
      trivial, trivial⟩

/-- The second call is refused. -/
example : ∃ c, ((system TwoTabs.runtime).run (start TwoTabs.nobody) TwoTabs.events).calls 2 =
    some c ∧ c.stage = .threw (.http (.conflict alreadyInOrg)) :=
  ⟨_, rfl, rfl⟩

end SignupRace

end Identity
end Ctem
