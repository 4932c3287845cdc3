import Ctem.Foundation.Runs
import Ctem.Identity.OrgService

/-!
# Where ownership comes from

One organisation under calls taken one at a time, from the call that creates it.  A
call is made by a member: its role is that of the member's active membership, and who
has none makes no call.  Two columns that the tables do not have record the history:

* `origins` is how a user's membership got its present role;
* `invitedAs` is the role of the member who last wrote an invite.

`OwnersJustified` is the invariant.  It speaks of all owner rows and not of the active
ones only, since an accepted invite makes a disabled row active again, and of the
invites, since a pending one is a role that is still to be given.
-/

namespace Ctem
namespace Identity

open Foundation Contracts

/-- How a membership got its role. -/
inductive RoleOrigin where
  | createdWithOrg
  | setRole (actorRole : Role)
  | invite (actorRole : Role)
deriving DecidableEq

/-- The organisation, the users of all organisations, and the history. -/
structure OrgWorld where
  users : Table UserRow UserRow.id
  org : OrgTables
  origins : Uuid → Option RoleOrigin
  invitedAs : Uuid → Option Role

inductive OrgCall where
  | setRole (actorId userId : String) (role : Role)
  | invite (actorId : String) (input : InviteRequest) (now : Timestamp)
  | disable (actorId userId : String) (now : Timestamp)
  | resolveJwt (input : Claims) (newId : Uuid) (now : Timestamp)
  /-- Calls about other organisations, which share the users. -/
  | elsewhere (users : Table UserRow UserRow.id)

namespace OrgWorld

/-- The world after `createOrg`. -/
def created (users : Table UserRow UserRow.id) (ownerUserId : Uuid) : OrgWorld where
  users := users
  org := createOrg ownerUserId
  origins := fun userId => if userId = ownerUserId then some .createdWithOrg else none
  invitedAs := fun _ => none

/-- The member who makes a call. -/
def principal (w : OrgWorld) (actorId : String) : Option Principal :=
  match w.org.memberships.find? actorId with
  | some m => if m.disabledAt.isNone then some ⟨actorId, m.role⟩ else none
  | none => none

/-- The write of a membership and where its role comes from. -/
def writeRole (w : OrgWorld) (write : MemberWrite) (origin : Option RoleOrigin) : OrgWorld :=
  { w with
    org := w.org.writeMember write
    origins := Function.update w.origins write.userId origin }

/-- The write of an invite and who wrote it. -/
def writeInvite (w : OrgWorld) (write : InviteWrite) (actorRole : Role) : OrgWorld :=
  { w with
    org := w.org.writeInvite write
    invitedAs := Function.update w.invitedAs write.id (some actorRole) }

/-- The writes of a login that accepts an invite. -/
def accept (w : OrgWorld) (writes : InviteRow × InviteWrite × MemberWrite) : OrgWorld :=
  { w with org := w.org.writeInvite writes.2.1 }.writeRole writes.2.2
    ((w.invitedAs writes.1.id).map .invite)

variable (platform : IdentityPlatform)

def stepSetRole (w : OrgWorld) (actor : Principal) (userId : String) (role : Role) : OrgWorld :=
  match setRole platform w.org actor userId role with
  | .error _ => w
  | .ok write => w.writeRole write (some (.setRole actor.role))

def stepInvite (w : OrgWorld) (actor : Principal) (input : InviteRequest) (now : Timestamp) :
    OrgWorld :=
  match invite platform w.org w.users actor input now with
  | .error _ => w
  | .ok write => if w.org.lands write then w.writeInvite write actor.role else w

def stepDisable (w : OrgWorld) (actor : Principal) (userId : String) (now : Timestamp) : OrgWorld :=
  match disable platform w.org actor userId now with
  | .ok (some write) => { w with org := w.org.writeMember write }
  | _ => w

def stepResolveJwt (w : OrgWorld) (input : Claims) (newId : Uuid) (now : Timestamp) : OrgWorld :=
  let resolved := resolveJwt platform w.users w.org input newId now
  match resolved.2 with
  | .ok (some writes) => { w with users := resolved.1 }.accept writes
  | _ => { w with users := resolved.1 }

def step (w : OrgWorld) (call : OrgCall) : OrgWorld :=
  match call with
  | .setRole actorId userId role =>
      match w.principal actorId with
      | some actor => w.stepSetRole platform actor userId role
      | none => w
  | .invite actorId input now =>
      match w.principal actorId with
      | some actor => w.stepInvite platform actor input now
      | none => w
  | .disable actorId userId now =>
      match w.principal actorId with
      | some actor => w.stepDisable platform actor userId now
      | none => w
  | .resolveJwt input newId now => w.stepResolveJwt platform input newId now
  | .elsewhere users => { w with users := users }

/-- The organisation under calls taken one at a time. -/
def system : System OrgWorld OrgCall where
  step := step platform
  allowed := fun _ _ => True

/-- The call is made by an owner. -/
def ByOwner (w : OrgWorld) (call : OrgCall) : Prop :=
  match call with
  | .setRole actorId _ _ | .invite actorId _ _ | .disable actorId _ _ =>
      ∃ actor, w.principal actorId = some actor ∧ actor.role = .owner
  | .resolveJwt _ _ _ | .elsewhere _ => False

/-- The ownership of a user was created with the organisation or given by an owner. -/
def Justified (ownerUserId : Uuid) (w : OrgWorld) (userId : Uuid) : Prop :=
  (userId = ownerUserId ∧ w.origins userId = some .createdWithOrg) ∨
    w.origins userId = some (.setRole .owner) ∨ w.origins userId = some (.invite .owner)

/-- Every owner is justified, and every invite as owner was written by an owner. -/
structure OwnersJustified (ownerUserId : Uuid) (w : OrgWorld) : Prop where
  owners : ∀ m ∈ w.org.memberships, m.role = .owner → Justified ownerUserId w m.userId
  invites : ∀ i ∈ w.org.invites, i.role = .owner → w.invitedAs i.id = some .owner

/-! ## What the writes keep -/

variable {platform} {ownerUserId : Uuid} {w : OrgWorld}

theorem ownersJustified_created (users : Table UserRow UserRow.id) (ownerUserId : Uuid) :
    OwnersJustified ownerUserId (created users ownerUserId) := by
  constructor
  · intro m hm _
    have hrow : m = ⟨ownerUserId, .owner, none, true⟩ := List.mem_singleton.mp hm
    subst hrow
    exact Or.inl ⟨rfl, if_pos rfl⟩
  · intro i hi _
    exact absurd hi (Table.not_mem_empty i)

theorem justified_writeRole_ne {write : MemberWrite} {origin : Option RoleOrigin} {userId : Uuid}
    (hne : userId ≠ write.userId) (h : Justified ownerUserId w userId) :
    Justified ownerUserId (w.writeRole write origin) userId := by
  have hsame : (w.writeRole write origin).origins userId = w.origins userId :=
    Function.update_of_ne hne _ _
  unfold Justified at h ⊢
  rw [hsame]
  exact h

theorem justified_writeRole_self {write : MemberWrite} {origin : RoleOrigin}
    (h : origin = .setRole .owner ∨ origin = .invite .owner) :
    Justified ownerUserId (w.writeRole write (some origin)) write.userId := by
  have hnew : (w.writeRole write (some origin)).origins write.userId = some origin :=
    Function.update_self _ _ _
  unfold Justified
  rw [hnew]
  rcases h with rfl | rfl
  · exact Or.inr (Or.inl rfl)
  · exact Or.inr (Or.inr rfl)

/-- A written membership keeps the invariant if the role it leaves is justified. -/
theorem ownersJustified_writeRole {write : MemberWrite} {origin : Option RoleOrigin}
    (h : OwnersJustified ownerUserId w)
    (hrole : ∀ m ∈ (w.org.writeMember write).memberships, m.userId = write.userId →
      m.role = .owner → Justified ownerUserId (w.writeRole write origin) write.userId) :
    OwnersJustified ownerUserId (w.writeRole write origin) := by
  constructor
  · intro m hm howner
    by_cases hkey : m.userId = write.userId
    · rw [hkey]
      exact hrole m hm hkey howner
    · -- a row of another user was there before
      have hold : m ∈ w.org.memberships := by
        rcases OrgTables.mem_writeMember hm with ⟨hmem, -⟩ | ⟨m₀, -, hm₀, rfl⟩ | ⟨role, hwrite, -⟩
        · exact hmem
        · exact absurd ((write.data_userId m₀).trans hm₀) hkey
        · exact absurd (by rw [hwrite]; rfl) hkey
      exact justified_writeRole_ne hkey (h.owners m hold howner)
  · exact h.invites

/-! ## What each call keeps -/

theorem ownersJustified_stepSetRole {actor : Principal} {userId : String} {role : Role}
    (h : OwnersJustified ownerUserId w) :
    OwnersJustified ownerUserId (w.stepSetRole platform actor userId role) := by
  unfold stepSetRole
  cases hset : setRole platform w.org actor userId role with
  | error e => exact h
  | ok write =>
      obtain ⟨rfl, m₀, -, -, hallowed, -⟩ := setRole_ok hset
      apply ownersJustified_writeRole h
      intro m hm hkey howner
      have hrole : m.role = role := by
        rcases OrgTables.mem_writeMember hm with ⟨-, hcreate⟩ | ⟨m₁, -, -, rfl⟩ | ⟨_, hwrite, -⟩
        · obtain ⟨_, hwrite⟩ := hcreate hkey
          cases hwrite
        · rfl
        · cases hwrite
      rw [hrole] at howner
      rcases hallowed with hactor | ⟨hnot, -⟩
      · apply justified_writeRole_self
        exact Or.inl (by rw [hactor])
      · exact absurd howner hnot

theorem ownersJustified_stepInvite {actor : Principal} {input : InviteRequest} {now : Timestamp}
    (h : OwnersJustified ownerUserId w) :
    OwnersJustified ownerUserId (w.stepInvite platform actor input now) := by
  unfold stepInvite
  cases hinvite : invite platform w.org w.users actor input now with
  | error e => exact h
  | ok write =>
      simp only
      split
      · rename_i hlands
        obtain ⟨hgrant, hwrite⟩ := invite_ok hinvite
        constructor
        · exact h.owners
        · intro i hi howner
          have hdata : (inviteData platform actor input now).role = input.role := rfl
          -- an invite that is written is as owner only if its author is one
          have hself : i.id = write.id → i.role = input.role →
              (w.writeInvite write actor.role).invitedAs i.id = some .owner := by
            intro hid hrole
            change Function.update w.invitedAs write.id (some actor.role) i.id = some .owner
            rw [hid, Function.update_self, hgrant (hrole ▸ howner)]
          rcases OrgTables.mem_writeInvite hlands hi with
            ⟨hold, hne⟩ | ⟨i₀, hi₀, hid, rfl⟩ | ⟨data, createdAt, hcreate, hrow⟩
          · change Function.update w.invitedAs write.id (some actor.role) i.id = some .owner
            rw [Function.update_of_ne hne]
            exact h.invites i hold howner
          · apply hself
            · exact (write.data_id i₀).trans hid
            · rcases hwrite with ⟨pending, -, rfl⟩ | rfl
              · exact hdata
              · have hnone : w.org.invites.find? input.id = none :=
                  Option.isNone_iff_eq_none.mp hlands
                exact absurd hid (Table.find?_eq_none.mp hnone i₀ hi₀)
          · apply hself
            · rw [hcreate]
              rfl
            · rcases hwrite with ⟨pending, -, rfl⟩ | rfl
              · cases hcreate
              · obtain ⟨-, hnew, -⟩ := InviteWrite.create.inj hcreate
                rw [hrow, ← hnew]
                exact hdata
      · exact h

theorem ownersJustified_stepDisable {actor : Principal} {userId : String} {now : Timestamp}
    (h : OwnersJustified ownerUserId w) :
    OwnersJustified ownerUserId (w.stepDisable platform actor userId now) := by
  unfold stepDisable
  split
  · rename_i write hdisable
    obtain ⟨rfl, -⟩ := disable_ok hdisable
    constructor
    · intro m hm howner
      -- the role of a row is what it was
      rcases OrgTables.mem_writeMember hm with ⟨hmem, -⟩ | ⟨m₀, hm₀, -, rfl⟩ | ⟨_, hwrite, -⟩
      · exact h.owners m hmem howner
      · exact h.owners m₀ hm₀ howner
      · cases hwrite
    · exact h.invites
  · exact h

/-- The role an accepted invite gives is the role of the invite. -/
theorem role_of_acceptedMembership {t : OrgTables} {userId : Uuid} {role : Role}
    {m : MembershipRow}
    (hm : m ∈ (t.writeMember
      (acceptedMembership (t.memberships.find? userId) userId role)).memberships)
    (hkey : m.userId = userId) : m.role = role := by
  cases hfind : t.memberships.find? userId with
  | some m₀ =>
      rw [hfind] at hm
      change m ∈ (t.writeMember (.restore userId role)).memberships at hm
      rcases OrgTables.mem_writeMember hm with ⟨-, hcreate⟩ | ⟨m₁, -, -, rfl⟩ | ⟨_, hwrite, -⟩
      · obtain ⟨_, hwrite⟩ := hcreate hkey
        cases hwrite
      · rfl
      · cases hwrite
  | none =>
      rw [hfind] at hm
      change m ∈ (t.writeMember (.create userId role)).memberships at hm
      rcases OrgTables.mem_writeMember hm with ⟨hmem, -⟩ | ⟨m₁, hm₁, hkey₁, -⟩ | ⟨_, hwrite, hrow⟩
      · exact absurd hkey (Table.find?_eq_none.mp hfind m hmem)
      · exact absurd hkey₁ (Table.find?_eq_none.mp hfind m₁ hm₁)
      · cases hwrite
        rw [hrow]

theorem ownersJustified_stepResolveJwt {input : Claims} {newId : Uuid} {now : Timestamp}
    (h : OwnersJustified ownerUserId w) :
    OwnersJustified ownerUserId (w.stepResolveJwt platform input newId now) := by
  unfold stepResolveJwt
  simp only
  split
  · rename_i writes hresolve
    obtain ⟨user, -, hmember⟩ := resolveJwt_ok hresolve
    obtain ⟨-, hin, haccept, hwrite⟩ := resolveMembership_ok hmember
    obtain ⟨found, accepted, write⟩ := writes
    simp only at hin haccept hwrite
    subst haccept
    subst hwrite
    -- accepting touches neither the role nor the id of an invite
    have hinvites : OwnersJustified ownerUserId
        { w with
          users := (resolveJwt platform w.users w.org input newId now).1
          org := w.org.writeInvite (.accept found.id now) } := by
      constructor
      · exact h.owners
      · intro i hi howner
        rcases OrgTables.mem_writeInvite rfl hi with ⟨hold, -⟩ | ⟨i₀, hi₀, -, rfl⟩ | ⟨_, _, hcreate, -⟩
        · exact h.invites i hold howner
        · exact h.invites i₀ hi₀ howner
        · cases hcreate
    apply ownersJustified_writeRole hinvites
    intro m hm hkey howner
    have huser := userId_acceptedMembership (w.org.memberships.find? user.id) user.id found.role
    have hrole : m.role = found.role :=
      role_of_acceptedMembership (t := w.org.writeInvite (.accept found.id now)) hm
        (hkey.trans huser)
    have hauthor : w.invitedAs found.id = some .owner := h.invites found hin (hrole ▸ howner)
    have horigin : (w.invitedAs found.id).map RoleOrigin.invite = some (.invite .owner) := by
      rw [hauthor]
      rfl
    simp only [horigin]
    exact justified_writeRole_self (Or.inr rfl)
  · exact ⟨h.owners, h.invites⟩

theorem ownersJustified_step {call : OrgCall} (h : OwnersJustified ownerUserId w) :
    OwnersJustified ownerUserId (w.step platform call) := by
  cases call with
  | setRole actorId userId role =>
      unfold step
      simp only
      split
      · exact ownersJustified_stepSetRole h
      · exact h
  | invite actorId input now =>
      unfold step
      simp only
      split
      · exact ownersJustified_stepInvite h
      · exact h
  | disable actorId userId now =>
      unfold step
      simp only
      split
      · exact ownersJustified_stepDisable h
      · exact h
  | resolveJwt input newId now => exact ownersJustified_stepResolveJwt h
  | elsewhere users => exact ⟨h.owners, h.invites⟩

/-! ## What a call by someone else leaves -/

section ActiveOwner

variable {m : MembershipRow}

/-- Only an owner changes the role of an owner. -/
theorem activeOwner_stepSetRole {actor : Principal} {userId : String} {role : Role}
    (hnot : actor.role ≠ .owner) (hm : m ∈ w.org.memberships) (howner : m.role = .owner) :
    m ∈ (w.stepSetRole platform actor userId role).org.memberships := by
  unfold stepSetRole
  cases hset : setRole platform w.org actor userId role with
  | error e => exact hm
  | ok write =>
      obtain ⟨rfl, m₀, hm₀, hkey₀, hallowed, -⟩ := setRole_ok hset
      apply OrgTables.mem_writeMember_of_ne hm
      intro hkey
      obtain rfl := Table.eq_of_key_eq hm hm₀ (hkey.trans hkey₀.symm)
      rcases hallowed with hrole | ⟨-, hrole⟩
      · exact hnot hrole
      · exact hrole howner

/-- Only an owner disables an owner. -/
theorem activeOwner_stepDisable {actor : Principal} {userId : String} {now : Timestamp}
    (hnot : actor.role ≠ .owner) (hm : m ∈ w.org.memberships) (howner : m.role = .owner) :
    m ∈ (w.stepDisable platform actor userId now).org.memberships := by
  unfold stepDisable
  split
  · rename_i write hdisable
    obtain ⟨rfl, m₀, hm₀, hkey₀, hguard⟩ := disable_ok hdisable
    apply OrgTables.mem_writeMember_of_ne hm
    intro hkey
    obtain rfl := Table.eq_of_key_eq hm hm₀ (hkey.trans hkey₀.symm)
    exact hnot (hguard howner).1
  · exact hm

/-- A login writes no active membership: who has one accepts no invite. -/
theorem active_stepResolveJwt {input : Claims} {newId : Uuid} {now : Timestamp}
    (hm : m ∈ w.org.memberships) (hactive : m.disabledAt = none) :
    m ∈ (w.stepResolveJwt platform input newId now).org.memberships := by
  unfold stepResolveJwt
  simp only
  split
  · rename_i writes hresolve
    obtain ⟨user, -, hmember⟩ := resolveJwt_ok hresolve
    obtain ⟨hnone, -, -, hwrite⟩ := resolveMembership_ok hmember
    have huser : writes.2.2.userId = user.id := by
      rw [hwrite]
      exact userId_acceptedMembership _ _ _
    have hkept : m ∈ ((w.org.writeInvite writes.2.1).writeMember writes.2.2).memberships := by
      apply OrgTables.mem_writeMember_of_ne hm
      intro hkey
      have hfind : w.org.memberships.find? user.id = some m :=
        Table.find?_eq_some.mpr ⟨hm, hkey.trans huser⟩
      rw [hfind] at hnone
      simp [alreadyMember, hactive] at hnone
    exact hkept
  · exact hm

/-- A call that no owner makes leaves an active owner's membership as it is. -/
theorem activeOwner_step {call : OrgCall} (hcall : ¬ w.ByOwner call)
    (hm : m ∈ w.org.memberships) (howner : m.role = .owner) (hactive : m.disabledAt = none) :
    m ∈ (w.step platform call).org.memberships := by
  cases call with
  | setRole actorId userId role =>
      unfold step
      simp only
      split
      · rename_i actor hactor
        have hnot : actor.role ≠ .owner := fun hrole => hcall ⟨actor, hactor, hrole⟩
        exact activeOwner_stepSetRole hnot hm howner
      · exact hm
  | invite actorId input now =>
      -- an invite writes no membership
      unfold step
      simp only
      split
      · unfold stepInvite
        split
        · exact hm
        · split <;> exact hm
      · exact hm
  | disable actorId userId now =>
      unfold step
      simp only
      split
      · rename_i actor hactor
        have hnot : actor.role ≠ .owner := fun hrole => hcall ⟨actor, hactor, hrole⟩
        exact activeOwner_stepDisable hnot hm howner
      · exact hm
  | resolveJwt input newId now => exact active_stepResolveJwt hm hactive
  | elsewhere users => exact hm

end ActiveOwner

/-! ## Runs -/

/-- **Ownership flows only from owners.**  In every state of every run from the creation
of the organisation, an active owner is the one it was created with or got the role from
a `setRole` or an invite by an owner, and no step that no owner makes touches the
membership of an active owner. -/
theorem ownership_flows_from_owners (platform : IdentityPlatform)
    (users : Table UserRow UserRow.id) (ownerUserId : Uuid) (calls : List OrgCall) :
    (∀ w ∈ (system platform).states (created users ownerUserId) calls,
      ∀ m ∈ w.org.memberships, m.role = .owner → m.disabledAt = none →
        Justified ownerUserId w m.userId) ∧
      (system platform).AllSteps
        (fun w call => ¬ w.ByOwner call → ∀ m ∈ w.org.memberships,
          m.role = .owner → m.disabledAt = none →
            m ∈ (w.step platform call).org.memberships)
        (created users ownerUserId) calls := by
  have hlegal : (system platform).Legal (created users ownerUserId) calls :=
    (system platform).legal_of_forall_allowed (fun _ _ => trivial) _ _
  constructor
  · intro w hw m hm howner _
    have hinv := (system platform).forall_states_of_allSteps
      (fun _ _ hI _ => ownersJustified_step hI)
      (ownersJustified_created users ownerUserId) hlegal w hw
    exact hinv.owners m hm howner
  · refine System.AllSteps.imp (system platform) (fun _ _ hI _ => ownersJustified_step hI) ?_
      (ownersJustified_created users ownerUserId) hlegal
    intro w call _ _ hcall m hm howner hactive
    exact activeOwner_step hcall hm howner hactive

end OrgWorld

end Identity
end Ctem
