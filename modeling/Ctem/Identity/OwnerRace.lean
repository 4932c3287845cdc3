import Ctem.Foundation.Runs
import Ctem.Foundation.ReadCommitted
import Ctem.Identity.OrgService

/-!
# Concurrent calls about the members of an organisation

Any number of `setRole`, `disable`, `invite` and `resolveJwt` calls, each one
transaction at read committed, statement by statement.  A statement reads what is
committed; a row that is written is locked until the transaction ends, and the writes
of a transaction appear when it commits.  Nobody writes a row more than once and no call
reads after it has written, so a transaction never sees its own writes.

The guard of the last owner counts the owners and then writes another row than those it
counted.  As long as no other transaction commits in between, the write is the one the
call makes when it runs alone (`SerialWrite`), and that one leaves an owner.  A
transaction that was overtaken may take the last owner away.
-/

namespace Ctem
namespace Identity

open Foundation Contracts

/-- A call, with the member who makes it or the user who logs in. -/
inductive OrgRequest where
  | setRole (actor : Principal) (userId : String) (role : Role)
  | disable (actor : Principal) (userId : String)
  | invite (actor : Principal) (input : InviteRequest)
  | resolveJwt (userId : Uuid) (email : String)

/-- The statement a transaction makes next. -/
inductive OrgStage where
  /-- The first read. -/
  | begun
  /-- The count of the active owners. -/
  | owners
  /-- The membership of the user who has the email of an invite. -/
  | invitee (userId : Uuid)
  /-- The newest invite of the email. -/
  | pending (existing : Option MembershipRow)
  /-- The write of an invite, with the write of a membership that follows it. -/
  | writeInvite (write : InviteWrite) (next : Option MemberWrite)
  /-- The write of a membership. -/
  | writeMember (invite : Option InviteWrite) (write : MemberWrite)
  /-- The commit. -/
  | wrote (invite : Option InviteWrite) (member : Option MemberWrite)

/-- An open transaction, with the number of commits before it began. -/
structure OrgTx where
  request : OrgRequest
  stage : OrgStage
  beganAt : Nat

/-- The committed tables, the row locks and the open transactions. -/
structure OwnerRace where
  users : Table UserRow UserRow.id
  org : OrgTables
  commits : Nat
  memberLocks : Locks Uuid Nat
  inviteLocks : Locks Uuid Nat
  txs : Nat → Option OrgTx

inductive RaceEvent where
  | begin (tx : Nat) (request : OrgRequest)
  | statement (tx : Nat) (now : Timestamp)
  | commit (tx : Nat)
  /-- A failure of any kind. -/
  | rollback (tx : Nat)
  /-- A login upserts its user, outside the transactions. -/
  | upsertUser (users : Table UserRow UserRow.id)

namespace OwnerRace

/-- No call is running. -/
def start (users : Table UserRow UserRow.id) (org : OrgTables) : OwnerRace where
  users := users
  org := org
  commits := 0
  memberLocks := Locks.empty
  inviteLocks := Locks.empty
  txs := fun _ => none

/-! ## The statements of the calls -/

section Statements

variable (platform : IdentityPlatform) (users : Table UserRow UserRow.id) (t : OrgTables)

/-- The first read of `setRole`. -/
def beginSetRole (actor : Principal) (userId : String) (role : Role) : Except OrgError OrgStage := do
  requireUserId platform userId
  let membership ← requireMembership (t.memberships.find? userId)
  assertOwnerRoleChange actor.role membership.role role
  if membership.role = .owner ∧ role ≠ .owner then .ok .owners
  else .ok (.writeMember none (.setRole userId role))

/-- The first read of `disable`. -/
def beginDisable (actor : Principal) (userId : String) (now : Timestamp) :
    Except OrgError OrgStage := do
  requireUserId platform userId
  let membership ← requireMembership (t.memberships.find? userId)
  if membership.disabledAt.isSome then .ok (.wrote none none)
  else if membership.role = .owner then
    if actor.role ≠ .owner then .error (.forbidden "Only an owner can revoke ownership")
    else .ok .owners
  else .ok (.writeMember none (.disable userId now))

/-- The first read of `invite`: the user who has the email. -/
def beginInvite (actor : Principal) (input : InviteRequest) : Except OrgError OrgStage := do
  checkInvite platform actor input.role
  match userByEmail users (normalizedEmail platform input.email) with
  | some user => .ok (.invitee user.id)
  | none => .ok (.pending none)

/-- The first read of `resolveJwt`. -/
def beginResolve (userId : Uuid) : OrgStage :=
  let membership := t.memberships.find? userId
  if alreadyMember membership then .wrote none none else .pending membership

/-- The reads of a transaction: what one finds decides the next statement. -/
def readStatement (now : Timestamp) (request : OrgRequest) (stage : OrgStage) :
    Except OrgError OrgStage :=
  match request, stage with
  | .setRole actor userId role, .begun => beginSetRole platform t actor userId role
  | .disable actor userId, .begun => beginDisable platform t actor userId now
  | .invite actor input, .begun => beginInvite platform users actor input
  | .resolveJwt userId _, .begun => .ok (beginResolve t userId)
  | .setRole _ userId role, .owners =>
      match assertNotLastActiveOwner t.countOwners with
      | .error e => .error e
      | .ok () => .ok (.writeMember none (.setRole userId role))
  | .disable _ userId, .owners =>
      match assertNotLastActiveOwner t.countOwners with
      | .error e => .error e
      | .ok () => .ok (.writeMember none (.disable userId now))
  | .invite _ _, .invitee userId =>
      let existing := t.memberships.find? userId
      if alreadyMember existing then
        .error (.conflict "User is already a member of this organization")
      else .ok (.pending existing)
  | .invite actor input, .pending _ =>
      let data := inviteData platform actor input now
      .ok (.writeInvite (inviteWrite (t.pendingInvite data.email) input data now) none)
  | .resolveJwt userId email, .pending existing =>
      match acceptPendingInvite platform t userId email existing now with
      | none => .error (.forbidden "No organization membership")
      | some writes => .ok (.writeInvite writes.2.1 (some writes.2.2))
  | _, stage => .ok stage

end Statements

/-! ## Steps -/

/-- The transaction goes on to another statement. -/
def goTo (w : OwnerRace) (tx : Nat) (open' : OrgTx) (stage : OrgStage) : OwnerRace :=
  { w with txs := Function.update w.txs tx (some { open' with stage := stage }) }

/-- The transaction ends and its locks are free. -/
def close (w : OwnerRace) (tx : Nat) : OwnerRace :=
  { w with
    memberLocks := w.memberLocks.release tx
    inviteLocks := w.inviteLocks.release tx
    txs := Function.update w.txs tx none }

/-- What follows the write of an invite. -/
def afterInvite (write : InviteWrite) (next : Option MemberWrite) : OrgStage :=
  match next with
  | some member => .writeMember (some write) member
  | none => .wrote (some write) none

/-- A membership that is created is not there. -/
def createsNew (t : OrgTables) (write : MemberWrite) : Bool :=
  match write with
  | .create userId _ => (t.memberships.find? userId).isNone
  | _ => true

def stepStatement (platform : IdentityPlatform) (w : OwnerRace) (tx : Nat) (now : Timestamp) :
    OwnerRace :=
  match w.txs tx with
  | none => w
  | some open' =>
      match open'.stage with
      | .writeInvite write next =>
          if w.inviteLocks.freeFor write.id tx then
            if w.org.lands write then
              { w with inviteLocks := w.inviteLocks.acquire write.id tx }.goTo tx open'
                (afterInvite write next)
            else w.close tx
          else w -- the lock is waited for
      | .writeMember invite write =>
          if w.memberLocks.freeFor write.userId tx then
            if createsNew w.org write then
              { w with memberLocks := w.memberLocks.acquire write.userId tx }.goTo tx open'
                (.wrote invite (some write))
            else w.close tx
          else w
      | .wrote _ _ => w
      | stage =>
          match readStatement platform w.users w.org now open'.request stage with
          | .ok next => w.goTo tx open' next
          | .error _ => w.close tx

/-- The tables with the writes of a transaction. -/
def applyWrites (t : OrgTables) (invite : Option InviteWrite) (member : Option MemberWrite) :
    OrgTables :=
  let invited := match invite with
    | some write => t.writeInvite write
    | none => t
  match member with
  | some write => invited.writeMember write
  | none => invited

def stepCommit (w : OwnerRace) (tx : Nat) : OwnerRace :=
  match w.txs tx with
  | none => w
  | some open' =>
      match open'.stage with
      | .wrote invite member =>
          { w with org := applyWrites w.org invite member, commits := w.commits + 1 }.close tx
      | _ => w

def step (platform : IdentityPlatform) (w : OwnerRace) (event : RaceEvent) : OwnerRace :=
  match event with
  | .begin tx request =>
      match w.txs tx with
      | none => { w with txs := Function.update w.txs tx (some ⟨request, .begun, w.commits⟩) }
      | some _ => w
  | .statement tx now => w.stepStatement platform tx now
  | .commit tx => w.stepCommit tx
  | .rollback tx => w.close tx
  | .upsertUser users => { w with users := users }

/-- The calls in any interleaving of their statements. -/
def system (platform : IdentityPlatform) : System OwnerRace RaceEvent where
  step := step platform
  allowed := fun _ _ => True

/-! ## What a call that runs alone writes -/

/-- The write of a membership is the one the call makes when it runs alone on the
tables. -/
def SerialWrite (platform : IdentityPlatform) (t : OrgTables) (request : OrgRequest)
    (write : MemberWrite) : Prop :=
  match request with
  | .setRole actor userId role => setRole platform t actor userId role = .ok write
  | .disable actor userId => ∃ now, disable platform t actor userId now = .ok (some write)
  | .invite _ _ => False
  | .resolveJwt userId email =>
      ∃ now found accepted,
        resolveMembership platform t userId email now = .ok (some (found, accepted, write))

variable {platform : IdentityPlatform} {t : OrgTables} {request : OrgRequest}

/-- A call that runs alone takes the ownership of no one but one of two owners. -/
theorem two_le_of_serialWrite {write : MemberWrite} (h : SerialWrite platform t request write)
    (htakes : t.TakesOwner write) : 2 ≤ t.countOwners := by
  obtain ⟨m, hfind, hbefore, hafter⟩ := htakes
  obtain ⟨hm, hkey⟩ := Table.find?_eq_some.mp hfind
  have howner : m.role = .owner ∧ m.disabledAt = none := by
    simpa [MembershipRow.activeOwner] using hbefore
  cases request with
  | setRole actor userId role =>
      obtain ⟨rfl, m₀, hm₀, hkey₀, -, hguard⟩ := setRole_ok h
      obtain rfl := Table.eq_of_key_eq hm hm₀ (hkey.trans hkey₀.symm)
      apply hguard howner.1
      intro hrole
      -- an owner who is made an owner stays one
      subst hrole
      simp [MemberWrite.data, MembershipRow.activeOwner, howner.2] at hafter
  | disable actor userId =>
      obtain ⟨now, h⟩ := h
      obtain ⟨rfl, m₀, hm₀, hkey₀, hguard⟩ := disable_ok h
      obtain rfl := Table.eq_of_key_eq hm hm₀ (hkey.trans hkey₀.symm)
      exact (hguard howner.1).2
  | invite actor input => exact h.elim
  | resolveJwt userId email =>
      -- who has an active membership accepts no invite
      obtain ⟨now, found, accepted, h⟩ := h
      obtain ⟨hnone, -, -, hwrite⟩ := resolveMembership_ok h
      simp only at hwrite
      have huser : write.userId = userId := by
        rw [hwrite]
        exact userId_acceptedMembership _ _ _
      rw [huser] at hfind
      rw [hfind] at hnone
      simp [alreadyMember, howner.2] at hnone

/-! ## What a transaction that was not overtaken knows -/

/-- The count that comes next decides the call. -/
def CountDecides (platform : IdentityPlatform) (t : OrgTables) (request : OrgRequest) : Prop :=
  assertNotLastActiveOwner t.countOwners = .ok () →
    match request with
    | .setRole actor userId role =>
        setRole platform t actor userId role = .ok (.setRole userId role)
    | .disable actor userId =>
        ∀ now, disable platform t actor userId now = .ok (some (.disable userId now))
    | _ => True

/-- The membership an invite is to be accepted for was read, and it is not active. -/
def NotYetMember (t : OrgTables) (request : OrgRequest) (existing : Option MembershipRow) : Prop :=
  match request with
  | .resolveJwt userId _ => existing = t.memberships.find? userId ∧ alreadyMember existing = false
  | _ => True

/-- What the transaction has read and is about to write is what the call reads and
writes when it runs alone on the tables. -/
def Informed (platform : IdentityPlatform) (t : OrgTables) (request : OrgRequest)
    (stage : OrgStage) : Prop :=
  match stage with
  | .owners => CountDecides platform t request
  | .pending existing => NotYetMember t request existing
  | .writeInvite _ (some write) => SerialWrite platform t request write
  | .writeMember _ write => SerialWrite platform t request write
  | .wrote _ (some write) => SerialWrite platform t request write
  | _ => True

theorem informed_beginSetRole {actor : Principal} {userId : String} {role : Role}
    {next : OrgStage} (h : beginSetRole platform t actor userId role = .ok next) :
    Informed platform t (.setRole actor userId role) next := by
  unfold beginSetRole at h
  obtain ⟨_, hid, h⟩ := bind_eq_ok.mp h
  obtain ⟨m, hfound, h⟩ := bind_eq_ok.mp h
  obtain ⟨_, hguard, h⟩ := bind_eq_ok.mp h
  split at h
  · rename_i hrevokes
    obtain rfl := Except.ok.inj h
    intro hlast
    simp only [setRole, hid, hfound, hguard, if_pos hrevokes, hlast]
  · rename_i hkeeps
    obtain rfl := Except.ok.inj h
    change setRole platform t actor userId role = .ok (.setRole userId role)
    simp [setRole, hid, hfound, hguard, hkeeps]

theorem informed_beginDisable {actor : Principal} {userId : String} {now : Timestamp}
    {next : OrgStage} (h : beginDisable platform t actor userId now = .ok next) :
    Informed platform t (.disable actor userId) next := by
  unfold beginDisable at h
  obtain ⟨_, hid, h⟩ := bind_eq_ok.mp h
  obtain ⟨m, hfound, h⟩ := bind_eq_ok.mp h
  split at h
  · obtain rfl := Except.ok.inj h
    exact trivial
  · rename_i hactive
    split at h
    · rename_i howner
      obtain ⟨hactor, h⟩ := eq_ok_of_guard h
      obtain rfl := Except.ok.inj h
      intro hlast later
      simp [disable, hid, hfound, hactive, howner, not_not.mp hactor, hlast]
    · rename_i hnot
      obtain rfl := Except.ok.inj h
      refine ⟨now, ?_⟩
      simp [disable, hid, hfound, hactive, hnot]

theorem informed_beginResolve {userId : Uuid} {email : String} :
    Informed platform t (.resolveJwt userId email) (beginResolve t userId) := by
  unfold beginResolve
  simp only
  split
  · exact trivial
  · rename_i hmember
    exact ⟨rfl, Bool.not_eq_true _ ▸ hmember⟩

/-- A read keeps what the transaction knows about the tables it reads. -/
theorem informed_readStatement {users : Table UserRow UserRow.id} {now : Timestamp}
    {stage next : OrgStage} (hinformed : Informed platform t request stage)
    (h : readStatement platform users t now request stage = .ok next) :
    Informed platform t request next := by
  unfold readStatement at h
  split at h
  · exact informed_beginSetRole h
  · exact informed_beginDisable h
  · -- an invite writes no membership
    unfold beginInvite at h
    obtain ⟨_, -, h⟩ := bind_eq_ok.mp h
    split at h
    · obtain rfl := Except.ok.inj h
      exact trivial
    · obtain rfl := Except.ok.inj h
      exact trivial
  · obtain rfl := Except.ok.inj h
    exact informed_beginResolve
  · split at h
    · cases h
    · rename_i hlast
      obtain rfl := Except.ok.inj h
      exact hinformed hlast
  · split at h
    · cases h
    · rename_i hlast
      obtain rfl := Except.ok.inj h
      exact ⟨now, hinformed hlast now⟩
  · obtain ⟨-, h⟩ := eq_ok_of_guard h
    obtain rfl := Except.ok.inj h
    exact trivial
  · obtain rfl := Except.ok.inj h
    exact trivial
  · -- the invite that is found is the one the login accepts
    rename_i userId email existing
    split at h
    · cases h
    · rename_i writes haccept
      obtain rfl := Except.ok.inj h
      obtain ⟨hexisting, hnone⟩ := hinformed
      rw [hexisting] at hnone haccept
      refine ⟨now, writes.1, writes.2.1, ?_⟩
      simp [resolveMembership, hnone, haccept]
  · obtain rfl := Except.ok.inj h
    exact hinformed

theorem informed_afterInvite {write : InviteWrite} {next : Option MemberWrite}
    (h : Informed platform t request (.writeInvite write next)) :
    Informed platform t request (afterInvite write next) := by
  cases next with
  | none => exact trivial
  | some member => exact h

/-- The open transactions began in the past, and who was not overtaken is informed about
the committed tables. -/
structure Current (platform : IdentityPlatform) (w : OwnerRace) : Prop where
  began : ∀ tx o, w.txs tx = some o → o.beganAt ≤ w.commits
  informed : ∀ tx o, w.txs tx = some o → o.beganAt = w.commits →
    Informed platform w.org o.request o.stage

variable {w : OwnerRace} {tx : Nat}

theorem current_start (users : Table UserRow UserRow.id) (org : OrgTables) :
    Current platform (start users org) := by
  constructor
  · intro tx o hopen
    cases hopen
  · intro tx o hopen
    cases hopen

theorem current_goTo {o : OrgTx} {stage : OrgStage} (h : Current platform w)
    (hopen : w.txs tx = some o)
    (hstage : Informed platform w.org o.request o.stage → Informed platform w.org o.request stage) :
    Current platform (w.goTo tx o stage) := by
  constructor
  · intro tx' o' hopen'
    rcases update_some_eq_some hopen' with ⟨rfl, rfl⟩ | ⟨-, hother⟩
    · exact h.began tx' o hopen
    · exact h.began tx' o' hother
  · intro tx' o' hopen' hbegan
    rcases update_some_eq_some hopen' with ⟨rfl, rfl⟩ | ⟨-, hother⟩
    · exact hstage (h.informed tx' o hopen hbegan)
    · exact h.informed tx' o' hother hbegan

theorem txs_close {tx' : Nat} {o : OrgTx} (h : (w.close tx).txs tx' = some o) :
    w.txs tx' = some o :=
  (update_none_eq_some h).2

theorem current_close (h : Current platform w) : Current platform (w.close tx) := by
  constructor
  · intro tx' o hopen
    exact h.began tx' o (txs_close hopen)
  · intro tx' o hopen
    exact h.informed tx' o (txs_close hopen)

theorem current_stepStatement {now : Timestamp} (h : Current platform w) :
    Current platform (w.stepStatement platform tx now) := by
  unfold stepStatement
  cases hopen : w.txs tx with
  | none => exact h
  | some o =>
      -- a lock changes nothing that a transaction reads
      have hlocked : ∀ (memberLocks inviteLocks : Locks Uuid Nat) (stage : OrgStage),
          (Informed platform w.org o.request o.stage → Informed platform w.org o.request stage) →
          Current platform
            ({ w with memberLocks := memberLocks, inviteLocks := inviteLocks }.goTo tx o stage) := by
        intro memberLocks inviteLocks stage hstage
        have hsame : Current platform
            { w with memberLocks := memberLocks, inviteLocks := inviteLocks } :=
          ⟨h.began, h.informed⟩
        exact current_goTo hsame hopen hstage
      simp only
      split
      · rename_i write next hstage
        split
        · split
          · apply hlocked
            intro hinformed
            rw [hstage] at hinformed
            exact informed_afterInvite hinformed
          · exact current_close h
        · exact h
      · rename_i invite write hstage
        split
        · split
          · apply hlocked
            intro hinformed
            rw [hstage] at hinformed
            exact hinformed
          · exact current_close h
        · exact h
      · exact h
      · split
        · rename_i next hread
          apply current_goTo h hopen
          intro hinformed
          exact informed_readStatement hinformed hread
        · exact current_close h

theorem current_step {event : RaceEvent} (h : Current platform w) :
    Current platform (w.step platform event) := by
  cases event with
  | begin tx request =>
      unfold step
      simp only
      cases hopen : w.txs tx with
      | some o => exact h
      | none =>
          constructor
          · intro tx' o hopen'
            rcases update_some_eq_some hopen' with ⟨-, rfl⟩ | ⟨-, hother⟩
            · exact Nat.le_refl _
            · exact h.began tx' o hother
          · intro tx' o hopen' hbegan
            rcases update_some_eq_some hopen' with ⟨-, rfl⟩ | ⟨-, hother⟩
            · exact trivial
            · exact h.informed tx' o hother hbegan
  | statement tx now => exact current_stepStatement h
  | commit tx =>
      change Current platform (w.stepCommit tx)
      unfold stepCommit
      cases hopen : w.txs tx with
      | none => exact h
      | some o =>
          simp only
          split
          · -- every other transaction is overtaken
            constructor
            · intro tx' o' hopen'
              exact Nat.le_succ_of_le (h.began tx' o' (txs_close hopen'))
            · intro tx' o' hopen' hbegan
              have hpast := h.began tx' o' (txs_close hopen')
              change o'.beganAt = w.commits + 1 at hbegan
              omega
          · exact h
  | rollback tx => exact current_close h
  | upsertUser users => exact ⟨h.began, h.informed⟩

/-! ## The last owner -/

/-- There is an active owner. -/
def HasOwner (w : OwnerRace) : Prop :=
  ∃ m ∈ w.org.memberships, m.role = .owner ∧ m.disabledAt = none

theorem hasOwner_iff : w.HasOwner ↔ 0 < w.org.countOwners :=
  OrgTables.countOwners_pos_iff.symm

/-- A transaction that another one overtook commits, and takes the ownership of the only
active owner away. -/
def StaleRemoval (w : OwnerRace) (event : RaceEvent) : Prop :=
  ∃ tx o invite write, event = .commit tx ∧ w.txs tx = some o ∧
    o.stage = .wrote invite (some write) ∧ o.beganAt < w.commits ∧
    w.org.TakesOwner write ∧ w.org.countOwners ≤ 1

theorem applyWrites_countOwners_none (t : OrgTables) (invite : Option InviteWrite) :
    (applyWrites t invite none).countOwners = t.countOwners := by
  cases invite <;> rfl

theorem applyWrites_countOwners_some (t : OrgTables) (invite : Option InviteWrite)
    (write : MemberWrite) :
    (applyWrites t invite (some write)).countOwners = (t.writeMember write).countOwners := by
  cases invite <;> rfl

/-- Only a commit changes the number of owners. -/
theorem org_step_of_ne_commit {event : RaceEvent} (hcommit : ∀ tx, event ≠ .commit tx) :
    (w.step platform event).org = w.org := by
  cases event with
  | begin tx request =>
      unfold step
      simp only
      split <;> rfl
  | statement tx now =>
      change (w.stepStatement platform tx now).org = w.org
      unfold stepStatement
      split
      · rfl
      · split
        · split
          · split <;> rfl
          · rfl
        · split
          · split <;> rfl
          · rfl
        · rfl
        · split <;> rfl
  | commit tx => exact absurd rfl (hcommit tx)
  | rollback tx => rfl
  | upsertUser users => rfl

/-- Nothing is committed of a transaction that has not made its writes. -/
theorem stepCommit_idle
    (hidle : ∀ o invite member, w.txs tx = some o → o.stage ≠ .wrote invite member) :
    w.stepCommit tx = w := by
  unfold stepCommit
  cases hopen : w.txs tx with
  | none => rfl
  | some o =>
      simp only
      split
      · rename_i invite member hstage
        exact absurd hstage (hidle o invite member hopen)
      · rfl

section Commit

variable {o : OrgTx} {invite : Option InviteWrite} {member : Option MemberWrite}

theorem org_stepCommit (hopen : w.txs tx = some o) (hstage : o.stage = .wrote invite member) :
    (w.stepCommit tx).org = applyWrites w.org invite member := by
  unfold stepCommit
  rw [hopen]
  simp only [hstage]
  rfl

/-- Whether a commit is a stale removal, by the write of the transaction. -/
theorem staleRemoval_commit_iff (hopen : w.txs tx = some o)
    (hstage : o.stage = .wrote invite member) :
    w.StaleRemoval (.commit tx) ↔ o.beganAt < w.commits ∧
      ∃ write, member = some write ∧ w.org.TakesOwner write ∧ w.org.countOwners ≤ 1 := by
  constructor
  · intro hstale
    obtain ⟨tx', o', invite', write, heq, hopen', hstage', hovertaken, htakes, hlast⟩ := hstale
    obtain rfl := RaceEvent.commit.inj heq
    obtain rfl := Option.some.inj (hopen.symm.trans hopen')
    obtain ⟨-, hmember⟩ := OrgStage.wrote.inj (hstage.symm.trans hstage')
    exact ⟨hovertaken, write, hmember, htakes, hlast⟩
  · intro hstale
    obtain ⟨hovertaken, write, rfl, htakes, hlast⟩ := hstale
    exact ⟨tx, o, invite, write, rfl, hopen, hstage, hovertaken, htakes, hlast⟩

/-- Who was not overtaken has counted two owners before it takes one away. -/
theorem two_le_of_not_overtaken {write : MemberWrite} (h : Current platform w)
    (hopen : w.txs tx = some o) (hstage : o.stage = .wrote invite (some write))
    (hovertaken : ¬ o.beganAt < w.commits) (htakes : w.org.TakesOwner write) :
    2 ≤ w.org.countOwners := by
  have hbegan : o.beganAt ≤ w.commits := h.began tx o hopen
  have hinformed := h.informed tx o hopen (by omega)
  rw [hstage] at hinformed
  exact two_le_of_serialWrite hinformed htakes

/-- The commit of a transaction leaves an owner precisely when it is no stale removal. -/
theorem hasOwner_commit_iff (h : Current platform w) (howner : w.HasOwner)
    (hopen : w.txs tx = some o) (hstage : o.stage = .wrote invite member) :
    (w.stepCommit tx).HasOwner ↔ ¬ w.StaleRemoval (.commit tx) := by
  have hpos : 0 < w.org.countOwners := hasOwner_iff.mp howner
  rw [hasOwner_iff, org_stepCommit hopen hstage, staleRemoval_commit_iff hopen hstage]
  cases member with
  | none =>
      rw [applyWrites_countOwners_none]
      exact iff_of_true hpos (by simp)
  | some write =>
      rw [applyWrites_countOwners_some]
      obtain ⟨hkeeps, htakes⟩ := OrgTables.countOwners_writeMember w.org write
      by_cases htaken : w.org.TakesOwner write
      · -- one owner less, which leaves one if there were two
        have hone := htakes htaken
        constructor
        · intro hafter hstale
          obtain ⟨-, _, -, -, hlast⟩ := hstale
          omega
        · intro hnot
          have htwo : 2 ≤ w.org.countOwners := by
            by_cases hovertaken : o.beganAt < w.commits
            · by_contra hlast
              exact hnot ⟨hovertaken, write, rfl, htaken, by omega⟩
            · exact two_le_of_not_overtaken h hopen hstage hovertaken htaken
          omega
      · have hkept := hkeeps htaken
        refine iff_of_true (by omega) ?_
        intro hstale
        obtain ⟨-, write', hwrite, htakes', -⟩ := hstale
        obtain rfl := Option.some.inj hwrite
        exact htaken htakes'

end Commit

/-- A step leaves an owner precisely when it is no stale removal of the only one. -/
theorem hasOwner_step_iff {event : RaceEvent} (h : Current platform w) (howner : w.HasOwner) :
    (w.step platform event).HasOwner ↔ ¬ w.StaleRemoval event := by
  by_cases hcommit : ∃ tx, event = .commit tx
  · obtain ⟨tx, rfl⟩ := hcommit
    change (w.stepCommit tx).HasOwner ↔ _
    by_cases hwrote : ∃ o invite member, w.txs tx = some o ∧ o.stage = .wrote invite member
    · obtain ⟨o, invite, member, hopen, hstage⟩ := hwrote
      exact hasOwner_commit_iff h howner hopen hstage
    · rw [stepCommit_idle (fun o invite member hopen hstage =>
        hwrote ⟨o, invite, member, hopen, hstage⟩)]
      refine iff_of_true howner ?_
      intro hstale
      obtain ⟨tx', o, invite, write, heq, hopen, hstage, -⟩ := hstale
      obtain rfl := RaceEvent.commit.inj heq
      exact hwrote ⟨o, invite, some write, hopen, hstage⟩
  · have hne : ∀ tx, event ≠ .commit tx := fun tx heq => hcommit ⟨tx, heq⟩
    unfold HasOwner
    rw [org_step_of_ne_commit hne]
    refine iff_of_true howner ?_
    intro hstale
    obtain ⟨tx, _, _, _, heq, -⟩ := hstale
    exact hne tx heq

namespace TwoOwners

def anna : Uuid := "6f1c1a52-3f0e-4b7a-9a53-0c6d5e1b7a01"

def ben : Uuid := "6f1c1a52-3f0e-4b7a-9a53-0c6d5e1b7a02"

/-- The ids are well formed and the texts trimmed lower-case ones. -/
def runtime : IdentityPlatform where
  isUserId := fun text => decide (text = anna) || decide (text = ben)
  trim := fun text => text
  toLowerCase := fun text => text
  sha256Hex := fun text => text

/-- An organisation of two owners. -/
def org : OrgTables where
  memberships := ⟨[⟨anna, .owner, none, true⟩, ⟨ben, .owner, none, false⟩], by decide⟩
  invites := Table.empty

/-- One makes the other an admin. -/
def demotes (actorId userId : Uuid) : OrgRequest :=
  .setRole ⟨actorId, .owner⟩ userId .admin

end TwoOwners

/-- **The last owner.**  From a state with an active owner, the runs whose states all
have one are precisely those in which no overtaken transaction takes the ownership of the
only active owner away. -/
theorem every_org_keeps_owner_iff (platform : IdentityPlatform) (users : Table UserRow UserRow.id)
    (org : OrgTables) (events : List RaceEvent)
    (howner : ∃ m ∈ org.memberships, m.role = .owner ∧ m.disabledAt = none) :
    (∀ w ∈ (system platform).states (start users org) events,
      ∃ m ∈ w.org.memberships, m.role = .owner ∧ m.disabledAt = none) ↔
      (system platform).AllSteps (fun w event => ¬ w.StaleRemoval event)
        (start users org) events := by
  have hlegal : (system platform).Legal (start users org) events :=
    (system platform).legal_of_forall_allowed (fun _ _ => trivial) _ _
  exact (system platform).forall_states_iff_allSteps
    (fun _ _ hI _ => current_step hI) (fun _ _ hI hQ _ => hasOwner_step_iff hI hQ)
    (current_start users org) howner hlegal

/-- One of two owners demotes the other. -/
theorem every_org_keeps_owner_alone :
    (system TwoOwners.runtime).AllSteps (fun w event => ¬ w.StaleRemoval event)
      (start Table.empty TwoOwners.org)
      [.begin 1 (TwoOwners.demotes TwoOwners.anna TwoOwners.ben), .statement 1 0,
        .statement 1 0, .statement 1 0, .commit 1] := by
  refine (every_org_keeps_owner_iff TwoOwners.runtime Table.empty TwoOwners.org _
    ⟨⟨TwoOwners.anna, .owner, none, true⟩, List.mem_cons_self, rfl, rfl⟩).mp ?_
  intro w hw
  apply OrgTables.countOwners_pos_iff.mp
  have hall : ((system TwoOwners.runtime).states (start Table.empty TwoOwners.org)
      [.begin 1 (TwoOwners.demotes TwoOwners.anna TwoOwners.ben), .statement 1 0,
        .statement 1 0, .statement 1 0, .commit 1]).all
      (fun w => decide (0 < w.org.countOwners)) = true := by
    decide
  exact of_decide_eq_true (List.all_eq_true.mp hall w hw)

/-- Two owners demote each other at once: each counts two owners, and none is left. -/
theorem crossed_demotions_leave_no_owner :
    ¬ ∀ (platform : IdentityPlatform) (users : Table UserRow UserRow.id) (org : OrgTables)
      (events : List RaceEvent),
      (∃ m ∈ org.memberships, m.role = .owner ∧ m.disabledAt = none) →
      ∀ w ∈ (system platform).states (start users org) events,
        ∃ m ∈ w.org.memberships, m.role = .owner ∧ m.disabledAt = none := by
  intro hclaim
  have hlast := hclaim TwoOwners.runtime Table.empty TwoOwners.org
    [.begin 1 (TwoOwners.demotes TwoOwners.anna TwoOwners.ben),
      .begin 2 (TwoOwners.demotes TwoOwners.ben TwoOwners.anna),
      .statement 1 0, .statement 2 0, .statement 1 0, .statement 2 0,
      .statement 1 0, .statement 2 0, .commit 1, .commit 2]
    ⟨⟨TwoOwners.anna, .owner, none, true⟩, List.mem_cons_self, rfl, rfl⟩ _
    ((system TwoOwners.runtime).run_mem_states _ _)
  have hpos := OrgTables.countOwners_pos_iff.mpr hlast
  exact absurd hpos (by decide)

end OwnerRace

end Identity
end Ctem
