import Ctem.Contracts
import Ctem.Foundation.Table
import Ctem.Foundation.JsText

/-!
# Members and invites of an organisation

`memberships` and `membership_invites` as a `withOrg` transaction of the organisation
sees them, and the global `users`.  What a service call writes is data: `MemberWrite`
and `InviteWrite`, with one function each that applies them, so that a call that runs
alone and a call whose statements interleave with others make the same writes.

`countOwners_apply` is what a write does to the number of active owners.
-/

namespace Ctem
namespace Identity

open Foundation Contracts

inductive Role where
  | owner | admin | securityAnalyst | developer | auditor
deriving DecidableEq, Repr

/-- A row of `users`. -/
structure UserRow where
  id : Uuid
  email : String
  name : String
  idpSubject : String
  disabledAt : Option Timestamp := none
deriving DecidableEq

/-- A row of `memberships` of the organisation. -/
structure MembershipRow where
  userId : Uuid
  role : Role
  disabledAt : Option Timestamp := none
  viaSignup : Bool := false
deriving DecidableEq

/-- A row of `membership_invites` of the organisation. -/
structure InviteRow where
  id : Uuid
  email : String
  role : Role
  tokenHash : String
  invitedBy : Uuid
  expiresAt : Timestamp
  acceptedAt : Option Timestamp := none
  createdAt : Timestamp
deriving DecidableEq

/-- `role: 'owner', disabledAt: null`. -/
def MembershipRow.activeOwner (m : MembershipRow) : Bool :=
  decide (m.role = .owner) && m.disabledAt.isNone

/-- The organisation's tables. -/
structure OrgTables where
  memberships : Table MembershipRow MembershipRow.userId
  invites : Table InviteRow InviteRow.id

/-! ## Writes -/

/-- What the service writes to `memberships`. -/
inductive MemberWrite where
  | setRole (userId : Uuid) (role : Role)
  | disable (userId : Uuid) (now : Timestamp)
  /-- An accepted invite on a membership that is there. -/
  | restore (userId : Uuid) (role : Role)
  /-- An accepted invite where there is no membership. -/
  | create (userId : Uuid) (role : Role)

namespace MemberWrite

def userId : MemberWrite → Uuid
  | .setRole userId _ => userId
  | .disable userId _ => userId
  | .restore userId _ => userId
  | .create userId _ => userId

/-- The columns an update sets. -/
def data : MemberWrite → MembershipRow → MembershipRow
  | .setRole _ role, m => { m with role := role }
  | .disable _ now, m => { m with disabledAt := some now }
  | .restore _ role, m => { m with role := role, disabledAt := none, viaSignup := false }
  | .create _ _, m => m

theorem data_userId (write : MemberWrite) (m : MembershipRow) :
    (write.data m).userId = m.userId := by
  cases write <;> rfl

def apply (write : MemberWrite) (t : Table MembershipRow MembershipRow.userId) :
    Table MembershipRow MembershipRow.userId :=
  match write with
  | .create userId role => t.ensure ⟨userId, role, none, false⟩
  | write => t.modify write.userId write.data write.data_userId

end MemberWrite

/-- The columns `invite` writes. -/
structure InviteData where
  email : String
  role : Role
  tokenHash : String
  invitedBy : Uuid
  expiresAt : Timestamp
deriving DecidableEq

/-- What the service writes to `membership_invites`. -/
inductive InviteWrite where
  | accept (id : Uuid) (now : Timestamp)
  | update (id : Uuid) (data : InviteData)
  | create (id : Uuid) (data : InviteData) (createdAt : Timestamp)

namespace InviteWrite

def id : InviteWrite → Uuid
  | .accept id _ => id
  | .update id _ => id
  | .create id _ _ => id

/-- The row of a new invite. -/
def newRow (id : Uuid) (data : InviteData) (createdAt : Timestamp) : InviteRow where
  id := id
  email := data.email
  role := data.role
  tokenHash := data.tokenHash
  invitedBy := data.invitedBy
  expiresAt := data.expiresAt
  acceptedAt := none
  createdAt := createdAt

/-- The columns an update sets. -/
def data : InviteWrite → InviteRow → InviteRow
  | .accept _ now, i => { i with acceptedAt := some now }
  | .update _ data, i =>
      { i with
        email := data.email
        role := data.role
        tokenHash := data.tokenHash
        invitedBy := data.invitedBy
        expiresAt := data.expiresAt
        acceptedAt := none }
  | .create _ _ _, i => i

theorem data_id (write : InviteWrite) (i : InviteRow) : (write.data i).id = i.id := by
  cases write <;> rfl

def apply (write : InviteWrite) (t : Table InviteRow InviteRow.id) : Table InviteRow InviteRow.id :=
  match write with
  | .create id data createdAt => t.ensure (newRow id data createdAt)
  | write => t.modify write.id write.data write.data_id

end InviteWrite

namespace OrgTables

/-- `membership.count({ where: { role: 'owner', disabledAt: null } })`. -/
def countOwners (t : OrgTables) : Nat :=
  t.memberships.count MembershipRow.activeOwner

def writeMember (t : OrgTables) (write : MemberWrite) : OrgTables :=
  { t with memberships := write.apply t.memberships }

def writeInvite (t : OrgTables) (write : InviteWrite) : OrgTables :=
  { t with invites := write.apply t.invites }

/-- The id a new invite draws is not taken. -/
def lands (t : OrgTables) (write : InviteWrite) : Bool :=
  match write with
  | .create id _ _ => (t.invites.find? id).isNone
  | _ => true

/-- The newest of the invites that satisfy `p`: `findFirst` ordered by `createdAt`. -/
def newestInvite (t : OrgTables) (p : InviteRow → Bool) : Option InviteRow :=
  (t.invites.rows.filter p).foldl
    (fun best i =>
      match best with
      | none => some i
      | some b => if b.createdAt < i.createdAt then some i else some b) none

/-- The invite `invite` overwrites. -/
def pendingInvite (t : OrgTables) (email : String) : Option InviteRow :=
  t.newestInvite fun i => decide (i.email = email) && i.acceptedAt.isNone

/-- The invite a login accepts. -/
def acceptableInvite (t : OrgTables) (email : String) (now : Timestamp) : Option InviteRow :=
  t.newestInvite fun i =>
    decide (i.email = email) && i.acceptedAt.isNone && decide (i.expiresAt > now)

/-! ## What a read finds -/

theorem newestInvite_some {t : OrgTables} {p : InviteRow → Bool} {i : InviteRow}
    (h : t.newestInvite p = some i) : i ∈ t.invites ∧ p i = true := by
  have hfold : ∀ (rows : List InviteRow) (best : Option InviteRow),
      rows.foldl (fun best i =>
        match best with
        | none => some i
        | some b => if b.createdAt < i.createdAt then some i else some b) best = some i →
      best = some i ∨ i ∈ rows := by
    intro rows
    induction rows with
    | nil =>
        intro best hbest
        exact Or.inl hbest
    | cons row rows ih =>
        intro best hbest
        rw [List.foldl_cons] at hbest
        rcases ih _ hbest with hnow | hlater
        · cases best with
          | none =>
              obtain rfl := Option.some.inj hnow
              exact Or.inr List.mem_cons_self
          | some b =>
              simp only at hnow
              split at hnow
              · obtain rfl := Option.some.inj hnow
                exact Or.inr List.mem_cons_self
              · exact Or.inl hnow
        · exact Or.inr (List.mem_cons_of_mem _ hlater)
  rcases hfold _ none h with hnone | hmem
  · cases hnone
  · obtain ⟨hin, hp⟩ := List.mem_filter.mp hmem
    exact ⟨hin, hp⟩

/-! ## What a write leaves -/

/-- A membership after a write was there, is the rewritten one, or is new. -/
theorem mem_writeMember {t : OrgTables} {write : MemberWrite} {m : MembershipRow}
    (h : m ∈ (t.writeMember write).memberships) :
    (m ∈ t.memberships ∧ (m.userId = write.userId → ∃ role, write = .create m.userId role)) ∨
      (∃ m₀ ∈ t.memberships, m₀.userId = write.userId ∧ m = write.data m₀) ∨
      ∃ role, write = .create m.userId role ∧ m = ⟨m.userId, role, none, false⟩ := by
  have hupdate : m ∈ t.memberships.modify write.userId write.data write.data_userId →
      (m ∈ t.memberships ∧ m.userId ≠ write.userId) ∨
        ∃ m₀ ∈ t.memberships, m₀.userId = write.userId ∧ m = write.data m₀ := by
    intro hm
    obtain ⟨m₀, hm₀, rfl⟩ := Table.mem_modify.mp hm
    by_cases hkey : m₀.userId = write.userId
    · rw [if_pos hkey]
      exact Or.inr ⟨m₀, hm₀, hkey, rfl⟩
    · rw [if_neg hkey]
      exact Or.inl ⟨hm₀, hkey⟩
  cases write with
  | create userId role =>
      change m ∈ t.memberships.ensure ⟨userId, role, none, false⟩ at h
      have hold : m ∈ t.memberships →
          m.userId = userId → ∃ role', MemberWrite.create userId role = .create m.userId role' := by
        intro _ hkey
        exact ⟨role, by rw [hkey]⟩
      unfold Table.ensure at h
      split at h
      · exact Or.inl ⟨h, hold h⟩
      · rcases List.mem_cons.mp h with rfl | h
        · exact Or.inr (Or.inr ⟨role, rfl, rfl⟩)
        · exact Or.inl ⟨h, hold h⟩
  | setRole userId role =>
      rcases hupdate h with ⟨hm, hne⟩ | hdata
      · exact Or.inl ⟨hm, fun heq => absurd heq hne⟩
      · exact Or.inr (Or.inl hdata)
  | disable userId now =>
      rcases hupdate h with ⟨hm, hne⟩ | hdata
      · exact Or.inl ⟨hm, fun heq => absurd heq hne⟩
      · exact Or.inr (Or.inl hdata)
  | restore userId role =>
      rcases hupdate h with ⟨hm, hne⟩ | hdata
      · exact Or.inl ⟨hm, fun heq => absurd heq hne⟩
      · exact Or.inr (Or.inl hdata)

/-- A membership of another user survives a write. -/
theorem mem_writeMember_of_ne {t : OrgTables} {write : MemberWrite} {m : MembershipRow}
    (hm : m ∈ t.memberships) (hne : m.userId ≠ write.userId) :
    m ∈ (t.writeMember write).memberships := by
  have hupdate : m ∈ t.memberships.modify write.userId write.data write.data_userId :=
    Table.mem_modify.mpr ⟨m, hm, if_neg hne⟩
  cases write with
  | create userId role =>
      change m ∈ t.memberships.ensure ⟨userId, role, none, false⟩
      unfold Table.ensure
      split
      · exact hm
      · exact List.mem_cons_of_mem _ hm
  | setRole userId role => exact hupdate
  | disable userId now => exact hupdate
  | restore userId role => exact hupdate

theorem find?_writeMember_ne {t : OrgTables} {write : MemberWrite} {userId : Uuid}
    (hne : userId ≠ write.userId) :
    (t.writeMember write).memberships.find? userId = t.memberships.find? userId := by
  have hupdate : (t.memberships.modify write.userId write.data write.data_userId).find? userId =
      t.memberships.find? userId := Table.find?_modify_ne hne
  cases write with
  | create userId' role => exact Table.find?_ensure_ne hne
  | setRole userId' role => exact hupdate
  | disable userId' now => exact hupdate
  | restore userId' role => exact hupdate

/-- The membership a write is about, if it was there. -/
theorem find?_writeMember_self {t : OrgTables} {write : MemberWrite} {m : MembershipRow}
    (hfind : t.memberships.find? write.userId = some m) :
    (t.writeMember write).memberships.find? write.userId = some (write.data m) := by
  have hupdate : (t.memberships.modify write.userId write.data write.data_userId).find?
      write.userId = some (write.data m) := Table.find?_modify_self hfind
  cases write with
  | create userId role =>
      have hself : (t.memberships.ensure ⟨userId, role, none, false⟩).find? userId =
          some ((t.memberships.find? userId).getD ⟨userId, role, none, false⟩) :=
        Table.find?_ensure_self
      have hfound : t.memberships.find? userId = some m := hfind
      rw [hfound] at hself
      exact hself
  | setRole userId role => exact hupdate
  | disable userId now => exact hupdate
  | restore userId role => exact hupdate

/-- A write about a membership that was not there. -/
theorem find?_writeMember_none {t : OrgTables} {write : MemberWrite}
    (hfind : t.memberships.find? write.userId = none) :
    (t.writeMember write).memberships.find? write.userId = none ∨
      ∃ role, (t.writeMember write).memberships.find? write.userId =
        some ⟨write.userId, role, none, false⟩ := by
  have hupdate : (t.memberships.modify write.userId write.data write.data_userId).find?
      write.userId = none := by
    refine (Table.find?_updateMany _ _ _ _ _).trans ?_
    rw [hfind]
    rfl
  cases write with
  | create userId role =>
      have hself : (t.memberships.ensure ⟨userId, role, none, false⟩).find? userId =
          some ((t.memberships.find? userId).getD ⟨userId, role, none, false⟩) :=
        Table.find?_ensure_self
      have hfound : t.memberships.find? userId = none := hfind
      rw [hfound] at hself
      exact Or.inr ⟨role, hself⟩
  | setRole userId role => exact Or.inl hupdate
  | disable userId now => exact Or.inl hupdate
  | restore userId role => exact Or.inl hupdate

/-- A login accepts the invite with the id and no other. -/
theorem mem_writeInvite_accept {t : OrgTables} {id : Uuid} {now : Timestamp} {i : InviteRow}
    (h : i ∈ (t.writeInvite (.accept id now)).invites) :
    (i ∈ t.invites ∧ i.id ≠ id) ∨ (i.id = id ∧ i.acceptedAt = some now) := by
  have hmodified : i ∈ t.invites.modify (InviteWrite.accept id now).id
      (InviteWrite.accept id now).data (InviteWrite.accept id now).data_id := h
  obtain ⟨i₀, hi₀, rfl⟩ := Table.mem_modify.mp hmodified
  by_cases hid : i₀.id = (InviteWrite.accept id now).id
  · rw [if_pos hid]
    exact Or.inr ⟨hid, rfl⟩
  · rw [if_neg hid]
    exact Or.inl ⟨hi₀, hid⟩

/-- A write leaves every other invite as it is. -/
theorem mem_writeInvite_or_id {t : OrgTables} {write : InviteWrite} {i : InviteRow}
    (h : i ∈ (t.writeInvite write).invites) : i ∈ t.invites ∨ i.id = write.id := by
  have hupdate : i ∈ t.invites.modify write.id write.data write.data_id →
      i ∈ t.invites ∨ i.id = write.id := by
    intro hi
    obtain ⟨i₀, hi₀, rfl⟩ := Table.mem_modify.mp hi
    by_cases hid : i₀.id = write.id
    · rw [if_pos hid]
      exact Or.inr ((write.data_id i₀).trans hid)
    · rw [if_neg hid]
      exact Or.inl hi₀
  cases write with
  | create id data createdAt =>
      change i ∈ t.invites.ensure (InviteWrite.newRow id data createdAt) at h
      unfold Table.ensure at h
      split at h
      · exact Or.inl h
      · rcases List.mem_cons.mp h with rfl | h
        · exact Or.inr rfl
        · exact Or.inl h
  | accept id now => exact hupdate h
  | update id data => exact hupdate h

/-- An invite after a write that lands was there, is the rewritten one, or is new. -/
theorem mem_writeInvite {t : OrgTables} {write : InviteWrite} {i : InviteRow}
    (hlands : t.lands write = true) (h : i ∈ (t.writeInvite write).invites) :
    (i ∈ t.invites ∧ i.id ≠ write.id) ∨
      (∃ i₀ ∈ t.invites, i₀.id = write.id ∧ i = write.data i₀) ∨
      ∃ data createdAt, write = .create i.id data createdAt ∧
        i = InviteWrite.newRow i.id data createdAt := by
  have hupdate : i ∈ t.invites.modify write.id write.data write.data_id →
      (i ∈ t.invites ∧ i.id ≠ write.id) ∨
        (∃ i₀ ∈ t.invites, i₀.id = write.id ∧ i = write.data i₀) ∨
        ∃ data createdAt, write = .create i.id data createdAt ∧
          i = InviteWrite.newRow i.id data createdAt := by
    intro hi
    obtain ⟨i₀, hi₀, rfl⟩ := Table.mem_modify.mp hi
    by_cases hkey : i₀.id = write.id
    · rw [if_pos hkey]
      exact Or.inr (Or.inl ⟨i₀, hi₀, hkey, rfl⟩)
    · rw [if_neg hkey]
      exact Or.inl ⟨hi₀, hkey⟩
  cases write with
  | create id data createdAt =>
      change i ∈ t.invites.ensure (InviteWrite.newRow id data createdAt) at h
      have hfree : t.invites.find? id = none := Option.isNone_iff_eq_none.mp hlands
      have hne : ∀ i₀ ∈ t.invites, i₀.id ≠ id := Table.find?_eq_none.mp hfree
      unfold Table.ensure at h
      split at h
      · exact Or.inl ⟨h, hne i h⟩
      · rcases List.mem_cons.mp h with rfl | h
        · exact Or.inr (Or.inr ⟨data, createdAt, rfl, rfl⟩)
        · exact Or.inl ⟨h, hne i h⟩
  | accept id now => exact hupdate h
  | update id data => exact hupdate h

/-- The write takes the ownership of an active owner away. -/
def TakesOwner (t : OrgTables) (write : MemberWrite) : Prop :=
  ∃ m, t.memberships.find? write.userId = some m ∧ m.activeOwner = true ∧
    (write.data m).activeOwner = false

/-- An update that changes the row of nobody changes no count. -/
theorem count_modify_of_none {memberships : Table MembershipRow MembershipRow.userId}
    {write : MemberWrite} (hfind : memberships.find? write.userId = none) :
    (memberships.modify write.userId write.data write.data_userId).count MembershipRow.activeOwner =
      memberships.count MembershipRow.activeOwner := by
  have hrows : (memberships.modify write.userId write.data write.data_userId).rows =
      memberships.rows := by
    unfold Table.modify Table.updateMany
    conv_rhs => rw [← List.map_id memberships.rows]
    apply List.map_congr_left
    intro m hm
    have hne := Table.find?_eq_none.mp hfind m hm
    simp [hne]
  unfold Table.count
  rw [hrows]

/-- An update counts the row it changes before and after. -/
theorem countOwners_update (t : OrgTables) (write : MemberWrite) :
    (¬ t.TakesOwner write → t.countOwners ≤
        (t.memberships.modify write.userId write.data write.data_userId).count
          MembershipRow.activeOwner) ∧
      (t.TakesOwner write →
        (t.memberships.modify write.userId write.data write.data_userId).count
          MembershipRow.activeOwner + 1 = t.countOwners) := by
  cases hfind : t.memberships.find? write.userId with
  | none =>
      constructor
      · intro _
        exact Nat.le_of_eq (count_modify_of_none hfind).symm
      · intro htakes
        obtain ⟨m, hm, -⟩ := htakes
        rw [hfind] at hm
        cases hm
  | some m =>
      have hcount :
          (t.memberships.modify write.userId write.data write.data_userId).count
              MembershipRow.activeOwner + m.activeOwner.toNat =
            t.memberships.count MembershipRow.activeOwner + (write.data m).activeOwner.toNat :=
        Table.count_modify hfind MembershipRow.activeOwner
      unfold countOwners
      constructor
      · intro hnot
        cases hbefore : m.activeOwner with
        | false =>
            rw [hbefore] at hcount
            simp only [Bool.toNat_false, Nat.add_zero] at hcount
            omega
        | true =>
            cases hafter : (write.data m).activeOwner with
            | true =>
                rw [hbefore, hafter] at hcount
                omega
            | false => exact absurd ⟨m, hfind, hbefore, hafter⟩ hnot
      · intro htakes
        obtain ⟨m', hm', hbefore, hafter⟩ := htakes
        obtain rfl := Option.some.inj (hfind.symm.trans hm')
        rw [hbefore, hafter] at hcount
        simpa using hcount

/-- A write that takes no ownership away leaves as many owners as there were; one that
does leaves one less. -/
theorem countOwners_writeMember (t : OrgTables) (write : MemberWrite) :
    (¬ t.TakesOwner write → t.countOwners ≤ (t.writeMember write).countOwners) ∧
      (t.TakesOwner write → (t.writeMember write).countOwners + 1 = t.countOwners) := by
  cases write with
  | create userId role =>
      constructor
      · intro _
        change t.countOwners ≤ (t.memberships.ensure ⟨userId, role, none, false⟩).count _
        unfold Table.ensure countOwners Table.count
        split
        · exact Nat.le_refl _
        · rw [List.countP_cons]
          exact Nat.le_add_right _ _
      · intro htakes
        obtain ⟨m, -, hbefore, hafter⟩ := htakes
        exact absurd (hbefore.symm.trans hafter) Bool.noConfusion
  | setRole userId role => exact t.countOwners_update (.setRole userId role)
  | disable userId now => exact t.countOwners_update (.disable userId now)
  | restore userId role => exact t.countOwners_update (.restore userId role)

/-- There is an active owner. -/
theorem countOwners_pos_iff {t : OrgTables} :
    0 < t.countOwners ↔ ∃ m ∈ t.memberships, m.role = .owner ∧ m.disabledAt = none := by
  unfold countOwners Table.count
  rw [List.countP_pos_iff]
  simp [MembershipRow.activeOwner, Table.mem_def]

end OrgTables

end Identity
end Ctem
