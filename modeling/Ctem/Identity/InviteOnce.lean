import Ctem.Foundation.Latch
import Ctem.Identity.OwnerRace

/-!
# An invite is consumed once

The concurrent calls of `OwnerRace`, with a log of what their commits did: an invite was issued,
a login accepted one, a membership was disabled.  A call of `invite` begins a period of the
invite that it writes, and the log knows in which period a login had found the invite that it
accepts.

A login marks the invite by its id and restores the membership by its key, whatever has become
of the two since it read them.

* `FindsAsRead`: the invite is still unaccepted, and in the period in which the login found it.
* `NotLeftOver`: the invite was not pending already when the membership was disabled.
* `invite_consumed_once`: where the logins that accept an invite do so under these conditions, no
  period is accepted twice, and who was disabled stays so until a later invite is accepted.
-/

namespace Ctem
namespace Identity

open Foundation Contracts

/-- What a commit did to the invites and to who is a member. -/
inductive InviteEntry where
  /-- A call of `invite`: a period of the invite begins. -/
  | issued (id : Uuid)
  /-- A login accepted the invite, as it had found it in the period. -/
  | accepted (id : Uuid) (period : Option Nat) (userId : Uuid)
  /-- A membership was disabled, while these invites were pending. -/
  | disabled (userId : Uuid) (pending : List Uuid)

/-- The running calls with the log of their commits, the oldest entry first.  A period is named
by the position of the entry that begins it, if the log has it. -/
structure InviteRace where
  race : OwnerRace
  log : List InviteEntry
  /-- The present period of an invite. -/
  period : Uuid → Option Nat
  /-- The period in which the login of a transaction found the invite. -/
  found : Nat → Option Nat

namespace InviteRace

/-- No call is running, and nothing is known of the past. -/
def start (users : Table UserRow UserRow.id) (org : OrgTables) : InviteRace where
  race := OwnerRace.start users org
  log := []
  period := fun _ => none
  found := fun _ => none

/-- The invites that are not accepted. -/
def pendingIds (t : OrgTables) : List Uuid :=
  (t.invites.rows.filter fun i => i.acceptedAt.isNone).map InviteRow.id

/-- The entry of a transaction with these writes. -/
def entryOf (t : OrgTables) (found : Option Nat) :
    Option InviteWrite → Option MemberWrite → Option InviteEntry
  | some (.accept id _), some member => some (.accepted id found member.userId)
  | some (.update id _), _ => some (.issued id)
  | some (.create id _ _), _ => some (.issued id)
  | none, some (.disable userId _) => some (.disabled userId (pendingIds t))
  | _, _ => none

/-- The entry of a transaction that commits. -/
def entry (s : InviteRace) (tx : Nat) : Option InviteEntry :=
  match s.race.txs tx with
  | none => none
  | some open' =>
      match open'.stage with
      | .wrote invite member => entryOf s.race.org (s.found tx) invite member
      | _ => none

/-- The periods after an entry. -/
def periodAfter (s : InviteRace) : Option InviteEntry → Uuid → Option Nat
  | some (.issued id) => Function.update s.period id (some s.log.length)
  | _ => s.period

/-- The invite that the transaction is about to write, right after it has looked for one. -/
def foundInvite (before after : OwnerRace) (tx : Nat) : Option Uuid :=
  match before.txs tx, after.txs tx with
  | some ⟨_, .pending _, _⟩, some ⟨_, .writeInvite write _, _⟩ => some write.id
  | _, _ => none

def step (platform : IdentityPlatform) (s : InviteRace) (event : RaceEvent) : InviteRace :=
  let race := s.race.step platform event
  match event with
  | .statement tx _ =>
      match foundInvite s.race race tx with
      | some id => { s with race := race, found := Function.update s.found tx (s.period id) }
      | none => { s with race := race }
  | .commit tx =>
      { s with
        race := race
        log := s.log ++ (s.entry tx).toList
        period := s.periodAfter (s.entry tx) }
  | _ => { s with race := race }

/-- The calls in any interleaving of their statements. -/
def system (platform : IdentityPlatform) : System InviteRace RaceEvent where
  step := step platform
  allowed := fun _ _ => True

/-! ## The conditions -/

/-- The invite is unaccepted, and in the period in which the transaction found it. -/
def FindsAsRead (s : InviteRace) (tx : Nat) (id : Uuid) : Prop :=
  (∃ i ∈ s.race.org.invites, i.id = id ∧ i.acceptedAt = none) ∧ s.found tx = s.period id

/-- If the invite was pending when the membership was disabled, it has been issued anew since. -/
def NotLeftOver (s : InviteRace) (id userId : Uuid) : Prop :=
  ∀ (i : Nat) (pending : List Uuid), s.log[i]? = some (.disabled userId pending) → id ∈ pending →
    ∃ m, i < m ∧ s.log[m]? = some (.issued id)

/-- A login that accepts an invite finds it as it read it, and not left over from before the
membership was disabled.  Its row is locked since the login has marked it. -/
def Clean (s : InviteRace) (event : RaceEvent) : Prop :=
  ∀ tx o id now member, event = .commit tx → s.race.txs tx = some o →
    o.stage = .wrote (some (.accept id now)) (some member) →
      s.FindsAsRead tx id ∧ s.NotLeftOver id member.userId

/-- No period of an invite is accepted twice, and a membership that was disabled is so, unless an
invite issued later has been accepted. -/
structure ConsumedOnce (s : InviteRace) : Prop where
  once : ∀ (i j : Nat) (id : Uuid) (period : Option Nat) (userId userId' : Uuid),
    s.log[i]? = some (.accepted id period userId) →
      s.log[j]? = some (.accepted id period userId') → i = j
  lasting : ∀ (i : Nat) (userId : Uuid) (pending : List Uuid),
    s.log[i]? = some (.disabled userId pending) →
      (∃ m, s.race.org.memberships.find? userId = some m ∧ m.disabledAt ≠ none) ∨
        ∃ q j id, i < q ∧ q < j ∧ s.log[q]? = some (.issued id) ∧
          s.log[j]? = some (.accepted id (some q) userId)

/-! ## What the open transactions write -/

/-- The writes of a call: an invite that is accepted and its membership, an invite that is
issued, or a membership, which is there if it is disabled. -/
def Writes (t : OrgTables) : Option InviteWrite → Option MemberWrite → Prop
  | some (.accept _ _), some (.restore _ _) => True
  | some (.accept _ _), some (.create _ _) => True
  | some (.update _ _), none => True
  | some (.create _ _ _), none => True
  | none, some (.setRole _ _) => True
  | none, some (.disable userId _) => (t.memberships.find? userId).isSome
  | none, none => True
  | _, _ => False

/-- What a transaction at the stage is going to write. -/
def Staged (t : OrgTables) (request : OrgRequest) : OrgStage → Prop
  | .owners =>
      match request with
      | .disable _ userId => (t.memberships.find? userId).isSome
      | _ => True
  | .writeInvite write next => Writes t (some write) next
  | .writeMember invite write => Writes t invite (some write)
  | .wrote invite member => Writes t invite member
  | _ => True

section Stages

variable {platform : IdentityPlatform} {t t' : OrgTables} {request : OrgRequest}
  {stage next : OrgStage}

/-- No membership is taken away. -/
def KeepsMembers (t t' : OrgTables) : Prop :=
  ∀ userId, (t.memberships.find? userId).isSome → (t'.memberships.find? userId).isSome

theorem Writes.mono {invite : Option InviteWrite} {member : Option MemberWrite}
    (h : Writes t invite member) (hkeeps : KeepsMembers t t') : Writes t' invite member := by
  unfold Writes at h ⊢
  split at h
  · trivial
  · trivial
  · trivial
  · trivial
  · trivial
  · exact hkeeps _ h
  · trivial
  · exact h.elim

theorem Staged.mono (h : Staged t request stage) (hkeeps : KeepsMembers t t') :
    Staged t' request stage := by
  cases stage with
  | begun => trivial
  | invitee userId => trivial
  | pending existing => trivial
  | owners =>
      cases request with
      | disable actor userId => exact hkeeps userId h
      | setRole actor userId role => trivial
      | invite actor input => trivial
      | resolveJwt userId email => trivial
  | writeInvite write next => exact Writes.mono h hkeeps
  | writeMember invite write => exact Writes.mono h hkeeps
  | wrote invite member => exact Writes.mono h hkeeps

/-- A membership that a call has read is there. -/
theorem isSome_of_requireMembership {found : Option MembershipRow} {m : MembershipRow}
    (h : requireMembership found = .ok m) : found.isSome := by
  cases found with
  | none => cases h
  | some m' => rfl

theorem staged_beginDisable {actor : Principal} {userId : String} {now : Timestamp}
    (h : OwnerRace.beginDisable platform t actor userId now = .ok next) :
    Staged t (.disable actor userId) next := by
  unfold OwnerRace.beginDisable at h
  obtain ⟨_, -, h⟩ := bind_eq_ok.mp h
  obtain ⟨m, hfound, h⟩ := bind_eq_ok.mp h
  have hthere := isSome_of_requireMembership hfound
  split at h
  · obtain rfl := Except.ok.inj h
    trivial
  · split at h
    · obtain ⟨-, h⟩ := eq_ok_of_guard h
      obtain rfl := Except.ok.inj h
      exact hthere
    · obtain rfl := Except.ok.inj h
      exact hthere

theorem writes_acceptPendingInvite {userId : Uuid} {email : String}
    {existing : Option MembershipRow} {now : Timestamp}
    {writes : InviteRow × InviteWrite × MemberWrite}
    (h : acceptPendingInvite platform t userId email existing now = some writes) :
    Writes t (some writes.2.1) (some writes.2.2) := by
  unfold acceptPendingInvite at h
  obtain ⟨i, -, rfl⟩ := Option.map_eq_some_iff.mp h
  cases existing with
  | none => trivial
  | some m => trivial

theorem writes_inviteWrite (pending : Option InviteRow) (input : InviteRequest) (data : InviteData)
    (now : Timestamp) : Writes t (some (inviteWrite pending input data now)) none := by
  cases pending with
  | none => trivial
  | some p => trivial

theorem staged_readStatement {users : Table UserRow UserRow.id} {now : Timestamp}
    (hstaged : Staged t request stage)
    (h : OwnerRace.readStatement platform users t now request stage = .ok next) :
    Staged t request next := by
  unfold OwnerRace.readStatement at h
  split at h
  · unfold OwnerRace.beginSetRole at h
    obtain ⟨_, -, h⟩ := bind_eq_ok.mp h
    obtain ⟨m, -, h⟩ := bind_eq_ok.mp h
    obtain ⟨_, -, h⟩ := bind_eq_ok.mp h
    split at h
    · obtain rfl := Except.ok.inj h
      trivial
    · obtain rfl := Except.ok.inj h
      trivial
  · exact staged_beginDisable h
  · unfold OwnerRace.beginInvite at h
    obtain ⟨_, -, h⟩ := bind_eq_ok.mp h
    split at h
    · obtain rfl := Except.ok.inj h
      trivial
    · obtain rfl := Except.ok.inj h
      trivial
  · obtain rfl := Except.ok.inj h
    unfold OwnerRace.beginResolve
    simp only
    split
    · trivial
    · trivial
  · split at h
    · cases h
    · obtain rfl := Except.ok.inj h
      trivial
  · split at h
    · cases h
    · obtain rfl := Except.ok.inj h
      exact hstaged
  · obtain ⟨-, h⟩ := eq_ok_of_guard h
    obtain rfl := Except.ok.inj h
    trivial
  · obtain rfl := Except.ok.inj h
    exact writes_inviteWrite _ _ _ _
  · split at h
    · cases h
    · rename_i writes haccept
      obtain rfl := Except.ok.inj h
      exact writes_acceptPendingInvite haccept
  · obtain rfl := Except.ok.inj h
    exact hstaged

theorem staged_afterInvite {write : InviteWrite} {member : Option MemberWrite}
    (h : Writes t (some write) member) :
    Staged t request (OwnerRace.afterInvite write member) := by
  cases member with
  | none => exact h
  | some m => exact h

end Stages

/-! ## What the log knows -/

def Accepts (id : Uuid) (e : InviteEntry) : Prop :=
  ∃ period userId, e = .accepted id period userId

def Issues (id : Uuid) (e : InviteEntry) : Prop :=
  e = .issued id

/-- No invite with the id can be accepted. -/
def Settled (t : OrgTables) (id : Uuid) : Prop :=
  ∀ i ∈ t.invites, i.id = id → i.acceptedAt ≠ none

/-- The membership is disabled, or an invite issued after the position has been accepted. -/
def LastsSince (t : OrgTables) (log : List InviteEntry) (i : Nat) (userId : Uuid) : Prop :=
  (∃ m, t.memberships.find? userId = some m ∧ m.disabledAt ≠ none) ∨
    ∃ q j id, i < q ∧ q < j ∧ log[q]? = some (.issued id) ∧
      log[j]? = some (.accepted id (some q) userId)

/-- The log and the periods against the tables. -/
structure Logged (t : OrgTables) (log : List InviteEntry) (period : Uuid → Option Nat) :
    Prop where
  /-- A period is the last one of its invite. -/
  present : ∀ id q, period id = some q →
    log[q]? = some (.issued id) ∧ Since (Issues id) log q
  /-- An invite without a period has not been issued. -/
  unknown : ∀ (id : Uuid) (m : Nat), period id = none → log[m]? ≠ some (.issued id)
  /-- Acceptance sets a latch that a new period opens. -/
  latched : ∀ id, Latched (Accepts id) (Issues id) log (Settled t id)
  /-- An acceptance was found in the last period before it. -/
  dated : ∀ (j : Nat) (id : Uuid) (p : Option Nat) (userId : Uuid),
    log[j]? = some (.accepted id p userId) →
      (∀ m : Nat, m < j → log[m]? = some (.issued id) → ∃ q, p = some q ∧ m ≤ q) ∧
        ∀ q, p = some q → q < j ∧ log[q]? = some (.issued id)
  /-- What is pending was pending at a disable, or has been issued since. -/
  pending : ∀ (i : Nat) (userId : Uuid) (ids : List Uuid),
    log[i]? = some (.disabled userId ids) → ∀ invite ∈ t.invites, invite.acceptedAt = none →
      invite.id ∈ ids ∨ ∃ m, i < m ∧ log[m]? = some (.issued invite.id)
  lasting : ∀ (i : Nat) (userId : Uuid) (ids : List Uuid),
    log[i]? = some (.disabled userId ids) → LastsSince t log i userId

section Log

variable {t t' : OrgTables} {log : List InviteEntry} {period : Uuid → Option Nat}
  {e : InviteEntry} {id userId : Uuid} {i : Nat}

theorem logged_nil (t : OrgTables) : Logged t [] (fun _ => none) where
  present := by
    intro id q hq
    cases hq
  unknown := by
    intro id m _ hm
    cases hm
  latched := fun id => latched_nil _
  dated := by
    intro j id p userId hj
    cases hj
  pending := by
    intro i userId ids hi
    cases hi
  lasting := by
    intro i userId ids hi
    cases hi

theorem getElem?_concat_of_some (h : log[i]? = some e) (e' : InviteEntry) :
    (log ++ [e'])[i]? = some e :=
  getElem?_concat_eq_some.mpr (Or.inl h)

theorem lt_of_getElem?_eq_some (h : log[i]? = some e) : i < log.length :=
  (List.getElem?_eq_some_iff.mp h).1

/-- An invite whose period is later has been issued later. -/
theorem Logged.le_period (h : Logged t log period) {m : Nat} (hm : log[m]? = some (.issued id)) :
    ∃ q, period id = some q ∧ m ≤ q := by
  cases hperiod : period id with
  | none => exact absurd hm (h.unknown id m hperiod)
  | some q =>
      refine ⟨q, rfl, ?_⟩
      by_contra hlt
      exact (h.present id q hperiod).2 m (Nat.not_le.mp hlt) ⟨_, hm, rfl⟩

theorem LastsSince.concat (h : LastsSince t log i userId)
    (hkeeps : (∃ m, t.memberships.find? userId = some m ∧ m.disabledAt ≠ none) →
      LastsSince t' (log ++ [e]) i userId) : LastsSince t' (log ++ [e]) i userId := by
  rcases h with hdisabled | ⟨q, j, id, hiq, hqj, hq, hj⟩
  · exact hkeeps hdisabled
  · exact Or.inr ⟨q, j, id, hiq, hqj, getElem?_concat_of_some hq e, getElem?_concat_of_some hj e⟩

/-- Who is disabled stays so, unless an accepted invite restores the membership. -/
theorem disabled_writeMember {write : MemberWrite}
    (hrestores : write.userId = userId → ∀ role, write ≠ .restore userId role)
    (h : ∃ m, t.memberships.find? userId = some m ∧ m.disabledAt ≠ none) :
    ∃ m, (t.writeMember write).memberships.find? userId = some m ∧ m.disabledAt ≠ none := by
  obtain ⟨m, hfind, hdisabled⟩ := h
  by_cases hself : userId = write.userId
  · subst hself
    refine ⟨write.data m, OrgTables.find?_writeMember_self hfind, ?_⟩
    cases write with
    | setRole userId role => exact hdisabled
    | disable userId now => exact Option.some_ne_none now
    | restore userId role => exact absurd rfl (hrestores rfl role)
    | create userId role => exact hdisabled
  · exact ⟨m, (OrgTables.find?_writeMember_ne hself).trans hfind, hdisabled⟩

/-- An entry that is neither an issue nor an acceptance leaves the periods right. -/
theorem Logged.present_concat (h : Logged t log period) (hne : ∀ id, e ≠ .issued id) :
    (∀ id q, period id = some q →
      (log ++ [e])[q]? = some (.issued id) ∧ Since (Issues id) (log ++ [e]) q) ∧
      ∀ (id : Uuid) (m : Nat), period id = none → (log ++ [e])[m]? ≠ some (.issued id) := by
  constructor
  · intro id q hq
    obtain ⟨hissued, hsince⟩ := h.present id q hq
    exact ⟨getElem?_concat_of_some hissued e, since_concat_iff.mpr ⟨hsince, fun _ => hne id⟩⟩
  · intro id m hnone hm
    rcases getElem?_concat_eq_some.mp hm with hold | ⟨-, hnew⟩
    · exact h.unknown id m hnone hold
    · exact hne id hnew

/-- The dates of the old acceptances do not change. -/
theorem Logged.dated_concat (h : Logged t log period) {j : Nat} {p : Option Nat}
    (hj : log[j]? = some (.accepted id p userId)) (e : InviteEntry) :
    (∀ m : Nat, m < j → (log ++ [e])[m]? = some (.issued id) → ∃ q, p = some q ∧ m ≤ q) ∧
      ∀ q, p = some q → q < j ∧ (log ++ [e])[q]? = some (.issued id) := by
  obtain ⟨hlast, hissued⟩ := h.dated j id p userId hj
  have hlt := lt_of_getElem?_eq_some hj
  constructor
  · intro m hm hentry
    rcases getElem?_concat_eq_some.mp hentry with hold | ⟨rfl, -⟩
    · exact hlast m hm hold
    · exact absurd hm (Nat.not_lt.mpr (Nat.le_of_lt hlt))
  · intro q hq
    exact ⟨(hissued q hq).1, getElem?_concat_of_some (hissued q hq).2 e⟩

/-! ## What a commit adds -/

/-- A login accepts an invite in its present period. -/
theorem Logged.accepted (h : Logged t log period) {now : Timestamp} {member : MemberWrite}
    (hopen : ∃ i ∈ t.invites, i.id = id ∧ i.acceptedAt = none)
    (hleft : ∀ (i : Nat) (ids : List Uuid), log[i]? = some (.disabled member.userId ids) →
      id ∈ ids → ∃ m, i < m ∧ log[m]? = some (.issued id)) :
    Logged ((t.writeInvite (.accept id now)).writeMember member)
      (log ++ [.accepted id (period id) member.userId]) period := by
  obtain ⟨i₀, hi₀, hid₀, hunaccepted⟩ := hopen
  obtain ⟨hpresent, hunknown⟩ := h.present_concat (e := .accepted id (period id) member.userId)
    (by simp)
  refine ⟨hpresent, hunknown, ?_, ?_, ?_, ?_⟩
  · intro id'
    refine (h.latched id').concat ?_ ?_ ?_
    · rintro ⟨_, _, heq⟩ hsettled
      obtain ⟨rfl, -⟩ := InviteEntry.accepted.inj heq
      exact hsettled i₀ hi₀ hid₀ hunaccepted
    · rintro ⟨_, _, heq⟩ i hi hid
      obtain ⟨rfl, -⟩ := InviteEntry.accepted.inj heq
      rcases OrgTables.mem_writeInvite_accept hi with ⟨-, hne⟩ | ⟨-, haccepted⟩
      · exact absurd hid hne
      · rw [haccepted]
        exact Option.some_ne_none now
    · intro hsettled _ i hi hid
      rcases OrgTables.mem_writeInvite_accept hi with ⟨hold, -⟩ | ⟨-, haccepted⟩
      · exact hsettled i hold hid
      · rw [haccepted]
        exact Option.some_ne_none now
  · intro j id' p userId' hj
    rcases getElem?_concat_eq_some.mp hj with hold | ⟨rfl, hnew⟩
    · exact h.dated_concat hold _
    · -- the present period is the last one
      obtain ⟨rfl, rfl, rfl⟩ := InviteEntry.accepted.inj hnew
      constructor
      · intro m hm hentry
        rcases getElem?_concat_eq_some.mp hentry with hold | ⟨rfl, -⟩
        · exact h.le_period hold
        · exact absurd hm (Nat.lt_irrefl _)
      · intro q hq
        have hissued := (h.present id q hq).1
        exact ⟨lt_of_getElem?_eq_some hissued, getElem?_concat_of_some hissued _⟩
  · intro i userId' ids hi invite hinvite hnone
    rcases getElem?_concat_eq_some.mp hi with hold | ⟨-, hnew⟩
    · rcases OrgTables.mem_writeInvite_accept hinvite with ⟨hin, -⟩ | ⟨-, haccepted⟩
      · refine (h.pending i userId' ids hold invite hin hnone).imp_right ?_
        rintro ⟨m, him, hm⟩
        exact ⟨m, him, getElem?_concat_of_some hm _⟩
      · exact absurd (haccepted.symm.trans hnone) (Option.some_ne_none now)
    · cases hnew
  · intro i userId' ids hi
    rcases getElem?_concat_eq_some.mp hi with hold | ⟨-, hnew⟩
    · refine (h.lasting i userId' ids hold).concat fun hdisabled => ?_
      by_cases huser : member.userId = userId'
      · -- the invite was issued after the disable, so its period is later
        subst huser
        have hreissued : ∃ m, i < m ∧ log[m]? = some (.issued id) := by
          rcases h.pending i _ ids hold i₀ hi₀ hunaccepted with hin | hlater
          · exact hleft i ids hold (hid₀ ▸ hin)
          · exact hid₀ ▸ hlater
        obtain ⟨m, him, hm⟩ := hreissued
        obtain ⟨q, hq, hmq⟩ := h.le_period hm
        have hissued := (h.present id q hq).1
        refine Or.inr ⟨q, log.length, id, Nat.lt_of_lt_of_le him hmq,
          lt_of_getElem?_eq_some hissued, getElem?_concat_of_some hissued _, ?_⟩
        rw [hq]
        exact List.getElem?_concat_length
      · exact Or.inl (disabled_writeMember (fun heq => absurd heq huser) hdisabled)
    · cases hnew

/-- A call of `invite` begins a period. -/
theorem Logged.issued (h : Logged t log period) (write : InviteWrite) :
    Logged (t.writeInvite write) (log ++ [.issued write.id])
      (Function.update period write.id (some log.length)) where
  present := by
    intro id q hq
    by_cases hid : id = write.id
    · subst hid
      rw [Function.update_self] at hq
      obtain rfl := Option.some.inj hq
      refine ⟨List.getElem?_concat_length, since_concat_iff.mpr ⟨since_length _ _, ?_⟩⟩
      exact fun hlt => absurd hlt (Nat.lt_irrefl _)
    · rw [Function.update_of_ne hid] at hq
      obtain ⟨hissued, hsince⟩ := h.present id q hq
      refine ⟨getElem?_concat_of_some hissued _, since_concat_iff.mpr ⟨hsince, fun _ hnew => ?_⟩⟩
      exact hid (InviteEntry.issued.inj hnew).symm
  unknown := by
    intro id m hnone hm
    by_cases hid : id = write.id
    · subst hid
      rw [Function.update_self] at hnone
      cases hnone
    · rw [Function.update_of_ne hid] at hnone
      rcases getElem?_concat_eq_some.mp hm with hold | ⟨-, hnew⟩
      · exact h.unknown id m hnone hold
      · exact hid (InviteEntry.issued.inj hnew).symm
  latched := by
    intro id
    refine (h.latched id).concat ?_ ?_ ?_
    · rintro ⟨_, _, heq⟩
      cases heq
    · rintro ⟨_, _, heq⟩
      cases heq
    · intro hsettled hnot i hi hid
      rcases OrgTables.mem_writeInvite_or_id hi with hold | hself
      · exact hsettled i hold hid
      · exact absurd (congrArg InviteEntry.issued (hself.symm.trans hid)) hnot
  dated := by
    intro j id p userId hj
    rcases getElem?_concat_eq_some.mp hj with hold | ⟨-, hnew⟩
    · exact h.dated_concat hold _
    · cases hnew
  pending := by
    intro i userId ids hi invite hinvite hnone
    rcases getElem?_concat_eq_some.mp hi with hold | ⟨-, hnew⟩
    · rcases OrgTables.mem_writeInvite_or_id hinvite with hin | hself
      · refine (h.pending i userId ids hold invite hin hnone).imp_right ?_
        rintro ⟨m, him, hm⟩
        exact ⟨m, him, getElem?_concat_of_some hm _⟩
      · rw [hself]
        exact Or.inr ⟨log.length, lt_of_getElem?_eq_some hold, List.getElem?_concat_length⟩
    · cases hnew
  lasting := by
    intro i userId ids hi
    rcases getElem?_concat_eq_some.mp hi with hold | ⟨-, hnew⟩
    · exact (h.lasting i userId ids hold).concat Or.inl
    · cases hnew

/-- A membership that is there is disabled. -/
theorem Logged.disabled (h : Logged t log period) {now : Timestamp}
    (hthere : (t.memberships.find? userId).isSome) :
    Logged (t.writeMember (.disable userId now)) (log ++ [.disabled userId (pendingIds t)])
      period := by
  obtain ⟨hpresent, hunknown⟩ := h.present_concat (e := .disabled userId (pendingIds t)) (by simp)
  refine ⟨hpresent, hunknown, ?_, ?_, ?_, ?_⟩
  · intro id
    refine (h.latched id).concat ?_ ?_ fun hsettled _ => hsettled
    · rintro ⟨_, _, heq⟩
      cases heq
    · rintro ⟨_, _, heq⟩
      cases heq
  · intro j id p userId' hj
    rcases getElem?_concat_eq_some.mp hj with hold | ⟨-, hnew⟩
    · exact h.dated_concat hold _
    · cases hnew
  · intro i userId' ids hi invite hinvite hnone
    rcases getElem?_concat_eq_some.mp hi with hold | ⟨-, hnew⟩
    · refine (h.pending i userId' ids hold invite hinvite hnone).imp_right ?_
      rintro ⟨m, him, hm⟩
      exact ⟨m, him, getElem?_concat_of_some hm _⟩
    · obtain ⟨rfl, rfl⟩ := InviteEntry.disabled.inj hnew
      refine Or.inl (List.mem_map_of_mem (List.mem_filter.mpr ⟨hinvite, ?_⟩))
      rw [hnone]
      rfl
  · intro i userId' ids hi
    rcases getElem?_concat_eq_some.mp hi with hold | ⟨-, hnew⟩
    · refine (h.lasting i userId' ids hold).concat fun hdisabled => Or.inl ?_
      exact disabled_writeMember (fun _ role heq => by cases heq) hdisabled
    · obtain ⟨rfl, rfl⟩ := InviteEntry.disabled.inj hnew
      obtain ⟨m, hfind⟩ := Option.isSome_iff_exists.mp hthere
      have hself : t.memberships.find? (MemberWrite.disable userId now).userId = some m := hfind
      exact Or.inl ⟨_, OrgTables.find?_writeMember_self hself, Option.some_ne_none now⟩

/-- A role is set. -/
theorem Logged.setRole (h : Logged t log period) (role : Role) :
    Logged (t.writeMember (.setRole userId role)) log period := by
  refine ⟨h.present, h.unknown, h.latched, h.dated, h.pending, ?_⟩
  intro i userId' ids hi
  refine (h.lasting i userId' ids hi).imp_left fun hdisabled => ?_
  exact disabled_writeMember (fun _ role heq => by cases heq) hdisabled

end Log

/-! ## Steps -/

/-- The log is right about the tables, and the open transactions about their writes. -/
structure Recorded (s : InviteRace) : Prop where
  logged : Logged s.race.org s.log s.period
  staged : ∀ tx o, s.race.txs tx = some o → Staged s.race.org o.request o.stage

section Steps

variable {platform : IdentityPlatform} {s : InviteRace} {tx : Nat}

theorem recorded_start (users : Table UserRow UserRow.id) (org : OrgTables) :
    Recorded (start users org) where
  logged := logged_nil org
  staged := by
    intro tx o hopen
    cases hopen

theorem keepsMembers_writeMember (t : OrgTables) (write : MemberWrite) :
    KeepsMembers t (t.writeMember write) := by
  intro userId hthere
  by_cases hself : userId = write.userId
  · subst hself
    obtain ⟨m, hfind⟩ := Option.isSome_iff_exists.mp hthere
    rw [OrgTables.find?_writeMember_self hfind]
    rfl
  · rw [OrgTables.find?_writeMember_ne hself]
    exact hthere

theorem keepsMembers_applyWrites (t : OrgTables) (invite : Option InviteWrite)
    (member : Option MemberWrite) : KeepsMembers t (OwnerRace.applyWrites t invite member) := by
  have hmembers : (OwnerRace.applyWrites t invite member).memberships =
      (OwnerRace.applyWrites t none member).memberships := by
    cases invite <;> cases member <;> rfl
  intro userId hthere
  rw [hmembers]
  cases member with
  | none => exact hthere
  | some write => exact keepsMembers_writeMember t write userId hthere

/-- The stages after a transaction went on. -/
theorem staged_goTo {w : OwnerRace} {o : OrgTx} {stage : OrgStage}
    (h : ∀ tx o, w.txs tx = some o → Staged w.org o.request o.stage)
    (hstage : Staged w.org o.request stage) :
    ∀ tx' o', (w.goTo tx o stage).txs tx' = some o' → Staged w.org o'.request o'.stage := by
  intro tx' o' hopen
  rcases update_some_eq_some hopen with ⟨-, rfl⟩ | ⟨-, hother⟩
  · exact hstage
  · exact h tx' o' hother

theorem staged_stepStatement {w : OwnerRace} {now : Timestamp}
    (h : ∀ tx o, w.txs tx = some o → Staged w.org o.request o.stage) :
    ∀ tx' o', (w.stepStatement platform tx now).txs tx' = some o' →
      Staged w.org o'.request o'.stage := by
  unfold OwnerRace.stepStatement
  cases hopen : w.txs tx with
  | none => exact h
  | some o =>
      have hstaged := h tx o hopen
      have hclosed : ∀ tx' o', (w.close tx).txs tx' = some o' →
          Staged w.org o'.request o'.stage := fun tx' o' hopen' =>
        h tx' o' (OwnerRace.txs_close hopen')
      simp only
      split
      · rename_i write next hstage
        rw [hstage] at hstaged
        split
        · split
          · intro tx' o' hopen'
            exact staged_goTo h (staged_afterInvite hstaged) tx' o' hopen'
          · exact hclosed
        · exact h
      · rename_i invite write hstage
        rw [hstage] at hstaged
        split
        · split
          · intro tx' o' hopen'
            have hwrote : Staged w.org o.request (.wrote invite (some write)) := hstaged
            exact staged_goTo h hwrote tx' o' hopen'
          · exact hclosed
        · exact h
      · exact h
      · split
        · rename_i next hread
          exact staged_goTo h (staged_readStatement hstaged hread)
        · exact hclosed

/-- Every step but a commit leaves the log, and knows what it is going to write. -/
theorem staged_step {w : OwnerRace} {event : RaceEvent} (hcommit : ∀ tx, event ≠ .commit tx)
    (h : ∀ tx o, w.txs tx = some o → Staged w.org o.request o.stage) :
    ∀ tx o, (w.step platform event).txs tx = some o →
      Staged (w.step platform event).org o.request o.stage := by
  rw [OwnerRace.org_step_of_ne_commit hcommit]
  cases event with
  | begin tx request =>
      unfold OwnerRace.step
      simp only
      cases hopen : w.txs tx with
      | some o => exact h
      | none =>
          intro tx' o' hopen'
          rcases update_some_eq_some hopen' with ⟨-, rfl⟩ | ⟨-, hother⟩
          · trivial
          · exact h tx' o' hother
  | statement tx now => exact staged_stepStatement h
  | commit tx => exact absurd rfl (hcommit tx)
  | rollback tx => exact fun tx' o' hopen' => h tx' o' (OwnerRace.txs_close hopen')
  | upsertUser users => exact h

/-- What the commit of a transaction does to the log. -/
theorem logged_commit {o : OrgTx} {invite : Option InviteWrite} {member : Option MemberWrite}
    (h : Recorded s) (hclean : s.Clean (.commit tx)) (hopen : s.race.txs tx = some o)
    (hstage : o.stage = .wrote invite member) :
    Logged (OwnerRace.applyWrites s.race.org invite member) (s.log ++ (s.entry tx).toList)
      (s.periodAfter (s.entry tx)) := by
  have hwrites : Writes s.race.org invite member := by
    have hstaged := h.staged tx o hopen
    rw [hstage] at hstaged
    exact hstaged
  have hentry : s.entry tx = entryOf s.race.org (s.found tx) invite member := by
    unfold entry
    rw [hopen]
    simp only [hstage]
  have haccepts : ∀ id now write, invite = some (.accept id now) → member = some write →
      Logged ((s.race.org.writeInvite (.accept id now)).writeMember write)
        (s.log ++ [.accepted id (s.found tx) write.userId]) s.period := by
    rintro id now write rfl rfl
    obtain ⟨⟨hunaccepted, hfound⟩, hleft⟩ := hclean tx o id now write rfl hopen hstage
    rw [hfound]
    exact h.logged.accepted hunaccepted hleft
  rw [hentry]
  unfold Writes at hwrites
  split at hwrites
  · exact haccepts _ _ _ rfl rfl
  · exact haccepts _ _ _ rfl rfl
  · exact h.logged.issued _
  · exact h.logged.issued _
  · change Logged _ (s.log ++ []) s.period
    rw [List.append_nil]
    exact h.logged.setRole _
  · exact h.logged.disabled hwrites
  · change Logged _ (s.log ++ []) s.period
    rw [List.append_nil]
    exact h.logged
  · exact hwrites.elim

/-- A commit of nothing adds no entry. -/
theorem entry_idle
    (hidle : ∀ o invite member, s.race.txs tx = some o → o.stage ≠ .wrote invite member) :
    s.entry tx = none := by
  unfold entry
  cases hopen : s.race.txs tx with
  | none => rfl
  | some o =>
      simp only
      split
      · rename_i invite member hstage
        exact absurd hstage (hidle o invite member hopen)
      · rfl

theorem recorded_commit (h : Recorded s) (hclean : s.Clean (.commit tx)) :
    Recorded (s.step platform (.commit tx)) := by
  by_cases hwrote : ∃ o invite member, s.race.txs tx = some o ∧ o.stage = .wrote invite member
  · obtain ⟨o, invite, member, hopen, hstage⟩ := hwrote
    have horg : (s.race.stepCommit tx).org = OwnerRace.applyWrites s.race.org invite member :=
      OwnerRace.org_stepCommit hopen hstage
    have hlogged := logged_commit h hclean hopen hstage
    constructor
    · rw [← horg] at hlogged
      exact hlogged
    · intro tx' o' hopen'
      change (s.race.stepCommit tx).txs tx' = some o' at hopen'
      have hold : s.race.txs tx' = some o' := by
        unfold OwnerRace.stepCommit at hopen'
        rw [hopen] at hopen'
        simp only [hstage] at hopen'
        exact OwnerRace.txs_close hopen'
      have hkeeps := keepsMembers_applyWrites s.race.org invite member
      change Staged (s.race.stepCommit tx).org o'.request o'.stage
      rw [horg]
      exact (h.staged tx' o' hold).mono hkeeps
  · have hidle : ∀ o invite member, s.race.txs tx = some o → o.stage ≠ .wrote invite member :=
      fun o invite member hopen hstage => hwrote ⟨o, invite, member, hopen, hstage⟩
    have hrace : s.race.stepCommit tx = s.race := OwnerRace.stepCommit_idle hidle
    have hsame : s.step platform (.commit tx) = { s with race := s.race.stepCommit tx } := by
      unfold step
      simp only
      rw [entry_idle hidle, Option.toList_none, List.append_nil]
      rfl
    rw [hsame, hrace]
    exact h

/-- Only a commit is logged. -/
theorem step_of_ne_commit {event : RaceEvent} (hne : ∀ tx, event ≠ .commit tx) :
    (s.step platform event).race = s.race.step platform event ∧
      (s.step platform event).log = s.log ∧ (s.step platform event).period = s.period := by
  cases event with
  | begin tx request => exact ⟨rfl, rfl, rfl⟩
  | statement tx now =>
      unfold step
      simp only
      split
      · exact ⟨rfl, rfl, rfl⟩
      · exact ⟨rfl, rfl, rfl⟩
  | commit tx => exact absurd rfl (hne tx)
  | rollback tx => exact ⟨rfl, rfl, rfl⟩
  | upsertUser users => exact ⟨rfl, rfl, rfl⟩

theorem recorded_step {event : RaceEvent} (h : Recorded s) (hclean : s.Clean event) :
    Recorded (s.step platform event) := by
  by_cases hcommit : ∃ tx, event = .commit tx
  · obtain ⟨tx, rfl⟩ := hcommit
    exact recorded_commit h hclean
  · have hne : ∀ tx, event ≠ .commit tx := fun tx heq => hcommit ⟨tx, heq⟩
    have hsame : (s.step platform event).race = s.race.step platform event ∧
        (s.step platform event).log = s.log ∧ (s.step platform event).period = s.period :=
      step_of_ne_commit hne
    have horg : (s.race.step platform event).org = s.race.org :=
      OwnerRace.org_step_of_ne_commit hne
    constructor
    · rw [hsame.1, hsame.2.1, hsame.2.2, horg]
      exact h.logged
    · rw [hsame.1]
      exact staged_step hne h.staged

/-- Between two acceptances of an invite a period begins, and the later one was found in it or
in a later one. -/
theorem Recorded.consumedOnce (h : Recorded s) : ConsumedOnce s where
  once := by
    have hordered : ∀ (i j : Nat) (id : Uuid) (period : Option Nat) (userId userId' : Uuid),
        s.log[i]? = some (.accepted id period userId) →
          s.log[j]? = some (.accepted id period userId') → ¬ i < j := by
      intro i j id period userId userId' hi hj hij
      obtain ⟨m, him, hmj, hissue⟩ := (h.logged.latched id).between i j hij
        ⟨_, hi, period, userId, rfl⟩ ⟨_, hj, period, userId', rfl⟩
      obtain ⟨e, hm, rfl⟩ := hissue
      obtain ⟨q, rfl, hmq⟩ := (h.logged.dated j id period userId' hj).1 m hmj hm
      have hqi := ((h.logged.dated i id (some q) userId hi).2 q rfl).1
      omega
    intro i j id period userId userId' hi hj
    have hij := hordered i j id period userId userId' hi hj
    have hji := hordered j i id period userId' userId hj hi
    omega
  lasting := h.logged.lasting

end Steps

/-- **An invite is consumed once.**  In every run in which each login that accepts an invite finds
it as it read it, and not left over from before a disable of its user, no period of an invite is
accepted twice, and who was disabled stays so until an invite issued later is accepted. -/
theorem invite_consumed_once (platform : IdentityPlatform) (users : Table UserRow UserRow.id)
    (org : OrgTables) (events : List RaceEvent)
    (hclean : (system platform).AllSteps Clean (start users org) events) :
    ∀ s ∈ (system platform).states (start users org) events, ConsumedOnce s := by
  intro s hs
  have hrecorded : Recorded s := (system platform).forall_states_of_allSteps
    (fun _ _ h hstep => recorded_step h hstep) (recorded_start users org) hclean s hs
  exact hrecorded.consumedOnce

namespace TwoMailboxes

open OwnerRace.TwoOwners

def cora : Uuid := "6f1c1a52-3f0e-4b7a-9a53-0c6d5e1b7a03"

/-- An organisation of one owner. -/
def org : OrgTables where
  memberships := ⟨[⟨anna, .owner, none, true⟩], by decide⟩
  invites := Table.empty

def users : Table UserRow UserRow.id where
  rows := [⟨ben, "team@shop.example", "ben", "ben", none⟩]
  nodup := by decide

/-- The users after a login. -/
def afterLogin (users : Table UserRow UserRow.id) (input : Claims) (newId : Uuid) :
    Table UserRow UserRow.id :=
  match upsertUserFromClaims runtime users input newId with
  | .ok (users', _) => users'
  | .error _ => users

/-- The owner invites an email. -/
def invites (email : String) (id : Uuid) : OrgRequest :=
  .invite ⟨anna, .owner⟩ ⟨email, .developer, id, id⟩

/-- All statements of a transaction and its commit. -/
def alone (tx : Nat) (request : OrgRequest) : List RaceEvent :=
  [.begin tx request, .statement tx 0, .statement tx 0, .statement tx 0, .statement tx 0,
    .commit tx]

/-- The mailbox of a team is invited.  A login with its address has found the invite when the
user moves to another address, and the next one who logs in with the old address finds it too. -/
def sharedMailbox : List RaceEvent :=
  alone 1 (invites "team@shop.example" "invite") ++
    [.begin 2 (.resolveJwt ben "team@shop.example"), .statement 2 0, .statement 2 0,
      .upsertUser (afterLogin users ⟨"ben", some "ben@shop.example", none⟩ ben),
      .upsertUser (afterLogin (afterLogin users ⟨"ben", some "ben@shop.example", none⟩ ben)
        ⟨"cora", some "team@shop.example", none⟩ cora),
      .begin 3 (.resolveJwt cora "team@shop.example"), .statement 3 0, .statement 3 0,
      .statement 2 0, .statement 2 0, .commit 2, .statement 3 0, .statement 3 0, .commit 3]

/-- Two mailboxes of one user are invited.  One invite is accepted, the user is disabled, and logs
in with the other address. -/
def otherMailbox : List RaceEvent :=
  alone 1 (invites "team@shop.example" "team") ++ alone 2 (invites "ben@shop.example" "own") ++
    alone 3 (.resolveJwt ben "team@shop.example") ++ alone 4 (.disable ⟨anna, .owner⟩ ben) ++
      .upsertUser (afterLogin users ⟨"ben", some "ben@shop.example", none⟩ ben) ::
        alone 5 (.resolveJwt ben "ben@shop.example")

end TwoMailboxes

open OwnerRace.TwoOwners TwoMailboxes in
/-- One invite makes two members, and an invite from before restores who was disabled. -/
theorem invite_consumed_twice :
    ¬ ConsumedOnce ((system runtime).run (start TwoMailboxes.users TwoMailboxes.org) sharedMailbox) ∧
      ¬ ConsumedOnce
        ((system runtime).run (start TwoMailboxes.users TwoMailboxes.org) otherMailbox) := by
  constructor
  · intro h
    exact absurd (h.once 1 2 "invite" (some 0) ben cora rfl rfl) (by decide)
  · intro h
    rcases h.lasting 3 ben ["own"] rfl with ⟨m, hfind, hdisabled⟩ | ⟨q, j, id, hq, hqj, -, hj⟩
    · obtain rfl := Option.some.inj (show some (⟨ben, .developer, none, false⟩ : MembershipRow) =
        some m from hfind)
      exact hdisabled rfl
    · have hlength : ((system runtime).run (start TwoMailboxes.users TwoMailboxes.org)
          otherMailbox).log.length = 5 := rfl
      have hlt := lt_of_getElem?_eq_some hj
      omega

/-- An invited user logs in. -/
theorem invite_consumed_once_login :
    ConsumedOnce ((system OwnerRace.TwoOwners.runtime).run
      (start TwoMailboxes.users TwoMailboxes.org)
      (TwoMailboxes.alone 1 (TwoMailboxes.invites "team@shop.example" "invite") ++
        TwoMailboxes.alone 2 (.resolveJwt OwnerRace.TwoOwners.ben "team@shop.example"))) := by
  refine invite_consumed_once OwnerRace.TwoOwners.runtime TwoMailboxes.users TwoMailboxes.org _ ?_
    _ (System.run_mem_states _ _ _)
  have hnone : ∀ (s : InviteRace) (event : RaceEvent), (∀ tx, event ≠ .commit tx) →
      s.Clean event := by
    intro s event hne tx _ _ _ _ heq
    exact absurd heq (hne tx)
  refine ⟨hnone _ _ (by simp), hnone _ _ (by simp), hnone _ _ (by simp), hnone _ _ (by simp),
    hnone _ _ (by simp), ?_, hnone _ _ (by simp), hnone _ _ (by simp), hnone _ _ (by simp),
    hnone _ _ (by simp), hnone _ _ (by simp), ?_, trivial⟩
  · intro tx o id now member heq hopen hstage
    obtain rfl := RaceEvent.commit.inj heq
    obtain rfl := Option.some.inj hopen
    cases hstage
  · intro tx o id now member heq hopen hstage
    obtain rfl := RaceEvent.commit.inj heq
    obtain rfl := Option.some.inj hopen
    cases hstage
    refine ⟨⟨⟨_, List.mem_cons_self, rfl, rfl⟩, rfl⟩, ?_⟩
    intro i pending hi
    cases i with
    | zero => cases hi
    | succ i => cases hi

end InviteRace

end Identity
end Ctem
