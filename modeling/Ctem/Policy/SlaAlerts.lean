import Ctem.Findings.Writers
import Ctem.Foundation.Latch

/-!
# SLA breach alerts

`runSweep` lists the open breaches, claims them one by one and publishes
`ctem.policy.sla_breached` for each claim it has won.  The list may be stale and any number
of replicas sweep at once, so that a claim of any finding may come at any time; between the
commit of a claim and the publish the process holds the alert, and may lose it.

`AlertWorld` is the findings table with all its writers, the alerts the sweeps hold and the
events sent.  The journal of a finding is a history variable, the committed changes of its
row in order; a claim is named by its position there.

* `notified_once`: a finding's claims have a reset of `slaNotifiedAt` between them, and
  each is published at most once, for a breach.
* `alerts_published`: what is lost, and when nothing is.
-/

namespace Ctem
namespace Policy

open Foundation Contracts Findings

/-- A committed change of a finding row. -/
abbrev FindingChange := TxTable.RowChange (Option FindingRow) FindingTx

/-- A breach that a sweep has claimed: where, and what it publishes of it. -/
structure Alert where
  key : FindingKey
  /-- The position of the claim in the journal of the row. -/
  claim : Nat
  findingId : Uuid
  dueAt : Option Timestamp
deriving DecidableEq

/-- A published alert. -/
structure SentAlert extends Alert where
  /-- The length of the row's journal at the publish. -/
  height : Nat
deriving DecidableEq

/-- The findings table and the sweeps. -/
structure AlertWorld where
  table : FindingTable
  /-- The database's clock. -/
  clock : Timestamp := 0
  journal : FindingKey → List FindingChange := fun _ => []
  /-- The claim is committed, the event not yet published. -/
  alerts : Nat → Option Alert := fun _ => none
  sent : List SentAlert := []

inductive AlertEvent where
  | statement (e : FindingEvent)
  /-- The commit reaches the database and its acknowledgement does not reach the process. -/
  | commitUnacknowledged (id : Nat)
  | publish (id : Nat)
  /-- The publish throws, or the process stops before it. -/
  | lose (id : Nat)
  | pass (ms : Nat)

/-- The claim goes by the database's `now()`, the time its transaction starts at. -/
def stamped (clock : Timestamp) : FindingTx → FindingTx
  | .claim orgId findingId _ => .claim orgId findingId clock
  | tx => tx

namespace AlertWorld

def start (rows : FindingKey → Option FindingRow) : AlertWorld :=
  { table := TxTable.ofRows rows }

/-- The transaction commits. -/
def committed (w : AlertWorld) (id : Nat) : AlertWorld :=
  { w with
    table := TxTable.step findingWriters w.table (.commit id)
    journal := w.table.journalAfter w.journal id }

/-- `claimed`: the row the claim returns, if it has updated one. -/
def claimed? (w : AlertWorld) (id : Nat) : Option Alert :=
  match w.table.txs id with
  | some (.claim _ _ _, .wrote _ k) =>
      (w.table.read id k).map fun r => ⟨k, (w.journal k).length, r.id, r.slaDueAt⟩
  | _ => none

/-- One statement of a transaction. -/
def statement (w : AlertWorld) : FindingEvent → AlertWorld
  | .start id tx =>
      -- a sweep goes on to the next finding behind the publish
      match w.alerts id with
      | none => { w with table := TxTable.step findingWriters w.table
                            (.start id (stamped w.clock tx)) }
      | some _ => w
  | .find id => { w with table := TxTable.step findingWriters w.table (.find id) }
  | .write id k => { w with table := TxTable.step findingWriters w.table (.write id k) }
  | .commit id =>
      match w.claimed? id with
      -- from here on the sweep holds an alert that only its own publish can send
      | some alert =>
          { w.committed id with alerts := Function.update w.alerts id (some alert) }
      | none => w.committed id
  | .rollback id => { w with table := TxTable.step findingWriters w.table (.rollback id) }

def step (w : AlertWorld) : AlertEvent → AlertWorld
  | .statement e => w.statement e
  | .commitUnacknowledged id => w.committed id
  | .publish id =>
      match w.alerts id with
      | some alert =>
          { w with
            alerts := Function.update w.alerts id none
            sent := w.sent ++ [⟨alert, (w.journal alert.key).length⟩] }
      | none => w
  | .lose id => { w with alerts := Function.update w.alerts id none }
  | .pass ms => { w with clock := w.clock + ms }

/-- The writers of the findings table and the sweeps: any event may come at any time. -/
def system : System AlertWorld AlertEvent where
  step := step
  allowed := fun _ _ => True

/-! ## The properties -/

/-- The finding's breach alert is claimed. -/
def Notified (v : Option FindingRow) : Prop :=
  ∃ r, v = some r ∧ r.slaNotifiedAt ≠ none

/-- The change is a claim. -/
def IsClaim (c : FindingChange) : Prop :=
  ∃ orgId findingId now, c.tx = .claim orgId findingId now

/-- A triage or the closing step of an ingest resolves the row. -/
def Resolves (c : FindingChange) : Prop :=
  (∃ orgId findingId now, c.tx = .triage orgId findingId .resolved now) ∨
    ∃ orgId payload fingerprints seenAt, c.tx = .close orgId payload fingerprints seenAt

/-- An ingest that has read the row resolved opens it as a regression. -/
def Reopens (c : FindingChange) : Prop :=
  (∃ orgId payload row seenAt id, c.tx = .report orgId payload row seenAt id) ∧
    ∃ r, c.seen = some r ∧ r.state = .resolved

/-- An evaluation moves the due date behind the one that it has read. -/
def MovesDue (c : FindingChange) : Prop :=
  (∃ orgId findingId hours now, c.tx = .sla orgId findingId hours now) ∧
    ∃ r due previous, c.after = some r ∧ r.slaDueAt = some due ∧
      c.seen.bind FindingRow.slaDueAt = some previous ∧ previous < due

/-- A writer takes the claim of the alert back: by a resolution, a regression or a later
due date. -/
def IsReset (c : FindingChange) : Prop :=
  Notified c.before ∧ ¬ Notified c.after ∧ (Resolves c ∨ Reopens c ∨ MovesDue c)

/-- Between the two claims of a finding its `slaNotifiedAt` was reset. -/
def ResetBetween (journal : List FindingChange) (claim claim' : Nat) : Prop :=
  ∃ m, EntryAt IsReset journal m ∧ (claim < m ∧ m < claim' ∨ claim' < m ∧ m < claim)

/-- Any two alerts sent for a finding go back to claims with a reset between them. -/
def NotifiedOnce (w : AlertWorld) : Prop :=
  w.sent.Pairwise fun a b => a.key = b.key → ResetBetween (w.journal a.key) a.claim b.claim

/-- The same by the times of the two publications. -/
def ResetBetweenPublications (w : AlertWorld) : Prop :=
  w.sent.Pairwise fun a b => a.key = b.key →
    ∃ m, EntryAt IsReset (w.journal a.key) m ∧ a.height ≤ m ∧ m < b.height

/-- The row was an open breach when the alert was claimed, and is what the event names. -/
def ClaimedBreach (journal : List FindingChange) (alert : Alert) : Prop :=
  ∃ c orgId findingId now r due, journal[alert.claim]? = some c ∧
    c.tx = .claim orgId findingId now ∧ c.before = some r ∧ r.id = alert.findingId ∧
      r.slaDueAt = alert.dueAt ∧ r.resolvedAt = none ∧ r.state.unresolved = true ∧
        r.slaDueAt = some due ∧ due < now

/-- Only breaches are published. -/
def BreachesOnly (w : AlertWorld) : Prop :=
  ∀ a ∈ w.sent, ClaimedBreach (w.journal a.key) a.toAlert

/-! ## What a change of a row does to its claim -/

/-- The change is what the statement of its transaction makes of the row. -/
def Made (k : FindingKey) (c : FindingChange) : Prop :=
  ∃ r, c.after = some r ∧ RowWrite k c.seen c.before c.tx r

theorem notified_some {r : FindingRow} : Notified (some r) ↔ r.slaNotifiedAt ≠ none := by
  constructor
  · rintro ⟨r', hr, hnotified⟩
    obtain rfl := Option.some.inj hr
    exact hnotified
  · intro hnotified
    exact ⟨r, rfl, hnotified⟩

theorem not_notified_none : ¬ Notified none := by
  rintro ⟨r, hr, -⟩
  cases hr

section Change

variable {k : FindingKey} {c : FindingChange}

/-- A claim finds the alert unclaimed on an open breach, and claims it. -/
theorem Made.claim (h : Made k c) {orgId : OrgId} {findingId : Uuid} {now : Timestamp}
    (htx : c.tx = .claim orgId findingId now) :
    ∃ r, c.before = some r ∧ slaClaimable now r = true ∧ c.after = some (claimedRow now r) := by
  obtain ⟨r, hafter, hwrite⟩ := h
  rw [htx] at hwrite
  generalize hbefore : c.before = before at hwrite
  cases hwrite with
  | claim _ _ _ r₀ hid hbreach => exact ⟨r₀, rfl, hbreach, hafter⟩

theorem Made.claim_open (h : Made k c) (hclaim : IsClaim c) : ¬ Notified c.before := by
  obtain ⟨orgId, findingId, now, htx⟩ := hclaim
  obtain ⟨r, hbefore, hbreach, -⟩ := h.claim htx
  rw [hbefore, notified_some, not_not]
  exact (slaClaimable_iff.mp hbreach).1

theorem Made.claim_sets (h : Made k c) (hclaim : IsClaim c) : Notified c.after := by
  obtain ⟨orgId, findingId, now, htx⟩ := hclaim
  obtain ⟨r, -, -, hafter⟩ := h.claim htx
  rw [hafter, notified_some]
  exact Option.some_ne_none now

/-- Only a claim claims. -/
theorem Made.notified_before (h : Made k c) (hafter : Notified c.after) (hnot : ¬ IsClaim c) :
    Notified c.before := by
  obtain ⟨r, hr, hwrite⟩ := h
  rw [hr, notified_some] at hafter
  generalize htx : c.tx = tx at hwrite
  generalize hbefore : c.before = before at hwrite
  cases hwrite with
  | create orgId payload row seenAt id hkey => exact absurd rfl hafter
  | refresh orgId payload row seenAt id r₀ hkey =>
      rw [notified_some]
      change (if _ then none else r₀.slaNotifiedAt) ≠ none at hafter
      split at hafter
      · exact absurd rfl hafter
      · exact hafter
  | close orgId payload fingerprints seenAt r₀ hselected => exact absurd rfl hafter
  | triage orgId findingId state now r₀ hfound hid =>
      rw [notified_some]
      change (if _ then none else r₀.slaNotifiedAt) ≠ none at hafter
      split at hafter
      · exact absurd rfl hafter
      · exact hafter
  | sla orgId findingId hours now r₀ hid =>
      rw [notified_some]
      change (if _ then none else r₀.slaNotifiedAt) ≠ none at hafter
      split at hafter
      · exact absurd rfl hafter
      · exact hafter
  | claim orgId findingId now r₀ hid hbreach => exact absurd ⟨_, _, _, htx⟩ hnot
  | enrich cve patch found r₀ hseen hreached hid => exact notified_some.mpr hafter

theorem slaNotifyResets_iff {previousDue : Option Timestamp} {due : Timestamp} :
    slaNotifyResets previousDue due = true ↔
      ∃ previous, previousDue = some previous ∧ previous < due := by
  cases previousDue with
  | none => simp [slaNotifyResets]
  | some previous => simp [slaNotifyResets]

/-- Whoever takes a claim back is a reset. -/
theorem Made.reset (h : Made k c) (hbefore : Notified c.before) (hafter : ¬ Notified c.after) :
    IsReset c := by
  refine ⟨hbefore, hafter, ?_⟩
  obtain ⟨r, hr, hwrite⟩ := h
  rw [hr, notified_some, not_not] at hafter
  generalize htx : c.tx = tx at hwrite
  generalize hcurrent : c.before = before at hwrite hbefore
  cases hwrite with
  | create orgId payload row seenAt id hkey => exact absurd hbefore not_notified_none
  | refresh orgId payload row seenAt id r₀ hkey =>
      rw [notified_some] at hbefore
      change (if seenState c.seen = .resolved then none else r₀.slaNotifiedAt) = none at hafter
      by_cases hseen : seenState c.seen = .resolved
      · -- the ingest had read the row resolved, so it reopens it
        refine Or.inr (Or.inl ⟨⟨_, _, _, _, _, htx⟩, ?_⟩)
        cases hfound : c.seen with
        | none =>
            rw [hfound] at hseen
            cases hseen
        | some found =>
            rw [hfound] at hseen
            exact ⟨found, rfl, hseen⟩
      · rw [if_neg hseen] at hafter
        exact absurd hafter hbefore
  | close orgId payload fingerprints seenAt r₀ hselected =>
      exact Or.inl (Or.inr ⟨_, _, _, _, htx⟩)
  | triage orgId findingId state now r₀ hfound hid =>
      rw [notified_some] at hbefore
      change (if state = .resolved then none else r₀.slaNotifiedAt) = none at hafter
      by_cases hresolved : state = .resolved
      · subst hresolved
        exact Or.inl (Or.inl ⟨_, _, _, htx⟩)
      · rw [if_neg hresolved] at hafter
        exact absurd hafter hbefore
  | sla orgId findingId hours now r₀ hid =>
      rw [notified_some] at hbefore
      change (if slaNotifyResets (c.seen.bind FindingRow.slaDueAt) (now + hours * 3600000) = true
        then none else r₀.slaNotifiedAt) = none at hafter
      by_cases hresets :
          slaNotifyResets (c.seen.bind FindingRow.slaDueAt) (now + hours * 3600000) = true
      · obtain ⟨previous, hprevious, hlt⟩ := slaNotifyResets_iff.mp hresets
        exact Or.inr (Or.inr ⟨⟨_, _, _, _, htx⟩, _, _, previous, hr, rfl, hprevious, hlt⟩)
      · rw [if_neg hresets] at hafter
        exact absurd hafter hbefore
  | claim orgId findingId now r₀ hid hbreach => cases hafter
  | enrich cve patch found r₀ hseen hreached hid =>
      rw [notified_some] at hbefore
      exact absurd hafter hbefore

end Change

/-! ## What holds in every state -/

/-- The claim an alert goes back to, in the journals of all rows. -/
def Alert.slot (a : Alert) : FindingKey × Nat := (a.key, a.claim)

/-- What links the table, the journals and the alerts. -/
structure Sound (w : AlertWorld) : Prop where
  coherent : TxTable.Coherent findingWriters w.table
  made : ∀ k, ∀ c ∈ w.journal k, Made k c
  latched : ∀ k, Latched IsClaim IsReset (w.journal k) (Notified (w.table.committed k))
  /-- Alerts held and sent go back to claims of breaches. -/
  held : ∀ id a, w.alerts id = some a → ClaimedBreach (w.journal a.key) a
  breaches : BreachesOnly w
  /-- Each claim is that of one alert. -/
  distinct : ∀ id id' a a', w.alerts id = some a → w.alerts id' = some a' →
    Alert.slot a = Alert.slot a' → id = id'
  unsent : ∀ id a, w.alerts id = some a → ∀ b ∈ w.sent, Alert.slot b.toAlert ≠ Alert.slot a
  once : w.sent.Pairwise fun a b => Alert.slot a.toAlert ≠ Alert.slot b.toAlert
  /-- A sweep that holds an alert has no transaction open. -/
  idle : ∀ id a, w.alerts id = some a → w.table.txs id = none
  stamps : ∀ id orgId findingId now progress,
    w.table.txs id = some (.claim orgId findingId now, progress) → now ≤ w.clock

theorem sound_start (rows : FindingKey → Option FindingRow) : Sound (start rows) where
  coherent := TxTable.coherent_ofRows findingWriters rows
  made := fun k c hc => absurd hc List.not_mem_nil
  latched := fun k => latched_nil _
  held := fun id a ha => by cases ha
  breaches := fun a ha => absurd ha List.not_mem_nil
  distinct := fun id id' a a' ha => by cases ha
  unsent := fun id a ha => by cases ha
  once := List.Pairwise.nil
  idle := fun id a ha => by cases ha
  stamps := fun id orgId findingId now progress htx => by cases htx

theorem ClaimedBreach.isClaim {journal : List FindingChange} {a : Alert}
    (h : ClaimedBreach journal a) : EntryAt IsClaim journal a.claim := by
  obtain ⟨c, orgId, findingId, now, r, due, hc, htx, -⟩ := h
  exact ⟨c, hc, orgId, findingId, now, htx⟩

/-- The journal only grows. -/
theorem ClaimedBreach.append {journal : List FindingChange} {a : Alert}
    (h : ClaimedBreach journal a) (more : List FindingChange) :
    ClaimedBreach (journal ++ more) a := by
  have hlt : a.claim < journal.length := h.isClaim.lt_length
  obtain ⟨c, orgId, findingId, now, r, due, hc, hrest⟩ := h
  refine ⟨c, orgId, findingId, now, r, due, ?_, hrest⟩
  rw [List.getElem?_append_left hlt]
  exact hc

variable {w : AlertWorld}

/-- What a commit does to one row, its journal and its claim. -/
theorem Sound.commit_cases (h : Sound w) (id : Nat) (k : FindingKey) :
    (w.table.change? id k = none ∧ (w.committed id).journal k = w.journal k ∧
        (w.committed id).table.committed k = w.table.committed k) ∨
      ∃ c progress, (w.committed id).journal k = w.journal k ++ [c] ∧ Made k c ∧
        w.table.txs id = some (c.tx, progress) ∧ c.seen = w.table.seenAt k progress ∧
          c.before = w.table.committed k ∧ (w.committed id).table.committed k = c.after ∧
            (c.tx.single = true → ∃ seen, progress = .wrote seen k) := by
  rcases h.coherent.journal_cases w.journal id k with hsame |
    ⟨c, progress, -, hjournal, htx, hseen, hwrites, hbefore, hafter, hsingle⟩
  · exact Or.inl hsame
  · exact Or.inr ⟨c, progress, hjournal, findingWriters_cases hwrites, htx, hseen, hbefore, hafter,
      hsingle⟩

/-- The time of a claim stays when the statement starts none. -/
theorem Sound.stamps_step (h : Sound w) {e : FindingEvent} (hstart : ∀ id tx, e ≠ .start id tx)
    (id : Nat) (orgId : OrgId) (findingId : Uuid) (now : Timestamp)
    (progress : TxProgress FindingKey (Option FindingRow))
    (htx : (TxTable.step findingWriters w.table e).txs id =
      some (.claim orgId findingId now, progress)) : now ≤ w.clock := by
  rcases TxTable.txs_step_cases htx with ⟨progress', hold⟩ | heq
  · exact h.stamps id orgId findingId now progress' hold
  · exact absurd heq (hstart id _)

theorem Sound.committed (h : Sound w) (id : Nat) : Sound (w.committed id) where
  coherent := h.coherent.commit id
  made := by
    intro k c hc
    rcases h.commit_cases id k with ⟨-, hjournal, -⟩ | ⟨c', progress, hjournal, hmade, -⟩
    · rw [hjournal] at hc
      exact h.made k c hc
    · rw [hjournal, List.mem_append, List.mem_singleton] at hc
      rcases hc with hc | rfl
      · exact h.made k c hc
      · exact hmade
  latched := by
    intro k
    rcases h.commit_cases id k with ⟨-, hjournal, hsame⟩ |
      ⟨c, progress, hjournal, hmade, -, -, hbefore, hafter, -⟩
    · rw [hjournal, hsame]
      exact h.latched k
    · rw [hjournal, hafter]
      refine (h.latched k).concat ?_ hmade.claim_sets ?_
      · rw [← hbefore]
        exact hmade.claim_open
      · rw [← hbefore]
        intro hset hnot
        by_contra hafter'
        exact hnot (hmade.reset hset hafter')
  held := fun i a ha => (h.held i a ha).append _
  breaches := fun a ha => (h.breaches a ha).append _
  distinct := h.distinct
  unsent := h.unsent
  once := h.once
  idle := by
    intro i a ha
    change (TxTable.step findingWriters w.table (.commit id)).txs i = none
    exact TxTable.txs_step_eq_none (h.idle i a ha) (fun tx heq => by cases heq)
  stamps := h.stamps_step (e := .commit id) (fun i tx heq => by cases heq)

/-- A claim whose row is written is the next change of that row. -/
theorem Sound.claimed? (h : Sound w) {id : Nat} {a : Alert} (ha : w.claimed? id = some a) :
    a.claim = (w.journal a.key).length ∧ ClaimedBreach ((w.committed id).journal a.key) a := by
  unfold AlertWorld.claimed? at ha
  split at ha
  · rename_i orgId findingId now seen k htx
    obtain ⟨r, hread, rfl⟩ := Option.map_eq_some_iff.mp ha
    obtain ⟨v, hwritten, hchange⟩ := h.coherent.change?_isSome htx
    have hv : v = some r := by
      rw [← hread]
      exact (VersionedRow.read_of_written hwritten).symm
    have hjournal : (w.committed id).journal k =
        w.journal k ++ [⟨.claim orgId findingId now, seen k, w.table.committed k, v⟩] := by
      change w.journal k ++ (w.table.change? id k).toList = _
      rw [hchange, Option.toList_some]
    refine ⟨rfl, ?_⟩
    rw [hjournal]
    have hmade := (h.committed id).made k ⟨.claim orgId findingId now, seen k,
      w.table.committed k, v⟩ (by rw [hjournal]; exact List.mem_concat_self)
    obtain ⟨r₀, hbefore, hbreach, hafter⟩ := hmade.claim rfl
    obtain ⟨-, hresolved, ⟨due, hdue, hlt⟩, hopen⟩ := slaClaimable_iff.mp hbreach
    have hr : r = claimedRow now r₀ := by
      have hafter' : v = some (claimedRow now r₀) := hafter
      rw [hv] at hafter'
      exact Option.some.inj hafter'
    subst hr
    exact ⟨_, orgId, findingId, now, r₀, due, List.getElem?_concat_length, rfl, hbefore, rfl, rfl,
      hresolved, hopen, hdue, hlt⟩
  · cases ha

/-- The sweep holds the alert it has claimed. -/
theorem Sound.claim (h : Sound w) {id : Nat} {a : Alert} (ha : w.claimed? id = some a) :
    Sound { w.committed id with alerts := Function.update w.alerts id (some a) } := by
  obtain ⟨hlength, hbreach⟩ := h.claimed? ha
  -- every alert there is goes back to an earlier change
  have hnew : ∀ b, ClaimedBreach (w.journal b.key) b → Alert.slot b ≠ Alert.slot a := by
    intro b hb hslot
    obtain ⟨hkey, hclaim⟩ := Prod.mk.inj hslot
    have hlt := hb.isClaim.lt_length
    rw [hkey, hclaim, hlength] at hlt
    exact Nat.lt_irrefl _ hlt
  have hc := h.committed id
  refine ⟨hc.coherent, hc.made, hc.latched, ?_, hc.breaches, ?_, ?_, hc.once, ?_, hc.stamps⟩
  · intro i b hb
    rcases update_some_eq_some hb with ⟨-, rfl⟩ | ⟨-, hb⟩
    · exact hbreach
    · exact hc.held i b hb
  · intro i i' b b' hb hb' hslot
    rcases update_some_eq_some hb with ⟨hi, hba⟩ | ⟨hi, hb⟩
    · rcases update_some_eq_some hb' with ⟨hi', -⟩ | ⟨-, hb'⟩
      · rw [hi, hi']
      · rw [hba] at hslot
        exact absurd hslot.symm (hnew b' (h.held i' b' hb'))
    · rcases update_some_eq_some hb' with ⟨-, hba'⟩ | ⟨-, hb'⟩
      · rw [hba'] at hslot
        exact absurd hslot (hnew b (h.held i b hb))
      · exact h.distinct i i' b b' hb hb' hslot
  · intro i b hb s hs
    rcases update_some_eq_some hb with ⟨-, rfl⟩ | ⟨-, hb⟩
    · exact hnew s.toAlert (h.breaches s hs)
    · exact h.unsent i b hb s hs
  · intro i b hb
    rcases update_some_eq_some hb with ⟨rfl, -⟩ | ⟨-, hb⟩
    · exact Function.update_self _ _ _
    · exact hc.idle i b hb

/-- The sweep publishes the alert it holds. -/
theorem Sound.publish (h : Sound w) {id : Nat} {a : Alert} (ha : w.alerts id = some a) :
    Sound { w with
      alerts := Function.update w.alerts id none
      sent := w.sent ++ [⟨a, (w.journal a.key).length⟩] } := by
  refine ⟨h.coherent, h.made, h.latched, ?_, ?_, ?_, ?_, ?_, ?_, h.stamps⟩
  · intro i b hb
    exact h.held i b (update_none_eq_some hb).2
  · intro s hs
    rcases List.mem_append.mp hs with hs | hs
    · exact h.breaches s hs
    · obtain rfl := List.mem_singleton.mp hs
      exact h.held id a ha
  · intro i i' b b' hb hb'
    exact h.distinct i i' b b' (update_none_eq_some hb).2 (update_none_eq_some hb').2
  · intro i b hb s hs
    obtain ⟨hne, hb⟩ := update_none_eq_some hb
    rcases List.mem_append.mp hs with hs | hs
    · exact h.unsent i b hb s hs
    · obtain rfl := List.mem_singleton.mp hs
      intro hslot
      exact hne (h.distinct i id b a hb ha hslot.symm)
  · rw [List.pairwise_append]
    refine ⟨h.once, List.pairwise_singleton _ _, ?_⟩
    intro s hs t ht
    obtain rfl := List.mem_singleton.mp ht
    exact h.unsent id a ha s hs
  · intro i b hb
    exact h.idle i b (update_none_eq_some hb).2

/-- A statement that neither starts a transaction nor commits one. -/
theorem Sound.tableStep (h : Sound w) {e : FindingEvent} (hstart : ∀ id tx, e ≠ .start id tx)
    (hcommit : ∀ id, e ≠ .commit id) :
    Sound { w with table := TxTable.step findingWriters w.table e } where
  coherent := h.coherent.step e
  made := h.made
  latched := by
    intro k
    rw [TxTable.committed_step w.table hcommit]
    exact h.latched k
  held := h.held
  breaches := h.breaches
  distinct := h.distinct
  unsent := h.unsent
  once := h.once
  idle := fun id a ha => TxTable.txs_step_eq_none (h.idle id a ha) (hstart id)
  stamps := h.stamps_step hstart

/-- A process that holds no alert starts a transaction. -/
theorem Sound.startTx (h : Sound w) {id : Nat} (hnone : w.alerts id = none) (tx : FindingTx) :
    Sound { w with table := TxTable.step findingWriters w.table
                              (.start id (stamped w.clock tx)) } where
  coherent := h.coherent.step (.start id (stamped w.clock tx))
  made := h.made
  latched := by
    intro k
    rw [TxTable.committed_step w.table (fun i heq => by cases heq)]
    exact h.latched k
  held := h.held
  breaches := h.breaches
  distinct := h.distinct
  unsent := h.unsent
  once := h.once
  idle := by
    intro i a ha
    refine TxTable.txs_step_eq_none (h.idle i a ha) ?_
    intro tx' heq
    obtain ⟨rfl, -⟩ := TxEvent.start.inj heq
    rw [hnone] at ha
    cases ha
  stamps := by
    intro i orgId findingId now progress htx
    rcases TxTable.txs_step_cases htx with ⟨progress', hold⟩ | heq
    · exact h.stamps i orgId findingId now progress' hold
    · obtain ⟨-, hstamp⟩ := TxEvent.start.inj heq
      -- the claim is stamped with the clock
      cases tx with
      | claim orgId' findingId' now' =>
          obtain ⟨-, -, rfl⟩ := FindingTx.claim.inj hstamp
          exact Nat.le_refl w.clock
      | report orgId' payload row seenAt id' => cases hstamp
      | close orgId' payload fingerprints seenAt => cases hstamp
      | triage orgId' findingId' state now' => cases hstamp
      | sla orgId' findingId' hours now' => cases hstamp
      | enrich cve patch data => cases hstamp

theorem Sound.statement (h : Sound w) (e : FindingEvent) : Sound (w.statement e) := by
  cases e with
  | start id tx =>
      unfold AlertWorld.statement
      simp only
      split
      · rename_i hnone
        exact h.startTx hnone tx
      · exact h
  | find id =>
      exact h.tableStep (fun i tx heq => by cases heq) (fun i heq => by cases heq)
  | write id k =>
      exact h.tableStep (fun i tx heq => by cases heq) (fun i heq => by cases heq)
  | commit id =>
      unfold AlertWorld.statement
      simp only
      split
      · rename_i a ha
        exact h.claim ha
      · exact h.committed id
  | rollback id =>
      exact h.tableStep (fun i tx heq => by cases heq) (fun i heq => by cases heq)

/-- A statement before the commit leaves everything but the open transactions as it is. -/
theorem statement_frame (w : AlertWorld) {e : FindingEvent} (hne : ∀ id, e ≠ .commit id) :
    (w.statement e).table.committed = w.table.committed ∧ (w.statement e).journal = w.journal ∧
      (w.statement e).sent = w.sent ∧ (w.statement e).alerts = w.alerts := by
  cases e with
  | start id tx =>
      unfold AlertWorld.statement
      simp only
      split
      · exact ⟨TxTable.committed_step w.table (fun i heq => by cases heq), rfl, rfl, rfl⟩
      · exact ⟨rfl, rfl, rfl, rfl⟩
  | find id => exact ⟨TxTable.committed_step (K := findingWriters) w.table hne, rfl, rfl, rfl⟩
  | write id k => exact ⟨TxTable.committed_step (K := findingWriters) w.table hne, rfl, rfl, rfl⟩
  | commit id => exact absurd rfl (hne id)
  | rollback id => exact ⟨TxTable.committed_step (K := findingWriters) w.table hne, rfl, rfl, rfl⟩

/-- Every event keeps the table, the journals and the alerts in line. -/
theorem Sound.step (h : Sound w) (e : AlertEvent) : Sound (AlertWorld.step w e) := by
  cases e with
  | statement e => exact h.statement e
  | commitUnacknowledged id => exact h.committed id
  | publish id =>
      unfold AlertWorld.step
      simp only
      split
      · rename_i a ha
        exact h.publish ha
      · exact h
  | lose id =>
      refine ⟨h.coherent, h.made, h.latched, ?_, h.breaches, ?_, ?_, h.once, ?_, h.stamps⟩
      · exact fun i a ha => h.held i a (update_none_eq_some ha).2
      · exact fun i i' a a' ha ha' =>
          h.distinct i i' a a' (update_none_eq_some ha).2 (update_none_eq_some ha').2
      · exact fun i a ha => h.unsent i a (update_none_eq_some ha).2
      · exact fun i a ha => h.idle i a (update_none_eq_some ha).2
  | pass ms =>
      refine ⟨h.coherent, h.made, h.latched, h.held, h.breaches, h.distinct, h.unsent, h.once,
        h.idle, ?_⟩
      intro id orgId findingId now progress htx
      exact Nat.le_trans (h.stamps id orgId findingId now progress htx) (Nat.le_add_right _ ms)

theorem sound_run (rows : FindingKey → Option FindingRow) (es : List AlertEvent) :
    Sound (system.run (start rows) es) := by
  refine System.run_of_allSteps system (I := Sound) (P := fun _ _ => True) ?_ ?_ ?_
  · intro w e h _
    exact h.step e
  · exact sound_start rows
  · exact System.legal_of_forall_allowed system (fun _ _ => trivial) (start rows) es

/-! ## Once a claim -/

/-- Two claims of a finding have a reset between them. -/
theorem Sound.resetBetween (h : Sound w) {a b : Alert} (ha : ClaimedBreach (w.journal a.key) a)
    (hb : ClaimedBreach (w.journal b.key) b) (hkey : a.key = b.key)
    (hslot : Alert.slot a ≠ Alert.slot b) :
    ResetBetween (w.journal a.key) a.claim b.claim := by
  have hclaim : a.claim ≠ b.claim := by
    intro heq
    exact hslot (Prod.ext hkey heq)
  rw [← hkey] at hb
  rcases Nat.lt_or_gt_of_ne hclaim with hlt | hgt
  · obtain ⟨m, ham, hmb, hreset⟩ := (h.latched a.key).between _ _ hlt ha.isClaim hb.isClaim
    exact ⟨m, hreset, Or.inl ⟨ham, hmb⟩⟩
  · obtain ⟨m, hbm, hma, hreset⟩ := (h.latched a.key).between _ _ hgt hb.isClaim ha.isClaim
    exact ⟨m, hreset, Or.inr ⟨hbm, hma⟩⟩

/-- **Notify once.**  Whatever findings there are, and however the statements of sweeps,
evaluations, ingests and triages interleave: the claims of any two published alerts of a
finding have a reset of its `slaNotifiedAt` between them, and no alert is published of a
finding that was no open breach when it was claimed. -/
theorem notified_once (rows : FindingKey → Option FindingRow) (es : List AlertEvent) :
    NotifiedOnce (system.run (start rows) es) ∧ BreachesOnly (system.run (start rows) es) := by
  have h := sound_run rows es
  refine ⟨?_, h.breaches⟩
  have hbreach := h.breaches
  refine List.Pairwise.imp_of_mem ?_ h.once
  intro a b ha hb hslot hkey
  exact h.resetBetween (hbreach a ha) (hbreach b hb) hkey hslot

/-- A sweep claims the alert of a breach and is slow to publish it.  The finding is triaged
as resolved and as open again, another sweep claims and publishes the next alert, and then
the first publishes its own: by the times of the publications nothing is in between. -/
theorem late_publication :
    ¬ ∀ (rows : FindingKey → Option FindingRow) (es : List AlertEvent),
      ResetBetweenPublications (system.run (start rows) es) := by
  intro hall
  let row : FindingRow :=
    { id := "f", orgId := "acme", assetId := "a", fingerprint := "fp", scannerType := .sast
      scannerName := "semgrep", title := "eval", severity := .high, slaDueAt := some 5 }
  let k : FindingKey := ("acme", "fp")
  let rows : FindingKey → Option FindingRow := fun k' => if k' = k then some row else none
  let sweep (id : Nat) : List AlertEvent :=
    [.statement (.start id (.claim "acme" "f" 0)), .statement (.write id k),
      .statement (.commit id)]
  let triage (state : FindingState) : List AlertEvent :=
    [.statement (.start 9 (.triage "acme" "f" state 11)), .statement (.find 9),
      .statement (.write 9 k), .statement (.commit 9)]
  let es : List AlertEvent :=
    .pass 10 :: (sweep 0 ++ triage .resolved ++ triage .open ++ sweep 1 ++
      [.publish 1, .publish 0])
  have hsent : (system.run (start rows) es).sent =
      [⟨⟨k, 3, "f", some 5⟩, 4⟩, ⟨⟨k, 0, "f", some 5⟩, 4⟩] := by decide +kernel
  have hbetween := hall rows es
  unfold ResetBetweenPublications at hbetween
  rw [hsent] at hbetween
  obtain ⟨m, -, hle, hlt⟩ := List.rel_of_pairwise_cons hbetween (List.mem_singleton_self _) rfl
  exact Nat.not_lt.mpr hle hlt

end AlertWorld

end Policy
end Ctem
