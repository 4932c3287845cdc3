import Ctem.Policy.SlaAlerts

/-!
# Lost breach alerts

The claim of a breach commits before its event is published, and nothing takes it back when
the publish fails: no later sweep claims the breach again.  A breach window begins where a
finding is resolved, where its due date is first set or moves later, and where its claim is
reset.

* `alerts_published`, first part: as soon as a claim commits there is a claimed breach
  without an event in its window, and only then.
* Second part: up to the publishes under way, an alert is lost only by a failed publish, by
  a process that stops in between, by a claim whose commit is not acknowledged, or by an SLA
  update that has read a due date it does not move and moves a claimed one.
-/

namespace Ctem
namespace Policy

open Foundation Contracts Findings

namespace AlertWorld

/-- The change sets a due date, or moves it later. -/
def LaterDue (c : FindingChange) : Prop :=
  ∃ r due, c.after = some r ∧ r.slaDueAt = some due ∧
    ∀ r₀ previous, c.before = some r₀ → r₀.slaDueAt = some previous → previous < due

/-- A breach window begins with the change. -/
def OpensWindow (c : FindingChange) : Prop :=
  Resolves c ∨ LaterDue c ∨ IsReset c

/-- The finding is open and past its due date. -/
def OpenBreach (clock : Timestamp) (r : FindingRow) : Prop :=
  r.state.unresolved = true ∧ ∃ due, r.slaDueAt = some due ∧ due < clock

/-- An event was published for the finding's current window. -/
def Published (w : AlertWorld) (k : FindingKey) : Prop :=
  ∃ a ∈ w.sent, a.key = k ∧ Since OpensWindow (w.journal k) a.claim

/-- A sweep is between the claim and the publish for the finding's current window. -/
def UnderWay (w : AlertWorld) (k : FindingKey) : Prop :=
  ∃ id a, w.alerts id = some a ∧ a.key = k ∧ Since OpensWindow (w.journal k) a.claim

/-- Every claimed open breach has its event. -/
def AlertsPublished (w : AlertWorld) : Prop :=
  ∀ k r, w.table.committed k = some r → OpenBreach w.clock r → r.slaNotifiedAt ≠ none →
    Published w k

/-- Every claimed open breach has its event, or a sweep is about to publish it. -/
def NoAlertLost (w : AlertWorld) : Prop :=
  ∀ k r, w.table.committed k = some r → OpenBreach w.clock r → r.slaNotifiedAt ≠ none →
    Published w k ∨ UnderWay w k

/-- The event commits the transaction. -/
def Commits (e : AlertEvent) (id : Nat) : Prop :=
  e = .statement (.commit id) ∨ e = .commitUnacknowledged id

/-- The event commits a claim that has updated its row. -/
def claimCommits (w : AlertWorld) : AlertEvent → Bool
  | .statement (.commit id) => (w.claimed? id).isSome
  | .commitUnacknowledged id => (w.claimed? id).isSome
  | _ => false

/-- The transaction has moved the due date of a claimed row later, and the date it has read
was no earlier, or there was none. -/
def keepsStaleAlert (w : AlertWorld) (id : Nat) : Bool :=
  match w.table.txs id with
  | some (.sla _ _ hours now, .wrote seen k) =>
      (w.table.committed k).any fun r => r.slaNotifiedAt.isSome &&
        (r.slaDueAt.all fun previous => decide (previous < now + hours * 3600000)) &&
          !slaNotifyResets ((seen k).bind FindingRow.slaDueAt) (now + hours * 3600000)
  | _ => false

/-- The event loses an alert. -/
def losesAlert (w : AlertWorld) : AlertEvent → Bool
  -- the window moves on, and the claim stays from the old one
  | .statement (.commit id) => w.keepsStaleAlert id
  -- the claim takes effect, and its sweep does not learn of it
  | .commitUnacknowledged id => (w.claimed? id).isSome || w.keepsStaleAlert id
  -- the publish fails, or the process stops before it
  | .lose id => (w.alerts id).isSome
  | _ => false

/-! ## What a change does to a window -/

section Change

variable {k : FindingKey} {c : FindingChange}

theorem Made.resolves (h : Made k c) (hresolves : Resolves c) : ¬ Notified c.after := by
  obtain ⟨r, hr, hwrite⟩ := h
  rw [hr, notified_some, not_not]
  generalize htx : c.tx = tx at hwrite
  rcases hresolves with ⟨orgId, findingId, now, heq⟩ | ⟨orgId, payload, fingerprints, seenAt, heq⟩
  · rw [htx] at heq
    subst heq
    generalize c.before = before at hwrite
    cases hwrite with
    | triage _ _ _ _ r₀ hfound hid => rfl
  · rw [htx] at heq
    subst heq
    generalize c.before = before at hwrite
    cases hwrite with
    | close _ _ _ _ r₀ hselected => rfl

/-- The due date of a stored row is moved by an SLA update alone. -/
theorem Made.laterDue (h : Made k c) (hlater : LaterDue c) (hstored : Notified c.before) :
    ∃ orgId findingId hours now r₀, c.tx = .sla orgId findingId hours now ∧
      c.before = some r₀ ∧ c.after =
        some (slaUpdatedRow (c.seen.bind FindingRow.slaDueAt) (now + hours * 3600000) r₀) := by
  obtain ⟨r, hr, hwrite⟩ := h
  obtain ⟨r', due, hr', hdue, hlt⟩ := hlater
  rw [hr] at hr'
  obtain rfl := Option.some.inj hr'
  generalize htx : c.tx = tx at hwrite
  generalize hbefore : c.before = before at hwrite hstored hlt
  cases hwrite with
  | create orgId payload row seenAt id hkey => exact absurd hstored not_notified_none
  | refresh orgId payload row seenAt id r₀ hkey => exact absurd (hlt r₀ due rfl hdue) (lt_irrefl _)
  | close orgId payload fingerprints seenAt r₀ hselected =>
      exact absurd (hlt r₀ due rfl hdue) (lt_irrefl _)
  | triage orgId findingId state now r₀ hfound hid =>
      exact absurd (hlt r₀ due rfl hdue) (lt_irrefl _)
  | sla orgId findingId hours now r₀ hid => exact ⟨_, _, _, _, r₀, rfl, rfl, hr⟩
  | claim orgId findingId now r₀ hid hbreach => exact absurd (hlt r₀ due rfl hdue) (lt_irrefl _)
  | enrich cve patch found r₀ hseen hreached hid =>
      exact absurd (hlt r₀ due rfl hdue) (lt_irrefl _)

end Change

variable {w : AlertWorld}

/-- A change that leaves a claim in place opens no window, but for a stale due date. -/
theorem not_opensWindow {id : Nat} (hstale : w.keepsStaleAlert id = false) {k : FindingKey}
    {c : FindingChange} {progress : TxProgress FindingKey (Option FindingRow)} (hmade : Made k c)
    (htx : w.table.txs id = some (c.tx, progress)) (hseen : c.seen = w.table.seenAt k progress)
    (hbefore : c.before = w.table.committed k)
    (hsingle : c.tx.single = true → ∃ seen, progress = .wrote seen k)
    (hset : Notified c.before) (hafter : Notified c.after) : ¬ OpensWindow c := by
  rintro (hresolves | hlater | hreset)
  · exact hmade.resolves hresolves hafter
  · obtain ⟨orgId, findingId, hours, now, r₀, htx', hr₀, hr⟩ := hmade.laterDue hlater hset
    obtain ⟨seen, rfl⟩ := hsingle (by rw [htx']; rfl)
    have hcommitted : w.table.committed k = some r₀ := by
      rw [← hbefore]
      exact hr₀
    have hseenAt : c.seen = seen k := hseen
    have hnotified : r₀.slaNotifiedAt ≠ none := by
      rw [hr₀, notified_some] at hset
      exact hset
    have hmoved : ∀ previous, r₀.slaDueAt = some previous → previous < now + hours * 3600000 := by
      obtain ⟨r', due, hr', hdue, hlt⟩ := hlater
      rw [hr] at hr'
      obtain rfl := Option.some.inj hr'
      obtain rfl := Option.some.inj hdue
      exact fun previous hprevious => hlt r₀ previous hr₀ hprevious
    -- the claim is left in place, so the update has read no earlier date
    have hkeeps : slaNotifyResets ((seen k).bind FindingRow.slaDueAt) (now + hours * 3600000) =
        false := by
      rw [hr, notified_some, hseenAt] at hafter
      cases hresets :
          slaNotifyResets ((seen k).bind FindingRow.slaDueAt) (now + hours * 3600000) with
      | false => rfl
      | true => exact absurd (if_pos hresets) hafter
    have htrue : w.keepsStaleAlert id = true := by
      rw [htx'] at htx
      simp only [keepsStaleAlert, htx, hcommitted, Option.any_some, hkeeps, Bool.and_eq_true,
        Option.isSome_iff_ne_none, Option.all_eq_true, decide_eq_true_eq]
      exact ⟨⟨hnotified, hmoved⟩, rfl⟩
    rw [hstale] at htrue
    cases htrue
  · exact hreset.2.1 hafter

/-- A commit that claims a row has it claimed for the sweep. -/
theorem claimed?_of_claim {id : Nat} {k : FindingKey}
    {progress : TxProgress FindingKey (Option FindingRow)} {c : FindingChange} (hmade : Made k c)
    (htx : w.table.txs id = some (c.tx, progress))
    (hsingle : c.tx.single = true → ∃ seen, progress = .wrote seen k)
    (hafter : (w.committed id).table.committed k = c.after) (hclaim : IsClaim c) :
    ∃ a, w.claimed? id = some a ∧ a.key = k ∧ a.claim = (w.journal k).length := by
  obtain ⟨orgId, findingId, now, heq⟩ := hclaim
  obtain ⟨seen, rfl⟩ := hsingle (by rw [heq]; rfl)
  obtain ⟨r, hr, -⟩ := hmade
  rw [heq] at htx
  have hread : w.table.read id k = some r := by
    rw [← hr, ← hafter]
    exact (TxTable.committed_commit w.table id k).symm
  refine ⟨⟨k, (w.journal k).length, r.id, r.slaDueAt⟩, ?_, rfl, rfl⟩
  simp [AlertWorld.claimed?, htx, hread]

/-! ## Nothing is lost -/

/-- Every claimed row has its event in the current window, or it is under way. -/
structure Kept (w : AlertWorld) : Prop where
  sound : Sound w
  covered : ∀ k, Notified (w.table.committed k) → Published w k ∨ UnderWay w k

theorem kept_start : Kept (start fun _ => none) where
  sound := sound_start _
  covered := fun _ hset => absurd hset not_notified_none

/-- What covers a row covers it as long as no change opens a window. -/
theorem covered_of_since {w' : AlertWorld} {k : FindingKey}
    (hcovered : Published w k ∨ UnderWay w k) (hsent : w'.sent = w.sent)
    (halerts : ∀ id a, w.alerts id = some a → w'.alerts id = some a)
    (hsince : ∀ i, Since OpensWindow (w.journal k) i → Since OpensWindow (w'.journal k) i) :
    Published w' k ∨ UnderWay w' k := by
  rcases hcovered with ⟨a, ha, hkey, hwindow⟩ | ⟨id, a, ha, hkey, hwindow⟩
  · exact Or.inl ⟨a, hsent ▸ ha, hkey, hsince a.claim hwindow⟩
  · exact Or.inr ⟨id, a, halerts id a ha, hkey, hsince a.claim hwindow⟩

/-- A commit, when the sweep holds what it has claimed. -/
theorem Kept.committed (h : Kept w) {id : Nat} (hstale : w.keepsStaleAlert id = false)
    {alerts : Nat → Option Alert}
    (hkeep : ∀ i a, w.alerts i = some a → alerts i = some a)
    (hclaim : ∀ a, w.claimed? id = some a → ∃ i, alerts i = some a)
    (hsound : Sound { w.committed id with alerts := alerts }) :
    Kept { w.committed id with alerts := alerts } := by
  refine ⟨hsound, ?_⟩
  intro k hset
  change Notified ((w.committed id).table.committed k) at hset
  rcases h.sound.commit_cases id k with ⟨-, hjournal, hsame⟩ |
    ⟨c, progress, hjournal, hmade, htx, hseen, hbefore, hafter, hsingle⟩
  · rw [hsame] at hset
    refine covered_of_since (h.covered k hset) rfl hkeep ?_
    intro i hsince
    change Since OpensWindow ((w.committed id).journal k) i
    rw [hjournal]
    exact hsince
  · rw [hafter] at hset
    by_cases hisClaim : IsClaim c
    · obtain ⟨a, ha, hkey, hlength⟩ := claimed?_of_claim hmade htx hsingle hafter hisClaim
      obtain ⟨i, hi⟩ := hclaim a ha
      refine Or.inr ⟨i, a, hi, hkey, ?_⟩
      change Since OpensWindow ((w.committed id).journal k) a.claim
      rw [hjournal, hlength, since_concat_iff]
      exact ⟨since_length OpensWindow _, fun hlt => absurd hlt (Nat.lt_irrefl _)⟩
    · have hold := hmade.notified_before hset hisClaim
      have hnot := not_opensWindow hstale hmade htx hseen hbefore hsingle hold hset
      rw [hbefore] at hold
      refine covered_of_since (h.covered k hold) rfl hkeep ?_
      intro i hsince
      change Since OpensWindow ((w.committed id).journal k) i
      rw [hjournal, since_concat_iff]
      exact ⟨hsince, fun _ => hnot⟩

/-- An event that changes neither rows nor journals nor alerts. -/
theorem Kept.idle (h : Kept w) {w' : AlertWorld} (hsound : Sound w')
    (hrows : w'.table.committed = w.table.committed) (hjournal : w'.journal = w.journal)
    (hsent : w'.sent = w.sent) (halerts : w'.alerts = w.alerts) : Kept w' := by
  refine ⟨hsound, ?_⟩
  intro k hset
  rw [hrows] at hset
  refine covered_of_since (h.covered k hset) hsent ?_ ?_
  · intro id a ha
    rw [halerts]
    exact ha
  · intro i hsince
    rw [hjournal]
    exact hsince

theorem Kept.statement (h : Kept w) (e : FindingEvent)
    (hloses : w.losesAlert (.statement e) = false) : Kept (w.statement e) := by
  have hsound := h.sound.statement e
  by_cases hcommit : ∃ id, e = .commit id
  · obtain ⟨id, rfl⟩ := hcommit
    unfold AlertWorld.statement at hsound ⊢
    simp only at hsound ⊢
    cases hclaimed : w.claimed? id with
    | none =>
        simp only [hclaimed] at hsound
        refine h.committed hloses (fun i a ha => ha) ?_ hsound
        intro a ha
        rw [hclaimed] at ha
        cases ha
    | some a =>
        simp only [hclaimed] at hsound
        refine h.committed hloses ?_ ?_ hsound
        · -- the process has held no alert while its transaction was open
          intro i b hb
          have hne : i ≠ id := by
            rintro rfl
            have hidle := h.sound.idle i b hb
            unfold AlertWorld.claimed? at hclaimed
            rw [hidle] at hclaimed
            cases hclaimed
          rw [Function.update_of_ne hne]
          exact hb
        · intro b hb
          rw [hclaimed] at hb
          obtain rfl := Option.some.inj hb
          exact ⟨id, Function.update_self _ _ _⟩
  · obtain ⟨hrows, hjournal, hsent, halerts⟩ :=
      statement_frame w (fun id heq => hcommit ⟨id, heq⟩)
    exact h.idle hsound hrows hjournal hsent halerts

/-- An alert that is published or still held covers the row that it covered. -/
theorem Kept.publish (h : Kept w) {id : Nat} {a : Alert} (ha : w.alerts id = some a) :
    Kept { w with
      alerts := Function.update w.alerts id none
      sent := w.sent ++ [⟨a, (w.journal a.key).length⟩] } := by
  refine ⟨h.sound.publish ha, ?_⟩
  intro k hset
  rcases h.covered k hset with ⟨b, hb, hkey, hsince⟩ | ⟨i, b, hb, hkey, hsince⟩
  · exact Or.inl ⟨b, List.mem_append_left _ hb, hkey, hsince⟩
  · by_cases hi : i = id
    · subst hi
      rw [ha] at hb
      obtain rfl := Option.some.inj hb
      exact Or.inl ⟨_, List.mem_append_right _ (List.mem_singleton_self _), hkey, hsince⟩
    · refine Or.inr ⟨i, b, ?_, hkey, hsince⟩
      change Function.update w.alerts id none i = some b
      rw [Function.update_of_ne hi]
      exact hb

/-- An event that loses no alert keeps every claimed row covered. -/
theorem Kept.step (h : Kept w) {e : AlertEvent} (hloses : w.losesAlert e = false) :
    Kept (AlertWorld.step w e) := by
  cases e with
  | statement e => exact h.statement e hloses
  | commitUnacknowledged id =>
      have hboth : (w.claimed? id).isSome = false ∧ w.keepsStaleAlert id = false :=
        Bool.or_eq_false_iff.mp hloses
      refine h.committed hboth.2 (fun i a ha => ha) ?_ (h.sound.committed id)
      intro a ha
      rw [ha] at hboth
      cases hboth.1
  | publish id =>
      unfold AlertWorld.step
      simp only
      split
      · rename_i a ha
        exact h.publish ha
      · exact h
  | lose id =>
      have hnone : w.alerts id = none :=
        Option.isNone_iff_eq_none.mp (Option.isSome_eq_false_iff.mp hloses)
      refine h.idle (h.sound.step (.lose id)) rfl rfl rfl ?_
      exact Function.update_eq_self_iff.mpr hnone.symm
  | pass ms => exact h.idle (h.sound.step (.pass ms)) rfl rfl rfl rfl

/-! ## A claim commits before its publish -/

/-- No alert is claimed. -/
structure Unclaimed (w : AlertWorld) : Prop where
  sound : Sound w
  unclaimed : ∀ k, ¬ Notified (w.table.committed k)

theorem unclaimed_start : Unclaimed (start fun _ => none) where
  sound := sound_start _
  unclaimed := fun _ => not_notified_none

theorem Unclaimed.committed (h : Unclaimed w) {id : Nat} (hnone : w.claimed? id = none)
    (k : FindingKey) : ¬ Notified ((w.committed id).table.committed k) := by
  rcases h.sound.commit_cases id k with ⟨-, -, hsame⟩ |
    ⟨c, progress, -, hmade, htx, -, hbefore, hafter, hsingle⟩
  · rw [hsame]
    exact h.unclaimed k
  · rw [hafter]
    intro hset
    have hisClaim : ¬ IsClaim c := by
      intro hisClaim
      obtain ⟨a, ha, -⟩ := claimed?_of_claim hmade htx hsingle hafter hisClaim
      rw [hnone] at ha
      cases ha
    have hold := hmade.notified_before hset hisClaim
    rw [hbefore] at hold
    exact h.unclaimed k hold

/-- As long as no claim commits no alert is claimed. -/
theorem Unclaimed.step (h : Unclaimed w) {e : AlertEvent} (hnot : w.claimCommits e = false) :
    Unclaimed (AlertWorld.step w e) := by
  refine ⟨h.sound.step e, ?_⟩
  intro k
  cases e with
  | statement e =>
      by_cases hcommit : ∃ id, e = .commit id
      · obtain ⟨id, rfl⟩ := hcommit
        have hnone : w.claimed? id = none := by
          simpa [claimCommits] using hnot
        change ¬ Notified ((w.statement (.commit id)).table.committed k)
        unfold AlertWorld.statement
        simp only [hnone]
        exact h.committed hnone k
      · obtain ⟨hrows, -⟩ := statement_frame w (fun id heq => hcommit ⟨id, heq⟩)
        change ¬ Notified ((w.statement e).table.committed k)
        rw [hrows]
        exact h.unclaimed k
  | commitUnacknowledged id =>
      have hnone : w.claimed? id = none := by
        simpa [claimCommits] using hnot
      exact h.committed hnone k
  | publish id =>
      unfold AlertWorld.step
      simp only
      split
      · exact h.unclaimed k
      · exact h.unclaimed k
  | lose id => exact h.unclaimed k
  | pass ms => exact h.unclaimed k

theorem claimCommits_iff {e : AlertEvent} :
    w.claimCommits e = true ↔ ∃ id, Commits e id ∧ (w.claimed? id).isSome = true := by
  constructor
  · intro hclaim
    unfold claimCommits at hclaim
    split at hclaim
    · exact ⟨_, Or.inl rfl, hclaim⟩
    · exact ⟨_, Or.inr rfl, hclaim⟩
    · cases hclaim
  · rintro ⟨id, rfl | rfl, hsome⟩
    · exact hsome
    · exact hsome

theorem claimed?_isSome {id : Nat} (hsome : (w.claimed? id).isSome = true) :
    ∃ orgId findingId now seen k,
      w.table.txs id = some (.claim orgId findingId now, .wrote seen k) := by
  unfold AlertWorld.claimed? at hsome
  split at hsome
  · rename_i orgId findingId now seen k htx
    exact ⟨orgId, findingId, now, seen, k, htx⟩
  · cases hsome

/-- Whether its commit is acknowledged or not, a transaction leaves the same rows. -/
theorem step_commits (w : AlertWorld) {e : AlertEvent} {id : Nat} (hcommits : Commits e id) :
    (AlertWorld.step w e).table = (w.committed id).table ∧
      (AlertWorld.step w e).journal = (w.committed id).journal ∧
        (AlertWorld.step w e).sent = w.sent ∧ (AlertWorld.step w e).clock = w.clock := by
  rcases hcommits with rfl | rfl
  · change (w.statement (.commit id)).table = _ ∧ (w.statement (.commit id)).journal = _ ∧
      (w.statement (.commit id)).sent = _ ∧ (w.statement (.commit id)).clock = _
    unfold AlertWorld.statement
    simp only
    split
    · exact ⟨rfl, rfl, rfl, rfl⟩
    · exact ⟨rfl, rfl, rfl, rfl⟩
  · exact ⟨rfl, rfl, rfl, rfl⟩

/-- The commit of a claim leaves a claimed breach without an event in its window. -/
theorem Unclaimed.claim (h : Unclaimed w) {e : AlertEvent} (hclaim : w.claimCommits e = true) :
    ¬ AlertsPublished (AlertWorld.step w e) := by
  obtain ⟨id, hcommits, hsome⟩ := claimCommits_iff.mp hclaim
  obtain ⟨orgId, findingId, now, seen, k, htx⟩ := claimed?_isSome hsome
  intro hpublished
  obtain ⟨htable, hjournals, hsent, hclock⟩ := step_commits w hcommits
  rcases h.sound.commit_cases id k with ⟨hnone, -⟩ |
    ⟨c, progress, hjournal, hmade, htx', -, hbefore, hafter, -⟩
  · -- the claim has the row locked, so that its commit changes it
    obtain ⟨v, -, hchange⟩ := TxTable.Coherent.change?_isSome h.sound.coherent htx
    rw [hnone] at hchange
    cases hchange
  · rw [htx] at htx'
    obtain ⟨htx', -⟩ := Prod.mk.inj (Option.some.inj htx')
    obtain ⟨r, hr, hbreach, hset⟩ := hmade.claim htx'.symm
    obtain ⟨-, -, ⟨due, hdue, hlt⟩, hopen⟩ := slaClaimable_iff.mp hbreach
    have hstamp : now ≤ w.clock := h.sound.stamps id orgId findingId now _ htx
    have hbreached : OpenBreach (AlertWorld.step w e).clock (claimedRow now r) := by
      rw [hclock]
      exact ⟨hopen, due, hdue, Nat.lt_of_lt_of_le hlt hstamp⟩
    have hcommitted : (AlertWorld.step w e).table.committed k = some (claimedRow now r) := by
      rw [htable, hafter]
      exact hset
    obtain ⟨a, ha, hkey, hsince⟩ :=
      hpublished k _ hcommitted hbreached (Option.some_ne_none now)
    rw [hsent] at ha
    rw [hjournals, hjournal, since_concat_iff] at hsince
    -- an event of this window would go back to a claim that is still in place
    have hclaimed := (h.sound.breaches a ha).isClaim
    rw [hkey] at hclaimed
    refine h.unclaimed k ((h.sound.latched k).left_set a.claim hclaimed ?_)
    exact hsince.1.mono (fun _ hreset => Or.inr (Or.inr hreset))

/-- **Breach alerts.**  From an empty table, every claimed open breach has an event in its
current window in all states of a run precisely when no claim ever commits in it.  And if no
event of the run loses an alert, every claimed open breach has its event at all times, or a
sweep is between the claim and its publish. -/
theorem alerts_published (es : List AlertEvent) :
    ((∀ w ∈ system.states (start fun _ => none) es, AlertsPublished w) ↔
        system.AllSteps (fun w e => w.claimCommits e = false) (start fun _ => none) es) ∧
      (system.AllSteps (fun w e => w.losesAlert e = false) (start fun _ => none) es →
        ∀ w ∈ system.states (start fun _ => none) es, NoAlertLost w) := by
  constructor
  · refine System.forall_states_iff_of_breaks system (I := Unclaimed) ?_ ?_ ?_ unclaimed_start
    · intro w e h hnot
      exact h.step hnot
    · intro w h k r hr _ hset
      refine absurd ?_ (h.unclaimed k)
      rw [hr, notified_some]
      exact hset
    · intro w e h hclaim
      exact h.claim (Bool.not_eq_false _ ▸ hclaim)
  · intro hsteps w hw
    have hkept := System.forall_states_of_allSteps system (I := Kept)
      (fun w e h hloses => h.step hloses) kept_start hsteps w hw
    intro k r hr _ hset
    refine hkept.covered k ?_
    rw [hr, notified_some]
    exact hset

/-- An ingest reports a finding, an evaluation gives it an hour, and behind that hour a sweep
claims its breach. -/
def claimedBreachRun : List AlertEvent :=
  let finding : RawFinding :=
    { externalId := "rule", scannerType := .sast, scannerName := "semgrep", title := "eval"
      severity := .high }
  let k : FindingKey := ("acme", "fp")
  [.statement (.start 0 (.report "acme" ⟨"s", "j", "a", .sast, none, [finding]⟩
      ⟨"fp", finding, [], []⟩ 0 "f")), .statement (.find 0), .statement (.write 0 k),
    .statement (.commit 0), .statement (.start 0 (.sla "acme" "f" 1 0)), .statement (.find 0),
    .statement (.write 0 k), .statement (.commit 0), .pass 3600001,
    .statement (.start 0 (.claim "acme" "f" 0)), .statement (.write 0 k), .statement (.commit 0)]

/-- The sweep publishes what it has claimed. -/
theorem alerts_published_claimedBreach :
    NoAlertLost (system.run (start fun _ => none) (claimedBreachRun ++ [.publish 0])) :=
  (alerts_published (claimedBreachRun ++ [.publish 0])).2 (by decide +kernel) _
    (system.run_mem_states _ _)

/-- The publish fails, and the breach stays claimed. -/
theorem failed_publish_loses_alert :
    ¬ ∀ es : List AlertEvent, ∀ w ∈ system.states (start fun _ => none) es, AlertsPublished w := by
  intro hall
  have hpublished := hall (claimedBreachRun ++ [.lose 0]) _ (system.run_mem_states _ _)
  have hrow : ((system.run (start fun _ => none) (claimedBreachRun ++ [.lose 0])).table.committed
      ("acme", "fp")).any (fun r => r.state.unresolved && decide (r.slaDueAt = some 3600000) &&
        r.slaNotifiedAt.isSome) = true := by decide +kernel
  have hsent : (system.run (start fun _ => none) (claimedBreachRun ++ [.lose 0])).sent = [] := by
    decide +kernel
  have hclock : (system.run (start fun _ => none) (claimedBreachRun ++ [.lose 0])).clock =
      3600001 := by decide +kernel
  obtain ⟨r, hr, hbreach⟩ := (Option.any_eq_true _ _).mp hrow
  simp only [Bool.and_eq_true, decide_eq_true_eq, Option.isSome_iff_ne_none] at hbreach
  obtain ⟨⟨hopen, hdue⟩, hset⟩ := hbreach
  have hpast : OpenBreach 3600001 r := ⟨hopen, 3600000, hdue, by decide⟩
  obtain ⟨a, ha, -⟩ := hpublished _ r hr (hclock ▸ hpast) hset
  rw [hsent] at ha
  cases ha

end AlertWorld

end Policy
end Ctem
