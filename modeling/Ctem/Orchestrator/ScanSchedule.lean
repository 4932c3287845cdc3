import Ctem.Contracts
import Ctem.Coordination.LeaderLease
import Mathlib.Data.List.Pairwise

/-!
# Scheduled scans

`ScanScheduleService`: on every tick of its timer a replica tries to hold the lease
and, if it does, sweeps every organisation and scanner type.  For each pair it reads
the last scheduled scan and, unless that is younger than the cadence, creates a scan.
A tick is cut where it awaits something, so the ticks of one replica may overlap, and
a tick may outlast the lease that let it in.

* `Tick` is one `runScheduledTick` on its way, over the leases of `LeaderLease`.
* `Overtaken` is what a tick that creates a scan does not look at: a scan created
  since it read the last one.
* `scheduled_spaced_iff`: the scheduled scans keep their cadence precisely when no
  creation is overtaken by a younger scan.
-/

namespace Ctem
namespace Orchestrator

open Foundation Contracts Coordination

/-- `DEFAULT_CADENCE_MS`. -/
def defaultCadenceMs : ScannerType → Nat
  | .sca => 6 * 60 * 60000
  | .sast => 24 * 60 * 60000
  | .container => 12 * 60 * 60000
  | .iac => 24 * 60 * 60000
  | .secrets => 24 * 60 * 60000
  | .asm => 24 * 60 * 60000
  | .cloudPosture => 6 * 60 * 60000

/-- The keys of `DEFAULT_CADENCE_MS`, in their order. -/
def scheduledScannerTypes : List ScannerType :=
  [.sca, .sast, .container, .iac, .secrets, .asm, .cloudPosture]

/-- What a sweep checks one after the other. -/
abbrev SweepTarget := OrgId × ScannerType

/-- The columns of `scans` the scheduler reads. -/
structure ScanCreation where
  orgId : OrgId
  scannerType : ScannerType
  trigger : ScanTrigger
  createdAt : Nat
deriving DecidableEq

/-- The scan was created by the scheduler for the target. -/
def ScanCreation.scheduledFor (scan : ScanCreation) (target : SweepTarget) : Bool :=
  decide (scan.orgId = target.1) && decide (scan.scannerType = target.2) &&
    decide (scan.trigger = .scheduled)

/-- Where a tick is: before an `await` and what it has read. -/
inductive TickPhase where
  /-- Awaits `tryHold`. -/
  | gated
  /-- Awaits the organisations. -/
  | entered
  /-- Awaits the last scan of the first target left. -/
  | sweeping (todo : List SweepTarget)
  /-- Has read the last scan of the target. -/
  | checking (target : SweepTarget) (readAt : Nat) (last : Option Nat) (todo : List SweepTarget)
  /-- Awaits `createScan` for the target. -/
  | creating (target : SweepTarget) (readAt : Nat) (todo : List SweepTarget)

/-- One `runScheduledTick`; its id is that of its `tryHold`. -/
structure Tick where
  id : Nat
  holderId : String
  phase : TickPhase

/-- The leases, the table of scans (the newest first) and the ticks on their way. -/
structure ScheduleWorld where
  lease : LeaseWorld := {}
  scans : List ScanCreation := []
  ticks : List Tick := []

inductive ScheduleEvent where
  /-- A renewal, a store command, the passing of time. -/
  | lease (e : LeaseEvent)
  /-- The interval timer of the replica starts a tick. -/
  | tick (holderId : String)
  /-- `runIfLeader` goes on behind `tryHold`. -/
  | enter (id : Nat)
  | readOrgs (id : Nat) (orgs : List OrgId)
  | readLast (id : Nat)
  | check (id : Nat)
  | create (id : Nat)
  | createFails (id : Nat)
  /-- A read throws, and the tick with it. -/
  | throws (id : Nat)
  /-- A scan nobody scheduled. -/
  | otherScan (orgId : OrgId) (scannerType : ScannerType) (trigger : ScanTrigger)

namespace ScheduleWorld

/-- The tick with the id. -/
def findTick (w : ScheduleWorld) (id : Nat) : Option Tick :=
  w.ticks.find? fun t => decide (t.id = id)

/-- The tick goes on to another phase. -/
def goOn (w : ScheduleWorld) (id : Nat) (phase : TickPhase) : ScheduleWorld :=
  { w with ticks := w.ticks.map fun t => if t.id = id then { t with phase := phase } else t }

/-- The tick is over. -/
def finish (w : ScheduleWorld) (id : Nat) : ScheduleWorld :=
  { w with ticks := w.ticks.filter fun t => decide (t.id ≠ id) }

/-- `findFirst` ordered by `createdAt`, the newest first. -/
def lastScheduled (w : ScheduleWorld) (target : SweepTarget) : Option Nat :=
  ((w.scans.filter fun s => s.scheduledFor target).map ScanCreation.createdAt).max?

/-- `last && Date.now() - last.createdAt.getTime() < cadence`. -/
def tooEarly (w : ScheduleWorld) (target : SweepTarget) : Option Nat → Bool
  | some last => decide (w.lease.now - last < defaultCadenceMs target.2)
  | none => false

/-- A scan is inserted now. -/
def insertScan (w : ScheduleWorld) (target : SweepTarget) (trigger : ScanTrigger) :
    ScheduleWorld :=
  { w with scans := ⟨target.1, target.2, trigger, w.lease.now⟩ :: w.scans }

def step (config : LeaseConfig) (w : ScheduleWorld) : ScheduleEvent → ScheduleWorld
  | .lease e => { w with lease := LeaseWorld.step config w.lease e }
  | .tick h =>
      { w with
        lease := LeaseWorld.step config w.lease (.tryHold h)
        ticks := ⟨w.lease.nextCall, h, .gated⟩ :: w.ticks }
  | .enter id =>
      match w.findTick id with
      | some ⟨_, h, .gated⟩ =>
          match w.lease.returns.find? fun r => decide (r.holderId = h ∧ r.call = id) with
          | some r => if r.result then w.goOn id .entered else w.finish id
          | none => w -- `tryHold` has not returned
      | _ => w
  | .readOrgs id orgs =>
      match w.findTick id with
      | some ⟨_, _, .entered⟩ =>
          w.goOn id (.sweeping (orgs.flatMap fun org =>
            scheduledScannerTypes.map fun scannerType => (org, scannerType)))
      | _ => w
  | .readLast id =>
      match w.findTick id with
      | some ⟨_, _, .sweeping (target :: todo)⟩ =>
          w.goOn id (.checking target w.lease.now (w.lastScheduled target) todo)
      | _ => w
  | .check id =>
      match w.findTick id with
      | some ⟨_, _, .checking target readAt last todo⟩ =>
          if w.tooEarly target last then w.goOn id (.sweeping todo)
          else w.goOn id (.creating target readAt todo)
      | _ => w
  | .create id =>
      match w.findTick id with
      -- neither the lease nor the last scan is looked at again
      | some ⟨_, _, .creating target _ todo⟩ =>
          (w.insertScan target .scheduled).goOn id (.sweeping todo)
      | _ => w
  | .createFails id =>
      match w.findTick id with
      | some ⟨_, _, .creating _ _ todo⟩ => w.goOn id (.sweeping todo)
      | _ => w
  | .throws id => w.finish id
  | .otherScan orgId scannerType trigger =>
      if trigger = .scheduled then w else w.insertScan (orgId, scannerType) trigger

/-- The replicas' schedulers: any event may come at any time. -/
def system (config : LeaseConfig) : System ScheduleWorld ScheduleEvent where
  step := step config
  allowed := fun _ _ => True

/-- Two scans of one target that the scheduler created are a cadence apart. -/
def Apart (s s' : ScanCreation) : Prop :=
  ∀ target, s.scheduledFor target = true → s'.scheduledFor target = true →
    s'.createdAt + defaultCadenceMs target.2 ≤ s.createdAt ∨
      s.createdAt + defaultCadenceMs target.2 ≤ s'.createdAt

/-- Any two scheduled scans of one target are a cadence apart. -/
def Spaced (w : ScheduleWorld) : Prop :=
  w.scans.Pairwise Apart

/-- A tick creates a scan for a target that has got another one, less than a cadence
ago, since the tick read the last. -/
def Overtaken (w : ScheduleWorld) (e : ScheduleEvent) : Prop :=
  ∃ id h target readAt todo, e = .create id ∧
    w.findTick id = some ⟨id, h, .creating target readAt todo⟩ ∧
      ∃ s ∈ w.scans, s.scheduledFor target = true ∧ readAt ≤ s.createdAt ∧
        w.lease.now < s.createdAt + defaultCadenceMs target.2

/-! ## What a tick knows about the table -/

/-- A tick that has read the last scan knows every scan older than its read; once it
has checked the cadence, they are all a cadence old. -/
def PhaseKnows (now : Nat) (scans : List ScanCreation) : TickPhase → Prop
  | .checking target readAt last _ =>
      readAt ≤ now ∧ ∀ s ∈ scans, s.scheduledFor target = true → s.createdAt < readAt →
        ∃ l, last = some l ∧ s.createdAt ≤ l
  | .creating target readAt _ =>
      readAt ≤ now ∧ ∀ s ∈ scans, s.scheduledFor target = true → s.createdAt < readAt →
        s.createdAt + defaultCadenceMs target.2 ≤ now
  | _ => True

/-- The table lies in the past, and every tick knows it up to its read. -/
structure Informed (w : ScheduleWorld) : Prop where
  past : ∀ s ∈ w.scans, s.createdAt ≤ w.lease.now
  ticks : ∀ t ∈ w.ticks, PhaseKnows w.lease.now w.scans t.phase

theorem defaultCadenceMs_pos (scannerType : ScannerType) : 0 < defaultCadenceMs scannerType := by
  cases scannerType <;> decide

theorem PhaseKnows.later {now now' : Nat} {scans : List ScanCreation} {phase : TickPhase}
    (h : PhaseKnows now scans phase) (hle : now ≤ now') : PhaseKnows now' scans phase := by
  cases phase with
  | checking target readAt last todo => exact ⟨Nat.le_trans h.1 hle, h.2⟩
  | creating target readAt todo =>
      refine ⟨Nat.le_trans h.1 hle, ?_⟩
      intro s hs hsched hold
      exact Nat.le_trans (h.2 s hs hsched hold) hle
  | _ => trivial

/-- A scan created now is younger than any read. -/
theorem PhaseKnows.insert {now : Nat} {scans : List ScanCreation} {phase : TickPhase}
    (h : PhaseKnows now scans phase) {scan : ScanCreation} (hscan : scan.createdAt = now) :
    PhaseKnows now (scan :: scans) phase := by
  cases phase with
  | checking target readAt last todo =>
      obtain ⟨hread, hknown⟩ := h
      refine ⟨hread, ?_⟩
      intro s hs hsched hold
      rcases List.mem_cons.mp hs with rfl | hs
      · omega
      · exact hknown s hs hsched hold
  | creating target readAt todo =>
      obtain ⟨hread, hknown⟩ := h
      refine ⟨hread, ?_⟩
      intro s hs hsched hold
      rcases List.mem_cons.mp hs with rfl | hs
      · omega
      · exact hknown s hs hsched hold
  | _ => trivial

variable {config : LeaseConfig} {w : ScheduleWorld}

/-- `findFirst` returns the newest of the scheduled scans there are. -/
theorem le_lastScheduled {target : SweepTarget} {s : ScanCreation} (hs : s ∈ w.scans)
    (hsched : s.scheduledFor target = true) :
    ∃ l, w.lastScheduled target = some l ∧ s.createdAt ≤ l := by
  have hmem : s.createdAt ∈
      (w.scans.filter fun s => s.scheduledFor target).map ScanCreation.createdAt :=
    List.mem_map_of_mem (List.mem_filter.mpr ⟨hs, hsched⟩)
  unfold lastScheduled
  cases hmax : ((w.scans.filter fun s => s.scheduledFor target).map
      ScanCreation.createdAt).max? with
  | none =>
      rw [List.max?_eq_none_iff] at hmax
      rw [hmax] at hmem
      cases hmem
  | some l => exact ⟨l, rfl, (List.max?_eq_some_iff.mp hmax).2 _ hmem⟩

theorem findTick_mem {id : Nat} {t : Tick} (h : w.findTick id = some t) : t ∈ w.ticks :=
  List.mem_of_find?_eq_some h

theorem Informed.goOn (h : w.Informed) (id : Nat) {phase : TickPhase}
    (hphase : PhaseKnows w.lease.now w.scans phase) : (w.goOn id phase).Informed := by
  refine ⟨h.past, ?_⟩
  intro t ht
  obtain ⟨t₀, ht₀, rfl⟩ := List.mem_map.mp ht
  split
  · exact hphase
  · exact h.ticks t₀ ht₀

theorem Informed.finish (h : w.Informed) (id : Nat) : (w.finish id).Informed :=
  ⟨h.past, fun t ht => h.ticks t (List.mem_of_mem_filter ht)⟩

theorem Informed.insertScan (h : w.Informed) (target : SweepTarget) (trigger : ScanTrigger) :
    (w.insertScan target trigger).Informed := by
  refine ⟨?_, fun t ht => (h.ticks t ht).insert rfl⟩
  intro s hs
  rcases List.mem_cons.mp hs with rfl | hs
  · exact Nat.le_refl _
  · exact h.past s hs

theorem Informed.lease (h : w.Informed) (config : LeaseConfig) (e : LeaseEvent) :
    ({ w with lease := LeaseWorld.step config w.lease e } : ScheduleWorld).Informed := by
  have hle : w.lease.now ≤ (LeaseWorld.step config w.lease e).now :=
    LeaseWorld.now_le_step w.lease e
  exact ⟨fun s hs => Nat.le_trans (h.past s hs) hle, fun t ht => (h.ticks t ht).later hle⟩

/-- Every event leaves the ticks informed. -/
theorem Informed.step (h : w.Informed) (e : ScheduleEvent) :
    (ScheduleWorld.step config w e).Informed := by
  cases e with
  | lease e => exact h.lease config e
  | tick holderId =>
      have hlease := h.lease config (.tryHold holderId)
      refine ⟨hlease.past, ?_⟩
      intro t ht
      rcases List.mem_cons.mp ht with rfl | ht
      · trivial
      · exact hlease.ticks t ht
  | enter id =>
      unfold ScheduleWorld.step
      simp only
      split
      · split
        · split
          · exact h.goOn id trivial
          · exact h.finish id
        · exact h
      · exact h
  | readOrgs id orgs =>
      unfold ScheduleWorld.step
      simp only
      split
      · exact h.goOn id trivial
      · exact h
  | readLast id =>
      unfold ScheduleWorld.step
      simp only
      split
      · refine h.goOn id ⟨Nat.le_refl _, ?_⟩
        intro s hs hsched _
        exact le_lastScheduled hs hsched
      · exact h
  | check id =>
      unfold ScheduleWorld.step
      simp only
      split
      · rename_i tickId holderId target readAt last todo htick
        obtain ⟨hread, hknown⟩ := h.ticks _ (findTick_mem htick)
        split
        · exact h.goOn id trivial
        · rename_i hcheck
          refine h.goOn id ⟨hread, ?_⟩
          intro s hs hsched hold
          obtain ⟨l, rfl, hle⟩ := hknown s hs hsched hold
          have hpos := defaultCadenceMs_pos target.2
          have hcadence : ¬ w.lease.now - l < defaultCadenceMs target.2 := by
            simpa [tooEarly] using hcheck
          omega
      · exact h
  | create id =>
      unfold ScheduleWorld.step
      simp only
      split
      · rename_i tickId holderId target readAt todo htick
        exact (h.insertScan target .scheduled).goOn id trivial
      · exact h
  | createFails id =>
      unfold ScheduleWorld.step
      simp only
      split
      · exact h.goOn id trivial
      · exact h
  | throws id => exact h.finish id
  | otherScan orgId scannerType trigger =>
      unfold ScheduleWorld.step
      simp only
      split
      · exact h
      · exact h.insertScan (orgId, scannerType) trigger

/-! ## The cadence -/

/-- A scheduled scan created now is apart from an older one precisely when that is a
cadence old. -/
theorem apart_insert_iff {s : ScanCreation} {target : SweepTarget} {now : Nat}
    (hpast : s.createdAt ≤ now) :
    Apart ⟨target.1, target.2, .scheduled, now⟩ s ↔
      (s.scheduledFor target = true → s.createdAt + defaultCadenceMs target.2 ≤ now) := by
  constructor
  · intro hapart hsched
    have hself : (⟨target.1, target.2, .scheduled, now⟩ : ScanCreation).scheduledFor target =
        true := by
      simp [ScanCreation.scheduledFor]
    have hpos := defaultCadenceMs_pos target.2
    rcases hapart target hself hsched with hold | hnew
    · exact hold
    · have hnew' : now + defaultCadenceMs target.2 ≤ s.createdAt := hnew
      omega
  · intro hold target' hself hsched
    have htarget : target' = target := by
      simp only [ScanCreation.scheduledFor, Bool.and_eq_true, decide_eq_true_eq] at hself
      exact Prod.ext hself.1.1.symm hself.1.2.symm
    subst htarget
    exact Or.inl (hold hsched)

/-- A scan that is not scheduled is apart from every other. -/
theorem apart_of_unscheduled {s s' : ScanCreation} (h : s.trigger ≠ .scheduled) :
    Apart s s' := by
  intro target hsched _
  simp only [ScanCreation.scheduledFor, Bool.and_eq_true, decide_eq_true_eq] at hsched
  exact absurd hsched.2 h

/-- A tick that does not await `createScan` creates nothing. -/
theorem step_create_idle {id : Nat}
    (hidle : ∀ holderId target readAt todo,
      w.findTick id ≠ some ⟨id, holderId, .creating target readAt todo⟩) :
    ScheduleWorld.step config w (.create id) = w := by
  unfold ScheduleWorld.step
  simp only
  split
  · rename_i tickId holderId target readAt todo htick
    have hid : tickId = id := by simpa using List.find?_some htick
    subst hid
    exact absurd htick (hidle holderId target readAt todo)
  · rfl

/-- A tick awaits `createScan` for one target. -/
theorem overtaken_create_iff {id : Nat} {holderId : String} {target : SweepTarget} {readAt : Nat}
    {todo : List SweepTarget}
    (htick : w.findTick id = some ⟨id, holderId, .creating target readAt todo⟩) :
    Overtaken w (.create id) ↔ ∃ s ∈ w.scans, s.scheduledFor target = true ∧
      readAt ≤ s.createdAt ∧ w.lease.now < s.createdAt + defaultCadenceMs target.2 := by
  constructor
  · intro hover
    obtain ⟨id', holderId', target', readAt', todo', heq, hfound, hyoung⟩ := hover
    obtain rfl := ScheduleEvent.create.inj heq
    rw [htick] at hfound
    obtain ⟨-, -, hphase⟩ := Tick.mk.inj (Option.some.inj hfound)
    obtain ⟨rfl, rfl, rfl⟩ := TickPhase.creating.inj hphase
    exact hyoung
  · intro hyoung
    exact ⟨id, holderId, target, readAt, todo, rfl, htick, hyoung⟩

/-- A tick that creates a scan breaks the cadence precisely when it is overtaken. -/
theorem spaced_create_iff (h : w.Informed) (hspaced : w.Spaced) {id : Nat} {holderId : String}
    {target : SweepTarget} {readAt : Nat} {todo : List SweepTarget}
    (htick : w.findTick id = some ⟨id, holderId, .creating target readAt todo⟩) :
    (ScheduleWorld.step config w (.create id)).Spaced ↔ ¬ Overtaken w (.create id) := by
  have hscans : (ScheduleWorld.step config w (.create id)).scans =
      ⟨target.1, target.2, .scheduled, w.lease.now⟩ :: w.scans := by
    simp [ScheduleWorld.step, htick, goOn, insertScan]
  obtain ⟨-, hknown⟩ := h.ticks _ (findTick_mem htick)
  rw [overtaken_create_iff htick]
  unfold Spaced
  rw [hscans, List.pairwise_cons]
  constructor
  · intro hpair hover
    obtain ⟨s, hs, hsched, -, hyoung⟩ := hover
    have hold := (apart_insert_iff (h.past s hs)).mp (hpair.1 s hs) hsched
    omega
  · intro hnot
    refine ⟨?_, hspaced⟩
    intro s hs
    refine (apart_insert_iff (h.past s hs)).mpr ?_
    intro hsched
    by_contra hyoung
    -- older than the read: known to the check; younger: it has overtaken
    by_cases hread : s.createdAt < readAt
    · exact hyoung (hknown s hs hsched hread)
    · exact hnot ⟨s, hs, hsched, Nat.le_of_not_lt hread, Nat.lt_of_not_le hyoung⟩

/-- What else happens creates at most a scan that is not scheduled. -/
theorem scans_step (config : LeaseConfig) (w : ScheduleWorld) {e : ScheduleEvent}
    (hne : ∀ id, e ≠ .create id) :
    (ScheduleWorld.step config w e).scans = w.scans ∨
      ∃ scan, scan.trigger ≠ .scheduled ∧
        (ScheduleWorld.step config w e).scans = scan :: w.scans := by
  cases e with
  | create id => exact absurd rfl (hne id)
  | otherScan orgId scannerType trigger =>
      by_cases htrigger : trigger = .scheduled
      · exact Or.inl (by simp [ScheduleWorld.step, htrigger])
      · refine Or.inr ⟨⟨orgId, scannerType, trigger, w.lease.now⟩, htrigger, ?_⟩
        simp [ScheduleWorld.step, htrigger, insertScan]
  | lease e => exact Or.inl rfl
  | tick holderId => exact Or.inl rfl
  | throws id => exact Or.inl rfl
  | enter id =>
      left
      unfold ScheduleWorld.step
      simp only
      repeat' split
      all_goals rfl
  | readOrgs id orgs =>
      left
      unfold ScheduleWorld.step
      simp only
      split <;> rfl
  | readLast id =>
      left
      unfold ScheduleWorld.step
      simp only
      split <;> rfl
  | check id =>
      left
      unfold ScheduleWorld.step
      simp only
      repeat' split
      all_goals rfl
  | createFails id =>
      left
      unfold ScheduleWorld.step
      simp only
      split <;> rfl

/-- From spaced scans, a step leaves them spaced precisely when it creates no
overtaken one. -/
theorem spaced_step_iff (h : w.Informed) (hspaced : w.Spaced) (e : ScheduleEvent) :
    (ScheduleWorld.step config w e).Spaced ↔ ¬ Overtaken w e := by
  by_cases hcreate : ∃ id, e = .create id
  · obtain ⟨id, rfl⟩ := hcreate
    by_cases hcreating : ∃ holderId target readAt todo,
        w.findTick id = some ⟨id, holderId, .creating target readAt todo⟩
    · obtain ⟨holderId, target, readAt, todo, htick⟩ := hcreating
      exact spaced_create_iff h hspaced htick
    · rw [step_create_idle (fun holderId target readAt todo htick =>
        hcreating ⟨holderId, target, readAt, todo, htick⟩)]
      refine iff_of_true hspaced ?_
      intro hover
      obtain ⟨id', holderId, target, readAt, todo, heq, hfound, -⟩ := hover
      obtain rfl := ScheduleEvent.create.inj heq
      exact hcreating ⟨holderId, target, readAt, todo, hfound⟩
  · have hne : ∀ id, e ≠ .create id := fun id heq => hcreate ⟨id, heq⟩
    have hnot : ¬ Overtaken w e := by
      intro hover
      obtain ⟨id, -, -, -, -, heq, -⟩ := hover
      exact hne id heq
    unfold Spaced
    rcases scans_step config w hne with hsame | ⟨scan, htrigger, hscans⟩
    · rw [hsame]
      exact iff_of_true hspaced hnot
    · rw [hscans, List.pairwise_cons]
      exact iff_of_true ⟨fun s _ => apart_of_unscheduled htrigger, hspaced⟩ hnot

/-- The first replica's tick outlasts its lease between its read and its scan, and the
second replica sweeps the same target meanwhile. -/
def overtakenRun : List ScheduleEvent :=
  [.tick "a", .lease (.takeEffect "a"), .lease (.resume "a" 0), .enter 0,
    .readOrgs 0 ["acme"], .readLast 0, .check 0, .lease (.pass 15000),
    .tick "b", .lease (.takeEffect "b"), .lease (.resume "b" 1), .enter 1,
    .readOrgs 1 ["acme"], .readLast 1, .check 1, .create 1, .create 0]

end ScheduleWorld

end Orchestrator
end Ctem
