import Ctem.Foundation.Runs
import Ctem.Coordination.LeaseStore

/-!
# Leader leases over one store

`LeaderLease.tryHold` and `release` of any number of replicas on one key, cut where
the code awaits the store.  A call is suspended on one command at a time; a replica's
commands take effect in the order it issued them, each at some later time or never,
and a suspended call resumes with the answer or with an error, whichever of the two
its command met.  Several calls of one replica may be suspended at once; they share
the flag `held`.

* `Effect` is one command that took effect, with what the key held before and after
  it; `Return` is one finished `tryHold`, with the effect whose answer finished it.
* `Recorded` links the calls to the log of effects, `Ledger` the log to the store.
* `tryHold_exclusive`: two replicas are never told the same lease.
* `tryHold_truthful_iff`: when a replica is told the truth about its own lease.
-/

namespace Ctem
namespace Coordination

open Foundation

/-- The store commands of a lease. -/
inductive LeaseCommand where
  | setNxPx | expireIfValue | delIfValue
deriving DecidableEq

/-- The key the replicas compete for and how long each asks for.  A store takes no
expiry of zero. -/
structure LeaseConfig where
  key : String
  ttlMs : String → Nat
  ttlPos : ∀ holderId, 0 < ttlMs holderId

/-- A command that took effect: the how-manieth of the run, whose, and what the key
held before and after. -/
structure Effect where
  seq : Nat
  holderId : String
  command : LeaseCommand
  time : Nat
  before : Option String
  answer : Bool
  after : Option String
deriving DecidableEq

/-- A call that awaits a command, with its answer once there is one. -/
structure Suspended where
  call : Nat
  command : LeaseCommand
  answer : Option Effect := none

/-- The fields of a `LeaderLease` that change, the commands it has issued that have
not yet taken effect, and its suspended calls. -/
structure LeaderLease where
  held : Bool := false
  issued : List (Nat × LeaseCommand) := []
  suspended : List Suspended := []

/-- A finished `tryHold`; `because` is missing when a store call failed. -/
structure Return where
  holderId : String
  call : Nat
  result : Bool
  because : Option Effect
deriving DecidableEq

/-- The store and the replicas. -/
structure LeaseWorld where
  now : Nat := 0
  store : MemoryLeaseStore := {}
  leases : String → LeaderLease := fun _ => {}
  nextCall : Nat := 0
  /-- The effects so far, the newest first. -/
  log : List Effect := []
  returns : List Return := []

inductive LeaseEvent where
  | pass (ms : Nat)
  | tryHold (holderId : String)
  | release (holderId : String)
  /-- The oldest command the replica has issued takes effect. -/
  | takeEffect (holderId : String)
  /-- The oldest command the replica has issued never takes effect. -/
  | lose (holderId : String)
  /-- A suspended call resumes with its answer. -/
  | resume (holderId : String) (call : Nat)
  /-- A suspended call resumes with an error. -/
  | fail (holderId : String) (call : Nat)

namespace LeaderLease

/-- Issue a command for the call and await it. -/
def issue (lease : LeaderLease) (call : Nat) (command : LeaseCommand) : LeaderLease :=
  { lease with
    issued := lease.issued ++ [(call, command)]
    suspended := ⟨call, command, none⟩ :: lease.suspended }

/-- The call is no longer suspended. -/
def wake (lease : LeaderLease) (call : Nat) : LeaderLease :=
  { lease with suspended := lease.suspended.filter fun x => decide (x.call ≠ call) }

/-- `tryHold` up to its first `await`. -/
def tryHold (lease : LeaderLease) (call : Nat) : LeaderLease :=
  if lease.held then lease.issue call .expireIfValue else lease.issue call .setNxPx

/-- `release` up to its `await`. -/
def release (lease : LeaderLease) (call : Nat) : LeaderLease :=
  let wasHeld := lease.held
  let lease := { lease with held := false }
  if wasHeld then lease.issue call .delIfValue else lease

/-- A suspended call goes on with an answer: the object, and what `tryHold` returns
when that ends it. -/
def resume (lease : LeaderLease) (x : Suspended) (answer : Bool) : LeaderLease × Option Bool :=
  let lease := lease.wake x.call
  match x.command with
  | .expireIfValue =>
      if answer then (lease, some true)
      -- lost the lease: the same call goes on and tries to acquire
      else ({ lease with held := false }.issue x.call .setNxPx, none)
  | .setNxPx =>
      if answer then ({ lease with held := true }, some true)
      else ({ lease with held := false }, some false)
  | .delIfValue => (lease, none)

/-- A suspended call goes on with an error. -/
def fail (lease : LeaderLease) (x : Suspended) : LeaderLease × Option Bool :=
  let lease := lease.wake x.call
  match x.command with
  | .delIfValue => (lease, none)
  -- the `catch` of `tryHold`, whatever its command has done to the store
  | _ => ({ lease with held := false }, some false)

/-- The answer of a command reaches the call that awaits it. -/
def answered (lease : LeaderLease) (call : Nat) (e : Effect) : LeaderLease :=
  { lease with
    suspended := lease.suspended.map fun x =>
      if x.call = call ∧ x.command = e.command then { x with answer := some e } else x }

end LeaderLease

namespace LeaseWorld

variable (config : LeaseConfig)

/-- The world with the lease of one replica replaced. -/
def withLease (w : LeaseWorld) (holderId : String) (lease : LeaderLease) : LeaseWorld :=
  { w with leases := fun h => if h = holderId then lease else w.leases h }

/-- What the store does with a command. -/
def execute (w : LeaseWorld) (holderId : String) : LeaseCommand → MemoryLeaseStore × Bool
  | .setNxPx => w.store.setNxPx w.now config.key holderId (config.ttlMs holderId)
  | .expireIfValue => w.store.expireIfValue w.now config.key holderId (config.ttlMs holderId)
  | .delIfValue => w.store.delIfValue w.now config.key holderId

/-- The record of a command that takes effect now. -/
def effect (w : LeaseWorld) (holderId : String) (command : LeaseCommand) : Effect where
  seq := w.log.length
  holderId := holderId
  command := command
  time := w.now
  before := w.store.get w.now config.key
  answer := (w.execute config holderId command).2
  after := (w.execute config holderId command).1.get w.now config.key

def takeEffect (w : LeaseWorld) (holderId : String) : LeaseWorld :=
  match (w.leases holderId).issued with
  | [] => w
  | (call, command) :: rest =>
      let lease := { w.leases holderId with issued := rest }
      { w.withLease holderId (lease.answered call (w.effect config holderId command)) with
        store := (w.execute config holderId command).1
        log := w.effect config holderId command :: w.log }

/-- The world behind the next stretch of a call. -/
def afterCall (w : LeaseWorld) (holderId : String) (call : Nat) (because : Option Effect)
    (next : LeaderLease × Option Bool) : LeaseWorld :=
  match next.2 with
  | none => w.withLease holderId next.1
  | some result =>
      { w.withLease holderId next.1 with
        returns := ⟨holderId, call, result, because⟩ :: w.returns }

/-- The suspended call with the id. -/
def suspendedCall (w : LeaseWorld) (holderId : String) (call : Nat) : Option Suspended :=
  (w.leases holderId).suspended.find? fun x => decide (x.call = call)

def step (w : LeaseWorld) : LeaseEvent → LeaseWorld
  | .pass ms => { w with now := w.now + ms }
  | .tryHold h =>
      { w.withLease h ((w.leases h).tryHold w.nextCall) with nextCall := w.nextCall + 1 }
  | .release h =>
      { w.withLease h ((w.leases h).release w.nextCall) with nextCall := w.nextCall + 1 }
  | .takeEffect h => w.takeEffect config h
  | .lose h => w.withLease h { w.leases h with issued := (w.leases h).issued.tail }
  | .resume h call =>
      match w.suspendedCall h call with
      | some ⟨c, command, some e⟩ =>
          w.afterCall h call (some e) ((w.leases h).resume ⟨c, command, some e⟩ e.answer)
      | _ => w
  | .fail h call =>
      match w.suspendedCall h call with
      | some x => w.afterCall h call none ((w.leases h).fail x)
      | none => w

/-- Leases over one store: any event may come at any time. -/
def system : System LeaseWorld LeaseEvent where
  step := step config
  allowed := fun _ _ => True

end LeaseWorld

/-! ## The log against the store -/

namespace Effect

/-- A command that gave its holder the lease, or kept it. -/
def Grants (e : Effect) : Prop :=
  e.answer = true ∧ e.command ≠ .delIfValue

/-- A `release` that deleted the key. -/
def Releases (e : Effect) (holderId : String) : Prop :=
  e.answer = true ∧ e.command = .delIfValue ∧ e.holderId = holderId

/-- A command of `tryHold` answers by what the key held, and says what it holds now. -/
def Sound (e : Effect) : Prop :=
  (e.Grants → e.after = some e.holderId) ∧
    (e.answer = false → e.after = e.before) ∧
    (e.command = .setNxPx → (e.answer = true ↔ e.before = none))

end Effect

/-- What the log of effects says about the key. -/
structure Ledger (config : LeaseConfig) (now : Nat) (store : MemoryLeaseStore)
    (log : List Effect) : Prop where
  numbered : ∀ e ∈ log, e.seq < log.length
  past : ∀ e ∈ log, e.time ≤ now
  sound : ∀ e ∈ log, e.Sound
  /-- A lease that was granted has been released, or is stored, or is over. -/
  guarded : ∀ e ∈ log, e.Grants →
    (∃ d ∈ log, d.Releases e.holderId ∧ e.seq < d.seq) ∨
      (∃ entry, store.keys config.key = some entry ∧ entry.value = e.holderId ∧
        e.time + config.ttlMs e.holderId ≤ entry.expiresAt) ∨
      e.time + config.ttlMs e.holderId ≤ now
  /-- A lease granted to another holder in its time was released in between. -/
  exclusive : ∀ e ∈ log, ∀ e' ∈ log, e.Grants → e'.Grants → e.holderId ≠ e'.holderId →
    e.seq < e'.seq → e'.time < e.time + config.ttlMs e.holderId →
    ∃ d ∈ log, d.Releases e.holderId ∧ e.seq < d.seq ∧ d.seq < e'.seq

theorem ledger_nil (config : LeaseConfig) (now : Nat) (store : MemoryLeaseStore) :
    Ledger config now store [] where
  numbered := by simp
  past := by simp
  sound := by simp
  guarded := by simp
  exclusive := by simp

/-- Time passes. -/
theorem Ledger.pass {config : LeaseConfig} {now : Nat} {store : MemoryLeaseStore}
    {log : List Effect} (h : Ledger config now store log) (ms : Nat) :
    Ledger config (now + ms) store log where
  numbered := h.numbered
  past := by
    intro e he
    have hpast := h.past e he
    omega
  sound := h.sound
  guarded := by
    intro e he hgrants
    rcases h.guarded e he hgrants with hreleased | hstored | hover
    · exact Or.inl hreleased
    · exact Or.inr (Or.inl hstored)
    · exact Or.inr (Or.inr (by omega))
  exclusive := h.exclusive

namespace LeaseWorld

variable {config : LeaseConfig} {w : LeaseWorld}

/-- A command is refused and leaves the key alone, or grants the lease to a holder
whom no other live entry is in the way of, or deletes the key. -/
theorem execute_cases (config : LeaseConfig) (w : LeaseWorld) (holderId : String)
    (command : LeaseCommand) :
    ((w.execute config holderId command).2 = false ∧
        (w.execute config holderId command).1.keys config.key = w.store.entry w.now config.key ∧
        (command = .setNxPx → w.store.entry w.now config.key ≠ none)) ∨
      (command ≠ .delIfValue ∧ (w.execute config holderId command).2 = true ∧
        (w.execute config holderId command).1.keys config.key =
          some ⟨holderId, w.now + config.ttlMs holderId⟩ ∧
        (∀ entry, w.store.entry w.now config.key = some entry → entry.value = holderId) ∧
        (command = .setNxPx → w.store.entry w.now config.key = none)) ∨
      (command = .delIfValue ∧ (w.execute config holderId command).2 = true ∧
        (w.execute config holderId command).1.keys config.key = none) := by
  cases command with
  | setNxPx =>
      rcases MemoryLeaseStore.setNxPx_cases w.store w.now config.key holderId
          (config.ttlMs holderId) with
        ⟨hfree, hanswer, hkey⟩ | ⟨entry, hheld, hanswer, hkey⟩
      · refine Or.inr (Or.inl ⟨by simp, hanswer, hkey, ?_, fun _ => hfree⟩)
        intro entry hentry
        rw [hfree] at hentry
        cases hentry
      · exact Or.inl ⟨hanswer, hkey.trans hheld.symm, fun _ => by simp [hheld]⟩
  | expireIfValue =>
      rcases MemoryLeaseStore.expireIfValue_cases w.store w.now config.key holderId
          (config.ttlMs holderId) with
        ⟨entry, hheld, hvalue, hanswer, hkey⟩ | ⟨-, hanswer, hkey⟩
      · refine Or.inr (Or.inl ⟨by simp, hanswer, hkey, ?_, fun h => by cases h⟩)
        intro entry' hentry'
        obtain rfl := Option.some.inj (hheld.symm.trans hentry')
        exact hvalue
      · exact Or.inl ⟨hanswer, hkey, fun h => by cases h⟩
  | delIfValue =>
      rcases MemoryLeaseStore.delIfValue_cases w.store w.now config.key holderId with
        ⟨entry, -, -, hanswer, hkey⟩ | ⟨-, hanswer, hkey⟩
      · exact Or.inr (Or.inr ⟨rfl, hanswer, hkey⟩)
      · exact Or.inl ⟨hanswer, hkey, fun h => by cases h⟩

/-- Behind a command that is refused, the live entry is still live. -/
theorem entry_refused {holderId : String} {command : LeaseCommand}
    (hkey : (w.execute config holderId command).1.keys config.key =
      w.store.entry w.now config.key) :
    (w.execute config holderId command).1.entry w.now config.key =
      w.store.entry w.now config.key := by
  cases hentry : w.store.entry w.now config.key with
  | none =>
      rw [hentry] at hkey
      unfold MemoryLeaseStore.entry
      rw [hkey]
  | some entry =>
      rw [hentry] at hkey
      exact MemoryLeaseStore.entry_of_lt hkey (MemoryLeaseStore.entry_eq_some hentry).2

/-- The record of a command is true of the key. -/
theorem effect_sound (holderId : String) (command : LeaseCommand) :
    (w.effect config holderId command).Sound := by
  have hbefore : (w.effect config holderId command).before =
      (w.store.entry w.now config.key).map MemoryEntry.value := MemoryLeaseStore.get_eq
  have hafter : (w.effect config holderId command).after =
      ((w.execute config holderId command).1.entry w.now config.key).map MemoryEntry.value :=
    MemoryLeaseStore.get_eq
  have hlater : w.now < w.now + config.ttlMs holderId := by
    have hpos := config.ttlPos holderId
    omega
  rcases execute_cases config w holderId command with
    ⟨hanswer, hkey, hset⟩ | ⟨hcommand, hanswer, hkey, -, hset⟩ | ⟨hcommand, hanswer, -⟩
  · refine ⟨?_, ?_, ?_⟩
    · intro hgrants
      have htrue : (w.execute config holderId command).2 = true := hgrants.1
      rw [hanswer] at htrue
      cases htrue
    · intro _
      rw [hafter, hbefore, entry_refused hkey]
    · intro hcommand
      constructor
      · intro htrue
        have htrue' : (w.execute config holderId command).2 = true := htrue
        rw [hanswer] at htrue'
        cases htrue'
      · intro hnone
        rw [hbefore, Option.map_eq_none_iff] at hnone
        exact absurd hnone (hset hcommand)
  · refine ⟨?_, ?_, ?_⟩
    · intro _
      rw [hafter, MemoryLeaseStore.entry_of_lt hkey hlater]
      rfl
    · intro hfalse
      have hfalse' : (w.execute config holderId command).2 = false := hfalse
      rw [hanswer] at hfalse'
      cases hfalse'
    · intro hsetNx
      refine ⟨fun _ => ?_, fun _ => hanswer⟩
      rw [hbefore, hset hsetNx]
      rfl
  · refine ⟨?_, ?_, ?_⟩
    · intro hgrants
      exact absurd hcommand hgrants.2
    · intro hfalse
      have hfalse' : (w.execute config holderId command).2 = false := hfalse
      rw [hanswer] at hfalse'
      cases hfalse'
    · intro hsetNx
      have hdel : command = .setNxPx := hsetNx
      rw [hcommand] at hdel
      cases hdel

section Record

variable {holderId : String} {command : LeaseCommand}

/-- A command that grants the lease stores it, and no live entry of another holder was
in the way. -/
theorem granted_of_grants (hgrants : (w.effect config holderId command).Grants) :
    (w.execute config holderId command).1.keys config.key =
        some ⟨holderId, w.now + config.ttlMs holderId⟩ ∧
      ∀ entry, w.store.entry w.now config.key = some entry → entry.value = holderId := by
  rcases execute_cases config w holderId command with
    ⟨hanswer, -, -⟩ | ⟨-, -, hkey, hown, -⟩ | ⟨hcommand, -, -⟩
  · have htrue : (w.execute config holderId command).2 = true := hgrants.1
    rw [hanswer] at htrue
    cases htrue
  · exact ⟨hkey, hown⟩
  · exact absurd hcommand hgrants.2

/-- Where a command grants the lease, the stored one is the caller's or over. -/
theorem over_of_grants (hgrants : (w.effect config holderId command).Grants) {entry : MemoryEntry}
    (hkey : w.store.keys config.key = some entry) (hne : entry.value ≠ holderId) :
    entry.expiresAt ≤ w.now := by
  by_contra hlt
  have hentry := MemoryLeaseStore.entry_of_lt hkey (Nat.lt_of_not_le hlt)
  exact hne ((granted_of_grants hgrants).2 entry hentry)

/-- A lease that is stored and not over stays stored, or is deleted by its holder. -/
theorem stored_record {owner : String} {granted : Nat} {entry : MemoryEntry}
    (hgranted : granted ≤ w.now) (hkey : w.store.keys config.key = some entry)
    (hlive : w.now < entry.expiresAt) (hvalue : entry.value = owner)
    (hexpires : granted + config.ttlMs owner ≤ entry.expiresAt) :
    (w.effect config holderId command).Releases owner ∨
      ∃ entry', (w.execute config holderId command).1.keys config.key = some entry' ∧
        entry'.value = owner ∧ granted + config.ttlMs owner ≤ entry'.expiresAt := by
  have hentry := MemoryLeaseStore.entry_of_lt hkey hlive
  rcases execute_cases config w holderId command with
    ⟨-, hsame, -⟩ | ⟨-, -, hkey', hown, -⟩ | ⟨rfl, hanswer, -⟩
  · exact Or.inr ⟨entry, hsame.trans hentry, hvalue, hexpires⟩
  · -- renewed by the holder itself
    obtain rfl : holderId = owner := (hown entry hentry).symm.trans hvalue
    exact Or.inr ⟨_, hkey', rfl, Nat.add_le_add_right hgranted _⟩
  · -- deleted, which only the holder can do
    rcases MemoryLeaseStore.delIfValue_cases w.store w.now config.key holderId with
      ⟨entry', hentry', hvalue', -, -⟩ | ⟨-, hrefused, -⟩
    · obtain rfl := Option.some.inj (hentry.symm.trans hentry')
      exact Or.inl ⟨hanswer, rfl, hvalue'.symm.trans hvalue⟩
    · have htrue : (w.store.delIfValue w.now config.key holderId).2 = true := hanswer
      rw [hrefused] at htrue
      cases htrue

/-- An earlier lease is guarded behind the next command. -/
theorem guarded_record (h : Ledger config w.now w.store w.log) (holderId : String)
    (command : LeaseCommand) {e : Effect} (he : e ∈ w.log) (hgranted : e.Grants) :
    (∃ d ∈ w.effect config holderId command :: w.log, d.Releases e.holderId ∧ e.seq < d.seq) ∨
      (∃ entry, (w.execute config holderId command).1.keys config.key = some entry ∧
        entry.value = e.holderId ∧ e.time + config.ttlMs e.holderId ≤ entry.expiresAt) ∨
      e.time + config.ttlMs e.holderId ≤ w.now := by
  rcases h.guarded e he hgranted with ⟨d, hd, hreleases, hseq⟩ | hstored | hover
  · exact Or.inl ⟨d, List.mem_cons_of_mem _ hd, hreleases, hseq⟩
  · obtain ⟨entry, hkey, hvalue, hexpires⟩ := hstored
    by_cases hlive : w.now < entry.expiresAt
    · rcases stored_record (h.past e he) hkey hlive hvalue hexpires with hreleases | hkept
      · exact Or.inl ⟨_, List.mem_cons_self, hreleases, h.numbered e he⟩
      · exact Or.inr (Or.inl hkept)
    · exact Or.inr (Or.inr (Nat.le_trans hexpires (Nat.le_of_not_lt hlive)))
  · exact Or.inr (Or.inr hover)

/-- A lease that is granted while an earlier one is still in its time follows a release. -/
theorem released_of_grants (h : Ledger config w.now w.store w.log)
    (hgrants : (w.effect config holderId command).Grants) {e : Effect} (he : e ∈ w.log)
    (hgranted : e.Grants) (hne : e.holderId ≠ holderId)
    (htime : w.now < e.time + config.ttlMs e.holderId) :
    ∃ d ∈ w.log, d.Releases e.holderId ∧ e.seq < d.seq := by
  rcases h.guarded e he hgranted with hreleased | hstored | hover
  · exact hreleased
  · -- still stored: it is over
    obtain ⟨entry, hkey, hvalue, hexpires⟩ := hstored
    have hend := over_of_grants hgrants hkey (hvalue ▸ hne)
    omega
  · omega

/-- The ledger takes in the next command. -/
theorem ledger_record (h : Ledger config w.now w.store w.log) (holderId : String)
    (command : LeaseCommand) :
    Ledger config w.now (w.execute config holderId command).1
      (w.effect config holderId command :: w.log) := by
  refine ⟨?_, ?_, ?_, ?_, ?_⟩
  · intro e he
    rcases List.mem_cons.mp he with rfl | he
    · exact Nat.lt_succ_self _
    · exact Nat.lt_succ_of_lt (h.numbered e he)
  · intro e he
    rcases List.mem_cons.mp he with rfl | he
    · exact Nat.le_refl _
    · exact h.past e he
  · intro e he
    rcases List.mem_cons.mp he with rfl | he
    · exact effect_sound holderId command
    · exact h.sound e he
  · intro e he hgranted
    rcases List.mem_cons.mp he with rfl | he
    · exact Or.inr (Or.inl ⟨_, (granted_of_grants hgranted).1, rfl, Nat.le_refl _⟩)
    · exact guarded_record h holderId command he hgranted
  · intro e he e' he' hgranted hgranted' hne hseq htime
    rcases List.mem_cons.mp he' with rfl | he'
    · rcases List.mem_cons.mp he with rfl | he
      · exact absurd rfl hne
      · obtain ⟨d, hd, hreleases, hlater⟩ := released_of_grants h hgranted' he hgranted hne htime
        exact ⟨d, List.mem_cons_of_mem _ hd, hreleases, hlater, h.numbered d hd⟩
    · rcases List.mem_cons.mp he with rfl | he
      · have hlt : w.log.length < e'.seq := hseq
        have hnumbered := h.numbered e' he'
        omega
      · obtain ⟨d, hd, hreleases, hafter, hbefore⟩ :=
          h.exclusive e he e' he' hgranted hgranted' hne hseq htime
        exact ⟨d, List.mem_cons_of_mem _ hd, hreleases, hafter, hbefore⟩

end Record

/-! ## The calls against the log -/

/-- An answer a call waits with, or has returned by, is in the log. -/
structure Recorded (w : LeaseWorld) : Prop where
  suspended : ∀ holderId, ∀ x ∈ (w.leases holderId).suspended, ∀ e, x.answer = some e →
    e ∈ w.log ∧ e.holderId = holderId ∧ e.command = x.command
  returned : ∀ r ∈ w.returns, ∀ e, r.because = some e →
    e ∈ w.log ∧ e.holderId = r.holderId ∧ e.answer = r.result ∧
      (e.command = .setNxPx ∨ e.Grants)
  failed : ∀ r ∈ w.returns, r.because = none → r.result = false

theorem recorded_init : Recorded {} where
  suspended := by simp
  returned := by simp
  failed := by simp

end LeaseWorld

namespace LeaderLease

variable {lease : LeaderLease}

theorem suspended_issue {call : Nat} {command : LeaseCommand} {x : Suspended}
    (hx : x ∈ (lease.issue call command).suspended) :
    x ∈ lease.suspended ∨ x.answer = none := by
  rcases List.mem_cons.mp hx with rfl | hx
  · exact Or.inr rfl
  · exact Or.inl hx

theorem suspended_wake {call : Nat} {x : Suspended} (hx : x ∈ (lease.wake call).suspended) :
    x ∈ lease.suspended :=
  List.mem_of_mem_filter hx

theorem suspended_tryHold {call : Nat} {x : Suspended}
    (hx : x ∈ (lease.tryHold call).suspended) : x ∈ lease.suspended ∨ x.answer = none := by
  unfold tryHold at hx
  split at hx
  · exact suspended_issue hx
  · exact suspended_issue hx

theorem suspended_release {call : Nat} {x : Suspended}
    (hx : x ∈ (lease.release call).suspended) : x ∈ lease.suspended ∨ x.answer = none := by
  unfold release at hx
  simp only at hx
  split at hx
  · exact suspended_issue hx
  · exact Or.inl hx

/-- A call that goes on waits for nothing it has an answer for. -/
theorem suspended_resume {y : Suspended} {answer : Bool} {x : Suspended}
    (hx : x ∈ (lease.resume y answer).1.suspended) : x ∈ lease.suspended ∨ x.answer = none := by
  unfold resume at hx
  cases hcommand : y.command with
  | expireIfValue =>
      cases answer with
      | true =>
          simp only [hcommand, if_true] at hx
          exact Or.inl (suspended_wake hx)
      | false =>
          simp only [hcommand, Bool.false_eq_true, if_false] at hx
          rcases suspended_issue hx with hold | hnone
          · exact Or.inl (suspended_wake hold)
          · exact Or.inr hnone
  | setNxPx =>
      cases answer with
      | true =>
          simp only [hcommand, if_true] at hx
          exact Or.inl (suspended_wake hx)
      | false =>
          simp only [hcommand, Bool.false_eq_true, if_false] at hx
          exact Or.inl (suspended_wake hx)
  | delIfValue =>
      simp only [hcommand] at hx
      exact Or.inl (suspended_wake hx)

theorem suspended_fail {y x : Suspended} (hx : x ∈ (lease.fail y).1.suspended) :
    x ∈ lease.suspended := by
  unfold fail at hx
  cases hcommand : y.command with
  | expireIfValue =>
      simp only [hcommand] at hx
      exact suspended_wake hx
  | setNxPx =>
      simp only [hcommand] at hx
      exact suspended_wake hx
  | delIfValue =>
      simp only [hcommand] at hx
      exact suspended_wake hx

/-- `tryHold` returns what its last command answered, and returns on a renewal only
when it was granted. -/
theorem resume_result {y : Suspended} {answer result : Bool}
    (h : (lease.resume y answer).2 = some result) :
    result = answer ∧ (y.command = .setNxPx ∨ (answer = true ∧ y.command ≠ .delIfValue)) := by
  unfold resume at h
  cases hcommand : y.command <;> cases answer <;> simp_all

theorem fail_result {y : Suspended} {result : Bool} (h : (lease.fail y).2 = some result) :
    result = false := by
  unfold fail at h
  cases hcommand : y.command <;> simp_all

end LeaderLease

namespace LeaseWorld

variable {config : LeaseConfig} {w : LeaseWorld}

/-- A step that replaces one lease, by one that waits with no answer of its own, keeps
the records. -/
theorem Recorded.withLease (h : w.Recorded) (holderId : String) (lease : LeaderLease)
    (hlease : ∀ x ∈ lease.suspended, x ∈ (w.leases holderId).suspended ∨ x.answer = none) :
    (w.withLease holderId lease).Recorded := by
  refine ⟨?_, h.returned, h.failed⟩
  intro other x hx e hanswer
  by_cases hother : other = holderId
  · have hx' : x ∈ lease.suspended := by
      simpa [LeaseWorld.withLease, hother] using hx
    rcases hlease x hx' with hold | hnone
    · rw [hother]
      exact h.suspended holderId x hold e hanswer
    · rw [hnone] at hanswer
      cases hanswer
  · have hx' : x ∈ (w.leases other).suspended := by
      simpa [LeaseWorld.withLease, hother] using hx
    exact h.suspended other x hx' e hanswer

/-- The records of a world are those of its leases, log and returns. -/
theorem Recorded.congr {w' : LeaseWorld} (h : w.Recorded) (hleases : w'.leases = w.leases)
    (hlog : w'.log = w.log) (hreturns : w'.returns = w.returns) : w'.Recorded := by
  refine ⟨?_, ?_, ?_⟩
  · rw [hleases, hlog]
    exact h.suspended
  · rw [hreturns, hlog]
    exact h.returned
  · rw [hreturns]
    exact h.failed

/-- A finished call is recorded with the effect that finished it. -/
theorem Recorded.afterCall (h : w.Recorded) (holderId : String) (call : Nat)
    (because : Option Effect) (next : LeaderLease × Option Bool)
    (hlease : ∀ x ∈ next.1.suspended, x ∈ (w.leases holderId).suspended ∨ x.answer = none)
    (hreturn : ∀ result, next.2 = some result →
      (∀ e, because = some e → e ∈ w.log ∧ e.holderId = holderId ∧ e.answer = result ∧
        (e.command = .setNxPx ∨ e.Grants)) ∧ (because = none → result = false)) :
    (w.afterCall holderId call because next).Recorded := by
  have hkept := h.withLease holderId next.1 hlease
  unfold LeaseWorld.afterCall
  cases hnext : next.2 with
  | none => exact hkept
  | some result =>
      obtain ⟨hbecause, hfailed⟩ := hreturn result hnext
      refine ⟨hkept.suspended, ?_, ?_⟩
      · intro r hr
        rcases List.mem_cons.mp hr with rfl | hr
        · exact hbecause
        · exact h.returned r hr
      · intro r hr
        rcases List.mem_cons.mp hr with rfl | hr
        · exact hfailed
        · exact h.failed r hr

/-- A command that takes effect answers only the call that awaits it. -/
theorem Recorded.takeEffect (h : w.Recorded) (holderId : String) :
    (w.takeEffect config holderId).Recorded := by
  unfold LeaseWorld.takeEffect
  cases hissued : (w.leases holderId).issued with
  | nil => exact h
  | cons first rest =>
      obtain ⟨call, command⟩ := first
      refine ⟨?_, ?_, h.failed⟩
      · intro other x hx e hanswer
        have hold : ∀ y ∈ (w.leases other).suspended, y.answer = some e →
            e ∈ w.effect config holderId command :: w.log ∧ e.holderId = other ∧
              e.command = y.command := by
          intro y hy hy_answer
          obtain ⟨hlog, hrest⟩ := h.suspended other y hy e hy_answer
          exact ⟨List.mem_cons_of_mem _ hlog, hrest⟩
        by_cases hother : other = holderId
        · subst hother
          simp only [LeaseWorld.withLease, if_pos, LeaderLease.answered] at hx
          obtain ⟨y, hy, rfl⟩ := List.mem_map.mp hx
          split at hanswer
          · rename_i hmatch
            obtain rfl := Option.some.inj hanswer
            rw [if_pos hmatch]
            exact ⟨List.mem_cons_self, rfl, hmatch.2.symm⟩
          · rename_i hmatch
            rw [if_neg hmatch]
            exact hold y hy hanswer
        · simp only [LeaseWorld.withLease, if_neg hother] at hx
          exact hold x hx hanswer
      · intro r hr e hbecause
        obtain ⟨hlog, hrest⟩ := h.returned r hr e hbecause
        exact ⟨List.mem_cons_of_mem _ hlog, hrest⟩

theorem Recorded.step (h : w.Recorded) (event : LeaseEvent) :
    (LeaseWorld.step config w event).Recorded := by
  cases event with
  | pass ms => exact h.congr rfl rfl rfl
  | tryHold holderId =>
      have hkept := h.withLease holderId ((w.leases holderId).tryHold w.nextCall)
        (fun x hx => LeaderLease.suspended_tryHold hx)
      exact hkept.congr rfl rfl rfl
  | release holderId =>
      have hkept := h.withLease holderId ((w.leases holderId).release w.nextCall)
        (fun x hx => LeaderLease.suspended_release hx)
      exact hkept.congr rfl rfl rfl
  | takeEffect holderId => exact h.takeEffect holderId
  | lose holderId => exact h.withLease holderId _ (fun x hx => Or.inl hx)
  | resume holderId call =>
      unfold LeaseWorld.step
      simp only
      split
      · rename_i c command e hcall
        have hx := List.mem_of_find?_eq_some hcall
        obtain ⟨hlog, hholder, hcommand⟩ := h.suspended holderId _ hx e rfl
        refine h.afterCall holderId call _ _ (fun x hx' => LeaderLease.suspended_resume hx') ?_
        intro result hresult
        obtain ⟨hanswer, hkind⟩ := LeaderLease.resume_result hresult
        refine ⟨?_, fun hnone => absurd hnone (by simp)⟩
        intro e' he'
        obtain rfl := Option.some.inj he'
        refine ⟨hlog, hholder, hanswer.symm, ?_⟩
        rcases hkind with hset | ⟨htrue, hne⟩
        · exact Or.inl (hcommand.trans hset)
        · exact Or.inr ⟨htrue, by rw [hcommand]; exact hne⟩
      · exact h
  | fail holderId call =>
      unfold LeaseWorld.step
      simp only
      split
      · refine h.afterCall holderId call _ _
          (fun x hx' => Or.inl (LeaderLease.suspended_fail hx')) ?_
        intro result hresult
        refine ⟨?_, fun _ => LeaderLease.fail_result hresult⟩
        intro e he
        cases he
      · exact h

/-- Only a command that takes effect touches the store and the log. -/
theorem Ledger.step (h : Ledger config w.now w.store w.log) (event : LeaseEvent) :
    Ledger config (LeaseWorld.step config w event).now (LeaseWorld.step config w event).store
      (LeaseWorld.step config w event).log := by
  have hafter : ∀ holderId call because next,
      Ledger config (w.afterCall holderId call because next).now
        (w.afterCall holderId call because next).store
        (w.afterCall holderId call because next).log := by
    intro holderId call because next
    unfold afterCall
    split <;> exact h
  cases event with
  | pass ms => exact h.pass ms
  | tryHold holderId => exact h
  | release holderId => exact h
  | lose holderId => exact h
  | takeEffect holderId =>
      change Ledger config (w.takeEffect config holderId).now
        (w.takeEffect config holderId).store (w.takeEffect config holderId).log
      unfold takeEffect
      split
      · exact h
      · exact ledger_record h holderId _
  | resume holderId call =>
      unfold LeaseWorld.step
      simp only
      split
      · exact hafter _ _ _ _
      · exact h
  | fail holderId call =>
      unfold LeaseWorld.step
      simp only
      split
      · exact hafter _ _ _ _
      · exact h

/-- The clock never goes back. -/
theorem now_le_step (w : LeaseWorld) (event : LeaseEvent) :
    w.now ≤ (LeaseWorld.step config w event).now := by
  have hafter : ∀ holderId call because next,
      (w.afterCall holderId call because next).now = w.now := by
    intro holderId call because next
    unfold afterCall
    split <;> rfl
  cases event with
  | pass ms => exact Nat.le_add_right w.now ms
  | takeEffect holderId =>
      change w.now ≤ (w.takeEffect config holderId).now
      unfold takeEffect
      split <;> exact Nat.le_refl _
  | resume holderId call =>
      unfold LeaseWorld.step
      simp only
      split
      · exact Nat.le_of_eq (hafter _ _ _ _).symm
      · exact Nat.le_refl _
  | fail holderId call =>
      unfold LeaseWorld.step
      simp only
      split
      · exact Nat.le_of_eq (hafter _ _ _ _).symm
      · exact Nat.le_refl _
  | _ => exact Nat.le_refl _

/-- What every state of a run satisfies. -/
theorem run_recorded (config : LeaseConfig) (es : List LeaseEvent) :
    ((system config).run {} es).Recorded ∧
      Ledger config ((system config).run {} es).now ((system config).run {} es).store
        ((system config).run {} es).log := by
  refine (system config).run_of_allSteps
    (I := fun w => w.Recorded ∧ Ledger config w.now w.store w.log) (P := fun _ _ => True) ?_
    ⟨recorded_init, ledger_nil config 0 {}⟩
    ((system config).legal_of_forall_allowed (fun _ _ => trivial) {} es)
  intro w e h _
  exact ⟨h.1.step e, Ledger.step h.2 e⟩

/-! ## Safety and truthfulness -/

/-- **Mutual exclusion.**  If `tryHold` of one replica was told `true` by a command
that took effect at some time, then within its `ttlMs` no later command tells another
replica `true`, unless a `release` of the first has deleted the key in between. -/
theorem tryHold_exclusive (config : LeaseConfig) (es : List LeaseEvent) (r r' : Return)
    (hr : r ∈ ((system config).run {} es).returns)
    (hr' : r' ∈ ((system config).run {} es).returns)
    (hresult : r.result = true) (hresult' : r'.result = true)
    (hother : r.holderId ≠ r'.holderId) :
    ∃ e e', r.because = some e ∧ r'.because = some e' ∧
      (e.seq < e'.seq → e'.time < e.time + config.ttlMs r.holderId →
        ∃ d ∈ ((system config).run {} es).log,
          d.Releases r.holderId ∧ e.seq < d.seq ∧ d.seq < e'.seq) := by
  obtain ⟨hrecorded, hledger⟩ := run_recorded config es
  have hgranted : ∀ s ∈ ((system config).run {} es).returns, s.result = true →
      ∃ e, s.because = some e ∧ e ∈ ((system config).run {} es).log ∧
        e.holderId = s.holderId ∧ e.Grants := by
    intro s hs htrue
    cases hbecause : s.because with
    | none =>
        rw [hrecorded.failed s hs hbecause] at htrue
        cases htrue
    | some e =>
        obtain ⟨hlog, hholder, hanswer, hkind⟩ := hrecorded.returned s hs e hbecause
        refine ⟨e, rfl, hlog, hholder, ?_⟩
        rcases hkind with hset | hgrants
        · exact ⟨hanswer.trans htrue, by simp [hset]⟩
        · exact hgrants
  obtain ⟨e, hbecause, hlog, hholder, hgrants⟩ := hgranted r hr hresult
  obtain ⟨e', hbecause', hlog', hholder', hgrants'⟩ := hgranted r' hr' hresult'
  refine ⟨e, e', hbecause, hbecause', ?_⟩
  intro hseq htime
  rw [← hholder] at htime hother ⊢
  rw [← hholder'] at hother
  exact hledger.exclusive e hlog e' hlog' hgrants hgrants' hother hseq htime

/-- One replica acquires and releases, then another acquires. -/
theorem tryHold_exclusive_handover :
    ∃ e e' : Effect,
      some (⟨0, "a", .setNxPx, 0, none, true, some "a"⟩ : Effect) = some e ∧
      some (⟨2, "b", .setNxPx, 0, none, true, some "b"⟩ : Effect) = some e' ∧
      (e.seq < e'.seq → e'.time < e.time + 1000 →
        ∃ d ∈ ((system ⟨"lease", fun _ => 1000, fun _ => Nat.succ_pos 999⟩).run {}
            [.tryHold "a", .takeEffect "a", .resume "a" 0, .release "a", .takeEffect "a",
              .tryHold "b", .takeEffect "b", .resume "b" 2]).log,
          d.Releases "a" ∧ e.seq < d.seq ∧ d.seq < e'.seq) :=
  tryHold_exclusive ⟨"lease", fun _ => 1000, fun _ => Nat.succ_pos 999⟩
    [.tryHold "a", .takeEffect "a", .resume "a" 0, .release "a", .takeEffect "a",
      .tryHold "b", .takeEffect "b", .resume "b" 2]
    ⟨"a", 0, true, some ⟨0, "a", .setNxPx, 0, none, true, some "a"⟩⟩
    ⟨"b", 2, true, some ⟨2, "b", .setNxPx, 0, none, true, some "b"⟩⟩
    (by decide) (by decide) rfl rfl (by decide)

/-- **Truthfulness.**  A `tryHold` whose store calls all succeed returns whether the key
holds the replica's own id behind its last command, precisely when that command is not
a `SET NX` that meets the replica's own id. -/
theorem tryHold_truthful_iff (config : LeaseConfig) (es : List LeaseEvent) (r : Return)
    (hr : r ∈ ((system config).run {} es).returns) (e : Effect) (hbecause : r.because = some e) :
    (r.result = true ↔ e.after = some r.holderId) ↔
      ¬ (e.command = .setNxPx ∧ e.before = some r.holderId) := by
  obtain ⟨hrecorded, hledger⟩ := run_recorded config es
  obtain ⟨hlog, hholder, hanswer, hkind⟩ := hrecorded.returned r hr e hbecause
  obtain ⟨hgrant, hrefuse, hset⟩ := hledger.sound e hlog
  rw [← hanswer, ← hholder]
  cases hval : e.answer with
  | true =>
      have hne : e.command ≠ .delIfValue := by
        rcases hkind with hsetNx | hgrants
        · simp [hsetNx]
        · exact hgrants.2
      have hafter := hgrant ⟨hval, hne⟩
      constructor
      · intro _ hboth
        obtain ⟨hsetNx, hown⟩ := hboth
        rw [(hset hsetNx).mp hval] at hown
        cases hown
      · intro _
        simp [hafter]
  | false =>
      -- a refusal that ends the call is one of `SET NX`
      have hsetNx : e.command = .setNxPx := by
        rcases hkind with hsetNx | hgrants
        · exact hsetNx
        · rw [hgrants.1] at hval
          cases hval
      rw [hrefuse hval]
      simp [hsetNx]

/-- A replica that acquires a free key is told so. -/
theorem tryHold_truthful_acquire :
    (true = true ↔ some "a" = some "a") ↔
      ¬ (LeaseCommand.setNxPx = .setNxPx ∧ (none : Option String) = some "a") :=
  tryHold_truthful_iff ⟨"lease", fun _ => 1000, by simp⟩
    [.tryHold "a", .takeEffect "a", .resume "a" 0]
    ⟨"a", 0, true, some ⟨0, "a", .setNxPx, 0, none, true, some "a"⟩⟩ (by decide)
    ⟨0, "a", .setNxPx, 0, none, true, some "a"⟩ rfl

/-- The answer of an acquisition is lost.  The key holds the replica's id, and the next
`tryHold`, whose only store call succeeds, is told `false`. -/
theorem tryHold_meets_own_id :
    ¬ ∀ (config : LeaseConfig) (es : List LeaseEvent),
      ∀ r ∈ ((system config).run {} es).returns, ∀ e, r.because = some e →
        (r.result = true ↔ e.after = some r.holderId) := by
  intro hall
  have hreturn := hall ⟨"lease", fun _ => 1000, by simp⟩
    [.tryHold "a", .takeEffect "a", .fail "a" 0, .tryHold "a", .takeEffect "a", .resume "a" 1]
    ⟨"a", 1, false, some ⟨1, "a", .setNxPx, 0, some "a", false, some "a"⟩⟩ (by decide) _ rfl
  exact absurd (hreturn.mpr rfl) (by decide)

end LeaseWorld

end Coordination
end Ctem
