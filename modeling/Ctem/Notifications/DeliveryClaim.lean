import Ctem.Contracts
import Ctem.Foundation.Runs
import Ctem.Foundation.Table
import Mathlib.Logic.Function.Basic

/-!
# Claim before send

`sendWithDeliveryClaim` inserts a claim on (organisation, finding, policy, channel)
before a policy notification is sent, and takes it back when the send fails.  A message
is delivered at least once, so any number of attempts at one key run side by side, on
any replicas, and each may stop between two of its calls.

* `policyDeliveryClaimKey` is the key of a message, `none` where no claim is made.
* `DeliveryWorld` is the claim table and the attempts; every call to the database or to
  the channel is a step of its own, and a database call may fail with or without effect.
* `Claimed` is the invariant: who holds a key, from the insert on, has inserted the row
  that is there.
* `delivered_once`: a key is sent once, and a released key can be claimed again.
* `skipped_after_sent_iff`: a skipped attempt finds the notification sent precisely when
  no insert meets a claim whose own attempt has not got its send through.
-/

namespace Ctem
namespace Notifications

open Foundation Contracts

/-- `POLICY_VIOLATED_TEMPLATE`. -/
def policyViolatedTemplate : String := "policy.violated"

inductive PolicyDeliveryChannel where
  | slack | jira
deriving DecidableEq, Repr

/-- `isClaimChannel`: the channel of that name, if its sends are claimed. -/
def claimChannel? (channel : String) : Option PolicyDeliveryChannel :=
  if channel = "slack" then some .slack
  else if channel = "jira" then some .jira
  else none

/-- The unique index of `notification_delivery_claims`. -/
structure PolicyDeliveryClaimKey where
  orgId : OrgId
  findingId : Uuid
  policyId : Uuid
  channel : PolicyDeliveryChannel
deriving DecidableEq, Repr

/-- A requested notification; `orgId` is that of the envelope. -/
structure NotificationMessage where
  orgId : OrgId
  channel : String
  template : String
  data : JsonObject

/-! ## The key of a message

`isUuid` is the check of a UUID text. -/

section Key

variable (isUuid : String → Bool)

/-- `isUuid(value)`: the text, when it is one. -/
def uuid? (value : Option Json) : Option Uuid :=
  (value.bind Json.str?).filter isUuid

/-- `policyDeliveryClaimKey`. -/
def policyDeliveryClaimKey (message : NotificationMessage) : Option PolicyDeliveryClaimKey := do
  if message.template ≠ policyViolatedTemplate then none
  let channel ← claimChannel? message.channel
  let findingId ← uuid? isUuid (message.data.get? "findingId")
  let policyId ← uuid? isUuid (message.data.get? "policyId")
  some ⟨message.orgId, findingId, policyId, channel⟩

end Key

/-- A row of `notification_delivery_claims`. -/
structure ClaimRow where
  key : PolicyDeliveryClaimKey
  /-- The attempt that inserted it. -/
  claimedBy : Nat

inductive DeliveryOutcome where
  | sent | skipped
deriving DecidableEq, Repr

/-- How far a `sendWithDeliveryClaim` is. -/
inductive AttemptStage where
  /-- It waits for `tryClaim`. -/
  | claiming
  /-- It waits for `send`, with a claim if its message has a key. -/
  | sending
  /-- The send has failed; it waits for `release`. -/
  | releasing
  /-- It has returned, so the message is acknowledged. -/
  | returned (outcome : DeliveryOutcome)
  /-- It has thrown, so the message is delivered again. -/
  | thrown
  /-- Its process has stopped. -/
  | stopped
deriving DecidableEq, Repr

/-- The stages between the insert and the end of the claim. -/
def AttemptStage.holds : AttemptStage → Bool
  | .sending => true
  | .releasing => true
  | .returned .sent => true
  | _ => false

structure Attempt where
  key : Option PolicyDeliveryClaimKey
  stage : AttemptStage
deriving DecidableEq, Repr

/-- What becomes of a database call. -/
inductive Reply where
  | answered
  /-- It takes effect and the caller gets an error. -/
  | lost
  /-- It takes no effect and the caller gets an error. -/
  | refused
deriving DecidableEq, Repr

/-- The claim table and all attempts so far. -/
structure DeliveryWorld where
  claims : Table ClaimRow ClaimRow.key := Table.empty
  attempts : Nat → Option Attempt := fun _ => none

inductive DeliveryEvent where
  /-- The message is delivered, for the first time or again. -/
  | deliver (id : Nat) (message : NotificationMessage)
  /-- The insert of `tryClaim`. -/
  | insert (id : Nat) (reply : Reply)
  /-- The send comes through, or fails. -/
  | send (id : Nat) (ok : Bool)
  /-- The `deleteMany` of `release`. -/
  | release (id : Nat) (reply : Reply)
  /-- The process of the attempt stops. -/
  | stop (id : Nat)

/-- The attempt an event is about. -/
def DeliveryEvent.attempt : DeliveryEvent → Nat
  | .deliver id _ => id
  | .insert id _ => id
  | .send id _ => id
  | .release id _ => id
  | .stop id => id

namespace DeliveryWorld

/-- The attempt goes on to a stage. -/
def goTo (w : DeliveryWorld) (id : Nat) (key : Option PolicyDeliveryClaimKey)
    (stage : AttemptStage) : DeliveryWorld :=
  { w with attempts := Function.update w.attempts id (some ⟨key, stage⟩) }

/-- The unique index: a second insert of a key adds nothing. -/
def insertClaim (w : DeliveryWorld) (key : PolicyDeliveryClaimKey) (id : Nat) : DeliveryWorld :=
  { w with claims := w.claims.ensure ⟨key, id⟩ }

/-- `deleteMany` on the key. -/
def deleteClaim (w : DeliveryWorld) (key : PolicyDeliveryClaimKey) : DeliveryWorld :=
  { w with claims := w.claims.deleteMany fun row => decide (row.key = key) }

section Step

variable (isUuid : String → Bool)

/-- `sendWithDeliveryClaim` up to its first `await`. -/
def deliver (w : DeliveryWorld) (id : Nat) (message : NotificationMessage) : DeliveryWorld :=
  match w.attempts id with
  | some _ => w
  | none =>
      match policyDeliveryClaimKey isUuid message with
      -- no policy notification, or one without the ids: sent without a claim
      | none => w.goTo id none .sending
      | some key => w.goTo id (some key) .claiming

/-- `tryClaim`: a unique conflict is `duplicate`, any other error is thrown. -/
def insert (w : DeliveryWorld) (id : Nat) (reply : Reply) : DeliveryWorld :=
  match w.attempts id with
  | some ⟨some key, .claiming⟩ =>
      match reply, w.claims.find? key with
      | .refused, _ => w.goTo id (some key) .thrown
      -- whoever the row is from, and whatever became of its send
      | .answered, some _ => w.goTo id (some key) (.returned .skipped)
      | .answered, none => (w.insertClaim key id).goTo id (some key) .sending
      | .lost, _ => (w.insertClaim key id).goTo id (some key) .thrown
  | _ => w

/-- `send`; what follows it when it fails is the release of the claim, if there is one. -/
def send (w : DeliveryWorld) (id : Nat) (ok : Bool) : DeliveryWorld :=
  match w.attempts id with
  | some ⟨key, .sending⟩ =>
      if ok then w.goTo id key (.returned .sent)
      else if key.isSome then w.goTo id key .releasing
      else w.goTo id key .thrown
  | _ => w

/-- `release`; the attempt throws the error of the send, or one about both. -/
def release (w : DeliveryWorld) (id : Nat) (reply : Reply) : DeliveryWorld :=
  match w.attempts id with
  | some ⟨some key, .releasing⟩ =>
      if reply = .refused then w.goTo id (some key) .thrown
      else (w.deleteClaim key).goTo id (some key) .thrown
  | _ => w

def stop (w : DeliveryWorld) (id : Nat) : DeliveryWorld :=
  match w.attempts id with
  | some ⟨key, .claiming⟩ => w.goTo id key .stopped
  | some ⟨key, .sending⟩ => w.goTo id key .stopped
  | some ⟨key, .releasing⟩ => w.goTo id key .stopped
  | _ => w

def step (w : DeliveryWorld) : DeliveryEvent → DeliveryWorld
  | .deliver id message => w.deliver isUuid id message
  | .insert id reply => w.insert id reply
  | .send id ok => w.send id ok
  | .release id reply => w.release id reply
  | .stop id => w.stop id

/-- The attempts on all replicas: any event may come at any time. -/
def system : System DeliveryWorld DeliveryEvent where
  step := step isUuid
  allowed := fun _ _ => True

end Step

/-- The attempt has sent the notification of the key. -/
def Sent (w : DeliveryWorld) (id : Nat) (key : PolicyDeliveryClaimKey) : Prop :=
  w.attempts id = some ⟨some key, .returned .sent⟩

/-- Whoever was told to skip the notification can rely on an attempt that has sent it. -/
def SkippedAfterSent (w : DeliveryWorld) : Prop :=
  ∀ id key, w.attempts id = some ⟨some key, .returned .skipped⟩ → ∃ id', w.Sent id' key

/-- An insert is answered by a claim whose own attempt has not got its send through. -/
def MeetsUnsentClaim (w : DeliveryWorld) (e : DeliveryEvent) : Prop :=
  ∃ id key row, e = .insert id .answered ∧ w.attempts id = some ⟨some key, .claiming⟩ ∧
    w.claims.find? key = some row ∧ ¬ w.Sent row.claimedBy key

/-- An insert of the key reaches the table. -/
def InsertsKey (key : PolicyDeliveryClaimKey) (w : DeliveryWorld) (e : DeliveryEvent) : Prop :=
  ∃ id reply, e = .insert id reply ∧ reply ≠ .refused ∧
    w.attempts id = some ⟨some key, .claiming⟩

/-! ## Who holds a key -/

/-- An attempt that holds a key has inserted the row that is there. -/
def Claimed (w : DeliveryWorld) : Prop :=
  ∀ id key stage, w.attempts id = some ⟨some key, stage⟩ → stage.holds = true →
    w.claims.find? key = some ⟨key, id⟩

variable {w : DeliveryWorld} {id : Nat} {key : Option PolicyDeliveryClaimKey}
  {k : PolicyDeliveryClaimKey}

@[simp] theorem attempts_goTo_self (w : DeliveryWorld) (id : Nat)
    (key : Option PolicyDeliveryClaimKey) (stage : AttemptStage) :
    (w.goTo id key stage).attempts id = some ⟨key, stage⟩ :=
  Function.update_self _ _ _

theorem attempts_goTo_ne {id' : Nat} (hne : id' ≠ id) (stage : AttemptStage) :
    (w.goTo id key stage).attempts id' = w.attempts id' :=
  Function.update_of_ne hne _ _

@[simp] theorem claims_goTo (w : DeliveryWorld) (id : Nat) (key : Option PolicyDeliveryClaimKey)
    (stage : AttemptStage) : (w.goTo id key stage).claims = w.claims := rfl

/-- An attempt goes on without touching the table; where it then holds a key, the row is
its own. -/
theorem Claimed.goTo (h : w.Claimed) {stage : AttemptStage}
    (hown : ∀ k, key = some k → stage.holds = true → w.claims.find? k = some ⟨k, id⟩) :
    (w.goTo id key stage).Claimed := by
  intro id' k' stage' hattempt hholds
  rw [claims_goTo]
  by_cases hid : id' = id
  · subst hid
    rw [attempts_goTo_self] at hattempt
    obtain ⟨rfl, rfl⟩ := Attempt.mk.inj (Option.some.inj hattempt)
    exact hown k' rfl hholds
  · rw [attempts_goTo_ne hid] at hattempt
    exact h id' k' stage' hattempt hholds

/-- An insert takes a key that nobody holds. -/
theorem Claimed.insertClaim (h : w.Claimed) (k : PolicyDeliveryClaimKey) (id : Nat) :
    (w.insertClaim k id).Claimed := by
  intro id' k' stage hattempt hholds
  have hfind : w.claims.find? k' = some ⟨k', id'⟩ := h id' k' stage hattempt hholds
  change (w.claims.ensure ⟨k, id⟩).find? k' = _
  by_cases hk : k' = k
  · subst hk
    have hself := Table.find?_ensure_self (t := w.claims) (r := (⟨k', id⟩ : ClaimRow))
    rw [hfind] at hself
    exact hself
  · rw [Table.find?_ensure_ne hk]
    exact hfind

/-- A release frees a key that only the releasing attempt holds. -/
theorem Claimed.deleteClaim (h : w.Claimed) {stage : AttemptStage}
    (hattempt : w.attempts id = some ⟨some k, .releasing⟩) (hstage : stage.holds = false) :
    ((w.deleteClaim k).goTo id (some k) stage).Claimed := by
  intro id' k' stage' hattempt' hholds
  by_cases hid : id' = id
  · subst hid
    rw [attempts_goTo_self] at hattempt'
    obtain ⟨-, rfl⟩ := Attempt.mk.inj (Option.some.inj hattempt')
    rw [hstage] at hholds
    cases hholds
  · rw [attempts_goTo_ne hid] at hattempt'
    have hfind' : w.claims.find? k' = some ⟨k', id'⟩ := h id' k' stage' hattempt' hholds
    -- the row of the released key is the releasing attempt's own
    have hne : k' ≠ k := by
      intro heq
      subst heq
      have hfind := h id k' .releasing hattempt rfl
      rw [hfind'] at hfind
      exact hid (ClaimRow.mk.inj (Option.some.inj hfind)).2
    change (w.claims.deleteMany fun row => decide (row.key = k)).find? k' = _
    rw [Table.find?_deleteMany_key, if_neg hne]
    exact hfind'

theorem Claimed.step_deliver (h : w.Claimed) (isUuid : String → Bool) (id : Nat)
    (message : NotificationMessage) : (w.deliver isUuid id message).Claimed := by
  unfold deliver
  split
  · exact h
  · split
    · exact h.goTo (fun k hk => by cases hk)
    · exact h.goTo (fun k hk hholds => by cases hholds)

theorem Claimed.step_insert (h : w.Claimed) (id : Nat) (reply : Reply) :
    (w.insert id reply).Claimed := by
  unfold insert
  split
  · rename_i k hattempt
    split
    · exact h.goTo (fun k hk hholds => by cases hholds)
    · exact h.goTo (fun k hk hholds => by cases hholds)
    · -- the key was free, so the row is the attempt's own
      rename_i hfree
      refine (h.insertClaim k id).goTo ?_
      intro k' hk' _
      obtain rfl := Option.some.inj hk'
      have hself := Table.find?_ensure_self (t := w.claims) (r := (⟨k, id⟩ : ClaimRow))
      rw [hfree] at hself
      exact hself
    · exact (h.insertClaim k id).goTo (fun k hk hholds => by cases hholds)
  · exact h

theorem Claimed.step_send (h : w.Claimed) (id : Nat) (ok : Bool) : (w.send id ok).Claimed := by
  unfold send
  split
  · rename_i key hattempt
    have hown : ∀ k, key = some k → w.claims.find? k = some ⟨k, id⟩ := by
      intro k hk
      subst hk
      exact h id k .sending hattempt rfl
    split
    · exact h.goTo (fun k hk _ => hown k hk)
    · split
      · exact h.goTo (fun k hk _ => hown k hk)
      · exact h.goTo (fun k hk hholds => by cases hholds)
  · exact h

theorem Claimed.step_release (h : w.Claimed) (id : Nat) (reply : Reply) :
    (w.release id reply).Claimed := by
  unfold release
  split
  · rename_i k hattempt
    split
    · exact h.goTo (fun k hk hholds => by cases hholds)
    · exact h.deleteClaim hattempt rfl
  · exact h

theorem Claimed.step_stop (h : w.Claimed) (id : Nat) : (w.stop id).Claimed := by
  have hstopped : ∀ key, (w.goTo id key .stopped).Claimed :=
    fun key => h.goTo (fun k hk hholds => by cases hholds)
  unfold stop
  split
  · exact hstopped _
  · exact hstopped _
  · exact hstopped _
  · exact h

/-- Every call keeps the holders the owners. -/
theorem Claimed.step (h : w.Claimed) (isUuid : String → Bool) (e : DeliveryEvent) :
    (DeliveryWorld.step isUuid w e).Claimed := by
  cases e with
  | deliver id message => exact h.step_deliver isUuid id message
  | insert id reply => exact h.step_insert id reply
  | send id ok => exact h.step_send id ok
  | release id reply => exact h.step_release id reply
  | stop id => exact h.step_stop id

theorem claimed_start : ({} : DeliveryWorld).Claimed := by
  intro id k stage hattempt
  cases hattempt

/-! ## What a step does to an attempt -/

/-- An event leaves the attempts alone that it is not about. -/
theorem attempts_step_ne (isUuid : String → Bool) (w : DeliveryWorld) {e : DeliveryEvent}
    {id : Nat} (hne : id ≠ e.attempt) : (step isUuid w e).attempts id = w.attempts id := by
  cases e with
  | deliver id' message =>
      change (w.deliver isUuid id' message).attempts id = _
      unfold deliver
      split
      · rfl
      · split
        · exact attempts_goTo_ne hne _
        · exact attempts_goTo_ne hne _
  | insert id' reply =>
      change (w.insert id' reply).attempts id = _
      unfold insert
      split
      · split
        · exact attempts_goTo_ne hne _
        · exact attempts_goTo_ne hne _
        · exact attempts_goTo_ne hne _
        · exact attempts_goTo_ne hne _
      · rfl
  | send id' ok =>
      change (w.send id' ok).attempts id = _
      unfold send
      split
      · split
        · exact attempts_goTo_ne hne _
        · split
          · exact attempts_goTo_ne hne _
          · exact attempts_goTo_ne hne _
      · rfl
  | release id' reply =>
      change (w.release id' reply).attempts id = _
      unfold release
      split
      · split
        · exact attempts_goTo_ne hne _
        · exact attempts_goTo_ne hne _
      · rfl
  | stop id' =>
      change (w.stop id').attempts id = _
      unfold stop
      split
      · exact attempts_goTo_ne hne _
      · exact attempts_goTo_ne hne _
      · exact attempts_goTo_ne hne _
      · rfl

/-- An attempt that has returned does nothing more. -/
theorem step_of_returned (isUuid : String → Bool) {e : DeliveryEvent} {outcome : DeliveryOutcome}
    (hattempt : w.attempts e.attempt = some ⟨key, .returned outcome⟩) :
    step isUuid w e = w := by
  cases e with
  | deliver id' message =>
      change w.attempts id' = _ at hattempt
      simp [step, deliver, hattempt]
  | insert id' reply =>
      change w.attempts id' = _ at hattempt
      simp [step, insert, hattempt]
  | send id' ok =>
      change w.attempts id' = _ at hattempt
      simp [step, send, hattempt]
  | release id' reply =>
      change w.attempts id' = _ at hattempt
      simp [step, release, hattempt]
  | stop id' =>
      change w.attempts id' = _ at hattempt
      simp [step, stop, hattempt]

theorem returned_step (isUuid : String → Bool) {outcome : DeliveryOutcome}
    (hattempt : w.attempts id = some ⟨key, .returned outcome⟩) (e : DeliveryEvent) :
    (step isUuid w e).attempts id = some ⟨key, .returned outcome⟩ := by
  by_cases hid : id = e.attempt
  · subst hid
    rw [step_of_returned isUuid hattempt]
    exact hattempt
  · rw [attempts_step_ne isUuid w hid]
    exact hattempt

/-- An attempt that is told to skip has met a claim. -/
theorem skipped_step (isUuid : String → Bool) {e : DeliveryEvent}
    (hskipped : (step isUuid w e).attempts id = some ⟨some k, .returned .skipped⟩)
    (hnew : w.attempts id ≠ some ⟨some k, .returned .skipped⟩) :
    ∃ row, e = .insert id .answered ∧ w.attempts id = some ⟨some k, .claiming⟩ ∧
      w.claims.find? k = some row := by
  have hid : id = e.attempt := by
    by_contra hne
    rw [attempts_step_ne isUuid w hne] at hskipped
    exact hnew hskipped
  subst hid
  -- only an insert leads to `skipped`
  cases e with
  | deliver id' message =>
      change (w.deliver isUuid id' message).attempts id' = _ at hskipped
      change w.attempts id' ≠ _ at hnew
      unfold deliver at hskipped
      split at hskipped
      · exact absurd hskipped hnew
      · split at hskipped <;> simp at hskipped
  | insert id' reply =>
      change (w.insert id' reply).attempts id' = _ at hskipped
      change w.attempts id' ≠ _ at hnew
      unfold insert at hskipped
      split at hskipped
      · rename_i k' hattempt
        split at hskipped
        · simp at hskipped
        · rename_i row hrow
          simp only [attempts_goTo_self, Option.some.injEq, Attempt.mk.injEq, and_true]
            at hskipped
          subst hskipped
          exact ⟨row, rfl, hattempt, hrow⟩
        · simp at hskipped
        · simp at hskipped
      · exact absurd hskipped hnew
  | send id' ok =>
      change (w.send id' ok).attempts id' = _ at hskipped
      change w.attempts id' ≠ _ at hnew
      unfold send at hskipped
      split at hskipped
      · split at hskipped
        · simp at hskipped
        · split at hskipped <;> simp at hskipped
      · exact absurd hskipped hnew
  | release id' reply =>
      change (w.release id' reply).attempts id' = _ at hskipped
      change w.attempts id' ≠ _ at hnew
      unfold release at hskipped
      split at hskipped
      · split at hskipped <;> simp at hskipped
      · exact absurd hskipped hnew
  | stop id' =>
      change (w.stop id').attempts id' = _ at hskipped
      change w.attempts id' ≠ _ at hnew
      unfold stop at hskipped
      split at hskipped
      · simp at hskipped
      · simp at hskipped
      · simp at hskipped
      · exact absurd hskipped hnew

/-- An insert that is answered by a claim is skipped. -/
theorem insert_duplicate {row : ClaimRow} (hattempt : w.attempts id = some ⟨some k, .claiming⟩)
    (hrow : w.claims.find? k = some row) :
    w.insert id .answered = w.goTo id (some k) (.returned .skipped) := by
  simp [insert, hattempt, hrow]

/-- An insert of a free key is followed by the send. -/
theorem insert_free (hattempt : w.attempts id = some ⟨some k, .claiming⟩)
    (hfree : w.claims.find? k = none) :
    w.insert id .answered = (w.insertClaim k id).goTo id (some k) .sending := by
  simp [insert, hattempt, hfree]

/-! ## Nothing is skipped unsent -/

/-- A step keeps the promise to those who skip precisely when no insert meets an unsent
claim. -/
theorem skippedAfterSent_step_iff (isUuid : String → Bool) (h : w.Claimed)
    (hpromise : w.SkippedAfterSent) (e : DeliveryEvent) :
    (step isUuid w e).SkippedAfterSent ↔ ¬ w.MeetsUnsentClaim e := by
  constructor
  · rintro hnext ⟨id, k, row, rfl, hattempt, hrow, hunsent⟩
    have hstep : step isUuid w (.insert id .answered) =
        w.goTo id (some k) (.returned .skipped) := insert_duplicate hattempt hrow
    rw [hstep] at hnext
    obtain ⟨id', hsent⟩ := hnext id k (attempts_goTo_self _ _ _ _)
    unfold Sent at hsent
    by_cases hid : id' = id
    · subst hid
      rw [attempts_goTo_self] at hsent
      cases hsent
    · -- whoever has sent it owns the row
      rw [attempts_goTo_ne hid] at hsent
      have hown := h id' k (.returned .sent) hsent rfl
      rw [hrow] at hown
      apply hunsent
      rw [Option.some.inj hown]
      exact hsent
  · intro hmeets id k hskipped
    by_cases hold : w.attempts id = some ⟨some k, .returned .skipped⟩
    · obtain ⟨id', hsent⟩ := hpromise id k hold
      exact ⟨id', returned_step isUuid hsent e⟩
    · obtain ⟨row, rfl, hattempt, hrow⟩ := skipped_step isUuid hskipped hold
      have hsent : w.Sent row.claimedBy k := by
        by_contra hunsent
        exact hmeets ⟨id, k, row, rfl, hattempt, hrow, hunsent⟩
      exact ⟨row.claimedBy, returned_step isUuid hsent _⟩

/-- **No notification is lost.**  Along a run of any deliveries on any replicas, with
stopped processes and failed calls, an attempt is told to skip only what has been sent
precisely when no insert is answered by a claim whose own attempt has not got its send
through. -/
theorem skipped_after_sent_iff (isUuid : String → Bool) (es : List DeliveryEvent) :
    (∀ w ∈ (system isUuid).states {} es, w.SkippedAfterSent) ↔
      (system isUuid).AllSteps (fun w e => ¬ w.MeetsUnsentClaim e) {} es := by
  apply (system isUuid).forall_states_iff_allSteps (I := Claimed)
  · intro w e h _
    exact h.step isUuid e
  · intro w e h hpromise _
    exact skippedAfterSent_step_iff isUuid h hpromise e
  · exact claimed_start
  · intro id k hskipped
    cases hskipped
  · exact (system isUuid).legal_of_forall_allowed (fun _ _ => trivial) {} es

/-- The message of the runs below: a policy violated, for Slack. -/
def slackMessage : NotificationMessage where
  orgId := "11111111-1111-4111-8111-111111111111"
  channel := "slack"
  template := policyViolatedTemplate
  data :=
    [("findingId", .str "aaaaaaaa-aaaa-4aaa-8aaa-aaaaaaaaaaaa"),
      ("policyId", .str "00000000-0000-4000-8000-00000000c7e1")]

/-- Its key. -/
def slackKey : PolicyDeliveryClaimKey where
  orgId := "11111111-1111-4111-8111-111111111111"
  findingId := "aaaaaaaa-aaaa-4aaa-8aaa-aaaaaaaaaaaa"
  policyId := "00000000-0000-4000-8000-00000000c7e1"
  channel := .slack

/-- An attempt stops between its claim and its send, and the redelivery is skipped. -/
theorem stopped_claim_skips_unsent :
    ¬ ∀ (isUuid : String → Bool) (es : List DeliveryEvent),
      ∀ w ∈ (system isUuid).states {} es, w.SkippedAfterSent := by
  intro hall
  let es : List DeliveryEvent :=
    [.deliver 0 slackMessage, .insert 0 .answered, .stop 0, .deliver 1 slackMessage,
      .insert 1 .answered]
  have hpromise := hall (fun _ => true) es _ ((system fun _ => true).run_mem_states {} es)
  obtain ⟨id, hsent⟩ := hpromise 1 slackKey rfl
  -- the two attempts are there, and neither has sent anything
  match id with
  | 0 => cases hsent
  | 1 => cases hsent
  | id + 2 => cases hsent

/-! ## Nothing is sent twice -/

/-- Until an insert of it reaches the table, a free key stays free. -/
theorem free_step (isUuid : String → Bool) (hfree : w.claims.find? k = none) {e : DeliveryEvent}
    (hnot : ¬ InsertsKey k w e) : (step isUuid w e).claims.find? k = none := by
  cases e with
  | deliver id message =>
      change (w.deliver isUuid id message).claims.find? k = none
      unfold deliver
      split
      · exact hfree
      · split <;> exact hfree
  | insert id reply =>
      change (w.insert id reply).claims.find? k = none
      unfold insert
      split
      · rename_i k' hattempt
        have hother : reply ≠ .refused → (w.insertClaim k' id).claims.find? k = none := by
          intro hreply
          have hne : k ≠ k' := by
            intro heq
            subst heq
            exact hnot ⟨id, reply, rfl, hreply, hattempt⟩
          change (w.claims.ensure ⟨k', id⟩).find? k = none
          rw [Table.find?_ensure_ne hne]
          exact hfree
        split
        · exact hfree
        · exact hfree
        · exact hother (by simp)
        · exact hother (by simp)
      · exact hfree
  | send id ok =>
      change (w.send id ok).claims.find? k = none
      unfold send
      split
      · split
        · exact hfree
        · split <;> exact hfree
      · exact hfree
  | release id reply =>
      change (w.release id reply).claims.find? k = none
      unfold release
      split
      · rename_i k' hattempt
        split
        · exact hfree
        · change (w.claims.deleteMany fun row => decide (row.key = k')).find? k = none
          rw [Table.find?_deleteMany_key, hfree, ite_self]
      · exact hfree
  | stop id =>
      change (w.stop id).claims.find? k = none
      unfold stop
      split <;> exact hfree

/-- A release that succeeds frees its key. -/
theorem release_frees (isUuid : String → Bool)
    (hattempt : w.attempts id = some ⟨some k, .releasing⟩) :
    (step isUuid w (.release id .answered)).claims.find? k = none := by
  have hstep : step isUuid w (.release id .answered) =
      (w.deleteClaim k).goTo id (some k) .thrown := by
    simp [step, release, hattempt]
  rw [hstep, claims_goTo]
  change (w.claims.deleteMany fun row => decide (row.key = k)).find? k = none
  rw [Table.find?_deleteMany_key, if_pos rfl]

/-- A fresh attempt at a free key claims it. -/
theorem claims_free (isUuid : String → Bool) {message : NotificationMessage}
    (hkey : policyDeliveryClaimKey isUuid message = some k) (hfree : w.claims.find? k = none)
    (hfresh : w.attempts id = none) :
    ((system isUuid).run w [.deliver id message, .insert id .answered]).attempts id =
      some ⟨some k, .sending⟩ := by
  have hdeliver : w.deliver isUuid id message = w.goTo id (some k) .claiming := by
    simp [deliver, hfresh, hkey]
  change ((w.deliver isUuid id message).insert id .answered).attempts id = _
  rw [hdeliver, insert_free (attempts_goTo_self _ _ _ _) hfree]
  exact attempts_goTo_self _ _ _ _

/-- **A notification is sent at most once.**  In every state of every run of deliveries
on any replicas: at most one attempt has sent the notification of a key, and once a
release has succeeded, a later attempt at the key can claim it, as long as no other
insert of the key has reached the table. -/
theorem delivered_once (isUuid : String → Bool) (es : List DeliveryEvent) :
    ∀ w ∈ (system isUuid).states {} es,
      (∀ k id id', w.Sent id k → w.Sent id' k → id = id') ∧
        ∀ k id, w.attempts id = some ⟨some k, .releasing⟩ →
          ∀ later, (system isUuid).AllSteps (fun w e => ¬ InsertsKey k w e)
              (step isUuid w (.release id .answered)) later →
            ∀ id' message, policyDeliveryClaimKey isUuid message = some k →
              ((system isUuid).run (step isUuid w (.release id .answered)) later).attempts id' =
                  none →
                ((system isUuid).run
                    ((system isUuid).run (step isUuid w (.release id .answered)) later)
                    [.deliver id' message, .insert id' .answered]).attempts id' =
                  some ⟨some k, .sending⟩ := by
  intro w hw
  have hclaimed : w.Claimed := by
    have hlegal := (system isUuid).legal_of_forall_allowed (fun _ _ => trivial) {} es
    exact (system isUuid).forall_states_of_allSteps (I := Claimed)
      (fun w e h _ => h.step isUuid e) claimed_start hlegal w hw
  refine ⟨?_, ?_⟩
  · intro k id id' hsent hsent'
    have hown := hclaimed id k (.returned .sent) hsent rfl
    have hown' := hclaimed id' k (.returned .sent) hsent' rfl
    rw [hown] at hown'
    exact (ClaimRow.mk.inj (Option.some.inj hown')).2
  · intro k id hreleasing later hlater id' message hkey hfresh
    have hfree : ((system isUuid).run (step isUuid w (.release id .answered)) later).claims.find? k
        = none :=
      (system isUuid).run_of_allSteps (I := fun w => w.claims.find? k = none)
        (fun w e hfree hnot => free_step isUuid hfree hnot) (release_frees isUuid hreleasing) hlater
    exact claims_free isUuid hkey hfree hfresh

/-- The first attempt's send fails and its claim is released; the next one sends. -/
theorem delivered_once_retried :
    ((system fun _ => true).run {}
        [.deliver 0 slackMessage, .insert 0 .answered, .send 0 false, .release 0 .answered,
          .deliver 1 slackMessage, .insert 1 .answered]).attempts 1 =
      some ⟨some slackKey, .sending⟩ := by
  let es : List DeliveryEvent :=
    [.deliver 0 slackMessage, .insert 0 .answered, .send 0 false]
  have honce := delivered_once (fun _ => true) es _
    ((system fun _ => true).run_mem_states {} es)
  exact honce.2 slackKey 0 rfl [] trivial 1 slackMessage rfl rfl

end DeliveryWorld

end Notifications
end Ctem
