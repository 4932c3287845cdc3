import Ctem.Findings.Redelivery
import Ctem.Intel.Enrichment
import Ctem.Policy.Operations

/-!
# Policy actions on closed findings

An ingest publishes an event for every row it has upserted, in whatever state the row is, and
`RiskConsumer` scores and evaluates the finding of each such event.  The evaluation reads the
finding, the exceptions and the policies one after the other, and does not look at the
finding's state; messages are delivered any number of times and in any order.

* `RiskWorld.statement` is the next statement of a message handler.
* `evaluation_alone`: what the statements of an evaluation come to with nothing in between.
* `acts_on_open_iff`: when no finding that is closed is acted on.
-/

namespace Ctem
namespace Policy

open Foundation Contracts Findings Intel

/-- What the risk service is subscribed to. -/
inductive FindingMessage where
  /-- `findingCreated`, or `findingUpdated`. -/
  | changed (orgId : OrgId) (findingId : Uuid)
  | rescoreRequested (orgId : OrgId) (findingIds : List Uuid)

/-- How far the handler of a changed finding has got. -/
inductive RiskStage where
  | received
  | scored
  /-- `evaluate` has read the finding and its asset. -/
  | found (row : FindingRow) (asset : AssetRow)
  /-- No active exception covers the finding. -/
  | uncovered (row : FindingRow) (asset : AssetRow)
  /-- A policy matches, and has hours. -/
  | matched (row : FindingRow) (hours : Nat) (event : PolicyViolated)
  | publishing (row : FindingRow) (event : PolicyViolated)

/-- A message on its way through its handler. -/
inductive RiskHandler where
  | evaluating (orgId : OrgId) (findingId : Uuid) (stage : RiskStage)
  /-- `rescoreAll`, with the findings it has still to score. -/
  | rescoring (orgId : OrgId) (targets : List Uuid)

inductive PolicyEffect where
  | dueSet (hours : Nat)
  | violated (event : PolicyViolated)

/-- An effect of an evaluation, and the state that it has read. -/
structure PolicyActed where
  findingId : Uuid
  seen : FindingState
  effect : PolicyEffect

/-- The database, the ingests on their way, the messages published and their handlers. -/
structure RiskWorld where
  st : PolicyDb
  ingests : Nat → Option IngestRun := fun _ => none
  published : List FindingMessage := []
  handlers : Nat → Option RiskHandler := fun _ => none
  acted : List PolicyActed := []

inductive RiskEvent where
  /-- A batch is delivered to the findings service. -/
  | report (id : Nat) (orgId : OrgId) (payload : FindingsReportedPayload) (seenAt : Timestamp)
  /-- The next transaction of an ingest; `row` is drawn for a new finding. -/
  | ingest (id : Nat) (row : Uuid)
  | triage (orgId : OrgId) (findingId : Uuid) (state : FindingState) (now : Timestamp)
  /-- `updateMany` of a group of findings by `propagate`. -/
  | enrich (ids : List Uuid) (data : FindingIntelPatch)
  | requestRescore (orgId : OrgId) (findingIds : List Uuid)
  /-- The breach claim of the SLA monitor. -/
  | claim (orgId : OrgId) (findingId : Uuid) (now : Timestamp)
  | setPolicies (policies : List PolicyRow)
  | setExceptions (exceptions : List RiskExceptionRow)
  /-- A message that was published, delivered once more or for the first time. -/
  | deliver (id : Nat) (message : Nat)
  /-- The next statement of a handler; `score` is what `score` computes, where it does. -/
  | statement (id : Nat) (now : Timestamp) (score : Rat)
  /-- A handler stops where it is. -/
  | crash (id : Nat)

/-- A policy of the organisation or the seed rule is about the finding. -/
def policyApplies (st : PolicyDb) (orgId : OrgId) (row : FindingRow) (asset : AssetRow) : Bool :=
  ((st.enabledPolicies orgId).any fun policy =>
      matchesPolicyCondition policy.condition (matchFinding row asset)) ||
    matchesSeedKevOrCritical (matchFinding row asset)

/-- Where the loop over the policies, and the seed rule behind it, lead. -/
def policyDecision (st : PolicyDb) (orgId : OrgId) (findingId : Uuid) (row : FindingRow)
    (asset : AssetRow) : Option RiskStage :=
  match (st.enabledPolicies orgId).find? fun policy =>
      matchesPolicyCondition policy.condition (matchFinding row asset) with
  | some policy =>
      match policy.slaHours with
      | none => some (.publishing row ⟨findingId, policy.id, policy.actions⟩)
      | some 0 => some (.publishing row ⟨findingId, policy.id, policy.actions⟩)
      | some hours => some (.matched row hours ⟨findingId, policy.id, policy.actions⟩)
  | none =>
      if matchesSeedKevOrCritical (matchFinding row asset) then
        some (.publishing row ⟨findingId, seedKevOrCriticalPolicyId, seedNotifyActions⟩)
      else none

/-- The findings `rescoreAll` selects; no ids select all. -/
def rescoreTargets (st : PolicyDb) (orgId : OrgId) (findingIds : List Uuid) : List Uuid :=
  (st.db.findings.rows.filter fun r =>
    decide (r.orgId = orgId) && r.state.unresolved &&
      (findingIds.isEmpty || decide (r.id ∈ findingIds))).map FindingRow.id

/-- The handler that a message starts. -/
def handlerOf (st : PolicyDb) : FindingMessage → RiskHandler
  | .changed orgId findingId => .evaluating orgId findingId .received
  | .rescoreRequested orgId findingIds => .rescoring orgId (rescoreTargets st orgId findingIds)

/-- What an ingest publishes behind its next transaction. -/
def ingestMessages (db : FindingsDb) (run : IngestRun) (id : Uuid) : List FindingMessage :=
  match run.rows with
  | row :: _ =>
      match upsertFinding db run.orgId run.payload row run.seenAt id with
      | some db' =>
          ((db'.findings.find? (run.orgId, row.fingerprint)).map fun r =>
            FindingMessage.changed run.orgId r.id).toList
      | none => []
  | [] => if run.closed then [] else [.rescoreRequested run.orgId []]

namespace RiskWorld

/-- The handler is at another point, or through. -/
def goTo (w : RiskWorld) (id : Nat) (handler : Option RiskHandler) : RiskWorld :=
  { w with handlers := Function.update w.handlers id handler }

/-- The evaluation that has read `row` has had the effect. -/
def act (w : RiskWorld) (findingId : Uuid) (row : FindingRow) (effect : PolicyEffect) : RiskWorld :=
  { w with acted := w.acted ++ [⟨findingId, row.state, effect⟩] }

/-- The next statement of a handler of a changed finding. -/
def evaluating (w : RiskWorld) (id : Nat) (orgId : OrgId) (findingId : Uuid) (now : Timestamp)
    (score : Rat) : RiskStage → RiskWorld
  | .received =>
      -- `score` throws for a finding that is not there
      if (w.st.db.findById orgId findingId).isSome then
        { w with st := w.st.step (.rescore orgId findingId score) }.goTo id
          (some (.evaluating orgId findingId .scored))
      else w.goTo id none
  | .scored =>
      match w.st.db.findById orgId findingId with
      | none => w.goTo id none
      | some row =>
          match w.st.db.assetOf row with
          | none => w.goTo id none
          | some asset => w.goTo id (some (.evaluating orgId findingId (.found row asset)))
  | .found row asset =>
      if w.st.hasActiveException orgId now findingId then w.goTo id none
      else w.goTo id (some (.evaluating orgId findingId (.uncovered row asset)))
  | .uncovered row asset =>
      w.goTo id ((policyDecision w.st orgId findingId row asset).map fun stage =>
        .evaluating orgId findingId stage)
  | .matched row hours event =>
      ({ w with st := applySla w.st orgId findingId now (some hours) }.act findingId row
        (.dueSet hours)).goTo id (some (.evaluating orgId findingId (.publishing row event)))
  | .publishing row event => (w.act findingId row (.violated event)).goTo id none

/-- The next statement of a handler. -/
def statement (w : RiskWorld) (id : Nat) (now : Timestamp) (score : Rat) : RiskWorld :=
  match w.handlers id with
  | none => w
  | some (.evaluating orgId findingId stage) => w.evaluating id orgId findingId now score stage
  | some (.rescoring _ []) => w.goTo id none
  | some (.rescoring orgId (target :: rest)) =>
      if (w.st.db.findById orgId target).isSome then
        { w with st := w.st.step (.rescore orgId target score) }.goTo id
          (some (.rescoring orgId rest))
      else w.goTo id none

/-- The effect of one event. -/
def step (platform : Platform) (w : RiskWorld) : RiskEvent → RiskWorld
  | .report id orgId payload seenAt =>
      { w with
        ingests := Function.update w.ingests id (some (.start platform orgId payload seenAt)) }
  | .ingest id row =>
      match w.ingests id with
      | none => w
      | some run =>
          { w with
            st := { w.st with db := (run.advance w.st.db row).1 }
            ingests := Function.update w.ingests id (some (run.advance w.st.db row).2)
            published := w.published ++ ingestMessages w.st.db run row }
  | .triage orgId findingId state now =>
      { w with st := w.st.step (.triage orgId findingId state now) }
  | .enrich ids data =>
      { w with
        st := w.st.updateFindings (fun r => decide (r.id ∈ ids)) data.apply
          data.apply_keepsIdentity }
  | .requestRescore orgId findingIds =>
      { w with published := w.published ++ [.rescoreRequested orgId findingIds] }
  | .claim orgId findingId now => { w with st := w.st.step (.claim orgId findingId now) }
  | .setPolicies policies => { w with st := w.st.step (.setPolicies policies) }
  | .setExceptions exceptions => { w with st := w.st.step (.setExceptions exceptions) }
  | .deliver id message =>
      match w.handlers id, w.published[message]? with
      | none, some m => w.goTo id (some (handlerOf w.st m))
      -- the id is taken, or there is no such message
      | _, _ => w
  | .statement id now score => w.statement id now score
  | .crash id => w.goTo id none

/-- The risk service and what its database is shared with. -/
def system (platform : Platform) : System RiskWorld RiskEvent where
  step := step platform
  allowed := fun _ _ => True

/-- Nothing published yet, and nothing under way. -/
def start (st : PolicyDb) : RiskWorld where
  st := st

/-! ## An evaluation with nothing in between -/

section Alone

variable {w : RiskWorld} {id : Nat} {orgId : OrgId} {findingId : Uuid}

theorem statement_evaluating {stage : RiskStage}
    (h : w.handlers id = some (.evaluating orgId findingId stage)) (now : Timestamp) (score : Rat) :
    w.statement id now score = w.evaluating id orgId findingId now score stage := by
  unfold statement
  rw [h]

theorem statement_idle (h : w.handlers id = none) (now : Timestamp) (score : Rat) :
    w.statement id now score = w := by
  unfold statement
  rw [h]

@[simp] theorem goTo_self (w : RiskWorld) (id : Nat) (handler : Option RiskHandler) :
    (w.goTo id handler).handlers id = handler := Function.update_self _ _ _

/-- The events among the effects. -/
def events (w : RiskWorld) : List PolicyViolated :=
  w.acted.filterMap fun a =>
    match a.effect with
    | .dueSet _ => none
    | .violated event => some event

@[simp] theorem events_goTo (w : RiskWorld) (id : Nat) (handler : Option RiskHandler) :
    (w.goTo id handler).events = w.events := rfl

theorem events_act (w : RiskWorld) (findingId : Uuid) (row : FindingRow) (effect : PolicyEffect) :
    (w.act findingId row effect).events = w.events ++
      (match effect with
        | .dueSet _ => []
        | .violated event => [event]) := by
  unfold events act
  rw [List.filterMap_append]
  cases effect <;> rfl

/-- `n` statements of a handler. -/
def statements (w : RiskWorld) (id : Nat) (now : Timestamp) (score : Rat) : Nat → RiskWorld
  | 0 => w
  | n + 1 => (w.statement id now score).statements id now score n

theorem statements_idle (h : w.handlers id = none) (now : Timestamp) (score : Rat) (n : Nat) :
    w.statements id now score n = w := by
  induction n with
  | zero => rfl
  | succ n ih =>
      unfold statements
      rw [statement_idle h]
      exact ih

/-- The first statement of a handler, and the rest of them. -/
theorem statements_evaluating {stage : RiskStage}
    (h : w.handlers id = some (.evaluating orgId findingId stage)) (now : Timestamp) (score : Rat)
    (n : Nat) :
    w.statements id now score (n + 1) =
      (w.evaluating id orgId findingId now score stage).statements id now score n := by
  show (w.statement id now score).statements id now score n = _
  rw [statement_evaluating h]

/-- What a finished evaluation leaves. -/
structure Evaluated (w w' : RiskWorld) (id : Nat) (evaluation : Option Evaluation) : Prop where
  done : w'.handlers id = none
  st : w'.st = (evaluation.map Evaluation.db).getD w.st
  events : w'.events = w.events ++ (evaluation.bind Evaluation.violated).toList

/-- An evaluation that has nothing to do ends. -/
theorem evaluated_goTo_none (now : Timestamp) (score : Rat) (n : Nat) {evaluation : Option Evaluation}
    (hst : (evaluation.map Evaluation.db).getD w.st = w.st)
    (hevents : (evaluation.bind Evaluation.violated).toList = []) :
    Evaluated w ((w.goTo id none).statements id now score n) id evaluation := by
  rw [statements_idle (goTo_self w id none)]
  refine ⟨goTo_self w id none, hst.symm, ?_⟩
  rw [hevents, List.append_nil, events_goTo]

/-- The event of a policy is published, and the evaluation ends. -/
theorem statements_publishing {row : FindingRow} {event : PolicyViolated}
    (h : w.handlers id = some (.evaluating orgId findingId (.publishing row event)))
    (now : Timestamp) (score : Rat) (n : Nat) :
    w.statements id now score (n + 1) = (w.act findingId row (.violated event)).goTo id none := by
  rw [statements_evaluating h]
  exact statements_idle (goTo_self _ id none) now score n

/-- The rest of an evaluation, once the policies decide it. -/
theorem evaluated_uncovered {row : FindingRow} {asset : AssetRow}
    (h : w.handlers id = some (.evaluating orgId findingId (.uncovered row asset)))
    (hrow : w.st.db.findById orgId findingId = some row)
    (hasset : w.st.db.assetOf row = some asset) (now : Timestamp) (score : Rat)
    (hexception : w.st.hasActiveException orgId now findingId = false) :
    Evaluated w (w.statements id now score 3) id (evaluate w.st orgId findingId now) := by
  rw [statements_evaluating h]
  unfold evaluating evaluate policyDecision
  simp only [hrow, hasset, hexception, Bool.false_eq_true, if_false]
  cases hpolicy : (w.st.enabledPolicies orgId).find? fun policy =>
      matchesPolicyCondition policy.condition (matchFinding row asset) with
  | some policy =>
      simp only
      rcases hhours : policy.slaHours with _ | _ | hours
      · simp only [Option.map_some]
        rw [statements_publishing (goTo_self w id _)]
        exact ⟨goTo_self _ id none, rfl, events_act _ _ _ _⟩
      · simp only [Option.map_some]
        rw [statements_publishing (goTo_self w id _)]
        exact ⟨goTo_self _ id none, rfl, events_act _ _ _ _⟩
      · simp only [Option.map_some]
        rw [statements_evaluating (goTo_self w id _)]
        unfold evaluating
        rw [statements_publishing (goTo_self _ id _)]
        refine ⟨goTo_self _ id none, rfl, ?_⟩
        show (act _ findingId row _).events = _
        rw [events_act]
        show (act _ findingId row _).events ++ _ = _
        rw [events_act, List.append_nil]
        rfl
  | none =>
      simp only
      by_cases hseed : matchesSeedKevOrCritical (matchFinding row asset) = true
      · simp only [hseed, if_true, Option.map_some]
        rw [statements_publishing (goTo_self w id _)]
        exact ⟨goTo_self _ id none, rfl, events_act _ _ _ _⟩
      · simp only [hseed, Bool.false_eq_true, if_false, Option.map_none]
        exact evaluated_goTo_none now score 2 rfl rfl

/-- **An undisturbed evaluation.**  With nothing between its statements it does what `evaluate`
does. -/
theorem evaluation_alone (h : w.handlers id = some (.evaluating orgId findingId .scored))
    (now : Timestamp) (score : Rat) :
    Evaluated w (w.statements id now score 5) id (evaluate w.st orgId findingId now) := by
  rw [statements_evaluating h]
  unfold evaluating
  cases hrow : w.st.db.findById orgId findingId with
  | none =>
      unfold evaluate
      rw [hrow]
      exact evaluated_goTo_none now score 4 rfl rfl
  | some row =>
      simp only
      cases hasset : w.st.db.assetOf row with
      | none =>
          unfold evaluate
          simp only [hrow, hasset]
          exact evaluated_goTo_none now score 4 rfl rfl
      | some asset =>
          simp only
          rw [statements_evaluating (goTo_self _ id _)]
          unfold evaluating
          show Evaluated w ((if w.st.hasActiveException orgId now findingId then _ else _ :
            RiskWorld).statements id now score 3) id _
          cases hexception : w.st.hasActiveException orgId now findingId with
          | true =>
              unfold evaluate
              simp only [hrow, hasset, hexception, if_true]
              rw [statements_idle (goTo_self _ id none)]
              exact ⟨goTo_self _ id none, rfl, (List.append_nil _).symm⟩
          | false =>
              have hrest := evaluated_uncovered
                (goTo_self (w.goTo id (some (.evaluating orgId findingId (.found row asset)))) id _)
                hrow hasset now score hexception
              exact ⟨hrest.done, hrest.st, hrest.events⟩

end Alone

/-! ## Closed findings -/

/-- The row that an evaluation which is about to act has read. -/
def actingOn : RiskHandler → Option FindingRow
  | .evaluating _ _ (.matched row _ _) => some row
  | .evaluating _ _ (.publishing row _) => some row
  | _ => none

/-- Every effect of an evaluation, had or about to be had, is on a finding that it has read as
open, triaged or in progress. -/
structure ActsOnOpen (w : RiskWorld) : Prop where
  acted : ∀ a ∈ w.acted, a.seen.unresolved = true
  acting : ∀ id handler row, w.handlers id = some handler → actingOn handler = some row →
    row.state.unresolved = true

/-- The statement does not read policies for a closed finding that one of them, or the seed
rule, is about. -/
def PassesClosed (w : RiskWorld) : RiskEvent → Prop
  | .statement id _ _ =>
      match w.handlers id with
      | some (.evaluating orgId _ (.uncovered row asset)) =>
          row.state.unresolved = true ∨ policyApplies w.st orgId row asset = false
      | _ => True
  | _ => True

theorem policyDecision_isSome (st : PolicyDb) (orgId : OrgId) (findingId : Uuid) (row : FindingRow)
    (asset : AssetRow) :
    (policyDecision st orgId findingId row asset).isSome = policyApplies st orgId row asset := by
  unfold policyDecision policyApplies
  rw [← List.isSome_find?]
  cases (st.enabledPolicies orgId).find? fun policy =>
      matchesPolicyCondition policy.condition (matchFinding row asset) with
  | some policy =>
      simp only [Option.isSome_some, Bool.true_or]
      split <;> rfl
  | none =>
      simp only [Option.isSome_none, Bool.false_or]
      cases matchesSeedKevOrCritical (matchFinding row asset) <;> rfl

/-- The loop over the policies decides about the row it was given. -/
theorem actingOn_policyDecision {st : PolicyDb} {orgId : OrgId} {findingId : Uuid}
    {row : FindingRow} {asset : AssetRow} {stage : RiskStage}
    (h : policyDecision st orgId findingId row asset = some stage) :
    actingOn (.evaluating orgId findingId stage) = some row := by
  unfold policyDecision at h
  split at h
  · split at h <;> (obtain rfl := Option.some.inj h; rfl)
  · split at h
    · obtain rfl := Option.some.inj h
      rfl
    · cases h

section Closed

variable {w : RiskWorld}

/-- A handler that moves on to a point where it acts on no closed finding. -/
theorem ActsOnOpen.goTo (h : ActsOnOpen w) (id : Nat) {next : Option RiskHandler}
    (hnext : ∀ handler row, next = some handler → actingOn handler = some row →
      row.state.unresolved = true) : ActsOnOpen (w.goTo id next) where
  acted := h.acted
  acting := by
    intro id' handler row hhandler hacting
    by_cases hid : id' = id
    · subst hid
      rw [goTo_self] at hhandler
      exact hnext handler row hhandler hacting
    · refine h.acting id' handler row ?_ hacting
      exact (Function.update_of_ne hid _ _).symm.trans hhandler

/-- A handler that is through, or moves on to a point where it does not act. -/
theorem ActsOnOpen.goTo_idle (h : ActsOnOpen w) (id : Nat) {next : Option RiskHandler}
    (hnext : next.bind actingOn = none) : ActsOnOpen (w.goTo id next) := by
  refine h.goTo id ?_
  intro handler row hhandler hacting
  rw [hhandler, Option.bind_some, hacting] at hnext
  cases hnext

/-- Nothing but the database, the ingests and the messages change. -/
theorem ActsOnOpen.idle (h : ActsOnOpen w) {w' : RiskWorld} (hacted : w'.acted = w.acted)
    (hhandlers : w'.handlers = w.handlers) : ActsOnOpen w' :=
  ⟨hacted ▸ h.acted, hhandlers ▸ h.acting⟩

theorem ActsOnOpen.act (h : ActsOnOpen w) {findingId : Uuid} {row : FindingRow}
    {effect : PolicyEffect} (hrow : row.state.unresolved = true) :
    ActsOnOpen (w.act findingId row effect) where
  acted := by
    intro a ha
    rcases List.mem_append.mp ha with hold | hnew
    · exact h.acted a hold
    · rw [List.mem_singleton.mp hnew]
      exact hrow
  acting := h.acting

theorem ActsOnOpen.evaluating (h : ActsOnOpen w) {id : Nat} {orgId : OrgId} {findingId : Uuid}
    {stage : RiskStage} (hhandler : w.handlers id = some (.evaluating orgId findingId stage))
    (now : Timestamp) (score : Rat) (hpasses : PassesClosed w (.statement id now score)) :
    ActsOnOpen (w.evaluating id orgId findingId now score stage) := by
  cases stage with
  | received =>
      unfold RiskWorld.evaluating
      simp only
      split
      · have hscored : ActsOnOpen { w with st := w.st.step (.rescore orgId findingId score) } :=
          h.idle rfl rfl
        exact hscored.goTo_idle id rfl
      · exact h.goTo_idle id rfl
  | scored =>
      unfold RiskWorld.evaluating
      simp only
      split
      · exact h.goTo_idle id rfl
      · split <;> exact h.goTo_idle id rfl
  | found row asset =>
      unfold RiskWorld.evaluating
      simp only
      split <;> exact h.goTo_idle id rfl
  | uncovered row asset =>
      unfold RiskWorld.evaluating
      simp only [PassesClosed, hhandler] at hpasses ⊢
      refine h.goTo id ?_
      intro handler row' hnext hacting
      obtain ⟨stage, hstage, rfl⟩ := Option.map_eq_some_iff.mp hnext
      rw [actingOn_policyDecision hstage] at hacting
      obtain rfl := Option.some.inj hacting
      -- a finding that some policy is about is not closed
      rcases hpasses with hopen | hnone
      · exact hopen
      · rw [← policyDecision_isSome w.st orgId findingId, hstage] at hnone
        cases hnone
  | matched row hours event =>
      have hopen := h.acting id _ row hhandler rfl
      have hset : ActsOnOpen { w with st := applySla w.st orgId findingId now (some hours) } :=
        h.idle rfl rfl
      refine (hset.act hopen).goTo id ?_
      intro handler row' hnext hacting
      obtain rfl := Option.some.inj hnext
      obtain rfl := Option.some.inj hacting
      exact hopen
  | publishing row event =>
      have hopen := h.acting id _ row hhandler rfl
      exact (h.act hopen).goTo_idle id rfl

/-- **Step.**  A step that passes closed findings keeps all effects on open ones. -/
theorem ActsOnOpen.step (h : ActsOnOpen w) (platform : Platform) {e : RiskEvent}
    (hpasses : PassesClosed w e) : ActsOnOpen (RiskWorld.step platform w e) := by
  cases e with
  | report id orgId payload seenAt => exact h.idle rfl rfl
  | ingest id row =>
      unfold RiskWorld.step
      simp only
      split
      · exact h
      · exact h.idle rfl rfl
  | triage orgId findingId state now => exact h.idle rfl rfl
  | enrich ids data => exact h.idle rfl rfl
  | requestRescore orgId findingIds => exact h.idle rfl rfl
  | claim orgId findingId now => exact h.idle rfl rfl
  | setPolicies policies => exact h.idle rfl rfl
  | setExceptions exceptions => exact h.idle rfl rfl
  | deliver id message =>
      unfold RiskWorld.step
      simp only
      split
      · rename_i m _ _
        refine h.goTo_idle id ?_
        cases m <;> rfl
      · exact h
  | statement id now score =>
      show ActsOnOpen (w.statement id now score)
      unfold RiskWorld.statement
      split
      · exact h
      · rename_i orgId findingId stage hhandler
        exact h.evaluating hhandler now score hpasses
      · exact h.goTo_idle id rfl
      · rename_i orgId target rest hhandler
        split
        · have hscored : ActsOnOpen { w with st := w.st.step (.rescore orgId target score) } :=
            h.idle rfl rfl
          exact hscored.goTo_idle id rfl
        · exact h.goTo_idle id rfl
  | crash id => exact h.goTo_idle id rfl

/-- A step that does not leaves an evaluation about to act on a closed finding. -/
theorem not_actsOnOpen_step (platform : Platform) {e : RiskEvent} (hclosed : ¬ PassesClosed w e) :
    ¬ ActsOnOpen (RiskWorld.step platform w e) := by
  cases e with
  | statement id now score =>
      simp only [PassesClosed] at hclosed
      split at hclosed
      · rename_i orgId findingId row asset hhandler
        rw [not_or, Bool.not_eq_true, Bool.not_eq_false] at hclosed
        obtain ⟨hstate, happlies⟩ := hclosed
        rw [← policyDecision_isSome w.st orgId findingId] at happlies
        obtain ⟨stage, hstage⟩ := Option.isSome_iff_exists.mp happlies
        intro hopen
        have hnext : (RiskWorld.step platform w (.statement id now score)).handlers id =
            some (.evaluating orgId findingId stage) := by
          show (w.statement id now score).handlers id = _
          rw [statement_evaluating hhandler]
          unfold RiskWorld.evaluating
          simp only [hstage, Option.map_some, goTo_self]
        have hrow := hopen.acting id _ row hnext (actingOn_policyDecision hstage)
        rw [hstate] at hrow
        cases hrow
      · exact absurd trivial hclosed
  | _ => exact absurd trivial hclosed

theorem actsOnOpen_start (st : PolicyDb) : ActsOnOpen (start st) :=
  ⟨fun _ ha => absurd ha List.not_mem_nil, fun _ _ _ h => by cases h⟩

end Closed

/-- **Closed findings.**  In every state of a run the evaluations act on open findings only,
precisely when no evaluation without an exception reads the policies for a closed finding that
one of them, or the seed rule, is about. -/
theorem acts_on_open_iff (platform : Platform) (st : PolicyDb) (es : List RiskEvent) :
    (∀ w ∈ (system platform).states (start st) es, ActsOnOpen w) ↔
      (system platform).AllSteps PassesClosed (start st) es := by
  refine System.forall_states_iff_of_breaks (system platform) (I := ActsOnOpen) ?_ ?_ ?_
    (actsOnOpen_start st)
  · intro w e h hpasses
    exact h.step platform hpasses
  · intro w h
    exact h
  · intro w e _ hclosed
    exact not_actsOnOpen_step platform hclosed

/-- The finding of a scan is triaged as a false positive, the next scan reports it again, and
its event is evaluated. -/
def rereportedRun : List RiskEvent :=
  let again := ShopScan.batch "6f1c0b7e-0000-4000-8000-0000000000d2" [ShopScan.finding]
  [.report 0 ShopScan.orgId ShopScan.found 1, .ingest 0 "f1", .ingest 0 "",
    .triage ShopScan.orgId "f1" .falsePositive 2, .report 1 ShopScan.orgId again 3,
    .ingest 1 "f2", .deliver 0 2, .statement 0 4 80, .statement 0 4 0, .statement 0 4 0,
    .statement 0 4 0, .statement 0 4 0]

/-- The seed rule reports the false positive as a violation. -/
theorem false_positive_violates :
    ¬ ∀ es, ∀ w ∈ (system ShopScan.platform).states (start ⟨ShopScan.db, [], []⟩) es,
      ∀ a ∈ w.acted, a.seen.unresolved = true := by
  intro hall
  have hacted : ((system ShopScan.platform).run (start ⟨ShopScan.db, [], []⟩)
      rereportedRun).acted.map PolicyActed.seen = [.falsePositive] := by decide +kernel
  have hopen := hall rereportedRun _ (System.run_mem_states _ _ _)
  obtain ⟨a, ha, hseen⟩ := List.mem_map.mp (hacted ▸ List.mem_singleton_self _)
  have hunresolved := hopen a ha
  rw [hseen] at hunresolved
  cases hunresolved

end RiskWorld

end Policy
end Ctem
