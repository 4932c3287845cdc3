import Ctem.Orchestrator.ScanAccept
import Ctem.Orchestrator.ScanDispatcher
import Ctem.Resilience.HttpPolicy

/-!
# Forwarded scan requests

`ServiceProxy.forward` of the two scan routes: the gateway's policy makes attempts, and each
attempt that is sent may reach the orchestrator, at once or after the gateway has given it up,
where it is one `createScan` call.  The circuit is shared with everything else the gateway sends
to the orchestrator, and the tables with everything else that happens there.

* An attempt is sent when the policy admits a request and whenever its loop goes round; what an
  attempt comes back with says nothing about what became of it upstream.
* `Credited` is what the accept has on record: every scan and meter row goes back to the call
  that committed it, and carries that call's organisation and key.
* `OneKick` is the promise.  `one_request_one_kick`: it holds along a run in which no second
  attempt of a request without a key gets as far as the accept.
-/

namespace Ctem
namespace Orchestrator

open Foundation Contracts Resilience
open ScanStore (KickArgs)

/-! ## Requests -/

/-- `idempotencyForwardHeaders`: the header may have come several times. -/
def idempotencyForwardHeaders (value : List String) : List String :=
  match value.head?.map trimText with
  | some key => if key = "" then [] else [key]
  | none => []

/-- What the gateway forwards to the orchestrator. -/
inductive ForwardBody where
  /-- `POST /v1/scans`. -/
  | create (body : Json)
  /-- `POST /v1/scans/sbom`. -/
  | ingestSbom (body : Json)
  /-- Any other route. -/
  | other

/-- A client request, of the organisation of its principal. -/
structure ForwardedRequest where
  orgId : OrgId
  /-- The values of the `Idempotency-Key` header. -/
  idempotencyKey : List String := []
  body : ForwardBody

section Accept

variable (env : DispatchCalls)

/-- The request an SBOM ingest makes of its body, up to its `createScan`. -/
def sbomRequest (orgId : OrgId) (body : IngestSbomRequest) : Except String CreateScanRequest :=
  match assetByKey env orgId body.assetExternalKey with
  | none => .error "No Asset found"
  | some asset => do
      let artifactKey ←
        match body.artifactKey with
        | some key => pure key
        | none => do
            env.putJson (uploadKey env orgId asset.id) (.obj (body.document.getD []))
            pure (uploadKey env orgId asset.id)
      pure (sbomScanRequest asset.id artifactKey body)

/-- An SBOM ingest is the `createScan` of its request. -/
theorem ingestSbom_eq (st : ScanStore) (orgId : OrgId) (body : IngestSbomRequest)
    (header : List String) :
    ingestSbom env st orgId body header =
      (sbomRequest env orgId body).bind fun request =>
        createScan env st orgId .ci request header := by
  unfold ingestSbom sbomRequest
  cases assetByKey env orgId body.assetExternalKey with
  | none => rfl
  | some asset =>
      cases body.artifactKey with
      | some key => rfl
      | none =>
          simp only [bind, Except.bind, pure, Except.pure]
          cases env.putJson (uploadKey env orgId asset.id) (.obj (body.document.getD [])) <;> rfl

/-- The arguments of the accept an attempt leads to; an error is a request that creates nothing. -/
def ForwardedRequest.kickArgs (request : ForwardedRequest) : Except String KickArgs :=
  let header := idempotencyForwardHeaders request.idempotencyKey
  match request.body with
  | .create body =>
      match CreateScanRequest.parse body with
      | none => .error "Invalid request"
      | some parsed => Orchestrator.kickArgs env request.orgId .manual parsed header
  | .ingestSbom body =>
      match IngestSbomRequest.parse body with
      | none => .error "Invalid request"
      | some parsed =>
          (sbomRequest env request.orgId parsed).bind fun scan =>
            Orchestrator.kickArgs env request.orgId .ci scan header
  | .other => .error "Not a scan request"

end Accept

/-- The external id of a body that its schema accepts. -/
def ForwardBody.externalId : ForwardBody → Option String
  | .create body => (CreateScanRequest.parse body).bind CreateScanRequest.externalId
  | .ingestSbom body => (IngestSbomRequest.parse body).bind IngestSbomRequest.externalId
  | .other => none

/-- The key the orchestrator resolves for the request. -/
def ForwardedRequest.kickKey (request : ForwardedRequest) : Except String (Option String) :=
  resolveScanKickIdempotencyKey (idempotencyForwardHeaders request.idempotencyKey)
    request.body.externalId

theorem kickArgs_key {env : DispatchCalls} {orgId : OrgId} {trigger : ScanTrigger}
    {scan : CreateScanRequest} {header : List String} {args : KickArgs}
    (h : Orchestrator.kickArgs env orgId trigger scan header = .ok args) :
    args.orgId = orgId ∧
      resolveScanKickIdempotencyKey header scan.externalId = .ok args.idempotencyKey := by
  unfold Orchestrator.kickArgs at h
  obtain ⟨key, hkey, h⟩ := bind_eq_ok.mp h
  obtain ⟨requestedBy, -, h⟩ := bind_eq_ok.mp h
  obtain rfl := Except.ok.inj h
  exact ⟨rfl, hkey⟩

theorem sbomRequest_externalId {env : DispatchCalls} {orgId : OrgId} {body : IngestSbomRequest}
    {scan : CreateScanRequest} (h : sbomRequest env orgId body = .ok scan) :
    scan.externalId = body.externalId := by
  unfold sbomRequest at h
  split at h
  · cases h
  · cases hkey : body.artifactKey with
    | some key =>
        simp only [hkey] at h
        obtain rfl := Except.ok.inj h
        rfl
    | none =>
        simp only [hkey] at h
        obtain ⟨-, -, h⟩ := bind_eq_ok.mp h
        obtain rfl := Except.ok.inj h
        rfl

/-- Whatever an attempt finds, its accept has the organisation and the key of the request. -/
theorem ForwardedRequest.kickArgs_ok {env : DispatchCalls} {request : ForwardedRequest}
    {args : KickArgs} (h : request.kickArgs env = .ok args) :
    args.orgId = request.orgId ∧ request.kickKey = .ok args.idempotencyKey := by
  obtain ⟨orgId, idempotencyKey, body⟩ := request
  unfold ForwardedRequest.kickArgs at h
  unfold ForwardedRequest.kickKey ForwardBody.externalId
  cases body with
  | create body =>
      simp only at h ⊢
      cases hparse : CreateScanRequest.parse body with
      | none =>
          rw [hparse] at h
          cases h
      | some parsed =>
          rw [hparse] at h
          exact kickArgs_key h
  | ingestSbom body =>
      simp only at h ⊢
      cases hparse : IngestSbomRequest.parse body with
      | none =>
          rw [hparse] at h
          cases h
      | some parsed =>
          rw [hparse] at h
          obtain ⟨scan, hscan, hargs⟩ := bind_eq_ok.mp h
          obtain ⟨horg, hkey⟩ := kickArgs_key hargs
          rw [sbomRequest_externalId hscan] at hkey
          exact ⟨horg, hkey⟩
  | other => cases h

/-! ## The gateway and the orchestrator -/

structure ForwardWorld where
  policy : HttpPolicy
  accept : AcceptWorld
  /-- The admitted requests, by the number of their `execute`. -/
  requests : Nat → Option ForwardedRequest
  /-- The attempts that are sent and may still arrive. -/
  sent : List Nat
  /-- The request whose attempt a `createScan` call is. -/
  attemptOf : Nat → Option Nat

inductive ForwardEvent where
  | forward (request : ForwardedRequest)
  | pass (ms : Nat)
  /-- An attempt of the request comes back. -/
  | outcome (request : Nat) (result : AttemptResult)
  /-- A sent attempt arrives, and the orchestrator gets as far with it as the accept, or answers
  an error before. -/
  | arrive (request : Nat) (call : Nat) (env : DispatchCalls)
  /-- A statement of a call, another client's call, or a step of a scan. -/
  | orchestrator (event : AcceptEvent)

namespace ForwardWorld

def start (now : Int) : ForwardWorld where
  policy := { now := now }
  accept := AcceptWorld.start
  requests := fun _ => none
  sent := []
  attemptOf := fun _ => none

section Steps

variable (config : CircuitBreakerConfig)

/-- `forward`: an admitted request makes its first attempt. -/
def stepForward (w : ForwardWorld) (request : ForwardedRequest) : ForwardWorld :=
  let id := w.policy.nextCall
  let policy := w.policy.execute config
  if w.policy.calls.length < policy.calls.length then
    { w with
      policy := policy
      requests := Function.update w.requests id (some request)
      sent := id :: w.sent }
  else { w with policy := policy }

/-- The loop of `execute` settles, or goes round and makes another attempt. -/
def stepOutcome (w : ForwardWorld) (id : Nat) (result : AttemptResult) : ForwardWorld :=
  let policy := w.policy.attempt config id result
  match w.policy.calls.find? fun call => decide (call.id = id) with
  | some call =>
      if verdict call result = .retry then { w with policy := policy, sent := id :: w.sent }
      else { w with policy := policy }
  | none => { w with policy := policy }

def stepArrive (w : ForwardWorld) (id call : Nat) (env : DispatchCalls) : ForwardWorld :=
  if id ∈ w.sent then
    match w.requests id, w.accept.calls call with
    | some request, none =>
        match request.kickArgs env with
        | .ok args =>
            { w with
              accept := w.accept.step (.call call args)
              sent := w.sent.erase id
              attemptOf := Function.update w.attemptOf call (some id) }
        | .error _ => { w with sent := w.sent.erase id }
    | _, _ => w
  else w

def step (w : ForwardWorld) : ForwardEvent → ForwardWorld
  | .forward request => w.stepForward config request
  | .pass ms => { w with policy := w.policy.step config (.pass ms) }
  | .outcome id result => w.stepOutcome config id result
  | .arrive id call env => w.stepArrive id call env
  | .orchestrator event => { w with accept := w.accept.step event }

/-- The gateway and the orchestrator, in any interleaving. -/
def system : System ForwardWorld ForwardEvent where
  step := step config
  allowed := fun _ _ => True

end Steps

/-! ## The promise and the condition -/

/-- The scan was committed by an attempt of the request. -/
def CreatedFor (w : ForwardWorld) (request : Nat) (scanId : Uuid) : Prop :=
  ∃ call, w.accept.creators scanId = some call ∧ w.attemptOf call = some request

/-- A client request has at most one scan and one meter row. -/
structure OneKick (w : ForwardWorld) : Prop where
  scans : ∀ request, ∀ s ∈ w.accept.store.scans, ∀ s' ∈ w.accept.store.scans,
    w.CreatedFor request s.id → w.CreatedFor request s'.id → s = s'
  kicks : ∀ request, ∀ k ∈ w.accept.store.kicks, ∀ k' ∈ w.accept.store.kicks,
    w.CreatedFor request k.scanId → w.CreatedFor request k'.scanId → k = k'

/-- The request has a key, or no earlier attempt of it got as far as the accept. -/
def KeyedOrFirst (w : ForwardWorld) : ForwardEvent → Prop
  | .arrive id call env =>
      id ∈ w.sent → w.accept.calls call = none → ∀ request, w.requests id = some request →
        ∀ args, request.kickArgs env = .ok args → request.kickKey = .ok none →
          ∀ call', w.attemptOf call' ≠ some id
  | _ => True

end ForwardWorld

/-! ## What the accept has on record -/

namespace AcceptWorld

/-- Scans and meter rows go back to the calls that committed them. -/
structure Credited (w : AcceptWorld) : Prop where
  reached : Reached w
  committer : ∀ scanId id, w.creators scanId = some id →
    ∃ call, w.calls id = some call ∧ call.args.scanId = scanId
  kick : ∀ k ∈ w.store.kicks, ∃ id call, w.creators k.scanId = some id ∧
    w.calls id = some call ∧ k.orgId = call.args.orgId ∧
      k.idempotencyKey = call.args.idempotencyKey

theorem credited_start : Credited start where
  reached := reached_start
  committer := by
    intro scanId id hcreator
    cases hcreator
  kick := fun k hk => absurd hk (Table.not_mem_empty k)

/-- The call is still there, with its arguments. -/
def Keeps (w w' : AcceptWorld) : Prop :=
  ∀ id call, w.calls id = some call → ∃ phase, w'.calls id = some ⟨call.args, phase⟩

theorem Keeps.refl (w : AcceptWorld) : Keeps w w :=
  fun _ call hcall => ⟨call.phase, hcall⟩

/-- A call that goes on keeps its arguments. -/
theorem keeps_goTo {w w' : AcceptWorld} {id : Nat} {args : KickArgs} {phase : CallPhase}
    (hcalls : w'.calls = w.calls)
    (hargs : ∀ call, w.calls id = some call → call.args = args) :
    Keeps w (w'.goTo id args phase) := by
  intro id' call hcall
  by_cases heq : id' = id
  · subst heq
    refine ⟨phase, ?_⟩
    rw [hargs call hcall]
    exact Function.update_self _ _ _
  · refine ⟨call.phase, ?_⟩
    exact (Function.update_of_ne heq _ _).trans (hcalls ▸ hcall)

/-- **What a step does to the record.**  Every call keeps its arguments, and only the commit of
an accept adds a meter row and a committer. -/
theorem step_record (w : AcceptWorld) (event : AcceptEvent) :
    Keeps w (w.step event) ∧
      (((w.step event).creators = w.creators ∧ (w.step event).store.kicks = w.store.kicks) ∨
        ∃ id args store, w.calls id = some ⟨args, .commit⟩ ∧ w.store.accept args = some store ∧
          (w.step event).creators = Function.update w.creators args.scanId (some id) ∧
          (w.step event).store = store) := by
  have hself : ∀ {id call}, w.calls id = some call →
      ∀ call', w.calls id = some call' → call'.args = call.args := by
    intro id call hcall call' hcall'
    rw [Option.some_inj.mp (hcall'.symm.trans hcall)]
  cases event with
  | call id args =>
      unfold step
      simp only
      cases hcall : w.calls id with
      | none =>
          refine ⟨keeps_goTo rfl ?_, Or.inl ⟨rfl, rfl⟩⟩
          intro call hcall'
          rw [hcall] at hcall'
          cases hcall'
      | some call => exact ⟨Keeps.refl w, Or.inl ⟨rfl, rfl⟩⟩
  | statement id =>
      unfold step
      simp only
      cases hcall : w.calls id with
      | none => exact ⟨Keeps.refl w, Or.inl ⟨rfl, rfl⟩⟩
      | some call =>
          simp only
          unfold stepStatement
          split
          · unfold stepInsertKick
            split
            · exact ⟨Keeps.refl w, Or.inl ⟨rfl, rfl⟩⟩
            · split
              · exact ⟨keeps_goTo rfl (hself hcall), Or.inl ⟨rfl, rfl⟩⟩
              · exact ⟨keeps_goTo rfl (hself hcall), Or.inl ⟨rfl, rfl⟩⟩
              · exact ⟨keeps_goTo rfl (hself hcall), Or.inl ⟨rfl, rfl⟩⟩
          · exact ⟨keeps_goTo rfl (hself hcall), Or.inl ⟨rfl, rfl⟩⟩
  | commit id =>
      unfold step
      simp only
      split
      · rename_i args hcall
        unfold stepCommit
        cases haccept : w.store.accept args with
        | none => exact ⟨keeps_goTo rfl (hself hcall), Or.inl ⟨rfl, rfl⟩⟩
        | some store =>
            exact ⟨keeps_goTo rfl (hself hcall),
              Or.inr ⟨id, args, store, hcall, haccept, rfl, rfl⟩⟩
      · exact ⟨Keeps.refl w, Or.inl ⟨rfl, rfl⟩⟩
  | failure id =>
      unfold step
      simp only
      cases hcall : w.calls id with
      | none => exact ⟨Keeps.refl w, Or.inl ⟨rfl, rfl⟩⟩
      | some call => exact ⟨keeps_goTo rfl (hself hcall), Or.inl ⟨rfl, rfl⟩⟩
  | lifecycle event =>
      exact ⟨Keeps.refl w, Or.inl ⟨rfl, (sameRows_lifecycleStep w.store event).kicks⟩⟩

theorem credited_step {w : AcceptWorld} {event : AcceptEvent} (h : Credited w) :
    Credited (w.step event) := by
  obtain ⟨hkeeps, hrecord⟩ := step_record w event
  refine ⟨reached_step h.reached, ?_, ?_⟩
  · intro scanId id hcreator
    rcases hrecord with ⟨hcreators, -⟩ | ⟨id', args, store, hcall, -, hcreators, -⟩
    · rw [hcreators] at hcreator
      obtain ⟨call, hcall, hscan⟩ := h.committer scanId id hcreator
      obtain ⟨phase, hcall'⟩ := hkeeps id call hcall
      exact ⟨⟨call.args, phase⟩, hcall', hscan⟩
    · rw [hcreators] at hcreator
      by_cases heq : scanId = args.scanId
      · subst heq
        rw [Function.update_self, Option.some_inj] at hcreator
        subst hcreator
        obtain ⟨phase, hcall'⟩ := hkeeps id' ⟨args, .commit⟩ hcall
        exact ⟨⟨args, phase⟩, hcall', rfl⟩
      · rw [Function.update_of_ne heq] at hcreator
        obtain ⟨call, hcall, hscan⟩ := h.committer scanId id hcreator
        obtain ⟨phase, hcall'⟩ := hkeeps id call hcall
        exact ⟨⟨call.args, phase⟩, hcall', hscan⟩
  · intro k hk
    -- a meter row from before keeps its committer, whose scan id is taken
    have hold : ∀ k ∈ w.store.kicks, (w.step event).creators k.scanId = w.creators k.scanId →
        ∃ id call, (w.step event).creators k.scanId = some id ∧
          (w.step event).calls id = some call ∧ k.orgId = call.args.orgId ∧
            k.idempotencyKey = call.args.idempotencyKey := by
      intro k hk hsame
      obtain ⟨id, call, hcreator, hcall, horg, hkey⟩ := h.kick k hk
      obtain ⟨phase, hcall'⟩ := hkeeps id call hcall
      exact ⟨id, ⟨call.args, phase⟩, hsame.trans hcreator, hcall', horg, hkey⟩
    rcases hrecord with ⟨hcreators, hkicks⟩ | ⟨id, args, store, hcall, haccept, hcreators, hstore⟩
    · rw [hkicks] at hk
      exact hold k hk (by rw [hcreators])
    · rw [hstore] at hk
      obtain ⟨hscans, -, hinsert, -⟩ := accept_some haccept
      rcases (Table.mem_insertMany? hinsert).mp hk with hnew | hbefore
      · obtain rfl := List.mem_singleton.mp hnew
        obtain ⟨phase, hcall'⟩ := hkeeps id ⟨args, .commit⟩ hcall
        refine ⟨id, ⟨args, phase⟩, ?_, hcall', rfl, rfl⟩
        rw [hcreators]
        exact Function.update_self _ _ _
      · apply hold k hbefore
        rw [hcreators]
        obtain ⟨s, hs, hid⟩ := h.reached.rows.scanOfKick k hbefore
        have hne : s.id ≠ args.scanId := ScanStore.ne_of_inserted hscans hs
        exact Function.update_of_ne (hid ▸ hne) _ _

end AcceptWorld

/-! ## One kick -/

namespace ForwardWorld

section Invariant

variable {config : CircuitBreakerConfig} {w : ForwardWorld}

/-- Every attempt at the accept carries the organisation and the key of its request, and a
request without a key has one such attempt. -/
structure Traced (w : ForwardWorld) : Prop where
  credited : AcceptWorld.Credited w.accept
  numbered : ∀ id request, w.requests id = some request → id < w.policy.nextCall
  attempt : ∀ call id, w.attemptOf call = some id → ∃ request c, w.requests id = some request ∧
    w.accept.calls call = some c ∧ c.args.orgId = request.orgId ∧
      request.kickKey = .ok c.args.idempotencyKey
  single : ∀ id request, w.requests id = some request → request.kickKey = .ok none →
    ∀ call call', w.attemptOf call = some id → w.attemptOf call' = some id → call = call'

theorem traced_start (now : Int) : Traced (start now) where
  credited := AcceptWorld.credited_start
  numbered := by simp [start]
  attempt := by simp [start]
  single := by simp [start]

/-- `execute` uses up a number, or it admits no call. -/
theorem nextCall_execute (config : CircuitBreakerConfig) (p : HttpPolicy) :
    (p.execute config).nextCall = p.nextCall ∧ (p.execute config).calls = p.calls ∨
      (p.execute config).nextCall = p.nextCall + 1 := by
  rcases HttpPolicy.execute_cases config p with h | ⟨-, h⟩ | ⟨-, h⟩ | ⟨-, -, h⟩
  · exact Or.inl (by simp [h])
  · exact Or.inr (by simp [h])
  · exact Or.inr (by simp [h])
  · exact Or.inr (by simp [h])

theorem nextCall_attempt (p : HttpPolicy) (id : Nat) (result : AttemptResult) :
    (p.attempt config id result).nextCall = p.nextCall := by
  rcases HttpPolicy.attempt_cases config p id result with ⟨heq, -⟩ | ⟨call, -, -, hcases⟩
  · rw [heq]
  · rcases hcases with ⟨-, heq⟩ | ⟨-, heq⟩ | ⟨-, heq⟩ <;> rw [heq] <;> rfl

/-- What the gateway keeps of its attempts does not concern the record. -/
theorem Traced.withPolicy (h : Traced w) (policy : HttpPolicy) (sent : List Nat)
    (hnext : w.policy.nextCall ≤ policy.nextCall) :
    Traced { w with policy := policy, sent := sent } where
  credited := h.credited
  numbered := fun id request hrequest => lt_of_lt_of_le (h.numbered id request hrequest) hnext
  attempt := h.attempt
  single := h.single

theorem traced_stepForward (h : Traced w) (request : ForwardedRequest) :
    Traced (w.stepForward config request) := by
  unfold stepForward
  simp only
  rcases nextCall_execute config w.policy with ⟨hnext, hcalls⟩ | hnext
  · rw [if_neg (by rw [hcalls]; exact lt_irrefl _)]
    exact h.withPolicy _ w.sent hnext.ge
  · split
    · -- the number of the new request is one no request has yet
      have hfree : ∀ call, w.attemptOf call ≠ some w.policy.nextCall := by
        intro call hcall
        obtain ⟨request, -, hrequest, -⟩ := h.attempt call _ hcall
        exact lt_irrefl _ (h.numbered _ request hrequest)
      refine ⟨h.credited, ?_, ?_, ?_⟩
      · intro id request' hrequest
        change id < (w.policy.execute config).nextCall
        rcases update_some_eq_some hrequest with ⟨rfl, -⟩ | ⟨-, hold⟩
        · omega
        · have hlt := h.numbered id request' hold
          omega
      · intro call id hcall
        obtain ⟨request', c, hrequest, hrest⟩ := h.attempt call id hcall
        have hne : id ≠ w.policy.nextCall := (h.numbered id request' hrequest).ne
        exact ⟨request', c, (Function.update_of_ne hne _ _).trans hrequest, hrest⟩
      · intro id request' hrequest hkey call call' hcall hcall'
        rcases update_some_eq_some hrequest with ⟨rfl, -⟩ | ⟨-, hold⟩
        · exact absurd hcall (hfree call)
        · exact h.single id request' hold hkey call call' hcall hcall'
    · exact h.withPolicy _ w.sent (by omega)

theorem traced_stepOutcome (h : Traced w) (id : Nat) (result : AttemptResult) :
    Traced (w.stepOutcome config id result) := by
  have hle : w.policy.nextCall ≤ (w.policy.attempt config id result).nextCall :=
    (nextCall_attempt w.policy id result).ge
  unfold stepOutcome
  simp only
  split
  · split
    · exact h.withPolicy _ _ hle
    · exact h.withPolicy _ w.sent hle
  · exact h.withPolicy _ w.sent hle

/-- Whatever happens at the orchestrator, the calls keep their arguments. -/
theorem Traced.withAccept (h : Traced w) (event : AcceptEvent) :
    Traced { w with accept := w.accept.step event } where
  credited := AcceptWorld.credited_step h.credited
  numbered := h.numbered
  attempt := by
    intro call id hcall
    obtain ⟨request, c, hrequest, hc, horg, hkey⟩ := h.attempt call id hcall
    obtain ⟨phase, hc'⟩ := (AcceptWorld.step_record w.accept event).1 call c hc
    exact ⟨request, ⟨c.args, phase⟩, hrequest, hc', horg, hkey⟩
  single := h.single

/-- An attempt that arrives becomes a call of its request. -/
theorem traced_stepArrive (h : Traced w) {id call : Nat} {env : DispatchCalls}
    (hfirst : w.KeyedOrFirst (.arrive id call env)) : Traced (w.stepArrive id call env) := by
  unfold stepArrive
  split
  · rename_i hsent
    split
    · rename_i request hrequest hfree
      split
      · rename_i args hargs
        obtain ⟨horg, hkey⟩ := ForwardedRequest.kickArgs_ok hargs
        have hon := (h.withAccept (.call call args)).withPolicy w.policy (w.sent.erase id)
          (le_refl w.policy.nextCall)
        refine ⟨hon.credited, hon.numbered, ?_, ?_⟩
        · intro call' id' hcall'
          rcases update_some_eq_some hcall' with ⟨rfl, rfl⟩ | ⟨-, hold⟩
          · refine ⟨request, ⟨args, .lookup⟩, hrequest, ?_, horg, hkey⟩
            change (w.accept.step (.call call' args)).calls call' = _
            simp [AcceptWorld.step, hfree, AcceptWorld.goTo]
          · exact hon.attempt call' id' hold
        · intro id' request' hrequest' hnokey call₁ call₂ hcall₁ hcall₂
          rcases update_some_eq_some hcall₁ with ⟨rfl, rfl⟩ | ⟨-, hold₁⟩
          · rcases update_some_eq_some hcall₂ with ⟨rfl, -⟩ | ⟨-, hold₂⟩
            · rfl
            · exact absurd hold₂
                (hfirst hsent hfree request' hrequest' args
                  (Option.some_inj.mp (hrequest.symm.trans hrequest') ▸ hargs) hnokey call₂)
          · rcases update_some_eq_some hcall₂ with ⟨rfl, rfl⟩ | ⟨-, hold₂⟩
            · exact absurd hold₁
                (hfirst hsent hfree request' hrequest' args
                  (Option.some_inj.mp (hrequest.symm.trans hrequest') ▸ hargs) hnokey call₁)
            · exact h.single id' request' hrequest' hnokey call₁ call₂ hold₁ hold₂
      · exact h.withPolicy w.policy _ le_rfl
    · exact h
  · exact h

/-- **Step.**  The record stays traced as long as a request without a key gets as far as the
accept once. -/
theorem traced_step (h : Traced w) (event : ForwardEvent) (hfirst : w.KeyedOrFirst event) :
    Traced (step config w event) := by
  cases event with
  | forward request => exact traced_stepForward h request
  | pass ms => exact h.withPolicy _ w.sent le_rfl
  | outcome id result => exact traced_stepOutcome h id result
  | arrive id call env => exact traced_stepArrive h hfirst
  | orchestrator event => exact h.withAccept event

/-- The meter rows of a request carry its key, or come from its only attempt. -/
theorem Traced.oneKick (h : Traced w) : OneKick w := by
  have hkicks : ∀ request, ∀ k ∈ w.accept.store.kicks, ∀ k' ∈ w.accept.store.kicks,
      w.CreatedFor request k.scanId → w.CreatedFor request k'.scanId → k = k' := by
    rintro id k hk k' hk' ⟨call, hcreator, hattempt⟩ ⟨call', hcreator', hattempt'⟩
    obtain ⟨request, c, hrequest, hc, horg, hkey⟩ := h.attempt call id hattempt
    obtain ⟨request', c', hrequest', hc', horg', hkey'⟩ := h.attempt call' id hattempt'
    obtain rfl := Option.some_inj.mp (hrequest.symm.trans hrequest')
    obtain ⟨i, d, hi, hd, hkorg, hkkey⟩ := h.credited.kick k hk
    obtain ⟨i', d', hi', hd', hkorg', hkkey'⟩ := h.credited.kick k' hk'
    obtain rfl := Option.some_inj.mp (hcreator.symm.trans hi)
    obtain rfl := Option.some_inj.mp (hcreator'.symm.trans hi')
    obtain rfl := Option.some_inj.mp (hc.symm.trans hd)
    obtain rfl := Option.some_inj.mp (hc'.symm.trans hd')
    have hsame : c.args.idempotencyKey = c'.args.idempotencyKey :=
      Except.ok.inj (hkey.symm.trans hkey')
    cases hown : c.args.idempotencyKey with
    | some key =>
        exact h.credited.reached.rows.onePerKey k hk k' hk' key
          (hkorg.trans (horg.trans (horg'.symm.trans hkorg'.symm))) (hkkey.trans hown)
          (hkkey'.trans (hsame.symm.trans hown))
    | none =>
        rw [hown] at hkey
        obtain rfl := h.single id request hrequest hkey call call' hattempt hattempt'
        obtain ⟨e, he, hscan⟩ := h.credited.committer k.scanId call hcreator
        obtain ⟨e', he', hscan'⟩ := h.credited.committer k'.scanId call hcreator'
        obtain rfl := Option.some_inj.mp (he.symm.trans he')
        exact h.credited.reached.rows.onePerScan k hk k' hk' (hscan.symm.trans hscan')
  refine ⟨?_, hkicks⟩
  intro id s hs s' hs' hfor hfor'
  obtain ⟨k, hk, hscan⟩ := h.credited.reached.rows.kickOfScan s hs
  obtain ⟨k', hk', hscan'⟩ := h.credited.reached.rows.kickOfScan s' hs'
  have heq : k = k' := hkicks id k hk k' hk' (hscan ▸ hfor) (hscan' ▸ hfor')
  exact Table.eq_of_key_eq hs hs' (hscan.symm.trans ((congrArg ScanKickRow.scanId heq).trans hscan'))

end Invariant

/-- **One client request, one kick.**  As long as no second attempt of a request without a key
gets as far as the accept, every client request has at most one scan and one meter row, in every
state of every run. -/
theorem one_request_one_kick (config : CircuitBreakerConfig) (now : Int)
    (events : List ForwardEvent) (hfirst : (system config).AllSteps KeyedOrFirst (start now) events) :
    ∀ w ∈ (system config).states (start now) events, OneKick w := by
  intro w hw
  have htraced : Traced w :=
    System.forall_states_of_allSteps (I := Traced) (system config)
      (fun _ event h hstep => traced_step h event hstep) (traced_start now) hfirst w hw
  exact htraced.oneKick

/-! ### An accept that is slower than the gateway -/

namespace SlowAccept

/-- `DEFAULT_CIRCUIT_BREAKER_CONFIG`. -/
def config : CircuitBreakerConfig := ⟨5, 30000, 15000, 3⟩

def request (idempotencyKey : List String) : ForwardedRequest where
  orgId := "6f1c0b7e-0000-4000-8000-0000000000a1"
  idempotencyKey := idempotencyKey
  body := .create (.obj [("scannerType", .str "sca")])

/-- An organisation without assets yet. -/
def env (scanId : Uuid) : DispatchCalls where
  assets := Table.empty
  integrations := Table.empty
  requestedBy := .ok none
  scanId := scanId
  jobId := fun assetId => assetId
  now := 0
  publish := fun _ => .ok ()
  putJson := fun _ _ => .ok ()

/-- The statements of a call that nobody else disturbs, up to its commit. -/
def statements (call : Nat) : List ForwardEvent :=
  [.orchestrator (.statement call), .orchestrator (.statement call),
    .orchestrator (.statement call), .orchestrator (.statement call), .orchestrator (.commit call)]

/-- The first attempt is executed and times out at the gateway, which makes another. -/
def events (idempotencyKey : List String) : List ForwardEvent :=
  [.forward (request idempotencyKey), .arrive 0 1 (env "b1")] ++ statements 1 ++
    [.outcome 0 (.failed true), .arrive 0 2 (env "b2")] ++ statements 2

end SlowAccept

/-- A request without a key that times out once is two scans and two meter rows. -/
theorem one_request_two_kicks :
    ¬ ∀ w ∈ (system SlowAccept.config).states (start 0) (SlowAccept.events []), OneKick w := by
  intro hall
  have hone := hall _ (System.run_mem_states _ _ _)
  have hrows : ((system SlowAccept.config).run (start 0)
      (SlowAccept.events [])).accept.store.kicks.rows.map ScanKickRow.scanId = ["b2", "b1"] := by
    decide +kernel
  have hkick : ∀ scanId ∈ ["b2", "b1"], ∃ k ∈ ((system SlowAccept.config).run (start 0)
      (SlowAccept.events [])).accept.store.kicks, k.scanId = scanId := by
    intro scanId hmem
    rw [← hrows] at hmem
    exact List.mem_map.mp hmem
  obtain ⟨k₁, hk₁, hscan₁⟩ := hkick "b1" (by simp)
  obtain ⟨k₂, hk₂, hscan₂⟩ := hkick "b2" (by simp)
  have heq : k₁ = k₂ := by
    refine hone.kicks 0 k₁ hk₁ k₂ hk₂ ⟨1, ?_, ?_⟩ ⟨2, ?_, ?_⟩
    · rw [hscan₁]
      decide +kernel
    · decide +kernel
    · rw [hscan₂]
      decide +kernel
    · decide +kernel
  rw [heq, hscan₂] at hscan₁
  revert hscan₁
  decide

/-- With a key the second attempt finds the scan of the first. -/
theorem one_request_one_kick_keyed :
    OneKick ((system SlowAccept.config).run (start 0) (SlowAccept.events ["run-7"])) := by
  refine one_request_one_kick SlowAccept.config 0 (SlowAccept.events ["run-7"]) ?_ _
    (System.run_mem_states _ _ _)
  have hkeyed : (SlowAccept.request ["run-7"]).kickKey ≠ .ok none := by decide +kernel
  have hfirst : ∀ (w : ForwardWorld) call env,
      w.requests 0 = some (SlowAccept.request ["run-7"]) → w.KeyedOrFirst (.arrive 0 call env) := by
    intro w call env hrequest _ _ request' hrequest' _ _ hnone
    rw [hrequest, Option.some_inj] at hrequest'
    exact absurd (hrequest' ▸ hnone) hkeyed
  exact ⟨trivial, hfirst _ _ _ rfl, trivial, trivial, trivial, trivial, trivial, trivial,
    hfirst _ _ _ rfl, trivial, trivial, trivial, trivial, trivial, trivial⟩

end ForwardWorld

end Orchestrator
end Ctem
