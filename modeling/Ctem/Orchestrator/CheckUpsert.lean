import Ctem.Foundation.ReadCommitted
import Ctem.Foundation.Runs
import Ctem.Orchestrator.GithubChecks
import Ctem.Resilience.RetryBudget

/-!
# One check run for each scan

`upsertCheckRun` lists the check runs of a name on a commit, and then rewrites the one
whose `external_id` is the scan or creates a first one.  Any number of calls go on at
once; each request goes through the egress policy, which sends it again behind a timeout
or a 502, 503 or 504.

A request that was sent may be executed at any later time, also when its caller has given
it up, or never.  A listing shows some of the check runs that match, in some order.  The
repository has other check runs as well, which come at any time.

* `CheckUpserts.step` is one step of that; `lastWritten` is a history variable, the
  conclusion of the write that was executed last.
* `Sound` is what every run keeps.
* `upsertCheckRun_idempotent_iff`: there is one check run, and it carries the conclusion
  of each call that returns, precisely when no creation is executed behind another, and
  the last write behind a return was of its conclusion.
-/

namespace Ctem
namespace Orchestrator

open Foundation Contracts
open Resilience (CircuitBreakerConfig CircuitState Completion Outcome Thrown responseOk settle)

/-! ## The requests -/

/-- A check run as GitHub keeps it, with the number it is known by. -/
structure GithubCheckRun where
  id : Rat
  body : CheckRunBody

/-- A request on the check runs of the repository. -/
inductive GithubRequest where
  /-- `listCheckRunsUrl`. -/
  | list (sha : String) (checkName : List Nat)
  | patch (id : Rat) (body : CheckRunBody)
  | post (body : CheckRunBody)

/-- The members of a listed check run that are read. -/
def GithubCheckRun.json (run : GithubCheckRun) : Json :=
  .obj [("id", .num run.id), ("external_id", .str run.body.externalId)]

/-- The answer to a listing. -/
def checkRunsJson (page : List GithubCheckRun) : Json :=
  .obj [("check_runs", .arr (page.map GithubCheckRun.json))]

/-- What `existingCheckRunId` takes a listed value for. -/
def checkRunIdOf (scanId : Uuid) (raw : Json) : Option Rat :=
  match raw.get? "external_id", raw.get? "id" with
  | some (.str externalId), some (.num id) => if externalId = scanId then some id else none
  | _, _ => none

/-- `existingCheckRunId`; a body that cannot be read is `null`. -/
def existingCheckRunId (json : Option Json) (scanId : Uuid) : Option Rat :=
  match json.bind fun value => value.get? "check_runs" with
  | some (.arr runs) => runs.findSome? (checkRunIdOf scanId)
  | _ => none

/-- What a rewrite leaves of a check run. -/
def GithubCheckRun.patched (run : GithubCheckRun) (body : CheckRunBody) : GithubCheckRun :=
  { run with
    body :=
      { run.body with
        conclusion := body.conclusion
        detailsUrl := body.detailsUrl.or run.body.detailsUrl
        title := body.title
        summary := body.summary } }

/-- The check runs after a request, the first of a new number. -/
def GithubRequest.execute (newId : Rat) (runs : List GithubCheckRun) :
    GithubRequest → List GithubCheckRun
  | .list _ _ => runs
  | .patch id body => runs.map fun run => if run.id = id then run.patched body else run
  | .post body => runs ++ [⟨newId, body⟩]

/-- The conclusion a request writes. -/
def GithubRequest.writes : GithubRequest → Option CheckConclusion
  | .list _ _ => none
  | .patch _ body => some body.conclusion
  | .post body => some body.conclusion

/-- What a listing shows: of the check runs that match, those at the positions. -/
def GithubRequest.page (shown : List Nat) (runs : List GithubCheckRun) :
    GithubRequest → List GithubCheckRun
  | .list sha checkName =>
      shown.filterMap fun i => (runs.filter fun run =>
        decide (run.body.headSha = sha) && decide (run.body.name = checkName))[i]?
  | _ => []

/-! ## The calls -/

/-- A call of `upsertCheckRun` that waits for an attempt of a request. -/
structure UpsertCheckCall where
  detailsUrl : Option String
  conclusion : CheckConclusion
  request : GithubRequest
  /-- The number of the attempt it waits for, among all that were sent. -/
  sent : Nat
  budget : Nat
  attempt : Nat := 1

/-- What the caller gets of an attempt. -/
inductive GithubReply where
  /-- The answer of GitHub, with a 2xx status; its body may be cut off. -/
  | answer (readable : Bool)
  | refused (status : Nat)
  | thrown (err : Thrown)

structure CheckUpserts where
  runs : List GithubCheckRun := []
  calls : Nat → Option UpsertCheckCall := fun _ => none
  /-- The number of attempts that were sent. -/
  sent : Nat := 0
  /-- The attempts that may yet be executed. -/
  underWay : List (Nat × GithubRequest) := []
  /-- What the attempts that were executed have shown. -/
  answers : Nat → Option (List GithubCheckRun) := fun _ => none
  lastWritten : Option CheckConclusion := none

inductive CheckUpsertEvent where
  /-- A call enters the circuit of its listing, which is in this state. -/
  | start (id : Nat) (detailsUrl : Option String) (conclusion : CheckConclusion)
      (circuit : CircuitState)
  | execute (sent : Nat) (shown : List Nat) (newId : Rat)
  /-- An attempt comes back.  Another request would find the circuit in this state, or be
  turned away. -/
  | receive (id : Nat) (reply : GithubReply) (circuit : Option CircuitState)
  /-- Somebody else creates a check run. -/
  | other (run : GithubCheckRun)

namespace CheckUpserts

section Step

variable (config : CircuitBreakerConfig) (ctx : GithubChecksContext) (scanId : Uuid)

/-- The identity of the check run: its name, its commit and its `external_id`. -/
def isOurs (run : GithubCheckRun) : Bool :=
  decide (run.body.name = ctx.checkName) && decide (run.body.headSha = ctx.sha) &&
    decide (run.body.externalId = scanId)

/-- `buildCheckRunBody` of a call. -/
def bodyOf (call : UpsertCheckCall) : CheckRunBody :=
  buildCheckRunBody { ctx with detailsUrl := call.detailsUrl } scanId call.conclusion

/-- The budget of `execute`. -/
def budgetIn (circuit : CircuitState) : Nat :=
  if circuit = .halfOpen then 1 else config.maxAttempts

/-- An attempt of the call's request is sent. -/
def send (w : CheckUpserts) (id : Nat) (call : UpsertCheckCall) : CheckUpserts :=
  { w with
    calls := Function.update w.calls id (some { call with sent := w.sent })
    sent := w.sent + 1
    underWay := (w.sent, call.request) :: w.underWay }

/-- The call has returned or thrown. -/
def finish (w : CheckUpserts) (id : Nat) : CheckUpserts :=
  { w with calls := Function.update w.calls id none }

/-- What an attempt comes back with; there is no answer to one that was not executed. -/
def outcome (w : CheckUpserts) (call : UpsertCheckCall) :
    GithubReply → Option (Outcome (Option Json))
  | .answer readable => (w.answers call.sent).map fun page =>
      .response ⟨200, if readable then some (checkRunsJson page) else none⟩
  | .refused status => if responseOk status then none else some (.response ⟨status, none⟩)
  | .thrown err => some (.thrown err)

/-- The request behind a listing. -/
def nextRequest (call : UpsertCheckCall) (ok : Bool) (json : Option Json) : GithubRequest :=
  match (if ok then existingCheckRunId json scanId else none) with
  | some existing => .patch existing (bodyOf ctx scanId call)
  | none => .post (bodyOf ctx scanId call)

/-- The call goes on behind a response that the policy has returned to it. -/
def proceed (w : CheckUpserts) (id : Nat) (call : UpsertCheckCall) (status : Nat)
    (json : Option Json) (circuit : Option CircuitState) : CheckUpserts :=
  match call.request, circuit with
  | .list _ _, some circuit =>
      w.send id
        { call with
          request := nextRequest ctx scanId call (responseOk status) json
          budget := budgetIn config circuit
          attempt := 1 }
  | _, _ => w.finish id

def step (w : CheckUpserts) : CheckUpsertEvent → CheckUpserts
  | .start id detailsUrl conclusion circuit =>
      match w.calls id with
      | none =>
          w.send id
            { detailsUrl := detailsUrl
              conclusion := conclusion
              request := .list ctx.sha ctx.checkName
              sent := w.sent
              budget := budgetIn config circuit }
      | some _ => w
  | .execute sent shown newId =>
      match w.underWay.lookup sent with
      | some request =>
          if newId ∈ w.runs.map GithubCheckRun.id then w
          else
            { w with
              runs := request.execute newId w.runs
              underWay := w.underWay.filter fun attempt => decide (attempt.1 ≠ sent)
              answers := Function.update w.answers sent (some (request.page shown w.runs))
              lastWritten := request.writes.or w.lastWritten }
      | none => w
  | .receive id reply circuit =>
      match w.calls id with
      | some call =>
          match w.outcome call reply with
          | some outcome =>
              match settle call.budget call.attempt outcome with
              | none => w.send id { call with attempt := call.attempt + 1 }
              | some (_, .returned res) =>
                  w.proceed config ctx scanId id call res.status res.body circuit
              | some _ => w.finish id
          | none => w
      | none => w
  | .other run =>
      if isOurs ctx scanId run || decide (run.id ∈ w.runs.map GithubCheckRun.id) then w
      else { w with runs := w.runs ++ [run] }

/-- The calls for one scan, and the repository around them. -/
def system : System CheckUpserts CheckUpsertEvent where
  step := step config ctx scanId
  allowed := fun _ _ => True

/-! ## What is promised -/

/-- There is at most one check run of the identity. -/
def AtMostOne (w : CheckUpserts) : Prop :=
  (w.runs.filter (isOurs ctx scanId)).length ≤ 1

/-- The event is the return of a call with this conclusion. -/
def Returns (w : CheckUpserts) (e : CheckUpsertEvent) (conclusion : CheckConclusion) : Prop :=
  ∃ id reply circuit call outcome verdict res, e = .receive id reply circuit ∧
    w.calls id = some call ∧ call.request.writes ≠ none ∧ w.outcome call reply = some outcome ∧
    settle call.budget call.attempt outcome = some (verdict, .returned res) ∧
    responseOk res.status = true ∧ call.conclusion = conclusion

/-- When a call returns, there is a check run of the identity, and it has the conclusion. -/
def CarriesConclusion (w : CheckUpserts) (e : CheckUpsertEvent) : Prop :=
  ∀ conclusion, w.Returns e conclusion →
    (∃ run ∈ w.runs, isOurs ctx scanId run = true) ∧
      ∀ run ∈ w.runs, isOurs ctx scanId run = true → run.body.conclusion = conclusion

/-- No creation is executed where there is a check run of the identity. -/
def CreatesFirst (w : CheckUpserts) (e : CheckUpsertEvent) : Prop :=
  ∀ sent shown newId body, e = .execute sent shown newId →
    w.underWay.lookup sent = some (.post body) → newId ∉ w.runs.map GithubCheckRun.id →
      ∀ run ∈ w.runs, isOurs ctx scanId run = false

/-- Behind a return, the write that was executed last was of the same conclusion. -/
def WritesLast (w : CheckUpserts) (e : CheckUpsertEvent) : Prop :=
  ∀ conclusion, w.Returns e conclusion → w.lastWritten = some conclusion

end Step

/-! ## What every run keeps -/

section Sound

variable {config : CircuitBreakerConfig} {ctx : GithubChecksContext} {scanId : Uuid}
  {w : CheckUpserts}

/-- There is a check run of the identity with this number. -/
def Ours (ctx : GithubChecksContext) (scanId : Uuid) (runs : List GithubCheckRun) (id : Rat) :
    Prop :=
  ∃ run ∈ runs, run.id = id ∧ isOurs ctx scanId run = true

/-- A request of a call lists, rewrites and creates check runs of the identity. -/
def RequestSound (ctx : GithubChecksContext) (scanId : Uuid) (runs : List GithubCheckRun) :
    GithubRequest → Prop
  | .list sha checkName => sha = ctx.sha ∧ checkName = ctx.checkName
  | .patch id _ => Ours ctx scanId runs id
  | .post body => isOurs ctx scanId ⟨0, body⟩ = true

/-- What links the repository, the requests and the last write. -/
structure Sound (ctx : GithubChecksContext) (scanId : Uuid) (w : CheckUpserts) : Prop where
  ids : (w.runs.map GithubCheckRun.id).Nodup
  one : AtMostOne ctx scanId w
  last : ∀ run ∈ w.runs, isOurs ctx scanId run = true →
    w.lastWritten = some run.body.conclusion
  written : w.lastWritten ≠ none → ∃ run ∈ w.runs, isOurs ctx scanId run = true
  underWay : ∀ attempt ∈ w.underWay, RequestSound ctx scanId w.runs attempt.2
  calls : ∀ id call, w.calls id = some call → RequestSound ctx scanId w.runs call.request
  answers : ∀ sent page, w.answers sent = some page → ∀ shown ∈ page,
    shown.body.externalId = scanId → Ours ctx scanId w.runs shown.id

theorem sound_start : Sound ctx scanId {} where
  ids := List.nodup_nil
  one := Nat.zero_le 1
  last := fun run hrun => absurd hrun List.not_mem_nil
  written := fun hnone => absurd rfl hnone
  underWay := fun attempt hattempt => absurd hattempt List.not_mem_nil
  calls := fun id call hcall => by cases hcall
  answers := fun sent page hpage => by cases hpage

/-- Two check runs of the identity are one. -/
theorem eq_of_atMostOne (hone : AtMostOne ctx scanId w) {run run' : GithubCheckRun}
    (hrun : run ∈ w.runs) (hours : isOurs ctx scanId run = true) (hrun' : run' ∈ w.runs)
    (hours' : isOurs ctx scanId run' = true) : run = run' := by
  have hmem : run ∈ w.runs.filter (isOurs ctx scanId) := List.mem_filter.mpr ⟨hrun, hours⟩
  have hmem' : run' ∈ w.runs.filter (isOurs ctx scanId) := List.mem_filter.mpr ⟨hrun', hours'⟩
  have hle : (w.runs.filter (isOurs ctx scanId)).length ≤ 1 := hone
  cases hfilter : w.runs.filter (isOurs ctx scanId) with
  | nil =>
      rw [hfilter] at hmem
      cases hmem
  | cons first rest =>
      rw [hfilter, List.length_cons] at hle
      have hrest : rest = [] := List.length_eq_zero_iff.mp (by omega)
      rw [hfilter, hrest, List.mem_singleton] at hmem hmem'
      rw [hmem, hmem']

/-- Requests stay sound as the check runs of the identity stay. -/
theorem RequestSound.mono {runs runs' : List GithubCheckRun} {request : GithubRequest}
    (hkeeps : ∀ id, Ours ctx scanId runs id → Ours ctx scanId runs' id)
    (h : RequestSound ctx scanId runs request) : RequestSound ctx scanId runs' request := by
  cases request with
  | list sha checkName => exact h
  | patch id body => exact hkeeps id h
  | post body => exact h

/-- A call sends a sound request. -/
theorem Sound.send (h : Sound ctx scanId w) (id : Nat) {call : UpsertCheckCall}
    (hrequest : RequestSound ctx scanId w.runs call.request) :
    Sound ctx scanId (w.send id call) where
  ids := h.ids
  one := h.one
  last := h.last
  written := h.written
  underWay := by
    intro attempt hattempt
    rcases List.mem_cons.mp hattempt with rfl | hold
    · exact hrequest
    · exact h.underWay attempt hold
  calls := by
    intro i call' hcall
    rcases update_some_eq_some hcall with ⟨-, rfl⟩ | ⟨-, hold⟩
    · exact hrequest
    · exact h.calls i call' hold
  answers := h.answers

theorem Sound.finish (h : Sound ctx scanId w) (id : Nat) : Sound ctx scanId (w.finish id) where
  ids := h.ids
  one := h.one
  last := h.last
  written := h.written
  underWay := h.underWay
  calls := by
    intro i call hcall
    exact h.calls i call (update_none_eq_some hcall).2
  answers := h.answers

/-- What is found in a listing is a listed check run with the scan as its `external_id`. -/
theorem existingCheckRunId_checkRunsJson {page : List GithubCheckRun} {id : Rat}
    (h : existingCheckRunId (some (checkRunsJson page)) scanId = some id) :
    ∃ shown ∈ page, shown.id = id ∧ shown.body.externalId = scanId := by
  have hfind : (page.map GithubCheckRun.json).findSome? (checkRunIdOf scanId) = some id := h
  obtain ⟨raw, hraw, hid⟩ := List.exists_of_findSome?_eq_some hfind
  obtain ⟨shown, hshown, rfl⟩ := List.mem_map.mp hraw
  have hread : (if shown.body.externalId = scanId then some shown.id else none) = some id := hid
  split at hread
  · rename_i hexternal
    exact ⟨shown, hshown, Option.some.inj hread, hexternal⟩
  · cases hread

/-- The request behind a listing is sound. -/
theorem Sound.nextRequest (h : Sound ctx scanId w) {call : UpsertCheckCall}
    {reply : GithubReply} {res : Resilience.Response (Option Json)}
    (houtcome : w.outcome call reply = some (.response res)) :
    RequestSound ctx scanId w.runs
      (nextRequest ctx scanId call (responseOk res.status) res.body) := by
  unfold CheckUpserts.nextRequest
  split
  · rename_i existing hexisting
    have hfound : existingCheckRunId res.body scanId = some existing := by
      split at hexisting
      · exact hexisting
      · cases hexisting
    -- only a listing that was executed has a body that is read
    cases reply with
    | answer readable =>
        obtain ⟨page, hpage, hres⟩ := Option.map_eq_some_iff.mp houtcome
        obtain rfl := Outcome.response.inj hres
        cases readable with
        | true =>
            obtain ⟨shown, hshown, rfl, hexternal⟩ := existingCheckRunId_checkRunsJson hfound
            exact h.answers call.sent page hpage shown hshown hexternal
        | false => cases hfound
    | refused status =>
        simp only [outcome] at houtcome
        split at houtcome
        · cases houtcome
        · obtain rfl := Outcome.response.inj (Option.some.inj houtcome)
          cases hfound
    | thrown err => cases houtcome
  · show isOurs ctx scanId ⟨0, bodyOf ctx scanId call⟩ = true
    simp [isOurs, bodyOf, buildCheckRunBody]

/-! ## One step -/

/-- A request that is executed leaves the check runs of the identity where they are. -/
theorem ours_execute {runs : List GithubCheckRun} {request : GithubRequest} {newId id : Rat}
    (h : Ours ctx scanId runs id) : Ours ctx scanId (request.execute newId runs) id := by
  obtain ⟨run, hrun, rfl, hours⟩ := h
  cases request with
  | list sha checkName => exact ⟨run, hrun, rfl, hours⟩
  | patch id body =>
      refine ⟨if run.id = id then run.patched body else run, List.mem_map_of_mem hrun, ?_, ?_⟩
      · split <;> rfl
      · split
        · exact hours
        · exact hours
  | post body => exact ⟨run, List.mem_append_left _ hrun, rfl, hours⟩

/-- A listing shows check runs of the name and the commit. -/
theorem ours_of_page {request : GithubRequest} (hsound : RequestSound ctx scanId w.runs request)
    {shown : List Nat} {run : GithubCheckRun} (hrun : run ∈ request.page shown w.runs)
    (hexternal : run.body.externalId = scanId) : Ours ctx scanId w.runs run.id := by
  cases request with
  | list sha checkName =>
      obtain ⟨rfl, rfl⟩ := hsound
      obtain ⟨i, -, hi⟩ := List.mem_filterMap.mp hrun
      obtain ⟨hmem, hmatch⟩ := List.mem_filter.mp (List.mem_of_getElem? hi)
      simp only [Bool.and_eq_true, decide_eq_true_eq] at hmatch
      refine ⟨run, hmem, rfl, ?_⟩
      simp [isOurs, hmatch.1, hmatch.2, hexternal]
  | patch id body => cases hrun
  | post body => cases hrun

/-- What the repository is after the execution of a request. -/
structure ExecutedSound (ctx : GithubChecksContext) (scanId : Uuid) (runs : List GithubCheckRun)
    (lastWritten : Option CheckConclusion) : Prop where
  ids : (runs.map GithubCheckRun.id).Nodup
  one : (runs.filter (isOurs ctx scanId)).length ≤ 1
  last : ∀ run ∈ runs, isOurs ctx scanId run = true → lastWritten = some run.body.conclusion
  written : lastWritten ≠ none → ∃ run ∈ runs, isOurs ctx scanId run = true

/-- A rewrite changes no identity. -/
theorem isOurs_rewrite (id : Rat) (body : CheckRunBody) (run : GithubCheckRun) :
    isOurs ctx scanId (if run.id = id then run.patched body else run) = isOurs ctx scanId run := by
  split <;> rfl

/-- A rewrite leaves one check run with its conclusion. -/
theorem Sound.executed_patch (h : Sound ctx scanId w) {id newId : Rat} {body : CheckRunBody}
    (hsound : RequestSound ctx scanId w.runs (.patch id body)) :
    ExecutedSound ctx scanId ((GithubRequest.patch id body).execute newId w.runs)
      (some body.conclusion) := by
  obtain ⟨ours, hmem, rfl, hours⟩ := hsound
  refine ⟨?_, ?_, ?_, ?_⟩
  · show ((w.runs.map _).map GithubCheckRun.id).Nodup
    rw [List.map_map]
    have hids : ∀ run ∈ w.runs, (GithubCheckRun.id ∘ fun run : GithubCheckRun =>
        if run.id = ours.id then run.patched body else run) run = run.id := by
      intro run _
      simp only [Function.comp_apply]
      split <;> rfl
    rw [List.map_congr_left hids]
    exact h.ids
  · show ((w.runs.map _).filter (isOurs ctx scanId)).length ≤ 1
    rw [List.filter_map, List.length_map]
    have hsame : (isOurs ctx scanId ∘ fun run : GithubCheckRun =>
        if run.id = ours.id then run.patched body else run) = isOurs ctx scanId :=
      funext fun run => isOurs_rewrite ours.id body run
    rw [hsame]
    exact h.one
  · intro run hrun hrunOurs
    obtain ⟨old, hold, rfl⟩ := List.mem_map.mp hrun
    rw [isOurs_rewrite] at hrunOurs
    obtain rfl := eq_of_atMostOne h.one hold hrunOurs hmem hours
    rw [if_pos rfl]
    rfl
  · intro _
    refine ⟨_, List.mem_map_of_mem hmem, ?_⟩
    rw [isOurs_rewrite]
    exact hours

/-- A creation where there is no check run of the identity leaves one. -/
theorem Sound.executed_post (h : Sound ctx scanId w) {newId : Rat} {body : CheckRunBody}
    (hsound : RequestSound ctx scanId w.runs (.post body))
    (hfresh : newId ∉ w.runs.map GithubCheckRun.id)
    (hnone : ∀ run ∈ w.runs, isOurs ctx scanId run = false) :
    ExecutedSound ctx scanId ((GithubRequest.post body).execute newId w.runs)
      (some body.conclusion) := by
  have hnew : ∀ run ∈ w.runs ++ [⟨newId, body⟩], isOurs ctx scanId run = true →
      run = ⟨newId, body⟩ := by
    intro run hrun hours
    rcases List.mem_append.mp hrun with hold | hnew
    · rw [hnone run hold] at hours
      cases hours
    · exact List.mem_singleton.mp hnew
  refine ⟨?_, ?_, ?_, ?_⟩
  · show ((w.runs ++ [_]).map GithubCheckRun.id).Nodup
    rw [List.map_append, List.map_singleton]
    exact List.nodup_append'.mpr ⟨h.ids, List.nodup_singleton _, by simpa using hfresh⟩
  · show ((w.runs ++ [_]).filter (isOurs ctx scanId)).length ≤ 1
    have hold : w.runs.filter (isOurs ctx scanId) = [] := by
      rw [List.filter_eq_nil_iff]
      intro run hrun
      simp [hnone run hrun]
    rw [List.filter_append, hold, List.nil_append]
    exact List.length_filter_le _ _
  · intro run hrun hours
    rw [hnew run hrun hours]
  · intro _
    exact ⟨⟨newId, body⟩, List.mem_append_right _ (List.mem_singleton_self _), hsound⟩

/-- The world when a request has been executed. -/
def executed (w : CheckUpserts) (sent : Nat) (request : GithubRequest) (shown : List Nat)
    (newId : Rat) : CheckUpserts :=
  { w with
    runs := request.execute newId w.runs
    underWay := w.underWay.filter fun attempt => decide (attempt.1 ≠ sent)
    answers := Function.update w.answers sent (some (request.page shown w.runs))
    lastWritten := request.writes.or w.lastWritten }

/-- The execution of a request that is no second creation. -/
theorem Sound.execute (h : Sound ctx scanId w) (sent : Nat) {request : GithubRequest}
    (shown : List Nat) {newId : Rat} (hsound : RequestSound ctx scanId w.runs request)
    (hfresh : newId ∉ w.runs.map GithubCheckRun.id)
    (hfirst : ∀ body, request = .post body → ∀ run ∈ w.runs, isOurs ctx scanId run = false) :
    Sound ctx scanId (w.executed sent request shown newId) := by
  have hrepository : ExecutedSound ctx scanId (request.execute newId w.runs)
      (request.writes.or w.lastWritten) := by
    cases request with
    | list sha checkName => exact ⟨h.ids, h.one, h.last, h.written⟩
    | patch id body => exact h.executed_patch hsound
    | post body => exact h.executed_post hsound hfresh (hfirst body rfl)
  have hkeeps : ∀ id, Ours ctx scanId w.runs id →
      Ours ctx scanId (request.execute newId w.runs) id := fun id hid => ours_execute hid
  refine ⟨hrepository.ids, hrepository.one, hrepository.last, hrepository.written, ?_, ?_, ?_⟩
  · intro attempt hattempt
    exact (h.underWay attempt (List.mem_of_mem_filter hattempt)).mono hkeeps
  · intro id call hcall
    exact (h.calls id call hcall).mono hkeeps
  · intro i page hpage run hrun hexternal
    rcases update_some_eq_some hpage with ⟨-, rfl⟩ | ⟨-, hold⟩
    · exact hkeeps _ (ours_of_page hsound hrun hexternal)
    · exact hkeeps _ (h.answers i page hold run hrun hexternal)

/-- A check run of somebody else. -/
theorem Sound.other (h : Sound ctx scanId w) {run : GithubCheckRun}
    (hnot : isOurs ctx scanId run = false) (hfresh : run.id ∉ w.runs.map GithubCheckRun.id) :
    Sound ctx scanId { w with runs := w.runs ++ [run] } := by
  have hkeeps : ∀ id, Ours ctx scanId w.runs id → Ours ctx scanId (w.runs ++ [run]) id := by
    rintro id ⟨ours, hmem, hid, hours⟩
    exact ⟨ours, List.mem_append_left _ hmem, hid, hours⟩
  have hfilter : (w.runs ++ [run]).filter (isOurs ctx scanId) =
      w.runs.filter (isOurs ctx scanId) := by
    rw [List.filter_append, List.filter_singleton, hnot]
    simp
  refine ⟨?_, ?_, ?_, ?_, ?_, ?_, ?_⟩
  · show ((w.runs ++ [_]).map GithubCheckRun.id).Nodup
    rw [List.map_append, List.map_singleton]
    exact List.nodup_append'.mpr ⟨h.ids, List.nodup_singleton _, by simpa using hfresh⟩
  · show ((w.runs ++ [run]).filter (isOurs ctx scanId)).length ≤ 1
    rw [hfilter]
    exact h.one
  · intro ours hmem hours
    rcases List.mem_append.mp hmem with hold | hnew
    · exact h.last ours hold hours
    · rw [List.mem_singleton.mp hnew, hnot] at hours
      cases hours
  · intro hwritten
    obtain ⟨ours, hmem, hours⟩ := h.written hwritten
    exact ⟨ours, List.mem_append_left _ hmem, hours⟩
  · exact fun attempt hattempt => (h.underWay attempt hattempt).mono hkeeps
  · exact fun id call hcall => (h.calls id call hcall).mono hkeeps
  · exact fun sent page hpage shown hshown hexternal =>
      hkeeps _ (h.answers sent page hpage shown hshown hexternal)

/-- What an attempt under way asks for. -/
theorem Sound.of_lookup (h : Sound ctx scanId w) {sent : Nat} {request : GithubRequest}
    (hlookup : w.underWay.lookup sent = some request) :
    RequestSound ctx scanId w.runs request := by
  obtain ⟨before, after, heq, -⟩ := List.lookup_eq_some_iff.mp hlookup
  refine h.underWay (sent, request) ?_
  rw [heq]
  exact List.mem_append_right before List.mem_cons_self

/-- The policy returns a response that an attempt came back with. -/
theorem response_of_returned {budget i : Nat} {outcome : Outcome (Option Json)}
    {verdict : Resilience.Verdict} {res : Resilience.Response (Option Json)}
    (h : settle budget i outcome = some (verdict, .returned res)) : outcome = .response res := by
  cases outcome with
  | response res' =>
      simp only [settle] at h
      split at h
      · rw [Completion.returned.inj (Prod.mk.inj (Option.some.inj h)).2]
      · split at h
        · rw [Completion.returned.inj (Prod.mk.inj (Option.some.inj h)).2]
        · cases h
  | thrown err =>
      simp only [settle] at h
      split at h
      · cases (Prod.mk.inj (Option.some.inj h)).2
      · cases h

theorem Sound.proceed (h : Sound ctx scanId w) (id : Nat) {call : UpsertCheckCall}
    {reply : GithubReply} {res : Resilience.Response (Option Json)}
    (houtcome : w.outcome call reply = some (.response res)) (circuit : Option CircuitState) :
    Sound ctx scanId (w.proceed config ctx scanId id call res.status res.body circuit) := by
  unfold CheckUpserts.proceed
  split
  · exact h.send id (h.nextRequest houtcome)
  · exact h.finish id

theorem Sound.receive (h : Sound ctx scanId w) (id : Nat) (reply : GithubReply)
    (circuit : Option CircuitState) :
    Sound ctx scanId (step config ctx scanId w (.receive id reply circuit)) := by
  simp only [step]
  split
  · rename_i call hcall
    split
    · rename_i outcome houtcome
      split
      · exact h.send id (h.calls id call hcall)
      · rename_i verdict res hsettle
        obtain rfl := response_of_returned hsettle
        exact h.proceed id houtcome circuit
      · exact h.finish id
    · exact h
  · exact h

/-- A step that is no second creation keeps everything. -/
theorem Sound.step (h : Sound ctx scanId w) {e : CheckUpsertEvent}
    (hfirst : CreatesFirst ctx scanId w e) :
    Sound ctx scanId (CheckUpserts.step config ctx scanId w e) := by
  cases e with
  | start id detailsUrl conclusion circuit =>
      simp only [CheckUpserts.step]
      split
      · exact h.send id ⟨rfl, rfl⟩
      · exact h
  | execute sent shown newId =>
      simp only [CheckUpserts.step]
      split
      · rename_i request hlookup
        split
        · exact h
        · rename_i hfresh
          refine h.execute sent shown (h.of_lookup hlookup) hfresh ?_
          rintro body rfl
          exact hfirst sent shown newId body rfl hlookup hfresh
      · exact h
  | receive id reply circuit => exact h.receive id reply circuit
  | other run =>
      simp only [CheckUpserts.step]
      split
      · exact h
      · rename_i hother
        rw [Bool.or_eq_true, decide_eq_true_eq, not_or] at hother
        exact h.other (Bool.eq_false_iff.mpr hother.1) hother.2

/-- There stays one check run precisely when no creation is executed behind another. -/
theorem Sound.atMostOne_step_iff (h : Sound ctx scanId w) (e : CheckUpsertEvent) :
    AtMostOne ctx scanId (CheckUpserts.step config ctx scanId w e) ↔
      CreatesFirst ctx scanId w e := by
  constructor
  · rintro hone sent shown newId body rfl hlookup hfresh
    have hours : isOurs ctx scanId ⟨newId, body⟩ = true := h.of_lookup hlookup
    have hruns : (CheckUpserts.step config ctx scanId w (.execute sent shown newId)).runs =
        w.runs ++ [⟨newId, body⟩] := by
      simp only [CheckUpserts.step, hlookup, if_neg hfresh]
      rfl
    unfold AtMostOne at hone
    rw [hruns, List.filter_append, List.length_append, List.filter_singleton, hours] at hone
    have hnone : (w.runs.filter (isOurs ctx scanId)).length = 0 := by
      simp only [cond_true, List.length_singleton] at hone
      omega
    intro run hrun
    have hnot := List.filter_eq_nil_iff.mp (List.length_eq_zero_iff.mp hnone) run hrun
    exact Bool.eq_false_iff.mpr hnot
  · intro hfirst
    exact (h.step hfirst).one

/-- The check run carries the conclusion of a call that returns precisely when the last
write was of it. -/
theorem Sound.carriesConclusion_iff (h : Sound ctx scanId w) (e : CheckUpsertEvent) :
    CarriesConclusion ctx scanId w e ↔ WritesLast w e := by
  constructor
  · intro hcarries conclusion hreturns
    obtain ⟨⟨run, hrun, hours⟩, hall⟩ := hcarries conclusion hreturns
    rw [h.last run hrun hours, hall run hrun hours]
  · intro hlast conclusion hreturns
    have hwritten := hlast conclusion hreturns
    refine ⟨h.written (by rw [hwritten]; exact Option.some_ne_none _), ?_⟩
    intro run hrun hours
    have hconclusion := h.last run hrun hours
    rw [hwritten] at hconclusion
    exact (Option.some.inj hconclusion).symm

end Sound

end CheckUpserts

end Orchestrator
end Ctem
