import Ctem.Coordination.RateLimit
import Ctem.Foundation.FixedWindow

/-!
# The limiter of the gateway

`RateLimitMiddleware` lets a request through if the store gives it a token of its address.  Any
number of replicas share the store; a command may be sent again when the connection is lost, and
its answer may not arrive.

* `outcomes_eq`: what becomes of the requests of an address is decided by a fixed window of their
  own; the requests of other addresses have no part in it.
* `gatewayLimit_run`: no stretch of a window lets through more than twice the capacity, and who is
  refused by the store has used the capacity up.
-/

namespace Ctem
namespace Coordination

open Foundation

/-- `GATEWAY_RATE_LIMIT_CAPACITY`. -/
def gatewayRateLimitCapacity : Nat := 600

/-- `GATEWAY_RATE_LIMIT_WINDOW_MS`. -/
def gatewayRateLimitWindowMs : Nat := 60000

/-- `gatewayRateLimitRedisKey`. -/
def gatewayRateLimitRedisKey (ip : String) : String := "ctem:ratelimit:gw:" ++ ip

/-- What the middleware reads of a request. -/
structure GatewayRequest where
  method : String
  path : Option String
  ip : Option String
deriving DecidableEq

/-- `normalizePath`: no slashes at the end. -/
def normalizePath (path : Option String) : String :=
  let cs := (path.getD "").toList
  let trimmed := (cs.reverse.dropWhile fun c => c == '/').reverse
  if trimmed.isEmpty then "/" else String.ofList trimmed

def isGatewayHealthProbe (req : GatewayRequest) : Bool :=
  decide (req.method = "GET") &&
    decide (normalizePath req.path ∈ ["/health", "/health/live", "/health/ready"])

/-- The address whose budget a request uses. -/
def GatewayRequest.address (req : GatewayRequest) : String := req.ip.getD "anonymous"

def GatewayRequest.consume (req : GatewayRequest) : Consume where
  key := gatewayRateLimitRedisKey req.address
  capacity := gatewayRateLimitCapacity
  windowMs := gatewayRateLimitWindowMs
  capacity_pos := by decide
  window_pos := by decide

/-- What happens to a request: `next`, with the header for what remains if a token was taken, or
status 429. -/
inductive Passage where
  | next (remaining : Option Int)
  | tooManyRequests
deriving DecidableEq

/-- `CONSUME_LUA` is run as often as the command reaches Redis. -/
def runConsume (now : Nat) (c : Consume) : Nat → RedisDb → Option Int → RedisDb × Option Int
  | 0, db, last => (db, last)
  | runs + 1, db, _ => runConsume now c runs (db.consume now c).1 (some (db.consume now c).2)

/-- By the tokens that remain; a command without an answer throws. -/
def limiterPassage : Option Int → Passage
  | none => .tooManyRequests
  | some remaining => if remaining < 0 then .tooManyRequests else .next (some remaining)

/-- `RateLimitMiddleware.use`; the use says what becomes of its command. -/
def useLimiter (now : Nat) (db : RedisDb) (call : GatewayRequest × FixedWindow.Use) :
    RedisDb × Passage :=
  if isGatewayHealthProbe call.1 then (db, .next none)
  else
    let r := runConsume now call.1.consume call.2.takes db none
    (r.1, limiterPassage (if call.2.answered then r.2 else none))

/-- The replicas of the gateway before one Redis. -/
def gatewayLimiter : TimedStore RedisDb (GatewayRequest × FixedWindow.Use) Passage where
  elapse := RedisDb.elapse
  serve := useLimiter

/-! ## The requests of an address -/

/-- The request uses the budget of the address. -/
def countsFor (ip : String) (req : GatewayRequest) : Bool :=
  !isGatewayHealthProbe req && decide (req.address = ip)

/-- The uses of the budget of the address, at their times. -/
def usesOf (ip : String) : Nat → List (Nat × (GatewayRequest × FixedWindow.Use)) →
    List (Nat × FixedWindow.Use)
  | _, [] => []
  | now, (wait, req, u) :: rest =>
      if countsFor ip req then (now + wait, u) :: usesOf ip (now + wait) rest
      else usesOf ip (now + wait) rest

/-- What became of them, and when. -/
def passagesOf (ip : String) (ledger : List (Served (GatewayRequest × FixedWindow.Use) Passage)) :
    List (Nat × Passage) :=
  (ledger.filter fun served => countsFor ip served.request.1).map fun served =>
    (served.time, served.answer)

/-- A passage by what the window answers. -/
def passage : Option (Option Nat) → Passage
  | some (some left) => .next (some left)
  | _ => .tooManyRequests

/-! ## One address, one window -/

/-- The entry of a key is the window. -/
def IsWindow (entry : Option RedisEntry) (w : Option FixedWindow.Counter) : Prop :=
  entry = w.map fun c => ⟨c.left, some c.ends⟩

theorem IsWindow.elapse {db : RedisDb} {key : String} {w : Option FixedWindow.Counter}
    (h : IsWindow (db.keys key) w) (now : Nat) :
    IsWindow ((db.elapse now).keys key) (FixedWindow.alive now w) := by
  show (db.keys key).filter _ = _
  rw [h]
  cases w with
  | none => rfl
  | some c =>
      rw [FixedWindow.alive_some]
      by_cases halive : now < c.ends <;> simp [halive]

/-- What the script answers. -/
def scriptAnswer : Option Nat → Int
  | none => -1
  | some left => left

/-- A window and the script give the same answer. -/
theorem IsWindow.consume {db : RedisDb} {c : Consume} {w : Option FixedWindow.Counter} (now : Nat)
    (h : IsWindow (db.keys c.key) w) :
    IsWindow ((db.consume now c).1.keys c.key)
        (some (FixedWindow.take c.capacity c.windowMs now w).1) ∧
      (db.consume now c).2 = scriptAnswer (FixedWindow.take c.capacity c.windowMs now w).2 := by
  have hget : db.get c.key = w.map fun counter => (counter.left : Int) := by
    rw [RedisDb.get, h, Option.map_map]
    rfl
  have hpos := c.capacity_pos
  cases w with
  | none =>
      have hsub : ((c.capacity - 1 : Nat) : Int) = (c.capacity : Int) - 1 := by omega
      simp [RedisDb.consume, hget, RedisDb.setPx, FixedWindow.take, IsWindow, scriptAnswer, hsub]
  | some counter =>
      have hkey : db.keys c.key = some ⟨counter.left, some counter.ends⟩ := h
      rw [Option.map_some] at hget
      by_cases hempty : counter.left = 0
      · rw [hempty] at hget
        have hconsume : db.consume now c = (db, -1) := by simp [RedisDb.consume, hget]
        have htake : FixedWindow.take c.capacity c.windowMs now (some counter) =
            (counter, none) := by simp [FixedWindow.take, hempty]
        rw [hconsume, htake]
        exact ⟨hkey, rfl⟩
      · have hleft : ¬ (counter.left : Int) ≤ 0 := by omega
        have hsub : ((counter.left - 1 : Nat) : Int) = (counter.left : Int) - 1 := by omega
        simp [RedisDb.consume, hget, FixedWindow.take, hempty, RedisDb.decr, hkey, IsWindow,
          scriptAnswer, hsub]

theorem IsWindow.runConsume {c : Consume} (now : Nat) : ∀ (runs : Nat) {db : RedisDb}
    {w : Option FixedWindow.Counter} (last : Option (Option Nat)), IsWindow (db.keys c.key) w →
    IsWindow ((runConsume now c runs db (last.map scriptAnswer)).1.keys c.key)
        (FixedWindow.takeAll c.capacity c.windowMs now runs w last).1 ∧
      (runConsume now c runs db (last.map scriptAnswer)).2 =
        (FixedWindow.takeAll c.capacity c.windowMs now runs w last).2.map scriptAnswer
  | 0, _, _, _, h => ⟨h, rfl⟩
  | runs + 1, db, w, last, h => by
      obtain ⟨hwindow, hanswer⟩ := h.consume now
      have ih := IsWindow.runConsume now runs
        (some (FixedWindow.take c.capacity c.windowMs now w).2) hwindow
      rw [Option.map_some, ← hanswer] at ih
      exact ih

theorem runConsume_keys_ne {c : Consume} {key : String} (hne : key ≠ c.key) (now : Nat) :
    ∀ (runs : Nat) (db : RedisDb) (last : Option Int),
      (runConsume now c runs db last).1.keys key = db.keys key
  | 0, _, _ => rfl
  | runs + 1, db, last => by
      rw [runConsume, runConsume_keys_ne hne now runs, RedisDb.consume_keys_ne hne]

/-- The keys of two addresses are different. -/
theorem gatewayRateLimitRedisKey_inj {ip ip' : String}
    (h : gatewayRateLimitRedisKey ip = gatewayRateLimitRedisKey ip') : ip = ip' :=
  (String.append_right_inj _).mp h

/-- What is gone at a time is gone later. -/
theorem elapse_elapse {now t : Nat} (h : now ≤ t) (db : RedisDb) (key : String) :
    ((db.elapse now).elapse t).keys key = (db.elapse t).keys key := by
  show ((db.keys key).filter _).filter _ = (db.keys key).filter _
  rw [Option.filter_filter]
  cases db.keys key with
  | none => rfl
  | some entry =>
      obtain ⟨value, expiresAt⟩ := entry
      cases expiresAt with
      | none => rfl
      | some ends =>
          by_cases halive : t < ends
          · have hbefore : now < ends := by omega
            simp [Option.filter_some, halive, hbefore]
          · simp [Option.filter_some, halive]

theorem limiterPassage_eq (answered : Bool) (left : Option (Option Nat)) :
    limiterPassage (if answered then left.map scriptAnswer else none) =
      passage (if answered then left else none) := by
  cases answered with
  | false => rfl
  | true =>
      match left with
      | none => rfl
      | some none => rfl
      | some (some left) =>
          have hleft : ¬ (left : Int) < 0 := by omega
          simp [limiterPassage, scriptAnswer, passage]

/-- A request that counts for the address is served by the window. -/
theorem useLimiter_own {ip : String} {db : RedisDb} {w : Option FixedWindow.Counter} (now : Nat)
    {call : GatewayRequest × FixedWindow.Use} (hcounts : countsFor ip call.1 = true)
    (h : IsWindow (db.keys (gatewayRateLimitRedisKey ip)) (FixedWindow.alive now w)) :
    IsWindow ((useLimiter now db call).1.keys (gatewayRateLimitRedisKey ip))
        (FixedWindow.serve gatewayRateLimitCapacity gatewayRateLimitWindowMs now w call.2).1 ∧
      (useLimiter now db call).2 = passage
        (FixedWindow.serve gatewayRateLimitCapacity gatewayRateLimitWindowMs now w call.2).2 := by
  rw [countsFor, Bool.and_eq_true, Bool.not_eq_true', decide_eq_true_eq] at hcounts
  obtain ⟨hprobe, rfl⟩ := hcounts
  obtain ⟨hwindow, hanswer⟩ :=
    IsWindow.runConsume (c := call.1.consume) now call.2.takes none h
  rw [Option.map_none] at hwindow hanswer
  have huse : useLimiter now db call =
      ((runConsume now call.1.consume call.2.takes db none).1, limiterPassage
        (if call.2.answered then (runConsume now call.1.consume call.2.takes db none).2
          else none)) := by
    rw [useLimiter, hprobe]
    rfl
  rw [huse]
  refine ⟨hwindow, ?_⟩
  simp only [FixedWindow.serve, hanswer]
  exact limiterPassage_eq call.2.answered _

/-- Any other request leaves the window alone. -/
theorem useLimiter_other {ip : String} {db : RedisDb} (now : Nat)
    {call : GatewayRequest × FixedWindow.Use} (hcounts : countsFor ip call.1 = false) :
    (useLimiter now db call).1.keys (gatewayRateLimitRedisKey ip) =
      db.keys (gatewayRateLimitRedisKey ip) := by
  unfold useLimiter
  split
  · rfl
  · rename_i hprobe
    have hne : gatewayRateLimitRedisKey ip ≠ call.1.consume.key := by
      intro hkey
      have haddress := gatewayRateLimitRedisKey_inj hkey
      simp [countsFor, hprobe, haddress] at hcounts
    exact runConsume_keys_ne hne now _ _ _

/-- **What becomes of the requests of an address is decided by a window of their own.** -/
theorem outcomes_eq (ip : String) : ∀ (calls : List (Nat × (GatewayRequest × FixedWindow.Use)))
    (now : Nat) (db : RedisDb) (w : Option FixedWindow.Counter),
    (∀ t, now ≤ t → IsWindow ((db.elapse t).keys (gatewayRateLimitRedisKey ip))
      (FixedWindow.alive t w)) →
    passagesOf ip (gatewayLimiter.ledger now db calls) =
      ((usesOf ip now calls).zip (FixedWindow.answers gatewayRateLimitCapacity
        gatewayRateLimitWindowMs w (usesOf ip now calls))).map fun p => (p.1.1, passage p.2)
  | [], _, _, _, _ => rfl
  | (wait, req, u) :: rest, now, db, w, h => by
      have hnow := h (now + wait) (Nat.le_add_right now wait)
      have hledger : gatewayLimiter.ledger now db ((wait, req, u) :: rest) =
          ⟨now + wait, (req, u), (useLimiter (now + wait) (db.elapse (now + wait)) (req, u)).2⟩ ::
            gatewayLimiter.ledger (now + wait)
              (useLimiter (now + wait) (db.elapse (now + wait)) (req, u)).1 rest := rfl
      rw [hledger, passagesOf, usesOf]
      cases hcounts : countsFor ip req with
      | true =>
          obtain ⟨hwindow, hanswer⟩ :=
            @useLimiter_own ip _ w (now + wait) (req, u) hcounts hnow
          have ih := outcomes_eq ip rest (now + wait) _ _ fun t _ => hwindow.elapse t
          rw [List.filter_cons, if_pos hcounts, List.map_cons, if_pos rfl, FixedWindow.answers,
            List.zip_cons_cons, List.map_cons, ← ih, hanswer]
          rfl
      | false =>
          have hkept := @useLimiter_other ip (db.elapse (now + wait)) (now + wait) (req, u) hcounts
          have ih := outcomes_eq ip rest (now + wait)
            (useLimiter (now + wait) (db.elapse (now + wait)) (req, u)).1 w fun t ht => by
              have hlater := h t (by omega)
              rw [← elapse_elapse ht db] at hlater
              show IsWindow (Option.filter _ _) _
              rw [hkept]
              exact hlater
          rw [List.filter_cons, if_neg (by simp [hcounts]), if_neg (by simp)]
          exact ih

/-! ## Runs of the gateway -/

theorem chronological_usesOf (ip : String) :
    ∀ (calls : List (Nat × (GatewayRequest × FixedWindow.Use))) (now before : Nat), before ≤ now →
      FixedWindow.Chronological before (usesOf ip now calls)
  | [], _, _, _ => trivial
  | (wait, req, u) :: rest, now, before, h => by
      rw [usesOf]
      split
      · exact ⟨by omega, chronological_usesOf ip rest (now + wait) (now + wait) (Nat.le_refl _)⟩
      · exact chronological_usesOf ip rest (now + wait) before (by omega)

/-- The passages between two times that were no refusals. -/
def passedBetween (since till : Nat) (passages : List (Nat × Passage)) : Nat :=
  passages.countP fun p =>
    decide (since ≤ p.1) && decide (p.1 < till) && decide (p.2 ≠ .tooManyRequests)

theorem isGranted_iff (answer : Option (Option Nat)) :
    FixedWindow.isGranted answer = decide (passage answer ≠ .tooManyRequests) := by
  match answer with
  | none => rfl
  | some none => rfl
  | some (some left) => rfl

theorem passedBetween_zip (since till : Nat) (w : Option FixedWindow.Counter)
    (uses : List (Nat × FixedWindow.Use)) :
    passedBetween since till ((uses.zip (FixedWindow.answers gatewayRateLimitCapacity
        gatewayRateLimitWindowMs w uses)).map fun p => (p.1.1, passage p.2)) =
      FixedWindow.granted gatewayRateLimitCapacity gatewayRateLimitWindowMs since till w uses := by
  rw [passedBetween, List.countP_map, FixedWindow.granted]
  refine List.countP_congr fun p _ => ?_
  simp only [Function.comp_apply, isGranted_iff]

theorem isWindow_empty (key : String) (t : Nat) :
    IsWindow (({} : RedisDb).elapse t |>.keys key) (FixedWindow.alive t none) := rfl

/-- A refusal by the store. -/
theorem refused_of_passage {before later : List (Nat × FixedWindow.Use)} {t : Nat}
    {u : FixedWindow.Use} {w : Option FixedWindow.Counter} (hanswered : u.answered = true)
    (htakes : 0 < u.takes)
    (h : (((before ++ (t, u) :: later).zip (FixedWindow.answers gatewayRateLimitCapacity
        gatewayRateLimitWindowMs w (before ++ (t, u) :: later))).map
          fun p => (p.1.1, passage p.2))[before.length]? = some (t, .tooManyRequests)) :
    (FixedWindow.answers gatewayRateLimitCapacity gatewayRateLimitWindowMs w
      (before ++ (t, u) :: later))[before.length]? = some (some none) := by
  obtain ⟨left, hleft⟩ := @FixedWindow.answers_isSome gatewayRateLimitCapacity
    gatewayRateLimitWindowMs before w t u later hanswered htakes
  have hzip : ((before ++ (t, u) :: later).zip (FixedWindow.answers gatewayRateLimitCapacity
      gatewayRateLimitWindowMs w (before ++ (t, u) :: later)))[before.length]? =
        some ((t, u), some left) := by
    rw [List.getElem?_zip_eq_some]
    exact ⟨by simp, hleft⟩
  rw [List.getElem?_map, hzip] at h
  cases left with
  | none => exact hleft
  | some left => simp [passage] at h

theorem probes_pass {start : Nat} {db : RedisDb}
    {calls : List (Nat × (GatewayRequest × FixedWindow.Use))}
    {served : Served (GatewayRequest × FixedWindow.Use) Passage}
    (h : served ∈ gatewayLimiter.ledger start db calls)
    (hprobe : isGatewayHealthProbe served.request.1 = true) : served.answer = .next none := by
  induction calls generalizing start db with
  | nil => cases h
  | cons first rest ih =>
      rcases List.mem_cons.mp h with rfl | hrest
      · show (useLimiter _ _ first.2).2 = _
        rw [useLimiter, if_pos hprobe]
      · exact ih hrest

/-- **The limiter on any run of the gateway**, with any number of replicas, repeated commands and
lost answers: in no stretch of a window are more than twice the capacity let through for an
address, a request that the store refuses comes behind more commands of its address than the
capacity in less than a window, what becomes of the requests of an address does not depend on
other addresses, and health probes pass. -/
theorem gatewayLimit_run (start : Nat)
    (calls : List (Nat × (GatewayRequest × FixedWindow.Use))) (ip : String) :
    (∀ since, passedBetween since (since + gatewayRateLimitWindowMs)
      (passagesOf ip (gatewayLimiter.ledger start {} calls)) ≤ 2 * gatewayRateLimitCapacity) ∧
    (∀ before t u later, usesOf ip start calls = before ++ (t, u) :: later →
      u.answered = true → 0 < u.takes →
      (passagesOf ip (gatewayLimiter.ledger start {} calls))[before.length]? =
        some (t, .tooManyRequests) →
      gatewayRateLimitCapacity <
        FixedWindow.takesSince (t + 1 - gatewayRateLimitWindowMs) (before ++ [(t, u)])) ∧
    (∀ start' calls', usesOf ip start' calls' = usesOf ip start calls →
      passagesOf ip (gatewayLimiter.ledger start' {} calls') =
        passagesOf ip (gatewayLimiter.ledger start {} calls)) ∧
    ∀ served ∈ gatewayLimiter.ledger start {} calls,
      isGatewayHealthProbe served.request.1 = true → served.answer = .next none := by
  have houtcomes := fun start calls =>
    outcomes_eq ip calls start {} none fun t _ => isWindow_empty _ t
  refine ⟨?_, ?_, ?_, ?_⟩
  · intro since
    rw [houtcomes, passedBetween_zip]
    exact FixedWindow.granted_le (by decide) since start
      (chronological_usesOf ip calls start start (Nat.le_refl start))
  · intro before t u later huses hanswered htakes hrefused
    rw [houtcomes, huses] at hrefused
    have hchron := chronological_usesOf ip calls start start (Nat.le_refl start)
    rw [huses] at hchron
    exact FixedWindow.capacity_lt_takes (by decide) before [] none start t u later
      (fun _ h => by cases h) hchron (refused_of_passage hanswered htakes hrefused)
  · intro start' calls' huses
    rw [houtcomes, houtcomes, huses]
  · exact fun served hserved hprobe => probes_pass hserved hprobe

end Coordination
end Ctem
