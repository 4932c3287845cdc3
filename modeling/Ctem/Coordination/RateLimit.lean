import Ctem.Foundation.TimedStores

/-!
# The two rate-limit stores

`MemoryRateLimitStore` keeps a bucket for each key and looks at its expiry when the
key is used; Redis drops a key when its time comes and runs `CONSUME_LUA` on what is
left.  Both count down from the capacity of the call that opens a window.

`SameBuckets` is the relation between a map of buckets and a database: the keys that
exist are the buckets that have not expired, with the same count and the same end.
-/

namespace Ctem
namespace Coordination

open Foundation

/-- A call of `consume`: one token of the key. -/
structure Consume where
  key : String
  capacity : Nat
  windowMs : Nat
  capacity_pos : 1 ≤ capacity
  window_pos : 1 ≤ windowMs
deriving DecidableEq

structure MemoryBucket where
  tokens : Int
  expiresAt : Nat
deriving DecidableEq

structure MemoryRateLimitStore where
  keys : String → Option MemoryBucket := fun _ => none

namespace MemoryRateLimitStore

/-- The map with one key set or deleted. -/
def put (st : MemoryRateLimitStore) (key : String) (bucket : Option MemoryBucket) :
    MemoryRateLimitStore :=
  ⟨fun k => if k = key then bucket else st.keys k⟩

@[simp] theorem put_keys (st : MemoryRateLimitStore) (key k : String)
    (bucket : Option MemoryBucket) :
    (st.put key bucket).keys k = if k = key then bucket else st.keys k := rfl

def purge (st : MemoryRateLimitStore) (now : Nat) (key : String) : MemoryRateLimitStore :=
  match st.keys key with
  | some entry => if entry.expiresAt ≤ now then st.put key none else st
  | none => st

def consume (now : Nat) (st : MemoryRateLimitStore) (c : Consume) : MemoryRateLimitStore × Int :=
  let st := st.purge now c.key
  let bucket := (st.keys c.key).getD ⟨c.capacity, now + c.windowMs⟩
  -- a new bucket is set at once; taking a token writes into the bucket the map holds
  let st := st.put c.key (some bucket)
  if bucket.tokens ≤ 0 then (st, -1)
  else
    let bucket := { bucket with tokens := bucket.tokens - 1 }
    (st.put c.key (some bucket), bucket.tokens)

/-- The bucket of the key that has not expired. -/
def live (st : MemoryRateLimitStore) (now : Nat) (key : String) : Option MemoryBucket :=
  (st.keys key).filter fun bucket => decide (now < bucket.expiresAt)

end MemoryRateLimitStore

/-! ## Redis -/

/-- The value of a key, an integer as `SET` and `DECR` write it, and the time the key
ends at if it has one. -/
structure RedisEntry where
  value : Int
  expiresAt : Option Nat
deriving DecidableEq

structure RedisDb where
  keys : String → Option RedisEntry := fun _ => none

namespace RedisDb

def put (db : RedisDb) (key : String) (entry : RedisEntry) : RedisDb :=
  ⟨fun k => if k = key then some entry else db.keys k⟩

@[simp] theorem put_keys (db : RedisDb) (key k : String) (entry : RedisEntry) :
    (db.put key entry).keys k = if k = key then some entry else db.keys k := rfl

/-- The time reaches `now`: a key set with `PX w` at `t` exists until `t + w`. -/
def elapse (now : Nat) (db : RedisDb) : RedisDb :=
  ⟨fun k => (db.keys k).filter fun entry => entry.expiresAt.all fun ends => decide (now < ends)⟩

/-- `GET`, read as a number. -/
def get (db : RedisDb) (key : String) : Option Int :=
  (db.keys key).map RedisEntry.value

/-- `SET key value PX ms`. -/
def setPx (db : RedisDb) (now : Nat) (key : String) (value : Int) (ms : Nat) : RedisDb :=
  db.put key ⟨value, some (now + ms)⟩

/-- `DECR`: it keeps the end of a key, and a key that is missing starts from zero. -/
def decr (db : RedisDb) (key : String) : RedisDb × Int :=
  let entry := (db.keys key).getD ⟨0, none⟩
  (db.put key { entry with value := entry.value - 1 }, entry.value - 1)

/-- `CONSUME_LUA`. -/
def consume (now : Nat) (db : RedisDb) (c : Consume) : RedisDb × Int :=
  match db.get c.key with
  | none => (db.setPx now c.key (c.capacity - 1) c.windowMs, c.capacity - 1)
  | some current => if current ≤ 0 then (db, -1) else db.decr c.key

end RedisDb

/-- The map as a store: nothing happens to it between two calls. -/
def memoryStore : TimedStore MemoryRateLimitStore Consume Int where
  elapse := fun _ st => st
  serve := MemoryRateLimitStore.consume

def redisStore : TimedStore RedisDb Consume Int where
  elapse := RedisDb.elapse
  serve := RedisDb.consume

/-! ## What a call does to the key -/

namespace MemoryRateLimitStore

variable {st : MemoryRateLimitStore} {now : Nat} {key : String} {bucket : MemoryBucket}

theorem live_of_none (h : st.keys key = none) : st.live now key = none := by
  rw [live, h]
  rfl

theorem live_of_some (h : st.keys key = some bucket) :
    st.live now key = if now < bucket.expiresAt then some bucket else none := by
  rw [live, h, Option.filter_some]
  simp only [decide_eq_true_eq]

theorem purge_keys_self (st : MemoryRateLimitStore) (now : Nat) (key : String) :
    (st.purge now key).keys key = st.live now key := by
  unfold purge
  cases hkey : st.keys key with
  | none => exact hkey.trans (live_of_none hkey).symm
  | some entry =>
      rw [live_of_some hkey]
      by_cases hover : entry.expiresAt ≤ now
      · simp [hover, Nat.not_lt.mpr hover]
      · simp [hover, hkey, Nat.lt_of_not_le hover]

theorem purge_keys_ne {k : String} (hne : k ≠ key) : (st.purge now key).keys k = st.keys k := by
  unfold purge
  cases st.keys key with
  | none => rfl
  | some entry =>
      simp only
      split
      · exact if_neg hne
      · rfl

theorem live_eq_some_iff :
    st.live now key = some bucket ↔ st.keys key = some bucket ∧ now < bucket.expiresAt := by
  simp [live, Option.filter_eq_some_iff]

/-- A call opens a window, finds the bucket empty, or takes a token. -/
theorem consume_cases (st : MemoryRateLimitStore) (now : Nat) (c : Consume) :
    (st.live now c.key = none ∧ (consume now st c).2 = c.capacity - 1 ∧
        (consume now st c).1.keys c.key = some ⟨c.capacity - 1, now + c.windowMs⟩) ∨
      ∃ bucket, st.live now c.key = some bucket ∧
        ((bucket.tokens ≤ 0 ∧ (consume now st c).2 = -1 ∧
            (consume now st c).1.keys c.key = some bucket) ∨
          (0 < bucket.tokens ∧ (consume now st c).2 = bucket.tokens - 1 ∧
            (consume now st c).1.keys c.key = some ⟨bucket.tokens - 1, bucket.expiresAt⟩)) := by
  unfold consume
  cases hlive : st.live now c.key with
  | none =>
      have hpos : c.capacity ≠ 0 := Nat.one_le_iff_ne_zero.mp c.capacity_pos
      exact Or.inl (by simp [purge_keys_self, hlive, hpos])
  | some bucket =>
      refine Or.inr ⟨bucket, rfl, ?_⟩
      by_cases hempty : bucket.tokens ≤ 0
      · exact Or.inl (by simp [purge_keys_self, hlive, hempty])
      · exact Or.inr (by simp [purge_keys_self, hlive, hempty, Int.lt_of_not_ge hempty])

/-- The other keys are left alone. -/
theorem consume_keys_ne {c : Consume} (hne : key ≠ c.key) :
    (consume now st c).1.keys key = st.keys key := by
  unfold consume
  simp only
  split <;> simp [hne, purge_keys_ne hne]

end MemoryRateLimitStore

/-! ## One store simulates the other -/

/-- The keys of the database are the buckets that have not expired. -/
def SameBuckets (now : Nat) (st : MemoryRateLimitStore) (db : RedisDb) : Prop :=
  ∀ key, db.keys key =
    (st.live now key).map fun bucket => ⟨bucket.tokens, some bucket.expiresAt⟩

theorem SameBuckets.elapse {now : Nat} {st : MemoryRateLimitStore} {db : RedisDb}
    (h : SameBuckets now st db) (wait : Nat) :
    SameBuckets (now + wait) st (db.elapse (now + wait)) := by
  intro key
  show (db.keys key).filter _ = _
  rw [h key]
  cases hkey : st.keys key with
  | none =>
      rw [MemoryRateLimitStore.live_of_none hkey, MemoryRateLimitStore.live_of_none hkey]
      rfl
  | some bucket =>
      rw [MemoryRateLimitStore.live_of_some hkey, MemoryRateLimitStore.live_of_some hkey]
      -- what is over at `now` is over later, and Redis lets go of the rest when it ends
      by_cases hnow : now < bucket.expiresAt
      · by_cases hlater : now + wait < bucket.expiresAt <;> simp [hnow, hlater]
      · have hlater : ¬ now + wait < bucket.expiresAt := by omega
        simp [hnow, hlater]

theorem SameBuckets.get {now : Nat} {st : MemoryRateLimitStore} {db : RedisDb}
    (h : SameBuckets now st db) (key : String) :
    db.get key = (st.live now key).map MemoryBucket.tokens := by
  rw [RedisDb.get, h key, Option.map_map]
  rfl

/-- The script leaves the other keys alone. -/
theorem RedisDb.consume_keys_ne {db : RedisDb} {now : Nat} {c : Consume} {key : String}
    (hne : key ≠ c.key) : (db.consume now c).1.keys key = db.keys key := by
  unfold RedisDb.consume
  cases db.get c.key with
  | none => exact if_neg hne
  | some current =>
      simp only
      split
      · rfl
      · exact if_neg hne

/-- One call, on either side: the same answer, and the same buckets behind it. -/
theorem SameBuckets.consume {now : Nat} {st : MemoryRateLimitStore} {db : RedisDb}
    (h : SameBuckets now st db) (c : Consume) :
    (st.consume now c).2 = (db.consume now c).2 ∧
      SameBuckets now (st.consume now c).1 (db.consume now c).1 := by
  -- the other keys follow from the frame lemmas, so only the key of the call is looked at
  have hframe : (db.consume now c).1.keys c.key =
      ((st.consume now c).1.live now c.key).map
        (fun bucket => ⟨bucket.tokens, some bucket.expiresAt⟩) →
      SameBuckets now (st.consume now c).1 (db.consume now c).1 := by
    intro hown key
    by_cases hkey : key = c.key
    · rw [hkey]
      exact hown
    · rw [RedisDb.consume_keys_ne hkey, h key, MemoryRateLimitStore.live,
        MemoryRateLimitStore.live, MemoryRateLimitStore.consume_keys_ne hkey]
  have hget := h.get c.key
  have hkey := h c.key
  rcases MemoryRateLimitStore.consume_cases st now c with
    ⟨hlive, hanswer, hstored⟩ | ⟨bucket, hlive, ⟨hempty, hanswer, hstored⟩ |
      ⟨htoken, hanswer, hstored⟩⟩
  · rw [hlive] at hget
    have hopens : now < now + c.windowMs := Nat.lt_add_of_pos_right c.window_pos
    refine ⟨by rw [hanswer]; simp [RedisDb.consume, hget], hframe ?_⟩
    rw [MemoryRateLimitStore.live_of_some hstored, if_pos hopens]
    simp [RedisDb.consume, hget, RedisDb.setPx]
  · obtain ⟨-, hbefore⟩ := MemoryRateLimitStore.live_eq_some_iff.mp hlive
    rw [hlive] at hget hkey
    refine ⟨by rw [hanswer]; simp [RedisDb.consume, hget, hempty], hframe ?_⟩
    rw [MemoryRateLimitStore.live_of_some hstored, if_pos hbefore]
    simp [RedisDb.consume, hget, hempty, hkey]
  · obtain ⟨-, hbefore⟩ := MemoryRateLimitStore.live_eq_some_iff.mp hlive
    have hleft : ¬ bucket.tokens ≤ 0 := by omega
    rw [hlive] at hget hkey
    refine ⟨by rw [hanswer]; simp [RedisDb.consume, hget, hleft, RedisDb.decr, hkey], hframe ?_⟩
    rw [MemoryRateLimitStore.live_of_some hstored, if_pos hbefore]
    simp [RedisDb.consume, hget, hleft, RedisDb.decr, hkey]

theorem sameBuckets_simulation : TimedStore.Simulation memoryStore redisStore SameBuckets where
  elapse := fun _ wait _ _ h => h.elapse wait
  answer := fun _ _ _ c h => (h.consume c).1
  serve := fun _ _ _ c h => (h.consume c).2

theorem sameBuckets_empty (now : Nat) : SameBuckets now {} {} :=
  fun _ => rfl

/-! ## A window grants its capacity -/

/-- The calls of the key that got a token before `ends`. -/
def grantedBefore (key : String) (ends : Nat) (ledger : List (Served Consume Int)) : Nat :=
  ledger.countP fun served =>
    decide (served.request.key = key) && decide (served.time < ends) && decide (served.answer ≠ -1)

theorem grantedBefore_cons (key : String) (ends : Nat) (served : Served Consume Int)
    (rest : List (Served Consume Int)) :
    grantedBefore key ends (served :: rest) = grantedBefore key ends rest +
      if served.request.key = key ∧ served.time < ends ∧ served.answer ≠ -1 then 1 else 0 := by
  simp [grantedBefore, List.countP_cons, and_assoc]

/-- After the end of the window nothing counts any more. -/
theorem grantedBefore_of_le {key : String} {ends now : Nat} (hends : ends ≤ now)
    (st : MemoryRateLimitStore) (calls : List (Nat × Consume)) :
    grantedBefore key ends (memoryStore.ledger now st calls) = 0 := by
  rw [grantedBefore, List.countP_eq_zero]
  intro served hserved
  have htime := memoryStore.le_time hserved
  have hlate : ¬ served.time < ends := by omega
  simp [hlate]

/-- The key grants no more than the tokens of its bucket before the bucket ends. -/
theorem grantedBefore_le_tokens {key : String} {bucket : MemoryBucket} (now : Nat)
    {st : MemoryRateLimitStore} (hbucket : st.keys key = some bucket)
    (calls : List (Nat × Consume)) :
    grantedBefore key bucket.expiresAt (memoryStore.ledger now st calls) ≤
      bucket.tokens.toNat := by
  induction calls generalizing now st bucket with
  | nil => exact Nat.zero_le _
  | cons first rest ih =>
      obtain ⟨wait, c⟩ := first
      have hcons : memoryStore.ledger now st ((wait, c) :: rest) =
          ⟨now + wait, c, (st.consume (now + wait) c).2⟩ ::
            memoryStore.ledger (now + wait) (st.consume (now + wait) c).1 rest := rfl
      rw [hcons, grantedBefore_cons]
      by_cases hlate : bucket.expiresAt ≤ now + wait
      · have hnot : ¬ now + wait < bucket.expiresAt := by omega
        simp [grantedBefore_of_le hlate, hnot]
      by_cases hkey : key = c.key
      · subst hkey
        have hlive : st.live (now + wait) c.key = some bucket :=
          MemoryRateLimitStore.live_eq_some_iff.mpr ⟨hbucket, by omega⟩
        rcases MemoryRateLimitStore.consume_cases st (now + wait) c with
          ⟨hnone, -⟩ | ⟨bucket', hlive', hcase⟩
        · rw [hlive] at hnone
          cases hnone
        obtain rfl : bucket = bucket' := Option.some.inj (hlive.symm.trans hlive')
        rcases hcase with ⟨-, hanswer, hstored⟩ | ⟨htoken, -, hstored⟩
        · -- the bucket is empty: this call gets nothing
          have hrest := ih (now + wait) hstored
          simpa [hanswer] using hrest
        · have hrest := ih (now + wait) hstored
          simp only at hrest
          split <;> omega
      · have hkept : (st.consume (now + wait) c).1.keys key = some bucket :=
          (MemoryRateLimitStore.consume_keys_ne hkey).trans hbucket
        have hrest := ih (now + wait) hkept
        have hother : ¬ c.key = key := fun h => hkey h.symm
        simpa [hother] using hrest

/-- The call that comes `wait` after `now` finds no bucket, and opens a window. -/
def MemoryRateLimitStore.Opens (st : MemoryRateLimitStore) (now wait : Nat) (c : Consume) : Prop :=
  st.live (now + wait) c.key = none

/-- The same in Redis: the key does not exist. -/
def RedisDb.Opens (db : RedisDb) (now wait : Nat) (c : Consume) : Prop :=
  (db.elapse (now + wait)).get c.key = none

theorem SameBuckets.opens_iff {now : Nat} {st : MemoryRateLimitStore} {db : RedisDb}
    (h : SameBuckets now st db) (wait : Nat) (c : Consume) :
    st.Opens now wait c ↔ db.Opens now wait c := by
  rw [MemoryRateLimitStore.Opens, RedisDb.Opens, (h.elapse wait).get, Option.map_eq_none_iff]

/-- From the call that opens a window to its end, the key grants at most the capacity
of this call. -/
theorem granted_le_capacity {st : MemoryRateLimitStore} {now wait : Nat} {c : Consume}
    (hopens : st.Opens now wait c) (after : List (Nat × Consume)) :
    grantedBefore c.key (now + wait + c.windowMs)
      (memoryStore.ledger now st ((wait, c) :: after)) ≤ c.capacity := by
  have hcons : memoryStore.ledger now st ((wait, c) :: after) =
      ⟨now + wait, c, (st.consume (now + wait) c).2⟩ ::
        memoryStore.ledger (now + wait) (st.consume (now + wait) c).1 after := rfl
  rcases MemoryRateLimitStore.consume_cases st (now + wait) c with
    ⟨-, -, hstored⟩ | ⟨bucket, hlive, -⟩
  · have hpos := c.capacity_pos
    have hrest := grantedBefore_le_tokens (now + wait) hstored after
    simp only at hrest
    rw [hcons, grantedBefore_cons]
    split <;> omega
  · rw [MemoryRateLimitStore.Opens, hlive] at hopens
    cases hopens

/-- On every run from the empty stores the two answer every call alike, and in both a
window grants at most the capacity of the call that opened it. -/
theorem rateLimitStores_agree (start : Nat) (calls : List (Nat × Consume)) :
    memoryStore.ledger start {} calls = redisStore.ledger start {} calls ∧
      ∀ before wait c after, calls = before ++ (wait, c) :: after →
        let memory := memoryStore.afterwards start {} before
        let redis := redisStore.afterwards start {} before
        memory.1 = redis.1 ∧ (memory.2.Opens memory.1 wait c ↔ redis.2.Opens redis.1 wait c) ∧
          (memory.2.Opens memory.1 wait c →
            grantedBefore c.key (memory.1 + wait + c.windowMs)
                ((memoryStore.ledger start {} calls).drop before.length) ≤ c.capacity ∧
              grantedBefore c.key (redis.1 + wait + c.windowMs)
                ((redisStore.ledger start {} calls).drop before.length) ≤ c.capacity) := by
  have hledger := TimedStore.ledger_eq_of_simulation sameBuckets_simulation
    (sameBuckets_empty start) calls
  refine ⟨hledger, ?_⟩
  rintro before wait c after rfl memory redis
  obtain ⟨htime, hsame⟩ := TimedStore.afterwards_of_simulation sameBuckets_simulation
    (sameBuckets_empty start) before
  refine ⟨htime, ?_, ?_⟩
  · rw [← htime]
    exact hsame.opens_iff wait c
  · intro hopens
    have hbound := granted_le_capacity hopens after
    have hdrop : (memoryStore.ledger start {} (before ++ (wait, c) :: after)).drop before.length =
        memoryStore.ledger memory.1 memory.2 ((wait, c) :: after) :=
      memoryStore.drop_ledger start {} before ((wait, c) :: after)
    rw [← hledger, ← htime, hdrop]
    exact ⟨hbound, hbound⟩

end Coordination
end Ctem
