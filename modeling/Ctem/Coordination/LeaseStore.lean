import Mathlib.Data.List.Basic

/-!
# The lease store

`MemoryLeaseStore` of `libs/coordination`: keys with an expiry, and the three
atomic commands a lease uses, on a clock in milliseconds.  Redis answers the same commands with `SET NX PX` and
two scripts that compare the value before they write.

`entry` is what a key holds at a time: every command first purges it, so `entry` is
all a command looks at and all that is left of the key afterwards.
-/

namespace Ctem
namespace Coordination

structure MemoryEntry where
  value : String
  expiresAt : Nat
deriving DecidableEq

structure MemoryLeaseStore where
  keys : String → Option MemoryEntry := fun _ => none

namespace MemoryLeaseStore

/-- The map with one key set or deleted. -/
def put (st : MemoryLeaseStore) (key : String) (entry : Option MemoryEntry) : MemoryLeaseStore :=
  ⟨fun k => if k = key then entry else st.keys k⟩

@[simp] theorem put_keys_self (st : MemoryLeaseStore) (key : String)
    (entry : Option MemoryEntry) : (st.put key entry).keys key = entry := if_pos rfl

/-- The entry of the key that has not expired. -/
def entry (st : MemoryLeaseStore) (now : Nat) (key : String) : Option MemoryEntry :=
  match st.keys key with
  | some e => if e.expiresAt ≤ now then none else some e
  | none => none

/-- Drop the key when it has expired. -/
def purge (st : MemoryLeaseStore) (now : Nat) (key : String) : MemoryLeaseStore :=
  match st.keys key with
  | some e => if e.expiresAt ≤ now then st.put key none else st
  | none => st

/-- `SET key value NX PX ttlMs`. -/
def setNxPx (st : MemoryLeaseStore) (now : Nat) (key value : String) (ttlMs : Nat) :
    MemoryLeaseStore × Bool :=
  let st := st.purge now key
  if (st.keys key).isSome then (st, false)
  else (st.put key (some ⟨value, now + ttlMs⟩), true)

def get (st : MemoryLeaseStore) (now : Nat) (key : String) : Option String :=
  ((st.purge now key).keys key).map MemoryEntry.value

/-- `PEXPIRE` if the value matches. -/
def expireIfValue (st : MemoryLeaseStore) (now : Nat) (key value : String) (ttlMs : Nat) :
    MemoryLeaseStore × Bool :=
  let st := st.purge now key
  match st.keys key with
  | some e =>
      if e.value = value then (st.put key (some { e with expiresAt := now + ttlMs }), true)
      else (st, false)
  | none => (st, false)

/-- `DEL` if the value matches. -/
def delIfValue (st : MemoryLeaseStore) (now : Nat) (key value : String) :
    MemoryLeaseStore × Bool :=
  let st := st.purge now key
  match st.keys key with
  | some e => if e.value = value then (st.put key none, true) else (st, false)
  | none => (st, false)

/-! ## What a command leaves of the key -/

variable {st : MemoryLeaseStore} {now : Nat} {key value : String} {ttlMs : Nat}

@[simp] theorem purge_keys_self : (st.purge now key).keys key = st.entry now key := by
  unfold purge entry
  cases hkey : st.keys key with
  | none => exact hkey
  | some e =>
      simp only
      split
      · exact put_keys_self st key none
      · exact hkey

theorem get_eq : st.get now key = (st.entry now key).map MemoryEntry.value := by
  rw [get, purge_keys_self]

/-- An entry the key holds is the one stored, and not over. -/
theorem entry_eq_some {e : MemoryEntry} (h : st.entry now key = some e) :
    st.keys key = some e ∧ now < e.expiresAt := by
  unfold entry at h
  cases hkey : st.keys key with
  | none =>
      rw [hkey] at h
      cases h
  | some e' =>
      rw [hkey] at h
      simp only at h
      split at h
      · cases h
      · obtain rfl := Option.some.inj h
        exact ⟨rfl, by omega⟩

theorem entry_of_lt {e : MemoryEntry} (hkey : st.keys key = some e) (hlt : now < e.expiresAt) :
    st.entry now key = some e := by
  unfold entry
  rw [hkey]
  exact if_neg (by omega)

/-- `SET NX` on a free key takes it; on a held key it leaves the entry. -/
theorem setNxPx_cases (st : MemoryLeaseStore) (now : Nat) (key value : String) (ttlMs : Nat) :
    (st.entry now key = none ∧ (st.setNxPx now key value ttlMs).2 = true ∧
        (st.setNxPx now key value ttlMs).1.keys key = some ⟨value, now + ttlMs⟩) ∨
      (∃ e, st.entry now key = some e ∧ (st.setNxPx now key value ttlMs).2 = false ∧
        (st.setNxPx now key value ttlMs).1.keys key = some e) := by
  unfold setNxPx
  cases hentry : st.entry now key with
  | none => simp [hentry]
  | some e => simp [hentry]

/-- A renewal extends the caller's own entry and leaves any other. -/
theorem expireIfValue_cases (st : MemoryLeaseStore) (now : Nat) (key value : String)
    (ttlMs : Nat) :
    (∃ e, st.entry now key = some e ∧ e.value = value ∧
        (st.expireIfValue now key value ttlMs).2 = true ∧
        (st.expireIfValue now key value ttlMs).1.keys key = some ⟨value, now + ttlMs⟩) ∨
      ((∀ e, st.entry now key = some e → e.value ≠ value) ∧
        (st.expireIfValue now key value ttlMs).2 = false ∧
        (st.expireIfValue now key value ttlMs).1.keys key = st.entry now key) := by
  unfold expireIfValue
  cases hentry : st.entry now key with
  | none => simp [hentry]
  | some e =>
      by_cases hvalue : e.value = value
      · exact Or.inl ⟨e, rfl, hvalue, by simp [hentry, hvalue], by simp [hentry, hvalue]⟩
      · exact Or.inr ⟨by simp [hvalue], by simp [hentry, hvalue], by simp [hentry, hvalue]⟩

/-- A deletion removes the caller's own entry and leaves any other. -/
theorem delIfValue_cases (st : MemoryLeaseStore) (now : Nat) (key value : String) :
    (∃ e, st.entry now key = some e ∧ e.value = value ∧
        (st.delIfValue now key value).2 = true ∧
        (st.delIfValue now key value).1.keys key = none) ∨
      ((∀ e, st.entry now key = some e → e.value ≠ value) ∧
        (st.delIfValue now key value).2 = false ∧
        (st.delIfValue now key value).1.keys key = st.entry now key) := by
  unfold delIfValue
  cases hentry : st.entry now key with
  | none => simp [hentry]
  | some e =>
      by_cases hvalue : e.value = value
      · exact Or.inl ⟨e, rfl, hvalue, by simp [hentry, hvalue], by simp [hentry, hvalue]⟩
      · exact Or.inr ⟨by simp [hvalue], by simp [hentry, hvalue], by simp [hentry, hvalue]⟩

end MemoryLeaseStore

end Coordination
end Ctem
