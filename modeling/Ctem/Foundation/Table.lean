import Mathlib.Data.List.Nodup
import Mathlib.Data.List.Count
import Mathlib.Tactic.Cases

/-!
# Keyed tables

A database table with a unique key, as the list of its rows in no particular
order.  The uniqueness is a field of the table, so no operation can produce two
rows with one key:

* `find?` reads the row of a key;
* `modify` rewrites the row of a key, `updateMany` every row that satisfies a
  predicate; neither changes the key;
* `insertMany?` adds rows and fails when a key is taken; `upsert` rewrites the row
  of a key or adds a first one;
* `deleteMany` removes the rows that satisfy a predicate.

Each operation comes with what it does to `find?`, to membership and, where a
development counts rows, to `count`.
-/

namespace Ctem
namespace Foundation

universe u v

/-- The rows of a table, unique in their key. -/
structure Table (ρ : Type u) {κ : Type v} (key : ρ → κ) where
  /-- The rows. -/
  rows : List ρ
  /-- No two rows share a key. -/
  nodup : (rows.map key).Nodup

namespace Table

variable {ρ : Type u} {κ : Type v} {key : ρ → κ}

instance : Membership ρ (Table ρ key) := ⟨fun t r => r ∈ t.rows⟩

theorem mem_def {t : Table ρ key} {r : ρ} : r ∈ t ↔ r ∈ t.rows := Iff.rfl

/-- The table without rows. -/
def empty : Table ρ key := ⟨[], List.nodup_nil⟩

@[simp] theorem not_mem_empty (r : ρ) : r ∉ (empty : Table ρ key) := by
  simp [mem_def, empty]

/-- A row is determined by its key. -/
theorem eq_of_key_eq {t : Table ρ key} {r r' : ρ} (hr : r ∈ t) (hr' : r' ∈ t)
    (hkey : key r = key r') : r = r' :=
  List.inj_on_of_nodup_map t.nodup hr hr' hkey

/-! ## Reading -/

section Find

variable [DecidableEq κ]

/-- The row with the given key. -/
def find? (t : Table ρ key) (k : κ) : Option ρ :=
  t.rows.find? (fun r => decide (key r = k))

theorem find?_eq_some {t : Table ρ key} {k : κ} {r : ρ} :
    t.find? k = some r ↔ r ∈ t ∧ key r = k := by
  constructor
  · intro hfind
    have hkey : key r = k := by simpa using List.find?_some hfind
    exact ⟨List.mem_of_find?_eq_some hfind, hkey⟩
  · rintro ⟨hmem, rfl⟩
    cases hfind : t.find? (key r) with
    | none =>
        have hnone := List.find?_eq_none.mp hfind r hmem
        simp at hnone
    | some r' =>
        have hkey : key r' = key r := by simpa using List.find?_some hfind
        have hmem' : r' ∈ t := List.mem_of_find?_eq_some hfind
        rw [eq_of_key_eq hmem' hmem hkey]

theorem find?_eq_none {t : Table ρ key} {k : κ} : t.find? k = none ↔ ∀ r ∈ t, key r ≠ k := by
  simp [find?, List.find?_eq_none, mem_def]

theorem find?_key {t : Table ρ key} {k : κ} {r : ρ} (hfind : t.find? k = some r) : key r = k :=
  (find?_eq_some.mp hfind).2

theorem find?_mem {t : Table ρ key} {k : κ} {r : ρ} (hfind : t.find? k = some r) : r ∈ t :=
  (find?_eq_some.mp hfind).1

theorem find?_of_mem {t : Table ρ key} {r : ρ} (hmem : r ∈ t) : t.find? (key r) = some r :=
  find?_eq_some.mpr ⟨hmem, rfl⟩

end Find

/-! ## Rewriting and deleting rows -/

/-- Rewrite every row that satisfies `p`. -/
def updateMany (t : Table ρ key) (p : ρ → Bool) (f : ρ → ρ) (hkey : ∀ r, key (f r) = key r) :
    Table ρ key where
  rows := t.rows.map fun r => if p r then f r else r
  nodup := by
    have hmap : (t.rows.map fun r => if p r then f r else r).map key = t.rows.map key := by
      rw [List.map_map]
      apply List.map_congr_left
      intro r _
      by_cases hp : p r <;> simp [hp, hkey]
    rw [hmap]
    exact t.nodup

theorem mem_updateMany {t : Table ρ key} {p : ρ → Bool} {f : ρ → ρ}
    {hkey : ∀ r, key (f r) = key r} {r : ρ} :
    r ∈ t.updateMany p f hkey ↔ ∃ r₀ ∈ t, (if p r₀ then f r₀ else r₀) = r := by
  simp [mem_def, updateMany]

/-- Remove the rows that satisfy `p`. -/
def deleteMany (t : Table ρ key) (p : ρ → Bool) : Table ρ key where
  rows := t.rows.filter fun r => !p r
  nodup := t.nodup.sublist (List.Sublist.map key List.filter_sublist)

theorem mem_deleteMany {t : Table ρ key} {p : ρ → Bool} {r : ρ} :
    r ∈ t.deleteMany p ↔ r ∈ t ∧ p r = false := by
  simp [mem_def, deleteMany]

/-! ## Counting rows -/

/-- The number of rows that satisfy `p`. -/
def count (t : Table ρ key) (p : ρ → Bool) : Nat :=
  t.rows.countP p

/-- A count vanishes precisely when no row satisfies the predicate. -/
theorem count_eq_zero {t : Table ρ key} {p : ρ → Bool} : t.count p = 0 ↔ ∀ r ∈ t, p r = false := by
  rw [count, List.countP_eq_zero]
  simp [mem_def]

/-- Every row with `p` has `q` precisely when as many rows have both as have
`p`. -/
theorem count_and_eq_iff {t : Table ρ key} {p q : ρ → Bool} :
    t.count (fun r => p r && q r) = t.count p ↔ ∀ r ∈ t, p r = true → q r = true := by
  have hfilter : ∀ rows : List ρ,
      rows.countP (fun r => p r && q r) = rows.countP p ↔
        ∀ r ∈ rows, p r = true → q r = true := by
    intro rows
    have hcount := List.countP_filter (p := q) (q := p) (l := rows)
    have hlen := List.countP_eq_length_filter (p := p) (l := rows)
    rw [show (fun r => p r && q r) = (fun r => q r && p r) by funext r; exact Bool.and_comm _ _,
      ← hcount, hlen, List.countP_eq_length]
    simp
  exact hfilter t.rows

theorem count_le_of_imp {t : Table ρ key} {p q : ρ → Bool} (himp : ∀ r ∈ t, p r = true → q r = true) :
    t.count p ≤ t.count q :=
  List.countP_mono_left himp

theorem count_congr {t : Table ρ key} {p q : ρ → Bool} (heq : ∀ r ∈ t, p r = q r) :
    t.count p = t.count q :=
  List.countP_congr (by
    intro r hr
    rw [heq r hr])

/-! ## Rewriting the row of a key -/

section Keyed

variable [DecidableEq κ]

theorem find?_updateMany (t : Table ρ key) (p : ρ → Bool) (f : ρ → ρ)
    (hkey : ∀ r, key (f r) = key r) (k : κ) :
    (t.updateMany p f hkey).find? k = (t.find? k).map fun r => if p r then f r else r := by
  cases hfind : t.find? k with
  | none =>
      rw [Option.map_none, find?_eq_none]
      rw [find?_eq_none] at hfind
      intro r hr
      obtain ⟨r₀, hr₀, rfl⟩ := mem_updateMany.mp hr
      have hne : key r₀ ≠ k := hfind r₀ hr₀
      split
      · rw [hkey]
        exact hne
      · exact hne
  | some r =>
      rw [Option.map_some, find?_eq_some]
      obtain ⟨hmem, hk⟩ := find?_eq_some.mp hfind
      refine ⟨mem_updateMany.mpr ⟨r, hmem, rfl⟩, ?_⟩
      split
      · rw [hkey]
        exact hk
      · exact hk

/-- Rewrite the row with the given key. -/
def modify (t : Table ρ key) (k : κ) (f : ρ → ρ) (hkey : ∀ r, key (f r) = key r) :
    Table ρ key :=
  t.updateMany (fun r => decide (key r = k)) f hkey

theorem mem_modify {t : Table ρ key} {k : κ} {f : ρ → ρ} {hkey : ∀ r, key (f r) = key r} {r : ρ} :
    r ∈ t.modify k f hkey ↔ ∃ r₀ ∈ t, (if key r₀ = k then f r₀ else r₀) = r := by
  simp [modify, mem_updateMany]

theorem find?_modify_self {t : Table ρ key} {k : κ} {f : ρ → ρ} {hkey : ∀ r, key (f r) = key r}
    {r : ρ} (hfind : t.find? k = some r) : (t.modify k f hkey).find? k = some (f r) := by
  rw [modify, find?_updateMany, hfind]
  simp [find?_key hfind]

theorem find?_modify_ne {t : Table ρ key} {k k' : κ} {f : ρ → ρ} {hkey : ∀ r, key (f r) = key r}
    (hne : k' ≠ k) : (t.modify k f hkey).find? k' = t.find? k' := by
  rw [modify, find?_updateMany]
  cases hfind : t.find? k' with
  | none => rfl
  | some r =>
      have hr : key r ≠ k := by
        rw [find?_key hfind]
        exact hne
      simp [hr]

theorem countP_map_replace (rows : List ρ) (hnodup : (rows.map key).Nodup) (f : ρ → ρ)
    (p : ρ → Bool) {r : ρ} (hmem : r ∈ rows) :
    (rows.map fun x => if key x = key r then f x else x).countP p + (p r).toNat
      = rows.countP p + (p (f r)).toNat := by
  induction rows with
  | nil => simp at hmem
  | cons x xs ih =>
      rw [List.map_cons, List.nodup_cons] at hnodup
      obtain ⟨hx, hxs⟩ := hnodup
      simp only [List.map_cons, List.countP_cons]
      rcases List.mem_cons.mp hmem with rfl | hmem
      · -- the head is the row: nothing behind it has its key
        have hrest : (xs.map fun y => if key y = key r then f y else y) = xs := by
          conv_rhs => rw [← List.map_id xs]
          apply List.map_congr_left
          intro y hy
          have hne : key y ≠ key r := by
            intro heq
            exact hx (heq ▸ List.mem_map_of_mem hy)
          simp [hne]
        rw [hrest]
        cases hr : p r <;> cases hfr : p (f r) <;> simp [hfr]
      · have hne : key x ≠ key r := by
          intro heq
          exact hx (heq ▸ List.mem_map_of_mem hmem)
        have htail := ih hxs hmem
        simp only [hne, if_false]
        omega

/-- Rewriting one row moves the count by what that row contributes before and
after. -/
theorem count_modify {t : Table ρ key} {k : κ} {f : ρ → ρ} {hkey : ∀ r, key (f r) = key r}
    {r : ρ} (hfind : t.find? k = some r) (p : ρ → Bool) :
    (t.modify k f hkey).count p + (p r).toNat = t.count p + (p (f r)).toNat := by
  obtain ⟨hmem, rfl⟩ := find?_eq_some.mp hfind
  have hcount := countP_map_replace t.rows t.nodup f p hmem
  simpa [count, modify, updateMany] using hcount

/-- The row of a key after the rows of one key are deleted. -/
theorem find?_deleteMany_key (t : Table ρ key) (k k' : κ) :
    (t.deleteMany fun r => decide (key r = k)).find? k' = if k' = k then none else t.find? k' := by
  split
  · rename_i heq
    subst heq
    rw [find?_eq_none]
    intro r hr hk
    have hkept := (mem_deleteMany.mp hr).2
    rw [decide_eq_false_iff_not] at hkept
    exact hkept hk
  · rename_i hne
    cases hfind : t.find? k' with
    | none =>
        rw [find?_eq_none] at hfind ⊢
        intro r hr
        exact hfind r (mem_deleteMany.mp hr).1
    | some r =>
        obtain ⟨hmem, hk⟩ := find?_eq_some.mp hfind
        refine find?_eq_some.mpr ⟨mem_deleteMany.mpr ⟨hmem, ?_⟩, hk⟩
        rw [hk]
        exact decide_eq_false hne

/-! ## Inserting rows -/

/-- Add rows in one statement; `none` when a key is taken or given twice, as a
unique index refuses the whole statement. -/
def insertMany? (t : Table ρ key) (rs : List ρ) : Option (Table ρ key) :=
  if h : ((rs ++ t.rows).map key).Nodup then some ⟨rs ++ t.rows, h⟩ else none

theorem insertMany?_rows {t t' : Table ρ key} {rs : List ρ}
    (hinsert : t.insertMany? rs = some t') : t'.rows = rs ++ t.rows := by
  unfold insertMany? at hinsert
  split at hinsert
  · rw [Option.some_inj] at hinsert
    rw [← hinsert]
  · exact absurd hinsert (by simp)

theorem mem_insertMany? {t t' : Table ρ key} {rs : List ρ}
    (hinsert : t.insertMany? rs = some t') {r : ρ} : r ∈ t' ↔ r ∈ rs ∨ r ∈ t := by
  rw [mem_def, insertMany?_rows hinsert, List.mem_append, mem_def]

theorem count_insertMany? {t t' : Table ρ key} {rs : List ρ}
    (hinsert : t.insertMany? rs = some t') (p : ρ → Bool) :
    t'.count p = rs.countP p + t.count p := by
  rw [count, insertMany?_rows hinsert, List.countP_append, count]

/-- Add a row unless its key is taken. -/
def ensure (t : Table ρ key) (r : ρ) : Table ρ key :=
  if h : key r ∈ t.rows.map key then t
  else ⟨r :: t.rows, by
    rw [List.map_cons, List.nodup_cons]
    exact ⟨h, t.nodup⟩⟩

/-- The row of the key after `ensure`: the one that was there, or the added one. -/
theorem find?_ensure_self {t : Table ρ key} {r : ρ} :
    (t.ensure r).find? (key r) = some ((t.find? (key r)).getD r) := by
  unfold ensure
  split
  · rename_i htaken
    obtain ⟨r₀, hr₀, hk⟩ := List.mem_map.mp htaken
    have hfind : t.find? (key r) = some r₀ := find?_eq_some.mpr ⟨hr₀, hk⟩
    rw [hfind, Option.getD_some]
  · rename_i hfree
    have hnone : t.find? (key r) = none := by
      rw [find?_eq_none]
      intro r₀ hr₀ hk
      exact hfree (hk ▸ List.mem_map_of_mem hr₀)
    rw [hnone, Option.getD_none]
    exact find?_eq_some.mpr ⟨List.mem_cons_self, rfl⟩

theorem find?_ensure_ne {t : Table ρ key} {r : ρ} {k : κ} (hne : k ≠ key r) :
    (t.ensure r).find? k = t.find? k := by
  unfold ensure
  split
  · rfl
  · have hhead : decide (key r = k) = false := decide_eq_false (Ne.symm hne)
    change List.find? (fun x => decide (key x = k)) (r :: t.rows) = _
    rw [List.find?_cons, hhead]
    rfl

theorem mem_ensure_of_mem {t : Table ρ key} {r r' : ρ} (h : r' ∈ t) : r' ∈ t.ensure r := by
  unfold ensure
  split
  · exact h
  · exact List.mem_cons_of_mem r h

/-- A row that was not there is the added one. -/
theorem mem_or_eq_of_mem_ensure {t : Table ρ key} {r r' : ρ} (h : r' ∈ t.ensure r) :
    r' ∈ t ∨ r' = r := by
  unfold ensure at h
  split at h
  · exact Or.inl h
  · exact (List.mem_cons.mp h).symm

/-- Add the rows whose keys are free, skipping duplicates. -/
def ensureMany (t : Table ρ key) (rs : List ρ) : Table ρ key :=
  rs.foldl ensure t

/-- In a table whose key is the whole row, the rows after `ensureMany` are the old
ones and the added ones. -/
theorem mem_ensureMany [DecidableEq ρ] {t : Table ρ (fun r : ρ => r)} {rs : List ρ} {r : ρ} :
    r ∈ t.ensureMany rs ↔ r ∈ t ∨ r ∈ rs := by
  have hensure : ∀ (t : Table ρ (fun r : ρ => r)) (r' : ρ), r ∈ t.ensure r' ↔ r ∈ t ∨ r = r' := by
    intro t r'
    unfold ensure
    split
    · rename_i htaken
      have hmem : r' ∈ t := by simpa [mem_def] using htaken
      constructor
      · exact Or.inl
      · rintro (hr | rfl)
        · exact hr
        · exact hmem
    · rw [mem_def, List.mem_cons, mem_def]
      exact Or.comm
  unfold ensureMany
  induction rs generalizing t with
  | nil => simp
  | cons r' rest ih =>
      have hrest : r ∈ (rest.foldl ensure (t.ensure r')) ↔ r ∈ t.ensure r' ∨ r ∈ rest := ih
      rw [List.foldl_cons, hrest, hensure, List.mem_cons]
      tauto

/-- `upsert`: rewrite the row with the key of `create`, or add `create`. -/
def upsert (t : Table ρ key) (create : ρ) (update : ρ → ρ) (hkey : ∀ r, key (update r) = key r) :
    Table ρ key :=
  if h : key create ∈ t.rows.map key then t.modify (key create) update hkey
  else ⟨create :: t.rows, by
    rw [List.map_cons, List.nodup_cons]
    exact ⟨h, t.nodup⟩⟩

/-- The rows after an upsert: the rewritten row of the key or the new one, and
every row of another key. -/
theorem mem_upsert {t : Table ρ key} {create : ρ} {update : ρ → ρ}
    {hkey : ∀ r, key (update r) = key r} {r : ρ} :
    r ∈ t.upsert create update hkey ↔
      (r ∈ t ∧ key r ≠ key create) ∨
        (∃ r₀ ∈ t, key r₀ = key create ∧ r = update r₀) ∨
        ((∀ r₀ ∈ t, key r₀ ≠ key create) ∧ r = create) := by
  unfold upsert
  split
  · rename_i htaken
    obtain ⟨r₁, hr₁, hk₁⟩ := List.mem_map.mp htaken
    rw [mem_modify]
    constructor
    · rintro ⟨r₀, hr₀, rfl⟩
      by_cases hk : key r₀ = key create
      · rw [if_pos hk]
        exact Or.inr (Or.inl ⟨r₀, hr₀, hk, rfl⟩)
      · rw [if_neg hk]
        exact Or.inl ⟨hr₀, hk⟩
    · rintro (⟨hr, hk⟩ | ⟨r₀, hr₀, hk, rfl⟩ | ⟨hfree, -⟩)
      · exact ⟨r, hr, if_neg hk⟩
      · exact ⟨r₀, hr₀, if_pos hk⟩
      · exact absurd hk₁ (hfree r₁ hr₁)
  · rename_i hfree
    have hnone : ∀ r₀ ∈ t, key r₀ ≠ key create := by
      intro r₀ hr₀ hk
      exact hfree (hk ▸ List.mem_map_of_mem hr₀)
    rw [mem_def, List.mem_cons]
    constructor
    · rintro (rfl | hr)
      · exact Or.inr (Or.inr ⟨hnone, rfl⟩)
      · exact Or.inl ⟨hr, hnone r hr⟩
    · rintro (⟨hr, -⟩ | ⟨r₀, hr₀, hk, -⟩ | ⟨-, rfl⟩)
      · exact Or.inr hr
      · exact absurd hk (hnone r₀ hr₀)
      · exact Or.inl rfl

/-- The row of the key after an upsert. -/
theorem find?_upsert_self {t : Table ρ key} {create : ρ} {update : ρ → ρ}
    {hkey : ∀ r, key (update r) = key r} :
    (t.upsert create update hkey).find? (key create) =
      some (match t.find? (key create) with
        | some r => update r
        | none => create) := by
  rw [find?_eq_some, mem_upsert]
  cases hfind : t.find? (key create) with
  | some r =>
      obtain ⟨hmem, hk⟩ := find?_eq_some.mp hfind
      exact ⟨Or.inr (Or.inl ⟨r, hmem, hk, rfl⟩), (hkey r).trans hk⟩
  | none => exact ⟨Or.inr (Or.inr ⟨find?_eq_none.mp hfind, rfl⟩), rfl⟩

/-- After an upsert its key has a row. -/
theorem find?_upsert_isSome {t : Table ρ key} {create : ρ} {update : ρ → ρ}
    {hkey : ∀ r, key (update r) = key r} {k : κ} (hk : key create = k) :
    ((t.upsert create update hkey).find? k).isSome = true := by
  subst hk
  rw [find?_upsert_self]
  rfl

/-- An upsert touches no other key. -/
theorem find?_upsert_ne {t : Table ρ key} {create : ρ} {update : ρ → ρ}
    {hkey : ∀ r, key (update r) = key r} {k : κ} (hne : k ≠ key create) :
    (t.upsert create update hkey).find? k = t.find? k := by
  cases hfind : t.find? k with
  | some r =>
      obtain ⟨hmem, rfl⟩ := find?_eq_some.mp hfind
      exact find?_eq_some.mpr ⟨mem_upsert.mpr (Or.inl ⟨hmem, hne⟩), rfl⟩
  | none =>
      rw [find?_eq_none] at hfind ⊢
      intro r hr
      rcases mem_upsert.mp hr with ⟨hmem, -⟩ | ⟨r₀, -, hk, rfl⟩ | ⟨-, rfl⟩
      · exact hfind r hmem
      · rw [hkey, hk]
        exact Ne.symm hne
      · exact Ne.symm hne

end Keyed

end Table

end Foundation
end Ctem
