import Mathlib.Data.List.Lex
import Mathlib.Data.List.Nodup
import Mathlib.Data.List.Sort
import Mathlib.Data.List.Induction
import Mathlib.Tactic.Cases

/-!
# Insertion-ordered collections

Maps and sets that iterate in the order of first insertion, and the string
operations that go with them.

* `AssocMap` is such a map as the list of its entries.  `upsert` applies a
  function to the entry of a key, or appends a first entry; `keys_upsert`,
  `lookup_upsert_self` and `lookup_upsert_ne` are all a client needs.
* `groupFold` builds a map from a list, one `upsert` for each item; its keys are
  the keys of the items, each once (`mem_keys_groupFold`, `nodup_keys_groupFold`).
* A set is a list without duplicates, `List.eraseDups` of what was added.
* `sortStrings` sorts by UTF-16 code units, as a sort without comparator does.
-/

namespace Ctem
namespace Foundation

universe u v w

/-- The entries of a map in the order of their first insertion. -/
abbrev AssocMap (κ : Type u) (α : Type v) := List (κ × α)

namespace AssocMap

variable {κ : Type u} {α : Type v} {β : Type w} [DecidableEq κ]

/-- The keys, in order. -/
def keys (m : AssocMap κ α) : List κ := m.map Prod.fst

/-- The values, in order. -/
def values (m : AssocMap κ α) : List α := m.map Prod.snd

/-- The value of a key. -/
def lookup? : AssocMap κ α → κ → Option α
  | [], _ => none
  | (k', a) :: rest, k => if k' = k then some a else lookup? rest k

/-- Replace the value of a key by `f` of it, or append a first one. -/
def upsert : AssocMap κ α → κ → (Option α → α) → AssocMap κ α
  | [], k, f => [(k, f none)]
  | (k', a) :: rest, k, f =>
      if k' = k then (k', f (some a)) :: rest else (k', a) :: upsert rest k f

theorem mem_keys_upsert (m : AssocMap κ α) (k : κ) (f : Option α → α) (k' : κ) :
    k' ∈ (m.upsert k f).keys ↔ k' = k ∨ k' ∈ m.keys := by
  induction m with
  | nil => simp [upsert, keys]
  | cons e rest ih =>
      obtain ⟨k₀, a⟩ := e
      unfold upsert
      split
      · rename_i heq
        subst heq
        simp [keys]
      · simp only [keys, List.map_cons, List.mem_cons] at ih ⊢
        rw [ih]
        tauto

/-- A key that is there keeps its place, a new one goes to the end. -/
theorem keys_upsert (m : AssocMap κ α) (k : κ) (f : Option α → α) :
    (m.upsert k f).keys = if k ∈ m.keys then m.keys else m.keys ++ [k] := by
  induction m with
  | nil => simp [upsert, keys]
  | cons e rest ih =>
      obtain ⟨k₀, a⟩ := e
      unfold upsert
      split
      · rename_i heq
        subst heq
        simp [keys]
      · rename_i hne
        simp only [keys, List.map_cons, List.mem_cons] at ih ⊢
        rw [ih]
        by_cases hmem : k ∈ rest.map Prod.fst
        · simp [hmem]
        · simp [hmem, Ne.symm hne]

theorem nodup_keys_upsert {m : AssocMap κ α} (h : m.keys.Nodup) (k : κ) (f : Option α → α) :
    (m.upsert k f).keys.Nodup := by
  rw [keys_upsert]
  split
  · exact h
  · rename_i hmem
    rw [List.nodup_append]
    refine ⟨h, List.nodup_singleton k, ?_⟩
    intro a ha b hb heq
    rw [List.mem_singleton] at hb
    exact hmem (hb ▸ heq ▸ ha)

theorem lookup_upsert_self (m : AssocMap κ α) (k : κ) (f : Option α → α) :
    (m.upsert k f).lookup? k = some (f (m.lookup? k)) := by
  induction m with
  | nil => simp [upsert, lookup?]
  | cons e rest ih =>
      obtain ⟨k₀, a⟩ := e
      unfold upsert
      by_cases heq : k₀ = k
      · simp [heq, lookup?]
      · simp [heq, lookup?, ih]

theorem lookup_upsert_ne (m : AssocMap κ α) {k k' : κ} (f : Option α → α) (hne : k' ≠ k) :
    (m.upsert k f).lookup? k' = m.lookup? k' := by
  induction m with
  | nil => simp [upsert, lookup?, Ne.symm hne]
  | cons e rest ih =>
      obtain ⟨k₀, a⟩ := e
      unfold upsert
      by_cases heq : k₀ = k
      · subst heq
        simp [lookup?, Ne.symm hne]
      · simp [heq, lookup?, ih]

/-- A new key goes to the end. -/
theorem upsert_of_lookup_none {m : AssocMap κ α} {k : κ} (h : m.lookup? k = none)
    (f : Option α → α) : m.upsert k f = m ++ [(k, f none)] := by
  induction m with
  | nil => rfl
  | cons e rest ih =>
      obtain ⟨k₀, a⟩ := e
      unfold lookup? at h
      split at h
      · cases h
      · rename_i hne
        rw [upsert, if_neg hne, ih h, List.cons_append]

/-- What an update makes of the value that is there. -/
theorem upsert_eq_const (m : AssocMap κ α) (k : κ) (f : Option α → α) :
    m.upsert k f = m.upsert k fun _ => f (m.lookup? k) := by
  induction m with
  | nil => rfl
  | cons e rest ih =>
      obtain ⟨k₀, a⟩ := e
      unfold upsert lookup?
      by_cases heq : k₀ = k
      · rw [if_pos heq, if_pos heq, if_pos heq]
      · rw [if_neg heq, if_neg heq, if_neg heq, ih]

/-- An update is undone by the old value. -/
theorem upsert_restore {m : AssocMap κ α} {k : κ} {a : α} (h : m.lookup? k = some a)
    (f : Option α → α) : (m.upsert k f).upsert k (fun _ => a) = m := by
  induction m with
  | nil => cases h
  | cons e rest ih =>
      obtain ⟨k₀, b⟩ := e
      unfold lookup? at h
      by_cases heq : k₀ = k
      · rw [if_pos heq] at h
        obtain rfl := Option.some.inj h
        simp [upsert, heq]
      · rw [if_neg heq] at h
        simp [upsert, heq, ih h]

/-- A map built from the items one by one. -/
def groupFold (key : β → κ) (f : β → Option α → α) (items : List β) : AssocMap κ α :=
  items.foldl (fun m b => m.upsert (key b) (f b)) []

theorem mem_keys_foldl_upsert (key : β → κ) (f : β → Option α → α) (items : List β)
    (m : AssocMap κ α) (k : κ) :
    k ∈ (items.foldl (fun m b => m.upsert (key b) (f b)) m).keys ↔
      k ∈ m.keys ∨ ∃ b ∈ items, key b = k := by
  induction items generalizing m with
  | nil => simp
  | cons b rest ih =>
      rw [List.foldl_cons, ih, mem_keys_upsert]
      constructor
      · rintro ((rfl | hm) | ⟨b', hb', rfl⟩)
        · exact Or.inr ⟨b, by simp, rfl⟩
        · exact Or.inl hm
        · exact Or.inr ⟨b', by simp [hb'], rfl⟩
      · rintro (hm | ⟨b', hb', rfl⟩)
        · exact Or.inl (Or.inr hm)
        · rcases List.mem_cons.mp hb' with rfl | hb'
          · exact Or.inl (Or.inl rfl)
          · exact Or.inr ⟨b', hb', rfl⟩

/-- The keys of the map are the keys of the items. -/
theorem mem_keys_groupFold (key : β → κ) (f : β → Option α → α) (items : List β) (k : κ) :
    k ∈ (groupFold key f items).keys ↔ ∃ b ∈ items, key b = k := by
  rw [groupFold, mem_keys_foldl_upsert]
  simp [keys]

/-- No key occurs twice. -/
theorem nodup_keys_groupFold (key : β → κ) (f : β → Option α → α) (items : List β) :
    (groupFold key f items).keys.Nodup := by
  have hfold : ∀ (items : List β) (m : AssocMap κ α), m.keys.Nodup →
      (items.foldl (fun m b => m.upsert (key b) (f b)) m).keys.Nodup := by
    intro items
    induction items with
    | nil => exact fun _ h => h
    | cons b rest ih => exact fun m h => ih _ (nodup_keys_upsert h (key b) (f b))
  exact hfold items [] List.nodup_nil

/-- What every entry an upsert writes satisfies, and every entry before it, the map
satisfies. -/
theorem forall_mem_upsert {P : κ × α → Prop} {m : AssocMap κ α} (hm : ∀ e ∈ m, P e) {k : κ}
    {f : Option α → α} (hf : ∀ old, P (k, f old)) : ∀ e ∈ m.upsert k f, P e := by
  induction m with
  | nil =>
      intro e he
      simp only [upsert, List.mem_singleton] at he
      subst he
      exact hf none
  | cons e₀ rest ih =>
      obtain ⟨k₀, a⟩ := e₀
      have hrest : ∀ e ∈ rest, P e := fun e he => hm e (List.mem_cons_of_mem _ he)
      intro e he
      unfold upsert at he
      split at he
      · rename_i heq
        subst heq
        rcases List.mem_cons.mp he with rfl | he
        · exact hf (some a)
        · exact hrest e he
      · rcases List.mem_cons.mp he with rfl | he
        · exact hm _ List.mem_cons_self
        · exact ih hrest e he

theorem groupFold_concat (key : β → κ) (f : β → Option α → α) (items : List β) (b : β) :
    groupFold key f (items ++ [b]) = (groupFold key f items).upsert (key b) (f b) := by
  simp [groupFold, List.foldl_append]

/-- Where an item takes no notice of what is there, the last one of a key stays. -/
theorem lookup?_groupFold_last (key : β → κ) (f : β → α) (items : List β) (k : κ) :
    (groupFold key (fun b _ => f b) items).lookup? k =
      ((items.filter fun b => decide (key b = k)).getLast?).map f := by
  induction items using List.reverseRecOn with
  | nil => rfl
  | append_singleton items b ih =>
      rw [groupFold_concat, List.filter_append]
      by_cases hkey : key b = k
      · subst hkey
        rw [lookup_upsert_self]
        simp
      · rw [lookup_upsert_ne _ _ (Ne.symm hkey), ih]
        simp [hkey]

/-- The value of a key is built from its items alone. -/
theorem lookup?_groupFold (key : β → κ) (f : β → Option α → α) (items : List β) (k : κ) :
    (groupFold key f items).lookup? k =
      (items.filter fun b => decide (key b = k)).foldl (fun old b => some (f b old)) none := by
  induction items using List.reverseRecOn with
  | nil => rfl
  | append_singleton items b ih =>
      rw [groupFold_concat, List.filter_append]
      by_cases hkey : key b = k
      · subst hkey
        rw [lookup_upsert_self, ih]
        simp [List.foldl_append]
      · rw [lookup_upsert_ne _ _ (Ne.symm hkey), ih]
        simp [hkey]

theorem forall_mem_groupFold {P : κ × α → Prop} {key : β → κ} {f : β → Option α → α}
    {items : List β} (hf : ∀ b ∈ items, ∀ old, P (key b, f b old)) :
    ∀ e ∈ groupFold key f items, P e := by
  induction items using List.reverseRecOn with
  | nil => simp [groupFold]
  | append_singleton items b ih =>
      rw [groupFold_concat]
      apply forall_mem_upsert
      · exact ih fun b' hb' => hf b' (by simp [hb'])
      · exact hf b (by simp)

/-- The keys of the map are those of the items, in order of first appearance. -/
theorem keys_groupFold (key : β → κ) (f : β → Option α → α) (items : List β) :
    (groupFold key f items).keys = (items.map key).eraseDups := by
  induction items using List.reverseRecOn with
  | nil => rfl
  | append_singleton items b ih =>
      rw [groupFold_concat, keys_upsert, List.map_append, List.map_singleton,
        List.eraseDups_append, ih]
      generalize items.map key = ks
      by_cases hmem : key b ∈ ks
      · simp [hmem, List.removeAll]
      · simp [hmem, List.removeAll, List.eraseDups_cons]

/-- An entry is found under its key. -/
theorem lookup?_of_mem {m : AssocMap κ α} (hnodup : m.keys.Nodup) {k : κ} {a : α}
    (hmem : (k, a) ∈ m) : m.lookup? k = some a := by
  induction m with
  | nil => simp at hmem
  | cons e rest ih =>
      obtain ⟨k₀, a₀⟩ := e
      simp only [keys, List.map_cons, List.nodup_cons] at hnodup
      obtain ⟨hfresh, hrest⟩ := hnodup
      unfold lookup?
      rcases List.mem_cons.mp hmem with heq | hmem
      · cases heq
        simp
      · have hne : k₀ ≠ k := by
          rintro rfl
          exact hfresh (List.mem_map.mpr ⟨_, hmem, rfl⟩)
        rw [if_neg hne]
        exact ih hrest hmem

/-- A map that keeps the last item of a key has all of them only if no two share a key. -/
theorem forall_mem_values_groupFold_iff (key : β → κ) (items : List β) :
    (∀ b ∈ items, b ∈ (groupFold key (fun b _ => b) items).values) ↔
      ∀ b ∈ items, ∀ c ∈ items, key b = key c → b = c := by
  have hentries : ∀ e ∈ groupFold key (fun b _ => b) items, e.2 ∈ items ∧ e.1 = key e.2 :=
    forall_mem_groupFold fun b hb _ => ⟨hb, rfl⟩
  have hfound : ∀ b, b ∈ (groupFold key (fun b _ => b) items).values →
      (groupFold key (fun b _ => b) items).lookup? (key b) = some b := by
    intro b hb
    obtain ⟨e, he, rfl⟩ := List.mem_map.mp hb
    rw [← (hentries e he).2]
    exact lookup?_of_mem (nodup_keys_groupFold key _ items) he
  constructor
  · intro hall b hb c hc hkey
    have hboth := (hfound b (hall b hb)).symm.trans (hkey ▸ hfound c (hall c hc))
    exact Option.some.inj hboth
  · intro hinj b hb
    obtain ⟨e, he, hkey⟩ :=
      List.mem_map.mp ((mem_keys_groupFold key (fun b _ => b) items (key b)).mpr ⟨b, hb, rfl⟩)
    obtain ⟨hmem, hown⟩ := hentries e he
    rw [hinj b hb e.2 hmem (hkey.symm.trans hown)]
    exact List.mem_map_of_mem he

/-- Removing the entries of some keys. -/
theorem lookup?_filter (m : AssocMap κ α) (keep : κ → Bool) (k : κ) :
    lookup? (m.filter fun e => keep e.1) k = if keep k then m.lookup? k else none := by
  induction m with
  | nil => simp [lookup?]
  | cons e rest ih =>
      obtain ⟨k₀, a⟩ := e
      rw [List.filter_cons]
      by_cases hkeep : keep k₀ = true
      · rw [if_pos hkeep, lookup?, lookup?, ih]
        by_cases heq : k₀ = k
        · subst heq
          simp [hkeep]
        · simp [heq]
      · rw [if_neg hkeep, ih, lookup?]
        by_cases heq : k₀ = k
        · subst heq
          simp [hkeep]
        · simp [heq]

theorem mem_of_lookup? {m : AssocMap κ α} {k : κ} {a : α} (hlookup : m.lookup? k = some a) :
    (k, a) ∈ m := by
  induction m with
  | nil => simp [lookup?] at hlookup
  | cons e rest ih =>
      obtain ⟨k₀, a₀⟩ := e
      unfold lookup? at hlookup
      split at hlookup
      · rename_i heq
        subst heq
        simp only [Option.some_inj] at hlookup
        simp [hlookup]
      · exact List.mem_cons_of_mem _ (ih hlookup)

/-- A map whose entries are put in one by one again. -/
theorem groupFold_self {m : AssocMap κ α} (hnodup : m.keys.Nodup) :
    groupFold Prod.fst (fun e _ => e.2) m = m := by
  induction m using List.reverseRecOn with
  | nil => rfl
  | append_singleton m e ih =>
      rw [keys, List.map_append, List.nodup_append] at hnodup
      obtain ⟨hm, -, hdisjoint⟩ := hnodup
      have hnone : lookup? m e.1 = none := by
        cases hlookup : lookup? m e.1 with
        | none => rfl
        | some a =>
            have hmem : e.1 ∈ m.map Prod.fst :=
              List.mem_map.mpr ⟨(e.1, a), mem_of_lookup? hlookup, rfl⟩
            exact absurd rfl (hdisjoint e.1 hmem e.1 (List.mem_singleton_self _))
      rw [groupFold_concat, ih hm, upsert_of_lookup_none hnone]

/-- A key has a value when it is one of the keys. -/
theorem isSome_lookup? (m : AssocMap κ α) (k : κ) : (m.lookup? k).isSome = true ↔ k ∈ m.keys := by
  induction m with
  | nil => simp [lookup?, keys]
  | cons e rest ih =>
      obtain ⟨k₀, a⟩ := e
      simp only [keys, List.map_cons, List.mem_cons] at ih ⊢
      unfold lookup?
      by_cases heq : k₀ = k
      · simp [heq]
      · rw [if_neg heq, ih]
        simp [Ne.symm heq]

/-- The entries in front count first. -/
theorem lookup?_append (m m' : AssocMap κ α) (k : κ) :
    lookup? (m ++ m') k = (m.lookup? k).or (m'.lookup? k) := by
  induction m with
  | nil => rfl
  | cons e rest ih =>
      obtain ⟨k₀, a⟩ := e
      rw [List.cons_append, lookup?, lookup?, ih]
      by_cases heq : k₀ = k
      · simp [heq]
      · rw [if_neg heq, if_neg heq]

/-- The entries of a map without duplicate keys are its values. -/
theorem lookup?_eq_some_iff {m : AssocMap κ α} (hnodup : m.keys.Nodup) (k : κ) (a : α) :
    m.lookup? k = some a ↔ (k, a) ∈ m :=
  ⟨mem_of_lookup?, lookup?_of_mem hnodup⟩

/-- The order of the entries does not matter to a lookup. -/
theorem lookup?_perm {m m' : AssocMap κ α} (hnodup : m.keys.Nodup) (hperm : m.Perm m') (k : κ) :
    m.lookup? k = m'.lookup? k := by
  have hnodup' : m'.keys.Nodup := (hperm.map Prod.fst).nodup_iff.mp hnodup
  apply Option.ext
  intro a
  rw [lookup?_eq_some_iff hnodup, lookup?_eq_some_iff hnodup', hperm.mem_iff]

/-- The lists a map collects its items in: under each key, what the items of the
key give.  `add` is `push`, or `add` of a set. -/
theorem mem_groupFold_collect {γ : Type v} (key : β → κ) (val : β → γ)
    (add : List γ → γ → List γ) (hadd : ∀ s a x, x ∈ add s a ↔ x ∈ s ∨ x = a)
    (items : List β) (k : κ) (x : γ) :
    (∃ xs, (k, xs) ∈ groupFold key (fun b old => add (old.getD []) (val b)) items ∧ x ∈ xs) ↔
      ∃ b ∈ items, key b = k ∧ val b = x := by
  have hlookup : x ∈ ((groupFold key (fun b old => add (old.getD []) (val b)) items).lookup?
      k).getD [] ↔ ∃ b ∈ items, key b = k ∧ val b = x := by
    induction items using List.reverseRecOn with
    | nil => simp [groupFold, lookup?]
    | append_singleton items b ih =>
        rw [groupFold_concat]
        by_cases heq : key b = k
        · subst heq
          rw [lookup_upsert_self, Option.getD_some, hadd, ih]
          constructor
          · rintro (⟨b', hb', hk, hx⟩ | rfl)
            · exact ⟨b', by simp [hb'], hk, hx⟩
            · exact ⟨b, by simp, rfl, rfl⟩
          · rintro ⟨b', hb', hk, hx⟩
            rcases List.mem_append.mp hb' with hb' | hb'
            · exact Or.inl ⟨b', hb', hk, hx⟩
            · rw [List.mem_singleton] at hb'
              subst hb'
              exact Or.inr hx.symm
        · rw [lookup_upsert_ne _ _ (Ne.symm heq), ih]
          simp only [List.mem_append, List.mem_singleton]
          constructor
          · rintro ⟨b', hb', hk, hx⟩
            exact ⟨b', Or.inl hb', hk, hx⟩
          · rintro ⟨b', hb' | rfl, hk, hx⟩
            · exact ⟨b', hb', hk, hx⟩
            · exact absurd hk heq
  rw [← hlookup]
  constructor
  · rintro ⟨xs, hmem, hx⟩
    rw [lookup?_of_mem (nodup_keys_groupFold _ _ items) hmem]
    exact hx
  · intro hx
    cases hfind : (groupFold key (fun b old => add (old.getD []) (val b)) items).lookup? k with
    | none => simp [hfind] at hx
    | some xs =>
        rw [hfind, Option.getD_some] at hx
        exact ⟨xs, mem_of_lookup? hfind, hx⟩

end AssocMap

/-- `set.add(a)` on a set in insertion order. -/
def setAdd {α : Type u} [DecidableEq α] (s : List α) (a : α) : List α :=
  if a ∈ s then s else s ++ [a]

theorem mem_setAdd {α : Type u} [DecidableEq α] (s : List α) (a x : α) :
    x ∈ setAdd s a ↔ x ∈ s ∨ x = a := by
  unfold setAdd
  split
  · rename_i hmem
    constructor
    · exact Or.inl
    · rintro (hx | rfl)
      · exact hx
      · exact hmem
  · simp

/-- A fold that raises a flag raises it at one of its items. -/
theorem foldl_iff_exists {α : Type u} {β : Type v} {P : β → Prop} {Q : α → Prop} {f : β → α → β}
    (hstep : ∀ b a, P (f b a) ↔ P b ∨ Q a) (items : List α) (b : β) :
    P (items.foldl f b) ↔ P b ∨ ∃ a ∈ items, Q a := by
  induction items generalizing b with
  | nil => simp
  | cons a items ih =>
      rw [List.foldl_cons, ih, hstep, List.exists_mem_cons_iff, or_assoc]

theorem mem_foldl_setAdd {α : Type u} [DecidableEq α] (items s : List α) (x : α) :
    x ∈ items.foldl setAdd s ↔ x ∈ s ∨ x ∈ items := by
  have hfold : x ∈ items.foldl setAdd s ↔ x ∈ s ∨ ∃ a ∈ items, x = a :=
    foldl_iff_exists (P := fun s => x ∈ s) (fun s a => mem_setAdd s a x) items s
  simpa only [exists_eq_right'] using hfold

/-! ## Fallible steps -/

section Fallible

variable {ε : Type u} {α β : Type v}

/-- Two steps succeed together, the second on what the first returns. -/
theorem bind_eq_ok {step : Except ε α} {next : α → Except ε β} {b : β} :
    (step >>= next) = .ok b ↔ ∃ a, step = .ok a ∧ next a = .ok b := by
  cases step with
  | error e => simp [bind, Except.bind]
  | ok a => simp [bind, Except.bind]

/-- What is behind a refusal is reached only where nothing is refused. -/
theorem eq_ok_of_guard {c : Prop} [Decidable c] {e : ε} {rest : Except ε β} {b : β}
    (h : (if c then .error e else rest) = .ok b) : ¬ c ∧ rest = .ok b := by
  split at h
  · cases h
  · rename_i hpass
    exact ⟨hpass, h⟩

end Fallible

/-- A traversal that succeeds has one result per item. -/
theorem mapM_eq_ok_iff {α : Type} {β : Type} {ε : Type} (f : α → Except ε β) (xs : List α)
    (ys : List β) : xs.mapM f = .ok ys ↔ List.Forall₂ (fun x y => f x = .ok y) xs ys := by
  induction xs generalizing ys with
  | nil => simp [pure, Except.pure, eq_comm]
  | cons x xs ih =>
      rw [List.mapM_cons, List.forall₂_cons_left_iff, bind_eq_ok]
      constructor
      · intro h
        obtain ⟨y, hy, h⟩ := h
        obtain ⟨ys', hys', h⟩ := bind_eq_ok.mp h
        obtain rfl := Except.ok.inj h
        exact ⟨y, ys', hy, (ih ys').mp hys', rfl⟩
      · intro h
        obtain ⟨y, ys', hy, hall, rfl⟩ := h
        exact ⟨y, hy, bind_eq_ok.mpr ⟨ys', (ih ys').mpr hall, rfl⟩⟩

/-- Every result of a traversal is that of an item. -/
theorem exists_of_mem_mapM {α : Type} {β : Type} {ε : Type} {f : α → Except ε β} {xs : List α}
    {ys : List β} (h : xs.mapM f = .ok ys) {y : β} (hy : y ∈ ys) : ∃ x ∈ xs, f x = .ok y := by
  have hall := (mapM_eq_ok_iff f xs ys).mp h
  clear h
  induction hall with
  | nil => simp at hy
  | cons hfirst _ ih =>
      rcases List.mem_cons.mp hy with rfl | hy
      · exact ⟨_, List.mem_cons_self, hfirst⟩
      · obtain ⟨x, hx, hok⟩ := ih hy
        exact ⟨x, List.mem_cons_of_mem _ hx, hok⟩

/-- A traversal throws precisely when some item does. -/
theorem mapM_eq_error_iff {α : Type} {β : Type} {ε : Type} (f : α → Except ε β) (xs : List α) :
    (∃ e, xs.mapM f = .error e) ↔ ∃ x ∈ xs, ∃ e, f x = .error e := by
  induction xs with
  | nil => simp [pure, Except.pure]
  | cons x xs ih =>
      rw [List.mapM_cons, List.exists_mem_cons_iff, ← ih]
      cases hx : f x with
      | error message => simp [bind, Except.bind]
      | ok y =>
          cases hxs : xs.mapM f with
          | error message => simp [bind, Except.bind]
          | ok ys => simp [bind, Except.bind, pure, Except.pure]

/-! ## Strings -/

/-- `parts.join(sep)`. -/
def joinWith (sep : String) : List String → String
  | [] => ""
  | [s] => s
  | s :: rest => s ++ sep ++ joinWith sep rest

/-- The UTF-16 code units of a string. -/
def utf16Units (s : String) : List Nat :=
  s.toList.flatMap fun c =>
    if c.toNat < 0x10000 then [c.toNat]
    else [0xD800 + (c.toNat - 0x10000) / 0x400, 0xDC00 + (c.toNat - 0x10000) % 0x400]

/-- `list.sort()` on strings: stable, by UTF-16 code units. -/
def sortStrings (xs : List String) : List String :=
  xs.insertionSort fun a b => utf16Units a ≤ utf16Units b

/-- ASCII letters of a string in lower case. -/
def asciiLower (s : String) : String :=
  String.ofList (s.toList.map Char.toLower)

end Foundation
end Ctem
