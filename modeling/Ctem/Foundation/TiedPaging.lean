import Mathlib.Data.List.Nodup
import Mathlib.Logic.Equiv.Basic
import Mathlib.Order.Lattice

/-!
# Paging by a key with ties

Rows come in descending order of a key that several rows may share, and each request may
order the rows of one key anew.  A page has the first rows behind the row its cursor
names, and names its own last row where there are more.

* `ReadsFrom` is the reader who follows the cursors from request to request.
* `UniqueBoundaries`: the last row of each full page, but the one behind which nothing
  is left, has its key to itself.
* `reads_all_iff`: this is exactly when the reader gets every row once however the ties
  are ordered.
-/

namespace Ctem
namespace Foundation

universe u v w x

variable {α : Type u} {κ : Type v} {γ : Type w} {β : Type x}

/-! ## Pages and their reader -/

/-- The rows in an order a request may see: by descending key, ties as they come. -/
structure OrderedBy [LinearOrder κ] (key : α → κ) (rows order : List α) : Prop where
  perm : order.Perm rows
  descends : order.Pairwise fun a b => key b ≤ key a

structure CursorPage (α : Type u) (γ : Type w) where
  items : List α
  nextCursor : Option γ

/-- The rows from the start, or behind the row the cursor names. -/
def seek [DecidableEq γ] (token : α → γ) (order : List α) : Option γ → List α
  | none => order
  | some c => (order.dropWhile fun a => decide (token a ≠ c)).drop 1

/-- A page of at most `limit` rows out of those that were fetched, each as `view` shows
it. -/
def cursorPage (token : α → γ) (view : α → β) (limit : Nat) (fetched : List α) :
    CursorPage β γ :=
  if limit < fetched.length then
    { items := (fetched.take limit).map view
      nextCursor := (fetched.take limit).getLast?.map token }
  else { items := fetched.map view, nextCursor := none }

/-- The pages from request `i` on, the first one with the cursor. -/
inductive ReadsFrom (fetch : Nat → Option γ → CursorPage β γ) :
    Nat → Option γ → List (CursorPage β γ) → Prop
  | last {i : Nat} {cursor : Option γ} (h : (fetch i cursor).nextCursor = none) :
      ReadsFrom fetch i cursor [fetch i cursor]
  | more {i : Nat} {cursor : Option γ} {c : γ} {pages : List (CursorPage β γ)}
      (h : (fetch i cursor).nextCursor = some c) (hrest : ReadsFrom fetch (i + 1) (some c) pages) :
      ReadsFrom fetch i cursor (fetch i cursor :: pages)

/-- The reader has no choice. -/
theorem ReadsFrom.unique {fetch : Nat → Option γ → CursorPage β γ} {i : Nat} {cursor : Option γ}
    {pages pages' : List (CursorPage β γ)} (h : ReadsFrom fetch i cursor pages)
    (h' : ReadsFrom fetch i cursor pages') : pages = pages' := by
  induction h generalizing pages' with
  | last hnone =>
      cases h' with
      | last _ => rfl
      | more hsome _ => cases hnone.symm.trans hsome
  | more hsome _ ih =>
      cases h' with
      | last hnone => cases hnone.symm.trans hsome
      | more hsome' hrest' =>
          obtain rfl := Option.some.inj (hsome.symm.trans hsome')
          rw [ih hrest']

/-! ## One page -/

section Page

variable [DecidableEq γ] {token : α → γ} {order : List α}

/-- Behind the row at place `p` are the rows from place `p + 1` on. -/
theorem seek_getElem? (hnodup : (order.map token).Nodup) {p : Nat} {r : α}
    (hr : order[p]? = some r) : seek token order (some (token r)) = order.drop (p + 1) := by
  induction order generalizing p with
  | nil => cases hr
  | cons first rest ih =>
      rw [List.map_cons, List.nodup_cons] at hnodup
      cases p with
      | zero =>
          obtain rfl : first = r := by simpa using hr
          simp [seek]
      | succ p =>
          rw [List.getElem?_cons_succ] at hr
          have hne : token first ≠ token r := by
            intro heq
            exact hnodup.1 (heq ▸ List.mem_map_of_mem (List.mem_of_getElem? hr))
          have hrest := ih hnodup.2 hr
          simp only [seek] at hrest ⊢
          rw [List.dropWhile_cons_of_pos (by simpa using hne), hrest, List.drop_succ_cons]

/-- The page that request `i` makes of its order. -/
def tiedFetch (token : α → γ) (view : α → β) (limit : Nat) (orders : Nat → List α) (i : Nat)
    (cursor : Option γ) : CursorPage β γ :=
  cursorPage token view limit ((seek token (orders i) cursor).take (limit + 1))

variable {limit i p : Nat} {orders : Nat → List α} {cursor : Option γ}

theorem tiedFetch_of_le (view : α → β) (hseek : seek token (orders i) cursor = (orders i).drop p)
    (hle : (orders i).length ≤ p + limit) :
    tiedFetch token view limit orders i cursor = ⟨((orders i).drop p).map view, none⟩ := by
  have hlength : ((orders i).drop p).length ≤ limit := by
    rw [List.length_drop]
    omega
  rw [tiedFetch, hseek, List.take_of_length_le (Nat.le_succ_of_le hlength), cursorPage,
    if_neg (by omega)]

theorem tiedFetch_of_lt (view : α → β) (hlimit : 0 < limit)
    (hseek : seek token (orders i) cursor = (orders i).drop p)
    (hlt : p + limit < (orders i).length) :
    ∃ r, (orders i)[p + limit - 1]? = some r ∧
      tiedFetch token view limit orders i cursor =
        ⟨(((orders i).drop p).take limit).map view, some (token r)⟩ := by
  have hmore : limit < (((orders i).drop p).take (limit + 1)).length := by
    rw [List.length_take, List.length_drop]
    omega
  have hplace : p + limit - 1 < (orders i).length := by omega
  refine ⟨(orders i)[p + limit - 1], List.getElem?_eq_getElem hplace, ?_⟩
  have hlast : (((orders i).drop p).take limit).getLast? = some (orders i)[p + limit - 1] := by
    rw [List.getLast?_take, if_neg (by omega), List.getElem?_drop,
      show p + (limit - 1) = p + limit - 1 by omega, List.getElem?_eq_getElem hplace]
    rfl
  rw [tiedFetch, hseek, cursorPage, if_pos hmore, List.take_take,
    Nat.min_eq_left (Nat.le_succ limit), hlast]
  rfl

end Page

/-! ## The orders of the rows -/

section Orders

variable [LinearOrder κ] {key : α → κ} {rows order order' : List α} {p : Nat} {r : α}

theorem OrderedBy.nodup_token {token : α → γ} (hrows : (rows.map token).Nodup)
    (h : OrderedBy key rows order) : (order.map token).Nodup :=
  (h.perm.map token).nodup_iff.mpr hrows

theorem OrderedBy.length_eq (h : OrderedBy key rows order) : order.length = rows.length :=
  h.perm.length_eq

/-- The ties are all that two orders differ in. -/
theorem OrderedBy.map_key_eq (h : OrderedBy key rows order) (h' : OrderedBy key rows order') :
    order.map key = order'.map key := by
  refine @List.Perm.eq_of_pairwise κ (fun a b => b ≤ a) _ _
    (fun a b _ _ hab hba => le_antisymm hba hab) ?_ ?_ ((h.perm.trans h'.perm.symm).map key)
  · exact List.pairwise_map.mpr h.descends
  · exact List.pairwise_map.mpr h'.descends

/-- The row at a place whose key it has to itself is there in every order. -/
theorem OrderedBy.getElem?_eq (h : OrderedBy key rows order) (h' : OrderedBy key rows order')
    (hr : order[p]? = some r) (hunique : ∀ r' ∈ rows, key r' = key r → r' = r) :
    order'[p]? = some r := by
  have hkeys := congrArg (fun keys => keys[p]?) (h.map_key_eq h')
  simp only [List.getElem?_map, hr, Option.map_some] at hkeys
  obtain ⟨r', hr', hkey⟩ := Option.map_eq_some_iff.mp hkeys.symm
  have hmem : r' ∈ rows := h'.perm.mem_iff.mp (List.mem_of_getElem? hr')
  rw [hr', hunique r' hmem hkey]

/-- Behind such a row are the rows with a smaller key. -/
theorem OrderedBy.drop_eq_filter (h : OrderedBy key rows order) (hnodup : rows.Nodup)
    (hr : order[p]? = some r) (hunique : ∀ r' ∈ rows, key r' = key r → r' = r) :
    order.drop (p + 1) = order.filter fun a => decide (key a < key r) := by
  obtain ⟨hp, hget⟩ := List.getElem?_eq_some_iff.mp hr
  have hsplit : order = order.take p ++ r :: order.drop (p + 1) := by
    rw [← hget, List.getElem_cons_drop, List.take_append_drop]
  have hdescends := h.descends
  have hnodup' : order.Nodup := h.perm.nodup_iff.mpr hnodup
  rw [hsplit] at hdescends hnodup'
  obtain ⟨-, hrest, hacross⟩ := List.pairwise_append.mp hdescends
  obtain ⟨hbelow, -⟩ := List.pairwise_cons.mp hrest
  have hsame : ∀ a ∈ order, key a = key r → a = r := fun a ha =>
    hunique a (h.perm.mem_iff.mp ha)
  have hbefore : (order.take p).filter (fun a => decide (key a < key r)) = [] := by
    rw [List.filter_eq_nil_iff]
    intro a ha hlt
    exact absurd (of_decide_eq_true hlt) (not_lt.mpr (hacross a ha r List.mem_cons_self))
  have hafter : (order.drop (p + 1)).filter (fun a => decide (key a < key r)) =
      order.drop (p + 1) := by
    rw [List.filter_eq_self]
    intro a ha
    refine decide_eq_true (lt_of_le_of_ne (hbelow a ha) fun heq => ?_)
    -- `r` would be there a second time
    have har : a = r := hsame a (List.mem_of_mem_drop ha) heq
    have hagain := (List.nodup_cons.mp (List.nodup_append.mp hnodup').2.1).1
    exact hagain (har ▸ ha)
  calc order.drop (p + 1)
      = (order.take p ++ r :: order.drop (p + 1)).filter fun a => decide (key a < key r) := by
        rw [List.filter_append, hbefore, List.nil_append, List.filter_cons_of_neg (by simp),
          hafter]
    _ = order.filter fun a => decide (key a < key r) := by rw [← hsplit]

/-- Two rows of one key may trade places. -/
theorem OrderedBy.swap [DecidableEq α] (h : OrderedBy key rows order) (hnodup : rows.Nodup)
    {r' : α} (hr : r ∈ rows) (hr' : r' ∈ rows) (hkey : key r' = key r) :
    OrderedBy key rows (order.map (Equiv.swap r r')) := by
  have hsame : ∀ a, key (Equiv.swap r r' a) = key a := by
    intro a
    rcases eq_or_ne a r with rfl | hne
    · rw [Equiv.swap_apply_left, hkey]
    · rcases eq_or_ne a r' with rfl | hne'
      · rw [Equiv.swap_apply_right, hkey]
      · rw [Equiv.swap_apply_of_ne_of_ne hne hne']
  have hmem : ∀ a ∈ rows, Equiv.swap r r' a ∈ rows := by
    intro a ha
    rcases eq_or_ne a r with rfl | hne
    · rw [Equiv.swap_apply_left]
      exact hr'
    · rcases eq_or_ne a r' with rfl | hne'
      · rw [Equiv.swap_apply_right]
        exact hr
      · rw [Equiv.swap_apply_of_ne_of_ne hne hne']
        exact ha
  have hnodup' : (order.map (Equiv.swap r r')).Nodup :=
    (h.perm.nodup_iff.mpr hnodup).map (Equiv.swap r r').injective
  refine ⟨(List.perm_ext_iff_of_nodup hnodup' hnodup).mpr fun a => ?_, ?_⟩
  · rw [List.mem_map]
    constructor
    · rintro ⟨b, hb, rfl⟩
      exact hmem b (h.perm.mem_iff.mp hb)
    · intro ha
      exact ⟨Equiv.swap r r' a, h.perm.mem_iff.mpr (hmem a ha), Equiv.swap_apply_self r r' a⟩
  · refine List.pairwise_map.mpr (h.descends.imp fun {a b} hab => ?_)
    rw [hsame, hsame]
    exact hab

end Orders

/-! ## The whole reading -/

section Reading

variable [LinearOrder κ] [DecidableEq γ] {key : α → κ} {token : α → γ} {view : α → β}
  {rows : List α} {limit : Nat} {orders : Nat → List α}

/-- The row at the end of each full page that has rows behind it has its key to itself. -/
def UniqueBoundaries (key : α → κ) (rows : List α) (limit : Nat) : Prop :=
  ∀ m, 1 ≤ m → m * limit < rows.length → ∀ order, OrderedBy key rows order →
    ∀ r, order[m * limit - 1]? = some r → ∀ r' ∈ rows, key r' = key r → r' = r

/-- However each request orders the ties, the reader comes to an end and has read every
row once. -/
def ReadsAll (key : α → κ) (token : α → γ) (view : α → β) (rows : List α) (limit : Nat) :
    Prop :=
  ∀ orders : Nat → List α, (∀ i, OrderedBy key rows (orders i)) →
    ∃ pages, ReadsFrom (tiedFetch token view limit orders) 0 none pages ∧
      (pages.flatMap CursorPage.items).Perm (rows.map view)

/-- The last page has all that is left. -/
theorem reads_last {i p : Nat} {cursor : Option γ}
    (hseek : seek token (orders i) cursor = (orders i).drop p)
    (hle : (orders i).length ≤ p + limit) :
    ∃ pages, ReadsFrom (tiedFetch token view limit orders) i cursor pages ∧
      pages.flatMap CursorPage.items = ((orders i).drop p).map view := by
  have hpage := tiedFetch_of_le view hseek hle
  refine ⟨_, .last (by rw [hpage]), ?_⟩
  rw [List.flatMap_singleton, hpage]

/-- A full page, and the pages behind its last row. -/
theorem reads_more {i p : Nat} {cursor : Option γ} {r : α} (hlimit : 0 < limit)
    (hseek : seek token (orders i) cursor = (orders i).drop p)
    (hlt : p + limit < (orders i).length) (hr : (orders i)[p + limit - 1]? = some r)
    {rest : List (CursorPage β γ)}
    (hrest : ReadsFrom (tiedFetch token view limit orders) (i + 1) (some (token r)) rest) :
    ∃ pages, ReadsFrom (tiedFetch token view limit orders) i cursor pages ∧
      pages.flatMap CursorPage.items =
        (((orders i).drop p).take limit).map view ++ rest.flatMap CursorPage.items := by
  obtain ⟨r', hr', hpage⟩ := tiedFetch_of_lt view hlimit hseek hlt
  obtain rfl : r = r' := Option.some.inj (hr.symm.trans hr')
  refine ⟨_, .more (by rw [hpage]) hrest, ?_⟩
  rw [List.flatMap_cons, hpage]

/-- While the boundaries are unique, request `m` goes on at place `m * limit` of any
order, and the reader gets what is left there. -/
theorem exists_reads (hlimit : 0 < limit) (htokens : (rows.map token).Nodup)
    (hunique : UniqueBoundaries key rows limit) (horders : ∀ i, OrderedBy key rows (orders i)) :
    ∀ left m cursor, rows.length ≤ m * limit + left →
      (∀ order, OrderedBy key rows order →
        seek token order cursor = order.drop (m * limit)) →
      ∃ pages, ReadsFrom (tiedFetch token view limit orders) m cursor pages ∧
        (pages.flatMap CursorPage.items).Perm (((orders m).drop (m * limit)).map view) := by
  have hnodup : rows.Nodup := List.Nodup.of_map token htokens
  intro left
  induction left with
  | zero =>
      intro m cursor hlength hseek
      have hle : (orders m).length ≤ m * limit + limit := by
        rw [(horders m).length_eq]
        omega
      obtain ⟨pages, hreads, hitems⟩ := reads_last (hseek _ (horders m)) hle
      exact ⟨pages, hreads, by rw [hitems]⟩
  | succ left ih =>
      intro m cursor hlength hseek
      by_cases hmore : m * limit + limit < rows.length
      · have hplace : m * limit + limit = (m + 1) * limit := (Nat.succ_mul m limit).symm
        obtain ⟨r, hr, -⟩ := tiedFetch_of_lt view hlimit (hseek _ (horders m))
          (by rw [(horders m).length_eq]; exact hmore)
        have hr' : (orders m)[(m + 1) * limit - 1]? = some r := by
          rw [← hplace]
          exact hr
        have hown : ∀ r' ∈ rows, key r' = key r → r' = r :=
          hunique (m + 1) (by omega) (by rw [← hplace]; exact hmore) _ (horders m) r hr'
        -- so the next request finds `r` at the same place, and behind it the same rows
        have hnext : ∀ order, OrderedBy key rows order →
            seek token order (some (token r)) = order.drop ((m + 1) * limit) := by
          intro order horder
          rw [seek_getElem? (horder.nodup_token htokens)
            ((horders m).getElem?_eq horder hr' hown)]
          congr 1
          omega
        obtain ⟨rest, hrest, hrestItems⟩ := ih (m + 1) (some (token r))
          (by rw [← hplace]; omega) hnext
        obtain ⟨pages, hreads, hitems⟩ := reads_more hlimit (hseek _ (horders m))
          (by rw [(horders m).length_eq]; exact hmore) hr hrest
        refine ⟨pages, hreads, ?_⟩
        have hsame : ((orders (m + 1)).drop ((m + 1) * limit)).Perm
            ((orders m).drop ((m + 1) * limit)) := by
          have hbehind := (horders m).drop_eq_filter hnodup hr' hown
          have hbehind' := (horders (m + 1)).drop_eq_filter hnodup
            ((horders m).getElem?_eq (horders (m + 1)) hr' hown) hown
          rw [show (m + 1) * limit - 1 + 1 = (m + 1) * limit by omega] at hbehind hbehind'
          rw [hbehind, hbehind']
          exact ((horders (m + 1)).perm.trans (horders m).perm.symm).filter _
        have hrejoin : ((orders m).drop (m * limit)).take limit ++
            (orders m).drop ((m + 1) * limit) = (orders m).drop (m * limit) := by
          rw [← hplace, ← List.drop_drop, List.take_append_drop]
        rw [hitems]
        refine ((hrestItems.trans (hsame.map view)).append_left _).trans (List.Perm.of_eq ?_)
        rw [← List.map_append, hrejoin]
      · have hle : (orders m).length ≤ m * limit + limit := by
          rw [(horders m).length_eq]
          omega
        obtain ⟨pages, hreads, hitems⟩ := reads_last (hseek _ (horders m)) hle
        exact ⟨pages, hreads, by rw [hitems]⟩

/-- A request order that stays the same is read to its end. -/
theorem exists_reads_const (hlimit : 0 < limit) {order : List α}
    (hnodup : (order.map token).Nodup) (left : Nat) :
    ∀ i p cursor, (∀ j, i ≤ j → orders j = order) → order.length ≤ p + left →
      seek token order cursor = order.drop p →
      ∃ pages, ReadsFrom (tiedFetch token view limit orders) i cursor pages ∧
        pages.flatMap CursorPage.items = (order.drop p).map view := by
  induction left with
  | zero =>
      intro i p cursor hconst hlength hseek
      rw [← hconst i (Nat.le_refl i)] at hseek hlength ⊢
      exact reads_last hseek (by omega)
  | succ left ih =>
      intro i p cursor hconst hlength hseek
      have hi := hconst i (Nat.le_refl i)
      by_cases hmore : p + limit < order.length
      · have hseek' : seek token (orders i) cursor = (orders i).drop p := by rw [hi, hseek]
        obtain ⟨r, hr, -⟩ := tiedFetch_of_lt view hlimit hseek' (by rw [hi]; exact hmore)
        have hbehind : seek token order (some (token r)) = order.drop (p + limit) := by
          rw [hi] at hr
          rw [seek_getElem? hnodup hr]
          congr 1
          omega
        obtain ⟨rest, hrest, hrestItems⟩ := ih (i + 1) (p + limit) (some (token r))
          (fun j hj => hconst j (by omega)) (by omega) hbehind
        obtain ⟨pages, hreads, hitems⟩ :=
          reads_more hlimit hseek' (by rw [hi]; exact hmore) hr hrest
        refine ⟨pages, hreads, ?_⟩
        rw [hitems, hrestItems, hi, ← List.drop_drop, ← List.map_append, List.take_append_drop]
      · rw [← hi] at hseek hmore ⊢
        exact reads_last hseek (by omega)

/-- The first `t + 1` requests see one order: they read it up to place `(d + t + 1) * limit`,
whatever comes then. -/
theorem exists_reads_along (hlimit : 0 < limit) {order : List α}
    (hnodup : (order.map token).Nodup) {r : α} (t : Nat) :
    ∀ d cursor, (∀ j, d ≤ j → j ≤ d + t → orders j = order) →
      (d + t + 1) * limit < order.length → order[(d + t + 1) * limit - 1]? = some r →
      seek token order cursor = order.drop (d * limit) →
      ∀ rest, ReadsFrom (tiedFetch token view limit orders) (d + t + 1) (some (token r)) rest →
        ∃ pages, ReadsFrom (tiedFetch token view limit orders) d cursor pages ∧
          pages.flatMap CursorPage.items =
            ((order.drop (d * limit)).take ((t + 1) * limit)).map view ++
              rest.flatMap CursorPage.items := by
  induction t with
  | zero =>
      intro d cursor hsame hlt hr hseek rest hrest
      have hd := hsame d (Nat.le_refl d) (Nat.le_refl d)
      have hplace : d * limit + limit = (d + 1) * limit := (Nat.succ_mul d limit).symm
      rw [Nat.add_zero] at hlt hr hrest
      rw [← hplace] at hlt hr
      rw [← hd] at hlt hr hseek ⊢
      rw [Nat.zero_add, Nat.one_mul]
      exact reads_more hlimit hseek hlt hr hrest
  | succ t ih =>
      intro d cursor hsame hlt hr hseek rest hrest
      have hd := hsame d (Nat.le_refl d) (Nat.le_add_right d _)
      have hplace : d * limit + limit = (d + 1) * limit := (Nat.succ_mul d limit).symm
      have hshift : d + (t + 1) + 1 = d + 1 + t + 1 := by omega
      rw [hshift] at hlt hr hrest
      have hmore : d * limit + limit < order.length := by
        have hle : (d + 1) * limit ≤ (d + 1 + t + 1) * limit :=
          Nat.mul_le_mul_right limit (by omega)
        omega
      have hseek' : seek token (orders d) cursor = (orders d).drop (d * limit) := by
        rw [hd, hseek]
      obtain ⟨r₀, hr₀, -⟩ := tiedFetch_of_lt view hlimit hseek' (by rw [hd]; exact hmore)
      have hbehind : seek token order (some (token r₀)) = order.drop ((d + 1) * limit) := by
        rw [hd] at hr₀
        rw [seek_getElem? hnodup hr₀]
        congr 1
        omega
      obtain ⟨pages', hreads', hitems'⟩ := ih (d + 1) (some (token r₀))
        (fun j hj hj' => hsame j (by omega) (by omega)) hlt hr hbehind rest hrest
      obtain ⟨pages, hreads, hitems⟩ :=
        reads_more hlimit hseek' (by rw [hd]; exact hmore) hr₀ hreads'
      refine ⟨pages, hreads, ?_⟩
      have htake : (order.drop (d * limit)).take ((t + 1 + 1) * limit) =
          (order.drop (d * limit)).take limit ++
            (order.drop ((d + 1) * limit)).take ((t + 1) * limit) := by
        rw [show (t + 1 + 1) * limit = limit + (t + 1) * limit by
          rw [Nat.succ_mul, Nat.add_comm], List.take_add, List.drop_drop, hplace]
      rw [hitems, hitems', hd, htake, List.map_append, List.append_assoc]

/-- If a boundary row shares its key, an order in which the two have traded places makes
the request behind the boundary go on at another place: rows are lost or come twice. -/
theorem not_readsAll (hlimit : 0 < limit) (htokens : (rows.map token).Nodup)
    {m : Nat} (hm : 1 ≤ m) (hlt : m * limit < rows.length) {order : List α}
    (horder : OrderedBy key rows order) {r r' : α} (hr : order[m * limit - 1]? = some r)
    (hr' : r' ∈ rows) (hkey : key r' = key r) (hne : r' ≠ r) :
    ¬ ReadsAll key token view rows limit := by
  classical
  intro hall
  have hnodup : rows.Nodup := List.Nodup.of_map token htokens
  have hrmem : r ∈ rows := horder.perm.mem_iff.mp (List.mem_of_getElem? hr)
  obtain ⟨t, rfl⟩ : ∃ t, m = t + 1 := ⟨m - 1, by omega⟩
  -- the first requests see one order, the others the one with the two rows exchanged
  let swapped := order.map (Equiv.swap r r')
  have hswapped : OrderedBy key rows swapped := horder.swap hnodup hrmem hr' hkey
  let orders : Nat → List α := fun i => if i ≤ t then order else swapped
  have hfirst : ∀ j, 0 ≤ j → j ≤ 0 + t → orders j = order := fun j _ hj =>
    if_pos (by omega)
  have hlater : ∀ j, t + 1 ≤ j → orders j = swapped := fun j hj => if_neg (by omega)
  obtain ⟨q, hq⟩ := List.mem_iff_getElem?.mp (horder.perm.mem_iff.mpr hr')
  have hqr : swapped[q]? = some r := by
    rw [List.getElem?_map, hq, Option.map_some, Equiv.swap_apply_right]
  have hplace : swapped.length ≤ q + 1 + swapped.length := by omega
  obtain ⟨rest, hrest, hrestItems⟩ := exists_reads_const hlimit
    (hswapped.nodup_token htokens) swapped.length (t + 1) (q + 1) (some (token r)) hlater hplace
    (seek_getElem? (hswapped.nodup_token htokens) hqr)
  have hlength := horder.length_eq
  obtain ⟨pages, hreads, hitems⟩ := exists_reads_along hlimit
    (horder.nodup_token htokens) t 0 none hfirst (by rw [Nat.zero_add, hlength]; exact hlt)
    (by rw [Nat.zero_add]; exact hr) (by simp [seek]) rest (by rw [Nat.zero_add]; exact hrest)
  have horders : ∀ i, OrderedBy key rows (orders i) := by
    intro i
    by_cases hi : i ≤ t
    · rw [show orders i = order from if_pos hi]
      exact horder
    · rw [show orders i = swapped from if_neg hi]
      exact hswapped
  obtain ⟨pages', hreads', hperm⟩ := hall orders horders
  obtain rfl := hreads.unique hreads'
  -- everything is read once only if `r` has kept its place
  have hcount := hperm.length_eq
  have hqlt : q < order.length := (List.getElem?_eq_some_iff.mp hq).1
  rw [hitems, hrestItems, List.length_append, List.length_map, List.length_map, List.length_map,
    List.length_take, List.length_drop, List.length_drop, hswapped.length_eq, hlength] at hcount
  have hsame : q = (t + 1) * limit - 1 := by
    have hmin : min ((t + 1) * limit) (rows.length - 0 * limit) = (t + 1) * limit := by
      rw [Nat.zero_mul, Nat.sub_zero]
      exact Nat.min_eq_left (Nat.le_of_lt hlt)
    rw [hmin] at hcount
    omega
  rw [hsame, hr] at hq
  exact hne (Option.some.inj hq).symm

/-- Paging by a key with ties is exact however each request orders them if and only if
no page ends within or at the end of a group of ties, the last page apart. -/
theorem readsAll_iff (hlimit : 0 < limit) (htokens : (rows.map token).Nodup) :
    ReadsAll key token view rows limit ↔ UniqueBoundaries key rows limit := by
  constructor
  · intro hall m hm hlt order horder r hr r' hr' hkey
    by_contra hne
    exact not_readsAll hlimit htokens hm hlt horder hr hr' hkey hne hall
  · intro hunique orders horders
    obtain ⟨pages, hreads, hperm⟩ := exists_reads hlimit htokens hunique horders rows.length 0
      none (by omega) (fun order _ => by simp [seek])
    refine ⟨pages, hreads, hperm.trans ?_⟩
    rw [Nat.zero_mul, List.drop_zero]
    exact (horders 0).perm.map view

end Reading

end Foundation
end Ctem
