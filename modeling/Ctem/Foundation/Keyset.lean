import Mathlib.Data.List.Basic
import Mathlib.Order.Lattice
import Mathlib.Tactic.Cases

/-!
# Keyset paging

Rows in strictly descending order of a key are handed out in pages: a page has the first rows
behind a position, and names the position of its last row where there are more.  A reader
follows the positions from page to page, until a page names none.

* `Follows` is the reader: the pages from a cursor on, to the one without a next cursor.
* `IsPage` says what a page has of the rows that remain.
* `exists_follows`: the reader comes to an end, and has read every row once and in order.
-/

namespace Ctem
namespace Foundation

universe u v w

section Rows

variable {α : Type u} {κ : Type v} [LinearOrder κ] {key : α → κ}

/-- The keys of the rows descend, so none occurs twice. -/
def Descending (key : α → κ) (rows : List α) : Prop :=
  rows.Pairwise fun a b => key b < key a

/-- The rows behind a position. -/
def rowsBehind (key : α → κ) (rows : List α) (position : κ) : List α :=
  rows.filter fun a => decide (key a < position)

/-- Behind the position of a row are the rows that follow it. -/
theorem rowsBehind_row {before after : List α} {r : α}
    (hdesc : Descending key (before ++ r :: after)) :
    rowsBehind key (before ++ r :: after) (key r) = after := by
  obtain ⟨-, hrest, hacross⟩ := List.pairwise_append.mp hdesc
  obtain ⟨hbelow, -⟩ := List.pairwise_cons.mp hrest
  have hbefore : before.filter (fun a => decide (key a < key r)) = [] := by
    rw [List.filter_eq_nil_iff]
    intro a ha hlt
    exact lt_asymm (hacross a ha r List.mem_cons_self) (of_decide_eq_true hlt)
  have hafter : after.filter (fun a => decide (key a < key r)) = after := by
    rw [List.filter_eq_self]
    exact fun a ha => decide_eq_true (hbelow a ha)
  unfold rowsBehind
  rw [List.filter_append, hbefore, List.nil_append, List.filter_cons,
    if_neg (by simp), hafter]

end Rows

section Pages

variable {ε : Type} {π : Type} {γ : Type}

/-- The pages a reader meets from a cursor on. -/
inductive Follows (fetch : Option γ → Except ε π) (next : π → Option γ) :
    Option γ → List π → Prop
  | last {cursor : Option γ} {page : π} (hfetch : fetch cursor = .ok page)
      (hnext : next page = none) : Follows fetch next cursor [page]
  | more {cursor : Option γ} {page : π} {c : γ} {pages : List π}
      (hfetch : fetch cursor = .ok page) (hnext : next page = some c)
      (hrest : Follows fetch next (some c) pages) : Follows fetch next cursor (page :: pages)

variable {fetch : Option γ → Except ε π} {next : π → Option γ} {cursor : Option γ}
  {pages pages' : List π}

/-- A reader has no choice. -/
theorem Follows.unique (h : Follows fetch next cursor pages)
    (h' : Follows fetch next cursor pages') : pages = pages' := by
  induction h generalizing pages' with
  | last hfetch hnext =>
      cases h' with
      | last hfetch' hnext' => rw [Except.ok.inj (hfetch.symm.trans hfetch')]
      | more hfetch' hnext' hrest' =>
          obtain rfl := Except.ok.inj (hfetch.symm.trans hfetch')
          cases hnext.symm.trans hnext'
  | more hfetch hnext _ ih =>
      cases h' with
      | last hfetch' hnext' =>
          obtain rfl := Except.ok.inj (hfetch.symm.trans hfetch')
          cases hnext.symm.trans hnext'
      | more hfetch' hnext' hrest' =>
          obtain rfl := Except.ok.inj (hfetch.symm.trans hfetch')
          obtain rfl := Option.some.inj (hnext.symm.trans hnext')
          rw [ih hrest']

/-- The last page is the one without a next cursor. -/
theorem Follows.next_eq_none_iff (h : Follows fetch next cursor pages) {before after : List π}
    {page : π} (hsplit : pages = before ++ page :: after) : next page = none ↔ after = [] := by
  induction h generalizing before with
  | last hfetch hnext =>
      cases before with
      | nil =>
          obtain ⟨rfl, rfl⟩ := List.cons.inj hsplit
          simp [hnext]
      | cons first before => exact absurd (List.cons.inj hsplit).2 (by simp)
  | more hfetch hnext hrest ih =>
      cases before with
      | nil =>
          obtain ⟨rfl, rfl⟩ := List.cons.inj hsplit
          rw [hnext]
          constructor
          · exact fun hnone => absurd hnone (by simp)
          · rintro rfl
            cases hrest
      | cons first before => exact ih (List.cons.inj hsplit).2

end Pages

section Reading

variable {ε : Type} {π : Type} {γ : Type} {α : Type u} {β : Type v} {κ : Type w} [LinearOrder κ]

/-- A page of the rows that remain: the first ones, with the cursor of the last of them if
there are more. -/
structure IsPage (items : π → List β) (next : π → Option γ) (view : α → β) (token : α → γ)
    (limit : Nat) (remaining : List α) (page : π) : Prop where
  items_eq : items page = (remaining.take limit).map view
  next_eq : next page =
    if limit < remaining.length then (remaining.take limit).getLast?.map token else none

variable {key : α → κ} {rows : List α} {items : π → List β} {next : π → Option γ} {view : α → β}
  {token : α → γ} {limit : Nat} {fetch : Option γ → Except ε π}

/-- **Every row once.**  If each page has the rows behind its cursor, the pages that follow one
another from the start have all rows, in order. -/
theorem exists_follows (hdesc : Descending key rows) (hlimit : 0 < limit)
    (hfirst : ∃ page, fetch none = .ok page ∧ IsPage items next view token limit rows page)
    (hbehind : ∀ r ∈ rows, ∃ page, fetch (some (token r)) = .ok page ∧
      IsPage items next view token limit (rowsBehind key rows (key r)) page) :
    ∃ pages, Follows fetch next none pages ∧ pages.flatMap items = rows.map view := by
  have hreads : ∀ (n : Nat) (before remaining : List α) (cursor : Option γ),
      remaining.length ≤ n → rows = before ++ remaining →
      (∃ page, fetch cursor = .ok page ∧ IsPage items next view token limit remaining page) →
      ∃ pages, Follows fetch next cursor pages ∧ pages.flatMap items = remaining.map view := by
    intro n
    induction n with
    | zero =>
        intro before remaining cursor hlength _ hpage
        obtain ⟨page, hfetch, hitems, hnext⟩ := hpage
        obtain rfl : remaining = [] := List.length_eq_zero_iff.mp (Nat.le_zero.mp hlength)
        refine ⟨[page], .last hfetch (hnext.trans (if_neg (Nat.not_lt_zero limit))), ?_⟩
        rw [List.flatMap_singleton, hitems, List.take_nil]
    | succ n ih =>
        intro before remaining cursor hlength hrows hpage
        obtain ⟨page, hfetch, hitems, hnext⟩ := hpage
        by_cases hmore : limit < remaining.length
        · have hne : remaining.take limit ≠ [] := by
            intro hempty
            have htake := List.length_take_of_le (Nat.le_of_lt hmore)
            rw [hempty, List.length_nil] at htake
            omega
          obtain ⟨first, r, hlast⟩ :=
            (List.eq_nil_or_concat (remaining.take limit)).resolve_left hne
          rw [List.concat_eq_append] at hlast
          have hremaining := (List.take_append_drop limit remaining).symm
          rw [hlast, List.append_assoc, List.singleton_append] at hremaining
          have hsplit : rows = (before ++ first) ++ r :: remaining.drop limit := by
            rw [List.append_assoc, ← hremaining]
            exact hrows
          have hr : r ∈ rows := by
            rw [hsplit]
            simp
          -- behind the last row of the page are the rows that remain after it
          have hrest : rowsBehind key rows (key r) = remaining.drop limit := by
            rw [hsplit] at hdesc ⊢
            exact rowsBehind_row hdesc
          have hcursor : next page = some (token r) := by
            rw [hnext, if_pos hmore, hlast, List.getLast?_concat]
            rfl
          obtain ⟨pages, hfollows, hall⟩ := ih ((before ++ first) ++ [r]) (remaining.drop limit)
            (some (token r)) (by rw [List.length_drop]; omega) (by rw [hsplit]; simp)
            (hrest ▸ hbehind r hr)
          refine ⟨page :: pages, .more hfetch hcursor hfollows, ?_⟩
          rw [List.flatMap_cons, hall, hitems, ← List.map_append, List.take_append_drop]
        · refine ⟨[page], .last hfetch (hnext.trans (if_neg hmore)), ?_⟩
          rw [List.flatMap_singleton, hitems, List.take_of_length_le (Nat.not_lt.mp hmore)]
  exact hreads rows.length [] rows none (Nat.le_refl _) rfl hfirst

end Reading

end Foundation
end Ctem
