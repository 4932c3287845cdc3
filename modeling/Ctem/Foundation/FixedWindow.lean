import Mathlib.Data.List.Basic
import Mathlib.Algebra.BigOperators.Group.List.Basic
import Mathlib.Algebra.GroupWithZero.Nat

/-!
# Fixed windows

A counter that the first use opens for a fixed time, and from which every use takes a token.  A
use may be repeated before its answer comes, and its answer may be lost.

* `granted_le`: in any stretch of time of the length of a window, at most twice the capacity is
  granted.
* `capacity_lt_takes`: a use that finds the counter empty comes behind more takes than the
  capacity, all of them less than the length of a window ago.
-/

namespace Ctem
namespace Foundation
namespace FixedWindow

/-- The tokens that are left, and the time at which the counter is gone. -/
structure Counter where
  left : Nat
  ends : Nat
deriving DecidableEq

/-- The counter that has not ended. -/
def alive (now : Nat) (w : Option Counter) : Option Counter :=
  w.filter fun c => decide (now < c.ends)

theorem alive_some (now : Nat) (c : Counter) :
    alive now (some c) = if now < c.ends then some c else none := by
  rw [alive, Option.filter_some]
  simp only [decide_eq_true_eq]

/-- How often a use is carried out, and whether the last answer arrives. -/
structure Use where
  takes : Nat
  answered : Bool
deriving DecidableEq

variable (capacity length : Nat)

/-- One token: the counter behind it and what is left, or nothing from an empty counter. -/
def take (now : Nat) : Option Counter → Counter × Option Nat
  | none => (⟨capacity - 1, now + length⟩, some (capacity - 1))
  | some c => if c.left = 0 then (c, none) else (⟨c.left - 1, c.ends⟩, some (c.left - 1))

/-- Some takes at one time, with the answer of the last one. -/
def takeAll (now : Nat) : Nat → Option Counter → Option (Option Nat) →
    Option Counter × Option (Option Nat)
  | 0, w, last => (w, last)
  | n + 1, w, _ =>
      takeAll now n (some (take capacity length now w).1) (some (take capacity length now w).2)

/-- A use at a time; without an answer there is nothing to go by. -/
def serve (now : Nat) (w : Option Counter) (u : Use) : Option Counter × Option (Option Nat) :=
  let r := takeAll capacity length now u.takes (alive now w) none
  (r.1, if u.answered then r.2 else none)

/-- The answers to uses at their times. -/
def answers : Option Counter → List (Nat × Use) → List (Option (Option Nat))
  | _, [] => []
  | w, (now, u) :: rest =>
      (serve capacity length now w u).2 :: answers (serve capacity length now w u).1 rest

/-- The answer is a token. -/
def isGranted (answer : Option (Option Nat)) : Bool := (answer.bind id).isSome

/-- The uses between two times that got a token. -/
def granted (since till : Nat) (w : Option Counter) (uses : List (Nat × Use)) : Nat :=
  (uses.zip (answers capacity length w uses)).countP fun p =>
    decide (since ≤ p.1.1) && decide (p.1.1 < till) && isGranted p.2

/-- The takes from a time on. -/
def takesSince (since : Nat) (uses : List (Nat × Use)) : Nat :=
  ((uses.filter fun p => decide (since ≤ p.1)).map fun p => p.2.takes).sum

/-- The uses come one after the other. -/
def Chronological (now : Nat) : List (Nat × Use) → Prop
  | [] => True
  | (t, _) :: rest => now ≤ t ∧ Chronological t rest

/-! ## What a use does -/

/-- What is left of a counter that has been opened. -/
inductive Took (now : Nat) (w : Option Counter) (n : Nat) : Option Counter → Prop
  | none (hn : n = 0) : Took now w n w
  | opened (hw : w = none) (hn : 0 < n) :
      Took now w n (some ⟨capacity - n, now + length⟩)
  | taken (c : Counter) (hw : w = some c) : Took now w n (some ⟨c.left - n, c.ends⟩)

variable {capacity length}

theorem takeAll_some (now : Nat) : ∀ (n : Nat) (c : Counter) (last : Option (Option Nat)),
    (takeAll capacity length now n (some c) last).1 = some ⟨c.left - n, c.ends⟩ ∧
      (0 < n → (takeAll capacity length now n (some c) last).2 =
        some (if n ≤ c.left then some (c.left - n) else none))
  | 0, c, last => ⟨rfl, fun h => absurd h (Nat.lt_irrefl 0)⟩
  | n + 1, c, last => by
      have ih := takeAll_some now n (take capacity length now (some c)).1
        (some (take capacity length now (some c)).2)
      rw [takeAll]
      by_cases hempty : c.left = 0
      · have htake : take capacity length now (some c) = (c, none) := by simp [take, hempty]
        rw [htake] at ih ⊢
        refine ⟨by rw [ih.1]; simp [hempty], fun _ => ?_⟩
        cases n with
        | zero => simp [takeAll, hempty]
        | succ n => rw [ih.2 (Nat.succ_pos n)]; simp [hempty]
      · have htake : take capacity length now (some c) =
            (⟨c.left - 1, c.ends⟩, some (c.left - 1)) := by simp [take, hempty]
        rw [htake] at ih ⊢
        refine ⟨by rw [ih.1]; simp only [Option.some.injEq, Counter.mk.injEq, and_true]; omega,
          fun _ => ?_⟩
        cases n with
        | zero =>
            have hone : 0 + 1 ≤ c.left := by omega
            simp [takeAll, hone]
        | succ n =>
            rw [ih.2 (Nat.succ_pos n)]
            by_cases hn : n + 1 + 1 ≤ c.left
            · have hn' : n + 1 ≤ c.left - 1 := by omega
              simp only [hn, hn', if_true, Option.some.injEq]
              omega
            · have hn' : ¬ n + 1 ≤ c.left - 1 := by omega
              simp only [hn, hn', if_false]

/-- The counter and the answer behind a number of takes. -/
theorem takeAll_fst (now n : Nat) (w : Option Counter) :
    Took capacity length now w n (takeAll capacity length now n w none).1 := by
  cases w with
  | some c =>
      rw [(takeAll_some now n c none).1]
      exact .taken c rfl
  | none =>
      cases n with
      | zero => exact .none rfl
      | succ n =>
          rw [takeAll, (takeAll_some now n _ _).1]
          have hleft : (take capacity length now none).1.left - n = capacity - (n + 1) := by
            show capacity - 1 - n = _
            omega
          rw [hleft]
          exact .opened rfl (Nat.succ_pos n)

/-- A token comes from a counter that has one, or from one that is opened for it. -/
theorem takeAll_granted {now n : Nat} {w : Option Counter}
    (h : isGranted (takeAll capacity length now n w none).2 = true) :
    0 < n ∧ ∀ c, w = some c → n ≤ c.left := by
  cases n with
  | zero => cases h
  | succ n =>
      refine ⟨Nat.succ_pos n, ?_⟩
      rintro c rfl
      rw [(takeAll_some now (n + 1) c none).2 (Nat.succ_pos n)] at h
      by_cases hn : n + 1 ≤ c.left
      · exact hn
      · simp [hn, isGranted] at h

/-! ## How much is granted -/

/-- What may still be granted from `since` on for the length of a window. -/
def potential (capacity length since now : Nat) (w : Option Counter) : Nat :=
  if since + length ≤ now then 0
  else
    match w with
    | none => if since ≤ now then capacity else 2 * capacity
    | some c =>
        if c.ends ≤ since then 2 * capacity
        else if c.ends < since + length then c.left + capacity
        else c.left

/-- Time that passes does not add to it. -/
theorem potential_alive {since now t : Nat} (h : now ≤ t) (w : Option Counter) :
    potential capacity length since t (alive t w) ≤ potential capacity length since now w := by
  unfold potential
  by_cases hover : since + length ≤ t
  · rw [if_pos hover]
    exact Nat.zero_le _
  have hnow : ¬ since + length ≤ now := by omega
  rw [if_neg hover, if_neg hnow]
  cases w with
  | none =>
      show (if since ≤ t then capacity else 2 * capacity) ≤ _
      simp only
      split <;> split <;> omega
  | some c =>
      rw [alive_some]
      by_cases halive : t < c.ends
      · refine Nat.le_of_eq ?_
        rw [if_pos halive]
      · rw [if_neg halive]
        simp only
        split <;> split <;> (try split) <;> omega

/-- A use adds nothing to it, and a token that is granted comes out of it. -/
theorem potential_serve (hpositive : 0 < capacity) {since now : Nat} (w : Option Counter)
    (u : Use) :
    potential capacity length since now (serve capacity length now w u).1 ≤
        potential capacity length since now (alive now w) ∧
      (since ≤ now → now < since + length → isGranted (serve capacity length now w u).2 = true →
        potential capacity length since now (serve capacity length now w u).1 + 1 ≤
          potential capacity length since now (alive now w)) := by
  have hgranted : isGranted (serve capacity length now w u).2 = true →
      0 < u.takes ∧ ∀ c, alive now w = some c → u.takes ≤ c.left := by
    unfold serve
    cases u.answered with
    | false => exact fun h => by cases h
    | true => exact takeAll_granted
  have htook : Took capacity length now (alive now w) u.takes
      (serve capacity length now w u).1 := takeAll_fst now u.takes (alive now w)
  have hends : ∀ c, alive now w = some c → now < c.ends := by
    intro c hc
    exact of_decide_eq_true (Option.filter_eq_some_iff.mp hc).2
  generalize alive now w = before at *
  generalize (serve capacity length now w u).1 = behind at *
  by_cases hover : since + length ≤ now
  · refine ⟨by simp [potential, hover], fun _ hnot _ => absurd hnot (by omega)⟩
  cases htook with
  | none hn => exact ⟨Nat.le_refl _, fun _ _ h => absurd (hgranted h).1 (by omega)⟩
  | opened hw hn =>
      subst hw
      unfold potential
      rw [if_neg hover, if_neg hover]
      simp only
      refine ⟨?_, fun hsince hbefore _ => ?_⟩
      · split <;> (try split) <;> (try split) <;> omega
      · rw [if_neg (by omega), if_neg (by omega), if_pos hsince]
        have hcap := hpositive
        omega
  | taken c hw =>
      subst hw
      unfold potential
      rw [if_neg hover, if_neg hover]
      simp only
      refine ⟨?_, fun hsince hbefore h => ?_⟩
      · split <;> (try split) <;> omega
      · have hpos := (hgranted h).1
        have hleft := (hgranted h).2 c rfl
        have hnow := hends c rfl
        split
        · omega
        · split <;> omega

theorem granted_cons (since till t : Nat) (w : Option Counter) (u : Use)
    (rest : List (Nat × Use)) :
    granted capacity length since till w ((t, u) :: rest) =
      granted capacity length since till (serve capacity length t w u).1 rest +
        if since ≤ t ∧ t < till ∧ isGranted (serve capacity length t w u).2 = true then 1
        else 0 := by
  simp [granted, answers, List.countP_cons, and_assoc]

theorem granted_le_potential (hpositive : 0 < capacity) (since : Nat) :
    ∀ (uses : List (Nat × Use)) (now : Nat) (w : Option Counter), Chronological now uses →
      granted capacity length since (since + length) w uses ≤
        potential capacity length since now w
  | [], now, w, _ => Nat.zero_le _
  | (t, u) :: rest, now, w, h => by
      have hpassed := @potential_alive capacity length since now t h.1 w
      have hserve := @potential_serve capacity length hpositive since t w u
      have hrest := granted_le_potential hpositive since rest t
        (serve capacity length t w u).1 h.2
      rw [granted_cons]
      split
      · rename_i hcount
        have hone := hserve.2 hcount.1 hcount.2.1 hcount.2.2
        omega
      · omega

/-- **At most twice the capacity is granted** in the length of a window, from the first use on. -/
theorem granted_le (hpositive : 0 < capacity) (since now : Nat) {uses : List (Nat × Use)}
    (h : Chronological now uses) :
    granted capacity length since (since + length) none uses ≤ 2 * capacity := by
  refine Nat.le_trans (granted_le_potential hpositive since uses now none h) ?_
  unfold potential
  split
  · exact Nat.zero_le _
  · simp only
    split <;> omega

/-! ## What stands behind a refusal -/

/-- The tokens that are gone were taken since the counter was opened. -/
def Accounted (capacity length now : Nat) (past : List (Nat × Use)) (w : Option Counter) : Prop :=
  ∀ c, w = some c → length ≤ c.ends ∧ c.ends ≤ now + length ∧
    capacity ≤ c.left + takesSince (c.ends - length) past

theorem takesSince_append (since : Nat) (past later : List (Nat × Use)) :
    takesSince since (past ++ later) = takesSince since past + takesSince since later := by
  simp [takesSince]

theorem takesSince_single {since t : Nat} (h : since ≤ t) (u : Use) :
    takesSince since [(t, u)] = u.takes := by
  simp [takesSince, h]

theorem takesSince_mono {since since' : Nat} (h : since ≤ since') (uses : List (Nat × Use)) :
    takesSince since' uses ≤ takesSince since uses := by
  induction uses with
  | nil => exact Nat.le_refl _
  | cons p rest ih =>
      unfold takesSince at ih ⊢
      rw [List.filter_cons, List.filter_cons]
      by_cases hlate : since' ≤ p.1
      · have hearly : since ≤ p.1 := by omega
        simp only [hlate, hearly, decide_true, if_true, List.map_cons, List.sum_cons]
        omega
      · simp only [hlate, decide_false, Bool.false_eq_true, if_false]
        split
        · rw [List.map_cons, List.sum_cons]
          omega
        · exact ih

/-- Takes are accounted for when they are made. -/
theorem accounted_serve {past : List (Nat × Use)} {w : Option Counter} {now t : Nat} (u : Use)
    (h : Accounted capacity length now past w) (hnow : now ≤ t) :
    Accounted capacity length t (past ++ [(t, u)]) (serve capacity length t w u).1 := by
  have halive : Accounted capacity length now past (alive t w) := fun c hc =>
    h c (Option.filter_eq_some_iff.mp hc).1
  have htook : Took capacity length t (alive t w) u.takes
      (serve capacity length t w u).1 := takeAll_fst t u.takes (alive t w)
  generalize alive t w = before at *
  generalize (serve capacity length t w u).1 = behind at *
  intro c hc
  rw [takesSince_append]
  cases htook with
  | none hn =>
      have hbefore := halive c hc
      omega
  | opened hw hn =>
      rw [← Option.some.inj hc]
      simp only
      rw [Nat.add_sub_cancel, takesSince_single (Nat.le_refl t)]
      omega
  | taken d hw =>
      have hbefore := halive d hw
      rw [← Option.some.inj hc]
      simp only
      rw [takesSince_single (by omega)]
      omega

/-- A use that is refused found fewer tokens than it took. -/
theorem serve_refused {now : Nat} {w : Option Counter} {u : Use}
    (h : (serve capacity length now w u).2 = some none) :
    capacity < u.takes ∨ ∃ c, alive now w = some c ∧ c.left < u.takes := by
  unfold serve at h
  simp only at h
  split at h
  case isFalse => cases h
  case isTrue =>
    cases htakes : u.takes with
    | zero =>
        rw [htakes] at h
        cases h
    | succ n =>
        rw [htakes] at h
        cases halive : alive now w with
        | some c =>
            rw [halive, (takeAll_some now (n + 1) c none).2 (Nat.succ_pos n)] at h
            refine Or.inr ⟨c, rfl, ?_⟩
            by_cases hn : n + 1 ≤ c.left
            · simp [hn] at h
            · omega
        | none =>
            rw [halive, takeAll] at h
            cases n with
            | zero => simp [takeAll, take] at h
            | succ n =>
                rw [(takeAll_some now (n + 1) _ _).2 (Nat.succ_pos n)] at h
                by_cases hn : n + 1 ≤ capacity - 1
                · simp [take, hn] at h
                · exact Or.inl (by omega)

/-- **Behind a refusal are more takes than the capacity**, all less than the length of a window
ago. -/
theorem capacity_lt_takes (hlength : 0 < length) : ∀ (before past : List (Nat × Use))
    (w : Option Counter) (now t : Nat) (u : Use) (later : List (Nat × Use)),
    Accounted capacity length now past w →
    Chronological now (before ++ (t, u) :: later) →
    (answers capacity length w (before ++ (t, u) :: later))[before.length]? = some (some none) →
    capacity < takesSince (t + 1 - length) (past ++ (before ++ [(t, u)]))
  | [], past, w, now, t, u, later, hacc, hchron, hanswer => by
      have hrefused : (serve capacity length t w u).2 = some none := Option.some.inj hanswer
      rw [List.nil_append, takesSince_append, takesSince_single (by omega)]
      obtain hmany | ⟨c, hc, hleft⟩ := serve_refused hrefused
      · omega
      · obtain ⟨hc, halive⟩ := Option.filter_eq_some_iff.mp hc
        have hends := of_decide_eq_true halive
        obtain ⟨hlength, -, htaken⟩ := hacc c hc
        have hmono := takesSince_mono (show t + 1 - length ≤ c.ends - length by omega) past
        omega
  | (t', u') :: before, past, w, now, t, u, later, hacc, hchron, hanswer => by
      have hrest := capacity_lt_takes hlength before (past ++ [(t', u')])
        (serve capacity length t' w u').1 t' t u later (accounted_serve u' hacc hchron.1) hchron.2
        hanswer
      rwa [List.append_assoc] at hrest

/-! ## Answers -/

theorem takeAll_isSome (now n : Nat) (w : Option Counter) (last : Option (Option Nat))
    (h : 0 < n ∨ last.isSome = true) : (takeAll capacity length now n w last).2.isSome = true := by
  induction n generalizing w last with
  | zero => exact h.resolve_left (Nat.lt_irrefl 0)
  | succ n ih => exact ih _ _ (.inr rfl)

/-- A use that is carried out and answered has an answer. -/
theorem answers_isSome : ∀ (before : List (Nat × Use)) (w : Option Counter) (t : Nat) (u : Use)
    (later : List (Nat × Use)), u.answered = true → 0 < u.takes →
    ∃ left, (answers capacity length w (before ++ (t, u) :: later))[before.length]? =
      some (some left)
  | [], w, t, u, later, hanswered, htakes => by
      have hsome := @takeAll_isSome capacity length t u.takes (alive t w) none (.inl htakes)
      obtain ⟨left, hleft⟩ := Option.isSome_iff_exists.mp hsome
      refine ⟨left, ?_⟩
      show some (if u.answered then _ else none) = _
      rw [hanswered, if_pos rfl, hleft]
  | (t', u') :: before, w, t, u, later, hanswered, htakes =>
      answers_isSome before (serve capacity length t' w u').1 t u later hanswered htakes

end FixedWindow
end Foundation
end Ctem
