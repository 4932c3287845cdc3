import Ctem.Policy.Operations

/-!
# The due date of a finding that is reported again

Every report of a finding ends in an evaluation, and every evaluation whose policy has hours
sets the due date to its own time plus these hours; a date that moves later takes the breach
alert back.

`SlaRun` is the database with two history variables for one finding: the time of its first
evaluation, and whether its alert was claimed since.  `due_kept_iff`: while the finding stays
open and its first matching policy the same, its due date stays at the first evaluation plus
the hours, and its alert claimed, precisely when all evaluations take place at one time.
-/

namespace Ctem
namespace Policy

open Foundation Contracts Findings

structure SlaRun where
  st : PolicyDb
  /-- The time of the first evaluation. -/
  first : Option Timestamp := none
  /-- The alert has been claimed since. -/
  notified : Bool := false

namespace SlaRun

section Finding

variable (orgId : OrgId) (findingId : Uuid)

/-- The finding is there, in an open state. -/
def findingOpen (st : PolicyDb) : Bool :=
  (st.db.findById orgId findingId).any fun r => r.state.unresolved

/-- Its breach alert is claimed. -/
def claimed (st : PolicyDb) : Bool :=
  ((st.db.findById orgId findingId).bind FindingRow.slaNotifiedAt).isSome

/-- The time of an evaluation of the finding. -/
def evaluatedAt : PolicyDbEvent → Option Timestamp
  | .evaluate orgId' findingId' now =>
      if orgId' = orgId ∧ findingId' = findingId then some now else none
  | _ => none

def step (s : SlaRun) (e : PolicyDbEvent) : SlaRun where
  st := s.st.step e
  first := s.first.or (evaluatedAt orgId findingId e)
  notified := s.notified || ((s.first.or (evaluatedAt orgId findingId e)).isSome &&
    claimed orgId findingId (s.st.step e))

/-- The finding stays open, and whenever it is evaluated the first policy that matches it is
the one with that id and those hours. -/
def system (policyId : Uuid) (hours : Nat) : System SlaRun PolicyDbEvent where
  step := step orgId findingId
  allowed := fun s e => findingOpen orgId findingId (s.st.step e) = true ∧
    ∀ now, evaluatedAt orgId findingId e = some now →
      (matchedPolicy s.st orgId findingId now).map (fun p => (p.id, p.slaHours)) =
        some (policyId, some hours)

/-- The due date is that of the first evaluation, and an alert that was claimed is claimed. -/
def DueKept (hours : Nat) (s : SlaRun) : Prop :=
  ∀ r, s.st.db.findById orgId findingId = some r →
    (∀ first, s.first = some first → r.slaDueAt = some (first + hours * 3600000)) ∧
      (s.notified = true → r.slaNotifiedAt ≠ none)

/-- An evaluation takes place at the time of the first. -/
def AtFirst (s : SlaRun) (e : PolicyDbEvent) : Prop :=
  ∀ first now, s.first = some first → evaluatedAt orgId findingId e = some now → now = first

end Finding

variable {orgId : OrgId} {findingId : Uuid}

theorem findingOpen_iff {st : PolicyDb} : findingOpen orgId findingId st = true ↔
    ∃ r, st.db.findById orgId findingId = some r ∧ r.state.unresolved = true := by
  unfold findingOpen
  rw [Option.any_eq_true]

theorem isFinding_of_findById {st : PolicyDb} {r : FindingRow}
    (hr : st.db.findById orgId findingId = some r) : isFinding orgId findingId r = true :=
  List.find?_some hr

/-- Events other than its evaluation leave the due date of an open finding that stays open,
and take no claim back. -/
theorem rowAfter_keeps {st : PolicyDb} {r : FindingRow} {e : PolicyDbEvent}
    (hr : st.db.findById orgId findingId = some r) (hopen : r.state.unresolved = true)
    (hstays : (rowAfter st r e).state.unresolved = true)
    (hnot : evaluatedAt orgId findingId e = none) :
    (rowAfter st r e).slaDueAt = r.slaDueAt ∧
      (r.slaNotifiedAt ≠ none → (rowAfter st r e).slaNotifiedAt ≠ none) := by
  cases e with
  | upsert orgId' payload row seenAt id =>
      unfold rowAfter
      simp only
      split
      · refine ⟨rfl, fun hset => ?_⟩
        change (if r.state = .resolved then none else r.slaNotifiedAt) ≠ none
        rw [if_neg (unresolved_ne_resolved hopen)]
        exact hset
      · exact ⟨rfl, fun hset => hset⟩
  | close orgId' payload fingerprints seenAt =>
      unfold rowAfter at hstays ⊢
      simp only at hstays ⊢
      split at hstays
      · cases hstays
      · rename_i hselected
        rw [if_neg hselected]
        exact ⟨rfl, fun hset => hset⟩
  | triage orgId' findingId' state now =>
      unfold rowAfter at hstays ⊢
      simp only at hstays ⊢
      split at hstays
      · rename_i hselected
        rw [if_pos hselected]
        have hstate : state.unresolved = true := hstays
        refine ⟨rfl, fun hset => ?_⟩
        change (if state = .resolved then none else r.slaNotifiedAt) ≠ none
        rw [if_neg (unresolved_ne_resolved hstate)]
        exact hset
      · rename_i hselected
        rw [if_neg hselected]
        exact ⟨rfl, fun hset => hset⟩
  | rescore orgId' findingId' riskScore =>
      unfold rowAfter
      simp only
      split
      · exact ⟨rfl, fun hset => hset⟩
      · exact ⟨rfl, fun hset => hset⟩
  | evaluate orgId' findingId' now =>
      -- the evaluation is of another finding
      have hother : isFinding orgId' findingId' r = false := by
        have hkeys := isFinding_of_findById hr
        unfold isFinding at hkeys ⊢
        simp only [Bool.and_eq_true, decide_eq_true_eq] at hkeys
        rw [hkeys.1, hkeys.2, ← Bool.not_eq_true]
        simp only [Bool.and_eq_true, decide_eq_true_eq]
        rintro ⟨rfl, rfl⟩
        simp [evaluatedAt] at hnot
      unfold rowAfter
      simp only
      split
      · exact ⟨rfl, fun hset => hset⟩
      · exact ⟨rfl, fun hset => hset⟩
      · rw [hother]
        exact ⟨rfl, fun hset => hset⟩
  | claim orgId' findingId' now =>
      unfold rowAfter
      simp only
      split
      · exact ⟨rfl, fun _ => Option.some_ne_none now⟩
      · exact ⟨rfl, fun hset => hset⟩
  | setPolicies policies => exact ⟨rfl, fun hset => hset⟩
  | setExceptions exceptions => exact ⟨rfl, fun hset => hset⟩

/-- The evaluation of the finding writes its SLA columns. -/
theorem rowAfter_evaluated {st : PolicyDb} {r : FindingRow} {e : PolicyDbEvent}
    {now : Timestamp} {policyId : Uuid} {hours : Nat} (hpos : 0 < hours)
    (hr : st.db.findById orgId findingId = some r)
    (hnow : evaluatedAt orgId findingId e = some now)
    (hpolicy : (matchedPolicy st orgId findingId now).map (fun p => (p.id, p.slaHours)) =
      some (policyId, some hours)) : rowAfter st r e = withSla now hours r := by
  cases e with
  | evaluate orgId' findingId' now' =>
      unfold evaluatedAt at hnow
      simp only [Option.ite_none_right_eq_some, Option.some.injEq] at hnow
      obtain ⟨⟨rfl, rfl⟩, rfl⟩ := hnow
      obtain ⟨policy, hmatched, hfields⟩ := Option.map_eq_some_iff.mp hpolicy
      have hhours : matchedHours st orgId' findingId' now' = some hours := by
        unfold matchedHours
        rw [hmatched]
        exact (Prod.mk.inj hfields).2
      unfold rowAfter
      simp only [hhours]
      obtain ⟨n, rfl⟩ := Nat.exists_eq_succ_of_ne_zero (Nat.ne_of_gt hpos)
      rw [isFinding_of_findById hr]
      rfl
  | upsert _ _ _ _ _ => cases hnow
  | close _ _ _ _ => cases hnow
  | triage _ _ _ _ => cases hnow
  | rescore _ _ _ => cases hnow
  | claim _ _ _ => cases hnow
  | setPolicies _ => cases hnow
  | setExceptions _ => cases hnow

/-- The finding is open, and nothing was claimed before the first evaluation. -/
structure Tracked (orgId : OrgId) (findingId : Uuid) (s : SlaRun) : Prop where
  findingOpen : findingOpen orgId findingId s.st = true
  notified : s.notified = true → s.first.isSome = true

section Step

variable {policyId : Uuid} {hours : Nat} {s : SlaRun} {e : PolicyDbEvent}

theorem Tracked.step (h : Tracked orgId findingId s)
    (hallowed : (system orgId findingId policyId hours).allowed s e) :
    Tracked orgId findingId (SlaRun.step orgId findingId s e) where
  findingOpen := hallowed.1
  notified := by
    intro hnotified
    rcases Bool.or_eq_true_iff.mp hnotified with hold | hnew
    · change (s.first.or _).isSome = true
      rw [Option.isSome_or, h.notified hold, Bool.true_or]
    · exact (Bool.and_eq_true_iff.mp hnew).1

/-- The row that has the alert claimed is notified. -/
theorem claimed_iff {st : PolicyDb} {r : FindingRow}
    (hr : st.db.findById orgId findingId = some r) :
    claimed orgId findingId st = true ↔ r.slaNotifiedAt ≠ none := by
  unfold claimed
  rw [hr, Option.bind_some, Option.isSome_iff_ne_none]

/-- Behind a step the property speaks of the row that goes on. -/
theorem dueKept_step_row {r : FindingRow} (hr : s.st.db.findById orgId findingId = some r) :
    DueKept orgId findingId hours (SlaRun.step orgId findingId s e) ↔
      (∀ first, s.first.or (evaluatedAt orgId findingId e) = some first →
        (rowAfter s.st r e).slaDueAt = some (first + hours * 3600000)) ∧
      ((SlaRun.step orgId findingId s e).notified = true →
        (rowAfter s.st r e).slaNotifiedAt ≠ none) := by
  have hr' := findById_step hr e
  constructor
  · exact fun hkept => hkept _ hr'
  · intro hkept r'' hr''
    change (s.st.step e).db.findById orgId findingId = some r'' at hr''
    rw [hr'] at hr''
    obtain rfl := Option.some.inj hr''
    exact hkept

/-- An SLA that leaves the due date where it is takes no claim back. -/
theorem withSla_notified {now : Timestamp} {r : FindingRow}
    (hdue : r.slaDueAt = some (now + hours * 3600000)) :
    (withSla now hours r).slaNotifiedAt = r.slaNotifiedAt := by
  change (if slaNotifyResets r.slaDueAt (now + hours * 3600000) = true then none
    else r.slaNotifiedAt) = r.slaNotifiedAt
  rw [hdue]
  simp [slaNotifyResets]

/-- From a kept due date, a step keeps it precisely when it is no evaluation at another time
than the first. -/
theorem dueKept_step_iff (hpos : 0 < hours) (h : Tracked orgId findingId s)
    (hkept : DueKept orgId findingId hours s)
    (hallowed : (system orgId findingId policyId hours).allowed s e) :
    DueKept orgId findingId hours (SlaRun.step orgId findingId s e) ↔
      AtFirst orgId findingId s e := by
  obtain ⟨r, hr, hopen⟩ := findingOpen_iff.mp h.findingOpen
  obtain ⟨hstaysOpen, hpolicy⟩ := hallowed
  have hr' := findById_step hr e
  obtain ⟨r', hr'', hstays⟩ := findingOpen_iff.mp hstaysOpen
  rw [hr'] at hr''
  obtain rfl := Option.some.inj hr''
  obtain ⟨hdue, hset⟩ := hkept r hr
  have hclaimed := claimed_iff hr'
  rw [dueKept_step_row hr]
  -- an alert claimed in the new state is claimed on its row
  have hnotified : (r.slaNotifiedAt ≠ none → (rowAfter s.st r e).slaNotifiedAt ≠ none) →
      (SlaRun.step orgId findingId s e).notified = true →
        (rowAfter s.st r e).slaNotifiedAt ≠ none := by
    intro hkeeps hnew
    rcases Bool.or_eq_true_iff.mp hnew with hold | hnew
    · exact hkeeps (hset hold)
    · exact hclaimed.mp (Bool.and_eq_true_iff.mp hnew).2
  cases hnow : evaluatedAt orgId findingId e with
  | none =>
      obtain ⟨hsame, hkeeps⟩ := rowAfter_keeps hr hopen hstays hnow
      refine iff_of_true ⟨?_, hnotified hkeeps⟩ ?_
      · intro first hfirst
        rw [Option.or_none] at hfirst
        rw [hsame]
        exact hdue first hfirst
      · intro first now _ heq
        rw [hnow] at heq
        cases heq
  | some now =>
      have hrow := rowAfter_evaluated hpos hr hnow (hpolicy now hnow)
      rw [hrow] at hclaimed hnotified ⊢
      cases hfirst : s.first with
      | none =>
          -- the first evaluation; nothing was claimed before
          have hfresh : ¬ s.notified = true := by
            intro hold
            have hsome := h.notified hold
            rw [hfirst] at hsome
            cases hsome
          refine iff_of_true ⟨?_, ?_⟩ ?_
          · intro first heq
            obtain rfl := Option.some.inj heq
            rfl
          · intro hnew
            rcases Bool.or_eq_true_iff.mp hnew with hold | hnew
            · exact absurd hold hfresh
            · exact hclaimed.mp (Bool.and_eq_true_iff.mp hnew).2
          · intro first now' heq
            rw [hfirst] at heq
            cases heq
      | some first =>
          have hdue' := hdue first hfirst
          constructor
          · rintro ⟨hmoved, -⟩ first' now' heq hnow'
            rw [hfirst] at heq
            rw [hnow] at hnow'
            obtain rfl := Option.some.inj heq
            obtain rfl := Option.some.inj hnow'
            exact Nat.add_right_cancel (Option.some.inj (hmoved first rfl))
          · intro hat
            obtain rfl := hat first now hfirst hnow
            refine ⟨?_, hnotified ?_⟩
            · intro first' heq
              obtain rfl := Option.some.inj heq
              rfl
            · intro hset'
              rw [withSla_notified hdue']
              exact hset'

end Step

/-- **Reported again.**  While a finding stays open and every evaluation finds the same first
policy for it, with the same hours: its due date is the time of the first evaluation plus
the hours in every state behind that, and an alert claimed since is not taken back,
precisely when every evaluation takes place at the time of the first. -/
theorem due_kept_iff {policyId : Uuid} {hours : Nat} (hpos : 0 < hours) {st : PolicyDb}
    (hopen : findingOpen orgId findingId st = true) {es : List PolicyDbEvent}
    (hlegal : (system orgId findingId policyId hours).Legal { st := st } es) :
    (∀ s ∈ (system orgId findingId policyId hours).states { st := st } es,
        DueKept orgId findingId hours s) ↔
      (system orgId findingId policyId hours).AllSteps (AtFirst orgId findingId)
        { st := st } es := by
  refine System.forall_states_iff_allSteps (system orgId findingId policyId hours)
    (I := Tracked orgId findingId) ?_ ?_ ⟨hopen, fun hnot => (by cases hnot)⟩ ?_ hlegal
  · intro s e h hallowed
    exact h.step hallowed
  · intro s e h hkept hallowed
    exact dueKept_step_iff hpos h hkept hallowed
  · intro r hr
    exact ⟨fun first hfirst => (by cases hfirst), fun hnot => (by cases hnot)⟩

/-- An organisation with one open finding, and a policy that gives it a day. -/
def dayPolicyState : PolicyDb :=
  let asset : AssetRow :=
    { id := "a", orgId := "acme", kind := "repository", externalKey := "github:acme/api" }
  let finding : RawFinding :=
    { externalId := "rule", scannerType := .sast, scannerName := "semgrep", title := "eval"
      severity := .high }
  let policy : PolicyRow :=
    { id := "p", orgId := "acme", name := "a day", condition := {}, actions := [.notify]
      slaHours := some 24 }
  PolicyDb.step ⟨.ofAssets ⟨[asset], List.nodup_singleton _⟩, [policy], []⟩
    (.upsert "acme" ⟨"s", "j", "a", .sast, none, [finding]⟩ ⟨"fp", finding, [], []⟩ 0 "f")

/-- Evaluated once, rescored, and claimed behind its due date. -/
theorem due_kept_evaluated_once :
    DueKept "acme" "f" 24 ((system "acme" "f" "p" 24).run { st := dayPolicyState }
      [.evaluate "acme" "f" 0, .rescore "acme" "f" 7, .claim "acme" "f" 86400001]) := by
  have hlegal : (system "acme" "f" "p" 24).Legal { st := dayPolicyState }
      [.evaluate "acme" "f" 0, .rescore "acme" "f" 7, .claim "acme" "f" 86400001] := by
    refine ⟨⟨by decide +kernel, ?_⟩, ⟨by decide +kernel, ?_⟩, ⟨by decide +kernel, ?_⟩, trivial⟩
    · intro now hnow
      obtain rfl := Option.some.inj hnow
      decide +kernel
    · exact fun now hnow => (by cases hnow)
    · exact fun now hnow => (by cases hnow)
  refine (due_kept_iff (by decide) (by decide +kernel) hlegal).mpr ⟨?_, ?_, ?_, trivial⟩ _
    (System.run_mem_states _ _ _)
  · exact fun first now hfirst => (by cases hfirst)
  · exact fun first now _ hnow => (by cases hnow)
  · exact fun first now _ hnow => (by cases hnow)

/-- A finding is evaluated, and again a millisecond later: its due date has moved. -/
theorem second_evaluation_moves_due :
    ¬ ∀ (orgId : OrgId) (findingId policyId : Uuid) (hours : Nat) (st : PolicyDb)
        (es : List PolicyDbEvent), 0 < hours → findingOpen orgId findingId st = true →
      (system orgId findingId policyId hours).Legal { st := st } es →
        ∀ s ∈ (system orgId findingId policyId hours).states { st := st } es,
          DueKept orgId findingId hours s := by
  intro hall
  let es : List PolicyDbEvent := [.evaluate "acme" "f" 0, .evaluate "acme" "f" 1]
  have hlegal : (system "acme" "f" "p" 24).Legal { st := dayPolicyState } es := by
    refine ⟨⟨by decide +kernel, ?_⟩, ⟨by decide +kernel, ?_⟩, trivial⟩
    · intro now hnow
      obtain rfl := Option.some.inj hnow
      decide +kernel
    · intro now hnow
      obtain rfl := Option.some.inj hnow
      decide +kernel
  have hkept := hall "acme" "f" "p" 24 dayPolicyState es (by decide) (by decide +kernel) hlegal _
    (System.run_mem_states _ _ es)
  have hrow : (((system "acme" "f" "p" 24).run { st := dayPolicyState } es).st.db.findById
      "acme" "f").any (fun r => decide (r.slaDueAt = some 86400001)) = true := by decide +kernel
  obtain ⟨r, hr, hdue⟩ := (Option.any_eq_true _ _).mp hrow
  have hfirst := (hkept r hr).1 0 (by decide +kernel)
  rw [of_decide_eq_true hdue] at hfirst
  exact absurd hfirst (by decide)

end SlaRun

end Policy
end Ctem
