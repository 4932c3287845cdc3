import Mathlib.Data.List.Basic
import Mathlib.Data.List.Induction
import Mathlib.Data.List.Infix
import Mathlib.Tactic.Cases

/-!
# Union file systems

A file system built up from layers.  A layer is a list of changes: entries put something at
their path, markers hide what the layers below have there.  Markers say nothing of their own
layer, so they are applied first; the entries follow in their order.

* `RootFs` is a tree of nodes, with the fact that it is one as a field: what stands above a
  path that exists is a directory.
* `Change.Decides` says of a change and a path that the file there is the change's doing, and
  `files_apply` that this is so: a change leaves what it decides as `Change.leaves` says, and
  every other path alone.
* A reader of the layers heeds some of the changes only.  `files_eq_heeded_iff`: it knows the
  file at a path precisely when the last change that decides the path is one it heeds, or
  leaves there what those it heeds have left.
-/

namespace Ctem
namespace Foundation

universe u v w

/-- What can stand at a path. -/
inductive Node (β : Type v) where
  | file (body : β)
  | symlink (target : String)
  | dir

/-- A file system: the nodes of a tree, by path. -/
structure RootFs (α : Type u) (β : Type v) where
  node : List α → Option (Node β)
  root : node [] = some .dir
  tree : ∀ d p : List α, d <+: p → d ≠ p → node p ≠ none → node d = some .dir

/-- One member of a layer. -/
inductive Change (α : Type u) (β : Type v) where
  | file (parent : List α) (base : α) (body : β)
  /-- A second name for what the target path holds. -/
  | hardLink (parent : List α) (base : α) (target : List α)
  | symlink (parent : List α) (base : α) (target : String)
  | dir (path : List α)
  /-- Hides the path in the layers below. -/
  | whiteout (parent : List α) (base : α)
  /-- Hides what the layers below have in the directory. -/
  | opaqueDir (path : List α)

/-- Markers speak of the layers below. -/
def Change.marker {α : Type u} {β : Type v} : Change α β → Bool
  | .whiteout _ _ => true
  | .opaqueDir _ => true
  | _ => false

namespace RootFs

variable {α : Type u} {β : Type v} [DecidableEq α]

/-- The regular file at a path. -/
def files (fs : RootFs α β) (p : List α) : Option β :=
  match fs.node p with
  | some (.file body) => some body
  | _ => none

/-- Nothing but the root. -/
def empty : RootFs α β where
  node p := if p = [] then some .dir else none
  root := rfl
  tree := by
    intro d p hbelow hne hp
    by_cases hroot : p = []
    · subst hroot
      exact absurd (List.prefix_nil.mp hbelow) hne
    · rw [if_neg hroot] at hp
      exact absurd rfl hp

/-! ## The effect of a change -/

/-- What a link shares: a file or a symbolic link, never a directory. -/
def shared (fs : RootFs α β) (target : List α) : Option (Node β) :=
  match fs.node target with
  | some (.file body) => some (.file body)
  | some (.symlink text) => some (.symlink text)
  | _ => none

/-- Unlink whatever is at the path, and put the node there. -/
def replace (fs : RootFs α β) (parent : List α) (base : α) (n : Option (Node β)) : RootFs α β where
  node q :=
    if q = parent ++ [base] then n
    else if q <+: parent ++ [base] then some .dir
    else if parent ++ [base] <+: q then none
    else fs.node q
  root := by simp
  tree := by
    intro d q hbelow hne hq
    by_cases hself : q = parent ++ [base]
    · subst hself
      rw [if_neg hne, if_pos hbelow]
    rw [if_neg hself] at hq
    by_cases habove : q <+: parent ++ [base]
    · have hd : d ≠ parent ++ [base] := by
        rintro rfl
        exact hself (habove.eq_of_length_le hbelow.length_le)
      rw [if_neg hd, if_pos (hbelow.trans habove)]
    rw [if_neg habove] at hq
    by_cases hunder : parent ++ [base] <+: q
    · rw [if_pos hunder] at hq
      exact absurd rfl hq
    rw [if_neg hunder] at hq
    have hd : d ≠ parent ++ [base] := by
      rintro rfl
      exact hunder hbelow
    rw [if_neg hd]
    split
    · rfl
    · rw [if_neg (fun h => hunder (h.trans hbelow))]
      exact fs.tree d q hbelow hne hq

/-- Make the directory and those above it. -/
def mkdirs (fs : RootFs α β) (d : List α) : RootFs α β where
  node q := if q <+: d then some .dir else fs.node q
  root := by simp
  tree := by
    intro e q hbelow hne hq
    by_cases habove : q <+: d
    · rw [if_pos (hbelow.trans habove)]
    · rw [if_neg habove] at hq
      split
      · rfl
      · exact fs.tree e q hbelow hne hq

/-- Remove the path and what is below it; the directory it was in is there. -/
def hide (fs : RootFs α β) (parent : List α) (base : α) : RootFs α β where
  node q :=
    if q <+: parent then some .dir else if parent ++ [base] <+: q then none else fs.node q
  root := by simp
  tree := by
    intro d q hbelow hne hq
    by_cases habove : q <+: parent
    · rw [if_pos (hbelow.trans habove)]
    · rw [if_neg habove] at hq
      by_cases hunder : parent ++ [base] <+: q
      · rw [if_pos hunder] at hq
        exact absurd rfl hq
      · rw [if_neg hunder] at hq
        split
        · rfl
        · rw [if_neg (fun h => hunder (h.trans hbelow))]
          exact fs.tree d q hbelow hne hq

/-- Remove what is in the directory; the directory is there. -/
def clear (fs : RootFs α β) (d : List α) : RootFs α β where
  node q := if q <+: d then some .dir else if d <+: q then none else fs.node q
  root := by simp
  tree := by
    intro e q hbelow hne hq
    by_cases habove : q <+: d
    · rw [if_pos (hbelow.trans habove)]
    · rw [if_neg habove] at hq
      by_cases hunder : d <+: q
      · rw [if_pos hunder] at hq
        exact absurd rfl hq
      · rw [if_neg hunder] at hq
        split
        · rfl
        · rw [if_neg (fun h => hunder (h.trans hbelow))]
          exact fs.tree e q hbelow hne hq

/-- One change. -/
def apply (fs : RootFs α β) : Change α β → RootFs α β
  | .file parent base body => fs.replace parent base (some (.file body))
  | .hardLink parent base target => fs.replace parent base (fs.shared target)
  | .symlink parent base target => fs.replace parent base (some (.symlink target))
  | .dir path => fs.mkdirs path
  | .whiteout parent base => fs.hide parent base
  | .opaqueDir path => fs.clear path

end RootFs

/-- The members of a layer as they take effect: the markers, then the entries. -/
def layerOrder {γ : Type w} (marker : γ → Bool) (layer : List γ) : List γ :=
  layer.filter marker ++ layer.filter fun c => !marker c

/-! ## Which change decides a path -/

namespace Change

variable {α : Type u} {β : Type v} [DecidableEq α]

/-- Whatever is at the path after the change is the change's doing. -/
def Decides (c : Change α β) (p : List α) : Prop :=
  match c with
  | .file parent base _ => p <+: parent ++ [base] ∨ parent ++ [base] <+: p
  | .hardLink parent base _ => p <+: parent ++ [base] ∨ parent ++ [base] <+: p
  | .symlink parent base _ => p <+: parent ++ [base] ∨ parent ++ [base] <+: p
  | .dir path => p <+: path
  | .whiteout parent base => p <+: parent ∨ parent ++ [base] <+: p
  | .opaqueDir path => p <+: path ∨ path <+: p

instance (c : Change α β) (p : List α) : Decidable (c.Decides p) := by
  cases c <;> unfold Decides <;> infer_instance

/-- The file a change leaves at a path it decides. -/
def leaves (c : Change α β) (fs : RootFs α β) (p : List α) : Option β :=
  match c with
  | .file parent base body => if p = parent ++ [base] then some body else none
  | .hardLink parent base target => if p = parent ++ [base] then fs.files target else none
  | _ => none

/-- The body a regular file has at its own path. -/
def bodyAt (c : Change α β) (p : List α) : Option β :=
  match c with
  | .file parent base body => if p = parent ++ [base] then some body else none
  | _ => none

end Change

namespace RootFs

variable {α : Type u} {β : Type v} [DecidableEq α]

/-- The file where a node has been put. -/
theorem files_replace (fs : RootFs α β) (parent : List α) (base : α) (n : Option (Node β))
    (p : List α) :
    (fs.replace parent base n).files p =
      if p <+: parent ++ [base] ∨ parent ++ [base] <+: p then
        if p = parent ++ [base] then (match n with | some (.file body) => some body | _ => none)
        else none
      else fs.files p := by
  unfold files replace
  by_cases hself : p = parent ++ [base]
  · simp [hself]
  · by_cases habove : p <+: parent ++ [base]
    · simp [hself, habove]
    · by_cases hunder : parent ++ [base] <+: p
      · simp [hself, habove, hunder]
      · simp [hself, habove, hunder]

omit [DecidableEq α] in
theorem files_shared (fs : RootFs α β) (target : List α) :
    (match fs.shared target with | some (.file body) => some body | _ => none) =
      fs.files target := by
  unfold shared files
  cases fs.node target with
  | none => rfl
  | some n => cases n <;> rfl

/-- **One change.**  What it decides it leaves as it says, and every other file alone. -/
theorem files_apply (fs : RootFs α β) (c : Change α β) (p : List α) :
    (fs.apply c).files p = if c.Decides p then c.leaves fs p else fs.files p := by
  cases c with
  | file parent base body => exact fs.files_replace parent base _ p
  | symlink parent base target =>
      refine (fs.files_replace parent base _ p).trans ?_
      simp only [ite_self]
      rfl
  | hardLink parent base target =>
      refine (fs.files_replace parent base _ p).trans ?_
      rw [files_shared]
      rfl
  | dir path =>
      unfold apply mkdirs files Change.Decides Change.leaves
      by_cases habove : p <+: path
      · simp [habove]
      · simp [habove]
  | whiteout parent base =>
      unfold apply hide files Change.Decides Change.leaves
      by_cases habove : p <+: parent
      · simp [habove]
      · by_cases hunder : parent ++ [base] <+: p
        · simp [habove, hunder]
        · simp [habove, hunder]
  | opaqueDir path =>
      unfold apply clear files Change.Decides Change.leaves
      by_cases habove : p <+: path
      · simp [habove]
      · by_cases hunder : path <+: p
        · simp [habove, hunder]
        · simp [habove, hunder]

omit [DecidableEq α] in
theorem files_empty (p : List α) : (empty : RootFs α β).files p = none := by
  unfold files empty
  by_cases hroot : p = []
  · simp [hroot]
  · simp [hroot]

/-- Changes that do not decide a path leave its file alone. -/
theorem files_foldl_undecided {p : List α} (changes : List (Change α β)) (fs : RootFs α β)
    (hnone : ∀ c ∈ changes, ¬ c.Decides p) : (changes.foldl apply fs).files p = fs.files p := by
  induction changes generalizing fs with
  | nil => rfl
  | cons c rest ih =>
      rw [List.foldl_cons, ih _ fun c' hc' => hnone c' (List.mem_cons_of_mem c hc'),
        files_apply, if_neg (hnone c List.mem_cons_self)]

end RootFs

/-- A list has a last member with the property, or none. -/
theorem exists_last_or_forall_not {γ : Type w} (Q : γ → Prop) (items : List γ) :
    (∀ c ∈ items, ¬ Q c) ∨
      ∃ before c after, items = before ++ c :: after ∧ Q c ∧ ∀ c' ∈ after, ¬ Q c' := by
  induction items with
  | nil => exact Or.inl (by simp)
  | cons c rest ih =>
      rcases ih with hnone | ⟨before, c', after, rfl, hc', hafter⟩
      · by_cases hc : Q c
        · exact Or.inr ⟨[], c, rest, rfl, hc, hnone⟩
        · exact Or.inl (List.forall_mem_cons.mpr ⟨hc, hnone⟩)
      · exact Or.inr ⟨c :: before, c', after, rfl, hc', hafter⟩

/-- There is only one last member with the property. -/
theorem lastSplit_unique {γ : Type w} {Q : γ → Prop} {before before' after after' : List γ}
    {c c' : γ} (hc : Q c) (hafter : ∀ x ∈ after, ¬ Q x) (hc' : Q c')
    (hafter' : ∀ x ∈ after', ¬ Q x) (heq : before ++ c :: after = before' ++ c' :: after') :
    before' = before ∧ c' = c ∧ after' = after := by
  rcases List.append_eq_append_iff.mp heq with ⟨mid, hbefore, hrest⟩ | ⟨mid, hbefore, hrest⟩
  · cases mid with
    | nil =>
        rw [List.append_nil] at hbefore
        obtain ⟨rfl, rfl⟩ := List.cons.inj hrest
        exact ⟨hbefore, rfl, rfl⟩
    | cons x mid =>
        obtain ⟨rfl, rfl⟩ := List.cons.inj hrest
        exact absurd hc' (hafter c' (by simp))
  · cases mid with
    | nil =>
        rw [List.append_nil] at hbefore
        obtain ⟨rfl, rfl⟩ := List.cons.inj hrest
        exact ⟨hbefore.symm, rfl, rfl⟩
    | cons x mid =>
        obtain ⟨rfl, rfl⟩ := List.cons.inj hrest
        exact absurd hc (hafter' c (by simp))

/-! ## A reader that heeds some changes -/

section Reader

variable {α : Type u} {β : Type v} [DecidableEq α] {γ : Type w}
variable (change : γ → Change α β) (heeds : γ → List α → Bool)

/-- What the last heeded change leaves at a path: its body if it is a file, or nothing. -/
def heeded (items : List γ) (p : List α) : Option β :=
  items.foldl (fun v c => if heeds c p then (change c).bodyAt p else v) none

/-- The file system the changes build. -/
def layered (items : List γ) : RootFs α β :=
  items.foldl (fun fs c => fs.apply (change c)) .empty

/-- The last change that decides the path is heeded, or leaves there what the heeded ones
before it have left. -/
def KnownAt (items : List γ) (p : List α) : Prop :=
  ∀ before c after, items = before ++ c :: after → (change c).Decides p →
    (∀ c' ∈ after, ¬ (change c').Decides p) →
      heeds c p = true ∨
        (change c).leaves (layered change before) p = heeded change heeds before p

theorem heeded_unheeded {p : List α} {after : List γ} (hnone : ∀ c ∈ after, heeds c p = false)
    (before : List γ) :
    heeded change heeds (before ++ after) p = heeded change heeds before p := by
  induction after using List.reverseRecOn with
  | nil => rw [List.append_nil]
  | append_singleton after c ih =>
      have hc : heeds c p = false := hnone c (by simp)
      rw [← List.append_assoc]
      unfold heeded at ih ⊢
      rw [List.foldl_append, List.foldl_cons, List.foldl_nil, hc]
      exact ih fun c' hc' => hnone c' (by simp [hc'])

theorem layered_undecided {p : List α} {after : List γ}
    (hnone : ∀ c ∈ after, ¬ (change c).Decides p) (before : List γ) :
    (layered change (before ++ after)).files p = (layered change before).files p := by
  have hfold := RootFs.files_foldl_undecided (after.map change) (layered change before)
    (p := p) (by
      intro c hc
      obtain ⟨c', hc', rfl⟩ := List.mem_map.mp hc
      exact hnone c' hc')
  rw [List.foldl_map] at hfold
  unfold layered at hfold ⊢
  rw [List.foldl_append]
  exact hfold

/-- **What a reader knows.**  It heeds only changes that decide a path, and of those it heeds
none is a link.  Then its file at a path is that of the file system precisely when the path
is known to it. -/
theorem files_eq_heeded_iff {p : List α}
    (hdecides : ∀ c : γ, heeds c p = true → (change c).Decides p)
    (hplain : ∀ c : γ, heeds c p = true → ∀ fs, (change c).leaves fs p = (change c).bodyAt p)
    (items : List γ) :
    (layered change items).files p = heeded change heeds items p ↔
      KnownAt change heeds items p := by
  have hunheeded : ∀ {after : List γ}, (∀ c ∈ after, ¬ (change c).Decides p) →
      ∀ c ∈ after, heeds c p = false := by
    intro after hafter c hc
    by_contra hheeds
    exact hafter c hc (hdecides c (Bool.not_eq_false _ ▸ hheeds))
  rcases exists_last_or_forall_not (fun c => (change c).Decides p) items with
    hnone | ⟨before, c, after, rfl, hc, hafter⟩
  · -- no change decides the path: there is no file, and none is known
    have hfiles : (layered change items).files p = none :=
      (layered_undecided change hnone []).trans (RootFs.files_empty p)
    have hheeded : heeded change heeds items p = none :=
      heeded_unheeded change heeds (hunheeded hnone) []
    refine iff_of_true (hfiles.trans hheeded.symm) ?_
    rintro before c after rfl hc -
    exact absurd hc (hnone c (by simp))
  · have hsplit : before ++ c :: after = (before ++ [c]) ++ after := by simp
    have hfiles : (layered change (before ++ c :: after)).files p =
        (change c).leaves (layered change before) p := by
      rw [hsplit, layered_undecided change hafter]
      unfold layered
      rw [List.foldl_append, List.foldl_cons, List.foldl_nil, RootFs.files_apply, if_pos hc]
    have hheeded : heeded change heeds (before ++ c :: after) p =
        if heeds c p then (change c).bodyAt p else heeded change heeds before p := by
      rw [hsplit, heeded_unheeded change heeds (hunheeded hafter)]
      unfold heeded
      rw [List.foldl_append, List.foldl_cons, List.foldl_nil]
    rw [hfiles, hheeded]
    have hknown : KnownAt change heeds (before ++ c :: after) p ↔
        heeds c p = true ∨
          (change c).leaves (layered change before) p = heeded change heeds before p := by
      constructor
      · exact fun h => h before c after rfl hc hafter
      · intro h before' c' after' heq hc' hafter'
        obtain ⟨rfl, rfl, rfl⟩ : before' = before ∧ c' = c ∧ after' = after := by
          exact lastSplit_unique hc hafter hc' hafter' heq
        exact h
    rw [hknown]
    by_cases hheeds : heeds c p = true
    · simp [hheeds, hplain c hheeds]
    · simp [hheeds]

end Reader

end Foundation
end Ctem
