import Ctem.Scanner.CrateSources

/-!
# The probe for Rust in skipped directories

A crate can lie in a directory the shared walk never enters.  When the walk has found
Rust at all, a probe looks for `.rs` files and manifests there and marks Rust
ambiguous when it finds one, or cannot tell.

* `isUnderCrateSrc` exempts what the walk of the crates' own sources covers.
* `noteIgnoredRustDirs_covers`: unless Rust is marked, every first-party Rust source
  is visible to the shared walk or lies in the `src` of a crate.
-/

namespace Ctem
namespace Scanner

open Foundation

/-- `SHARED_WALK_SKIP_DIRS`. -/
def sharedWalkSkipDirs : List String :=
  [".git", "node_modules", "vendor", "dist", "build", "target", ".venv", "venv", "__pycache__",
    ".tox", ".pnpm-store", "bower_components", "coverage", ".next", ".nuxt", "obj", "bin"]

def sharedWalkSkipsDir (name : String) : Bool :=
  startsWith name "." || decide (name ∈ sharedWalkSkipDirs)

/-- The copy of the skipped names agrees with the walk's own. -/
theorem sharedWalkSkipsDir_eq (name : String) :
    sharedWalkSkipsDir name = skipsDir ignoreDirs name :=
  Bool.or_comm _ _

/-- How much of the budget is used, and whether Rust is marked ambiguous. -/
structure RustProbe where
  seen : Nat := 0
  ambiguous : Bool := false

/-- `markProbeAmbiguous`. -/
def RustProbe.mark (p : RustProbe) : RustProbe :=
  { p with ambiguous := true }

section Probe

variable (limits : WalkLimits) (crateSrcDirs : List (List String))

/-- The directory `src` of a crate, or something under it. -/
def isUnderCrateSrc (path : List String) : Bool :=
  crateSrcDirs.any fun srcDir => srcDir.isPrefixOf path

/-- `takeProbeBudget`: one more is seen. -/
def RustProbe.take (p : RustProbe) : RustProbe where
  seen := p.seen + 1
  ambiguous := p.ambiguous || decide (limits.maxFiles < p.seen + 1)

/-- The answer of `takeProbeBudget`. -/
def RustProbe.spent (p : RustProbe) : Bool :=
  decide (limits.maxFiles < p.seen + 1)

/-- A skipped directory, once it is known to be one; `loop` goes over its entries.  The
flag tells whether Rust was found. -/
def readSkippedDir (depth : Nat) (p : RustProbe) (readable : Bool)
    (loop : RustProbe → Bool × RustProbe) : Bool × RustProbe :=
  if limits.maxDepth < depth then (true, p.mark)
  else if p.spent limits then (true, (p.take limits).mark)
  else if readable then loop (p.take limits)
  else (true, (p.take limits).mark)

mutual

/-- One round of the loop of `skippedSubtreeHasRust` over a directory's entries. -/
def skippedEntryHasRust (path : List String) (depth : Nat) (found : Bool) (p : RustProbe) :
    WorkEntry → Bool × RustProbe
  -- here the crates' sources are passed over before `lstat` is asked
  | .symlink name _ =>
      if isUnderCrateSrc crateSrcDirs (path ++ [name]) then (found, p) else (found, p.mark)
  | .other name stat =>
      if isUnderCrateSrc crateSrcDirs (path ++ [name]) then (found, p)
      else if stat.isOk then (found, p)
      else (found, p.mark)
  | .file name stat _ _ =>
      if isUnderCrateSrc crateSrcDirs (path ++ [name]) then (found, p)
      else if stat.isOk then
        (found || isRustSource name || decide (name = "Cargo.toml"), p)
      else (found, p.mark)
  | .dir name stat readable entries =>
      if isUnderCrateSrc crateSrcDirs (path ++ [name]) then (found, p)
      else if stat.isOk then
        if probeExempt name then (found, p)
        else
          let below := readSkippedDir limits (depth + 1) p readable fun p =>
            skippedEntriesHaveRust (path ++ [name]) (depth + 1) false p entries
          (found || below.1, below.2)
      else (found, p.mark)

def skippedEntriesHaveRust (path : List String) (depth : Nat) (found : Bool) (p : RustProbe) :
    List WorkEntry → Bool × RustProbe
  | [] => (found, p)
  | e :: rest =>
      if p.spent limits then (true, p.take limits)
      else
        let next := skippedEntryHasRust path depth found (p.take limits) e
        skippedEntriesHaveRust path depth next.1 next.2 rest

end

/-- `skippedSubtreeHasRust` on a directory outside the crates' own sources. -/
def skippedSubtreeHasRust (path : List String) (depth : Nat) (p : RustProbe) (readable : Bool)
    (entries : List WorkEntry) : Bool × RustProbe :=
  readSkippedDir limits depth p readable fun p =>
    skippedEntriesHaveRust limits crateSrcDirs path depth false p entries

/-- A directory of the probe; `loop` goes over its entries. -/
def readProbedDir (depth : Nat) (p : RustProbe) (readable : Bool)
    (loop : RustProbe → RustProbe) : RustProbe :=
  if limits.maxDepth < depth then p.mark
  else if p.spent limits then (p.take limits).mark
  else if readable then loop (p.take limits)
  else (p.take limits).mark

mutual

/-- One round of the loop of `probeVisibleTree` over a directory's entries. -/
def probeEntry (path : List String) (depth : Nat) (p : RustProbe) : WorkEntry → RustProbe
  | .symlink _ _ => p.mark
  | .other _ stat => if stat.isOk then p else p.mark
  | .file _ stat _ _ => if stat.isOk then p else p.mark
  | .dir name stat readable entries =>
      -- and here after it, so that a `src` that fails `lstat` marks Rust
      if stat.isOk then
        if isUnderCrateSrc crateSrcDirs (path ++ [name]) then p
        else if probeExempt name then p
        else if sharedWalkSkipsDir name then
          let below := skippedSubtreeHasRust limits crateSrcDirs (path ++ [name]) (depth + 1) p
            readable entries
          if below.1 then below.2.mark else below.2
        else readProbedDir limits (depth + 1) p readable fun p =>
          probeEntries (path ++ [name]) (depth + 1) p entries
      else p.mark

def probeEntries (path : List String) (depth : Nat) (p : RustProbe) : List WorkEntry → RustProbe
  | [] => p
  | e :: rest =>
      if p.spent limits then p.take limits
      else probeEntries path depth (probeEntry path depth (p.take limits) e) rest

end

/-- `noteIgnoredRustDirs`: the probe from the root. -/
def noteIgnoredRustDirs (tree : WorkTree) : RustProbe :=
  readProbedDir limits 0 {} tree.readdir.isOk fun p =>
    probeEntries limits crateSrcDirs [] 0 p tree.entries

/-! ## What an unmarked probe has seen -/

theorem take_ambiguous {p : RustProbe} (h : (p.take limits).ambiguous = false) :
    p.ambiguous = false := by
  simp only [RustProbe.take, Bool.or_eq_false_iff] at h
  exact h.1

theorem readSkippedDir_clear {depth : Nat} {p : RustProbe} {readable : Bool}
    {loop : RustProbe → Bool × RustProbe}
    (h : (readSkippedDir limits depth p readable loop).1 = false) :
    readSkippedDir limits depth p readable loop = loop (p.take limits) := by
  unfold readSkippedDir at h ⊢
  split_ifs at h ⊢
  rfl

mutual

theorem skippedEntryHasRust_clear (path : List String) (depth : Nat) (found : Bool)
    (p : RustProbe) (e : WorkEntry)
    (hout : ∀ q, path <+: q → isUnderCrateSrc crateSrcDirs q = false)
    (hfound : (skippedEntryHasRust limits crateSrcDirs path depth found p e).1 = false)
    (hmark : (skippedEntryHasRust limits crateSrcDirs path depth found p e).2.ambiguous = false) :
    found = false ∧ p.ambiguous = false ∧
      ∀ f ∈ e.filesOutside probeExempt path, isRustSource f.fileName = false := by
  have hother : ∀ name, isUnderCrateSrc crateSrcDirs (path ++ [name]) = false :=
    fun name => hout _ (List.prefix_append path [name])
  match e with
  | .symlink name stat =>
      simp [skippedEntryHasRust, hother, RustProbe.mark] at hmark
  | .other name stat =>
      simp only [skippedEntryHasRust, hother, Bool.false_eq_true, if_false] at hfound hmark
      split_ifs at hfound hmark
      · exact ⟨hfound, hmark, by simp [WorkEntry.filesOutside]⟩
      · simp [RustProbe.mark] at hmark
  | .file name stat size text =>
      simp only [skippedEntryHasRust, hother, Bool.false_eq_true, if_false] at hfound hmark
      split_ifs at hfound hmark
      · simp only [Bool.or_eq_false_iff] at hfound
        refine ⟨hfound.1.1, hmark, fun f hf => ?_⟩
        have heq : f = fileAt path name stat size text := List.mem_singleton.mp hf
        rw [heq]
        exact hfound.1.2
      · simp [RustProbe.mark] at hmark
  | .dir name stat readable entries =>
      simp only [skippedEntryHasRust, hother, Bool.false_eq_true, if_false] at hfound hmark
      split_ifs at hfound hmark with hstat hexempt
      · exact ⟨hfound, hmark, by simp [WorkEntry.filesOutside, hexempt]⟩
      · -- nothing was found, so the directory was read to its end
        rw [Bool.or_eq_false_iff] at hfound
        obtain ⟨hfound, hbelow⟩ := hfound
        have hloop := readSkippedDir_clear limits hbelow
        rw [hloop] at hbelow hmark
        have hdeeper : ∀ q, path ++ [name] <+: q → isUnderCrateSrc crateSrcDirs q = false :=
          fun q hq => hout q ((List.prefix_append path [name]).trans hq)
        obtain ⟨-, htake, hnone⟩ := skippedEntriesHaveRust_clear (path ++ [name]) (depth + 1) false
          (p.take limits) entries hdeeper hbelow hmark
        refine ⟨hfound, take_ambiguous limits htake, fun f hf => ?_⟩
        rw [WorkEntry.filesOutside, if_neg hexempt] at hf
        exact hnone f hf
      · simp [RustProbe.mark] at hmark

/-- A skipped directory that raises nothing holds no Rust. -/
theorem skippedEntriesHaveRust_clear (path : List String) (depth : Nat) (found : Bool)
    (p : RustProbe) (entries : List WorkEntry)
    (hout : ∀ q, path <+: q → isUnderCrateSrc crateSrcDirs q = false)
    (hfound : (skippedEntriesHaveRust limits crateSrcDirs path depth found p entries).1 = false)
    (hmark :
      (skippedEntriesHaveRust limits crateSrcDirs path depth found p entries).2.ambiguous = false) :
    found = false ∧ p.ambiguous = false ∧
      ∀ f ∈ filesOutside probeExempt path entries, isRustSource f.fileName = false := by
  match entries with
  | [] => exact ⟨hfound, hmark, by simp [filesOutside]⟩
  | e :: rest =>
      simp only [skippedEntriesHaveRust] at hfound hmark
      split_ifs at hfound hmark
      obtain ⟨hnext, hmark, hrest⟩ :=
        skippedEntriesHaveRust_clear path depth _ _ rest hout hfound hmark
      obtain ⟨hfound, htake, hhead⟩ :=
        skippedEntryHasRust_clear path depth found (p.take limits) e hout hnext hmark
      refine ⟨hfound, take_ambiguous limits htake, fun f hf => ?_⟩
      rcases List.mem_append.mp hf with hf | hf
      · exact hhead f hf
      · exact hrest f hf

end

/-- The file lies below the directory `src` of a crate, which `lstat` takes for one. -/
def InCrateSrc (path : List String) (entries : List WorkEntry) (f : RepoFile) : Prop :=
  ∃ below e, lookupEntry entries below = some e ∧ e.pathKind = .dir ∧
    path ++ below ∈ crateSrcDirs ∧ f ∈ filesOutside probeExempt (path ++ below) e.entries

/-- Under a crate's `src`, but its parent is not: it is the `src` itself. -/
theorem mem_of_isUnderCrateSrc {path : List String} {name : String}
    (hparent : isUnderCrateSrc crateSrcDirs path = false)
    (h : isUnderCrateSrc crateSrcDirs (path ++ [name]) = true) : path ++ [name] ∈ crateSrcDirs := by
  obtain ⟨srcDir, hsrc, hpre⟩ := List.any_eq_true.mp h
  rcases List.prefix_concat_iff.mp (List.isPrefixOf_iff_prefix.mp hpre) with heq | habove
  · rwa [← heq]
  · have hunder : isUnderCrateSrc crateSrcDirs path = true :=
      List.any_eq_true.mpr ⟨srcDir, hsrc, List.isPrefixOf_iff_prefix.mpr habove⟩
    rw [hunder] at hparent
    cases hparent

/-- No crate the walk has listed lies in a directory the walk skips. -/
theorem not_under_of_skipped {path : List String} {name : String}
    (hclean : ∀ srcDir ∈ crateSrcDirs, ∀ n ∈ srcDir, sharedWalkSkipsDir n = false)
    (hskip : sharedWalkSkipsDir name = true)
    (hunder : isUnderCrateSrc crateSrcDirs (path ++ [name]) = false) :
    ∀ q, path ++ [name] <+: q → isUnderCrateSrc crateSrcDirs q = false := by
  intro q hq
  unfold isUnderCrateSrc at hunder ⊢
  rw [List.any_eq_false] at hunder ⊢
  intro srcDir hsrc hpre
  rw [List.isPrefixOf_iff_prefix] at hpre
  rcases List.prefix_or_prefix_of_prefix hpre hq with habove | hbelow
  · exact hunder srcDir hsrc (List.isPrefixOf_iff_prefix.mpr habove)
  · have hin : name ∈ srcDir := hbelow.subset (by simp)
    rw [hclean srcDir hsrc name hin] at hskip
    cases hskip

theorem readProbedDir_clear {depth : Nat} {p : RustProbe} {readable : Bool}
    {loop : RustProbe → RustProbe}
    (h : (readProbedDir limits depth p readable loop).ambiguous = false) :
    depth ≤ limits.maxDepth ∧ readable = true ∧ (loop (p.take limits)).ambiguous = false := by
  unfold readProbedDir at h
  split_ifs at h with hdeep hspent hreadable
  · simp [RustProbe.mark] at h
  · simp [RustProbe.mark] at h
  · exact ⟨Nat.le_of_not_lt hdeep, hreadable, h⟩
  · simp [RustProbe.mark] at h

mutual

theorem probeEntry_covers (path : List String) (depth : Nat) (p : RustProbe) (e : WorkEntry)
    (hclean : ∀ srcDir ∈ crateSrcDirs, ∀ n ∈ srcDir, sharedWalkSkipsDir n = false)
    (hpath : isUnderCrateSrc crateSrcDirs path = false) (hdistinct : e.distinct = true)
    (hmark : (probeEntry limits crateSrcDirs path depth p e).ambiguous = false) :
    p.ambiguous = false ∧
      ∀ f ∈ e.filesOutside probeExempt path, isRustSource f.fileName = true →
        f ∈ visibleEntry ignoreDirs limits path depth e.toRepo ∨
          InCrateSrc crateSrcDirs path [e] f := by
  match e with
  | .symlink name stat => simp [probeEntry, RustProbe.mark] at hmark
  | .other name stat =>
      simp only [probeEntry] at hmark
      split_ifs at hmark
      · exact ⟨hmark, by simp [WorkEntry.filesOutside]⟩
      · simp [RustProbe.mark] at hmark
  | .file name stat size text =>
      simp only [probeEntry] at hmark
      split_ifs at hmark
      · exact ⟨hmark, fun f hf _ => Or.inl hf⟩
      · simp [RustProbe.mark] at hmark
  | .dir name stat readable entries =>
      simp only [probeEntry] at hmark
      split_ifs at hmark with hstat hunder hexempt hskip hfound
      · -- the `src` of a crate
        refine ⟨hmark, fun f hf _ => Or.inr ?_⟩
        refine ⟨[name], .dir name stat readable entries, ?_, ?_, ?_, ?_⟩
        · exact lookupEntry_head _ []
        · simp [WorkEntry.pathKind, hstat]
        · exact mem_of_isUnderCrateSrc crateSrcDirs hpath hunder
        · rw [WorkEntry.filesOutside] at hf
          split at hf
          · simp at hf
          · exact hf
      · exact ⟨hmark, by simp [WorkEntry.filesOutside, hexempt]⟩
      · simp [RustProbe.mark] at hmark
      · -- a directory the shared walk skips
        have hloop := readSkippedDir_clear limits (Bool.eq_false_iff.mpr hfound)
        rw [Bool.not_eq_true] at hunder hfound
        unfold skippedSubtreeHasRust at hfound hmark
        rw [hloop] at hfound hmark
        obtain ⟨-, htake, hnone⟩ := skippedEntriesHaveRust_clear limits crateSrcDirs
          (path ++ [name]) (depth + 1) false (p.take limits) entries
          (not_under_of_skipped crateSrcDirs hclean hskip hunder) hfound hmark
        refine ⟨take_ambiguous limits htake, fun f hf hrust => ?_⟩
        rw [WorkEntry.filesOutside, if_neg hexempt] at hf
        rw [hnone f hf] at hrust
        cases hrust
      · -- a directory both walks enter
        rw [Bool.not_eq_true] at hunder
        obtain ⟨hdepth, hreadable, hbelow⟩ := readProbedDir_clear limits hmark
        obtain ⟨htake, hcovers⟩ := probeEntries_covers (path ++ [name]) (depth + 1) (p.take limits)
          entries hclean hunder hdistinct hbelow
        refine ⟨take_ambiguous limits htake, fun f hf hrust => ?_⟩
        rw [WorkEntry.filesOutside, if_neg hexempt] at hf
        rcases hcovers f hf hrust with hvisible | ⟨below, e', hlookup, hkind, hsrc, hin⟩
        · left
          rw [sharedWalkSkipsDir_eq] at hskip
          simp only [WorkEntry.toRepo, visibleEntry]
          rw [if_neg hskip, if_neg (Nat.not_lt.mpr hdepth), if_pos hreadable]
          exact hvisible
        · right
          have hbelow : below ≠ [] := by
            rintro rfl
            simp [lookupEntry] at hlookup
          refine ⟨name :: below, e', ?_, hkind, ?_, ?_⟩
          · exact (lookupEntry_below (.dir name stat readable entries) [] hbelow).trans hlookup
          · rwa [List.append_cons]
          · rwa [List.append_cons]
      · simp [RustProbe.mark] at hmark

/-- The probe of a directory that marks nothing accounts for every Rust source below. -/
theorem probeEntries_covers (path : List String) (depth : Nat) (p : RustProbe)
    (entries : List WorkEntry)
    (hclean : ∀ srcDir ∈ crateSrcDirs, ∀ n ∈ srcDir, sharedWalkSkipsDir n = false)
    (hpath : isUnderCrateSrc crateSrcDirs path = false)
    (hdistinct : distinctEntries entries = true)
    (hmark : (probeEntries limits crateSrcDirs path depth p entries).ambiguous = false) :
    p.ambiguous = false ∧
      ∀ f ∈ filesOutside probeExempt path entries, isRustSource f.fileName = true →
        f ∈ visibleEntries ignoreDirs limits path depth (toRepoEntries entries) ∨
          InCrateSrc crateSrcDirs path entries f := by
  match entries with
  | [] => exact ⟨hmark, by simp [filesOutside]⟩
  | e :: rest =>
      obtain ⟨hhead, hne, htail⟩ := distinctEntries_cons hdistinct
      simp only [probeEntries] at hmark
      split_ifs at hmark with hspent
      · -- the budget is spent, which marks Rust
        have hover : limits.maxFiles < p.seen + 1 := of_decide_eq_true hspent
        simp [RustProbe.take, hover] at hmark
      · obtain ⟨hmark, hrest⟩ :=
          probeEntries_covers path depth _ rest hclean hpath htail hmark
        obtain ⟨htake, hcovers⟩ :=
          probeEntry_covers path depth (p.take limits) e hclean hpath hhead hmark
        refine ⟨take_ambiguous limits htake, fun f hf hrust => ?_⟩
        simp only [toRepoEntries, visibleEntries, List.mem_append]
        rcases List.mem_append.mp hf with hf | hf
        · rcases hcovers f hf hrust with hvisible | ⟨below, e', hlookup, hin⟩
          · exact Or.inl (Or.inl hvisible)
          · exact Or.inr ⟨below, e', lookupEntry_single rest hlookup, hin⟩
        · rcases hrest f hf hrust with hvisible | ⟨below, e', hlookup, hin⟩
          · exact Or.inl (Or.inr hvisible)
          · exact Or.inr ⟨below, e', lookupEntry_tail hne hlookup, hin⟩

end

/-- Unless the probe marks Rust, every Rust source outside the exempt directories is
visible to the shared walk or lies in the `src` of a crate. -/
theorem noteIgnoredRustDirs_covers (tree : WorkTree)
    (hclean : ∀ srcDir ∈ crateSrcDirs, ∀ n ∈ srcDir, sharedWalkSkipsDir n = false)
    (hroot : [] ∉ crateSrcDirs)
    (hmark : (noteIgnoredRustDirs limits crateSrcDirs tree).ambiguous = false) {f : RepoFile}
    (hf : f ∈ filesOutside probeExempt [] tree.entries) (hrust : isRustSource f.fileName = true) :
    f ∈ visibleFiles ignoreDirs limits tree.checkout ∨
      InCrateSrc crateSrcDirs [] tree.entries f := by
  obtain ⟨-, hreadable, hbelow⟩ := readProbedDir_clear limits hmark
  have hpath : isUnderCrateSrc crateSrcDirs [] = false := by
    unfold isUnderCrateSrc
    rw [List.any_eq_false]
    intro srcDir hsrc hpre
    rw [List.isPrefixOf_iff_prefix, List.prefix_nil] at hpre
    exact hroot (hpre ▸ hsrc)
  obtain ⟨-, hcovers⟩ := probeEntries_covers limits crateSrcDirs [] 0 _ tree.entries hclean hpath
    tree.distinct hbelow
  have hvisible : visibleFiles ignoreDirs limits tree.checkout =
      visibleEntries ignoreDirs limits [] 0 (toRepoEntries tree.entries) :=
    if_pos hreadable
  rw [hvisible]
  exact hcovers f hf hrust

end Probe

end Scanner
end Ctem
