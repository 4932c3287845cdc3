import Ctem.Scanner.ImportGraph
import Ctem.Scanner.WorkTree

/-!
# The sources of crates

The shared walk skips `bin`, `build`, `dist` and dot-directories, where a crate may
keep sources.  A second walk lists the Rust files in the `src` of every crate.

* `listCrateSrcRustFiles_eq`: the walk is a fold over what it looks at.
* `foldl_look_truncated_iff`: it is cut exactly when a look leaves something out or
  finds it at its cap.
* `rust_mem_srcLooks`: when nothing is left out, every first-party Rust source of a
  crate is looked at.
-/

namespace Ctem
namespace Scanner

open Foundation

/-- `IGNORED_DIR_PROBE_EXEMPT`. -/
def ignoredDirProbeExempt : List String :=
  ["target", "vendor", "node_modules", ".git"]

/-- A directory that holds no first-party Rust. -/
def probeExempt (name : String) : Bool :=
  decide (name ∈ ignoredDirProbeExempt)

/-- Outside the exempt directories nothing is build output or vendored. -/
theorem not_vendored {dir : List String} (h : ∀ n ∈ dir, probeExempt n = false) :
    isRustBuildOrVendoredPath dir = false := by
  unfold isRustBuildOrVendoredPath
  rw [List.any_eq_false]
  intro n hn hvendored
  have hname : n = "target" ∨ n = "vendor" := by simpa using hvendored
  have hclean := h n hn
  rcases hname with rfl | rfl
  · exact absurd hclean (by decide)
  · exact absurd hclean (by decide)

/-! ## The walk -/

/-- What the crate walk has seen and listed so far. -/
structure CrateWalk where
  seen : List (List String)
  out : List RepoFile := []
  truncated : Bool := false

def CrateWalk.cut (st : CrateWalk) : CrateWalk :=
  { st with truncated := true }

/-- A Rust source is listed once. -/
def CrateWalk.list (st : CrateWalk) (file : RepoFile) : CrateWalk :=
  if file.path ∈ st.seen ∨ isRustBuildOrVendoredPath file.dir = true then st
  else { st with seen := file.path :: st.seen, out := st.out ++ [file] }

section CrateSrc

variable (limits : WalkLimits)

/-- A directory of the walk, once it is known to be one; `loop` goes over its entries. -/
def readCrateDir (depth : Nat) (st : CrateWalk) (readable : Bool)
    (loop : CrateWalk → CrateWalk) : CrateWalk :=
  if limits.maxFiles ≤ st.out.length ∨ limits.maxDepth < depth then st.cut
  else if readable then loop st
  else st.cut

mutual

/-- One round of the loop over the entries of the directory `path`. -/
def walkCrateEntry (path : List String) (depth : Nat) (st : CrateWalk) : WorkEntry → CrateWalk
  -- a symlink is never followed, whether `lstat` of it succeeds or not
  | .symlink _ _ => st.cut
  | .other _ stat => if stat.isOk then st else st.cut
  | .file name stat size text =>
      if stat.isOk then
        if isRustSource name then st.list (fileAt path name stat size text) else st
      else st.cut
  | .dir name stat readable entries =>
      if stat.isOk then
        if name = "target" ∨ name = "vendor" then st
        else readCrateDir limits (depth + 1) st readable fun st =>
          walkCrateEntries (path ++ [name]) (depth + 1) st entries
      else st.cut

def walkCrateEntries (path : List String) (depth : Nat) (st : CrateWalk) :
    List WorkEntry → CrateWalk
  | [] => st
  | e :: rest =>
      if limits.maxFiles ≤ st.out.length then st.cut
      else walkCrateEntries path depth (walkCrateEntry path depth st e) rest

end

/-- `walkCrateSrc` on the `src` of a crate: what is no directory, or fails `lstat`, is
passed over. -/
def walkCrateSrc (path : List String) (st : CrateWalk) : Option WorkEntry → CrateWalk
  | some (.symlink _ stat) => if stat.isOk then st.cut else st
  | some (.dir _ stat readable entries) =>
      if stat.isOk then
        readCrateDir limits 1 st readable fun st => walkCrateEntries limits path 1 st entries
      else st
  | _ => st

/-- `crateSrcDirectories`: beside every listed manifest. -/
def crateSrcDirectories (files : List RepoFile) : List (List String) :=
  (files.filter fun file => decide (file.fileName = "Cargo.toml")).map fun file =>
    file.dir ++ ["src"]

def listCrateSrcRustFiles (entries : List WorkEntry) (files : List RepoFile) : CrateWalk :=
  (crateSrcDirectories files).foldl
    (fun st path => walkCrateSrc limits path st (lookupEntry entries path))
    { seen := files.map RepoFile.path }

/-! ### What the crate walk looks at -/

/-- A look at an entry: nothing to list, something left out, or a Rust source. -/
inductive CrateLook where
  | pass
  | cut
  | source (file : RepoFile)

/-- The walk checks its cap at every look. -/
def CrateWalk.look (st : CrateWalk) (l : CrateLook) : CrateWalk :=
  if limits.maxFiles ≤ st.out.length then st.cut
  else
    match l with
    | .pass => st
    | .cut => st.cut
    | .source file => st.list file

mutual

/-- The looks at an entry and what is below it, without the cap. -/
def entryLooks (path : List String) (depth : Nat) : WorkEntry → List CrateLook
  | .symlink _ _ => [.cut]
  | .other _ stat => if stat.isOk then [.pass] else [.cut]
  | .file name stat size text =>
      if stat.isOk then
        if isRustSource name then [.source (fileAt path name stat size text)] else [.pass]
      else [.cut]
  | .dir name stat readable entries =>
      if stat.isOk then
        if name = "target" ∨ name = "vendor" then [.pass]
        else if limits.maxDepth < depth + 1 then [.cut]
        else if readable then .pass :: entriesLooks (path ++ [name]) (depth + 1) entries
        else [.cut]
      else [.cut]

def entriesLooks (path : List String) (depth : Nat) : List WorkEntry → List CrateLook
  | [] => []
  | e :: rest => entryLooks path depth e ++ entriesLooks path depth rest

end

/-- The looks at the `src` of a crate. -/
def srcLooks (path : List String) : Option WorkEntry → List CrateLook
  | some (.symlink _ stat) => if stat.isOk then [.cut] else []
  | some (.dir _ stat readable entries) =>
      if stat.isOk then
        if limits.maxDepth < 1 then [.cut]
        else if readable then .pass :: entriesLooks limits path 1 entries
        else [.cut]
      else []
  | _ => []

/-- The looks at the `src` of every crate. -/
def crateLooks (entries : List WorkEntry) (files : List RepoFile) : List CrateLook :=
  (crateSrcDirectories files).flatMap fun path => srcLooks limits path (lookupEntry entries path)

theorem entryLooks_ne_nil (path : List String) (depth : Nat) (e : WorkEntry) :
    entryLooks limits path depth e ≠ [] := by
  cases e with
  | symlink => simp [entryLooks]
  | other => simp only [entryLooks]; split_ifs <;> simp
  | file => simp only [entryLooks]; split_ifs <;> simp
  | dir => simp only [entryLooks]; split_ifs <;> simp

theorem look_full {st : CrateWalk} (hfull : limits.maxFiles ≤ st.out.length) (l : CrateLook) :
    st.look limits l = st.cut :=
  if_pos hfull

/-- At the cap every further look cuts the walk, and changes nothing else. -/
theorem foldl_look_full {st : CrateWalk} (hfull : limits.maxFiles ≤ st.out.length)
    {looks : List CrateLook} (hlooks : looks ≠ []) :
    looks.foldl (CrateWalk.look limits) st = st.cut := by
  induction looks generalizing st with
  | nil => exact absurd rfl hlooks
  | cons l rest ih =>
      rw [List.foldl_cons, look_full limits hfull]
      by_cases hrest : rest = []
      · rw [hrest, List.foldl_nil]
      · have hcut : limits.maxFiles ≤ st.cut.out.length := hfull
        exact ih hcut hrest

mutual

theorem walkCrateEntry_eq (path : List String) (depth : Nat) (st : CrateWalk) (e : WorkEntry)
    (hroom : ¬ limits.maxFiles ≤ st.out.length) :
    walkCrateEntry limits path depth st e =
      (entryLooks limits path depth e).foldl (CrateWalk.look limits) st := by
  match e with
  | .symlink name stat => simp [walkCrateEntry, entryLooks, CrateWalk.look, hroom]
  | .other name stat =>
      simp only [walkCrateEntry, entryLooks]
      split <;> simp [CrateWalk.look, hroom]
  | .file name stat size text =>
      simp only [walkCrateEntry, entryLooks]
      split_ifs <;> simp [CrateWalk.look, hroom]
  | .dir name stat readable entries =>
      simp only [walkCrateEntry, entryLooks, readCrateDir, hroom, false_or]
      split_ifs
      · simp [CrateWalk.look, hroom]
      · simp [CrateWalk.look, hroom]
      · rw [List.foldl_cons, walkCrateEntries_eq (path ++ [name]) (depth + 1) st entries]
        simp [CrateWalk.look, hroom]
      · simp [CrateWalk.look, hroom]
      · simp [CrateWalk.look, hroom]

/-- The walk of a directory is its looks one after the other. -/
theorem walkCrateEntries_eq (path : List String) (depth : Nat) (st : CrateWalk)
    (entries : List WorkEntry) :
    walkCrateEntries limits path depth st entries =
      (entriesLooks limits path depth entries).foldl (CrateWalk.look limits) st := by
  match entries with
  | [] => rfl
  | e :: rest =>
      simp only [walkCrateEntries, entriesLooks]
      by_cases hfull : limits.maxFiles ≤ st.out.length
      · -- the loop ends here, and every look that is left cuts the walk again
        have hlooks : entryLooks limits path depth e ++ entriesLooks limits path depth rest ≠ [] :=
          List.append_ne_nil_of_left_ne_nil (entryLooks_ne_nil limits path depth e) _
        rw [if_pos hfull, foldl_look_full limits hfull hlooks]
      · rw [if_neg hfull, List.foldl_append, ← walkCrateEntry_eq path depth st e hfull]
        exact walkCrateEntries_eq path depth _ rest

end

theorem walkCrateSrc_eq (path : List String) (st : CrateWalk) (found : Option WorkEntry) :
    walkCrateSrc limits path st found =
      (srcLooks limits path found).foldl (CrateWalk.look limits) st := by
  match found with
  | none => rfl
  | some (.file name stat size text) => rfl
  | some (.other name stat) => rfl
  | some (.symlink name stat) =>
      simp only [walkCrateSrc, srcLooks]
      split
      · simp [CrateWalk.look]
      · rfl
  | some (.dir name stat readable entries) =>
      simp only [walkCrateSrc, srcLooks]
      split
      · by_cases hfull : limits.maxFiles ≤ st.out.length
        · rw [readCrateDir, if_pos (Or.inl hfull), foldl_look_full limits hfull]
          split_ifs <;> simp
        · simp only [readCrateDir, hfull, false_or]
          split_ifs
          · simp [CrateWalk.look, hfull]
          · rw [List.foldl_cons, walkCrateEntries_eq]
            simp [CrateWalk.look, hfull]
          · simp [CrateWalk.look, hfull]
      · rfl

theorem listCrateSrcRustFiles_eq (entries : List WorkEntry) (files : List RepoFile) :
    listCrateSrcRustFiles limits entries files =
      (crateLooks limits entries files).foldl (CrateWalk.look limits)
        { seen := files.map RepoFile.path } := by
  unfold listCrateSrcRustFiles crateLooks
  rw [List.foldl_flatMap]
  simp only [walkCrateSrc_eq]

/-- The Rust sources looked at that were not seen before. -/
def freshSources (seen : List (List String)) : List CrateLook → List RepoFile
  | [] => []
  | .pass :: rest => freshSources seen rest
  | .cut :: rest => freshSources seen rest
  | .source file :: rest =>
      if file.path ∈ seen ∨ isRustBuildOrVendoredPath file.dir = true then freshSources seen rest
      else file :: freshSources (file.path :: seen) rest

/-- With `listed` files to begin with, no look leaves anything out and none finds the
walk at its cap. -/
def WholeWalk (seen : List (List String)) (listed : Nat) (looks : List CrateLook) : Prop :=
  CrateLook.cut ∉ looks ∧
    ∀ i < looks.length, listed + (freshSources seen (looks.take i)).length < limits.maxFiles

/-- The first look of a whole walk finds room. -/
theorem WholeWalk.room {seen : List (List String)} {listed : Nat} {l : CrateLook}
    {rest : List CrateLook} (h : WholeWalk limits seen listed (l :: rest)) :
    listed < limits.maxFiles := by
  have hfirst := h.2 0 (Nat.succ_pos _)
  simpa only [List.take_zero, freshSources, List.length_nil, Nat.add_zero] using hfirst

theorem wholeWalk_pass (seen : List (List String)) (listed : Nat) (rest : List CrateLook) :
    WholeWalk limits seen listed (.pass :: rest) ↔
      listed < limits.maxFiles ∧ WholeWalk limits seen listed rest := by
  unfold WholeWalk
  rw [List.length_cons, Nat.forall_lt_succ_left]
  simp only [List.mem_cons, List.take_zero, List.take_succ_cons, freshSources, List.length_nil,
    Nat.add_zero, reduceCtorEq, false_or]
  tauto

theorem wholeWalk_source (seen : List (List String)) (listed : Nat) (file : RepoFile)
    (rest : List CrateLook) :
    WholeWalk limits seen listed (.source file :: rest) ↔
      listed < limits.maxFiles ∧
        if file.path ∈ seen ∨ isRustBuildOrVendoredPath file.dir = true then
          WholeWalk limits seen listed rest
        else WholeWalk limits (file.path :: seen) (listed + 1) rest := by
  unfold WholeWalk
  rw [List.length_cons, Nat.forall_lt_succ_left]
  simp only [List.mem_cons, List.take_zero, List.take_succ_cons, freshSources, List.length_nil,
    Nat.add_zero, reduceCtorEq, false_or]
  split_ifs
  · tauto
  · simp only [List.length_cons, Nat.add_assoc, Nat.add_comm 1]
    tauto

/-- The fold is cut exactly when it is not whole, and else lists the fresh sources. -/
theorem foldl_look_truncated_iff (st : CrateWalk) (looks : List CrateLook) :
    (looks.foldl (CrateWalk.look limits) st).truncated = false ↔
      st.truncated = false ∧ WholeWalk limits st.seen st.out.length looks := by
  induction looks generalizing st with
  | nil => simp [WholeWalk]
  | cons l rest ih =>
      rw [List.foldl_cons, ih]
      by_cases hfull : limits.maxFiles ≤ st.out.length
      · have hcut : ¬ WholeWalk limits st.seen st.out.length (l :: rest) :=
          fun hwhole => Nat.not_lt.mpr hfull hwhole.room
        rw [look_full limits hfull]
        simp [hcut, CrateWalk.cut]
      · have hroom : st.out.length < limits.maxFiles := by omega
        cases l with
        | pass => simp [CrateWalk.look, hfull, wholeWalk_pass, hroom]
        | cut => simp [CrateWalk.look, hfull, CrateWalk.cut, WholeWalk]
        | source file =>
            rw [wholeWalk_source]
            simp only [CrateWalk.look, hfull, if_false, CrateWalk.list, hroom, true_and]
            split_ifs
            · rfl
            · simp

theorem foldl_look_out (st : CrateWalk) (looks : List CrateLook)
    (hwhole : WholeWalk limits st.seen st.out.length looks) :
    (looks.foldl (CrateWalk.look limits) st).out = st.out ++ freshSources st.seen looks := by
  induction looks generalizing st with
  | nil => simp [freshSources]
  | cons l rest ih =>
      have hroom : ¬ limits.maxFiles ≤ st.out.length := Nat.not_le.mpr hwhole.room
      rw [List.foldl_cons]
      cases l with
      | pass =>
          have hlook : st.look limits .pass = st := by simp [CrateWalk.look, hroom]
          rw [hlook, freshSources]
          exact ih st ((wholeWalk_pass limits _ _ _).mp hwhole).2
      | cut => exact absurd List.mem_cons_self hwhole.1
      | source file =>
          have hlook : st.look limits (.source file) = st.list file := by
            simp [CrateWalk.look, hroom]
          have hrest := ((wholeWalk_source limits _ _ _ _).mp hwhole).2
          rw [hlook]
          unfold CrateWalk.list
          rw [freshSources]
          split_ifs with hseen
          · rw [if_pos hseen] at hrest
            exact ih st hrest
          · rw [if_neg hseen] at hrest
            rw [ih _ (by simpa using hrest)]
            simp

/-! ### What it lists -/

mutual

theorem source_mem_entryLooks (path : List String) (depth : Nat) (e : WorkEntry) :
    ∀ g, CrateLook.source g ∈ entryLooks limits path depth e →
      isRustSource g.fileName = true ∧ g ∈ e.filesOutside (fun _ => false) path := by
  match e with
  | .symlink name stat => simp [entryLooks]
  | .other name stat =>
      intro g hg
      simp only [entryLooks] at hg
      split at hg <;> simp at hg
  | .file name stat size text =>
      intro g hg
      simp only [entryLooks] at hg
      split_ifs at hg with hstat hrust
      · have heq : g = fileAt path name stat size text := by simpa using hg
        subst heq
        exact ⟨hrust, List.mem_singleton.mpr rfl⟩
      · simp at hg
      · simp at hg
  | .dir name stat readable entries =>
      intro g hg
      simp only [entryLooks] at hg
      rw [WorkEntry.filesOutside, if_neg Bool.false_ne_true]
      split_ifs at hg
      · simp at hg
      · simp at hg
      · simp only [List.mem_cons, reduceCtorEq, false_or] at hg
        exact source_mem_entriesLooks (path ++ [name]) (depth + 1) entries g hg
      · simp at hg
      · simp at hg

/-- The sources looked at are Rust files below the directory. -/
theorem source_mem_entriesLooks (path : List String) (depth : Nat) (entries : List WorkEntry) :
    ∀ g, CrateLook.source g ∈ entriesLooks limits path depth entries →
      isRustSource g.fileName = true ∧ g ∈ filesBelow path entries := by
  match entries with
  | [] => simp [entriesLooks]
  | e :: rest =>
      intro g hg
      simp only [entriesLooks, List.mem_append] at hg
      rcases hg with hg | hg
      · obtain ⟨hrust, hmem⟩ := source_mem_entryLooks path depth e g hg
        exact ⟨hrust, List.mem_append_left _ hmem⟩
      · obtain ⟨hrust, hmem⟩ := source_mem_entriesLooks path depth rest g hg
        exact ⟨hrust, List.mem_append_right _ hmem⟩

end

mutual

theorem rust_mem_entryLooks (path : List String) (depth : Nat) (e : WorkEntry)
    (hcut : CrateLook.cut ∉ entryLooks limits path depth e) :
    ∀ f ∈ e.filesOutside probeExempt path, isRustSource f.fileName = true →
      CrateLook.source f ∈ entryLooks limits path depth e := by
  match e with
  | .symlink name stat => simp [WorkEntry.filesOutside]
  | .other name stat => simp [WorkEntry.filesOutside]
  | .file name stat size text =>
      intro f hf hrust
      simp only [WorkEntry.filesOutside, List.mem_singleton] at hf
      subst hf
      have hname : isRustSource name = true := hrust
      simp only [entryLooks] at hcut ⊢
      split_ifs at hcut ⊢ with hstat
      · exact List.mem_singleton.mpr rfl
      · simp at hcut
  | .dir name stat readable entries =>
      intro f hf hrust
      rw [WorkEntry.filesOutside] at hf
      simp only [entryLooks] at hcut ⊢
      split at hf
      · simp at hf
      · rename_i hexempt
        -- what the walk skips is exempt from the probe too
        have hname : ¬ (name = "target" ∨ name = "vendor") := by
          rintro (rfl | rfl)
          · exact hexempt (by decide)
          · exact hexempt (by decide)
        rw [if_neg hname] at hcut ⊢
        split_ifs at hcut ⊢
        · simp at hcut
        · have hbelow : CrateLook.cut ∉ entriesLooks limits (path ++ [name]) (depth + 1) entries :=
            fun h => hcut (List.mem_cons_of_mem _ h)
          exact List.mem_cons_of_mem _
            (rust_mem_entriesLooks (path ++ [name]) (depth + 1) entries hbelow f hf hrust)
        · simp at hcut
        · simp at hcut

/-- When nothing is left out, every Rust source outside the exempt directories is looked
at. -/
theorem rust_mem_entriesLooks (path : List String) (depth : Nat) (entries : List WorkEntry)
    (hcut : CrateLook.cut ∉ entriesLooks limits path depth entries) :
    ∀ f ∈ filesOutside probeExempt path entries, isRustSource f.fileName = true →
      CrateLook.source f ∈ entriesLooks limits path depth entries := by
  match entries with
  | [] => simp [filesOutside]
  | e :: rest =>
      intro f hf hrust
      simp only [entriesLooks, filesOutside, List.mem_append, not_or] at hcut hf ⊢
      rcases hf with hf | hf
      · exact Or.inl (rust_mem_entryLooks path depth e hcut.1 f hf hrust)
      · exact Or.inr (rust_mem_entriesLooks path depth rest hcut.2 f hf hrust)

end

/-- The `src` of a crate, where it is a directory, is looked at as a whole. -/
theorem rust_mem_srcLooks {path : List String} {e : WorkEntry} (hkind : e.pathKind = .dir)
    (hcut : CrateLook.cut ∉ srcLooks limits path (some e)) {f : RepoFile}
    (hf : f ∈ filesOutside probeExempt path e.entries) (hrust : isRustSource f.fileName = true) :
    CrateLook.source f ∈ srcLooks limits path (some e) := by
  obtain ⟨name, stat, readable, entries, rfl, hstat⟩ := WorkEntry.eq_dir_of_pathKind hkind
  simp only [srcLooks, if_pos hstat] at hcut ⊢
  split_ifs at hcut ⊢
  · simp at hcut
  · have hbelow : CrateLook.cut ∉ entriesLooks limits path 1 entries :=
      fun h => hcut (List.mem_cons_of_mem _ h)
    exact List.mem_cons_of_mem _ (rust_mem_entriesLooks limits path 1 entries hbelow f hf hrust)
  · simp at hcut

theorem source_mem_srcLooks {path : List String} {found : Option WorkEntry} {g : RepoFile}
    (hg : CrateLook.source g ∈ srcLooks limits path found) :
    ∃ e, found = some e ∧ isRustSource g.fileName = true ∧ g ∈ filesBelow path e.entries := by
  match found with
  | none => simp [srcLooks] at hg
  | some (.file name stat size text) => simp [srcLooks] at hg
  | some (.other name stat) => simp [srcLooks] at hg
  | some (.symlink name stat) =>
      simp only [srcLooks] at hg
      split at hg <;> simp at hg
  | some (.dir name stat readable entries) =>
      simp only [srcLooks] at hg
      split_ifs at hg
      · simp at hg
      · simp only [List.mem_cons, reduceCtorEq, false_or] at hg
        exact ⟨_, rfl, source_mem_entriesLooks limits path 1 entries g hg⟩
      · simp at hg
      · simp at hg

/-- What the crate walk looks at are Rust files of the work directory. -/
theorem source_mem_crateLooks {entries : List WorkEntry} {files : List RepoFile} {g : RepoFile}
    (hg : CrateLook.source g ∈ crateLooks limits entries files) :
    isRustSource g.fileName = true ∧ g ∈ filesBelow [] entries := by
  obtain ⟨path, -, hlook⟩ := List.mem_flatMap.mp hg
  obtain ⟨e, hfound, hrust, hmem⟩ := source_mem_srcLooks limits hlook
  exact ⟨hrust, filesBelow_lookup hfound hmem⟩

theorem source_of_fresh {seen : List (List String)} {looks : List CrateLook} {g : RepoFile}
    (hg : g ∈ freshSources seen looks) :
    CrateLook.source g ∈ looks ∧ isRustBuildOrVendoredPath g.dir = false := by
  induction looks generalizing seen with
  | nil => simp [freshSources] at hg
  | cons l rest ih =>
      cases l with
      | pass => exact (ih hg).imp_left (List.mem_cons_of_mem _)
      | cut => exact (ih hg).imp_left (List.mem_cons_of_mem _)
      | source file =>
          rw [freshSources] at hg
          split_ifs at hg with hseen
          · exact (ih hg).imp_left (List.mem_cons_of_mem _)
          · rcases List.mem_cons.mp hg with rfl | hg
            · refine ⟨List.mem_cons_self, ?_⟩
              rw [← Bool.not_eq_true]
              exact fun hvendored => hseen (Or.inr hvendored)
            · exact (ih hg).imp_left (List.mem_cons_of_mem _)

/-- A source looked at was seen before or is listed. -/
theorem seen_or_fresh {seen : List (List String)} {looks : List CrateLook} {f : RepoFile}
    (hf : CrateLook.source f ∈ looks) (hown : isRustBuildOrVendoredPath f.dir = false) :
    f.path ∈ seen ∨ ∃ g ∈ freshSources seen looks, g.path = f.path := by
  induction looks generalizing seen with
  | nil => simp at hf
  | cons l rest ih =>
      rcases List.mem_cons.mp hf with rfl | hrest
      · by_cases hseen : f.path ∈ seen
        · exact Or.inl hseen
        · rw [freshSources, if_neg (by simp [hseen, hown])]
          exact Or.inr ⟨f, List.mem_cons_self, rfl⟩
      · cases l with
        | pass => exact ih hrest
        | cut => exact ih hrest
        | source file =>
            rw [freshSources]
            split_ifs with hseen
            · exact ih hrest
            · -- what the head has put among the seen is listed with it
              have hin : f.path ∈ file.path :: seen ∨
                  ∃ g ∈ freshSources (file.path :: seen) rest, g.path = f.path := ih hrest
              rcases hin with hin | ⟨g, hg, hpath⟩
              · rcases List.mem_cons.mp hin with heq | hin
                · exact Or.inr ⟨file, List.mem_cons_self, heq.symm⟩
                · exact Or.inl hin
              · exact Or.inr ⟨g, List.mem_cons_of_mem _ hg, hpath⟩

end CrateSrc

end Scanner
end Ctem
