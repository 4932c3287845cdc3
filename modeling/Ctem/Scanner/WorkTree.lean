import Ctem.Scanner.RepoWalk

/-!
# A work directory under `lstat`

`readdir` names the kind of an entry.  The reachability analysis also asks `lstat`,
which tells symlinks and can fail for one entry by itself, and it looks entries up by
their path.

* `WorkTree` is a work directory whose names are distinct within each directory;
  `WorkTree.checkout` is what the shared walk sees of it.
* `filesOutside` are the files outside the directories of some names.
* `lookupEntry` follows a path.
-/

namespace Ctem
namespace Scanner

open Foundation

/-- An entry of a directory; `stat` is how `lstat` of it turns out. -/
inductive WorkEntry where
  | file (name : String) (stat : Except String Unit) (size : Nat) (text : Except String String)
  | dir (name : String) (stat : Except String Unit) (readable : Bool) (entries : List WorkEntry)
  | symlink (name : String) (stat : Except String Unit)
  | other (name : String) (stat : Except String Unit)

/-- `PathKind`. -/
inductive PathKind where
  | symlink | dir | file | other | missing | error
deriving DecidableEq, Repr

namespace WorkEntry

def name : WorkEntry → String
  | file name .. | dir name .. | symlink name _ | other name _ => name

/-- The entries of a directory. -/
def entries : WorkEntry → List WorkEntry
  | dir _ _ _ entries => entries
  | _ => []

/-- `pathKind` of the path of an entry: `lstat`, never followed. -/
def pathKind : WorkEntry → PathKind
  | file _ stat _ _ => if stat.isOk then .file else .error
  | dir _ stat _ _ => if stat.isOk then .dir else .error
  | symlink _ stat => if stat.isOk then .symlink else .error
  | other _ stat => if stat.isOk then .other else .error

theorem eq_dir_of_pathKind {e : WorkEntry} (h : e.pathKind = .dir) :
    ∃ name stat readable entries, e = dir name stat readable entries ∧ stat.isOk = true := by
  cases e with
  | dir name stat readable entries =>
      refine ⟨name, stat, readable, entries, rfl, ?_⟩
      by_contra hstat
      rw [pathKind, if_neg hstat] at h
      cases h
  | file name stat size text => simp only [pathKind] at h; split at h <;> cases h
  | symlink name stat => simp only [pathKind] at h; split at h <;> cases h
  | other name stat => simp only [pathKind] at h; split at h <;> cases h

end WorkEntry

/-- The file of an entry: it is read after a `stat` that can fail as well. -/
def fileAt (path : List String) (name : String) (stat : Except String Unit) (size : Nat)
    (text : Except String String) : RepoFile :=
  ⟨path, name, size, stat.bind fun _ => text⟩

mutual

/-- The entry as `readdir` tells it. -/
def WorkEntry.toRepo : WorkEntry → RepoEntry
  | .file name stat size text => .file name size (stat.bind fun _ => text)
  | .dir name _ readable entries => .dir name readable (toRepoEntries entries)
  | .symlink name _ => .other name
  | .other name _ => .other name

def toRepoEntries : List WorkEntry → List RepoEntry
  | [] => []
  | e :: rest => e.toRepo :: toRepoEntries rest

end

mutual

/-- No directory below has two entries of one name. -/
def WorkEntry.distinct : WorkEntry → Bool
  | .dir _ _ _ entries => distinctEntries entries
  | _ => true

def distinctEntries : List WorkEntry → Bool
  | [] => true
  | e :: rest => e.distinct && rest.all (fun e' => decide (e'.name ≠ e.name)) &&
      distinctEntries rest

end

/-- A work directory as it stands while it is analysed. -/
structure WorkTree where
  workDir : String
  /-- `stat(workDir)`: whether it is a directory. -/
  isDirectory : Except String Bool := .ok true
  /-- `readdir(workDir)`. -/
  readdir : Except String Unit := .ok ()
  entries : List WorkEntry
  distinct : distinctEntries entries = true

/-- What the shared walk sees. -/
def WorkTree.checkout (tree : WorkTree) : RepoTree where
  readable := tree.readdir.isOk
  entries := toRepoEntries tree.entries

/-- The segments of the path below the root. -/
def RepoFile.path (f : RepoFile) : List String :=
  f.dir ++ [f.fileName]

/-! ## Files outside some directories -/

section FilesOutside

variable (skip : String → Bool)

mutual

/-- The files below an entry, outside directories of a name to skip. -/
def WorkEntry.filesOutside (path : List String) : WorkEntry → List RepoFile
  | .file name stat size text => [fileAt path name stat size text]
  | .dir name _ _ entries => if skip name then [] else filesOutside (path ++ [name]) entries
  | .symlink _ _ => []
  | .other _ _ => []

def filesOutside (path : List String) : List WorkEntry → List RepoFile
  | [] => []
  | e :: rest => e.filesOutside path ++ filesOutside path rest

end

mutual

/-- The directories on the way to such a file are not skipped. -/
theorem WorkEntry.filesOutside_segments (path : List String) (e : WorkEntry) :
    ∀ f ∈ e.filesOutside skip path, ∀ n ∈ f.dir, n ∈ path ∨ skip n = false := by
  match e with
  | .file name stat size text =>
      intro f hf n hn
      simp only [WorkEntry.filesOutside, List.mem_singleton] at hf
      subst hf
      exact Or.inl hn
  | .symlink name stat => simp [WorkEntry.filesOutside]
  | .other name stat => simp [WorkEntry.filesOutside]
  | .dir name stat readable entries =>
      intro f hf n hn
      simp only [WorkEntry.filesOutside] at hf
      split at hf
      · simp at hf
      · rename_i hskip
        rcases filesOutside_segments (path ++ [name]) entries f hf n hn with hin | hclean
        · rcases List.mem_append.mp hin with hin | hin
          · exact Or.inl hin
          · rw [List.mem_singleton.mp hin]
            exact Or.inr (by simpa using hskip)
        · exact Or.inr hclean

theorem filesOutside_segments (path : List String) (entries : List WorkEntry) :
    ∀ f ∈ filesOutside skip path entries, ∀ n ∈ f.dir, n ∈ path ∨ skip n = false := by
  match entries with
  | [] => simp [filesOutside]
  | e :: rest =>
      intro f hf
      simp only [filesOutside, List.mem_append] at hf
      rcases hf with hf | hf
      · exact e.filesOutside_segments path f hf
      · exact filesOutside_segments path rest f hf

end

mutual

/-- The path of a file below an entry goes through the entry. -/
theorem WorkEntry.filesOutside_prefix (path : List String) (e : WorkEntry) :
    ∀ f ∈ e.filesOutside skip path, path ++ [e.name] <+: f.path := by
  match e with
  | .file name stat size text =>
      intro f hf
      simp only [WorkEntry.filesOutside, List.mem_singleton] at hf
      subst hf
      exact List.prefix_rfl
  | .symlink name stat => simp [WorkEntry.filesOutside]
  | .other name stat => simp [WorkEntry.filesOutside]
  | .dir name stat readable entries =>
      intro f hf
      simp only [WorkEntry.filesOutside] at hf
      split at hf
      · simp at hf
      · obtain ⟨below, _, hpre⟩ := filesOutside_prefix (path ++ [name]) entries f hf
        exact (List.prefix_append _ [below.name]).trans hpre

theorem filesOutside_prefix (path : List String) (entries : List WorkEntry) :
    ∀ f ∈ filesOutside skip path entries, ∃ e ∈ entries, path ++ [e.name] <+: f.path := by
  match entries with
  | [] => simp [filesOutside]
  | e :: rest =>
      intro f hf
      simp only [filesOutside, List.mem_append] at hf
      rcases hf with hf | hf
      · exact ⟨e, List.mem_cons_self, e.filesOutside_prefix path f hf⟩
      · obtain ⟨below, hbelow, hpre⟩ := filesOutside_prefix path rest f hf
        exact ⟨below, List.mem_cons_of_mem _ hbelow, hpre⟩

end

theorem distinctEntries_cons {e : WorkEntry} {rest : List WorkEntry}
    (h : distinctEntries (e :: rest) = true) :
    e.distinct = true ∧ (∀ e' ∈ rest, e'.name ≠ e.name) ∧ distinctEntries rest = true := by
  simp only [distinctEntries, Bool.and_eq_true, List.all_eq_true, decide_eq_true_eq] at h
  exact ⟨h.1.1, h.1.2, h.2⟩

/-- Two entries of different names have no file in common. -/
theorem filesOutside_ne {path : List String} {e : WorkEntry} {rest : List WorkEntry}
    (hne : ∀ e' ∈ rest, e'.name ≠ e.name) {f g : RepoFile} (hf : f ∈ e.filesOutside skip path)
    (hg : g ∈ filesOutside skip path rest) : f.path ≠ g.path := by
  intro heq
  have hthrough := e.filesOutside_prefix skip path f hf
  obtain ⟨e', he', hthrough'⟩ := filesOutside_prefix skip path rest g hg
  rw [← heq] at hthrough'
  have hpre : path ++ [e'.name] <+: path ++ [e.name] :=
    List.prefix_of_prefix_length_le hthrough' hthrough (by simp)
  have hname : [e'.name] <+: [e.name] := (List.prefix_append_right_inj path).mp hpre
  exact hne e' he' (by simpa using hname)

mutual

theorem WorkEntry.filesOutside_path_inj (path : List String) (e : WorkEntry)
    (hdistinct : e.distinct = true) :
    ∀ f ∈ e.filesOutside skip path, ∀ g ∈ e.filesOutside skip path, f.path = g.path → f = g := by
  match e with
  | .file name stat size text =>
      intro f hf g hg _
      simp only [WorkEntry.filesOutside, List.mem_singleton] at hf hg
      rw [hf, hg]
  | .symlink name stat => simp [WorkEntry.filesOutside]
  | .other name stat => simp [WorkEntry.filesOutside]
  | .dir name stat readable entries =>
      intro f hf g hg heq
      simp only [WorkEntry.filesOutside] at hf hg
      split at hf
      · simp at hf
      · rename_i hskip
        rw [if_neg hskip] at hg
        exact filesOutside_path_inj (path ++ [name]) entries hdistinct f hf g hg heq

/-- Where names are distinct, a path is that of one file. -/
theorem filesOutside_path_inj (path : List String) (entries : List WorkEntry)
    (hdistinct : distinctEntries entries = true) :
    ∀ f ∈ filesOutside skip path entries, ∀ g ∈ filesOutside skip path entries,
      f.path = g.path → f = g := by
  match entries with
  | [] => simp [filesOutside]
  | e :: rest =>
      obtain ⟨hhead, hne, hrest⟩ := distinctEntries_cons hdistinct
      intro f hf g hg heq
      simp only [filesOutside, List.mem_append] at hf hg
      -- a file below the head and one below another entry differ in the path
      rcases hf with hf | hf <;> rcases hg with hg | hg
      · exact e.filesOutside_path_inj path hhead f hf g hg heq
      · exact absurd heq (filesOutside_ne skip hne hf hg)
      · exact absurd heq.symm (filesOutside_ne skip hne hg hf)
      · exact filesOutside_path_inj path rest hrest f hf g hg heq

end

end FilesOutside

/-- All files below the entries of a directory. -/
abbrev filesBelow (path : List String) (entries : List WorkEntry) : List RepoFile :=
  filesOutside (fun _ => false) path entries

mutual

theorem WorkEntry.filesOutside_mono {skip skip' : String → Bool}
    (h : ∀ n, skip' n = true → skip n = true) (path : List String) (e : WorkEntry) :
    e.filesOutside skip path ⊆ e.filesOutside skip' path := by
  match e with
  | .file name stat size text => exact fun f hf => hf
  | .symlink name stat => simp [WorkEntry.filesOutside]
  | .other name stat => simp [WorkEntry.filesOutside]
  | .dir name stat readable entries =>
      intro f hf
      simp only [WorkEntry.filesOutside] at hf ⊢
      split at hf
      · simp at hf
      · rename_i hskip
        rw [if_neg fun hskip' => hskip (h name hskip')]
        exact filesOutside_mono h (path ++ [name]) entries hf

theorem filesOutside_mono {skip skip' : String → Bool} (h : ∀ n, skip' n = true → skip n = true)
    (path : List String) (entries : List WorkEntry) :
    filesOutside skip path entries ⊆ filesOutside skip' path entries := by
  match entries with
  | [] => exact fun f hf => hf
  | e :: rest =>
      intro f hf
      simp only [filesOutside, List.mem_append] at hf ⊢
      exact hf.imp (fun hf => e.filesOutside_mono h path hf)
        (fun hf => filesOutside_mono h path rest hf)

end

theorem filesOutside_subset_below (skip : String → Bool) (path : List String)
    (entries : List WorkEntry) : filesOutside skip path entries ⊆ filesBelow path entries :=
  filesOutside_mono (fun _ h => absurd h Bool.false_ne_true) path entries

/-! ## What the shared walk sees -/

section Visible

variable (ignore : List String) (limits : WalkLimits)

mutual

theorem visibleEntry_subset (path : List String) (depth : Nat) (e : WorkEntry) :
    visibleEntry ignore limits path depth e.toRepo ⊆ e.filesOutside (skipsDir ignore) path := by
  match e with
  | .file name stat size text => exact fun f hf => hf
  | .symlink name stat => simp [WorkEntry.toRepo, visibleEntry]
  | .other name stat => simp [WorkEntry.toRepo, visibleEntry]
  | .dir name stat readable entries =>
      intro f hf
      simp only [WorkEntry.toRepo, visibleEntry, WorkEntry.filesOutside] at hf ⊢
      split at hf
      · simp at hf
      · rename_i hskip
        rw [if_neg hskip]
        split at hf
        · simp at hf
        · split at hf
          · exact visibleEntries_subset (path ++ [name]) (depth + 1) entries hf
          · simp at hf

/-- The walk lists files outside the ignored directories. -/
theorem visibleEntries_subset (path : List String) (depth : Nat) (entries : List WorkEntry) :
    visibleEntries ignore limits path depth (toRepoEntries entries) ⊆
      filesOutside (skipsDir ignore) path entries := by
  match entries with
  | [] => exact fun f hf => hf
  | e :: rest =>
      intro f hf
      simp only [toRepoEntries, visibleEntries, filesOutside, List.mem_append] at hf ⊢
      exact hf.imp (fun hf => visibleEntry_subset path depth e hf)
        (fun hf => visibleEntries_subset path depth rest hf)

end

theorem visibleFiles_subset (tree : WorkTree) :
    visibleFiles ignore limits tree.checkout ⊆ filesOutside (skipsDir ignore) [] tree.entries := by
  intro f hf
  unfold visibleFiles at hf
  split at hf
  · exact visibleEntries_subset ignore limits [] 0 tree.entries hf
  · simp at hf

end Visible

/-! ## Paths -/

/-- The entry a path leads to, through directories. -/
def lookupEntry (entries : List WorkEntry) : List String → Option WorkEntry
  | [] => none
  | name :: rest =>
      (entries.find? fun e => decide (e.name = name)).bind fun e =>
        if rest.isEmpty then some e else lookupEntry e.entries rest

theorem lookupEntry_head (e : WorkEntry) (rest : List WorkEntry) :
    lookupEntry (e :: rest) [e.name] = some e := by
  simp [lookupEntry]

theorem lookupEntry_below (e : WorkEntry) (rest : List WorkEntry) {path : List String}
    (hpath : path ≠ []) :
    lookupEntry (e :: rest) (e.name :: path) = lookupEntry e.entries path := by
  simp [lookupEntry, hpath]

theorem lookupEntry_tail {e : WorkEntry} {rest : List WorkEntry}
    (hne : ∀ e' ∈ rest, e'.name ≠ e.name) {path : List String} {found : WorkEntry}
    (h : lookupEntry rest path = some found) : lookupEntry (e :: rest) path = some found := by
  cases path with
  | nil => simp [lookupEntry] at h
  | cons name below =>
      obtain ⟨e', hfind, _⟩ := Option.bind_eq_some_iff.mp h
      have hname : e'.name = name := by simpa using List.find?_some hfind
      -- the search passes over the head
      have hother : e.name ≠ name := by
        rw [← hname]
        exact fun heq => hne e' (List.mem_of_find?_eq_some hfind) heq.symm
      have hskip : (e :: rest).find? (fun e => decide (e.name = name)) =
          rest.find? (fun e => decide (e.name = name)) := by
        rw [List.find?_cons_of_neg (by simpa using hother)]
      unfold lookupEntry at h ⊢
      rw [hskip]
      exact h

theorem lookupEntry_single {e found : WorkEntry} (rest : List WorkEntry) {path : List String}
    (h : lookupEntry [e] path = some found) : lookupEntry (e :: rest) path = some found := by
  cases path with
  | nil => simp [lookupEntry] at h
  | cons name below =>
      obtain ⟨e', hfind, hbelow⟩ := Option.bind_eq_some_iff.mp h
      have hsame : (e :: rest).find? (fun e => decide (e.name = name)) = some e' := by
        have hhead : e' = e := by simpa using List.mem_of_find?_eq_some hfind
        have hname : e'.name = name := by simpa using List.find?_some hfind
        rw [← hhead, List.find?_cons_of_pos (by simpa using hname)]
      unfold lookupEntry
      rw [hsame]
      exact hbelow

theorem mem_filesOutside_of_mem {skip : String → Bool} {path : List String} {e : WorkEntry}
    {entries : List WorkEntry} (he : e ∈ entries) {f : RepoFile}
    (hf : f ∈ e.filesOutside skip path) : f ∈ filesOutside skip path entries := by
  induction entries with
  | nil => simp at he
  | cons head rest ih =>
      simp only [filesOutside, List.mem_append]
      rcases List.mem_cons.mp he with rfl | he
      · exact Or.inl hf
      · exact Or.inr (ih he)

/-- What lies below the entry a path leads to lies below the start of the path. -/
theorem filesBelow_lookup {entries : List WorkEntry} {path below : List String} {e : WorkEntry}
    (h : lookupEntry entries below = some e) {f : RepoFile}
    (hf : f ∈ filesBelow (path ++ below) e.entries) : f ∈ filesBelow path entries := by
  induction below generalizing entries path with
  | nil => simp [lookupEntry] at h
  | cons name rest ih =>
      obtain ⟨e', hfind, hrest⟩ := Option.bind_eq_some_iff.mp h
      have hname : e'.name = name := by simpa using List.find?_some hfind
      have hpath : path ++ name :: rest = (path ++ [name]) ++ rest := by simp
      rw [hpath] at hf
      have hbelow : f ∈ filesBelow (path ++ [name]) e'.entries := by
        split at hrest
        · rename_i hempty
          rw [List.isEmpty_iff] at hempty
          cases hrest
          rwa [hempty, List.append_nil] at hf
        · exact ih hrest hf
      refine mem_filesOutside_of_mem (List.mem_of_find?_eq_some hfind) ?_
      cases e' with
      | dir n stat readable sub =>
          subst hname
          rw [WorkEntry.filesOutside, if_neg Bool.false_ne_true]
          exact hbelow
      | file => simp [WorkEntry.entries, filesOutside] at hbelow
      | symlink => simp [WorkEntry.entries, filesOutside] at hbelow
      | other => simp [WorkEntry.entries, filesOutside] at hbelow

end Scanner
end Ctem
