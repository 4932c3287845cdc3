import Ctem.Foundation.JsText

/-!
# Walking a checkout

`listRepoFiles` lists the files of a checkout without its dependency and build
directories, up to a number of files and a depth.  A directory that cannot be read
is skipped like an empty one.

* `RepoEntry` is what is on the disk; a directory knows its entries also when it
  cannot be read.
* `visibleFiles` are the files a walk without a cap on their number lists;
  `listRepoFiles_eq_take` says the cap cuts off their end.
* `Unlisted` are the directories the walk has not, or not wholly, looked into.
-/

namespace Ctem
namespace Scanner

open Foundation

/-- An entry of a directory; `other` is a symlink, a socket or the like. -/
inductive RepoEntry where
  | file (name : String) (size : Nat) (text : Except String String)
  | dir (name : String) (readable : Bool) (entries : List RepoEntry)
  | other (name : String)

/-- A checkout: its root directory. -/
structure RepoTree where
  readable : Bool := true
  entries : List RepoEntry

/-- A listed file; `dir` is the path of its directory below the root. -/
structure RepoFile where
  dir : List String
  fileName : String
  size : Nat
  text : Except String String

/-- The path below the root, with forward slashes. -/
def RepoFile.relPath (f : RepoFile) : String :=
  joinWith "/" (f.dir ++ [f.fileName])

structure WalkLimits where
  maxFiles : Nat := 10000
  maxDepth : Nat := 32

/-- `IGNORE_DIRS` of the SCA and SAST walks. -/
def ignoreDirs : List String :=
  [".git", "node_modules", "vendor", "dist", "build", "target", ".venv", "venv", "__pycache__",
    ".tox", ".pnpm-store", "bower_components", "coverage", ".next", ".nuxt", "obj", "bin"]

/-- `IGNORE_DIRS` of the IaC walk. -/
def iacIgnoreDirs : List String :=
  ignoreDirs ++ [".terraform"]

section Walk

variable (ignore : List String) (limits : WalkLimits)

/-- The walk never enters a directory of this name. -/
def skipsDir (name : String) : Bool :=
  decide (name ∈ ignore) || startsWith name "."

mutual

/-- One round of the loop over a directory's entries: `path` is the directory,
`depth` its depth and `out` what has been listed so far. -/
def walkEntry (path : List String) (depth : Nat) (out : List RepoFile) :
    RepoEntry → List RepoFile
  | .file name size text => out ++ [⟨path, name, size, text⟩]
  | .other _ => out
  | .dir name readable entries =>
      if skipsDir ignore name then out
      else if limits.maxDepth < depth + 1 then out
      else if limits.maxFiles ≤ out.length then out
      else if readable then walkEntries (path ++ [name]) (depth + 1) out entries
      else out

def walkEntries (path : List String) (depth : Nat) (out : List RepoFile) :
    List RepoEntry → List RepoFile
  | [] => out
  | e :: rest =>
      if limits.maxFiles ≤ out.length then out
      else walkEntries path depth (walkEntry path depth out e) rest

end

/-- `listRepoFiles`. -/
def listRepoFiles (tree : RepoTree) : List RepoFile :=
  if limits.maxFiles = 0 then []
  else if tree.readable then walkEntries ignore limits [] 0 [] tree.entries
  else []

/-! ## Without the cap -/

mutual

/-- The files a walk without a cap on their number lists below an entry. -/
def visibleEntry (path : List String) (depth : Nat) : RepoEntry → List RepoFile
  | .file name size text => [⟨path, name, size, text⟩]
  | .other _ => []
  | .dir name readable entries =>
      if skipsDir ignore name then []
      else if limits.maxDepth < depth + 1 then []
      else if readable then visibleEntries (path ++ [name]) (depth + 1) entries
      else []

def visibleEntries (path : List String) (depth : Nat) : List RepoEntry → List RepoFile
  | [] => []
  | e :: rest => visibleEntry path depth e ++ visibleEntries path depth rest

end

/-- The files of a checkout in readable directories within the depth. -/
def visibleFiles (tree : RepoTree) : List RepoFile :=
  if tree.readable then visibleEntries ignore limits [] 0 tree.entries else []

mutual

theorem walkEntry_eq_take (path : List String) (depth : Nat) (out : List RepoFile)
    (e : RepoEntry) (hroom : out.length < limits.maxFiles) :
    walkEntry ignore limits path depth out e =
      (out ++ visibleEntry ignore limits path depth e).take limits.maxFiles := by
  have hout : out.take limits.maxFiles = out := List.take_of_length_le (Nat.le_of_lt hroom)
  match e with
  | .file name size text =>
      have hlen : (out ++ [(⟨path, name, size, text⟩ : RepoFile)]).length ≤ limits.maxFiles := by
        rw [List.length_append, List.length_singleton]
        omega
      simp only [walkEntry, visibleEntry]
      rw [List.take_of_length_le hlen]
  | .other name => simp [walkEntry, visibleEntry, hout]
  | .dir name readable entries =>
      simp only [walkEntry, visibleEntry]
      by_cases hskip : skipsDir ignore name = true
      · simp [hskip, hout]
      · by_cases hdepth : limits.maxDepth < depth + 1
        · simp [hskip, hdepth, hout]
        · have hfull : ¬ limits.maxFiles ≤ out.length := by omega
          cases readable with
          | true =>
              simp only [hskip, hdepth, hfull, if_false, if_true, Bool.false_eq_true]
              exact walkEntries_eq_take (path ++ [name]) (depth + 1) out entries
                (Nat.le_of_lt hroom)
          | false => simp [hskip, hdepth, hout]

/-- Behind an accumulator that still fits, the loop lists what is visible, cut off at
the cap. -/
theorem walkEntries_eq_take (path : List String) (depth : Nat) (out : List RepoFile)
    (entries : List RepoEntry) (hroom : out.length ≤ limits.maxFiles) :
    walkEntries ignore limits path depth out entries =
      (out ++ visibleEntries ignore limits path depth entries).take limits.maxFiles := by
  match entries with
  | [] =>
      simp only [walkEntries, visibleEntries, List.append_nil]
      exact (List.take_of_length_le hroom).symm
  | e :: rest =>
      simp only [walkEntries, visibleEntries]
      by_cases hfull : limits.maxFiles ≤ out.length
      · have hlen : out.length = limits.maxFiles := by omega
        rw [if_pos hfull, ← hlen, List.take_left]
      · have hlt : out.length < limits.maxFiles := by omega
        have hhead := walkEntry_eq_take path depth out e hlt
        have hfit : (walkEntry ignore limits path depth out e).length ≤ limits.maxFiles := by
          rw [hhead, List.length_take]
          omega
        rw [if_neg hfull, walkEntries_eq_take path depth _ rest hfit, hhead]
        -- what the head cut off is cut off again
        generalize visibleEntry ignore limits path depth e = seen
        generalize visibleEntries ignore limits path depth rest = more
        rw [← List.append_assoc]
        generalize out ++ seen = front
        rw [List.take_append, List.take_append, List.take_take, List.length_take, Nat.min_self]
        by_cases hshort : front.length ≤ limits.maxFiles
        · rw [Nat.min_eq_right hshort]
        · have hcut : limits.maxFiles - min limits.maxFiles front.length = 0 := by omega
          have hcut' : limits.maxFiles - front.length = 0 := by omega
          rw [hcut, hcut']

end

/-- The cap cuts off the end of what is visible. -/
theorem listRepoFiles_eq_take (tree : RepoTree) :
    listRepoFiles ignore limits tree =
      (visibleFiles ignore limits tree).take limits.maxFiles := by
  unfold listRepoFiles visibleFiles
  by_cases hzero : limits.maxFiles = 0
  · simp [hzero]
  · rw [if_neg hzero]
    cases tree.readable with
    | true => exact walkEntries_eq_take ignore limits [] 0 [] tree.entries (Nat.zero_le _)
    | false => simp

/-! ## What a walk has not looked into -/

mutual

/-- The directories below an entry that cannot be read or lie too deep. -/
def unreadEntry (path : List String) (depth : Nat) : RepoEntry → List (List String)
  | .file _ _ _ => []
  | .other _ => []
  | .dir name readable entries =>
      if skipsDir ignore name then []
      else if limits.maxDepth < depth + 1 then [path ++ [name]]
      else if readable then unreadEntries (path ++ [name]) (depth + 1) entries
      else [path ++ [name]]

def unreadEntries (path : List String) (depth : Nat) : List RepoEntry → List (List String)
  | [] => []
  | e :: rest => unreadEntry path depth e ++ unreadEntries path depth rest

end

/-- The directories of a checkout the walk does not read. -/
def unreadDirs (tree : RepoTree) : List (List String) :=
  if tree.readable then unreadEntries ignore limits [] 0 tree.entries else [[]]

/-- The walk has not read the directory, or the cap cut off files of it. -/
def Unlisted (tree : RepoTree) (dir : List String) : Prop :=
  dir ∈ unreadDirs ignore limits tree ∨
    ∃ f ∈ (visibleFiles ignore limits tree).drop limits.maxFiles, f.dir = dir

mutual

/-- The files below an entry, outside the ignored directories. -/
def ownEntry (path : List String) : RepoEntry → List RepoFile
  | .file name size text => [⟨path, name, size, text⟩]
  | .other _ => []
  | .dir name _ entries => if skipsDir ignore name then [] else ownEntries (path ++ [name]) entries

def ownEntries (path : List String) : List RepoEntry → List RepoFile
  | [] => []
  | e :: rest => ownEntry path e ++ ownEntries path rest

end

mutual

/-- Files lie below the directory they are found in. -/
theorem ownEntry_dir (path : List String) (e : RepoEntry) :
    ∀ f ∈ ownEntry ignore path e, path <+: f.dir := by
  match e with
  | .file name size text =>
      intro f hf
      simp only [ownEntry, List.mem_singleton] at hf
      subst hf
      exact List.prefix_rfl
  | .other name => simp [ownEntry]
  | .dir name readable entries =>
      intro f hf
      simp only [ownEntry] at hf
      split at hf
      · simp at hf
      · exact (List.prefix_append path [name]).trans
          (ownEntries_dir (path ++ [name]) entries f hf)

theorem ownEntries_dir (path : List String) (entries : List RepoEntry) :
    ∀ f ∈ ownEntries ignore path entries, path <+: f.dir := by
  match entries with
  | [] => simp [ownEntries]
  | e :: rest =>
      intro f hf
      simp only [ownEntries, List.mem_append] at hf
      rcases hf with hf | hf
      · exact ownEntry_dir path e f hf
      · exact ownEntries_dir path rest f hf

end

mutual

theorem visible_or_unread_entry (path : List String) (depth : Nat) (e : RepoEntry) :
    ∀ f ∈ ownEntry ignore path e, f ∈ visibleEntry ignore limits path depth e ∨
      ∃ dir ∈ unreadEntry ignore limits path depth e, dir <+: f.dir := by
  match e with
  | .file name size text =>
      intro f hf
      exact Or.inl hf
  | .other name => simp [ownEntry]
  | .dir name readable entries =>
      intro f hf
      simp only [ownEntry] at hf
      split at hf
      · simp at hf
      · rename_i hskip
        simp only [visibleEntry, unreadEntry, if_neg hskip]
        by_cases hdepth : limits.maxDepth < depth + 1
        · simp only [if_pos hdepth]
          exact Or.inr ⟨_, List.mem_singleton.mpr rfl, ownEntries_dir ignore _ entries f hf⟩
        · simp only [if_neg hdepth]
          cases readable with
          | true => exact visible_or_unread_entries (path ++ [name]) (depth + 1) entries f hf
          | false =>
              exact Or.inr ⟨_, List.mem_singleton.mpr rfl, ownEntries_dir ignore _ entries f hf⟩

theorem visible_or_unread_entries (path : List String) (depth : Nat) (entries : List RepoEntry) :
    ∀ f ∈ ownEntries ignore path entries, f ∈ visibleEntries ignore limits path depth entries ∨
      ∃ dir ∈ unreadEntries ignore limits path depth entries, dir <+: f.dir := by
  match entries with
  | [] => simp [ownEntries]
  | e :: rest =>
      intro f hf
      simp only [ownEntries, visibleEntries, unreadEntries, List.mem_append] at hf ⊢
      rcases hf with hf | hf
      · rcases visible_or_unread_entry path depth e f hf with hseen | ⟨dir, hdir, hpre⟩
        · exact Or.inl (Or.inl hseen)
        · exact Or.inr ⟨dir, Or.inl hdir, hpre⟩
      · rcases visible_or_unread_entries path depth rest f hf with hseen | ⟨dir, hdir, hpre⟩
        · exact Or.inl (Or.inr hseen)
        · exact Or.inr ⟨dir, Or.inr hdir, hpre⟩

end

/-- A file of the checkout is listed or lies in a directory the walk has not looked
into. -/
theorem listed_or_unlisted (tree : RepoTree) {f : RepoFile}
    (hf : f ∈ ownEntries ignore [] tree.entries) :
    f ∈ listRepoFiles ignore limits tree ∨
      ∃ dir, Unlisted ignore limits tree dir ∧ dir <+: f.dir := by
  have hvisible : f ∈ visibleFiles ignore limits tree ∨
      ∃ dir ∈ unreadDirs ignore limits tree, dir <+: f.dir := by
    unfold visibleFiles unreadDirs
    cases tree.readable with
    | true => exact visible_or_unread_entries ignore limits [] 0 tree.entries f hf
    | false => exact Or.inr ⟨[], List.mem_singleton.mpr rfl, List.nil_prefix⟩
  rcases hvisible with hseen | ⟨dir, hdir, hpre⟩
  · rw [listRepoFiles_eq_take]
    rw [← List.take_append_drop limits.maxFiles (visibleFiles ignore limits tree),
      List.mem_append] at hseen
    rcases hseen with hlisted | hcut
    · exact Or.inl hlisted
    · exact Or.inr ⟨f.dir, Or.inr ⟨f, hcut, rfl⟩, List.prefix_rfl⟩
  · exact Or.inr ⟨dir, Or.inl hdir, hpre⟩

end Walk

end Scanner
end Ctem
