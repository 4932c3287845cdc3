import Ctem.Scanner.RustProbe

/-!
# The reachability analysis

`reachabilityAnalyze` builds the import graph of a work directory from its first-party sources.
Whatever it leaves out is to set `truncated` or to mark a language ambiguous.

The extractors look at text only and are parameters.  `checkDeadline` is whether every
check of the deadline passes: one that does not ends the analysis with the same error
wherever it is made.

* `analysisRun` is the analysis without its ways to throw; it also keeps the files
  whose imports are in the graph, of which the source keeps the number.
* `analyzed_truncated_iff` and the lemmas beside it say what each part of the graph
  comes from.
-/

namespace Ctem
namespace Scanner

open Foundation

/-- What an extractor finds in a source. -/
structure ImportScan where
  packages : List String
  dynamic : Bool := false

/-- The parts of the analysis that only look at text. -/
structure ReachabilityCalls where
  toLowerCase : String → String
  extractImports : ReachabilityLanguage → String → ImportScan
  cargoTomlDeclaresDependencyRename : String → Bool

/-- `MAX_SOURCE_BYTES`. -/
def maxReachabilitySourceBytes : Nat := 1 * 1024 * 1024

/-- The text of a file.  A file over the cap and one that cannot be read set the same
flags. -/
def readSource (file : RepoFile) : Option String :=
  if maxReachabilitySourceBytes < file.size then none else file.text.toOption

/-- `isFirstPartySource`. -/
def isFirstPartySource (file : RepoFile) : Bool :=
  match languageOf file.fileName with
  | none => false
  | some language => !(decide (language = .rust) && isRustBuildOrVendoredPath file.dir)

/-- `addImported`. -/
def addImported (graph : ReachabilityGraph) (language : ReachabilityLanguage)
    (packages : List String) : ReachabilityGraph :=
  { graph with
    imported := graph.imported.upsert language fun names => packages.foldl setAdd (names.getD []) }

/-- The graph of the analysis and the files whose imports are in it. -/
structure Analysis where
  graph : ReachabilityGraph
  parsed : List RepoFile := []

section Analyze

variable (calls : ReachabilityCalls)

/-- One manifest of `noteCargoDependencyRenames`. -/
def noteCargoDependencyRename (graph : ReachabilityGraph) (file : RepoFile) : ReachabilityGraph :=
  match readSource file with
  | none => { graph with truncated := true, ambiguous := setAdd graph.ambiguous .rust }
  | some content =>
      if calls.cargoTomlDeclaresDependencyRename content then
        { graph with ambiguous := setAdd graph.ambiguous .rust }
      else graph

def noteCargoDependencyRenames (files : List RepoFile) (graph : ReachabilityGraph) :
    ReachabilityGraph :=
  (files.filter fun file => decide (file.fileName = "Cargo.toml")).foldl
    (noteCargoDependencyRename calls) graph

/-- One round of the loop over the sources. -/
def analyzeSource (run : Analysis) (file : RepoFile) : Analysis :=
  match languageOf file.fileName with
  -- no walk lists such a source
  | none => run
  | some language =>
      match readSource file with
      | none =>
          { run with
            graph :=
              { run.graph with
                truncated := true
                ambiguous := setAdd run.graph.ambiguous language } }
      | some content =>
          let extracted := calls.extractImports language content
          let graph := addImported run.graph language extracted.packages
          { graph :=
              { graph with
                languages := setAdd graph.languages language
                ambiguous :=
                  if extracted.dynamic then setAdd graph.ambiguous language else graph.ambiguous }
            parsed := run.parsed ++ [file] }

/-- `sharedWalkFoundRust`. -/
def sharedWalkFoundRust (files : List RepoFile) : Bool :=
  files.any fun file => decide (file.fileName = "Cargo.toml") || isRustSource file.fileName

/-- The files of the shared walk. -/
def listedFiles (tree : WorkTree) : List RepoFile :=
  listRepoFiles ignoreDirs {} tree.checkout

/-- The crate walk of the analysis. -/
def crateWalk (tree : WorkTree) : CrateWalk :=
  listCrateSrcRustFiles {} tree.entries (listedFiles tree)

/-- The graph before any source is read. -/
def startGraph (tree : WorkTree) : ReachabilityGraph :=
  let files := listedFiles tree
  let graph := noteCargoDependencyRenames calls files
    { truncated := decide (({} : WalkLimits).maxFiles ≤ files.length) }
  let graph := { graph with truncated := graph.truncated || (crateWalk tree).truncated }
  -- the probe marks Rust alone: other languages keep their verdicts
  if sharedWalkFoundRust files &&
      (noteIgnoredRustDirs {} (crateSrcDirectories files) tree).ambiguous then
    { graph with ambiguous := setAdd graph.ambiguous .rust }
  else graph

/-- `source`: the first-party files the walks have found. -/
def sourcesOf (tree : WorkTree) : List RepoFile :=
  (listedFiles tree).filter isFirstPartySource ++ (crateWalk tree).out

def analysisRun (tree : WorkTree) : Analysis :=
  (sourcesOf tree).foldl (analyzeSource calls) { graph := startGraph calls tree }

/-- `assertReadableWorkDir`. -/
def assertReadableWorkDir (tree : WorkTree) : Except String Unit :=
  let unreadable := fun message =>
    "Reachability analyzer could not read workDir " ++ tree.workDir ++ ": " ++ message
  match tree.isDirectory with
  | .error message => .error (unreadable message)
  | .ok false => .error ("Reachability workDir is not a directory: " ++ tree.workDir)
  | .ok true => tree.readdir.mapError unreadable

/-- `ReachabilityAnalyzer.analyze`. -/
def reachabilityAnalyze (tree : WorkTree) (checkDeadline : Bool) : Except String Analysis := do
  assertReadableWorkDir tree
  if checkDeadline = false then throw "Job deadline exceeded during reachability analysis"
  let run := analysisRun calls tree
  if 0 < (sourcesOf tree).length ∧ run.parsed.length = 0 then
    throw ("Reachability analyzer parsed none of " ++ toString (sourcesOf tree).length ++
      " source files — refusing an all-unknown success")
  return run

/-! ## What the loop over the sources leaves -/

theorem analyzeSource_truncated (run : Analysis) (file : RepoFile) :
    (analyzeSource calls run file).graph.truncated = true ↔
      run.graph.truncated = true ∨ languageOf file.fileName ≠ none ∧ readSource file = none := by
  unfold analyzeSource
  cases languageOf file.fileName with
  | none => simp
  | some language =>
      cases readSource file with
      | none => simp
      | some content => simp [addImported]

theorem analyzeSource_languages (run : Analysis) (file : RepoFile)
    (language : ReachabilityLanguage) :
    language ∈ (analyzeSource calls run file).graph.languages ↔
      language ∈ run.graph.languages ∨
        languageOf file.fileName = some language ∧ readSource file ≠ none := by
  unfold analyzeSource
  cases languageOf file.fileName with
  | none => simp
  | some other =>
      cases readSource file with
      | none => simp
      | some content => simp [addImported, mem_setAdd, eq_comm]

/-- The source leaves the language open: it was not read, or imports dynamically. -/
def LeavesOpen (calls : ReachabilityCalls) (language : ReachabilityLanguage) (file : RepoFile) :
    Prop :=
  languageOf file.fileName = some language ∧
    ∀ content, readSource file = some content →
      (calls.extractImports language content).dynamic = true

theorem analyzeSource_ambiguous (run : Analysis) (file : RepoFile)
    (language : ReachabilityLanguage) :
    language ∈ (analyzeSource calls run file).graph.ambiguous ↔
      language ∈ run.graph.ambiguous ∨ LeavesOpen calls language file := by
  unfold analyzeSource LeavesOpen
  cases languageOf file.fileName with
  | none => simp
  | some other =>
      cases readSource file with
      | none => simp [mem_setAdd, eq_comm (a := language) (b := other)]
      | some content =>
          by_cases hother : other = language
          · subst hother
            by_cases hdynamic : (calls.extractImports other content).dynamic = true
            · simp [addImported, hdynamic, mem_setAdd]
            · simp [addImported, hdynamic]
          · have hother' : language ≠ other := fun heq => hother heq.symm
            by_cases hdynamic : (calls.extractImports other content).dynamic = true
            · simp [addImported, hdynamic, mem_setAdd, hother, hother']
            · simp [addImported, hdynamic, hother]

theorem importedBy_addImported (graph : ReachabilityGraph) (other language : ReachabilityLanguage)
    (packages : List String) (name : String) :
    name ∈ (addImported graph other packages).importedBy language ↔
      name ∈ graph.importedBy language ∨ other = language ∧ name ∈ packages := by
  unfold addImported ReachabilityGraph.importedBy
  by_cases hother : other = language
  · subst hother
    simp only [AssocMap.lookup_upsert_self, Option.getD_some, mem_foldl_setAdd, true_and]
  · have hother' : language ≠ other := fun heq => hother heq.symm
    simp [AssocMap.lookup_upsert_ne _ _ hother', hother]

/-- The source was read and imports the package. -/
def Imports (calls : ReachabilityCalls) (language : ReachabilityLanguage) (name : String)
    (file : RepoFile) : Prop :=
  languageOf file.fileName = some language ∧
    ∃ content, readSource file = some content ∧
      name ∈ (calls.extractImports language content).packages

theorem analyzeSource_imported (run : Analysis) (file : RepoFile)
    (language : ReachabilityLanguage) (name : String) :
    name ∈ (analyzeSource calls run file).graph.importedBy language ↔
      name ∈ run.graph.importedBy language ∨ Imports calls language name file := by
  unfold analyzeSource Imports
  cases languageOf file.fileName with
  | none => simp
  | some other =>
      cases readSource file with
      | none => simp [ReachabilityGraph.importedBy]
      | some content =>
          have hadd := importedBy_addImported run.graph other language
            (calls.extractImports other content).packages name
          simp only [ReachabilityGraph.importedBy] at hadd ⊢
          rw [hadd]
          by_cases hother : other = language
          · subst hother
            simp
          · simp [hother]

theorem analyzeSource_parsed (run : Analysis) (file f : RepoFile) :
    f ∈ (analyzeSource calls run file).parsed ↔
      f ∈ run.parsed ∨ f = file ∧ languageOf file.fileName ≠ none ∧ readSource file ≠ none := by
  unfold analyzeSource
  cases languageOf file.fileName with
  | none => simp
  | some language =>
      cases readSource file with
      | none => simp
      | some content => simp

/-! ## What the graph starts from -/

theorem noteCargoDependencyRename_truncated (graph : ReachabilityGraph) (file : RepoFile) :
    (noteCargoDependencyRename calls graph file).truncated = true ↔
      graph.truncated = true ∨ readSource file = none := by
  unfold noteCargoDependencyRename
  cases readSource file with
  | none => simp
  | some content => simp only; split <;> simp

/-- The manifests concern Rust and the truncation only. -/
theorem noteCargoDependencyRenames_frame (files : List RepoFile) (graph : ReachabilityGraph) :
    (noteCargoDependencyRenames calls files graph).languages = graph.languages ∧
      (noteCargoDependencyRenames calls files graph).imported = graph.imported ∧
      ∀ language ≠ .rust, language ∈ (noteCargoDependencyRenames calls files graph).ambiguous ↔
        language ∈ graph.ambiguous := by
  unfold noteCargoDependencyRenames
  induction files.filter fun file => decide (file.fileName = "Cargo.toml") generalizing graph with
  | nil => exact ⟨rfl, rfl, fun _ _ => Iff.rfl⟩
  | cons file rest ih =>
      rw [List.foldl_cons]
      obtain ⟨hlanguages, himported, hambiguous⟩ := ih (noteCargoDependencyRename calls graph file)
      have hstep : (noteCargoDependencyRename calls graph file).languages = graph.languages ∧
          (noteCargoDependencyRename calls graph file).imported = graph.imported ∧
          ∀ language ≠ .rust, language ∈ (noteCargoDependencyRename calls graph file).ambiguous ↔
            language ∈ graph.ambiguous := by
        unfold noteCargoDependencyRename
        cases readSource file with
        | none => exact ⟨rfl, rfl, fun language hne => by simp [mem_setAdd, hne]⟩
        | some content =>
            simp only
            split
            · exact ⟨rfl, rfl, fun language hne => by simp [mem_setAdd, hne]⟩
            · exact ⟨rfl, rfl, fun _ _ => Iff.rfl⟩
      exact ⟨hlanguages.trans hstep.1, himported.trans hstep.2.1,
        fun language hne => (hambiguous language hne).trans (hstep.2.2 language hne)⟩

variable (tree : WorkTree)

theorem startGraph_truncated_iff :
    (startGraph calls tree).truncated = true ↔
      ({} : WalkLimits).maxFiles ≤ (listedFiles tree).length ∨
        (∃ m ∈ listedFiles tree, m.fileName = "Cargo.toml" ∧ readSource m = none) ∨
        (crateWalk tree).truncated = true := by
  have hnoted := foldl_iff_exists (P := fun graph : ReachabilityGraph => graph.truncated = true)
    (noteCargoDependencyRename_truncated calls)
    ((listedFiles tree).filter fun file => decide (file.fileName = "Cargo.toml"))
    { truncated := decide (({} : WalkLimits).maxFiles ≤ (listedFiles tree).length) }
  simp only [decide_eq_true_eq, List.mem_filter, and_assoc] at hnoted
  have hstart : (startGraph calls tree).truncated =
      ((noteCargoDependencyRenames calls (listedFiles tree)
        { truncated := decide (({} : WalkLimits).maxFiles ≤ (listedFiles tree).length) }).truncated
        || (crateWalk tree).truncated) := by
    unfold startGraph
    simp only
    split <;> rfl
  rw [hstart, Bool.or_eq_true, ← or_assoc, ← hnoted]
  rfl

theorem startGraph_frame :
    (startGraph calls tree).languages = [] ∧ (startGraph calls tree).imported = [] ∧
      ∀ language ≠ .rust, language ∉ (startGraph calls tree).ambiguous := by
  obtain ⟨hlanguages, himported, hambiguous⟩ := noteCargoDependencyRenames_frame calls
    (listedFiles tree)
    { truncated := decide (({} : WalkLimits).maxFiles ≤ (listedFiles tree).length) }
  unfold startGraph
  simp only
  split
  · refine ⟨hlanguages, himported, fun language hne hin => ?_⟩
    rcases (mem_setAdd _ _ _).mp hin with hin | heq
    · simpa using (hambiguous language hne).mp hin
    · exact hne heq
  · exact ⟨hlanguages, himported, fun language hne hin => by
      simpa using (hambiguous language hne).mp hin⟩

/-- Where the walk finds Rust, a mark of the probe marks Rust. -/
theorem startGraph_probe (hfound : sharedWalkFoundRust (listedFiles tree) = true)
    (hrust : ReachabilityLanguage.rust ∉ (startGraph calls tree).ambiguous) :
    (noteIgnoredRustDirs {} (crateSrcDirectories (listedFiles tree)) tree).ambiguous = false := by
  rw [Bool.eq_false_iff]
  intro hmark
  refine hrust ?_
  unfold startGraph
  simp only
  rw [if_pos (by rw [hfound, hmark]; rfl)]
  exact (mem_setAdd _ _ _).mpr (Or.inr rfl)

/-! ## What the graph comes from -/

theorem run_truncated_iff :
    (analysisRun calls tree).graph.truncated = true ↔
      (startGraph calls tree).truncated = true ∨
        ∃ f ∈ sourcesOf tree, languageOf f.fileName ≠ none ∧ readSource f = none :=
  foldl_iff_exists (P := fun run : Analysis => run.graph.truncated = true)
    (analyzeSource_truncated calls) _ _

theorem run_languages_iff (language : ReachabilityLanguage) :
    language ∈ (analysisRun calls tree).graph.languages ↔
      ∃ f ∈ sourcesOf tree, languageOf f.fileName = some language ∧ readSource f ≠ none := by
  have hfold := foldl_iff_exists (P := fun run : Analysis => language ∈ run.graph.languages)
    (fun run f => analyzeSource_languages calls run f language) (sourcesOf tree)
    { graph := startGraph calls tree }
  unfold analysisRun
  simpa only [(startGraph_frame calls tree).1, List.not_mem_nil, false_or] using hfold

theorem run_ambiguous_iff (language : ReachabilityLanguage) :
    language ∈ (analysisRun calls tree).graph.ambiguous ↔
      language ∈ (startGraph calls tree).ambiguous ∨
        ∃ f ∈ sourcesOf tree, LeavesOpen calls language f :=
  foldl_iff_exists (P := fun run : Analysis => language ∈ run.graph.ambiguous)
    (fun run f => analyzeSource_ambiguous calls run f language) _ _

theorem run_imported_iff (language : ReachabilityLanguage) (name : String) :
    name ∈ (analysisRun calls tree).graph.importedBy language ↔
      ∃ f ∈ sourcesOf tree, Imports calls language name f := by
  have hfold := foldl_iff_exists
    (P := fun run : Analysis => name ∈ run.graph.importedBy language)
    (fun run f => analyzeSource_imported calls run f language name) (sourcesOf tree)
    { graph := startGraph calls tree }
  have hempty : (startGraph calls tree).importedBy language = [] := by
    unfold ReachabilityGraph.importedBy
    rw [(startGraph_frame calls tree).2.1]
    rfl
  unfold analysisRun
  simpa only [hempty, List.not_mem_nil, false_or] using hfold

theorem mem_parsed_iff (f : RepoFile) :
    f ∈ (analysisRun calls tree).parsed ↔
      f ∈ sourcesOf tree ∧ languageOf f.fileName ≠ none ∧ readSource f ≠ none := by
  have hfold := foldl_iff_exists (P := fun run : Analysis => f ∈ run.parsed)
    (fun run file => analyzeSource_parsed calls run file f) (sourcesOf tree)
    { graph := startGraph calls tree }
  unfold analysisRun
  simpa only [List.not_mem_nil, false_or, exists_eq_left', and_left_comm, exists_eq_left]
    using hfold

end Analyze

end Scanner
end Ctem
