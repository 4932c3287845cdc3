import Ctem.Contracts
import Ctem.Scanner.RepoWalk

/-!
# The scanners of source trees

SAST and IaC clone a repository, walk it and look at its files one by one.  SAST
skips a source file it cannot read or parse; IaC fails the job for a file that is
IaC by its name, and skips others it cannot read.

What a file gives rise to is a parameter: the rule engine of SAST and the parsers
and rules of IaC, each on the text of one file.
-/

namespace Ctem
namespace Scanner

open Foundation Contracts

/-! ## SAST -/

structure SastRule where
  id : String
  name : String
  severity : Severity
  cwe : List String
  message : String

structure RuleMatch where
  rule : SastRule
  path : String
  startLine : Int
  endLine : Int
  snippet : String
  dataflow : List Json := []

/-- The sink of a taint flow. -/
structure TaintFlow where
  sinkPath : String
  sinkLine : Int

/-- What one source file gives rise to. -/
structure FileAnalysis where
  hits : List RuleMatch
  taintFlows : List TaintFlow

structure SastGraph where
  files : List String := []
  taintFlows : List TaintFlow := []
  truncated : Bool := false

/-- `verdictForMatch`. -/
def verdictForMatch (hit : RuleMatch) (graph : SastGraph) : String :=
  if graph.taintFlows.any fun f =>
      decide (f.sinkPath = hit.path) && decide ((f.sinkLine - hit.startLine).natAbs ≤ 1) then
    "reachable"
  else if hit.rule.id = "ctem.hardcoded-secret" then "unknown"
  else if graph.truncated then "unknown"
  else if hit.path ∈ graph.files then "not_reachable"
  else "unknown"

/-- `MAX_SOURCE_BYTES`, and `MAX_IAC_BYTES`. -/
def maxSourceBytes : Nat := 1024 * 1024

/-- How the calls of a SAST job turn out. -/
structure SastCalls where
  checkout : ScanJob → Except String RepoTree
  /-- `languageOf(fileName)` is defined. -/
  isSource : String → Bool
  /-- `analyzeFile` and `matchSource` on the text of a file. -/
  analyzeFile : ScanJob → RepoFile → String → Except String FileAnalysis
  /-- The deadline checks before the walk and before the source file of that index. -/
  inTimeToWalk : Bool
  inTime : Nat → Bool

/-- The body of the loop over the source files, inside its `try`; `none` is a file over
the cap. -/
def sastFile (calls : SastCalls) (job : ScanJob) (file : RepoFile) :
    Except String (Option FileAnalysis) :=
  if maxSourceBytes < file.size then .ok none
  else do
    let content ← file.text
    let analysis ← calls.analyzeFile job file content
    pure (some analysis)

/-- What the loop has gathered. -/
structure SastLoop where
  graph : SastGraph := {}
  hits : List RuleMatch := []
  parsed : Nat := 0

section Sast

variable (calls : SastCalls) (job : ScanJob)

/-- One round. -/
def sastStep (st : SastLoop) (file : RepoFile) : SastLoop :=
  match sastFile calls job file with
  | .ok (some analysis) =>
      { graph :=
          { st.graph with
            files := setAdd st.graph.files file.relPath
            taintFlows := st.graph.taintFlows ++ analysis.taintFlows }
        hits := st.hits ++ analysis.hits
        parsed := st.parsed + 1 }
  | _ => { st with graph := { st.graph with truncated := true } }

/-- The source files of a walk. -/
def sourceFiles (tree : RepoTree) : List RepoFile :=
  (listRepoFiles ignoreDirs {} tree).filter fun f => calls.isSource f.fileName

/-- The state the loop starts in. -/
def sastStart (tree : RepoTree) : SastLoop :=
  { graph :=
      { truncated := decide (({} : WalkLimits).maxFiles ≤
          (listRepoFiles ignoreDirs {} tree).length) } }

/-- `SastAnalyzer.analyze`. -/
def sastAnalyze (tree : RepoTree) : Except String SastLoop :=
  if tree.readable = false then .error "SAST analyzer could not read workDir"
  else if tree.entries.isEmpty then
    .error "SAST workDir is empty — refusing success without a checkout"
  else if (List.range (sourceFiles calls tree).length).any fun i => !calls.inTime i then
    .error "Job deadline exceeded during SAST analysis"
  else
    let st := (sourceFiles calls tree).foldl (sastStep calls job) (sastStart tree)
    if 0 < (sourceFiles calls tree).length ∧ st.parsed = 0 then
      .error ("SAST analyzer parsed none of " ++ toString (sourceFiles calls tree).length ++
        " source files — refusing empty success")
    else .ok st

/-- The finding of a match. -/
def sastFinding (graph : SastGraph) (m : RuleMatch) : RawFinding where
  externalId := m.rule.id ++ ":" ++ m.path ++ ":" ++ toString m.startLine
  scannerType := .sast
  scannerName := "ctem-sast"
  title := m.rule.name
  description := m.rule.message
  severity := m.rule.severity
  identifiers := ⟨"rule", m.rule.id⟩ :: m.rule.cwe.map fun c => ⟨"CWE", c⟩
  location :=
    { path := some m.path
      startLine := some m.startLine
      endLine := some m.endLine }
  fix :=
    { available := false
      guidance := some m.rule.message }
  evidence :=
    [("snippet", .str m.snippet), ("dataflow", .arr m.dataflow),
      ("reachability", .str (verdictForMatch m graph))]

/-- A match and the graph in the raw output. -/
def RuleMatch.toJson (m : RuleMatch) : Json :=
  .obj [("rule", .str m.rule.id), ("path", .str m.path), ("startLine", .num m.startLine),
    ("endLine", .num m.endLine), ("snippet", .str m.snippet), ("dataflow", .arr m.dataflow)]

def SastGraph.toJson (graph : SastGraph) : Json :=
  .obj [("files", .arr (graph.files.map .str)), ("truncated", .bool graph.truncated)]

/-- `SastScanner.execute`. -/
def sastExecute : Except String ScanOutcome := do
  let tree ← calls.checkout job
  if calls.inTimeToWalk = false then throw "Job deadline exceeded"
  let st ← sastAnalyze calls job tree
  pure
    { findings := st.hits.map (sastFinding st.graph)
      rawOutput := some (.obj [("matches", .arr (st.hits.map RuleMatch.toJson)),
        ("graph", st.graph.toJson)])
      stats := [("matches", st.hits.length), ("files", st.graph.files.length),
        ("taintFlows", st.graph.taintFlows.length)] }

/-- The matches of the loop are those of the files that could be analysed. -/
theorem foldl_sastStep_hits (files : List RepoFile) (st : SastLoop) (m : RuleMatch) :
    m ∈ (files.foldl (sastStep calls job) st).hits ↔
      m ∈ st.hits ∨ ∃ file ∈ files, ∃ analysis,
        sastFile calls job file = .ok (some analysis) ∧ m ∈ analysis.hits := by
  induction files generalizing st with
  | nil => simp
  | cons file rest ih =>
      rw [List.foldl_cons, ih]
      unfold sastStep
      cases hfile : sastFile calls job file with
      | error message => simp [hfile]
      | ok analysis =>
          cases analysis with
          | none => simp [hfile]
          | some analysis =>
              simp only [List.mem_append, List.mem_cons, exists_eq_or_imp, hfile, Except.ok.injEq,
                Option.some_inj, exists_eq_left']
              rw [or_assoc]

/-- An analysis that succeeds is its loop. -/
theorem sastAnalyze_ok {tree : RepoTree} {st : SastLoop}
    (h : sastAnalyze calls job tree = .ok st) :
    st = (sourceFiles calls tree).foldl (sastStep calls job) (sastStart tree) := by
  unfold sastAnalyze at h
  dsimp only at h
  split at h
  · simp at h
  · split at h
    · simp at h
    · split at h
      · simp at h
      · split at h
        · simp at h
        · exact (Except.ok.inj h).symm

/-- Checkout, deadline or analysis throws. -/
def SastFails : Prop :=
  (∃ message, calls.checkout job = .error message) ∨ calls.inTimeToWalk = false ∨
    ∃ tree, calls.checkout job = .ok tree ∧ ∃ message, sastAnalyze calls job tree = .error message

/-- A finding of a source file that could be analysed. -/
def SastReports (finding : RawFinding) : Prop :=
  ∃ tree, calls.checkout job = .ok tree ∧
    ∃ file ∈ sourceFiles calls tree, ∃ analysis,
      sastFile calls job file = .ok (some analysis) ∧ ∃ m ∈ analysis.hits,
        sastFinding ((sourceFiles calls tree).foldl (sastStep calls job) (sastStart tree)).graph m =
          finding

/-- `execute` throws, or returns the findings of the files that could be analysed. -/
theorem sastExecute_eq :
    (SastFails calls job ∧ ∃ message, sastExecute calls job = .error message) ∨
      (¬ SastFails calls job ∧ ∃ outcome, sastExecute calls job = .ok outcome ∧
        ∀ finding, finding ∈ outcome.findings ↔ SastReports calls job finding) := by
  unfold sastExecute SastFails SastReports
  cases htree : calls.checkout job with
  | error message => exact Or.inl ⟨Or.inl ⟨message, rfl⟩, message, rfl⟩
  | ok tree =>
      simp only [bind, Except.bind, pure, Except.pure]
      cases hdeadline : calls.inTimeToWalk with
      | false => exact Or.inl ⟨Or.inr (Or.inl rfl), _, rfl⟩
      | true =>
          cases hanalyze : sastAnalyze calls job tree with
          | error message =>
              exact Or.inl ⟨Or.inr (Or.inr ⟨tree, rfl, message, hanalyze⟩), message, by simp⟩
          | ok st =>
              have hst := sastAnalyze_ok calls job hanalyze
              refine Or.inr ⟨by simp [hanalyze], _, by simp; rfl, ?_⟩
              intro finding
              simp only [List.mem_map, Except.ok.injEq, exists_eq_left']
              rw [← hst]
              constructor
              · rintro ⟨m, hm, rfl⟩
                rw [hst, foldl_sastStep_hits] at hm
                rcases hm with hstart | ⟨file, hfile, analysis, hanalysis, hm⟩
                · exact absurd hstart List.not_mem_nil
                · exact ⟨file, hfile, analysis, hanalysis, m, hm, rfl⟩
              · rintro ⟨file, hfile, analysis, hanalysis, m, hm, rfl⟩
                refine ⟨m, ?_, rfl⟩
                rw [hst, foldl_sastStep_hits]
                exact Or.inr ⟨file, hfile, analysis, hanalysis, hm⟩

end Sast

/-! ## IaC -/

structure MisconfigRule where
  id : String
  title : String
  severity : Severity
  remediation : String

structure IacMatch where
  rule : MisconfigRule
  path : String
  startLine : Int
  address : String
  snippet : String

/-- What `parseIacFile` makes of a file: not IaC, its matches under the rules, or a
parse failure. -/
inductive IacParse where
  | notIac
  | parsed (hits : List IacMatch)
  | failed (error : String)

/-- How the calls of an IaC job turn out. -/
structure IacCalls where
  checkout : ScanJob → Except String RepoTree
  /-- `kindFromName` among the files of the walk: the file is IaC by its name. -/
  namedIac : List RepoFile → RepoFile → Bool
  /-- `looksLikeYamlJson`. -/
  looksLikeYamlJson : String → Bool
  /-- `parseIacFile` and the rules, on the text of a file. -/
  parseIacFile : List RepoFile → RepoFile → String → IacParse
  inTimeToWalk : Bool
  inTime : Nat → Bool

section Iac

variable (calls : IacCalls) (job : ScanJob)

/-- The body of the loop over the walk: a file that is IaC by its name and cannot be
read throws, another one is skipped. -/
def iacFile (files : List RepoFile) (file : RepoFile) : Except String IacParse :=
  let named := calls.namedIac files file
  if named || calls.looksLikeYamlJson file.fileName then
    if maxSourceBytes < file.size then
      if named then
        .error ("IaC analyzer failed to parse '" ++ file.relPath ++ "' (" ++ toString file.size ++
          " bytes over cap) — refusing incomplete success")
      else .ok .notIac
    else
      match file.text with
      | .ok content => .ok (calls.parseIacFile files file content)
      | .error message =>
          if named then
            .error ("IaC analyzer failed to parse '" ++ file.relPath ++ "': " ++ message ++
              " — refusing incomplete success")
          else .ok .notIac
  else .ok .notIac

/-- The matches of the loop, when no file fails. -/
def iacHits (files : List RepoFile) : List RepoFile → Except String (List IacMatch)
  | [] => .ok []
  | file :: rest => do
      match ← iacFile calls files file with
      | .notIac => iacHits files rest
      | .parsed hits =>
          let more ← iacHits files rest
          pure (hits ++ more)
      | .failed _ =>
          throw ("IaC analyzer failed to parse '" ++ file.relPath ++
            "' — refusing incomplete success")

/-- `IacAnalyzer.analyze`. -/
def iacAnalyze (tree : RepoTree) : Except String (List IacMatch) :=
  let files := listRepoFiles iacIgnoreDirs {} tree
  if tree.readable = false then .error "IaC analyzer could not read workDir"
  else if tree.entries.isEmpty then
    .error "IaC workDir is empty — refusing success without a checkout"
  else if (List.range files.length).any fun i => !calls.inTime i then
    .error "Job deadline exceeded during IaC analysis"
  else iacHits calls files files

/-- The finding of a match. -/
def iacFinding (m : IacMatch) : RawFinding where
  externalId := m.rule.id ++ ":" ++ m.path ++ ":" ++ m.address
  scannerType := .iac
  scannerName := "ctem-iac"
  title := m.rule.title
  description := m.rule.remediation
  severity := m.rule.severity
  identifiers := [⟨"rule", m.rule.id⟩]
  location :=
    { path := some m.path
      startLine := some m.startLine
      resource := some m.address }
  fix :=
    { available := false
      guidance := some m.rule.remediation }
  evidence := [("snippet", .str m.snippet), ("reachability", .str "unknown")]

/-- A match in the raw output. -/
def IacMatch.toJson (m : IacMatch) : Json :=
  .obj [("ruleId", .str m.rule.id), ("path", .str m.path), ("address", .str m.address),
    ("startLine", .num m.startLine)]

/-- `IacScanner.execute`. -/
def iacExecute : Except String ScanOutcome := do
  let tree ← calls.checkout job
  if calls.inTimeToWalk = false then throw "Job deadline exceeded"
  let hits ← iacAnalyze calls tree
  pure
    { findings := hits.map iacFinding
      rawOutput := some (.obj [("matches", .arr (hits.map IacMatch.toJson))])
      stats := [("findings", hits.length)] }

/-- The matches of the loop are those of the listed files. -/
theorem mem_iacHits {files rest : List RepoFile} {hits : List IacMatch}
    (h : iacHits calls files rest = .ok hits) (m : IacMatch) :
    m ∈ hits ↔ ∃ file ∈ rest, ∃ own, iacFile calls files file = .ok (.parsed own) ∧ m ∈ own := by
  induction rest generalizing hits with
  | nil =>
      rw [iacHits, Except.ok.injEq] at h
      subst h
      simp
  | cons file rest ih =>
      unfold iacHits at h
      obtain ⟨parse, hfile, h⟩ := bind_eq_ok.mp h
      cases parse with
      | notIac =>
          rw [ih h]
          simp [hfile]
      | failed error => cases h
      | parsed own =>
          obtain ⟨more, hmore, h⟩ := bind_eq_ok.mp h
          obtain rfl := Except.ok.inj h
          rw [List.mem_append, ih hmore]
          simp [hfile]

/-- An analysis that succeeds is its loop. -/
theorem iacAnalyze_ok {tree : RepoTree} {hits : List IacMatch}
    (h : iacAnalyze calls tree = .ok hits) :
    iacHits calls (listRepoFiles iacIgnoreDirs {} tree) (listRepoFiles iacIgnoreDirs {} tree) =
      .ok hits := by
  unfold iacAnalyze at h
  dsimp only at h
  split at h
  · simp at h
  · split at h
    · simp at h
    · split at h
      · simp at h
      · exact h

/-- Checkout, deadline or analysis throws; a file that is IaC and cannot be read or
parsed makes the analysis throw. -/
def IacFails : Prop :=
  (∃ message, calls.checkout job = .error message) ∨ calls.inTimeToWalk = false ∨
    ∃ tree, calls.checkout job = .ok tree ∧ ∃ message, iacAnalyze calls tree = .error message

/-- A finding of a listed file. -/
def IacReports (finding : RawFinding) : Prop :=
  ∃ tree, calls.checkout job = .ok tree ∧
    ∃ file ∈ listRepoFiles iacIgnoreDirs {} tree, ∃ own,
      iacFile calls (listRepoFiles iacIgnoreDirs {} tree) file = .ok (.parsed own) ∧
        ∃ m ∈ own, iacFinding m = finding

/-- `execute` throws, or returns the findings of the listed files. -/
theorem iacExecute_eq :
    (IacFails calls job ∧ ∃ message, iacExecute calls job = .error message) ∨
      (¬ IacFails calls job ∧ ∃ outcome, iacExecute calls job = .ok outcome ∧
        ∀ finding, finding ∈ outcome.findings ↔ IacReports calls job finding) := by
  unfold iacExecute IacFails IacReports
  cases htree : calls.checkout job with
  | error message => exact Or.inl ⟨Or.inl ⟨message, rfl⟩, message, rfl⟩
  | ok tree =>
      simp only [bind, Except.bind, pure, Except.pure]
      cases hdeadline : calls.inTimeToWalk with
      | false => exact Or.inl ⟨Or.inr (Or.inl rfl), _, rfl⟩
      | true =>
          cases hanalyze : iacAnalyze calls tree with
          | error message =>
              exact Or.inl ⟨Or.inr (Or.inr ⟨tree, rfl, message, hanalyze⟩), message, by simp⟩
          | ok hits =>
              have hloop := iacAnalyze_ok calls hanalyze
              refine Or.inr ⟨by simp [hanalyze], _, by simp; rfl, ?_⟩
              intro finding
              simp only [List.mem_map, Except.ok.injEq, exists_eq_left']
              constructor
              · rintro ⟨m, hm, rfl⟩
                obtain ⟨file, hfile, own, hown, hm⟩ := (mem_iacHits calls hloop m).mp hm
                exact ⟨file, hfile, own, hown, m, hm, rfl⟩
              · rintro ⟨file, hfile, own, hown, m, hm, rfl⟩
                exact ⟨m, (mem_iacHits calls hloop m).mpr ⟨file, hfile, own, hown, hm⟩, rfl⟩

end Iac

end Scanner
end Ctem
