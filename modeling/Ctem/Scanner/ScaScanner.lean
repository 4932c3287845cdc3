import Ctem.Scanner.Lockfiles
import Ctem.Scanner.MatchLoop

/-!
# The SCA scanner

`execute` takes its components from an uploaded SBOM when the job's options name
one, and from the lockfiles of a clone otherwise; either way every component is
matched.

* `resolveInput` is where the components come from, `InputFails` every way that can
  throw (`resolveInput_eq`).
* `scaExecute_eq`: a job fails for its input or its deadline, and reports what the
  lookups that answered found.
-/

namespace Ctem
namespace Scanner

open Foundation Contracts Intel

/-- What the reachability analysis throws: its own error, or another one. -/
inductive AnalysisError where
  | reachability (message : String)
  | other (message : String)

/-- How the calls of an SCA job turn out. -/
structure ScaCalls (γ : Type) where
  /-- The key text the storage client sends for an option that is no string. -/
  objectKey : Json → Except String String
  /-- `artifacts.getJson`. -/
  getJson : String → Except String StoredDocument
  decode : UriDecoder
  /-- `checkout.checkout`: the clone it leaves. -/
  checkout : ScanJob → Except String RepoTree
  localeLess : String → String → Bool
  parsers : List EcosystemParser
  /-- `reachability.analyze`; `none` is a result that is no graph. -/
  analyze : RepoTree → Except AnalysisError (Option γ)
  verdictForComponent : ResolvedComponent → γ → String
  /-- `ctx.checkDeadline()` before the component of that index. -/
  inTime : Nat → Bool
  runtime : FeedRuntime
  cache : IntelCache := {}
  matcher : MatcherCalls
  scannedAt : String := ""

/-- The component as the matcher is asked about it. -/
def ResolvedComponent.matchable (c : ResolvedComponent) : MatchableComponent :=
  ⟨c.name, c.version, c.ecosystem⟩

/-- The finding of one match. -/
def scaFinding (reachability : ResolvedComponent → String) (c : ResolvedComponent)
    (vuln : VulnMatch) : RawFinding where
  externalId := vuln.id
  scannerType := .sca
  scannerName := "ctem-sca"
  title := vuln.id ++ " in " ++ c.name ++ "@" ++ c.version
  description := vuln.summary
  severity := vuln.severity
  identifiers := ⟨vuln.source, vuln.id⟩ :: vuln.aliases.map fun a => ⟨"alias", a⟩
  cvssVector := vuln.cvssVector
  cvssScore := vuln.cvssScore
  epssScore := vuln.epssScore
  kev := vuln.kev
  location :=
    { packageName := some c.name
      packageVersion := some c.version
      packageEcosystem := some c.ecosystem
      purl := some c.purl
      path := c.manifestPath }
  fix :=
    { available := (nonEmpty vuln.fixedVersion).isSome
      fixedVersion := vuln.fixedVersion
      guidance := some (match nonEmpty vuln.fixedVersion with
        | some fixed => "Upgrade " ++ c.name ++ " to " ++ fixed
        | none => "No fixed version published yet") }
  evidence :=
    [("direct", .bool c.direct), ("dependencyPath", .arr (c.dependencyPath.map .str)),
      ("reachability", .str (reachability c))]

/-- A component in the raw output. -/
def ResolvedComponent.toJson (c : ResolvedComponent) : Json :=
  .obj ([("purl", .str c.purl), ("name", .str c.name), ("version", .str c.version),
    ("ecosystem", .str c.ecosystem), ("direct", .bool c.direct),
    ("dependencyPath", .arr (c.dependencyPath.map .str)),
    ("licenses", .arr (c.licenses.map .str))] ++
    (c.manifestPath.map fun path => [("manifestPath", Json.str path)]).getD [])

/-- The key the storage client sends for the value of an option. -/
def requestKey (objectKey : Json → Except String String) : Json → Except String String
  | .str key => .ok key
  | value => objectKey value

section Sca

variable {γ : Type} (calls : ScaCalls γ)

/-- `ctx.job.options.sbomArtifactKey`, when a condition takes it for true. -/
def sbomKey? (job : ScanJob) : Option Json :=
  (job.options.get? "sbomArtifactKey").filter Json.truthy

/-- `sbom.fromArtifact`. -/
def fromArtifact (value : Json) : Except String (List ResolvedComponent) := do
  let key ← requestKey calls.objectKey value
  let doc ← calls.getJson key
  parseStored calls.decode doc

/-- `resolveFromSource`. -/
def resolveFromSource (job : ScanJob) : Except String (List ResolvedComponent × γ) := do
  let tree ← calls.checkout job
  let components ← resolveLockfiles calls.localeLess calls.parsers tree
  match calls.analyze tree with
  | .error (.reachability message) => .error message
  | .error (.other message) => .error ("Reachability analysis failed: " ++ message)
  | .ok none =>
      .error "Reachability analyzer did not produce a graph — refusing an all-unknown success"
  | .ok (some graph) => .ok (components, graph)

/-- The components of a job, and the graph of its clone. -/
def resolveInput (job : ScanJob) : Except String (List ResolvedComponent × Option γ) :=
  match sbomKey? job with
  | some value => (fromArtifact calls value).map fun components => (components, none)
  | none => (resolveFromSource calls job).map fun input => (input.1, some input.2)

/-- `graph ? verdictForComponent(component, graph) : 'unknown'`. -/
def reachabilityOf (graph : Option γ) (c : ResolvedComponent) : String :=
  match graph with
  | some graph => calls.verdictForComponent c graph
  | none => "unknown"

/-- The loop of `execute` over the components. -/
def scaLoop (components : List ResolvedComponent) (graph : Option γ) : Except String MatchLoop :=
  matchAll ResolvedComponent.matchable (matchComponent calls.runtime calls.cache calls.matcher)
    (scaFinding (reachabilityOf calls graph)) "Job deadline exceeded" calls.inTime 0 components {}

/-- What `execute` returns behind the loop. -/
def scaOutcome (components : List ResolvedComponent) (st : MatchLoop) : ScanOutcome where
  findings := st.findings
  rawOutput := some (.obj [("components", .arr (components.map ResolvedComponent.toJson)),
    ("scannedAt", .str calls.scannedAt)])
  stats := [("components", components.length),
    ("direct", (components.filter ResolvedComponent.direct).length),
    ("findings", st.findings.length), ("mirroredComponents", st.mirroredCount)]
  vulnPackagesObserved := AssocMap.values st.observed

/-- `ScaScanner.execute`. -/
def scaExecute (job : ScanJob) : Except String ScanOutcome := do
  let input ← resolveInput calls job
  let st ← scaLoop calls input.1 input.2
  pure (scaOutcome calls input.1 st)

/-! ## How a job fails -/

/-- The ways the input of a job throws. -/
inductive InputFails (job : ScanJob) : Prop where
  | artifact (value : Json) (message : String) (hkey : sbomKey? job = some value)
      (h : fromArtifact calls value = .error message)
  | checkout (message : String) (hkey : sbomKey? job = none)
      (h : calls.checkout job = .error message)
  | lockfiles (tree : RepoTree) (hkey : sbomKey? job = none) (htree : calls.checkout job = .ok tree)
      (h : EveryLockfileFails (selectedLockfiles calls.localeLess calls.parsers tree))
  | analysis (tree : RepoTree) (error : AnalysisError) (hkey : sbomKey? job = none)
      (htree : calls.checkout job = .ok tree) (h : calls.analyze tree = .error error)
  | noGraph (tree : RepoTree) (hkey : sbomKey? job = none)
      (htree : calls.checkout job = .ok tree) (h : calls.analyze tree = .ok none)

/-- The input throws in one of these ways, or there are components. -/
theorem resolveInput_eq (job : ScanJob) :
    (InputFails calls job ∧ ∃ message, resolveInput calls job = .error message) ∨
      (¬ InputFails calls job ∧ ∃ input, resolveInput calls job = .ok input) := by
  cases hkey : sbomKey? job with
  | some value =>
      unfold resolveInput
      simp only [hkey]
      cases hparse : fromArtifact calls value with
      | error message => exact Or.inl ⟨.artifact value message hkey hparse, message, rfl⟩
      | ok components =>
          refine Or.inr ⟨?_, _, rfl⟩
          intro hfails
          cases hfails with
          | artifact value' message hkey' h =>
              rw [hkey, Option.some_inj] at hkey'
              subst hkey'
              rw [hparse] at h
              exact absurd h (by simp)
          | checkout message hkey' h => exact absurd (hkey.symm.trans hkey') (by simp)
          | lockfiles tree hkey' htree h => exact absurd (hkey.symm.trans hkey') (by simp)
          | analysis tree error hkey' htree h => exact absurd (hkey.symm.trans hkey') (by simp)
          | noGraph tree hkey' htree h => exact absurd (hkey.symm.trans hkey') (by simp)
  | none =>
      unfold resolveInput resolveFromSource
      simp only [hkey]
      cases htree : calls.checkout job with
      | error message => exact Or.inl ⟨.checkout message hkey htree, message, rfl⟩
      | ok tree =>
          simp only [bind, Except.bind]
          rcases resolveLockfiles_eq calls.localeLess calls.parsers tree with
            ⟨hfails, message, hresolve⟩ | ⟨hresolves, hresolve⟩
          · rw [hresolve]
            exact Or.inl ⟨.lockfiles tree hkey htree hfails, message, rfl⟩
          · rw [hresolve]
            cases hanalyze : calls.analyze tree with
            | error error =>
                refine Or.inl ⟨.analysis tree error hkey htree hanalyze, ?_⟩
                cases error with
                | reachability message => exact ⟨_, rfl⟩
                | other message => exact ⟨_, rfl⟩
            | ok graph =>
                cases graph with
                | none => exact Or.inl ⟨.noGraph tree hkey htree hanalyze, _, rfl⟩
                | some graph =>
                    refine Or.inr ⟨?_, _, rfl⟩
                    intro hfails
                    cases hfails with
                    | artifact value message hkey' h =>
                        exact absurd (hkey.symm.trans hkey') (by simp)
                    | checkout message hkey' h => simp [htree] at h
                    | lockfiles tree' hkey' htree' h =>
                        rw [htree, Except.ok.injEq] at htree'
                        subst htree'
                        exact hresolves h
                    | analysis tree' error hkey' htree' h =>
                        rw [htree, Except.ok.injEq] at htree'
                        subst htree'
                        simp [hanalyze] at h
                    | noGraph tree' hkey' htree' h =>
                        rw [htree, Except.ok.injEq] at htree'
                        subst htree'
                        simp [hanalyze] at h

/-- A job throws for its input, or misses its deadline at some component. -/
def ScaFails (job : ScanJob) : Prop :=
  InputFails calls job ∨
    ∃ input, resolveInput calls job = .ok input ∧ ∃ i < input.1.length, calls.inTime i = false

/-- A finding of a component whose lookups answered. -/
def ScaReports (job : ScanJob) (finding : RawFinding) : Prop :=
  ∃ input, resolveInput calls job = .ok input ∧
    AnsweredFinding ResolvedComponent.matchable (scaFinding (reachabilityOf calls input.2))
      calls.runtime calls.cache calls.matcher input.1 finding

/-- `execute` throws, or returns the components of its input and the findings of the
lookups that answered. -/
theorem scaExecute_eq (job : ScanJob) :
    (ScaFails calls job ∧ ∃ message, scaExecute calls job = .error message) ∨
      (¬ ScaFails calls job ∧ ∃ input outcome, resolveInput calls job = .ok input ∧
        scaExecute calls job = .ok outcome ∧
        outcome.rawOutput = some (.obj [("components", .arr (input.1.map ResolvedComponent.toJson)),
          ("scannedAt", .str calls.scannedAt)]) ∧
        ∀ finding, finding ∈ outcome.findings ↔ ScaReports calls job finding) := by
  unfold scaExecute ScaFails ScaReports
  rcases resolveInput_eq calls job with ⟨hfails, message, hinput⟩ | ⟨hreads, input, hinput⟩
  · rw [hinput]
    exact Or.inl ⟨Or.inl hfails, message, rfl⟩
  · rw [hinput]
    simp only [bind, Except.bind]
    unfold scaLoop
    rcases matchAll_lookups ResolvedComponent.matchable (scaFinding (reachabilityOf calls input.2))
        calls.runtime calls.cache calls.matcher "Job deadline exceeded" calls.inTime input.1 with
      ⟨hlate, hloop⟩ | ⟨hall, st, hloop, hfindings⟩
    · rw [hloop]
      exact Or.inl ⟨Or.inr ⟨input, rfl, hlate⟩, _, rfl⟩
    · rw [hloop]
      refine Or.inr ⟨?_, input, scaOutcome calls input.1 st, rfl, rfl, rfl, ?_⟩
      · rintro (hfails | ⟨input', hinput', hlate⟩)
        · exact hreads hfails
        · rw [Except.ok.injEq] at hinput'
          subst hinput'
          exact hall hlate
      · intro finding
        rw [show (scaOutcome calls input.1 st).findings = st.findings from rfl, hfindings]
        simp

end Sca

end Scanner
end Ctem
