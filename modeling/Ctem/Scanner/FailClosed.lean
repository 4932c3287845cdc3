import Ctem.Scanner.Reachability

/-!
# When `not_reachable` has seen every source

A component may be called `not_reachable` only when every first-party source of its
language was read.

For Rust this always holds (`rust_sources_read`): the crate walk and the probe answer
for what the shared walk leaves out.  For the other languages the shared walk alone
finds the sources, and a directory it cannot read, or one below its depth, leaves
nothing behind.  `fails_closed_iff` is the exact condition.
-/

namespace Ctem
namespace Scanner

open Foundation

/-- The directories that hold no first-party source of a language. -/
def firstPartySkips : ReachabilityLanguage → String → Bool
  | .rust, name => probeExempt name
  | _, name => sharedWalkSkipsDir name

def firstPartySources (language : ReachabilityLanguage) (tree : WorkTree) : List RepoFile :=
  (filesOutside (firstPartySkips language) [] tree.entries).filter fun f =>
    decide (languageOf f.fileName = some language)

/-- The files in directories the shared walk reads. -/
def visibleTree (tree : WorkTree) : List RepoFile :=
  visibleFiles ignoreDirs {} tree.checkout

section FailsClosed

variable (calls : ReachabilityCalls)

/-- The source was read, none of its imports is dynamic, and all are in the graph. -/
def Extracted (run : Analysis) (language : ReachabilityLanguage) (f : RepoFile) : Prop :=
  f ∈ run.parsed ∧ ∃ content, readSource f = some content ∧
    (calls.extractImports language content).dynamic = false ∧
    ∀ name ∈ (calls.extractImports language content).packages,
      name ∈ run.graph.importedBy language

/-- A verdict of `not_reachable` has every first-party source of the language behind
it. -/
def FailsClosed (tree : WorkTree) (checkDeadline : Bool) (component : ResolvedComponent) : Prop :=
  ∀ run, reachabilityAnalyze calls tree checkDeadline = .ok run →
    verdictForComponent calls.toLowerCase component run.graph = .ok .notReachable →
    ∀ language, languageForEcosystem component.ecosystem = some language →
      ∀ f ∈ firstPartySources language tree, Extracted calls run language f

/-! ## What the walks have listed -/

/-- What the crate walk looks at when the shared walk has listed all it can see. -/
def looksOf (tree : WorkTree) : List CrateLook :=
  crateLooks {} tree.entries (visibleTree tree)

/-- The Rust files only the crate walk finds. -/
def crateSources (tree : WorkTree) : List RepoFile :=
  freshSources ((visibleTree tree).map RepoFile.path) (looksOf tree)

/-- Nothing is left out that would set the flag: the shared walk stays below its cap,
every manifest and source it sees can be read, and the crate walk is whole. -/
structure Untruncated (tree : WorkTree) : Prop where
  belowCap : (visibleTree tree).length < ({} : WalkLimits).maxFiles
  manifests : ∀ m ∈ visibleTree tree, m.fileName = "Cargo.toml" → readSource m ≠ none
  crates : WholeWalk {} ((visibleTree tree).map RepoFile.path) 0 (looksOf tree)
  sources : ∀ f ∈ visibleTree tree, isFirstPartySource f = true → readSource f ≠ none
  crateFiles : ∀ f ∈ crateSources tree, readSource f ≠ none

variable {calls} {tree : WorkTree}

theorem listedFiles_eq_take :
    listedFiles tree = (visibleTree tree).take ({} : WalkLimits).maxFiles :=
  listRepoFiles_eq_take ignoreDirs {} tree.checkout

theorem listedFiles_eq (hcap : (visibleTree tree).length < ({} : WalkLimits).maxFiles) :
    listedFiles tree = visibleTree tree := by
  rw [listedFiles_eq_take, List.take_of_length_le (Nat.le_of_lt hcap)]

theorem listedFiles_length_lt :
    (listedFiles tree).length < ({} : WalkLimits).maxFiles ↔
      (visibleTree tree).length < ({} : WalkLimits).maxFiles := by
  rw [listedFiles_eq_take, List.length_take]
  omega

theorem crateWalk_eq (hcap : (visibleTree tree).length < ({} : WalkLimits).maxFiles) :
    crateWalk tree = (looksOf tree).foldl (CrateWalk.look {})
      { seen := (visibleTree tree).map RepoFile.path } := by
  unfold crateWalk
  rw [listedFiles_eq hcap, listCrateSrcRustFiles_eq]
  rfl

theorem crateWalk_truncated_iff
    (hcap : (visibleTree tree).length < ({} : WalkLimits).maxFiles) :
    (crateWalk tree).truncated = false ↔
      WholeWalk {} ((visibleTree tree).map RepoFile.path) 0 (looksOf tree) := by
  rw [crateWalk_eq hcap, foldl_look_truncated_iff]
  simp

theorem rust_of_crateSources {f : RepoFile} (hf : f ∈ crateSources tree) :
    languageOf f.fileName = some .rust ∧ f ∈ filesBelow [] tree.entries := by
  obtain ⟨hlook, -⟩ := source_of_fresh hf
  obtain ⟨hrust, hmem⟩ := source_mem_crateLooks {} hlook
  exact ⟨languageOf_rust hrust, hmem⟩

theorem firstParty_of_language {f : RepoFile} {language : ReachabilityLanguage}
    (hlanguage : languageOf f.fileName = some language) (hrust : language ≠ .rust) :
    isFirstPartySource f = true := by
  unfold isFirstPartySource
  rw [hlanguage]
  simp [hrust]

theorem language_of_firstParty {f : RepoFile} (h : isFirstPartySource f = true) :
    languageOf f.fileName ≠ none := by
  intro hnone
  unfold isFirstPartySource at h
  rw [hnone] at h
  cases h

theorem mem_sourcesOf_iff
    (hcap : (visibleTree tree).length < ({} : WalkLimits).maxFiles)
    (hwhole : WholeWalk {} ((visibleTree tree).map RepoFile.path) 0 (looksOf tree))
    (f : RepoFile) :
    f ∈ sourcesOf tree ↔
      f ∈ visibleTree tree ∧ isFirstPartySource f = true ∨ f ∈ crateSources tree := by
  have hout : (crateWalk tree).out = crateSources tree := by
    rw [crateWalk_eq hcap, foldl_look_out {} _ _ hwhole]
    rfl
  unfold sourcesOf
  rw [hout, listedFiles_eq hcap, List.mem_append, List.mem_filter]

/-- Among the sources, those of a language but Rust are files of the shared walk. -/
theorem mem_sourcesOf_language (h : Untruncated tree) {language : ReachabilityLanguage}
    (hrust : language ≠ .rust) {f : RepoFile} (hlanguage : languageOf f.fileName = some language) :
    f ∈ sourcesOf tree ↔ f ∈ visibleTree tree := by
  rw [mem_sourcesOf_iff h.belowCap h.crates]
  constructor
  · rintro (⟨hvisible, -⟩ | hcrate)
    · exact hvisible
    · rw [(rust_of_crateSources hcrate).1] at hlanguage
      exact absurd (Option.some.inj hlanguage).symm hrust
  · exact fun hvisible => Or.inl ⟨hvisible, firstParty_of_language hlanguage hrust⟩

theorem readSource_of_source (h : Untruncated tree) {f : RepoFile} (hf : f ∈ sourcesOf tree) :
    readSource f ≠ none := by
  rcases (mem_sourcesOf_iff h.belowCap h.crates f).mp hf with ⟨hvisible, hfirst⟩ | hcrate
  · exact h.sources f hvisible hfirst
  · exact h.crateFiles f hcrate

theorem parsed_of_source (h : Untruncated tree) {f : RepoFile} (hf : f ∈ sourcesOf tree)
    {language : ReachabilityLanguage} (hlanguage : languageOf f.fileName = some language) :
    f ∈ (analysisRun calls tree).parsed := by
  have hsome : languageOf f.fileName ≠ none := by
    rw [hlanguage]
    exact Option.some_ne_none _
  exact (mem_parsed_iff calls tree f).mpr ⟨hf, hsome, readSource_of_source h hf⟩

theorem run_untruncated_iff :
    (analysisRun calls tree).graph.truncated = false ↔ Untruncated tree := by
  rw [← Bool.not_eq_true, run_truncated_iff, startGraph_truncated_iff]
  simp only [not_or, not_exists, not_and, Nat.not_le, Bool.not_eq_true]
  constructor
  · rintro ⟨⟨hlength, hmanifests, hcrate⟩, hsources⟩
    have hcap := listedFiles_length_lt.mp hlength
    have hwhole := (crateWalk_truncated_iff hcap).mp hcrate
    rw [listedFiles_eq hcap] at hmanifests
    refine ⟨hcap, hmanifests, hwhole, fun f hf hfirst => ?_, fun f hf => ?_⟩
    · exact hsources f ((mem_sourcesOf_iff hcap hwhole f).mpr (Or.inl ⟨hf, hfirst⟩))
        (language_of_firstParty hfirst)
    · refine hsources f ((mem_sourcesOf_iff hcap hwhole f).mpr (Or.inr hf)) ?_
      rw [(rust_of_crateSources hf).1]
      exact Option.some_ne_none _
  · intro h
    have hlength := listedFiles_length_lt.mpr h.belowCap
    refine ⟨⟨hlength, ?_, (crateWalk_truncated_iff h.belowCap).mpr h.crates⟩, ?_⟩
    · rw [listedFiles_eq h.belowCap]
      exact h.manifests
    · exact fun f hf _ => readSource_of_source h hf

theorem reachabilityAnalyze_eq_ok_iff {checkDeadline : Bool} {run : Analysis} :
    reachabilityAnalyze calls tree checkDeadline = .ok run ↔
      tree.isDirectory = .ok true ∧ tree.readdir = .ok () ∧ checkDeadline = true ∧
        ¬ (0 < (sourcesOf tree).length ∧ run.parsed.length = 0) ∧ run = analysisRun calls tree := by
  unfold reachabilityAnalyze assertReadableWorkDir
  cases hdir : tree.isDirectory with
  | error message => simp [bind, Except.bind]
  | ok isDirectory =>
      cases isDirectory with
      | false => simp [bind, Except.bind]
      | true =>
          cases hread : tree.readdir with
          | error message => simp [bind, Except.bind, Except.mapError]
          | ok u =>
              cases checkDeadline with
              | false =>
                  simp [bind, Except.bind, Except.mapError, throw, throwThe, MonadExceptOf.throw]
              | true =>
                  simp only [bind, Except.bind, Except.mapError, pure, Except.pure, throw, throwThe,
                    MonadExceptOf.throw, Bool.true_eq_false, if_false, true_and]
                  by_cases hnone : 0 < (sourcesOf tree).length ∧
                      (analysisRun calls tree).parsed.length = 0
                  · rw [if_pos hnone]
                    constructor
                    · intro h
                      cases h
                    · rintro ⟨hsome, rfl⟩
                      exact absurd hnone hsome
                  · rw [if_neg hnone]
                    constructor
                    · intro h
                      obtain rfl := Except.ok.inj h
                      exact ⟨hnone, rfl⟩
                    · rintro ⟨-, rfl⟩
                      rfl

/-! ## Rust -/

/-- The `src` beside a listed manifest lies in no directory the shared walk skips. -/
theorem crateSrcDirectories_clean :
    ∀ srcDir ∈ crateSrcDirectories (listedFiles tree), ∀ n ∈ srcDir,
      sharedWalkSkipsDir n = false := by
  intro srcDir hsrc n hn
  obtain ⟨m, hm, rfl⟩ := List.mem_map.mp hsrc
  have hlisted : m ∈ listedFiles tree := (List.mem_filter.mp hm).1
  have hvisible : m ∈ visibleTree tree := by
    rw [listedFiles_eq_take] at hlisted
    exact List.mem_of_mem_take hlisted
  have hown := visibleFiles_subset ignoreDirs {} tree hvisible
  rcases List.mem_append.mp hn with hn | hn
  · have hsegment := filesOutside_segments _ [] tree.entries m hown n hn
    rw [sharedWalkSkipsDir_eq]
    simpa using hsegment
  · rw [List.mem_singleton.mp hn]
    decide

theorem visible_below {f : RepoFile} (hf : f ∈ visibleTree tree) :
    f ∈ filesBelow [] tree.entries :=
  filesOutside_subset_below _ _ _ (visibleFiles_subset ignoreDirs {} tree hf)

/-- A Rust source among the sources means that the shared walk has found Rust. -/
theorem sharedWalkFoundRust_of_source (h : Untruncated tree) {f : RepoFile}
    (hf : f ∈ sourcesOf tree) (hrust : languageOf f.fileName = some .rust) :
    sharedWalkFoundRust (listedFiles tree) = true := by
  rw [listedFiles_eq h.belowCap, sharedWalkFoundRust, List.any_eq_true]
  rcases (mem_sourcesOf_iff h.belowCap h.crates f).mp hf with ⟨hvisible, -⟩ | hcrate
  · exact ⟨f, hvisible, by simp [isRustSource_of_languageOf hrust]⟩
  · -- the crate walk starts beside a manifest
    obtain ⟨hlook, -⟩ := source_of_fresh hcrate
    obtain ⟨srcDir, hsrc, -⟩ := List.mem_flatMap.mp hlook
    obtain ⟨m, hm, -⟩ := List.mem_map.mp hsrc
    obtain ⟨hvisible, hname⟩ := List.mem_filter.mp hm
    exact ⟨m, hvisible, by simp [of_decide_eq_true hname]⟩

/-- Unless a flag is raised, every first-party Rust source is among the sources. -/
theorem rust_sources_read (h : Untruncated tree)
    (hfound : sharedWalkFoundRust (listedFiles tree) = true)
    (hrust : ReachabilityLanguage.rust ∉ (startGraph calls tree).ambiguous) {f : RepoFile}
    (hf : f ∈ firstPartySources .rust tree) : f ∈ sourcesOf tree := by
  obtain ⟨hown, hlanguage⟩ := List.mem_filter.mp hf
  have hlanguage : languageOf f.fileName = some .rust := of_decide_eq_true hlanguage
  have hname := isRustSource_of_languageOf hlanguage
  have hclean : isRustBuildOrVendoredPath f.dir = false := by
    refine not_vendored fun n hn => ?_
    have hsegment := filesOutside_segments probeExempt [] tree.entries f hown n hn
    simpa using hsegment
  have hfirst : isFirstPartySource f = true := by
    unfold isFirstPartySource
    rw [hlanguage]
    simp [hclean]
  have hlisted : f ∈ visibleTree tree → f ∈ sourcesOf tree :=
    fun hin => (mem_sourcesOf_iff h.belowCap h.crates f).mpr (Or.inl ⟨hin, hfirst⟩)
  have hroot : [] ∉ crateSrcDirectories (listedFiles tree) := by
    intro hin
    obtain ⟨m, -, hm⟩ := List.mem_map.mp hin
    simp at hm
  have hprobe := startGraph_probe calls tree hfound hrust
  rcases noteIgnoredRustDirs_covers {} _ tree crateSrcDirectories_clean hroot hprobe hown hname with
    hvisible | ⟨below, e, hlookup, hkind, hsrc, hin⟩
  · exact hlisted hvisible
  · -- the crate walk looks at it, and lists the file at its path
    rw [List.nil_append] at hsrc hin
    rw [listedFiles_eq h.belowCap] at hsrc
    have hsub : ∀ l, l ∈ srcLooks {} below (some e) → l ∈ looksOf tree := by
      intro l hl
      refine List.mem_flatMap.mpr ⟨below, hsrc, ?_⟩
      rwa [hlookup]
    have hcut : CrateLook.cut ∉ srcLooks {} below (some e) := fun hl => h.crates.1 (hsub _ hl)
    have hlook := hsub _ (rust_mem_srcLooks {} hkind hcut hin hname)
    have hbelow : f ∈ filesBelow [] tree.entries := filesOutside_subset_below _ _ _ hown
    -- a path is that of one file
    have hsame : ∀ g ∈ filesBelow [] tree.entries, g.path = f.path → g = f :=
      fun g hg => filesOutside_path_inj _ [] tree.entries tree.distinct g hg f hbelow
    rcases seen_or_fresh hlook hclean with hseen | ⟨g, hg, hpath⟩
    · obtain ⟨g, hg, hpath⟩ := List.mem_map.mp hseen
      rw [hsame g (visible_below hg) hpath] at hg
      exact hlisted hg
    · have hcrate : g ∈ crateSources tree := hg
      rw [hsame g (rust_of_crateSources hcrate).2 hpath] at hcrate
      exact (mem_sourcesOf_iff h.belowCap h.crates f).mpr (Or.inr hcrate)

/-! ## The condition -/

/-- A source of the language lies in a directory the shared walk does not read, and
nothing else raises a flag or names the component: every other source of the language
is read, imports statically and leaves the component out. -/
structure HiddenSource (calls : ReachabilityCalls) (tree : WorkTree) (checkDeadline : Bool)
    (component : ResolvedComponent) (language : ReachabilityLanguage) : Prop where
  supported : languageForEcosystem component.ecosystem = some language
  notRust : language ≠ .rust
  hidden : ∃ f ∈ firstPartySources language tree, f ∉ visibleTree tree
  isDirectory : tree.isDirectory = .ok true
  inTime : checkDeadline = true
  untruncated : Untruncated tree
  covered : ∃ f ∈ visibleTree tree, languageOf f.fileName = some language
  silent : ∀ f ∈ visibleTree tree, languageOf f.fileName = some language →
    ∀ content, readSource f = some content →
      (calls.extractImports language content).dynamic = false ∧
        ∀ name ∈ (calls.extractImports language content).packages,
          isImported calls.toLowerCase component.name component.ecosystem [name] = .ok false

theorem ecosystem_ne_crates {ecosystem : String} {language : ReachabilityLanguage}
    (h : languageForEcosystem ecosystem = some language) (hrust : language ≠ .rust) :
    ecosystem ≠ "crates.io" := by
  rintro rfl
  have hlanguage : languageForEcosystem "crates.io" = some .rust := by decide
  rw [hlanguage] at h
  exact hrust (Option.some.inj h).symm

/-- With a hidden source the analysis answers, and the verdict is `not_reachable`. -/
theorem HiddenSource.verdict {checkDeadline : Bool} {component : ResolvedComponent}
    {language : ReachabilityLanguage}
    (h : HiddenSource calls tree checkDeadline component language) :
    reachabilityAnalyze calls tree checkDeadline = .ok (analysisRun calls tree) ∧
      verdictForComponent calls.toLowerCase component (analysisRun calls tree).graph =
        .ok .notReachable := by
  obtain ⟨f, hvisible, hlanguage⟩ := h.covered
  have hsource : f ∈ sourcesOf tree :=
    (mem_sourcesOf_language h.untruncated h.notRust hlanguage).mpr hvisible
  have hread := readSource_of_source h.untruncated hsource
  have hvisibleOf : ∀ g ∈ sourcesOf tree, languageOf g.fileName = some language →
      g ∈ visibleTree tree :=
    fun g hg hlang => (mem_sourcesOf_language h.untruncated h.notRust hlang).mp hg
  constructor
  · have hreaddir : tree.readdir = .ok () := by
      cases hdir : tree.readdir with
      | ok u => rfl
      | error message =>
          have hempty : visibleTree tree = [] := by
            simp [visibleTree, visibleFiles, WorkTree.checkout, hdir, Except.isOk, Except.toBool]
          rw [hempty] at hvisible
          cases hvisible
    have hparsed : f ∈ (analysisRun calls tree).parsed :=
      parsed_of_source h.untruncated hsource hlanguage
    refine reachabilityAnalyze_eq_ok_iff.mpr ⟨h.isDirectory, hreaddir, h.inTime, ?_, rfl⟩
    rintro ⟨-, hnone⟩
    rw [List.length_eq_zero_iff.mp hnone] at hparsed
    cases hparsed
  · rw [verdict_notReachable_iff calls.toLowerCase h.supported]
    refine ⟨?_, ?_, run_untruncated_iff.mpr h.untruncated, ?_, fun hrust => h.notRust hrust.1⟩
    · exact (run_languages_iff calls tree language).mpr ⟨f, hsource, hlanguage, hread⟩
    · rw [isImported_eq_false_iff _ (ecosystem_ne_crates h.supported h.notRust)]
      intro name hname
      obtain ⟨g, hg, hlang, content, hcontent, hin⟩ :=
        (run_imported_iff calls tree language name).mp hname
      exact (h.silent g (hvisibleOf g hg hlang) hlang content hcontent).2 name hin
    · rw [run_ambiguous_iff]
      rintro (hstart | ⟨g, hg, hlang, hopen⟩)
      · exact (startGraph_frame calls tree).2.2 language h.notRust hstart
      · obtain ⟨content, hcontent⟩ :=
          Option.ne_none_iff_exists'.mp (readSource_of_source h.untruncated hg)
        have hstatic := (h.silent g (hvisibleOf g hg hlang) hlang content hcontent).1
        rw [hopen content hcontent] at hstatic
        cases hstatic

theorem HiddenSource.not_failsClosed {checkDeadline : Bool} {component : ResolvedComponent}
    {language : ReachabilityLanguage}
    (h : HiddenSource calls tree checkDeadline component language) :
    ¬ FailsClosed calls tree checkDeadline component := by
  intro hclosed
  obtain ⟨f, hown, hhidden⟩ := h.hidden
  have hlanguage : languageOf f.fileName = some language :=
    of_decide_eq_true (List.mem_filter.mp hown).2
  obtain ⟨hparsed, -⟩ := hclosed _ h.verdict.1 h.verdict.2 language h.supported f hown
  have hsource := ((mem_parsed_iff calls tree f).mp hparsed).1
  exact hhidden ((mem_sourcesOf_language h.untruncated h.notRust hlanguage).mp hsource)

/-- A `not_reachable` verdict has every first-party source of the language behind it
unless one is hidden and everything else is silent about the component. -/
theorem fails_closed_iff (calls : ReachabilityCalls) (tree : WorkTree) (checkDeadline : Bool)
    (component : ResolvedComponent) :
    FailsClosed calls tree checkDeadline component ↔
      ¬ ∃ language, HiddenSource calls tree checkDeadline component language := by
  constructor
  · rintro hclosed ⟨language, h⟩
    exact h.not_failsClosed hclosed
  · intro hnone run hrun hverdict language hsupported f hown
    obtain ⟨hdir, -, hdeadline, -, rfl⟩ := reachabilityAnalyze_eq_ok_iff.mp hrun
    obtain ⟨hcovered, himported, htruncated, hambiguous, -⟩ :=
      (verdict_notReachable_iff calls.toLowerCase hsupported).mp hverdict
    have huntruncated := run_untruncated_iff.mp htruncated
    have hlanguage : languageOf f.fileName = some language :=
      of_decide_eq_true (List.mem_filter.mp hown).2
    have hstatic : ∀ g ∈ sourcesOf tree, languageOf g.fileName = some language →
        ∀ content, readSource g = some content →
          (calls.extractImports language content).dynamic = false := by
      intro g hg hlang content hcontent
      rw [Bool.eq_false_iff]
      intro hdynamic
      refine hambiguous ((run_ambiguous_iff calls tree language).mpr (Or.inr ⟨g, hg, hlang, ?_⟩))
      intro content' hcontent'
      rw [hcontent] at hcontent'
      exact Option.some.inj hcontent' ▸ hdynamic
    obtain ⟨g, hg, hglang, -⟩ := (run_languages_iff calls tree language).mp hcovered
    have hsource : f ∈ sourcesOf tree := by
      by_cases hrust : language = .rust
      · -- the crate walk and the probe answer for what the shared walk skips
        subst hrust
        have hstart : ReachabilityLanguage.rust ∉ (startGraph calls tree).ambiguous :=
          fun hin => hambiguous ((run_ambiguous_iff calls tree _).mpr (Or.inl hin))
        exact rust_sources_read huntruncated
          (sharedWalkFoundRust_of_source huntruncated hg hglang) hstart hown
      · -- otherwise it would be hidden, and the verdict says that the rest is silent
        rw [mem_sourcesOf_language huntruncated hrust hlanguage]
        by_contra hhidden
        have hvisibleOf := fun {g : RepoFile} (hlang : languageOf g.fileName = some language) =>
          mem_sourcesOf_language huntruncated hrust hlang
        refine hnone ⟨language, hsupported, hrust, ⟨f, hown, hhidden⟩, hdir, hdeadline,
          huntruncated, ⟨g, (hvisibleOf hglang).mp hg, hglang⟩, ?_⟩
        intro g hg hlang content hcontent
        have hgsource := (hvisibleOf hlang).mpr hg
        refine ⟨hstatic g hgsource hlang content hcontent, fun name hname => ?_⟩
        refine (isImported_eq_false_iff _ (ecosystem_ne_crates hsupported hrust)).mp himported
          name ?_
        exact (run_imported_iff calls tree language name).mpr
          ⟨g, hgsource, hlang, content, hcontent, hname⟩
    obtain ⟨content, hcontent⟩ :=
      Option.ne_none_iff_exists'.mp (readSource_of_source huntruncated hsource)
    refine ⟨parsed_of_source huntruncated hsource hlanguage, content, hcontent,
      hstatic f hsource hlanguage content hcontent, fun name hname => ?_⟩
    exact (run_imported_iff calls tree language name).mpr
      ⟨f, hsource, hlanguage, content, hcontent, hname⟩

end FailsClosed

/-! ## A source below the depth of the walk -/

/-- Entries under a number of nested directories. -/
def nested : Nat → List WorkEntry → List WorkEntry
  | 0, entries => entries
  | n + 1, entries => [.dir "d" (.ok ()) true (nested n entries)]

/-- `app.js` imports nothing, and `util.js`, 33 directories down, imports `lodash`. -/
def deepTree : WorkTree where
  workDir := "/tmp/work"
  entries := .file "app.js" (.ok ()) 0 (.ok "") ::
    nested 33 [.file "util.js" (.ok ()) 16 (.ok "import 'lodash';")]
  distinct := by decide +kernel

/-- Extractors that know the two files. -/
def deepCalls : ReachabilityCalls where
  toLowerCase := id
  extractImports _ content :=
    if content = "import 'lodash';" then { packages := ["lodash"] } else { packages := [] }
  cargoTomlDeclaresDependencyRename _ := false

def lodash : ResolvedComponent where
  purl := "pkg:npm/lodash@4.17.20"
  name := "lodash"
  version := "4.17.20"
  ecosystem := "npm"

theorem deepTree_visible : visibleTree deepTree = [⟨[], "app.js", 0, .ok ""⟩] := by
  rfl

/-- The import of `lodash` is never read, and the verdict is `not_reachable`. -/
theorem deep_import_not_reachable : ¬ FailsClosed deepCalls deepTree true lodash := by
  have hlooks : looksOf deepTree = [] := by
    unfold looksOf
    rw [deepTree_visible]
    rfl
  have hcrates : crateSources deepTree = [] := by
    unfold crateSources
    rw [hlooks]
    rfl
  have huntruncated : Untruncated deepTree := by
    refine ⟨?_, ?_, ?_, ?_, ?_⟩
    · rw [deepTree_visible]
      decide
    · rw [deepTree_visible]
      intro m hm _
      rw [List.mem_singleton.mp hm]
      exact Option.some_ne_none ""
    · rw [hlooks]
      exact ⟨List.not_mem_nil, fun i hi => absurd hi (Nat.not_lt_zero i)⟩
    · rw [deepTree_visible]
      intro f hf _
      rw [List.mem_singleton.mp hf]
      exact Option.some_ne_none ""
    · rw [hcrates]
      intro f hf
      cases hf
  have hhidden : HiddenSource deepCalls deepTree true lodash .javascript := by
    refine ⟨by decide, by decide, ?_, rfl, rfl, huntruncated, ?_, ?_⟩
    · refine ⟨⟨List.replicate 33 "d", "util.js", 16, .ok "import 'lodash';"⟩, ?_, ?_⟩
      · have hown : firstPartySources .javascript deepTree =
            [⟨[], "app.js", 0, .ok ""⟩,
              ⟨List.replicate 33 "d", "util.js", 16, .ok "import 'lodash';"⟩] := by
          rfl
        rw [hown]
        exact List.mem_cons_of_mem _ (List.mem_singleton.mpr rfl)
      · rw [deepTree_visible, List.mem_singleton]
        exact fun heq => absurd (congrArg RepoFile.fileName heq) (by decide)
    · rw [deepTree_visible]
      exact ⟨_, List.mem_singleton.mpr rfl, by decide⟩
    · rw [deepTree_visible]
      intro f hf _ content hcontent
      rw [List.mem_singleton.mp hf] at hcontent
      obtain rfl : "" = content := Option.some.inj hcontent
      exact ⟨by decide, fun name hname => by cases hname⟩
  exact hhidden.not_failsClosed

end Scanner
end Ctem
