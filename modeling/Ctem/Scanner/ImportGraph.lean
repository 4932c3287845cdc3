import Ctem.Foundation.JsText
import Ctem.Scanner.SbomParser

/-!
# The import graph and its verdicts

The graph of the packages that first-party source imports, by language, and the
verdict it gives on a component.  `toLowerCase` is a parameter: package names are any
text.

* `languageOf` tells the language of a source file by its name.
* `verdictForComponent` is `not_reachable` only when the language is covered and
  neither truncated nor ambiguous.
-/

namespace Ctem
namespace Scanner

open Foundation

/-- `REACHABILITY_LANGUAGES`. -/
inductive ReachabilityLanguage where
  | javascript | python | go | rust
deriving DecidableEq, Repr

/-- `REACHABILITY_VERDICTS`. -/
inductive ReachabilityVerdict where
  | reachable | notReachable | unknown
deriving DecidableEq, Repr

structure ReachabilityGraph where
  /-- Languages of which a source file was parsed. -/
  languages : List ReachabilityLanguage := []
  imported : AssocMap ReachabilityLanguage (List String) := []
  /-- Languages of which nothing can be ruled out. -/
  ambiguous : List ReachabilityLanguage := []
  /-- The walk or a read was incomplete. -/
  truncated : Bool := false
deriving DecidableEq, Repr

/-- `graph.imported.get(language) ?? new Set()`. -/
def ReachabilityGraph.importedBy (graph : ReachabilityGraph) (language : ReachabilityLanguage) :
    List String :=
  (graph.imported.lookup? language).getD []

/-! ## Languages of files -/

/-- The endings `JS_EXT` accepts. -/
def jsExtensions : List String :=
  [".js", ".jsx", ".ts", ".tsx", ".cjs", ".cjsx", ".cts", ".ctsx", ".mjs", ".mjsx", ".mts", ".mtsx"]

def isJavascriptSource (fileName : String) : Bool :=
  !endsWith fileName ".d.ts" && jsExtensions.any (endsWith fileName)

def isPythonSource (fileName : String) : Bool :=
  endsWith fileName ".py"

def isGoSource (fileName : String) : Bool :=
  endsWith fileName ".go"

def isRustSource (fileName : String) : Bool :=
  endsWith fileName ".rs"

def languageOf (fileName : String) : Option ReachabilityLanguage :=
  if isJavascriptSource fileName then some .javascript
  else if isPythonSource fileName then some .python
  else if isGoSource fileName then some .go
  else if isRustSource fileName then some .rust
  else none

/-- A name has one ending only: the last two characters of a Rust source are those of
no other language. -/
theorem endsWith_of_isRustSource {fileName suf : String} (h : isRustSource fileName = true)
    (hsuf : suf.toList.reverse.take 2 ≠ ['s', 'r']) (hlen : 2 ≤ suf.toList.length) :
    endsWith fileName suf = false := by
  rw [Bool.eq_false_iff]
  intro hends
  have hrs : ['s', 'r', '.'] <+: fileName.toList.reverse := by
    simpa [isRustSource, endsWith, List.isSuffixOf] using h
  have hother : suf.toList.reverse <+: fileName.toList.reverse := by
    simpa [endsWith, List.isSuffixOf] using hends
  have htwo : suf.toList.reverse.take 2 = fileName.toList.reverse.take 2 := by
    obtain ⟨more, hmore⟩ := hother
    rw [← hmore, List.take_append_of_le_length (by simpa using hlen)]
  obtain ⟨more, hmore⟩ := hrs
  rw [← hmore] at htwo
  exact hsuf htwo

theorem languageOf_rust {fileName : String} (h : isRustSource fileName = true) :
    languageOf fileName = some .rust := by
  have hjs : isJavascriptSource fileName = false := by
    unfold isJavascriptSource
    rw [Bool.and_eq_false_iff]
    right
    rw [List.any_eq_false]
    intro suf hsuf
    rw [Bool.not_eq_true]
    have hends : ∀ suf ∈ jsExtensions,
        suf.toList.reverse.take 2 ≠ ['s', 'r'] ∧ 2 ≤ suf.toList.length := by decide
    exact endsWith_of_isRustSource h (hends suf hsuf).1 (hends suf hsuf).2
  have hpy : isPythonSource fileName = false :=
    endsWith_of_isRustSource h (by decide) (by decide)
  have hgo : isGoSource fileName = false :=
    endsWith_of_isRustSource h (by decide) (by decide)
  simp [languageOf, hjs, hpy, hgo, h]

theorem isRustSource_of_languageOf {fileName : String} (h : languageOf fileName = some .rust) :
    isRustSource fileName = true := by
  unfold languageOf at h
  split at h
  · simp at h
  · split at h
    · simp at h
    · split at h
      · simp at h
      · split at h
        · assumption
        · simp at h

/-- `isRustBuildOrVendoredPath`, on the directories of the path. -/
def isRustBuildOrVendoredPath (dir : List String) : Bool :=
  dir.any fun segment => decide (segment = "target") || decide (segment = "vendor")

/-! ## Verdicts -/

/-- `ECOSYSTEM_LANGUAGE`. -/
def languageForEcosystem (ecosystem : String) : Option ReachabilityLanguage :=
  if ecosystem = "npm" then some .javascript
  else if ecosystem = "PyPI" then some .python
  else if ecosystem = "Go" then some .go
  else if ecosystem = "crates.io" then some .rust
  else none

/-- `RUST_LIB_ALIASES`. -/
def rustLibAliases : AssocMap String String :=
  [("xml_rs", "xml"), ("md_5", "md5"), ("sha_1", "sha1"), ("rust_crypto", "crypto"),
    ("rust_ini", "ini"), ("rust_s3", "s3")]

/-- What every object literal inherits; `RUST_LIB_ALIASES[needle]` is no text for it. -/
def objectPrototypeKeys : List String :=
  ["constructor", "__proto__", "__defineGetter__", "__defineSetter__", "hasOwnProperty",
    "__lookupGetter__", "__lookupSetter__", "isPrototypeOf", "propertyIsEnumerable", "toString",
    "valueOf", "toLocaleString"]

/-- `replace(/[-_.]+/g, '-')`; `inRun` after a character of a run. -/
def collapseSeparators (inRun : Bool) : List Char → List Char
  | [] => []
  | c :: cs =>
      if c ∈ ['-', '_', '.'] then
        if inRun then collapseSeparators true cs else '-' :: collapseSeparators true cs
      else c :: collapseSeparators false cs

/-- `replace(/x/g, 'y')`. -/
def replaceChar (x y : Char) (s : String) : String :=
  String.ofList (s.toList.map fun c => if c = x then y else c)

/-- `/[sep]\d+$/.test(text)`. -/
def endsInNumber (sep : Char) (text : String) : Bool :=
  let digits := text.toList.reverse.takeWhile Char.isDigit
  !digits.isEmpty && decide ((text.toList.reverse.drop digits.length).head? = some sep)

section Verdict

variable (toLowerCase : String → String)

def normalizePyName (name : String) : String :=
  String.ofList (collapseSeparators false (toLowerCase name).toList)

def normalizeRustCrate (name : String) : String :=
  replaceChar '-' '_' (toLowerCase name)

/-- The library of a crate may have another name. -/
def rustPackageMayDifferFromLib (name : String) : Bool :=
  let hyphenated := replaceChar '_' '-' (toLowerCase name)
  let underscored := replaceChar '-' '_' (toLowerCase name)
  startsWith hyphenated "rust-" || endsWith hyphenated "-rs" || endsInNumber '-' hyphenated ||
    startsWith underscored "rust_" || endsWith underscored "_rs" || endsInNumber '_' underscored

def rustImportHas (imported : List String) (needle : String) : Bool :=
  imported.any fun name => decide (normalizeRustCrate toLowerCase name = needle)

/-- `rustCrateImported`: an inherited key of the table throws. -/
def rustCrateImported (name : String) (imported : List String) : Except String Bool :=
  let needle := normalizeRustCrate toLowerCase name
  if rustImportHas toLowerCase imported needle then .ok true
  else
    match rustLibAliases.lookup? needle with
    | some libName =>
        .ok (rustImportHas toLowerCase imported (normalizeRustCrate toLowerCase libName))
    | none =>
        -- no alias of its own, but perhaps an inherited member
        if needle ∈ objectPrototypeKeys then .error "name.toLowerCase is not a function"
        else .ok false

def isImported (name ecosystem : String) (imported : List String) : Except String Bool :=
  if ecosystem = "Go" then
    .ok (imported.any fun path => decide (path = name) || startsWith path (name ++ "/"))
  else if ecosystem = "PyPI" then
    .ok (decide (normalizePyName toLowerCase name ∈ imported))
  else if ecosystem = "crates.io" then rustCrateImported toLowerCase name imported
  else .ok (decide (name ∈ imported))

/-- The verdict of a graph on a component. -/
def verdictForComponent (component : ResolvedComponent) (graph : ReachabilityGraph) :
    Except String ReachabilityVerdict :=
  match languageForEcosystem component.ecosystem with
  | none => .ok .unknown
  | some language =>
      if language ∉ graph.languages then .ok .unknown
      else do
        -- an import that was found counts whatever else was left out
        if ← isImported toLowerCase component.name component.ecosystem
            (graph.importedBy language) then
          return .reachable
        if graph.truncated || decide (language ∈ graph.ambiguous) then return .unknown
        if language = .rust ∧ rustPackageMayDifferFromLib toLowerCase component.name then
          return .unknown
        return .notReachable

/-- The verdict is `not_reachable` for a language that is covered, neither truncated
nor ambiguous, and does not import the component. -/
theorem verdict_notReachable_iff {component : ResolvedComponent} {graph : ReachabilityGraph}
    {language : ReachabilityLanguage}
    (hlanguage : languageForEcosystem component.ecosystem = some language) :
    verdictForComponent toLowerCase component graph = .ok .notReachable ↔
      language ∈ graph.languages ∧
        isImported toLowerCase component.name component.ecosystem (graph.importedBy language) =
          .ok false ∧
        graph.truncated = false ∧ language ∉ graph.ambiguous ∧
        ¬ (language = .rust ∧ rustPackageMayDifferFromLib toLowerCase component.name = true) := by
  unfold verdictForComponent
  simp only [hlanguage]
  by_cases hcovered : language ∈ graph.languages
  · rw [if_neg (not_not.mpr hcovered)]
    cases himported : isImported toLowerCase component.name component.ecosystem
        (graph.importedBy language) with
    | error message => simp [bind, Except.bind]
    | ok imported =>
        cases imported with
        | true => simp [bind, Except.bind, pure, Except.pure]
        | false =>
            by_cases hflag : (graph.truncated || decide (language ∈ graph.ambiguous)) = true
            · simp only [bind, Except.bind, pure, Except.pure, hflag, if_true, if_false,
                Bool.false_eq_true]
              simp only [Bool.or_eq_true, decide_eq_true_eq] at hflag
              constructor
              · intro h
                simp at h
              · rintro ⟨-, -, htruncated, hambiguous, -⟩
                rcases hflag with hflag | hflag
                · simp [htruncated] at hflag
                · exact absurd hflag hambiguous
            · simp only [bind, Except.bind, pure, Except.pure, hflag, if_false,
                Bool.false_eq_true]
              simp only [Bool.or_eq_true, decide_eq_true_eq, not_or, Bool.not_eq_true] at hflag
              by_cases hlib : language = .rust ∧
                  rustPackageMayDifferFromLib toLowerCase component.name = true
              · simp [hlib]
              · simp [hlib, hcovered, hflag]
  · simp [hcovered]

/-- What the files import is looked at name by name. -/
theorem isImported_eq_false_iff {name ecosystem : String} {imported : List String}
    (hrust : ecosystem ≠ "crates.io") :
    isImported toLowerCase name ecosystem imported = .ok false ↔
      ∀ found ∈ imported, isImported toLowerCase name ecosystem [found] = .ok false := by
  unfold isImported
  by_cases hgo : ecosystem = "Go"
  · simp [hgo]
  · by_cases hpy : ecosystem = "PyPI"
    · simp only [hpy, String.reduceEq, if_false, if_true, Except.ok.injEq, decide_eq_false_iff_not,
        List.mem_singleton]
      exact ⟨fun h found hfound heq => h (heq ▸ hfound), fun h hin => h _ hin rfl⟩
    · simp only [if_neg hgo, if_neg hpy, if_neg hrust, Except.ok.injEq, decide_eq_false_iff_not,
        List.mem_singleton]
      exact ⟨fun h found hfound heq => h (heq ▸ hfound), fun h hin => h _ hin rfl⟩

end Verdict

end Scanner
end Ctem
