import Ctem.Scanner.RepoWalk
import Ctem.Scanner.SbomParser

/-!
# Resolving the lockfiles of a checkout

Per directory and group the lockfile of the highest priority wins, and each winner
is parsed.  A winner that cannot be read or parsed is skipped; only when all of
them fail does the resolution fail.

The parsers are a parameter: a list of `EcosystemParser`, as the source's own list
is, each with what it does on the text of a lockfile.
-/

namespace Ctem
namespace Scanner

open Foundation

/-- `LockfileInput`: the lockfile and its siblings by base name. -/
structure LockfileInput where
  relPath : String
  content : String
  companions : AssocMap String String

/-- One lockfile format. -/
structure EcosystemParser where
  id : String
  ecosystem : String
  group : String
  priority : Int
  accepts : String → Bool
  fileRank : Option (String → Int) := none
  companionFiles : List String := []
  parse : LockfileInput → Except String (List ResolvedComponent)

/-- `MAX_LOCKFILE_BYTES`. -/
def maxLockfileBytes : Nat := 8 * 1024 * 1024

/-- A winner: the parser, its file and the files beside it. -/
structure SelectedLockfile where
  parser : EcosystemParser
  file : RepoFile
  dirFiles : List RepoFile

section Resolve

variable (localeLess : String → String → Bool)

/-- `winsGroup`. -/
def winsGroup (parser : EcosystemParser) (file : RepoFile) :
    Option (EcosystemParser × RepoFile) → Bool
  | none => true
  | some (currentParser, currentFile) =>
      if parser.priority ≠ currentParser.priority then
        decide (currentParser.priority < parser.priority)
      else
        match parser.fileRank.map (· file.fileName),
            currentParser.fileRank.map (· currentFile.fileName) with
        | none, none => false
        | a, b =>
            if a.getD 0 ≠ b.getD 0 then decide (b.getD 0 < a.getD 0)
            else localeLess file.fileName currentFile.fileName

/-- One candidate of the inner loop. -/
def considerParser (file : RepoFile) (winners : AssocMap String (EcosystemParser × RepoFile))
    (parser : EcosystemParser) : AssocMap String (EcosystemParser × RepoFile) :=
  if parser.accepts file.fileName &&
      winsGroup localeLess parser file (winners.lookup? parser.group) then
    winners.upsert parser.group fun _ => (parser, file)
  else winners

/-- `winners` of one directory. -/
def groupWinners (parsers : List EcosystemParser) (dirFiles : List RepoFile) :
    AssocMap String (EcosystemParser × RepoFile) :=
  dirFiles.foldl (fun winners file => parsers.foldl (considerParser localeLess file) winners) []

/-- `byDir`. -/
def filesByDir (files : List RepoFile) : AssocMap (List String) (List RepoFile) :=
  AssocMap.groupFold RepoFile.dir (fun f (old : Option (List RepoFile)) => old.getD [] ++ [f]) files

/-- `selected`. -/
def selectLockfiles (parsers : List EcosystemParser) (files : List RepoFile) :
    List SelectedLockfile :=
  (AssocMap.values (filesByDir files)).flatMap fun dirFiles =>
    (AssocMap.values (groupWinners localeLess parsers dirFiles)).map fun (parser, file) =>
      ⟨parser, file, dirFiles⟩

end Resolve

/-- `filesToRead`. -/
def filesToRead (parser : EcosystemParser) (lockfileName : String) (dirFiles : List RepoFile) :
    List RepoFile :=
  dirFiles.filter fun file => decide (file.fileName ∈ lockfileName :: parser.companionFiles)

/-- `read`: files over the cap are refused. -/
def readLockfile (file : RepoFile) : Except String String :=
  if maxLockfileBytes < file.size then
    .error ("Refusing to read " ++ file.relPath ++ " (" ++ toString file.size ++
      " bytes) — lockfile/companion cap is " ++ toString maxLockfileBytes ++ " bytes")
  else file.text

/-- The companions of a winner, read one by one. -/
def readCompanions (files : List RepoFile) : Except String (AssocMap String String) :=
  files.foldlM (fun companions file => do
    let text ← readLockfile file
    pure (companions.upsert file.fileName fun _ => text)) []

/-- The body of the loop over the winners, inside its `try`. -/
def parseSelected (s : SelectedLockfile) : Except String (List ResolvedComponent) := do
  let companions ← readCompanions (filesToRead s.parser s.file.fileName s.dirFiles)
  let content ←
    match companions.lookup? s.file.fileName with
    | some content => pure content
    | none => readLockfile s.file
  s.parser.parse ⟨s.file.relPath, content, companions⟩

/-! ## Components of one manifest -/

/-- The key components are deduplicated by. -/
def dedupeKey (c : ResolvedComponent) : String :=
  c.ecosystem ++ ":" ++ c.name ++ "@" ++ c.version ++ ":" ++ c.manifestPath.getD ""

/-- A direct hit is preferred, then a shorter path. -/
def preferred (component existing : ResolvedComponent) : Bool :=
  (component.direct && !existing.direct) ||
    (decide (component.direct = existing.direct) &&
      decide (0 < component.dependencyPath.length) &&
      (decide (existing.dependencyPath.length = 0) ||
        decide (component.dependencyPath.length < existing.dependencyPath.length)))

/-- `dedupeComponents`. -/
def dedupeComponents (components : List ResolvedComponent) : List ResolvedComponent :=
  AssocMap.values (AssocMap.groupFold dedupeKey
    (fun component old =>
      match old with
      | none => component
      | some existing => if preferred component existing then component else existing)
    components)

/-- The components behind the loop over the winners: those of the winners that could
be parsed. -/
def collectComponents (selected : List SelectedLockfile) : List ResolvedComponent :=
  selected.flatMap fun s =>
    match parseSelected s with
    | .ok components => components
    | .error _ => []

/-- `failures`. -/
def parseFailures (selected : List SelectedLockfile) : Nat :=
  selected.countP fun s =>
    match parseSelected s with
    | .ok _ => false
    | .error _ => true

/-- `resolveLockfiles`. -/
def resolveLockfiles (localeLess : String → String → Bool) (parsers : List EcosystemParser)
    (tree : RepoTree) : Except String (List ResolvedComponent) :=
  let files := listRepoFiles ignoreDirs {} tree
  if files.isEmpty then .ok []
  else
    let selected := selectLockfiles localeLess parsers files
    let failures := parseFailures selected
    if 0 < selected.length ∧ failures = selected.length then
      .error ("Every lockfile parser failed (" ++ toString failures ++ "/" ++
        toString selected.length ++ ") — refusing an empty successful scan")
    else .ok (dedupeComponents (collectComponents selected))

/-- Every winner of a checkout has failed, and there is one. -/
def EveryLockfileFails (selected : List SelectedLockfile) : Prop :=
  selected ≠ [] ∧ ∀ s ∈ selected, ∃ message, parseSelected s = .error message

theorem parseFailures_eq_length_iff (selected : List SelectedLockfile) :
    parseFailures selected = selected.length ↔
      ∀ s ∈ selected, ∃ message, parseSelected s = .error message := by
  unfold parseFailures
  rw [List.countP_eq_length]
  constructor
  · intro h s hs
    have hfails := h s hs
    cases hparse : parseSelected s with
    | error message => exact ⟨message, rfl⟩
    | ok components => simp [hparse] at hfails
  · intro h s hs
    obtain ⟨message, hparse⟩ := h s hs
    simp [hparse]

/-- The lockfiles of a checkout that are parsed. -/
def selectedLockfiles (localeLess : String → String → Bool) (parsers : List EcosystemParser)
    (tree : RepoTree) : List SelectedLockfile :=
  selectLockfiles localeLess parsers (listRepoFiles ignoreDirs {} tree)

/-- The resolution fails when every winner does, and otherwise returns the components
of the winners that could be parsed. -/
theorem resolveLockfiles_eq (localeLess : String → String → Bool)
    (parsers : List EcosystemParser) (tree : RepoTree) :
    (EveryLockfileFails (selectedLockfiles localeLess parsers tree) ∧
        ∃ message, resolveLockfiles localeLess parsers tree = .error message) ∨
      (¬ EveryLockfileFails (selectedLockfiles localeLess parsers tree) ∧
        resolveLockfiles localeLess parsers tree =
          .ok (dedupeComponents (collectComponents (selectedLockfiles localeLess parsers tree)))) := by
  unfold EveryLockfileFails selectedLockfiles resolveLockfiles
  cases hfiles : listRepoFiles ignoreDirs {} tree with
  | nil => exact Or.inr ⟨fun h => h.1 rfl, rfl⟩
  | cons file rest =>
      simp only [List.isEmpty_cons, Bool.false_eq_true, if_false]
      generalize selectLockfiles localeLess parsers (file :: rest) = selected
      rw [← parseFailures_eq_length_iff]
      by_cases hfails : 0 < selected.length ∧ parseFailures selected = selected.length
      · rw [if_pos hfails]
        exact Or.inl ⟨⟨List.ne_nil_of_length_pos hfails.1, hfails.2⟩, _, rfl⟩
      · rw [if_neg hfails]
        refine Or.inr ⟨?_, rfl⟩
        rintro ⟨hne, hall⟩
        exact hfails ⟨List.length_pos_of_ne_nil hne, hall⟩

end Scanner
end Ctem
