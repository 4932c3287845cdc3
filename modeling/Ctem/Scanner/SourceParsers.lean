import Ctem.Scanner.Lockfiles
import Ctem.Scanner.NugetProjects

/-!
# The lockfile parsers

`sourceParsers` is the list the resolution goes through, with the file names, groups and
priorities of the source and the way each parser is handed its companions.  The parsing of the
formats is a parameter, that of project files is not.

A parser puts the path it is given on every component: `Stamped` carries that.
-/

namespace Ctem
namespace Scanner

open Foundation

/-- Components that carry the path of their lockfile. -/
structure Stamped (path : String) where
  components : List ResolvedComponent
  stamped : ∀ c ∈ components, c.manifestPath = some path

abbrev ParsesLockfile := (content path : String) → Except String (Stamped path)

/-- A parser that also reads a file beside the lockfile. -/
abbrev ParsesWithCompanion :=
  (content : String) → (companion : Option String) → (path : String) → Except String (Stamped path)

/-- The formats. -/
structure LockfileFormats where
  parsePnpmLock : ParsesLockfile
  parseYarn : ParsesWithCompanion
  parseNpmLock : ParsesLockfile
  parseCargoLock : ParsesLockfile
  parseGoModules : (goMod goSum path : String) → Except String (Stamped path)
  parsePoetryLock : ParsesWithCompanion
  parseUvLock : ParsesLockfile
  parsePipfileLock : ParsesWithCompanion
  parseRequirementsTxt : ParsesLockfile
  parseGemfileLock : ParsesLockfile
  parseCycloneDxLockfile : ParsesLockfile
  parseGradleLockfile : ParsesWithCompanion
  parsePomXml : ParsesLockfile
  parseComposerLock : ParsesWithCompanion
  parsePackagesLock : ParsesLockfile

/-- The parser reads the lockfile alone. -/
def ParsesLockfile.run (parse : ParsesLockfile) (input : LockfileInput) :
    Except String (List ResolvedComponent) :=
  (parse input.content input.relPath).map Stamped.components

/-- The parser reads the lockfile and one companion. -/
def ParsesWithCompanion.run (parse : ParsesWithCompanion) (companion : String)
    (input : LockfileInput) : Except String (List ResolvedComponent) :=
  (parse input.content (input.companions.lookup? companion) input.relPath).map Stamped.components

/-- The path in which a `go.mod` at the end is `go.sum`. -/
def goSumPath (relPath : String) : String :=
  if endsWith relPath "go.mod" then
    String.ofList (relPath.toList.take (relPath.toList.length - 6)) ++ "go.sum"
  else relPath

/-- `parse` of the Go parser: each of its files may be the one that was found. -/
def runGo (parse : (goMod goSum path : String) → Except String (Stamped path))
    (input : LockfileInput) : Except String (List ResolvedComponent) :=
  let goMod := (input.companions.lookup? "go.mod").getD
    (if endsWith input.relPath "go.mod" then input.content else "")
  let goSum := (input.companions.lookup? "go.sum").getD
    (if endsWith input.relPath "go.sum" then input.content else "")
  (parse goMod goSum (goSumPath input.relPath)).map Stamped.components

def isCycloneDxFileName (fileName : String) : Bool :=
  decide (fileName = "bom.json") || decide (fileName = "cyclonedx.json") ||
    endsWith fileName ".cdx.json"

def cycloneDxFileRank (fileName : String) : Int :=
  if fileName = "bom.json" then 3
  else if fileName = "cyclonedx.json" then 2
  else if endsWith fileName ".cdx.json" then 1
  else 0

section Parsers

variable (formats : LockfileFormats)

/-- A parser for files of one name. -/
def namedParser (id ecosystem group : String) (priority : Int) (fileName : String)
    (companionFiles : List String)
    (parse : LockfileInput → Except String (List ResolvedComponent)) : EcosystemParser where
  id := id
  ecosystem := ecosystem
  group := group
  priority := priority
  accepts name := decide (name = fileName)
  companionFiles := companionFiles
  parse := parse

def pnpmParser : EcosystemParser :=
  namedParser "pnpm" "npm" "javascript" 30 "pnpm-lock.yaml" [] formats.parsePnpmLock.run

def yarnParser : EcosystemParser :=
  namedParser "yarn" "npm" "javascript" 20 "yarn.lock" ["package.json"]
    (formats.parseYarn.run "package.json")

def npmParser : EcosystemParser :=
  namedParser "npm" "npm" "javascript" 10 "package-lock.json" [] formats.parseNpmLock.run

def cargoParser : EcosystemParser :=
  namedParser "cargo" "crates.io" "cargo" 10 "Cargo.lock" [] formats.parseCargoLock.run

def golangParser : EcosystemParser where
  id := "golang"
  ecosystem := "Go"
  group := "golang"
  priority := 10
  accepts fileName := decide (fileName = "go.sum") || decide (fileName = "go.mod")
  companionFiles := ["go.mod", "go.sum"]
  parse := runGo formats.parseGoModules

def poetryParser : EcosystemParser :=
  namedParser "poetry" "PyPI" "python" 30 "poetry.lock" ["pyproject.toml"]
    (formats.parsePoetryLock.run "pyproject.toml")

def uvParser : EcosystemParser :=
  namedParser "uv" "PyPI" "python" 26 "uv.lock" [] formats.parseUvLock.run

def pipfileParser : EcosystemParser :=
  namedParser "pipenv" "PyPI" "python" 25 "Pipfile.lock" ["Pipfile"]
    (formats.parsePipfileLock.run "Pipfile")

def pipParser : EcosystemParser :=
  namedParser "pip" "PyPI" "python" 10 "requirements.txt" [] formats.parseRequirementsTxt.run

def gemParser : EcosystemParser :=
  namedParser "bundler" "RubyGems" "ruby" 10 "Gemfile.lock" [] formats.parseGemfileLock.run

def cyclonedxParser : EcosystemParser where
  id := "cyclonedx"
  ecosystem := "Maven"
  group := "java"
  priority := 40
  accepts := isCycloneDxFileName
  fileRank := some cycloneDxFileRank
  parse := formats.parseCycloneDxLockfile.run

def gradleParser : EcosystemParser :=
  namedParser "gradle" "Maven" "java" 20 "gradle.lockfile" ["pom.xml"]
    (formats.parseGradleLockfile.run "pom.xml")

def pomParser : EcosystemParser :=
  namedParser "maven-pom" "Maven" "java" 10 "pom.xml" [] formats.parsePomXml.run

def composerParser : EcosystemParser :=
  namedParser "composer" "Packagist" "php" 10 "composer.lock" ["composer.json"]
    (formats.parseComposerLock.run "composer.json")

def nugetLockParser : EcosystemParser :=
  namedParser "nuget-lock" "NuGet" "nuget" 20 "packages.lock.json" []
    formats.parsePackagesLock.run

def csprojParser : EcosystemParser where
  id := "csproj"
  ecosystem := "NuGet"
  group := "nuget"
  priority := 10
  accepts fileName := endsWith fileName ".csproj"
  parse input := .ok (parseCsproj input.content input.relPath)

/-- `PARSERS`. -/
def sourceParsers : List EcosystemParser :=
  [pnpmParser formats, yarnParser formats, npmParser formats, cargoParser formats,
    golangParser formats, poetryParser formats, uvParser formats, pipfileParser formats,
    pipParser formats, gemParser formats, cyclonedxParser formats, gradleParser formats,
    pomParser formats, composerParser formats, nugetLockParser formats, csprojParser]

end Parsers

end Scanner
end Ctem
