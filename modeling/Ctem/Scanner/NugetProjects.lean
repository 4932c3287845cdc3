import Ctem.Scanner.ImageInventory
import Ctem.Scanner.SbomParser

/-!
# The references of a project file

A project file without a lockfile beside it pins its own dependencies: `parseCsproj` takes the
package references that name one version.  The patterns of the source are written out.
-/

namespace Ctem
namespace Scanner

open Foundation

/-! ## Package URLs -/

def purlFor (ecosystem name version : String) : String :=
  if ecosystem = "npm" then npmPurl name version
  else if ecosystem = "PyPI" then "pkg:pypi/" ++ encodePurl name ++ "@" ++ version
  else if ecosystem = "crates.io" then "pkg:cargo/" ++ encodePurl name ++ "@" ++ version
  else if ecosystem = "Go" then "pkg:golang/" ++ name ++ "@" ++ version
  else if ecosystem = "RubyGems" then "pkg:gem/" ++ encodePurl name ++ "@" ++ version
  else if ecosystem = "Maven" then
    match (splitOn ':' name.toList).map String.ofList with
    | group :: artifact :: _ => "pkg:maven/" ++ group ++ "/" ++ artifact ++ "@" ++ version
    | _ => "pkg:maven/" ++ name ++ "/" ++ name ++ "@" ++ version
  else if ecosystem = "NuGet" then "pkg:nuget/" ++ encodePurl name ++ "@" ++ version
  else if ecosystem = "Packagist" then "pkg:composer/" ++ name ++ "@" ++ version
  else "pkg:generic/" ++ encodePurl name ++ "@" ++ version

/-! ## Patterns without regard to case -/

def startsNoCase (word cs : List Char) : Bool :=
  decide ((cs.take word.length).map Char.toLower = word.map Char.toLower)

/-- The texts in front of and behind the first occurrence. -/
def cutNoCase (word : List Char) : List Char → Option (List Char × List Char)
  | [] => if word.isEmpty then some ([], []) else none
  | c :: rest =>
      if startsNoCase word (c :: rest) then some ([], (c :: rest).drop word.length)
      else (cutNoCase word rest).map fun parts => (c :: parts.1, parts.2)

/-- `content.replace(/<!--[\s\S]*?-->/g, '')`; the number says how much is still left out. -/
def stripXmlComments : Nat → List Char → List Char
  | _, [] => []
  | skip + 1, _ :: rest => stripXmlComments skip rest
  | 0, c :: rest =>
      if "<!--".toList.isPrefixOf (c :: rest) then
        match cutNoCase "-->".toList (rest.drop 3) with
        | some (comment, _) => stripXmlComments (comment.length + 6) rest
        | none => c :: stripXmlComments 0 rest
      else c :: stripXmlComments 0 rest

/-! ## References -/

/-- The attributes and the text of a reference. -/
structure PackageReference where
  attrs : List Char
  inner : List Char

/-- `\w`, where a word must not go on. -/
def wordGoesOn (cs : List Char) : Bool := cs.head?.any fun c => c.isAlphanum || c == '_'

/-- The reference a text begins with. -/
def packageReferenceAt? (cs : List Char) : Option PackageReference :=
  let tagName := "<PackageReference".toList
  let rest := cs.drop tagName.length
  if !startsNoCase tagName cs || wordGoesOn rest then none
  else
    let attrs := rest.takeWhile fun c => c != '>'
    match rest.dropWhile fun c => c != '>' with
    | [] => none
    | _ :: behind =>
        if attrs.getLast? = some '/' then some ⟨attrs.dropLast, []⟩
        else (cutNoCase "</PackageReference>".toList behind).map fun parts => ⟨attrs, parts.1⟩

def packageReferences (xml : List Char) : List PackageReference :=
  xml.tails.filterMap packageReferenceAt?

/-- `name\s*=\s*"([^"]+)"` at the beginning of a text. -/
def attrAt? (name cs : List Char) : Option (List Char) :=
  if startsNoCase name cs then
    match (cs.drop name.length).dropWhile isJsSpace with
    | '=' :: rest =>
        match rest.dropWhile isJsSpace with
        | '"' :: rest =>
            let value := rest.takeWhile fun c => c != '"'
            if value = [] ∨ value.length = rest.length then none else some value
        | _ => none
    | _ => none
  else none

def attr (attrs name : List Char) : Option (List Char) := attrs.tails.findSome? (attrAt? name)

/-- `<name>([^<]+)</name>` at the beginning of a text, the group trimmed. -/
def tagAt? (name cs : List Char) : Option (List Char) :=
  let start := '<' :: (name ++ ['>'])
  if startsNoCase start cs then
    let rest := cs.drop start.length
    let value := rest.takeWhile fun c => c != '<'
    if value ≠ [] ∧ startsNoCase ('<' :: '/' :: (name ++ ['>'])) (rest.drop value.length) then
      some (trimChars value)
    else none
  else none

def tag (inner name : List Char) : Option (List Char) := inner.tails.findSome? (tagAt? name)

def isPinnedNuget (version : List Char) : Bool :=
  version.all fun c => !decide (c ∈ ['[', '(', ',', '*', ']'])

/-- The name and the version of a reference that pins one. -/
def pinnedReference? (r : PackageReference) : Option (String × String) := do
  let name ← (attr r.attrs "Include".toList).or (attr r.attrs "Update".toList)
  let version ← (attr r.attrs "Version".toList).or (tag r.inner "Version".toList)
  if name = [] ∨ version = [] ∨ isPinnedNuget version = false then none
  else some (String.ofList name, String.ofList version)

/-- `seen`: the first version of each name. -/
def pinnedReferences (content : String) : AssocMap String String :=
  AssocMap.groupFold Prod.fst (fun r (old : Option String) => old.getD r.2)
    ((packageReferences (stripXmlComments 0 content.toList)).filterMap pinnedReference?)

def parseCsproj (content manifestPath : String) : List ResolvedComponent :=
  (pinnedReferences content).map fun (name, version) =>
    { name := name
      version := version
      ecosystem := "NuGet"
      purl := purlFor "NuGet" name version
      direct := true
      dependencyPath := [name]
      manifestPath := some manifestPath }

end Scanner
end Ctem
