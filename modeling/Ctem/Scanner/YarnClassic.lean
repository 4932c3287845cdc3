import Ctem.Foundation.PathText
import Ctem.Foundation.TextSearch
import Ctem.Scanner.TaintTracker

/-!
# yarn classic lockfiles

`parseYarnClassic` up to the entries it reads: a text is split at blank lines, and a block is
read by its lines.

* A run of white space in the regular expressions is followed by something else, so it is taken
  whole: `versionMatch`, `opensDependencies`, `isIndented` and `depMatch` do not backtrack.
* `nameFromDescriptor` is the part of a descriptor in front of its range.
-/

namespace Ctem
namespace Scanner

open Foundation

structure YarnDep where
  name : List Char
  range : List Char
  deriving DecidableEq

structure YarnEntry where
  name : List Char
  version : List Char
  deps : List YarnDep
  deriving DecidableEq

/-! ## Pieces of the expressions -/

/-- `\s+`, and what follows. -/
def afterSpaces (cs : List Char) : Option (List Char) :=
  if cs.head?.any isJsSpace then some (cs.dropWhile isJsSpace) else none

/-- A fixed word, and what follows. -/
def afterLetters (word cs : List Char) : Option (List Char) :=
  if word <+: cs then some (cs.drop word.length) else none

/-- `"([^"]*)"`, and what follows. -/
def afterQuoted : List Char → Option (List Char × List Char)
  | [] => none
  | c :: cs =>
      if c = '"' ∧ '"' ∈ cs then
        some (cs.takeWhile (fun d => decide (d ≠ '"')),
          (cs.dropWhile (fun d => decide (d ≠ '"'))).tail)
      else none

def versionWord : List Char := ['v', 'e', 'r', 's', 'i', 'o', 'n']

/-- `\s+version\s+"([^"]+)"` from here. -/
def versionHere (cs : List Char) : Option (List Char) :=
  ((((afterSpaces cs).bind (afterLetters versionWord)).bind afterSpaces).bind afterQuoted).bind
    fun quoted => if quoted.1 = [] then none else some quoted.1

/-- `block.match(/^\s+version\s+"([^"]+)"/m)`; the flag says whether a line begins here. -/
def versionMatch : Bool → List Char → Option (List Char)
  | _, [] => none
  | lineStart, c :: cs =>
      (if lineStart = true then versionHere (c :: cs) else none).or
        (versionMatch (isLineTerminator c) cs)

def dependenciesWord : List Char :=
  ['d', 'e', 'p', 'e', 'n', 'd', 'e', 'n', 'c', 'i', 'e', 's', ':']

/-- `/^\s+dependencies:/.test(line)`. -/
def opensDependencies (line : List Char) : Bool :=
  ((afterSpaces line).bind (afterLetters dependenciesWord)).isSome

/-- `^\s{4}`, and what follows. -/
def afterIndent (line : List Char) : Option (List Char) :=
  if 4 ≤ line.length ∧ (line.take 4).all isJsSpace = true then some (line.drop 4) else none

/-- `/^\s{4}\S/.test(line)`. -/
def isIndented (line : List Char) : Bool :=
  (afterIndent line).any fun cs => cs.head?.any fun c => !isJsSpace c

/-- `\s+"([^"]*)"`. -/
def rangeHere (cs : List Char) : Option (List Char) :=
  ((afterSpaces cs).bind afterQuoted).map Prod.fst

/-- `"([^"]+)"\s+"([^"]*)"`. -/
def quotedDep (cs : List Char) : Option YarnDep :=
  (afterQuoted cs).bind fun quoted =>
    if quoted.1 = [] then none
    else (rangeHere quoted.2).map fun range => ⟨quoted.1, range⟩

/-- `(\S+)\s+"([^"]*)"`. -/
def plainDep (cs : List Char) : Option YarnDep :=
  let name := cs.takeWhile fun c => !isJsSpace c
  if name = [] then none
  else (rangeHere (cs.drop name.length)).map fun range => ⟨name, range⟩

/-- `/^\s{4}(?:"([^"]+)"|(\S+))\s+"([^"]*)"/.exec(line)`. -/
def depMatch (line : List Char) : Option YarnDep :=
  (afterIndent line).bind fun cs => (quotedDep cs).or (plainDep cs)

/-! ## Descriptors -/

/-- `value.startsWith(quote) && value.endsWith(quote)`. -/
def startsAndEnds (quote : Char) (value : List Char) : Bool :=
  decide (value.head? = some quote) && decide (value.getLast? = some quote)

def unquote (value : List Char) : List Char :=
  if startsAndEnds '"' value || startsAndEnds '\'' value then value.tail.dropLast else value

def splitDescriptors (header : List Char) : List (List Char) :=
  ((splitOn ',' header).map fun s => unquote (trimChars s)).filter fun s => decide (s ≠ [])

def npmProtocol : List Char := ['@', 'n', 'p', 'm', ':']

/-- The name of a descriptor without its quotes. -/
def nameOfRaw (raw : List Char) : List Char :=
  let npmProto := (firstIndex npmProtocol raw).filter fun i => decide (0 < i)
  npmProto.elim
    (if raw.head? = some '@' then
      (((lastIndexOf '@' raw).filter fun i => decide (0 < i)).map raw.take).getD raw
    else ((raw.idxOf? '@').map raw.take).getD raw)
    raw.take

def nameFromDescriptor (descriptor : List Char) : List Char := nameOfRaw (unquote descriptor)

/-! ## Blocks -/

/-- `content.split(/\n{2,}/)`; the flag says whether a run of line ends is being passed. -/
def splitBlocks : Bool → List Char → List (List Char)
  | _, [] => [[]]
  | passing, c :: cs =>
      if c = '\n' ∧ passing = true then splitBlocks true cs
      else if c = '\n' ∧ cs.head? = some '\n' then [] :: splitBlocks true cs
      else (splitBlocks false cs).modifyHead (c :: ·)

/-- `l.trim() && !l.trimStart().startsWith('#')`. -/
def isContentLine (line : List Char) : Bool :=
  (line.dropWhile isJsSpace).head?.any fun c => decide (c ≠ '#')

/-- The loop over the lines of a block; the flag is `inDeps`. -/
def readDeps : Bool → List (List Char) → List YarnDep
  | _, [] => []
  | inDeps, line :: lines =>
      if opensDependencies line then readDeps true lines
      else if inDeps = true ∧ isIndented line = true then
        (depMatch line).toList ++ readDeps true lines
      else readDeps false lines

def parseBlock (block : List Char) : Option YarnEntry :=
  let lines := (splitOn '\n' block).filter isContentLine
  lines.head?.bind fun header =>
    if header.getLast? ≠ some ':' ∨ header.head? = some ' ' then none
    else
      let descriptors := splitDescriptors header.dropLast
      let name := nameFromDescriptor (descriptors.head?.getD [])
      (versionMatch true block).bind fun version =>
        if name = [] then none else some ⟨name, version, readDeps false lines⟩

/-- `parseYarnClassic`, as far as the entries that go on to `toComponents`. -/
def parseYarnClassic (content : List Char) : List YarnEntry :=
  (splitBlocks false content).filterMap parseBlock

end Scanner
end Ctem
