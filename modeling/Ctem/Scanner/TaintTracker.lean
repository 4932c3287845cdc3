import Ctem.Foundation.JsText

/-!
# Taint by assignment

How the tracker of the source scanner follows request data through the assignments of a file:
comments are blanked, and every line is matched against the shapes of an assignment.

* `stripCommentsPreserve` is a scan with a state; strings are copied as they stand.
* `destructuring?` and `assignment?` are the patterns, without a regular expression.
* `collectAssignments` is the loop over the lines, `taintedMap` the map `analyzeFile` returns.
-/

namespace Ctem
namespace Scanner

open Foundation

inductive SastLanguage where
  | javascript | typescript | python
deriving DecidableEq, Repr

/-! ## Comments -/

/-- Where the scan stands. -/
inductive StripState where
  | code
  | quoted (quote : Char)
  | lineComment
  | blockComment

def isQuote (c : Char) : Bool := c == '"' || c == '\'' || c == '`'

/-- `stripJsCommentsPreserve`.  A template knows no escapes, and a block comment that is not
closed leaves the last character. -/
def stripJs : StripState → List Char → List Char
  | _, [] => []
  | .code, '/' :: '/' :: rest => ' ' :: ' ' :: stripJs .lineComment rest
  | .code, '/' :: '*' :: rest => ' ' :: ' ' :: stripJs .blockComment rest
  | .code, c :: rest => c :: stripJs (if isQuote c then .quoted c else .code) rest
  | .quoted quote, c :: rest =>
      if quote ≠ '`' ∧ c = '\\' then
        match rest with
        | [] => [c]
        | d :: rest => c :: d :: stripJs (.quoted quote) rest
      else c :: stripJs (if c = quote then .code else .quoted quote) rest
  | .lineComment, c :: rest =>
      if c = '\n' then c :: stripJs .code rest else ' ' :: stripJs .lineComment rest
  | .blockComment, '*' :: '/' :: rest => ' ' :: ' ' :: stripJs .code rest
  | .blockComment, [c] => [c]
  | .blockComment, c :: rest => (if c = '\n' then '\n' else ' ') :: stripJs .blockComment rest

/-- `stripPyCommentsPreserve`. -/
def stripPy : StripState → List Char → List Char
  | _, [] => []
  | .quoted quote, c :: rest =>
      if c = '\\' then
        match rest with
        | [] => [c]
        | d :: rest => c :: d :: stripPy (.quoted quote) rest
      else c :: stripPy (if c = quote then .code else .quoted quote) rest
  | .lineComment, c :: rest =>
      if c = '\n' then c :: stripPy .code rest else ' ' :: stripPy .lineComment rest
  | _, c :: rest =>
      if c = '"' ∨ c = '\'' then c :: stripPy (.quoted c) rest
      else if c = '#' then ' ' :: stripPy .lineComment rest
      else c :: stripPy .code rest

def stripCommentsPreserve (source : List Char) (language : SastLanguage) : List Char :=
  if language = .python then stripPy .code source else stripJs .code source

/-! ## Patterns -/

/-- `[A-Za-z_]`. -/
def isWordStart (c : Char) : Bool := c.isAlpha || c == '_'

/-- `\w`. -/
def isWordChar (c : Char) : Bool := c.isAlphanum || c == '_'

/-- What `.` does not match. -/
def isLineTerminator (c : Char) : Bool :=
  c == '\n' || c == '\r' || c == '\u2028' || c == '\u2029'

def dropSpace (cs : List Char) : List Char := cs.dropWhile isJsSpace

/-- `\s*(.+)`: where nothing but space is left, the group is the last of it. -/
def restGroup (cs : List Char) : Option (List Char) :=
  match dropSpace cs with
  | [] => (cs.reverse.find? fun c => !isLineTerminator c).map fun c => [c]
  | c :: rest => some ((c :: rest).takeWhile fun c => !isLineTerminator c)

/-- `\s*(.+)$`. -/
def restGroupToEnd (cs : List Char) : Option (List Char) :=
  match dropSpace cs with
  | [] => (cs.getLast?.filter fun c => !isLineTerminator c).map fun c => [c]
  | c :: rest =>
      if (c :: rest).any isLineTerminator then none else some (c :: rest)

/-- `(?:const|let|var)`, and what is behind it. -/
def declaration? (cs : List Char) : Option (List Char) :=
  if "const".toList.isPrefixOf cs then some (cs.drop 5)
  else if "let".toList.isPrefixOf cs then some (cs.drop 3)
  else if "var".toList.isPrefixOf cs then some (cs.drop 3)
  else none

/-- `\s*=`, and what is behind it. -/
def equals? (cs : List Char) : Option (List Char) :=
  match dropSpace cs with
  | '=' :: rest => some rest
  | _ => none

/-- `/(?:const|let|var)\s*\{([^}]+)\}\s*=\s*(.+)/` at the beginning of a text. -/
def destructuringAt? (cs : List Char) : Option (List Char × List Char) := do
  let behind ← declaration? cs
  match dropSpace behind with
  | '\x7b' :: rest =>
      let pattern := rest.takeWhile fun c => c != '\x7d'
      if pattern = [] ∨ pattern.length = rest.length then none
      else do
        let behind ← equals? (rest.drop (pattern.length + 1))
        (restGroup behind).map fun expr => (pattern, expr)
  | _ => none

/-- The first match of the pattern in a line. -/
def destructuring? (line : List Char) : Option (List Char × List Char) :=
  line.tails.findSome? destructuringAt?

/-- `([A-Za-z_][\w]*)\s*=\s*(.+)$`. -/
def namedAssignment? (cs : List Char) : Option (List Char × List Char) :=
  match cs with
  | [] => none
  | c :: rest =>
      if isWordStart c then do
        let name := c :: rest.takeWhile isWordChar
        let behind ← equals? (rest.dropWhile isWordChar)
        (restGroupToEnd behind).map fun expr => (name, expr)
      else none

/-- `(?:const|let|var)\s+`, and what is behind it. -/
def declarationSpace? (cs : List Char) : Option (List Char) := do
  let behind ← declaration? cs
  if (behind.head?.any isJsSpace) then some (dropSpace behind) else none

def assignment? (language : SastLanguage) (line : List Char) : Option (List Char × List Char) :=
  if language = .python then namedAssignment? (dropSpace line)
  else
    ((declarationSpace? (trimChars line)).bind namedAssignment?).or
      (namedAssignment? (trimChars line))

/-! ## Taint -/

structure TaintInfo where
  line : Nat
  kind : String
deriving DecidableEq, Repr

abbrev TaintMap := AssocMap (List Char) TaintInfo

def jsSources : List String :=
  ["req.query", "req.body", "req.params", "req.headers", "req.cookies", "request.query",
    "request.body", "request.params", "ctx.query", "ctx.params", "ctx.request.body",
    "process.argv"]

def pySources : List String :=
  ["request.args", "request.form", "request.values", "request.json", "request.GET",
    "request.POST", "request.data", "sys.argv"]

def requestSources (language : SastLanguage) : List String :=
  if language = .python then pySources else jsSources

/-- `text.includes(part)`. -/
def occursIn (part cs : List Char) : Bool := cs.tails.any fun rest => part.isPrefixOf rest

/-- `[^A-Za-z0-9_$]`, or the end of the text. -/
def isBoundary (c : Option Char) : Bool := !(c.any fun c => isWordChar c || c == '$')

/-- The name at the beginning of what is left, or behind it. -/
def identFrom (name : List Char) : Option Char → List Char → Bool
  | before, [] => isBoundary before && name.isEmpty
  | before, c :: rest =>
      (isBoundary before && name.isPrefixOf (c :: rest) &&
        isBoundary ((c :: rest).drop name.length).head?) || identFrom name (some c) rest

def isIdentInExpr (expr name : List Char) : Bool := identFrom name none expr

/-- `/\binput\s*\(/`. -/
def callsInput : Option Char → List Char → Bool
  | _, [] => false
  | before, c :: rest =>
      (!(before.any isWordChar) && "input".toList.isPrefixOf (c :: rest) &&
        decide ((dropSpace ((c :: rest).drop 5)).head? = some '(')) || callsInput (some c) rest

def taintOf (expr : List Char) (tainted : TaintMap) (language : SastLanguage) :
    Option TaintInfo :=
  match (requestSources language).find? fun kind => occursIn kind.toList expr with
  | some kind => some { line := 0, kind := kind }
  | none =>
      if language = .python ∧ callsInput none expr = true then
        some { line := 0, kind := "input()" }
      else (tainted.find? fun e => isIdentInExpr expr e.1).map Prod.snd

/-! ## The loop -/

/-- `raw.trim().split(':')[0]?.trim()`. -/
def patternName (raw : List Char) : List Char :=
  trimChars ((trimChars raw).takeWhile fun c => c != ':')

/-- The names between the braces. -/
def patternNames (pattern : List Char) : List (List Char) :=
  ((splitOn ',' pattern).map patternName).filter fun name => !name.isEmpty

/-- What a line binds, and from which expression. -/
def bindings? (language : SastLanguage) (line : List Char) :
    Option (List (List Char) × List Char) :=
  match destructuring? line with
  | some (pattern, expr) => some (patternNames pattern, expr)
  | none => (assignment? language line).map fun a => ([a.1], a.2)

/-- One line. -/
def collectLine (language : SastLanguage) (tainted : TaintMap) (line : List Char) (lineNo : Nat) :
    TaintMap :=
  match bindings? language line with
  | none => tainted
  | some (names, expr) =>
      match taintOf expr tainted language with
      | none => tainted
      | some source =>
          names.foldl (fun m name => m.upsert name fun _ => { line := lineNo, kind := source.kind })
            tainted

/-- The lines behind the first `lineNo - 1`. -/
def collectFrom (language : SastLanguage) : Nat → TaintMap → List (List Char) → TaintMap
  | _, tainted, [] => tainted
  | lineNo, tainted, line :: rest =>
      collectFrom language (lineNo + 1) (collectLine language tainted line lineNo) rest

def collectAssignments (text : List Char) (language : SastLanguage) : TaintMap :=
  collectFrom language 1 [] (splitOn '\n' text)

/-- The map `tainted` of `analyzeFile`. -/
def taintedMap (content : List Char) (language : SastLanguage) : TaintMap :=
  collectAssignments (stripCommentsPreserve content language) language

end Scanner
end Ctem
