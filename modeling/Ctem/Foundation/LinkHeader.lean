import Ctem.Foundation.PathText

/-!
# Link headers

A `Link` header lists links: a target between angle brackets and parameters behind it, each with a
semicolon before it, a token or a quoted string for a value, and blanks where they are allowed.
The relations of a link are the words of its first `rel` parameter.

* `LinkHeader.text` is the header as it is sent, `hasNext` whether one of its links is a next one.
-/

namespace Ctem
namespace Foundation

/-- Optional white space. -/
def IsBlank (cs : List Char) : Prop := ∀ c ∈ cs, c = ' ' ∨ c = '\t'

/-- A character of a token. -/
def isTokenChar (c : Char) : Bool :=
  c.isAlphanum || decide (c ∈ "!#$%&'*+-.^_|~".toList) || decide (c.toNat = 0x60)

/-- A character of a quoted string, escaped or not. -/
structure QuotedChar where
  escaped : Bool := false
  char : Char
  plain : escaped = false → char ≠ '"' ∧ char ≠ '\\'

def QuotedChar.text (c : QuotedChar) : List Char :=
  if c.escaped then ['\\', c.char] else [c.char]

inductive LinkParamValue where
  | token (cs : List Char) (chars : cs ≠ [] ∧ cs.all isTokenChar = true)
  | quoted (cs : List QuotedChar)

namespace LinkParamValue

def text : LinkParamValue → List Char
  | .token cs _ => cs
  | .quoted cs => '"' :: cs.flatMap QuotedChar.text ++ ['"']

/-- What the value says. -/
def content : LinkParamValue → List Char
  | .token cs _ => cs
  | .quoted cs => cs.map QuotedChar.char

end LinkParamValue

/-- A parameter, with the blanks around its semicolon and its equals sign. -/
structure LinkParam where
  name : List Char
  value : Option LinkParamValue
  beforeSemicolon : List Char := []
  afterSemicolon : List Char := []
  beforeEquals : List Char := []
  afterEquals : List Char := []
  isToken : name ≠ [] ∧ name.all isTokenChar = true
  blanks : IsBlank beforeSemicolon ∧ IsBlank afterSemicolon ∧ IsBlank beforeEquals ∧
    IsBlank afterEquals

def LinkParam.text (p : LinkParam) : List Char :=
  p.beforeSemicolon ++ ';' :: p.afterSemicolon ++ p.name ++
    match p.value with
    | none => []
    | some value => p.beforeEquals ++ '=' :: p.afterEquals ++ value.text

/-- A link, with the blanks before and behind it. -/
structure LinkValue where
  target : List Char
  params : List LinkParam
  before : List Char := []
  behind : List Char := []
  isReference : ∀ c ∈ target, c ≠ '<' ∧ c ≠ '>' ∧ c ≠ '"' ∧ c ≠ ' '
  blanks : IsBlank before ∧ IsBlank behind

namespace LinkValue

def text (link : LinkValue) : List Char :=
  link.before ++ '<' :: link.target ++ '>' :: link.params.flatMap LinkParam.text ++ link.behind

/-- The words of the first `rel` parameter. -/
def relations (link : LinkValue) : List (List Char) :=
  match link.params.find? fun p => decide (p.name.map Char.toLower = "rel".toList) with
  | none => []
  | some p =>
      ((p.value.map LinkParamValue.content).elim [] (splitOn ' ')).map (List.map Char.toLower)

def isNext (link : LinkValue) : Bool :=
  link.relations.any fun word => decide (word = "next".toList)

end LinkValue

/-- The links of a header; a missing header has none. -/
abbrev LinkHeader := List LinkValue

namespace LinkHeader

def text (header : LinkHeader) : List Char :=
  [','].intercalate (header.map LinkValue.text)

/-- One of the links is a next one. -/
def hasNext (header : LinkHeader) : Bool :=
  header.any LinkValue.isNext

end LinkHeader

end Foundation
end Ctem
