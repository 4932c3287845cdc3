import Mathlib.Algebra.BigOperators.Group.List.Basic
import Ctem.Foundation.Utf8Text
import Ctem.Scanner.ImageLayers

/-!
# An archive, byte by byte

`parseTar` on the bytes of a layer: the fields of a header, the records of an extended
header, and the loop over the members of the archive.

* `readHeader` reads one block of 512 bytes; it fails on a checksum or a size that is none.
* `walkMember` takes a header and its payload and extends the entries so far.
* `parseTarFrom` is the loop.  It ends at a block of zeros, and where less than a block is
  left.
* `ArchiveMember` is a member as it stands in an archive: a header that can be read, the
  payload and what fills its last block.

Names are kept as text; a lone surrogate in a record becomes the replacement character.
-/

namespace Ctem
namespace Scanner

open Foundation

/-! ## Fields -/

/-- `buf.subarray(start, stop)`. -/
def subarray (buf : List UInt8) (start stop : Nat) : List UInt8 :=
  (buf.drop start).take (stop - start)

/-- `readCString`. -/
def readCString (buf : List UInt8) : String :=
  trimText (utf8Lossy (buf.takeWhile fun b => b != 0))

/-- `[0-7]`. -/
def isOctalDigit (c : Char) : Bool :=
  decide ('0' ≤ c) && decide (c ≤ '7')

/-- The value of octal digits. -/
def octalValue (digits : List Char) : Nat :=
  digits.foldl (fun n c => 8 * n + (c.toNat - '0'.toNat)) 0

/-- `Number.parseInt(text, 8)`; `none` is `NaN`. -/
def parseIntOctal (text : List Char) : Option Int :=
  let unsigned := if text.head? = some '-' ∨ text.head? = some '+' then text.tail else text
  let digits := unsigned.takeWhile isOctalDigit
  if digits = [] then none
  else some (if text.head? = some '-' then -(octalValue digits : Int) else octalValue digits)

/-- The texts of `LayerUnpackError`. -/
def invalidSize : String := "Invalid tar size field — refusing incomplete layer inventory"

def corruptChecksum : String :=
  "Corrupt tar header checksum — refusing incomplete layer inventory"

def truncatedPayload (name : String) : String :=
  "Truncated tar payload for '" ++ name ++ "' — refusing incomplete layer inventory"

/-- The digits of an octal field, without the zeros and spaces around them. -/
def octalText (buf : List UInt8) : List Char :=
  trimChars ((readCString buf).toList.dropWhile fun c => decide (c = '0') || isJsSpace c)

def parseOctal (buf : List UInt8) : Except String Nat :=
  if octalText buf = [] then .ok 0
  else
    match parseIntOctal (octalText buf) with
    | none => .error invalidSize
    | some n => if n < 0 then .error invalidSize else .ok n.toNat

def isZeroBlock (block : List UInt8) : Bool :=
  block.all fun b => b == 0

/-- The sum of a header, with spaces in place of the checksum. -/
def headerSum (header : List UInt8) : Nat :=
  ((List.range 512).map fun i =>
    if 148 ≤ i ∧ i < 156 then 0x20 else (header.getD i 0).toNat).sum

def validChecksum (header : List UInt8) : Except String Bool :=
  (parseOctal (subarray header 148 156)).map fun recorded => decide (headerSum header = recorded)

/-! ## Extended headers -/

/-- `Number(text) > 0` for a decimal integer; any other text counts as none, also one with an
exponent, a fraction or a radix, which is not how a length is written. -/
def recordLength? (text : List Nat) : Option Nat :=
  let digits := (text.filter fun u => decide (u < 128)).map Char.ofNat
  if digits.length = text.length then
    let digits := trimChars digits
    if isDigits digits && decide (0 < digitsValue digits) then some (digitsValue digits) else none
  else none

/-- `inner.replace(/\n$/, '')`. -/
def dropLineEnd (units : List Nat) : List Nat :=
  if units.getLast? = some 0x0A then units.dropLast else units

/-- A record: what is in front of the first `=`, if anything is, and what is behind it. -/
def recordOf (inner : List Nat) : Option (String × String) :=
  let key := inner.takeWhile fun u => u != 0x3D
  match key, inner.drop key.length with
  | _ :: _, _ :: value => some (unitsText key, unitsText value)
  | _, _ => none

/-- `parsePax`, from a place in the text.  Lengths count code units of the text. -/
def paxRecords : Nat → List Nat → List (String × String)
  | 0, _ => []
  | turns + 1, rest =>
      let digits := rest.takeWhile fun u => u != 0x20
      if digits.length = rest.length then []
      else
        match recordLength? digits with
        | none => []
        | some len =>
            let inner := dropLineEnd ((rest.take len).drop (digits.length + 1))
            (recordOf inner).toList ++ paxRecords turns (rest.drop len)

def parsePax (body : List UInt8) : AssocMap String String :=
  let units := utf16Units (utf8Lossy body)
  (paxRecords units.length units).foldl (fun out r => out.upsert r.1 fun _ => r.2) []

/-! ## Members -/

/-- An entry, with the payload of a file. -/
structure ByteEntry where
  name : String
  type : TarType
  body : Option (List UInt8) := none
  linkname : Option String := none

/-- The fields of a header the loop reads. -/
structure ByteHeader where
  typeflag : Char
  size : Nat
  rawName : String
  namePrefix : String
  linkname : String
deriving DecidableEq, Repr

/-- The entries so far, and what an extension header says of the next one. -/
structure ByteWalk where
  entries : List ByteEntry := []
  pendingPax : AssocMap String String := []
  pendingLongName : Option String := none

/-- The fields of a block whose checksum is right. -/
def readHeader (header : List UInt8) : Except String ByteHeader := do
  if ← validChecksum header then
    let size ← parseOctal (subarray header 124 136)
    pure
      { typeflag := Char.ofNat (header.getD 156 0).toNat
        size := size
        rawName := readCString (subarray header 0 100)
        namePrefix := readCString (subarray header 345 500)
        linkname := readCString (subarray header 157 257) }
  else .error corruptChecksum

/-- The name of the header at which the walk stands. -/
def ByteWalk.nameOf (walk : ByteWalk) (h : ByteHeader) : String :=
  (walk.pendingLongName.or (walk.pendingPax.lookup? "path")).getD
    (if h.namePrefix ≠ "" then h.namePrefix ++ "/" ++ h.rawName else h.rawName)

/-- The walk behind a header that has an entry of its own, or none. -/
def ByteWalk.past (walk : ByteWalk) (entry : Option ByteEntry) : ByteWalk :=
  { entries := walk.entries ++ entry.toList }

/-- The entry of a header that is no extension; `pax` are the records that apply to it. -/
def byteEntryOf (name : String) (pax : AssocMap String String) (h : ByteHeader)
    (body : List UInt8) : Except String (Option ByteEntry) :=
  if name = "" then .ok none
  else if basename name = ".wh..wh..opq" then
    .ok (some { name := dirname name, type := .opaqueDir })
  else if startsWith (basename name) ".wh." then
    .ok (some
      { name := joinDir (dirname name) (stripStart ".wh." (basename name)), type := .whiteout })
  else if h.typeflag = '5' ∨ endsWith name "/" = true then
    .ok (some { name := stripSlashes name, type := .dir })
  else if h.typeflag = '2' ∨ h.typeflag = '1' then
    .ok (some
      { name := name, type := .symlink, linkname := (pax.lookup? "linkpath").or h.linkname })
  else if h.typeflag = '0' ∨ h.typeflag = '\x00' then
    if body.length > maxInventoryFileBytes ∧ isInventoryPath name = true then
      .error ("Inventory file '" ++ name ++ "' is " ++ toString body.length ++
        " bytes over cap — refusing incomplete layer inventory")
    else .ok (some { name := name, type := .file, body := some body })
  else .ok none

/-- A header with its payload. -/
def walkMember (walk : ByteWalk) (h : ByteHeader) (body : List UInt8) : Except String ByteWalk :=
  if walk.entries.length ≥ maxLayerFiles then
    .error ("Layer tar exceeded " ++ toString maxLayerFiles ++
      " files — refusing truncated inventory")
  else if h.typeflag = 'x' ∨ h.typeflag = 'g' then
    .ok { walk.past none with
          pendingPax :=
            (parsePax body).foldl (fun m r => m.upsert r.1 fun _ => r.2) walk.pendingPax }
  else if h.typeflag = 'L' then
    .ok { walk.past none with pendingLongName := some (readCString body) }
  else if h.typeflag = 'K' then .ok (walk.past none)
  else
    (byteEntryOf (stripSlashes (stripStart "./" (walk.nameOf h))) walk.pendingPax h body).map
      walk.past

/-! ## The loop -/

/-- `Math.ceil(size / 512) * 512`. -/
def paddedSize (size : Nat) : Nat := (size + 511) / 512 * 512

/-- The loop of `parseTar` over what is left of the buffer. -/
def parseTarFrom (buf : List UInt8) (walk : ByteWalk) : Except String (List ByteEntry) :=
  if _ : 512 ≤ buf.length then
    if isZeroBlock (buf.take 512) then .ok walk.entries
    else do
      let h ← readHeader (buf.take 512)
      if (buf.drop 512).length < h.size then .error (truncatedPayload (walk.nameOf h))
      else
        let walk' ← walkMember walk h ((buf.drop 512).take h.size)
        parseTarFrom ((buf.drop 512).drop (paddedSize h.size)) walk'
  else .ok walk.entries
termination_by buf.length
decreasing_by
  rw [List.length_drop, List.length_drop]
  omega

def parseTarBytes (buf : List UInt8) : Except String (List ByteEntry) :=
  parseTarFrom buf {}

/-! ## Members of an archive -/

/-- A header, its payload, and what fills the last block. -/
structure ArchiveMember where
  header : List UInt8
  fields : ByteHeader
  body : List UInt8
  padding : List UInt8
  hlength : header.length = 512
  hnonzero : isZeroBlock header = false
  hfields : readHeader header = .ok fields
  hsize : fields.size = body.length
  hpadding : body.length + padding.length = paddedSize body.length

namespace ArchiveMember

def bytes (m : ArchiveMember) : List UInt8 := m.header ++ (m.body ++ m.padding)

/-- Up to the end of the payload. -/
def dataLength (m : ArchiveMember) : Nat := 512 + m.body.length

theorem length_bytes (m : ArchiveMember) :
    m.bytes.length = 512 + paddedSize m.body.length := by
  rw [bytes, List.length_append, List.length_append, m.hlength, m.hpadding]

end ArchiveMember

theorem parseTarFrom_short {buf : List UInt8} (h : buf.length < 512) (walk : ByteWalk) :
    parseTarFrom buf walk = .ok walk.entries := by
  rw [parseTarFrom, dif_neg (Nat.not_le.mpr h)]

/-- Zeros end the loop, as the end of the buffer does. -/
theorem parseTarFrom_zeros (n : Nat) (walk : ByteWalk) :
    parseTarFrom (List.replicate n 0) walk = .ok walk.entries := by
  rw [parseTarFrom]
  split
  · rw [if_pos]
    rw [List.take_replicate, isZeroBlock, List.all_replicate]
    simp
  · rfl

/-! ## Headers that are decoded already -/

/-- An entry whose payload is text. -/
def TarEntry.bytes (e : TarEntry) : ByteEntry :=
  { name := e.name, type := e.type, body := e.body.map utf8Bytes, linkname := e.linkname }

def TarWalk.bytes (walk : TarWalk) : ByteWalk :=
  { entries := walk.entries.map TarEntry.bytes
    pendingPax := walk.pendingPax
    pendingLongName := walk.pendingLongName }

theorem past_bytes (walk : TarWalk) (entry : Option TarEntry) :
    walk.bytes.past (entry.map TarEntry.bytes) = (walk.past entry).bytes := by
  cases entry <;> simp [ByteWalk.past, TarWalk.past, TarWalk.bytes]

/-- A header as `parseTar` decodes it. -/
structure Decodes (b : ByteHeader) (body : List UInt8) (h : TarHeader) : Prop where
  typeflag : b.typeflag = h.typeflag
  rawName : b.rawName = h.rawName
  namePrefix : b.namePrefix = h.namePrefix
  linkname : b.linkname = h.linkname
  payload : body = utf8Bytes h.body
  pax : h.typeflag = 'x' ∨ h.typeflag = 'g' → parsePax body = h.pax
  longName : h.typeflag = 'L' → readCString body = h.longName

section Decoded

variable {b : ByteHeader} {body : List UInt8} {h : TarHeader} (hb : Decodes b body h)
include hb

theorem nameOf_bytes (walk : TarWalk) : walk.bytes.nameOf b = walk.nameOf h := by
  rw [ByteWalk.nameOf, TarWalk.nameOf, hb.rawName, hb.namePrefix]
  rfl

theorem byteEntryOf_bytes (name : String) (pax : AssocMap String String) :
    byteEntryOf name pax b body = (entryOf name pax h).map fun e => e.map TarEntry.bytes := by
  have hsize : body.length = h.body.utf8ByteSize := by
    rw [hb.payload, utf8Bytes, ← String.size_toByteArray, ← String.utf8Encode_toList,
      List.utf8Encode, List.size_toByteArray]
  rw [byteEntryOf, entryOf, hb.typeflag, hb.linkname, hsize, hb.payload]
  split_ifs <;> rfl

/-- The walk over the bytes is the walk over the headers. -/
theorem walkMember_bytes (walk : TarWalk) :
    walkMember walk.bytes b body = (walkHeader walk h).map TarWalk.bytes := by
  have hlen : walk.bytes.entries.length = walk.entries.length := List.length_map _
  rw [walkMember, walkHeader, hlen, hb.typeflag, nameOf_bytes hb]
  have hnone : walk.bytes.past none = (walk.past none).bytes := past_bytes walk none
  split_ifs with hfull hpax hlong hlink
  · rfl
  · rw [hb.pax hpax, hnone]
    rfl
  · rw [hb.longName hlong, hnone]
    rfl
  · rw [hnone]
    rfl
  · rw [show walk.bytes.pendingPax = walk.pendingPax from rfl, byteEntryOf_bytes hb]
    cases entryOf (stripSlashes (stripStart "./" (walk.nameOf h))) walk.pendingPax h with
    | error e => rfl
    | ok entry => exact congrArg Except.ok (past_bytes walk entry)

end Decoded

end Scanner
end Ctem
