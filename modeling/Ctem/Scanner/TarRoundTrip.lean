import Ctem.Scanner.LayerMembers
import Ctem.Scanner.PaxRecords
import Ctem.Scanner.TarTruncation

/-!
# What is written to an archive is read

An entry of a layer as archivers write it: its name in the two name fields of a header, in the
long name GNU tar puts in front of it, or in the records of an extended header; likewise the
target of a link, and in a record also the size.

* `TarItem` is an entry with the way it is written; `TarItem.entry` is what it means.
* `ReadsBack` says where the parser reads it so: it takes no size from a record, no long link,
  and no record that stands behind one that is not ASCII.
* `parseTarBytes_items`: such entries are read as they were written, in order.
-/

namespace Ctem
namespace Scanner

open Foundation

/-! ## Writing -/

/-- A header with what follows it, up to the end of a block. -/
structure TarBlock where
  header : UstarHeader
  body : List UInt8
  padding : List UInt8
  hpadding : body.length + padding.length = paddedSize body.length

def TarBlock.bytes (b : TarBlock) : List UInt8 := b.header.bytes ++ (b.body ++ b.padding)

/-- A text GNU tar writes in front of an entry. -/
structure LongText (flag : Char) where
  block : TarBlock
  text : String
  zeros : Nat
  hflag : block.header.typeflag = flag
  hsize : block.header.size = block.body.length
  hzero : NoZero text
  hbody : block.body = utf8Bytes text ++ List.replicate zeros 0

/-- An extended header. -/
structure PaxHeader where
  block : TarBlock
  records : List PaxRecord
  hflag : block.header.typeflag = 'x'
  hsize : block.header.size = block.body.length
  hbody : block.body = paxBody records

/-- What stands in front of an entry. -/
inductive Extension where
  | none
  | gnu (link : Option (LongText 'K')) (name : Option (LongText 'L'))
  | pax (header : PaxHeader)

def Extension.bytes : Extension → List UInt8
  | .none => []
  | .gnu link name =>
      (link.map fun long => long.block.bytes).getD [] ++
        (name.map fun long => long.block.bytes).getD []
  | .pax header => header.block.bytes

/-- The name in the two fields of a header. -/
def UstarHeader.name (h : UstarHeader) : String :=
  if h.namePrefix ≠ "" then h.namePrefix ++ "/" ++ h.rawName else h.rawName

/-- A long name and a record have precedence over the header. -/
def writtenName (ext : Extension) (h : UstarHeader) : String :=
  match ext with
  | .gnu _ (some long) => long.text
  | .pax header => (lastValue "path" header.records).getD h.name
  | _ => h.name

def writtenLink (ext : Extension) (h : UstarHeader) : String :=
  match ext with
  | .gnu (some long) _ => long.text
  | .pax header => (lastValue "linkpath" header.records).getD h.linkname
  | _ => h.linkname

/-- The size is the one of the record, if there is one. -/
def SizeWritten (ext : Extension) (b : TarBlock) : Prop :=
  match ext with
  | .pax header =>
      match lastValue "size" header.records with
      | some text => text = String.ofList (Nat.toDigits 10 b.body.length)
      | none => b.header.size = b.body.length
  | _ => b.header.size = b.body.length

/-- The flags of an entry; markers are written as files. -/
def typeflagsOf : TarType → List Char
  | .dir => ['5']
  | .symlink => ['2', '1']
  | _ => ['0', '\x00']

/-- The path under which an entry is written. -/
def pathOf (type : TarType) (name : String) : String :=
  match type with
  | .whiteout => joinDir (dirname name) (".wh." ++ basename name)
  | .opaqueDir => joinDir name ".wh..wh..opq"
  | _ => name

/-- An entry, and how it is written: `./` may stand in front of its path, and slashes behind. -/
structure TarItem where
  type : TarType
  name : String
  ext : Extension
  block : TarBlock
  dotted : Bool
  slashes : Nat
  hflag : block.header.typeflag ∈ typeflagsOf type
  hsize : SizeWritten ext block
  hname : writtenName ext block.header =
    (if dotted then "./" else "") ++ pathOf type name ++ String.ofList (List.replicate slashes '/')

namespace TarItem

def bytes (i : TarItem) : List UInt8 := i.ext.bytes ++ i.block.bytes

def entry (i : TarItem) : ByteEntry :=
  { name := i.name
    type := i.type
    body := if i.type = .file then some i.block.body else none
    linkname := if i.type = .symlink then some (writtenLink i.ext i.block.header) else none }

end TarItem

/-! ## What is read back -/

/-- A path that the parser leaves as it is. -/
structure PlainPath (path : String) : Prop where
  given : path ≠ ""
  notHere : path ≠ "."
  undotted : startsWith path "./" = false
  unslashed : endsWith path "/" = false

/-- A name that its path says. -/
def NameFits (type : TarType) (name : String) : Prop :=
  match type with
  | .whiteout => joinDir (dirname name) (basename name) = name ∧ basename name ≠ ".wh..opq"
  | .opaqueDir => True
  | _ => startsWith (basename name) ".wh." = false

/-- Texts of headers are trimmed, those of records are not. -/
def NameTrimmed (ext : Extension) (h : UstarHeader) : Prop :=
  match ext with
  | .gnu _ (some long) => trimText long.text = long.text
  | .pax header => lastValue "path" header.records ≠ none ∨
      (trimText h.rawName = h.rawName ∧ trimText h.namePrefix = h.namePrefix)
  | _ => trimText h.rawName = h.rawName ∧ trimText h.namePrefix = h.namePrefix

def LinkRead (ext : Extension) (h : UstarHeader) : Prop :=
  match ext with
  | .gnu (some long) _ => trimText h.linkname = long.text
  | .pax header => lastValue "linkpath" header.records ≠ none ∨ trimText h.linkname = h.linkname
  | _ => trimText h.linkname = h.linkname

/-- No record stands behind one that is not ASCII. -/
def RecordsCounted (ext : Extension) : Prop :=
  match ext with
  | .pax header => AsciiBeforeLast header.records
  | _ => True

structure TarItem.ReadsBack (i : TarItem) : Prop where
  path : PlainPath (pathOf i.type i.name)
  fits : NameFits i.type i.name
  name : NameTrimmed i.ext i.block.header
  link : i.type = .symlink → LinkRead i.ext i.block.header
  records : RecordsCounted i.ext
  size : i.block.header.size = i.block.body.length
  inventory : i.type = .file →
    ¬ (i.block.body.length > maxInventoryFileBytes ∧ isInventoryPath i.name = true)

/-! ## Blocks -/

def TarBlock.member (b : TarBlock) (hsize : b.header.size = b.body.length) : ArchiveMember where
  header := b.header.bytes
  fields := b.header.fields
  body := b.body
  padding := b.padding
  hlength := b.header.length_bytes
  hnonzero := b.header.not_isZeroBlock
  hfields := b.header.readHeader_bytes
  hsize := hsize
  hpadding := b.hpadding

/-- A block whose header says its size. -/
theorem parseTarFrom_block (b : TarBlock) (hsize : b.header.size = b.body.length)
    (behind : List UInt8) (walk : ByteWalk) :
    parseTarFrom (b.bytes ++ behind) walk = (do
      let walk' ← walkMember walk b.header.fields b.body
      parseTarFrom behind walk') := by
  have hlong := dataLength_le_length_bytes (b.member hsize)
  have hread := @parseTarFrom_member (b.member hsize) (b.bytes ++ behind).length (by
    rw [List.length_append]
    exact Nat.le_trans hlong (Nat.le_add_right _ _)) behind walk
  have hbytes : (b.member hsize).bytes = b.bytes := rfl
  rw [hbytes, List.take_length, List.length_append, Nat.add_sub_cancel_left, List.take_length]
    at hread
  exact hread

/-- The walk in front of an entry. -/
def Extension.walk (ext : Extension) (entries : List ByteEntry) : ByteWalk :=
  match ext with
  | .none => { entries := entries }
  | .gnu _ name =>
      { entries := entries, pendingLongName := name.map fun long => trimText long.text }
  | .pax header => { entries := entries, pendingPax := parsePax header.block.body }

section Walk

variable {entries : List ByteEntry} (hroom : entries.length < maxLayerFiles)
include hroom

theorem walkMember_longLink (long : LongText 'K') :
    walkMember { entries := entries } long.block.header.fields long.block.body =
      .ok { entries := entries } := by
  have hflag : long.block.header.fields.typeflag = 'K' := long.hflag
  rw [walkMember, hflag, if_neg (Nat.not_le.mpr hroom), if_neg (by decide), if_neg (by decide),
    if_pos rfl, ByteWalk.past, Option.toList_none, List.append_nil]

theorem walkMember_longName (long : LongText 'L') :
    walkMember { entries := entries } long.block.header.fields long.block.body =
      .ok { entries := entries, pendingLongName := some (trimText long.text) } := by
  have hflag : long.block.header.fields.typeflag = 'L' := long.hflag
  rw [walkMember, hflag, if_neg (Nat.not_le.mpr hroom), if_neg (by decide), if_pos rfl,
    ByteWalk.past, Option.toList_none, List.append_nil, long.hbody, readCString_zeros long.hzero]

theorem walkMember_pax (header : PaxHeader) :
    walkMember { entries := entries } header.block.header.fields header.block.body =
      .ok { entries := entries, pendingPax := parsePax header.block.body } := by
  have hflag : header.block.header.fields.typeflag = 'x' := header.hflag
  have hself := AssocMap.groupFold_self (nodup_keys_parsePax header.block.body)
  rw [walkMember, hflag, if_neg (Nat.not_le.mpr hroom), if_pos (Or.inl rfl), ByteWalk.past,
    Option.toList_none, List.append_nil]
  have hwalk := congrArg (fun pax : AssocMap String String =>
    (Except.ok { entries := entries, pendingPax := pax } : Except String ByteWalk)) hself
  exact hwalk

/-- The headers in front of an entry. -/
theorem parseTarFrom_extension (ext : Extension) (behind : List UInt8) :
    parseTarFrom (ext.bytes ++ behind) { entries := entries } =
      parseTarFrom behind (ext.walk entries) := by
  cases ext with
  | none => rw [Extension.bytes, List.nil_append, Extension.walk]
  | gnu link name =>
      have hlink : ∀ rest, parseTarFrom ((link.map fun long => long.block.bytes).getD [] ++ rest)
          { entries := entries } = parseTarFrom rest { entries := entries } := by
        intro rest
        cases link with
        | none => rw [Option.map_none, Option.getD_none, List.nil_append]
        | some long =>
            rw [Option.map_some, Option.getD_some, parseTarFrom_block long.block long.hsize,
              walkMember_longLink hroom]
            rfl
      rw [Extension.bytes, List.append_assoc, hlink]
      cases name with
      | none =>
          rw [Option.map_none, Option.getD_none, List.nil_append, Extension.walk, Option.map_none]
      | some long =>
          rw [Option.map_some, Option.getD_some, parseTarFrom_block long.block long.hsize,
            walkMember_longName hroom]
          rfl
  | pax header =>
      rw [Extension.bytes, parseTarFrom_block header.block header.hsize, walkMember_pax hroom]
      rfl

end Walk

/-! ## Names and links -/

/-- A header whose texts are trimmed says its name. -/
theorem nameOf_fields {h : UstarHeader}
    (htrim : trimText h.rawName = h.rawName ∧ trimText h.namePrefix = h.namePrefix) :
    (if h.fields.namePrefix ≠ "" then h.fields.namePrefix ++ "/" ++ h.fields.rawName
      else h.fields.rawName) = h.name := by
  rw [UstarHeader.fields, UstarHeader.name, htrim.1, htrim.2]

/-- The name of the header, in front of which the extension stands. -/
theorem nameOf_walk {ext : Extension} {h : UstarHeader} (hname : NameTrimmed ext h)
    (hrecords : RecordsCounted ext) (entries : List ByteEntry) :
    (ext.walk entries).nameOf h.fields = writtenName ext h := by
  rw [ByteWalk.nameOf]
  unfold NameTrimmed at hname
  have hnone : (none : Option String).or (AssocMap.lookup? [] "path") = none := rfl
  cases ext with
  | none =>
      dsimp only [Extension.walk, writtenName]
      rw [nameOf_fields hname, hnone, Option.getD_none]
  | gnu link name =>
      cases name with
      | none =>
          dsimp only [Extension.walk, writtenName]
          rw [nameOf_fields hname, Option.map_none, hnone, Option.getD_none]
      | some long =>
          dsimp only [Extension.walk, Option.map_some, Option.some_or, Option.getD_some]
          exact hname
  | pax header =>
      dsimp only [Extension.walk, writtenName]
      rw [header.hbody, parsePax_lookup? hrecords, Option.none_or]
      cases hlast : lastValue "path" header.records with
      | some value => rw [Option.getD_some, Option.getD_some]
      | none => rw [nameOf_fields (hname.resolve_left fun hne => hne hlast), Option.getD_none]

theorem link_walk {ext : Extension} {h : UstarHeader} (hlink : LinkRead ext h)
    (hrecords : RecordsCounted ext) (entries : List ByteEntry) :
    ((ext.walk entries).pendingPax.lookup? "linkpath").or h.fields.linkname =
      some (writtenLink ext h) := by
  have hfield : h.fields.linkname = trimText h.linkname := rfl
  rw [hfield]
  unfold LinkRead at hlink
  cases ext with
  | none =>
      rw [hlink]
      rfl
  | gnu link name =>
      cases link <;> rw [hlink] <;> rfl
  | pax header =>
      dsimp only [Extension.walk, writtenLink]
      rw [header.hbody, parsePax_lookup? hrecords]
      cases hlast : lastValue "linkpath" header.records with
      | some value => rfl
      | none =>
          rw [hlink.resolve_left fun hne => hne hlast]
          rfl

/-! ## Paths -/

/-- The path is left of its spelling. -/
theorem strip_spelled {path : String} (h : PlainPath path) (dotted : Bool) (slashes : Nat) :
    stripSlashes (stripStart "./" ((if dotted then "./" else "") ++ path ++
      String.ofList (List.replicate slashes '/'))) = path := by
  have hstart : stripStart "./" ((if dotted then "./" else "") ++ path ++
      String.ofList (List.replicate slashes '/')) =
        path ++ String.ofList (List.replicate slashes '/') := by
    cases dotted with
    | true =>
        rw [if_pos rfl, String.append_assoc]
        exact stripStart_append "./" _
    | false =>
        rw [if_neg Bool.false_ne_true, String.empty_append]
        apply stripStart_of_not
        have hundotted := h.undotted
        unfold startsWith at hundotted ⊢
        rw [String.toList_append]
        cases hchars : path.toList with
        | nil => exact absurd (String.toList_eq_nil_iff.mp hchars) h.given
        | cons c cs =>
            cases cs with
            | nil =>
                have hdot : ¬ c = '.' := by
                  rintro rfl
                  exact h.notHere (String.toList_inj.mp hchars)
                exact Bool.and_eq_false_iff.mpr (Or.inl (beq_false_of_ne (Ne.symm hdot)))
            | cons d cs =>
                rw [hchars] at hundotted
                exact hundotted
  have hkeep : path.toList.reverse.dropWhile (fun c => decide (c = '/')) =
      path.toList.reverse := by
    have hend := h.unslashed
    unfold endsWith at hend
    cases hreverse : path.toList.reverse with
    | nil => rfl
    | cons c rest =>
        rw [List.dropWhile_cons_of_neg]
        intro heq
        obtain rfl := of_decide_eq_true heq
        have hchars : path.toList = rest.reverse ++ ['/'] := by
          rw [← List.reverse_reverse path.toList, hreverse, List.reverse_cons]
        have hends : "/".toList.isSuffixOf (rest.reverse ++ ['/']) = true :=
          List.isSuffixOf_iff_suffix.mpr (List.suffix_append _ _)
        rw [hchars, hends] at hend
        cases hend
  rw [hstart, stripSlashes, String.toList_append, String.toList_ofList, List.reverse_append,
    List.reverse_replicate, List.dropWhile_append_of_pos, hkeep, List.reverse_reverse,
    String.ofList_toList]
  intro c hc
  exact decide_eq_true (List.mem_replicate.mp hc).2

theorem not_slash_basename (name : String) : '/' ∉ (basename name).toList := by
  unfold basename
  rw [String.toList_ofList]
  intro hmem
  have hne := List.mem_takeWhile_imp (List.mem_reverse.mp hmem)
  exact of_decide_eq_true hne rfl

/-- A directory and a name in it are found in the path of both. -/
theorem split_joinDir (dir : String) {base : String} (h : '/' ∉ base.toList) :
    basename (joinDir dir base) = base ∧ dirname (joinDir dir base) = dir := by
  unfold joinDir
  split
  · exact ⟨basename_append_slash dir h, dirname_append_slash dir h⟩
  · rename_i hdir
    exact ⟨basename_of_part h, by rw [dirname_of_part h, not_not.mp hdir]⟩

/-- The entry that is read of a marker. -/
theorem byteEntryOf_marker {type : TarType} {name : String} (hfits : NameFits type name)
    (hgiven : pathOf type name ≠ "") (hmarker : type = .whiteout ∨ type = .opaqueDir)
    (pax : AssocMap String String) (h : ByteHeader) (body : List UInt8) :
    byteEntryOf (pathOf type name) pax h body = .ok (some { name := name, type := type }) := by
  rw [byteEntryOf, if_neg hgiven]
  rcases hmarker with rfl | rfl
  · obtain ⟨hjoin, hother⟩ := hfits
    have hslash : '/' ∉ (".wh." ++ basename name).toList := by
      rw [String.toList_append, List.mem_append]
      rintro (hmark | hbase)
      · exact absurd hmark (by decide)
      · exact not_slash_basename name hbase
    obtain ⟨hbase, hdir⟩ := split_joinDir (dirname name) hslash
    have hne : ¬ ".wh." ++ basename name = ".wh..wh..opq" := by
      intro heq
      have hchars := congrArg String.toList heq
      rw [String.toList_append] at hchars
      exact hother (String.toList_inj.mp (List.append_cancel_left
        (hchars : ".wh.".toList ++ _ = ".wh.".toList ++ ".wh..opq".toList)))
    have hstarts : startsWith (".wh." ++ basename name) ".wh." = true := by
      unfold startsWith
      rw [List.isPrefixOf_iff_prefix, String.toList_append]
      exact List.prefix_append _ _
    rw [pathOf, hbase, if_neg hne, if_pos hstarts, hdir, stripStart_append, hjoin]
  · obtain ⟨hbase, hdir⟩ := @split_joinDir name ".wh..wh..opq" (by decide)
    rw [pathOf, hbase, if_pos rfl, hdir]

/-- A name that does not begin as a marker is told apart by the flag. -/
theorem byteEntryOf_plain {name : String} (hgiven : name ≠ "")
    (hunmarked : startsWith (basename name) ".wh." = false)
    (hunslashed : endsWith name "/" = false) (pax : AssocMap String String) (h : ByteHeader)
    (body : List UInt8) :
    byteEntryOf name pax h body =
      if h.typeflag = '5' then .ok (some { name := stripSlashes name, type := .dir })
      else if h.typeflag = '2' ∨ h.typeflag = '1' then
        .ok (some
          { name := name, type := .symlink, linkname := (pax.lookup? "linkpath").or h.linkname })
      else if h.typeflag = '0' ∨ h.typeflag = '\x00' then
        if body.length > maxInventoryFileBytes ∧ isInventoryPath name = true then
          .error ("Inventory file '" ++ name ++ "' is " ++ toString body.length ++
            " bytes over cap — refusing incomplete layer inventory")
        else .ok (some { name := name, type := .file, body := some body })
      else .ok none := by
  have hother : ¬ basename name = ".wh..wh..opq" := by
    intro heq
    rw [heq] at hunmarked
    cases hunmarked
  rw [byteEntryOf, if_neg hgiven, if_neg hother, hunmarked, if_neg Bool.false_ne_true, hunslashed]
  simp only [Bool.false_eq_true, or_false]

/-- The entry that is read of a path. -/
theorem byteEntryOf_item {i : TarItem} (h : i.ReadsBack) {pax : AssocMap String String}
    (hlink : i.type = .symlink → (pax.lookup? "linkpath").or i.block.header.fields.linkname =
      some (writtenLink i.ext i.block.header)) :
    byteEntryOf (pathOf i.type i.name) pax i.block.header.fields i.block.body =
      .ok (some i.entry) := by
  have hflag : i.block.header.fields.typeflag ∈ typeflagsOf i.type := i.hflag
  have hfits := h.fits
  have hpath := h.path
  have hinventory := h.inventory
  unfold TarItem.entry
  cases htype : i.type with
  | file =>
      rw [htype] at hfits hflag hpath
      change PlainPath i.name at hpath
      show byteEntryOf i.name pax i.block.header.fields i.block.body = _
      rw [byteEntryOf_plain hpath.given hfits hpath.unslashed,
        if_neg (hinventory htype)]
      rcases List.mem_cons.mp hflag with hflag | hflag
      · rw [hflag]
        rfl
      · rw [List.mem_singleton.mp hflag]
        rfl
  | dir =>
      rw [htype] at hfits hflag hpath
      change PlainPath i.name at hpath
      have hstrip : stripSlashes i.name = i.name := by
        have hspelled := strip_spelled hpath true 0
        rw [if_pos rfl, String.append_assoc, stripStart_append] at hspelled
        exact (congrArg stripSlashes (String.append_empty (s := i.name)).symm).trans hspelled
      show byteEntryOf i.name pax i.block.header.fields i.block.body = _
      rw [byteEntryOf_plain hpath.given hfits hpath.unslashed,
        if_pos (List.mem_singleton.mp hflag), hstrip]
      rfl
  | symlink =>
      rw [htype] at hfits hflag hpath
      change PlainPath i.name at hpath
      show byteEntryOf i.name pax i.block.header.fields i.block.body = _
      rw [byteEntryOf_plain hpath.given hfits hpath.unslashed, hlink htype]
      rcases List.mem_cons.mp hflag with hflag | hflag
      · rw [hflag]
        rfl
      · rw [List.mem_singleton.mp hflag]
        rfl
  | whiteout =>
      rw [htype] at hfits hpath
      exact byteEntryOf_marker hfits hpath.given (Or.inl rfl) pax _ _
  | opaqueDir =>
      rw [htype] at hfits hpath
      exact byteEntryOf_marker hfits hpath.given (Or.inr rfl) pax _ _

/-! ## Archives -/

theorem typeflagsOf_spec (type : TarType) {c : Char} (h : c ∈ typeflagsOf type) :
    ¬ (c = 'x' ∨ c = 'g') ∧ c ≠ 'L' ∧ c ≠ 'K' := by
  have hflags : ∀ type : TarType, ∀ c ∈ typeflagsOf type,
      c = '5' ∨ c = '2' ∨ c = '1' ∨ c = '0' ∨ c = '\x00' := by
    intro type
    cases type <;> simp [typeflagsOf]
  rcases hflags type c h with rfl | rfl | rfl | rfl | rfl <;> decide

/-- One entry is read, with all that stands in front of it. -/
theorem parseTarFrom_item {i : TarItem} (h : i.ReadsBack) {entries : List ByteEntry}
    (hroom : entries.length < maxLayerFiles) (behind : List UInt8) :
    parseTarFrom (i.bytes ++ behind) { entries := entries } =
      parseTarFrom behind { entries := entries ++ [i.entry] } := by
  obtain ⟨hextended, hlong, hlongLink⟩ := typeflagsOf_spec i.type i.hflag
  have hentries : (i.ext.walk entries).entries = entries := by
    cases i.ext <;> rfl
  have hwalk : walkMember (i.ext.walk entries) i.block.header.fields i.block.body =
      .ok { entries := entries ++ [i.entry] } := by
    have hflag : i.block.header.fields.typeflag = i.block.header.typeflag := rfl
    rw [walkMember, hentries, if_neg (Nat.not_le.mpr hroom), hflag, if_neg hextended,
      if_neg hlong, if_neg hlongLink, nameOf_walk h.name h.records, i.hname,
      strip_spelled h.path, byteEntryOf_item h fun htype => link_walk (h.link htype) h.records _,
      Except.map, ByteWalk.past, hentries]
    rfl
  rw [TarItem.bytes, List.append_assoc, parseTarFrom_extension hroom,
    parseTarFrom_block i.block h.size, hwalk]
  rfl

theorem parseTarFrom_items {items : List TarItem} (hitems : ∀ i ∈ items, i.ReadsBack)
    {entries : List ByteEntry} (hroom : entries.length + items.length ≤ maxLayerFiles)
    (zeros : Nat) :
    parseTarFrom (items.flatMap TarItem.bytes ++ List.replicate zeros 0) { entries := entries } =
      .ok (entries ++ items.map TarItem.entry) := by
  induction items generalizing entries with
  | nil =>
      rw [List.flatMap_nil, List.nil_append, parseTarFrom_zeros, List.map_nil, List.append_nil]
  | cons i rest ih =>
      rw [List.length_cons] at hroom
      rw [List.flatMap_cons, List.append_assoc,
        parseTarFrom_item (hitems i List.mem_cons_self) (by omega),
        ih fun j hj => hitems j (List.mem_cons_of_mem i hj), List.map_cons, List.append_assoc,
        List.singleton_append]
      rw [List.length_append, List.length_singleton]
      omega

/-- **Entries are read as they were written, in order.** -/
theorem parseTarBytes_items {items : List TarItem} (hitems : ∀ i ∈ items, i.ReadsBack)
    (hroom : items.length ≤ maxLayerFiles) (zeros : Nat) :
    parseTarBytes (items.flatMap TarItem.bytes ++ List.replicate zeros 0) =
      .ok (items.map TarItem.entry) := by
  rw [parseTarBytes, parseTarFrom_items hitems, List.nil_append]
  rw [List.length_nil, Nat.zero_add]
  exact hroom

/-- A name that is not ASCII. -/
def nameRecord : PaxRecord where
  key := "path"
  value := "é"
  text := "11 path=é\n"
  keyGiven := by decide
  keyPlain := rfl
  counted := rfl

def linkRecord : PaxRecord where
  key := "linkpath"
  value := "t"
  text := "14 linkpath=t\n"
  keyGiven := by decide
  keyPlain := rfl
  counted := rfl

theorem zeroSize_digits : (utf8Bytes "00000000000").length = 11 ∧
    "00000000000".toList.all isOctalDigit = true := ⟨rfl, rfl⟩

/-- A link of that name, written with an extended header of 25 bytes. -/
def accentedLink (records : List PaxRecord) (hlength : (paxBody records).length = 25)
    (hpath : lastValue "path" records = some "é") (hsize : lastValue "size" records = none) :
    TarItem where
  type := .symlink
  name := "é"
  ext := .pax
    { block :=
        { header := plainHeader "p" 'x' "00000000031" "001774" ⟨by decide, rfl⟩ (by decide)
            ⟨rfl, rfl⟩ ⟨rfl, rfl⟩ rfl
          body := paxBody records
          padding := List.replicate 487 0
          hpadding := by rw [List.length_replicate, hlength]; rfl }
      records := records
      hflag := rfl
      hsize := hlength.symm
      hbody := rfl }
  block :=
    { header := plainHeader "e" '2' "00000000000" "001647" ⟨by decide, rfl⟩ (by decide)
        zeroSize_digits ⟨rfl, rfl⟩ rfl
      body := []
      padding := []
      hpadding := fileA.hpadding }
  dotted := false
  slashes := 0
  hflag := List.mem_cons_self
  hsize := by
    unfold SizeWritten
    dsimp only
    rw [hsize]
    rfl
  hname := by
    unfold writtenName
    dsimp only
    rw [hpath]
    rfl

theorem parseTarBytes_items_nameLast :
    parseTarBytes ([accentedLink [linkRecord, nameRecord] rfl rfl rfl].flatMap TarItem.bytes ++
        List.replicate 1024 0) =
      .ok [{ name := "é", type := .symlink, linkname := some "t" }] := by
  have hread : (accentedLink [linkRecord, nameRecord] rfl rfl rfl).ReadsBack :=
    { path := ⟨by decide, by decide, rfl, rfl⟩
      fits := rfl
      name := Or.inl (by decide)
      link := fun _ => Or.inl (by decide)
      records := fun r hr => by
        obtain rfl := List.mem_singleton.mp hr
        exact rfl
      size := rfl
      inventory := fun h => nomatch h }
  have hitems : ∀ i ∈ [accentedLink [linkRecord, nameRecord] rfl rfl rfl], i.ReadsBack := by
    intro i hi
    obtain rfl := List.mem_singleton.mp hi
    exact hread
  exact parseTarBytes_items hitems (by decide) 1024

/-- Where the name comes first, its record is cut behind the digit the next one begins with,
and that one is lost. -/
theorem parseTarBytes_nameFirst :
    parseTarBytes ([accentedLink [nameRecord, linkRecord] rfl rfl rfl].flatMap TarItem.bytes ++
        List.replicate 1024 0) =
      .ok [{ name := "é\n1", type := .symlink, linkname := some "" }] ∧
    (accentedLink [nameRecord, linkRecord] rfl rfl rfl).entry =
      { name := "é", type := .symlink, linkname := some "t" } := by
  refine ⟨?_, rfl⟩
  generalize hitem : accentedLink [nameRecord, linkRecord] rfl rfl rfl = item
  have hpax : parsePax (paxBody [nameRecord, linkRecord]) = [("path", "é\n1")] := by
    decide +kernel
  have hmember : walkMember (item.ext.walk []) item.block.header.fields item.block.body =
      .ok { entries := [{ name := "é\n1", type := .symlink, linkname := some "" }] } := by
    subst hitem
    have hwalk : (accentedLink [nameRecord, linkRecord] rfl rfl rfl).ext.walk [] =
        { pendingPax := [("path", "é\n1")] } :=
      congrArg (fun pax : AssocMap String String => ({ pendingPax := pax } : ByteWalk)) hpax
    rw [hwalk]
    rfl
  have hsize : item.block.header.size = item.block.body.length := by
    subst hitem
    rfl
  rw [parseTarBytes, List.flatMap_cons, List.flatMap_nil, List.append_nil, TarItem.bytes,
    List.append_assoc, @parseTarFrom_extension [] (by decide), parseTarFrom_block _ hsize, hmember]
  exact parseTarFrom_zeros 1024 _

end Scanner
end Ctem
