import Ctem.Foundation.PathText
import Ctem.Scanner.RepoCheckout

/-!
# The layers of an image

A layer is an archive.  `parseTar` walks its headers, `unpackLayer` keeps the files an
inventory reads together with the whiteouts and the opaque directories, and `applyLayer` lays
one layer over what the layers before it have left.

An archive is the list of its headers, decompressed and decoded: the C strings of a header,
its payload, and for the extension headers the name or the records the payload holds.
-/

namespace Ctem
namespace Scanner

open Foundation

/-- `MAX_LAYER_FILES`. -/
def maxLayerFiles : Nat := 50000

/-- `MAX_INVENTORY_FILE_BYTES`. -/
def maxInventoryFileBytes : Nat := 8 * 1024 * 1024

/-- A header of an archive and its payload. -/
structure TarHeader where
  typeflag : Char
  rawName : String
  namePrefix : String := ""
  linkname : String := ""
  body : String := ""
  /-- What `parsePax` reads from the payload of an extended header. -/
  pax : AssocMap String String := []
  /-- The name in the payload of a GNU long-name header. -/
  longName : String := ""

inductive TarType where
  | file | dir | symlink | whiteout | opaqueDir
deriving DecidableEq, Repr

structure TarEntry where
  name : String
  type : TarType
  body : Option String := none
  linkname : Option String := none

/-! ## Names -/

def basename (path : String) : String :=
  String.ofList (path.toList.reverse.takeWhile fun c => c ≠ '/').reverse

def dirname (path : String) : String :=
  String.ofList ((path.toList.reverse.dropWhile fun c => c ≠ '/').drop 1).reverse

def joinDir (dir name : String) : String :=
  if dir ≠ "" then dir ++ "/" ++ name else name

/-- `text.replace(/^…/, '')` for a fixed beginning. -/
def stripStart (pre name : String) : String :=
  if startsWith name pre then String.ofList (name.toList.drop pre.toList.length) else name

/-- `name.replace(/\/+$/, '')`. -/
def stripSlashes (name : String) : String :=
  String.ofList (name.toList.reverse.dropWhile fun c => c = '/').reverse

def normalizePath (path : String) : String :=
  stripStart "./" (stripStart "/" path)

/-- Whether the inventory reads the file of that name. -/
def isInventoryPath (path : String) : Bool :=
  let p := stripStart "/" path
  p == "lib/apk/db/installed" || endsWith p "/lib/apk/db/installed" ||
    p == "var/lib/dpkg/status" || endsWith p "/var/lib/dpkg/status" ||
    includes p "var/lib/dpkg/status.d/" ||
    includes p "var/lib/rpm/" || includes p "usr/lib/sysimage/rpm/" ||
    (endsWith p "/package.json" && includes p "node_modules/") ||
    endsWith p ".dist-info/METADATA" || endsWith p ".egg-info/PKG-INFO" ||
    (includes p "/specifications/" && endsWith p ".gemspec") ||
    p == "etc/os-release" || endsWith p "/etc/os-release"

/-! ## Walking an archive -/

/-- The entries so far, and what an extension header says of the next one. -/
structure TarWalk where
  entries : List TarEntry := []
  pendingPax : AssocMap String String := []
  pendingLongName : Option String := none

/-- The name of the header at which the walk stands. -/
def TarWalk.nameOf (walk : TarWalk) (h : TarHeader) : String :=
  (walk.pendingLongName.or (walk.pendingPax.lookup? "path")).getD
    (if h.namePrefix ≠ "" then h.namePrefix ++ "/" ++ h.rawName else h.rawName)

/-- The walk behind a header that has an entry of its own, or none. -/
def TarWalk.past (walk : TarWalk) (entry : Option TarEntry) : TarWalk :=
  { entries := walk.entries ++ entry.toList }

/-- The entry of a header that is no extension; `pax` are the records that apply to it. -/
def entryOf (name : String) (pax : AssocMap String String) (h : TarHeader) :
    Except String (Option TarEntry) :=
  if name = "" then .ok none
  else if basename name = ".wh..wh..opq" then
    .ok (some { name := dirname name, type := .opaqueDir })
  else if startsWith (basename name) ".wh." then
    .ok (some
      { name := joinDir (dirname name) (stripStart ".wh." (basename name)), type := .whiteout })
  else if h.typeflag = '5' ∨ endsWith name "/" = true then
    .ok (some { name := stripSlashes name, type := .dir })
  else if h.typeflag = '2' ∨ h.typeflag = '1' then
    .ok (some
      { name := name, type := .symlink, linkname := (pax.lookup? "linkpath").or h.linkname })
  else if h.typeflag = '0' ∨ h.typeflag = '\x00' then
    if h.body.utf8ByteSize > maxInventoryFileBytes ∧ isInventoryPath name = true then
      .error ("Inventory file '" ++ name ++ "' is " ++ toString h.body.utf8ByteSize ++
        " bytes over cap — refusing incomplete layer inventory")
    else .ok (some { name := name, type := .file, body := some h.body })
  else .ok none

/-- One header. -/
def walkHeader (walk : TarWalk) (h : TarHeader) : Except String TarWalk :=
  if walk.entries.length ≥ maxLayerFiles then
    .error ("Layer tar exceeded " ++ toString maxLayerFiles ++
      " files — refusing truncated inventory")
  else if h.typeflag = 'x' ∨ h.typeflag = 'g' then
    .ok { walk.past none with
          pendingPax := h.pax.foldl (fun m r => m.upsert r.1 fun _ => r.2) walk.pendingPax }
  else if h.typeflag = 'L' then .ok { walk.past none with pendingLongName := some h.longName }
  else if h.typeflag = 'K' then .ok (walk.past none)
  else
    (entryOf (stripSlashes (stripStart "./" (walk.nameOf h))) walk.pendingPax h).map walk.past

def parseTar (headers : List TarHeader) : Except String (List TarEntry) :=
  (headers.foldlM walkHeader {}).map TarWalk.entries

/-! ## A layer -/

/-- What the inventory keeps of a layer. -/
structure LayerSnapshot where
  digest : String
  files : AssocMap String String := []
  whiteouts : List String := []
  opaqueDirs : List String := []

/-- One entry of the loop of `unpackLayer`. -/
def LayerSnapshot.add (snap : LayerSnapshot) (entry : TarEntry) : LayerSnapshot :=
  match entry.type, entry.body with
  | .whiteout, _ => { snap with whiteouts := snap.whiteouts ++ [entry.name] }
  | .opaqueDir, _ => { snap with opaqueDirs := snap.opaqueDirs ++ [entry.name] }
  | .file, some body =>
      if isInventoryPath entry.name then
        { snap with files := snap.files.upsert (normalizePath entry.name) fun _ => body }
      else snap
  | _, _ => snap

def unpackLayer (digest : String) (headers : List TarHeader) : Except String LayerSnapshot :=
  (parseTar headers).map fun entries => entries.foldl LayerSnapshot.add { digest := digest }

/-! ## The overlay -/

structure OverlayFile where
  content : String
  layerDigest : String
deriving DecidableEq, Repr

abbrev Overlay := AssocMap String OverlayFile

/-- `path === dir || path.startsWith(prefix)`. -/
def inOpaqueDir (dir path : String) : Bool :=
  path == dir || startsWith path (if dir ≠ "" then dir ++ "/" else "")

/-- The path of a whiteout, or one below it. -/
def whitedOut (whiteout path : String) : Bool :=
  path == whiteout || startsWith path (whiteout ++ "/")

def applyLayer (overlay : Overlay) (layer : LayerSnapshot) : Overlay :=
  let cleared := layer.opaqueDirs.foldl
    (fun overlay dir => overlay.filter fun e => !inOpaqueDir dir e.1) overlay
  let kept := layer.whiteouts.foldl
    (fun overlay whiteout => overlay.filter fun e => !whitedOut whiteout e.1) cleared
  layer.files.foldl
    (fun overlay file => overlay.upsert file.1 fun _ => ⟨file.2, layer.digest⟩) kept

/-- The overlay of all layers, oldest first. -/
def overlayOf (layers : List LayerSnapshot) : Overlay :=
  layers.foldl applyLayer []

/-- The content of an inventory file. -/
def Overlay.contentAt (overlay : Overlay) (path : String) : Option String :=
  (overlay.lookup? path).map OverlayFile.content

/-! ## What a layer leaves -/

/-- Some marker of the layer hides the path. -/
def LayerSnapshot.hides (layer : LayerSnapshot) (path : String) : Bool :=
  layer.opaqueDirs.any (inOpaqueDir · path) || layer.whiteouts.any (whitedOut · path)

theorem lookup?_foldl_filter {β : Type} (marks : List β) (hidden : β → String → Bool)
    (overlay : Overlay) (path : String) :
    (marks.foldl (fun overlay mark => overlay.filter fun e => !hidden mark e.1)
        overlay : Overlay).lookup? path =
      if marks.any (hidden · path) then none else overlay.lookup? path := by
  induction marks generalizing overlay with
  | nil => simp
  | cons mark rest ih =>
      rw [List.foldl_cons, ih, AssocMap.lookup?_filter overlay fun k => !hidden mark k, List.any_cons]
      by_cases hmark : hidden mark path = true
      · simp [hmark]
      · simp [hmark]

/-- The files of a layer, each written over what was there. -/
theorem lookup?_foldl_files (files : AssocMap String String) (hnodup : files.keys.Nodup)
    (digest : String) (overlay : Overlay) (path : String) :
    (files.foldl (fun overlay file => overlay.upsert file.1 fun _ => ⟨file.2, digest⟩)
        overlay : Overlay).lookup? path =
      ((files.lookup? path).map fun body => ⟨body, digest⟩).or (overlay.lookup? path) := by
  induction files generalizing overlay with
  | nil => simp [AssocMap.lookup?]
  | cons file rest ih =>
      obtain ⟨name, body⟩ := file
      have hcons : (name :: AssocMap.keys rest).Nodup := hnodup
      rw [List.nodup_cons] at hcons
      rw [List.foldl_cons, ih hcons.2, AssocMap.lookup?]
      by_cases hname : name = path
      · subst hname
        have hnone : AssocMap.lookup? rest name = none := by
          cases hlookup : AssocMap.lookup? rest name with
          | none => rfl
          | some body' =>
              exact absurd (List.mem_map_of_mem (AssocMap.mem_of_lookup? hlookup)) hcons.1
        rw [hnone, AssocMap.lookup_upsert_self]
        simp
      · rw [AssocMap.lookup_upsert_ne overlay _ (Ne.symm hname), if_neg hname]

theorem lookup?_applyLayer (overlay : Overlay) (layer : LayerSnapshot)
    (hnodup : layer.files.keys.Nodup) (path : String) :
    (applyLayer overlay layer).lookup? path =
      ((layer.files.lookup? path).map fun body => ⟨body, layer.digest⟩).or
        (if layer.hides path then none else overlay.lookup? path) := by
  unfold applyLayer LayerSnapshot.hides
  rw [lookup?_foldl_files _ hnodup, lookup?_foldl_filter, lookup?_foldl_filter]
  by_cases hdirs : layer.opaqueDirs.any (inOpaqueDir · path) = true
  · simp [hdirs]
  · simp [hdirs]

end Scanner
end Ctem
