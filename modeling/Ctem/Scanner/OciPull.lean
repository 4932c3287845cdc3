import Ctem.Scanner.TarBytes
import Ctem.Foundation.Json

/-!
# Pulling an image

The six registries pull an image by the same steps: a token, the manifest of the digest, the
manifest of a platform if it was an index, and the layers that are not in the cache, one after
the other.  The cache belongs to the worker and is kept from pull to pull.

A `Worker` has any number of pulls under way.  Each runs from one answer of the registry to the
next request, so an event is a pull and its answer; the deadline may come up at every check.
-/

namespace Ctem
namespace Scanner

open Foundation

/-! ## Unpacking a layer -/

/-- `MAX_LAYER_BYTES`. -/
def maxLayerBytes : Nat := 256 * 1024 * 1024

def gzipMagic : List UInt8 := [0x1f, 0x8b]

def zstdMagic : List UInt8 := [0x28, 0xb5, 0x2f, 0xfd]

/-- `decompressLayer`; `gunzip` is that of the runtime. -/
def decompressLayer (gunzip : List UInt8 → Except String (List UInt8)) (blob : List UInt8)
    (mediaType : String) : Except String (List UInt8) :=
  let type := asciiLower mediaType
  if includes type "zstd" || blob.take 4 == zstdMagic then
    .error "Layer uses zstd compression — refusing incomplete in-process unpack (no CLI fallback)"
  else if includes type "gzip" || blob.take 2 == gzipMagic then
    match gunzip blob with
    | .error message =>
        .error ("Failed to gunzip layer: " ++ message ++ " — refusing incomplete inventory")
    | .ok out =>
        if out.length > maxLayerBytes then
          .error ("Uncompressed layer " ++ toString out.length ++ " bytes exceeds cap " ++
            toString maxLayerBytes ++ " — refusing incomplete inventory")
        else .ok out
  else if blob.length > maxLayerBytes then
    .error ("Layer " ++ toString blob.length ++ " bytes exceeds cap " ++ toString maxLayerBytes ++
      " — refusing incomplete inventory")
  else .ok blob

/-- `LayerSnapshot`, with the files as they are in the archive. -/
structure PulledLayer where
  digest : String
  mediaType : String
  files : AssocMap String (List UInt8) := []
  whiteouts : List String := []
  opaqueDirs : List String := []
deriving DecidableEq

/-- One entry of the loop of `unpackLayer`. -/
def PulledLayer.add (snap : PulledLayer) (entry : ByteEntry) : PulledLayer :=
  match entry.type, entry.body with
  | .whiteout, _ => { snap with whiteouts := snap.whiteouts ++ [entry.name] }
  | .opaqueDir, _ => { snap with opaqueDirs := snap.opaqueDirs ++ [entry.name] }
  | .file, some body =>
      if isInventoryPath entry.name then
        { snap with files := snap.files.upsert (normalizePath entry.name) fun _ => body }
      else snap
  | _, _ => snap

/-- `unpackLayer`; a media type that is no string has no `toLowerCase`. -/
def unpackBlob (gunzip : List UInt8 → Except String (List UInt8)) (digest : String)
    (mediaType : Option String) (blob : List UInt8) : Except String PulledLayer :=
  match mediaType with
  | none => .error ("Failed to unpack layer " ++ digest ++ ": " ++
      "(mediaType ?? \"\").toLowerCase is not a function — refusing incomplete inventory")
  | some mediaType => do
      let tar ← decompressLayer gunzip blob mediaType
      let entries ← parseTarBytes tar
      pure (entries.foldl PulledLayer.add { digest := digest, mediaType := mediaType })

/-! ## Manifests -/

/-- `MAX_IMAGE_LAYERS`. -/
def maxImageLayers : Nat := 128

/-- What a pull needs of an image reference. -/
structure PullRef where
  digest : String
  owner : String
  name : String
deriving DecidableEq

/-- What is the same for all images of a registry: its name in the errors, and the allowlisted
address of a manifest, of a blob and of where a redirect leads, or why it is refused. -/
structure OciRegistry where
  label : String
  manifestUrl : PullRef → Json → Except String String
  blobUrl : PullRef → String → Except String String
  blobRedirect : String → Except String String

structure ImagePull where
  digest : String
  owner : String
  name : String
  layers : List PulledLayer
deriving DecidableEq

/-- `typeof json === 'object'`, and not `null`. -/
def isJsonObject : Json → Bool
  | .arr _ => true
  | .obj _ => true
  | _ => false

/-- `mediaType.includes(mark)`; only strings and arrays have the method. -/
def mediaTypeIncludes (mediaType : Json) (mark : String) : Except String Bool :=
  match mediaType with
  | .str s => .ok (includes s mark)
  | .arr items => .ok (items.any fun item => decide (item.str? = some mark))
  | _ => .error "mediaType.includes is not a function"

/-- `manifests` of an index that has some. -/
def indexManifests (doc : Json) : Except String (Option (List Json)) :=
  match doc.get? "manifests" with
  | some (.arr (item :: rest)) => .ok (some (item :: rest))
  | some (.str s) => if s = "" then .ok none else .error "manifests.filter is not a function"
  | some (.obj fs) =>
      if (JsonObject.get? fs "length").any Json.truthy then
        .error "manifests.filter is not a function"
      else .ok none
  | _ => .ok none

/-- `m.platform?.[key]`. -/
def platformOf (m : Json) (key : String) : Option Json :=
  (m.get? "platform").bind fun platform => platform.get? key

/-- `(m.platform?.os ?? 'linux') === 'linux'`. -/
def isLinux (m : Json) : Bool :=
  match platformOf m "os" with
  | none => true
  | some .null => true
  | some os => decide (os.str? = some "linux")

def hasArchitecture (m : Json) (architecture : String) : Bool :=
  decide ((platformOf m "architecture").bind Json.str? = some architecture)

/-- `pickPlatform`. -/
def pickPlatform (manifests : List Json) : Option Json :=
  let linux := manifests.filter isLinux
  (((linux.find? fun m => hasArchitecture m "amd64").or
    (linux.find? fun m => hasArchitecture m "arm64")).or linux.head?).or manifests.head?

def isNull : Json → Bool
  | .null => true
  | _ => false

/-- Where `resolvePlatformManifest` goes on: with the layers, or with another manifest. -/
inductive Resolved where
  | layers (layers : List Json)
  | nested (digest : Json)

/-- `requireImageManifest`. -/
def requireImageManifest (reg : OciRegistry) (json : Json) : Except String (List Json) :=
  if !isJsonObject json then
    .error (reg.label ++ " manifest was not JSON — refusing incomplete inventory")
  else
    match json.get? "layers" with
    | some (.arr layers) => .ok layers
    | _ => .error (reg.label ++ " image manifest missing layers — refusing incomplete inventory")

/-- `isIndex` of `resolvePlatformManifest`. -/
def isImageIndex (doc : Json) : Except String Bool := do
  let mediaType := match doc.get? "mediaType" with
    | none => .str ""
    | some .null => .str ""
    | some mediaType => mediaType
  if ← mediaTypeIncludes mediaType "image.index" then .ok true
  else if ← mediaTypeIncludes mediaType "manifest.list" then .ok true
  else
    match doc.get? "manifests" with
    | some (.arr _) => .ok true
    | _ => .ok false

/-- The digest of the manifest that is chosen from an index. -/
def chosenDigest (reg : OciRegistry) (manifests : List Json) : Except String Json :=
  if manifests.any isNull then .error "Cannot read properties of null (reading 'platform')"
  else
    match ((pickPlatform manifests).bind fun m => m.get? "digest").filter Json.truthy with
    | some digest => .ok digest
    | none =>
        .error (reg.label ++
          " index has no linux platform manifest — refusing incomplete inventory")

/-- `resolvePlatformManifest` up to the request for another manifest. -/
def resolvePlatform (reg : OciRegistry) (json : Json) : Except String Resolved := do
  let doc := if isJsonObject json then json else .obj []
  if ← isImageIndex doc then
    match ← indexManifests doc with
    | some manifests => (chosenDigest reg manifests).map Resolved.nested
    | none => (requireImageManifest reg json).map Resolved.layers
  else (requireImageManifest reg json).map Resolved.layers

/-- `/^sha256:[a-f0-9]{64}$/i`. -/
def isSha256Digest (digest : String) : Bool :=
  let hex := digest.toList.drop 7
  decide (asciiLower (String.ofList (digest.toList.take 7)) = "sha256:") &&
    decide (hex.length = 64) && hex.all fun c =>
      c.isDigit || (decide ('a' ≤ c) && decide (c ≤ 'f')) || (decide ('A' ≤ c) && decide (c ≤ 'F'))

/-- The digest and the media type of a descriptor; a media type that is no string is `none`. -/
def layerDescriptor (layer : Json) : Except String (String × Option String) :=
  match layer, layer.get? "digest" with
  | .null, _ => .error "Cannot read properties of null (reading 'digest')"
  | _, some (.str digest) =>
      if isSha256Digest digest then
        .ok (digest, match layer.get? "mediaType" with
          | none => some ""
          | some .null => some ""
          | some mediaType => mediaType.str?)
      else .error "Layer descriptor missing sha256 digest — refusing incomplete inventory"
  | _, _ => .error "Layer descriptor missing sha256 digest — refusing incomplete inventory"

/-! ## The steps of a pull -/

/-- What a pull waits for. -/
inductive Awaiting where
  | token
  | manifest
  | nested (digest : Json)
  | blob (digest : String) (mediaType : Option String)
  | redirected (digest : String) (mediaType : Option String)

inductive PullPhase where
  | waiting (what : Awaiting)
  | finished (result : Except String ImagePull)

/-- A pull and its local variables. -/
structure Pull where
  ref : PullRef
  layers : List Json := []
  snapshots : List PulledLayer := []
  phase : PullPhase

/-- `layerCache`, by the lower-case digest. -/
abbrev LayerCache := AssocMap String PulledLayer

structure Worker where
  cache : LayerCache := []
  pulls : List Pull := []

/-- An answer of the registry; a body that is no JSON has the error of its parse. -/
structure Reply where
  status : Nat
  location : Option String := none
  json : Except String Json := .error "Unexpected end of JSON input"
  body : List UInt8 := []

/-- `res.ok`. -/
def Reply.ok (r : Reply) : Bool := decide (200 ≤ r.status) && decide (r.status < 300)

def Reply.isRedirect (r : Reply) : Bool := decide (300 ≤ r.status) && decide (r.status < 400)

/-- A check of the deadline, and the checks that are left. -/
def alive (checks : List Bool) : Bool := checks.headD true

/-- The loop over the layers up to the next request; `todo` are the layers that are left. -/
def pullLayers (reg : OciRegistry) (cache : LayerCache) (ref : PullRef) (layers : List Json) :
    List Json → List PulledLayer → List Bool → Pull
  | [], snapshots, _ =>
      { ref := ref, layers := layers, snapshots := snapshots, phase := .finished (.ok
          { digest := ref.digest, owner := ref.owner, name := ref.name, layers := snapshots }) }
  | layer :: todo, snapshots, checks =>
      if !alive checks then
        { ref := ref, layers := layers, snapshots := snapshots, phase := .finished
            (.error "Job deadline exceeded mid-pull — refusing incomplete inventory") }
      else
        match layerDescriptor layer with
        | .error message =>
            { ref := ref, layers := layers, snapshots := snapshots
              phase := .finished (.error message) }
        | .ok (digest, mediaType) =>
            match cache.lookup? (asciiLower digest) with
            | some cached =>
                pullLayers reg cache ref layers todo (snapshots ++ [cached]) checks.tail
            | none =>
                { ref := ref, layers := layers, snapshots := snapshots
                  phase :=
                    if !alive checks.tail then
                      .finished (.error "Job deadline exceeded during blob pull")
                    else
                      match reg.blobUrl ref digest with
                      | .error message => .finished (.error message)
                      | .ok _ => .waiting (.blob digest mediaType) }

def Pull.failed (p : Pull) (message : String) : Pull :=
  { p with phase := .finished (.error message) }

/-- `getManifest` up to its request. -/
def Pull.askManifest (reg : OciRegistry) (p : Pull) (digest : Json) (what : Awaiting)
    (checks : List Bool) : Pull :=
  if !alive checks then p.failed "Job deadline exceeded during manifest pull"
  else
    match reg.manifestUrl p.ref digest with
    | .error message => p.failed message
    | .ok _ => { p with phase := .waiting what }

/-- The layers of a manifest. -/
def Pull.takeLayers (reg : OciRegistry) (cache : LayerCache) (p : Pull) (layers : List Json)
    (checks : List Bool) : Pull :=
  if layers.length > maxImageLayers then
    p.failed ("Image has " ++ toString layers.length ++ " layers (cap " ++
      toString maxImageLayers ++ ") — refusing incomplete inventory")
  else pullLayers reg cache p.ref layers layers [] checks

/-- A manifest has come. -/
def Pull.takeManifest (reg : OciRegistry) (cache : LayerCache) (p : Pull) (isNested : Bool)
    (json : Json) (checks : List Bool) : Pull :=
  if isNested then
    match requireImageManifest reg json with
    | .error message => p.failed message
    | .ok layers => p.takeLayers reg cache layers checks
  else
    match resolvePlatform reg json with
    | .error message => p.failed message
    | .ok (.layers layers) => p.takeLayers reg cache layers checks
    | .ok (.nested digest) => p.askManifest reg digest (.nested digest) checks

/-- A blob has come: it is unpacked into the cache, and the loop goes on. -/
def Pull.takeBlob (reg : OciRegistry) (gunzip : List UInt8 → Except String (List UInt8))
    (cache : LayerCache) (p : Pull) (digest : String) (mediaType : Option String)
    (body : List UInt8) (checks : List Bool) : LayerCache × Pull :=
  match unpackBlob gunzip (asciiLower digest) mediaType body with
  | .error message => (cache, p.failed message)
  | .ok snapshot =>
      let cache := cache.upsert snapshot.digest fun _ => snapshot
      (cache, pullLayers reg cache p.ref p.layers (p.layers.drop (p.snapshots.length + 1))
        (p.snapshots ++ [snapshot]) checks)

/-- An answer to what the pull waits for. -/
def Pull.receive (reg : OciRegistry) (gunzip : List UInt8 → Except String (List UInt8))
    (cache : LayerCache) (p : Pull) (what : Awaiting) (r : Reply) (checks : List Bool) :
    LayerCache × Pull :=
  match what with
  | .token => (cache, p)
  | .manifest =>
      if !r.ok then
        (cache, p.failed (reg.label ++ " manifest GET returned " ++ toString r.status ++
          " — refusing pull"))
      else
        match r.json with
        | .error message => (cache, p.failed message)
        | .ok json => (cache, p.takeManifest reg cache false json checks)
  | .nested _ =>
      if !r.ok then
        (cache, p.failed (reg.label ++ " manifest GET returned " ++ toString r.status ++
          " — refusing pull"))
      else
        match r.json with
        | .error message => (cache, p.failed message)
        | .ok json => (cache, p.takeManifest reg cache true json checks)
  | .blob digest mediaType =>
      if r.isRedirect then
        match r.location with
        | none => (cache, p.failed (reg.label ++ " blob redirect missing Location — refusing pull"))
        | some location =>
            match reg.blobRedirect location with
            | .error message => (cache, p.failed message)
            | .ok _ => (cache, { p with phase := .waiting (.redirected digest mediaType) })
      else if !r.ok then
        (cache, p.failed (reg.label ++ " blob GET returned " ++ toString r.status ++
          " — refusing pull"))
      else p.takeBlob reg gunzip cache digest mediaType r.body checks
  | .redirected digest mediaType =>
      if !r.ok then
        (cache, p.failed (reg.label ++ " blob GET returned " ++ toString r.status ++
          " — refusing pull"))
      else p.takeBlob reg gunzip cache digest mediaType r.body checks

/-- The token exchange is through, which is each registry's own. -/
def Pull.takeToken (reg : OciRegistry) (p : Pull) (checks : List Bool) : Pull :=
  match p.phase with
  | .waiting .token => p.askManifest reg (.str p.ref.digest) .manifest checks
  | _ => p

/-- What happens to a worker: a pull begins, gets its token or the answer to a request, or fails
at one. -/
inductive PullEvent where
  | start (ref : PullRef) (checks : List Bool)
  | token (index : Nat) (checks : List Bool)
  | reply (index : Nat) (r : Reply) (checks : List Bool)
  | failure (index : Nat) (message : String)

/-- `pull` up to its first request. -/
def startPull (reg : OciRegistry) (ref : PullRef) (checks : List Bool) : Pull where
  ref := ref
  phase :=
    if !alive checks then
      .finished (.error ("Job deadline exceeded before " ++ reg.label ++ " pull"))
    else .waiting .token

def Worker.step (reg : OciRegistry) (gunzip : List UInt8 → Except String (List UInt8))
    (w : Worker) : PullEvent → Worker
  | .start ref checks => { w with pulls := w.pulls ++ [startPull reg ref checks] }
  | .token index checks =>
      match w.pulls[index]? with
      | some p => { w with pulls := w.pulls.set index (p.takeToken reg checks) }
      | none => w
  | .reply index r checks =>
      match w.pulls[index]? with
      | some p =>
          match p.phase with
          | .waiting what =>
              let (cache, p') := p.receive reg gunzip w.cache what r checks
              { cache := cache, pulls := w.pulls.set index p' }
          | .finished _ => w
      | none => w
  | .failure index message =>
      match w.pulls[index]? with
      | some p =>
          match p.phase with
          | .waiting _ => { w with pulls := w.pulls.set index (p.failed message) }
          | .finished _ => w
      | none => w

def Worker.run (reg : OciRegistry) (gunzip : List UInt8 → Except String (List UInt8))
    (w : Worker) (events : List PullEvent) : Worker :=
  events.foldl (Worker.step reg gunzip) w

/-! ## The registries -/

section Registries

variable (manifestUrl : PullRef → Json → Except String String)
  (blobUrl : PullRef → String → Except String String) (blobRedirect : String → Except String String)

/-- `GhcrRegistry`. -/
def ghcrRegistry : OciRegistry := ⟨"GHCR", manifestUrl, blobUrl, blobRedirect⟩

/-- `EcrRegistry`. -/
def ecrRegistry : OciRegistry := ⟨"ECR", manifestUrl, blobUrl, blobRedirect⟩

/-- `GcrRegistry`. -/
def gcrRegistry : OciRegistry := ⟨"GCR", manifestUrl, blobUrl, blobRedirect⟩

/-- `AcrRegistry`. -/
def acrRegistry : OciRegistry := ⟨"ACR", manifestUrl, blobUrl, blobRedirect⟩

/-- `DockerhubRegistry`. -/
def dockerhubRegistry : OciRegistry := ⟨"Docker Hub", manifestUrl, blobUrl, blobRedirect⟩

/-- `QuayRegistry`. -/
def quayRegistry : OciRegistry := ⟨"Quay", manifestUrl, blobUrl, blobRedirect⟩

end Registries

end Scanner
end Ctem
