import Ctem.Foundation.JsText
import Ctem.Orchestrator.ScanStore
import Ctem.Scanner.SbomParser

/-!
# Scan requests

The two bodies a client posts: a scan request with its options, and an SBOM to
ingest.  `parse` is what the request schemas accept; `none` is a 400.

* What a schema refuses is a field of the request it returns: the options carry no
  conclusion of the client's own, and an ingest names either a key or a document.
* An option, and an artifact key, may be any text; no schema looks at either.
-/

namespace Ctem
namespace Orchestrator

open Foundation Contracts Scanner

/-- The names a client might force a gate with. -/
def clientConclusionKeys : List String :=
  ["conclusion", "scanConclusion", "scan_conclusion", "checkConclusion", "check_conclusion",
    "githubCheck", "github_check", "deployConclusion", "deploy_conclusion"]

/-- The conclusion keys among the keys of an object. -/
def conclusionKeysOf (o : JsonObject) : List String :=
  (o.map Prod.fst).eraseDups.filter fun k => decide (k ∈ clientConclusionKeys)

/-- `findClientConclusionKeys`: at the top level, and in the options. -/
def findClientConclusionKeys (input : Json) : List String :=
  match input with
  | .obj o =>
      conclusionKeysOf o ++
        match JsonObject.get? o "options" with
        | some (Json.obj options) => (conclusionKeysOf options).map fun k => "options." ++ k
        | _ => []
  | _ => []

/-- An object without one of its keys. -/
def deleteKey (o : JsonObject) (k : String) : JsonObject :=
  o.filter fun e => decide (e.1 ≠ k)

/-- `aliasCiExternalId`: `external_id` is another spelling of `externalId`.  Two
values that are no strings are refused either way. -/
def aliasCiExternalId (o : JsonObject) : JsonObject :=
  match o.get? "external_id" with
  | none => o
  | some snake =>
      let record := deleteKey o "external_id"
      match record.get? "externalId" with
      | none => record ++ [("externalId", snake)]
      | some camel =>
          if camel.str?.isSome ∧ camel.str? = snake.str? then record
          else deleteKey record "externalId" ++ [("externalIdConflict", .bool true)]

/-! ## The schemas of the members -/

/-- An optional member: absent, or read by its schema. -/
def optionalMember {α : Type} (o : JsonObject) (k : String) (read : Json → Option α) :
    Option (Option α) :=
  match o.get? k with
  | none => some none
  | some value => (read value).map some

/-- `z.array(read)`. -/
def readArray {α : Type} (read : Json → Option α) : Json → Option (List α)
  | .arr items => items.mapM read
  | _ => none

/-- `z.record(z.unknown())`. -/
def readRecord : Json → Option JsonObject
  | .obj o => some o
  | _ => none

/-- `z.record(z.string())`. -/
def readStringRecord : Json → Option (List (String × String))
  | .obj o => o.mapM fun e => e.2.str?.map fun s => (e.1, s)
  | _ => none

def isHexDigit (c : Char) : Bool :=
  c.isDigit || (decide ('a' ≤ c) && decide (c ≤ 'f')) || (decide ('A' ≤ c) && decide (c ≤ 'F'))

/-- Five groups of hexadecimal digits, of 8, 4, 4, 4 and 12. -/
def isUuid (s : String) : Bool :=
  let groups := splitOn '-' s.toList
  decide (groups.map List.length = [8, 4, 4, 4, 12]) && groups.all fun g => g.all isHexDigit

/-- `z.string().uuid()`. -/
def readUuid (value : Json) : Option Uuid :=
  value.str?.filter isUuid

/-- The scanner type a word names. -/
def readScannerType (value : Json) : Option ScannerType :=
  [ScannerType.sca, .sast, .container, .iac, .secrets, .asm, .cloudPosture].find? fun t =>
    decide (some t.name = value.str?)

/-- The SBOM format a word names. -/
def readSbomFormat (value : Json) : Option SbomFormat :=
  [SbomFormat.cyclonedxJson, .spdxJson, .syftJson].find? fun f => decide (some f.name = value.str?)

/-- The asset selector; members it does not know are stripped. -/
def readAssetSelector (value : Json) : Option AssetSelector := do
  let o ← readRecord value
  let assetIds ← optionalMember o "assetIds" (readArray readUuid)
  let kinds ← optionalMember o "kinds" (readArray Json.str?)
  let tags ← optionalMember o "tags" readStringRecord
  pure ⟨assetIds, kinds, tags⟩

def scanKickIdempotencyKeyMax : Nat := 255

/-- `z.string().trim().min(1).max(SCAN_KICK_IDEMPOTENCY_KEY_MAX)`. -/
def readExternalId (value : Json) : Option String :=
  (value.str?.map trimText).filter fun s =>
    decide (s ≠ "") && decide (utf16Length s ≤ scanKickIdempotencyKeyMax)

/-- The external id of a body, unless its two spellings disagree. -/
def kickIdempotency (o : JsonObject) : Option (Option String) := do
  let externalId ← optionalMember o "externalId" readExternalId
  if (o.get? "externalIdConflict").isSome then none else pure externalId

/-- `.strict()`: the object has no other keys. -/
def onlyKeys (o : JsonObject) (keys : List String) : Bool :=
  o.all fun e => decide (e.1 ∈ keys)

/-! ## The requests -/

/-- `CreateScanRequest`.  The options set no conclusion. -/
structure CreateScanRequest where
  scannerType : ScannerType
  assetSelector : AssetSelector := {}
  options : JsonObject := []
  externalId : Option String := none
  conclusionFree : conclusionKeysOf options = []

/-- `IngestSbomRequest`.  It has a key that counts as one, or a document. -/
structure IngestSbomRequest where
  assetExternalKey : String
  format : SbomFormat
  artifactKey : Option String := none
  document : Option JsonObject := none
  ref : Option String := none
  commitSha : Option String := none
  externalId : Option String := none
  exactlyOne : (nonEmpty artifactKey).isSome ≠ document.isSome

/-- Options among which no conclusion key was found have none. -/
theorem conclusionKeysOf_options {o options : JsonObject}
    (h : findClientConclusionKeys (.obj (o ++ [("options", .obj options)])) = []) :
    conclusionKeysOf options = [] := by
  unfold findClientConclusionKeys at h
  simp only [JsonObject.get?_concat_self] at h
  exact List.map_eq_nil_iff.mp (List.append_eq_nil_iff.mp h).2

/-- `refuseClientConclusion` on the parsed value `o`, whose options are filled in. -/
def CreateScanRequest.refine (o : JsonObject) (scannerType : ScannerType)
    (assetSelector : AssetSelector) (options : JsonObject) (externalId : Option String) :
    Option CreateScanRequest :=
  if h : findClientConclusionKeys (.obj (o ++ [("options", .obj options)])) = [] then
    some ⟨scannerType, assetSelector, options, externalId, conclusionKeysOf_options h⟩
  else none

/-- The schema of `POST /scans`. -/
def CreateScanRequest.parse (body : Json) : Option CreateScanRequest := do
  let o ← (readRecord body).map aliasCiExternalId
  if onlyKeys o ["scannerType", "assetSelector", "options", "externalId", "externalIdConflict"] then
    let scannerType ← (JsonObject.get? o "scannerType").bind readScannerType
    let assetSelector ← optionalMember o "assetSelector" readAssetSelector
    let options ← optionalMember o "options" readRecord
    let externalId ← kickIdempotency o
    CreateScanRequest.refine o scannerType (assetSelector.getD {}) (options.getD []) externalId
  else none

/-- The schema of `POST /scans/sbom`. -/
def IngestSbomRequest.parse (body : Json) : Option IngestSbomRequest := do
  let o ← (readRecord body).map aliasCiExternalId
  if onlyKeys o ["assetExternalKey", "format", "artifactKey", "document", "ref", "commitSha",
      "externalId", "externalIdConflict"] then
    let assetExternalKey ← (JsonObject.get? o "assetExternalKey").bind Json.str?
    let format ← (JsonObject.get? o "format").bind readSbomFormat
    let artifactKey ← optionalMember o "artifactKey" Json.str?
    let document ← optionalMember o "document" readRecord
    let ref ← optionalMember o "ref" Json.str?
    let commitSha ← optionalMember o "commitSha" Json.str?
    let externalId ← kickIdempotency o
    if h : (nonEmpty artifactKey).isSome ≠ document.isSome then
      if findClientConclusionKeys (.obj o) = [] then
        some ⟨assetExternalKey, format, artifactKey, document, ref, commitSha, externalId, h⟩
      else none
    else none
  else none

/-! ## The idempotency key -/

/-- `clean`: the trimmed text, unless nothing is left. -/
def cleanKey (value : Option String) : Option String :=
  nonEmpty (value.map trimText)

/-- `resolveScanKickIdempotencyKey`.  The header may have come several times; the
first one counts. -/
def resolveScanKickIdempotencyKey (header : List String) (externalId : Option String) :
    Except String (Option String) :=
  match cleanKey header.head?, cleanKey externalId with
  | some h, some e =>
      if h ≠ e then .error "Idempotency-Key and externalId disagree — refusing scan create"
      else if scanKickIdempotencyKeyMax < utf16Length h then
        .error "Idempotency-Key exceeds 255 characters — refusing scan create"
      else .ok (some h)
  | h, e =>
      match h.or e with
      | none => .ok none
      | some key =>
          if scanKickIdempotencyKeyMax < utf16Length key then
            .error "Idempotency-Key exceeds 255 characters — refusing scan create"
          else .ok (some key)

end Orchestrator
end Ctem
