import Ctem.Assets.DiscoverySync
import Ctem.Foundation.WriteBack

/-!
# Two upserts of one asset

`AssetsService.upsert` finds the row of its `externalKey` and upserts it, in one
transaction at read committed.  The `data` that it writes has every column of the row:
what the request does not carry is copied from the row that was found, which another
upsert may have replaced by then.

* `assetWriteBack` is `upsert` as a find and a write of the whole row, with the columns a
  request may leave out; `find?_upsert` is the same without anybody in between.
* `upsert_keepsFields_iff`: no field that a request carried is lost, precisely when every
  upsert commits over a row that has, in the fields it does not carry, what it has found.
-/

namespace Ctem
namespace Assets

open Foundation Contracts

/-- The rows of one key. -/
abbrev AssetAt (key : String) := {row : DiscoveredAsset // row.externalKey = key}

/-- A call of `upsert` on the key, with the id and the time that the database and the
service draw for it. -/
structure UpsertCall (key : String) where
  input : UpsertAssetRequest
  integrationId : Option Uuid := none
  id : Uuid
  now : Timestamp
  key_eq : input.externalKey = key

/-- The columns that an upsert may keep. -/
inductive AssetColumn where
  | exposure
  | criticality
  | dataClasses
  | ownerTeam
  | ownerEmail
  | tags
  | attributes
  | integrationId
deriving DecidableEq, Repr

namespace AssetColumn

/-- The values of a column. -/
abbrev Value : AssetColumn → Type
  | .exposure => String
  | .criticality => String
  | .dataClasses => List String
  | .ownerTeam => String
  | .ownerEmail => String
  | .tags => JsonObject
  | .attributes => JsonObject
  | .integrationId => Uuid

variable {key : String}

/-- What the call carries for the column. -/
def carried : (c : AssetColumn) → UpsertCall key → Option c.Value
  | .exposure, call => call.input.exposure
  | .criticality, call => call.input.criticality
  | .dataClasses, call => call.input.dataClasses
  | .ownerTeam, call => call.input.ownerTeam
  | .ownerEmail, call => call.input.ownerEmail
  | .tags, call => call.input.tags
  | .attributes, call => call.input.attributes
  | .integrationId, call => call.integrationId

/-- The column of a row. -/
def column : (c : AssetColumn) → AssetAt key → Option c.Value
  | .exposure, row => some row.val.exposure
  | .criticality, row => some row.val.criticality
  | .dataClasses, row => some row.val.dataClasses
  | .ownerTeam, row => row.val.ownerTeam
  | .ownerEmail, row => row.val.ownerEmail
  | .tags, row => some row.val.tags
  | .attributes, row => some row.val.attributes
  | .integrationId, row => row.val.integrationId

/-- The last alternative of the column's `??`. -/
def fallback : (c : AssetColumn) → Option c.Value
  | .exposure => some "unknown"
  | .criticality => some "unknown"
  | .dataClasses => some []
  | .ownerTeam => none
  | .ownerEmail => none
  | .tags => some []
  | .attributes => some []
  | .integrationId => none

end AssetColumn

namespace UpsertCall

variable {key : String}

/-- The `data` of the upsert, when the find has returned `existing`. -/
def data (call : UpsertCall key) (existing : Option (AssetAt key)) : DiscoveredAsset :=
  upsertData (existing.map Subtype.val) call.input call.integrationId call.id call.now

/-- The row after the upsert: a row of the key that is there by then keeps its id. -/
def written (call : UpsertCall key) (existing : Option (AssetAt key)) :
    Option (AssetAt key) → AssetAt key
  | none => ⟨call.data existing, call.key_eq⟩
  | some row =>
      ⟨{ call.data existing with id := row.val.id, externalKey := row.val.externalKey },
        row.property⟩

/-- A `??` over a column with a default. -/
theorem kept_or_default {α : Type} (value : Option α) (existing : Option (AssetAt key))
    (f : DiscoveredAsset → α) (d : α) :
    some ((value.or ((existing.map Subtype.val).map f)).getD d) =
      value.or ((existing.bind (fun row => some (f row.val))).or (some d)) := by
  cases value with
  | some v => rfl
  | none => cases existing <;> rfl

/-- A `??` over a column that may be null. -/
theorem kept_or_null {α : Type} (value : Option α) (existing : Option (AssetAt key))
    (f : DiscoveredAsset → Option α) :
    value.or ((existing.map Subtype.val).bind f) =
      value.or ((existing.bind (fun row => f row.val)).or none) := by
  rw [Option.or_none]
  cases existing <;> rfl

/-- The columns of what an upsert writes do not depend on the row that is there by then. -/
theorem column_written (c : AssetColumn) (call : UpsertCall key)
    (existing current : Option (AssetAt key)) :
    c.column (call.written existing current) =
      (c.carried call).or ((existing.bind c.column).or c.fallback) := by
  have hcurrent : c.column (call.written existing current) =
      c.column (call.written existing none) := by
    cases current with
    | none => rfl
    | some row => cases c <;> rfl
  rw [hcurrent]
  cases c with
  | exposure => exact kept_or_default call.input.exposure existing DiscoveredAsset.exposure _
  | criticality =>
      exact kept_or_default call.input.criticality existing DiscoveredAsset.criticality _
  | dataClasses =>
      exact kept_or_default call.input.dataClasses existing DiscoveredAsset.dataClasses _
  | ownerTeam => exact kept_or_null call.input.ownerTeam existing DiscoveredAsset.ownerTeam
  | ownerEmail => exact kept_or_null call.input.ownerEmail existing DiscoveredAsset.ownerEmail
  | tags => exact kept_or_default call.input.tags existing DiscoveredAsset.tags _
  | attributes => exact kept_or_default call.input.attributes existing DiscoveredAsset.attributes _
  | integrationId => exact kept_or_null call.integrationId existing DiscoveredAsset.integrationId

/-- Nobody in between, what is written is what `upsert` leaves in the table. -/
theorem find?_upsert (assets : AssetTable) (call : UpsertCall key)
    (existing : Option (AssetAt key)) (hfind : assets.find? key = existing.map Subtype.val) :
    (upsert assets call.input call.integrationId call.id call.now).find? key =
      some (call.written existing existing).val := by
  obtain ⟨input, integrationId, id, now, rfl⟩ := call
  refine Table.find?_upsert_self.trans ?_
  have hkey : ∀ existing, (upsertData existing input integrationId id now).externalKey =
      input.externalKey := fun _ => rfl
  simp only [hkey, hfind]
  cases existing with
  | none => rfl
  | some row => rfl

end UpsertCall

/-- `upsert`, as a find and a write of the whole row. -/
def assetWriteBack (key : String) :
    WriteBack (UpsertCall key) (AssetAt key) AssetColumn AssetColumn.Value where
  carried := AssetColumn.carried
  column := AssetColumn.column
  fallback := AssetColumn.fallback
  data := UpsertCall.written
  column_data := UpsertCall.column_written

/-- **Two upserts of one asset.**  Along a run of the statements of any upserts of a key,
every field that a committed request carried has a value that such a request carried, and
no commit puts an older value into a field that its request does not carry, precisely when
every upsert commits over a row that has, in the fields its request does not carry, the
values it has found. -/
theorem upsert_keepsFields_iff (key : String) (row : Option (AssetAt key))
    (es : List (WriteBack.Event (UpsertCall key))) :
    ((∀ w ∈ (assetWriteBack key).system.states { row := ⟨row, none⟩ } es,
          (assetWriteBack key).KeepsCarried w) ∧
        (assetWriteBack key).system.AllSteps (assetWriteBack key).LeavesOthers
          { row := ⟨row, none⟩ } es) ↔
      (assetWriteBack key).system.AllSteps (assetWriteBack key).Fresh
        { row := ⟨row, none⟩ } es :=
  (assetWriteBack key).keepsCarried_iff row es

/-- A discovery sync finds a repository of unknown criticality, its owner is told that it is
`tier0`, and the upsert of the sync makes it unknown again. -/
theorem sync_undoes_criticality :
    ¬ ∀ (key : String) (row : Option (AssetAt key))
      (es : List (WriteBack.Event (UpsertCall key))),
      ∀ w ∈ (assetWriteBack key).system.states { row := ⟨row, none⟩ } es,
        (assetWriteBack key).KeepsCarried w := by
  intro hall
  let row : AssetAt "github:acme/api" :=
    ⟨{ id := "a", kind := "repository", externalKey := "github:acme/api", name := "api"
       source := "github", lastSeenAt := 0 }, rfl⟩
  let sync : UpsertCall "github:acme/api" :=
    { input := { kind := "repository", externalKey := "github:acme/api", name := "api"
                 source := "github" }
      id := "b", now := 1, key_eq := rfl }
  let edit : UpsertCall "github:acme/api" :=
    { input := { kind := "repository", externalKey := "github:acme/api", name := "api"
                 source := "github", criticality := some "tier0" }
      id := "c", now := 1, key_eq := rfl }
  let es : List (WriteBack.Event (UpsertCall "github:acme/api")) :=
    [.start 0 sync, .find 0, .start 1 edit, .find 1, .write 1, .commit 1, .write 0, .commit 0]
  have hkeeps := hall "github:acme/api" (some row) es _ (System.run_mem_states _ _ es)
  obtain ⟨call, hmem, hcarried, hvalue⟩ := hkeeps .criticality ⟨edit, by
    show edit ∈ [sync, edit]
    simp, by
    show some "tier0" ≠ none
    simp⟩
  -- the sync carries no criticality, so the value would have to be that of the edit
  have hedit : call = edit := by
    rcases List.mem_cons.mp hmem with rfl | hmem
    · exact absurd rfl hcarried
    · exact List.mem_singleton.mp hmem
  rw [hedit] at hvalue
  have hunknown : some "unknown" = some "tier0" := hvalue
  simp at hunknown

end Assets
end Ctem
