import Mathlib.Data.List.Sort
import Mathlib.Data.Prod.Lex
import Mathlib.Data.String.Basic
import Ctem.Foundation.Base64Url
import Ctem.Foundation.IsoText
import Ctem.Foundation.JsonText
import Ctem.Orchestrator.ScanRequests

/-!
# The billing meter

`GET /v1/meters/scan-kicks`: the `scan_kicks` rows of an organisation in a window of time, in
pages.  A cursor is the instant and the event id of a page's last row, as base64 of a JSON text.
-/

namespace Ctem
namespace Orchestrator

open Foundation Contracts

/-! ## Rows and records -/

/-- The milliseconds before 1 January 1970. -/
def epochMillis : Nat := dayFromYear 1970 * millisPerDay

/-- The first instant whose year has five digits. -/
def maxInstant : Timestamp := dayFromYear 10000 * millisPerDay - epochMillis

/-- A UUID as a column of that type gives it. -/
def IsCanonicalUuid (s : String) : Prop :=
  isUuid s = true ∧ asciiLower s = s

/-- `ScanKickSource`. -/
def scanKickSources : List String :=
  ["manual", "api", "webhook", "ci", "schedule"]

/-- `scan_kicks`.  The ids are columns of type UUID, an instant is read and written with a year
of four digits, and the dispatcher parses a record before it inserts it. -/
structure KickTable where
  rows : Table ScanKickRow ScanKickRow.eventId
  uuids : ∀ r ∈ rows, IsCanonicalUuid r.eventId ∧ IsCanonicalUuid r.orgId ∧
    IsCanonicalUuid r.scanId
  sources : ∀ r ∈ rows, r.source ∈ scanKickSources
  instants : ∀ r ∈ rows, r.occurredAt < maxInstant

structure ScanKickMeterRecord where
  eventId : Uuid
  orgId : OrgId
  scanId : Uuid
  source : String
  scannerTypes : List ScannerType
  occurredAt : Timestamp

/-- The columns a page selects. -/
def ScanKickRow.record (row : ScanKickRow) : ScanKickMeterRecord where
  eventId := row.eventId
  orgId := row.orgId
  scanId := row.scanId
  source := row.source
  scannerTypes := row.scannerTypes
  occurredAt := row.occurredAt

/-- `ScanKickMeterRecord.parse`. -/
def ScanKickMeterRecord.parse (row : ScanKickRow) : Except String ScanKickMeterRecord :=
  if (isUuid row.eventId = true ∧ isUuid row.orgId = true ∧ isUuid row.scanId = true) ∧
      row.source ∈ scanKickSources then
    .ok row.record
  else .error "ZodError"

structure ScanKickMeterUsage where
  event : String := "scan.kick"
  total : Nat
  items : List ScanKickMeterRecord
  nextCursor : Option String

def emptyUsage : ScanKickMeterUsage where
  total := 0
  items := []
  nextCursor := none

/-- `SCAN_KICK_LIST_MAX_LIMIT`. -/
def scanKickListMaxLimit : Nat := 200

/-- The query as its schema leaves it; the bounds are time values. -/
structure ListScanKicksQuery where
  fromDate : Option Int := none
  toDate : Option Int := none
  source : Option String := none
  cursor : Option String := none
  limit : Nat := 50
  limit_range : 1 ≤ limit ∧ limit ≤ scanKickListMaxLimit := by decide

/-! ## Cursors -/

/-- What a cursor names; the instant is a time value, if it is one. -/
structure ScanKickCursorPoint where
  occurredAt : Option Int
  eventId : String

/-- `date.toISOString()`. -/
def toISOString (t : Timestamp) : String :=
  String.ofList (isoText (CivilTime.ofMillis (t + epochMillis)))

/-- `new Date(text)` of a text with a date, a time and an offset. -/
def timeValue (d : IsoDatetime) : Option Int :=
  let millis : Int := d.civil.toMillis - epochMillis
  match d.offset with
  | none => some millis
  | some offset =>
      let distance : Int := (offset.hours * 60 + offset.minutes) * 60000
      if offset.hours < 24 ∧ offset.minutes < 60 then
        some (if offset.east then millis - distance else millis + distance)
      else none

def encodeScanKickCursor (row : ScanKickRow) : String :=
  Base64Url.encode (utf8Bytes (stringifyStrings
    [("occurredAt", toISOString row.occurredAt), ("eventId", row.eventId)]))

def invalidScanKickCursor : String := "Invalid scan kick cursor"

/-- `ScanKickCursor.safeParse`. -/
def readScanKickCursor (parsed : Json) : Option ScanKickCursorPoint := do
  let occurredAt ← (parsed.get? "occurredAt").bind Json.str?
  let eventId ← (parsed.get? "eventId").bind Json.str?
  let date ← readDatetime occurredAt.toList
  if isUuid eventId then pure { occurredAt := timeValue date, eventId := eventId } else none

def decodeScanKickCursor (cursor : String) : Except String ScanKickCursorPoint :=
  if utf16Length cursor > 512 then .error invalidScanKickCursor
  else
    match (parseJson (utf8Lossy (Base64Url.decode cursor))).bind readScanKickCursor with
    | some point => .ok point
    | none => .error invalidScanKickCursor

/-! ## The filters -/

/-- `SCAN_KICK_DEFAULT_WINDOW_MS`. -/
def scanKickDefaultWindowMs : Nat := 30 * 24 * 60 * 60 * 1000

structure ScanKickBounds where
  fromDate : Option Int
  toDate : Option Int
  source : Option String
  cursor : Option ScanKickCursorPoint
  limit : Nat

def resolveScanKickBounds (query : ListScanKicksQuery) (now : Int) :
    Except String ScanKickBounds := do
  let cursor ←
    match nonEmpty query.cursor with
    | some cursor => (decodeScanKickCursor cursor).map some
    | none => pure none
  pure
    { fromDate :=
        if query.fromDate = none ∧ query.toDate = none then some (now - scanKickDefaultWindowMs)
        else query.fromDate
      toDate := query.toDate
      source := query.source
      cursor := cursor
      limit := query.limit }

/-- `scanKickCountWhere`. -/
def scanKickCountWhere (bounds : ScanKickBounds) (row : ScanKickRow) : Bool :=
  (bounds.fromDate.all fun d => decide (d ≤ (row.occurredAt : Int))) &&
    ((bounds.toDate.all fun d => decide ((row.occurredAt : Int) < d)) &&
      (nonEmpty bounds.source).all fun source => decide (row.source = source))

/-- `scanKickPageWhere`.  An event id is compared as a UUID. -/
def scanKickPageWhere (bounds : ScanKickBounds) (row : ScanKickRow) : Bool :=
  scanKickCountWhere bounds row &&
    bounds.cursor.all fun point => point.occurredAt.any fun occurredAt =>
      decide ((row.occurredAt : Int) < occurredAt) ||
        (decide ((row.occurredAt : Int) = occurredAt) &&
          decide (row.eventId < asciiLower point.eventId))

/-! ## The page -/

/-- What the rows are ordered by. -/
def kickKey (row : ScanKickRow) : Int ×ₗ String :=
  toLex ((row.occurredAt : Int), row.eventId)

/-- `orderBy: [{ occurredAt: 'desc' }, { eventId: 'desc' }]`. -/
def orderedKicks (rows : List ScanKickRow) : List ScanKickRow :=
  rows.insertionSort fun a b => kickKey b ≤ kickKey a

/-- `tx.scanKick.findMany`; a date that is none is refused. -/
def findKicks (visible : List ScanKickRow) (bounds : ScanKickBounds) (take : Nat) :
    Except String (List ScanKickRow) :=
  if bounds.cursor.any fun point => point.occurredAt.isNone then
    .error "PrismaClientValidationError"
  else .ok (((orderedKicks visible).filter (scanKickPageWhere bounds)).take take)

/-- Both bounds are set, and leave nothing between them. -/
def ScanKickBounds.isEmpty (bounds : ScanKickBounds) : Bool :=
  match bounds.fromDate, bounds.toDate with
  | some fromDate, some toDate => decide (toDate ≤ fromDate)
  | _, _ => false

/-- `list`.  Row security shows the transaction the rows of its organisation. -/
def listScanKicks (table : KickTable) (orgId : OrgId) (query : ListScanKicksQuery) (now : Int) :
    Except String ScanKickMeterUsage := do
  let bounds ← resolveScanKickBounds query now
  if bounds.isEmpty then pure emptyUsage
  else
    let visible := table.rows.rows.filter fun r => decide (r.orgId = orgId)
    let total := visible.countP (scanKickCountWhere bounds)
    let rows ← findKicks visible bounds (bounds.limit + 1)
    let hasMore := decide (rows.length > bounds.limit)
    let page := if hasMore then rows.take bounds.limit else rows
    let items ← page.mapM ScanKickMeterRecord.parse
    pure
      { total := total
        items := items
        nextCursor := if hasMore then page.getLast?.map encodeScanKickCursor else none }

end Orchestrator
end Ctem
