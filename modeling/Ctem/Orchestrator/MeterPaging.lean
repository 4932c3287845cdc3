import Ctem.Foundation.Keyset
import Ctem.Foundation.PathText
import Ctem.Orchestrator.ScanKickMeter

/-!
# Paging the billing meter

A reader of the meter asks for a page, and then for the page behind the cursor that the last one
named.  `decode_encodeScanKickCursor` says that a cursor names the row it was made of;
`meter_paging_exact` that the reader meets every row of the window once, in order.
-/

namespace Ctem
namespace Orchestrator

open Foundation Contracts

/-! ## The text of a cursor -/

/-- Neither a quote nor a backslash, and in ASCII. -/
theorem plain_ascii {c : Char} (h : 0x23 ≤ c.toNat ∧ c.toNat < 0x80) (hslash : c.toNat ≠ 0x5C) :
    IsPlain c ∧ c.toNat < 0x80 := by
  refine ⟨⟨by omega, ?_, ?_⟩, h.2⟩
  · rintro rfl
    exact absurd h.1 (by decide)
  · rintro rfl
    exact hslash rfl

theorem plain_of_isHexDigit {c : Char} (h : isHexDigit c = true) : IsPlain c ∧ c.toNat < 0x80 := by
  unfold isHexDigit Char.isDigit at h
  simp only [Bool.or_eq_true, Bool.and_eq_true, decide_eq_true_eq, ge_iff_le,
    Char.le_def, UInt32.le_iff_toNat_le] at h
  have hval : c.val.toNat = c.toNat := rfl
  rw [hval] at h
  have hbounds : (0x30 ≤ c.toNat ∧ c.toNat ≤ 0x39) ∨ (0x61 ≤ c.toNat ∧ c.toNat ≤ 0x66) ∨
      (0x41 ≤ c.toNat ∧ c.toNat ≤ 0x46) := by
    rcases h with (h | h) | h
    · exact Or.inl h
    · exact Or.inr (Or.inl h)
    · exact Or.inr (Or.inr h)
  exact plain_ascii (by omega) (by omega)

theorem plain_toISOString (t : Timestamp) :
    ∀ c ∈ (toISOString t).toList, IsPlain c ∧ c.toNat < 0x80 := by
  intro c hc
  unfold toISOString at hc
  rw [String.toList_ofList] at hc
  rcases mem_isoText hc with hdigit | hmark
  · exact plain_of_isHexDigit (by rw [isHexDigit, hdigit]; rfl)
  · have hall : ['+', '-', 'T', ':', '.', 'Z'].all
        (fun x => decide ((0x23 ≤ x.toNat ∧ x.toNat < 0x80) ∧ x.toNat ≠ 0x5C)) = true := by decide
    have hbounds := of_decide_eq_true (List.all_eq_true.mp hall c hmark)
    exact plain_ascii hbounds.1 hbounds.2

theorem plain_uuid {s : String} (h : isUuid s = true) :
    ∀ c ∈ s.toList, IsPlain c ∧ c.toNat < 0x80 := by
  intro c hc
  have hgroups := (Bool.and_eq_true_iff.mp h).2
  rcases mem_splitOn '-' hc with rfl | ⟨group, hgroup, hmem⟩
  · exact plain_ascii (by decide) (by decide)
  · have hgroup := List.all_eq_true.mp hgroups group hgroup
    exact plain_of_isHexDigit (List.all_eq_true.mp hgroup c hmem)

theorem length_uuid {s : String} (h : isUuid s = true) : s.toList.length = 36 := by
  have hlengths := of_decide_eq_true (Bool.and_eq_true_iff.mp h).1
  have htotal := length_splitOn '-' s.toList
  have hcount := congrArg List.length hlengths
  rw [List.length_map] at hcount
  rw [hlengths, hcount] at htotal
  simp only [List.sum_cons, List.sum_nil, List.length_cons, List.length_nil] at htotal
  omega

/-- An instant before the year 10000. -/
theorem year_lt {t : Timestamp} (h : t < maxInstant) :
    (CivilTime.ofMillis (t + epochMillis)).year < 10000 := by
  exact CivilTime.year_ofMillis_lt (Nat.add_lt_of_lt_sub h)

theorem utf16Length_ascii {s : String} (hascii : ∀ c ∈ s.toList, c.toNat < 0x80) :
    utf16Length s = s.toList.length := by
  unfold utf16Length utf16Units
  generalize s.toList = cs at hascii
  induction cs with
  | nil => rfl
  | cons c cs ih =>
      have hc : c.toNat < 0x80 := hascii c List.mem_cons_self
      rw [List.flatMap_cons, if_pos (by omega), List.singleton_append, List.length_cons,
        List.length_cons, ih fun c' hc' => hascii c' (List.mem_cons_of_mem c hc')]

theorem cursorText_toList {occurredAt eventId : String}
    (hdate : ∀ c ∈ occurredAt.toList, IsPlain c) (hid : ∀ c ∈ eventId.toList, IsPlain c) :
    (stringifyStrings [("occurredAt", occurredAt), ("eventId", eventId)]).toList =
      "\x7b\x22occurredAt\x22:\x22".toList ++ occurredAt.toList ++
        "\x22,\x22eventId\x22:\x22".toList ++ eventId.toList ++ "\x22\x7d".toList := by
  have hfirst : quoted "occurredAt" = "\x22occurredAt\x22".toList := by decide
  have hsecond : quoted "eventId" = "\x22eventId\x22".toList := by decide
  unfold stringifyStrings
  rw [String.toList_ofList]
  simp only [membersText, memberText]
  rw [hfirst, hsecond, quoted_plain hdate, quoted_plain hid]
  simp

/-- A cursor's object with a date-time and a UUID is read. -/
theorem readScanKickCursor_obj {occurredAt eventId : String} {date : IsoDatetime}
    (hdate : readDatetime occurredAt.toList = some date) (hid : isUuid eventId = true) :
    readScanKickCursor (.obj [("occurredAt", .str occurredAt), ("eventId", .str eventId)]) =
      some { occurredAt := timeValue date, eventId := eventId } := by
  have hfirst : Json.get? (.obj [("occurredAt", .str occurredAt), ("eventId", .str eventId)])
      "occurredAt" = some (.str occurredAt) := rfl
  have hsecond : Json.get? (.obj [("occurredAt", .str occurredAt), ("eventId", .str eventId)])
      "eventId" = some (.str eventId) := rfl
  unfold readScanKickCursor
  rw [hfirst, hsecond]
  simp only [Option.bind_eq_bind, Option.bind_some, Json.str?_str]
  rw [hdate, Option.bind_some, if_pos hid, Option.pure_def]

/-- The text that a cursor is made of. -/
def cursorText (row : ScanKickRow) : String :=
  stringifyStrings [("occurredAt", toISOString row.occurredAt), ("eventId", row.eventId)]

section Cursor

variable {row : ScanKickRow} (hinstant : row.occurredAt < maxInstant)
  (hid : isUuid row.eventId = true)

include hid in
theorem cursorText_eq : (cursorText row).toList =
    "\x7b\x22occurredAt\x22:\x22".toList ++ (toISOString row.occurredAt).toList ++
      "\x22,\x22eventId\x22:\x22".toList ++ row.eventId.toList ++ "\x22\x7d".toList :=
  cursorText_toList (fun c hc => (plain_toISOString row.occurredAt c hc).1)
    fun c hc => (plain_uuid hid c hc).1

include hid in
theorem ascii_cursorText : ∀ c ∈ (cursorText row).toList, c.toNat < 0x80 := by
  have hall : ("\x7b\x22occurredAt\x22:\x22".toList ++ "\x22,\x22eventId\x22:\x22".toList ++
      "\x22\x7d".toList).all (fun c => decide (c.toNat < 0x80)) = true := by decide
  have hfixed : ∀ c ∈ "\x7b\x22occurredAt\x22:\x22".toList ++
      "\x22,\x22eventId\x22:\x22".toList ++ "\x22\x7d".toList, c.toNat < 0x80 :=
    fun c hc => of_decide_eq_true (List.all_eq_true.mp hall c hc)
  rw [cursorText_eq hid]
  simp only [List.mem_append] at hfixed ⊢
  rintro c ((((hc | hc) | hc) | hc) | hc)
  · exact hfixed c (Or.inl (Or.inl hc))
  · exact (plain_toISOString row.occurredAt c hc).2
  · exact hfixed c (Or.inl (Or.inr hc))
  · exact (plain_uuid hid c hc).2
  · exact hfixed c (Or.inr hc)

include hinstant hid in
theorem length_cursorText : (cursorText row).toList.length = 90 := by
  have hdate : (toISOString row.occurredAt).toList.length = 24 := by
    unfold toISOString
    rw [String.toList_ofList]
    exact length_isoText (year_lt hinstant)
  have hfixed : "\x7b\x22occurredAt\x22:\x22".toList.length = 15 ∧
      "\x22,\x22eventId\x22:\x22".toList.length = 13 ∧ "\x22\x7d".toList.length = 2 := by decide
  rw [cursorText_eq hid]
  simp only [List.length_append]
  rw [hdate, length_uuid hid, hfixed.1, hfixed.2.1, hfixed.2.2]

include hinstant hid in
/-- A cursor is short enough to be read. -/
theorem utf16Length_encode_le :
    utf16Length (Base64Url.encode (utf8Bytes (cursorText row))) ≤ 512 := by
  have hbytes := Base64Url.length_encode_le (utf8Bytes (cursorText row))
  rw [length_utf8Bytes (ascii_cursorText hid), length_cursorText hinstant hid] at hbytes
  rw [utf16Length_ascii (Base64Url.ascii_encode _)]
  omega

include hinstant in
theorem readDatetime_toISOString : readDatetime (toISOString row.occurredAt).toList =
    some { civil := CivilTime.ofMillis (row.occurredAt + epochMillis) } := by
  unfold toISOString
  rw [String.toList_ofList]
  exact readDatetime_isoText (year_lt hinstant)

theorem timeValue_ofMillis (t : Timestamp) :
    timeValue { civil := CivilTime.ofMillis (t + epochMillis) } = some (t : Int) := by
  have hvalue : ∀ c : CivilTime,
      timeValue { civil := c } = some ((c.toMillis : Int) - (epochMillis : Int)) := fun _ => rfl
  have hcancel : ∀ a b : Nat, ((a + b : Nat) : Int) - (b : Int) = a := fun a b => by omega
  rw [hvalue, CivilTime.toMillis_ofMillis]
  exact congrArg some (hcancel t epochMillis)

include hinstant hid in
/-- **A cursor names its row.** -/
theorem decode_encodeScanKickCursor :
    decodeScanKickCursor (encodeScanKickCursor row) =
      .ok { occurredAt := some (row.occurredAt : Int), eventId := row.eventId } := by
  have hencode : encodeScanKickCursor row = Base64Url.encode (utf8Bytes (cursorText row)) := rfl
  have hread : (parseJson (cursorText row)).bind readScanKickCursor =
      some { occurredAt := some (row.occurredAt : Int), eventId := row.eventId } := by
    unfold cursorText
    rw [parseJson_stringifyStrings (List.cons_ne_nil _ _), Option.bind_some]
    refine (readScanKickCursor_obj (readDatetime_toISOString hinstant) hid).trans ?_
    rw [timeValue_ofMillis]
  unfold decodeScanKickCursor
  rw [hencode, if_neg (Nat.not_lt.mpr (utf16Length_encode_le hinstant hid)),
    Base64Url.decode_encode, utf8Lossy_utf8Bytes (ascii_cursorText hid), hread]

end Cursor

/-! ## The rows of a window -/

/-- The rows that a query without a cursor counts. -/
def InWindow (query : ListScanKicksQuery) (row : ScanKickRow) : Prop :=
  (∀ d, query.fromDate = some d → d ≤ (row.occurredAt : Int)) ∧
    (∀ d, query.toDate = some d → (row.occurredAt : Int) < d) ∧
      ∀ source, nonEmpty query.source = some source → row.source = source

/-- The bounds of a query with an explicit window. -/
def explicitBounds (query : ListScanKicksQuery) (cursor : Option ScanKickCursorPoint) :
    ScanKickBounds where
  fromDate := query.fromDate
  toDate := query.toDate
  source := query.source
  cursor := cursor
  limit := query.limit

/-- The point a row's cursor names. -/
def ScanKickRow.point (row : ScanKickRow) : ScanKickCursorPoint where
  occurredAt := some (row.occurredAt : Int)
  eventId := row.eventId

theorem scanKickCountWhere_iff (query : ListScanKicksQuery) (cursor : Option ScanKickCursorPoint)
    (row : ScanKickRow) :
    scanKickCountWhere (explicitBounds query cursor) row = true ↔ InWindow query row := by
  unfold scanKickCountWhere InWindow explicitBounds
  simp only [Bool.and_eq_true, Option.all_eq_true, decide_eq_true_eq]

/-- Nothing lies between bounds that leave nothing. -/
theorem not_countWhere_of_isEmpty {query : ListScanKicksQuery}
    {cursor : Option ScanKickCursorPoint} (h : (explicitBounds query cursor).isEmpty = true)
    (row : ScanKickRow) : scanKickCountWhere (explicitBounds query cursor) row = false := by
  rw [← Bool.not_eq_true, scanKickCountWhere_iff]
  rintro ⟨hfrom, hto, -⟩
  unfold ScanKickBounds.isEmpty explicitBounds at h
  cases hfromDate : query.fromDate with
  | none =>
      rw [hfromDate] at h
      cases h
  | some fromDate =>
      cases htoDate : query.toDate with
      | none =>
          rw [hfromDate, htoDate] at h
          cases h
      | some toDate =>
          rw [hfromDate, htoDate] at h
          have hbefore := hfrom fromDate hfromDate
          have hafter := hto toDate htoDate
          have hle : toDate ≤ fromDate := of_decide_eq_true h
          omega

theorem kickKey_lt_iff {r row : ScanKickRow} :
    kickKey r < kickKey row ↔ (r.occurredAt : Int) < row.occurredAt ∨
      (r.occurredAt : Int) = row.occurredAt ∧ r.eventId < row.eventId := by
  unfold kickKey
  exact Prod.Lex.toLex_lt_toLex

/-- The rows behind a row's cursor are those whose key is below the row's. -/
theorem filter_pageWhere (query : ListScanKicksQuery) {row : ScanKickRow}
    (hid : asciiLower row.eventId = row.eventId) (rows : List ScanKickRow) :
    rows.filter (scanKickPageWhere (explicitBounds query (some row.point))) =
      rowsBehind kickKey (rows.filter (scanKickCountWhere (explicitBounds query none)))
        (kickKey row) := by
  unfold rowsBehind
  rw [List.filter_filter]
  refine List.filter_congr fun r _ => ?_
  have hcount : scanKickCountWhere (explicitBounds query (some row.point)) r =
      scanKickCountWhere (explicitBounds query none) r := rfl
  unfold scanKickPageWhere
  rw [hcount, Bool.and_comm]
  congr 1
  simp only [explicitBounds, ScanKickRow.point, Option.all_some, Option.any_some, hid]
  rw [Bool.eq_iff_iff, decide_eq_true_iff, kickKey_lt_iff]
  simp only [Bool.or_eq_true, Bool.and_eq_true, decide_eq_true_eq]

section Page

variable (table : KickTable) (orgId : OrgId)

/-- The rows an organisation sees. -/
def visibleKicks : List ScanKickRow :=
  table.rows.rows.filter fun r => decide (r.orgId = orgId)

/-- The rows of a window, in order. -/
def windowKicks (query : ListScanKicksQuery) : List ScanKickRow :=
  (orderedKicks (visibleKicks table orgId)).filter (scanKickCountWhere (explicitBounds query none))

variable {table orgId}

theorem mem_orderedKicks {row : ScanKickRow} :
    row ∈ orderedKicks (visibleKicks table orgId) ↔ row ∈ table.rows ∧ row.orgId = orgId := by
  unfold orderedKicks visibleKicks
  rw [List.mem_insertionSort, List.mem_filter, decide_eq_true_eq]
  rfl

theorem mem_windowKicks {query : ListScanKicksQuery} {row : ScanKickRow} :
    row ∈ windowKicks table orgId query ↔
      row ∈ table.rows ∧ row.orgId = orgId ∧ InWindow query row := by
  unfold windowKicks
  rw [List.mem_filter, mem_orderedKicks, scanKickCountWhere_iff, and_assoc]

/-- No two rows have one key. -/
theorem descending_windowKicks (query : ListScanKicksQuery) :
    Descending kickKey (windowKicks table orgId query) := by
  have hnodup : ((orderedKicks (visibleKicks table orgId)).map ScanKickRow.eventId).Nodup := by
    have hperm := (List.perm_insertionSort (fun a b => kickKey b ≤ kickKey a)
      (visibleKicks table orgId)).map ScanKickRow.eventId
    exact hperm.nodup_iff.mpr (table.rows.nodup.sublist (List.filter_sublist.map _))
  have hordered : (orderedKicks (visibleKicks table orgId)).Pairwise
      fun a b => kickKey b ≤ kickKey a := by
    have htotal : Std.Total fun a b : ScanKickRow => kickKey b ≤ kickKey a :=
      ⟨fun a b => le_total (kickKey b) (kickKey a)⟩
    have htrans : IsTrans ScanKickRow fun a b => kickKey b ≤ kickKey a :=
      ⟨fun a b c hab hbc => le_trans hbc hab⟩
    exact List.pairwise_insertionSort _ _
  have hstrict : Descending kickKey (orderedKicks (visibleKicks table orgId)) := by
    refine (hordered.and (List.pairwise_map.mp hnodup)).imp ?_
    rintro a b ⟨hle, hne⟩
    refine lt_of_le_of_ne hle fun hkey => hne ?_
    exact (congrArg (fun k => (ofLex k).2) hkey).symm
  exact List.Pairwise.filter _ hstrict

/-- The rows of the table are records. -/
theorem mapM_parse {rows : List ScanKickRow} (hrows : ∀ r ∈ rows, r ∈ table.rows) :
    rows.mapM ScanKickMeterRecord.parse = .ok (rows.map ScanKickRow.record) := by
  rw [mapM_eq_ok_iff, List.forall₂_map_right_iff, List.forall₂_same]
  intro r hr
  have huuids := table.uuids r (hrows r hr)
  exact if_pos ⟨⟨huuids.1.1, huuids.2.1.1, huuids.2.2.1⟩, table.sources r (hrows r hr)⟩

variable (table orgId) in
/-- **One page.**  A request whose cursor, if any, is a date has the first of the rows that its
filter leaves, and the cursor of the last of them if there are more. -/
theorem listScanKicks_isPage {query : ListScanKicksQuery} {now : Int}
    {cursor : Option ScanKickCursorPoint}
    (hresolve : resolveScanKickBounds query now = .ok (explicitBounds query cursor))
    (hcursor : (cursor.any fun point => point.occurredAt.isNone) = false) :
    ∃ page, listScanKicks table orgId query now = .ok page ∧
      IsPage ScanKickMeterUsage.items ScanKickMeterUsage.nextCursor ScanKickRow.record
        encodeScanKickCursor query.limit
        ((orderedKicks (visibleKicks table orgId)).filter
          (scanKickPageWhere (explicitBounds query cursor))) page := by
  generalize hremaining : (orderedKicks (visibleKicks table orgId)).filter
    (scanKickPageWhere (explicitBounds query cursor)) = remaining
  unfold listScanKicks
  rw [hresolve]
  simp only [bind, Except.bind, pure, Except.pure]
  split
  next hempty =>
    have hnone : remaining = [] := by
      rw [← hremaining, List.filter_eq_nil_iff]
      intro r _
      unfold scanKickPageWhere
      rw [not_countWhere_of_isEmpty hempty r, Bool.false_and]
      exact Bool.false_ne_true
    subst hnone
    refine ⟨emptyUsage, rfl, ?_, ?_⟩
    · rw [List.take_nil]
      rfl
    · exact (if_neg (Nat.not_lt_zero query.limit)).symm
  next =>
    have hfind : findKicks (table.rows.rows.filter fun r => decide (r.orgId = orgId))
        (explicitBounds query cursor) (query.limit + 1) =
          .ok (remaining.take (query.limit + 1)) := by
      unfold findKicks
      rw [← hremaining]
      exact if_neg (Bool.not_eq_true _ ▸ hcursor)
    have hlimit : (explicitBounds query cursor).limit = query.limit := rfl
    -- one row more than the page has is read, to see whether there is one
    have hmore : decide ((remaining.take (query.limit + 1)).length > query.limit) =
        decide (query.limit < remaining.length) := by
      rw [decide_eq_decide, List.length_take]
      omega
    have hpage : (if decide (query.limit < remaining.length) = true then
        (remaining.take (query.limit + 1)).take query.limit
      else remaining.take (query.limit + 1)) = remaining.take query.limit := by
      split
      next => rw [List.take_take, Nat.min_eq_left (Nat.le_succ _)]
      next hlast =>
        have hle : remaining.length ≤ query.limit := by simpa using hlast
        rw [List.take_of_length_le hle, List.take_of_length_le (Nat.le_succ_of_le hle)]
    have hrows : ∀ r ∈ remaining.take query.limit, r ∈ table.rows := by
      intro r hr
      have hmem : r ∈ remaining := List.mem_of_mem_take hr
      rw [← hremaining] at hmem
      exact (mem_orderedKicks.mp (List.mem_of_mem_filter hmem)).1
    have hparse : (remaining.take query.limit).mapM ScanKickMeterRecord.parse =
        .ok ((remaining.take query.limit).map ScanKickRow.record) := mapM_parse hrows
    rw [hlimit, hfind]
    simp only
    rw [hmore, hpage, hparse]
    refine ⟨_, rfl, rfl, ?_⟩
    simp only [decide_eq_true_eq]

/-! ## The whole window -/

variable {query : ListScanKicksQuery} {now : Int}

theorem nonEmpty_encodeScanKickCursor {row : ScanKickRow} (hinstant : row.occurredAt < maxInstant)
    (hid : isUuid row.eventId = true) :
    nonEmpty (some (encodeScanKickCursor row)) = some (encodeScanKickCursor row) := by
  have hbytes : utf8Bytes (cursorText row) ≠ [] := by
    intro hempty
    have hlength := length_utf8Bytes (ascii_cursorText hid)
    rw [hempty, length_cursorText hinstant hid] at hlength
    cases hlength
  have hne : encodeScanKickCursor row ≠ "" := Base64Url.encode_ne_empty hbytes
  unfold nonEmpty
  rw [Option.filter_some, if_pos (decide_eq_true hne)]

/-- An explicit window is kept as it is. -/
theorem resolve_explicit (hwindow : query.fromDate ≠ none ∨ query.toDate ≠ none)
    {c : Option String} {cursor : Option ScanKickCursorPoint}
    (hcursor : (match nonEmpty c with
      | some text => (decodeScanKickCursor text).map some
      | none => pure none) = .ok cursor) :
    resolveScanKickBounds { query with cursor := c } now = .ok (explicitBounds query cursor) := by
  have hexplicit : ¬(query.fromDate = none ∧ query.toDate = none) := by
    rintro ⟨hfrom, hto⟩
    exact hwindow.elim (fun h => h hfrom) fun h => h hto
  unfold resolveScanKickBounds explicitBounds
  generalize (scanKickDefaultWindowMs : Int) = window
  rw [if_neg hexplicit]
  simp only
  cases hc : nonEmpty c with
  | none =>
      rw [hc] at hcursor
      cases hcursor
      rfl
  | some text =>
      rw [hc] at hcursor
      simp only at hcursor ⊢
      rw [hcursor]
      rfl

/-- The first page is one of the whole window. -/
theorem firstPage_isPage (now : Int) (hwindow : query.fromDate ≠ none ∨ query.toDate ≠ none) :
    ∃ page, listScanKicks table orgId { query with cursor := none } now = .ok page ∧
      IsPage ScanKickMeterUsage.items ScanKickMeterUsage.nextCursor ScanKickRow.record
        encodeScanKickCursor query.limit (windowKicks table orgId query) page := by
  have hresolve : resolveScanKickBounds { query with cursor := none } now =
      .ok (explicitBounds query none) := resolve_explicit hwindow rfl
  have hall : (orderedKicks (visibleKicks table orgId)).filter
      (scanKickPageWhere (explicitBounds query none)) = windowKicks table orgId query := by
    refine List.filter_congr fun r _ => ?_
    exact Bool.and_true _
  have hpage := listScanKicks_isPage table orgId hresolve rfl
  rw [← hall]
  exact hpage

/-- The page of a row's cursor is one of the rows behind it. -/
theorem nextPage_isPage (now : Int) (hwindow : query.fromDate ≠ none ∨ query.toDate ≠ none)
    {row : ScanKickRow} (hrow : row ∈ table.rows) :
    ∃ page, listScanKicks table orgId
        { query with cursor := some (encodeScanKickCursor row) } now = .ok page ∧
      IsPage ScanKickMeterUsage.items ScanKickMeterUsage.nextCursor ScanKickRow.record
        encodeScanKickCursor query.limit
        (rowsBehind kickKey (windowKicks table orgId query) (kickKey row)) page := by
  have hinstant := table.instants row hrow
  have hid := (table.uuids row hrow).1
  have hresolve : resolveScanKickBounds
      { query with cursor := some (encodeScanKickCursor row) } now =
        .ok (explicitBounds query (some row.point)) := by
    refine resolve_explicit hwindow ?_
    rw [nonEmpty_encodeScanKickCursor hinstant hid.1]
    simp only
    rw [decode_encodeScanKickCursor hinstant hid.1]
    rfl
  have hpage := listScanKicks_isPage table orgId hresolve rfl
  unfold windowKicks
  rw [← filter_pageWhere query hid.2]
  exact hpage

/-- **Paging the meter is exact.**  From a request without a cursor on, a reader of an explicit
window meets every row of it once, newest first and by event id where instants agree, and only
the last page names no next cursor; what a cursor says is the row it was made of. -/
theorem meter_paging_exact (table : KickTable) (orgId : OrgId) (query : ListScanKicksQuery)
    (clock : Option String → Int) (hwindow : query.fromDate ≠ none ∨ query.toDate ≠ none) :
    ∃ (pages : List ScanKickMeterUsage) (kicks : List ScanKickRow),
      Follows (fun cursor => listScanKicks table orgId { query with cursor := cursor }
        (clock cursor)) ScanKickMeterUsage.nextCursor none pages ∧
      Descending kickKey kicks ∧
      (∀ r, r ∈ kicks ↔ r ∈ table.rows ∧ r.orgId = orgId ∧ InWindow query r) ∧
      pages.flatMap ScanKickMeterUsage.items = kicks.map ScanKickRow.record ∧
      (∀ before page after, pages = before ++ page :: after →
        (page.nextCursor = none ↔ after = [])) ∧
      ∀ r ∈ table.rows, decodeScanKickCursor (encodeScanKickCursor r) = .ok r.point := by
  have hdecode : ∀ r ∈ table.rows, decodeScanKickCursor (encodeScanKickCursor r) = .ok r.point :=
    fun r hr => decode_encodeScanKickCursor (table.instants r hr) (table.uuids r hr).1.1
  have hpages : ∃ pages, Follows (fun cursor => listScanKicks table orgId
      { query with cursor := cursor } (clock cursor)) ScanKickMeterUsage.nextCursor none pages ∧
      pages.flatMap ScanKickMeterUsage.items =
        (windowKicks table orgId query).map ScanKickRow.record :=
    exists_follows (descending_windowKicks query) query.limit_range.1
      (firstPage_isPage (clock none) hwindow)
      fun r hr => nextPage_isPage (clock _) hwindow (mem_windowKicks.mp hr).1
  obtain ⟨pages, hfollows, hitems⟩ := hpages
  refine ⟨pages, windowKicks table orgId query, hfollows, descending_windowKicks query,
    fun r => mem_windowKicks, hitems, ?_, hdecode⟩
  exact fun before page after hsplit => hfollows.next_eq_none_iff hsplit

end Page

/-- Two scans of one organisation that were kicked at one instant. -/
def twinKickRows : List ScanKickRow :=
  [{ eventId := "00000000-0000-4000-8000-000000000001"
     orgId := "00000000-0000-4000-8000-00000000000a"
     scanId := "00000000-0000-4000-8000-000000000001", source := "api", occurredAt := 3600000 },
   { eventId := "00000000-0000-4000-8000-000000000002"
     orgId := "00000000-0000-4000-8000-00000000000a"
     scanId := "00000000-0000-4000-8000-000000000002", source := "ci", occurredAt := 3600000 }]

def twinKicks : KickTable where
  rows := { rows := twinKickRows, nodup := by decide }
  uuids := by
    unfold IsCanonicalUuid
    exact (by decide +kernel : ∀ r ∈ twinKickRows,
      (isUuid r.eventId = true ∧ asciiLower r.eventId = r.eventId) ∧
        (isUuid r.orgId = true ∧ asciiLower r.orgId = r.orgId) ∧
          isUuid r.scanId = true ∧ asciiLower r.scanId = r.scanId)
  sources := (by decide : ∀ r ∈ twinKickRows, r.source ∈ scanKickSources)
  instants := (by decide +kernel : ∀ r ∈ twinKickRows, r.occurredAt < maxInstant)

/-- Pages of one row show both. -/
theorem meter_paging_twins :
    ∃ (pages : List ScanKickMeterUsage) (kicks : List ScanKickRow),
      Follows (fun cursor => listScanKicks twinKicks "00000000-0000-4000-8000-00000000000a"
        { fromDate := some 0, limit := 1, cursor := cursor } 0) ScanKickMeterUsage.nextCursor none
        pages ∧
      pages.flatMap ScanKickMeterUsage.items = kicks.map ScanKickRow.record ∧
      kicks.Perm twinKickRows := by
  obtain ⟨pages, kicks, hfollows, hdesc, hmem, hitems, -⟩ := meter_paging_exact twinKicks
    "00000000-0000-4000-8000-00000000000a" { fromDate := some 0, limit := 1 } (fun _ => 0)
    (Or.inl (Option.some_ne_none 0))
  refine ⟨pages, kicks, hfollows, hitems, ?_⟩
  have hnodup : kicks.Nodup := hdesc.imp fun {a b} hlt heq => by
    rw [heq] at hlt
    exact lt_irrefl _ hlt
  have hwindow : ∀ r ∈ twinKickRows, r.orgId = "00000000-0000-4000-8000-00000000000a" ∧
      scanKickCountWhere (explicitBounds { fromDate := some 0, limit := 1 } none) r = true := by
    decide
  have hrows : twinKickRows.Nodup := List.Nodup.of_map _ twinKicks.rows.nodup
  rw [List.perm_ext_iff_of_nodup hnodup hrows]
  intro r
  rw [hmem, ← scanKickCountWhere_iff _ none]
  exact ⟨fun h => h.1, fun h => ⟨h, hwindow r h⟩⟩

end Orchestrator
end Ctem
