import Ctem.Contracts
import Ctem.Foundation.Runs
import Ctem.Foundation.Table
import Mathlib.Logic.Function.Basic

/-!
# What a discovery sweep archives

`syncIntegration` upserts every asset its connector yields, then archives what the
integration has not seen since the run began, then records the run.  Runs of several
integrations, and several runs of one, go on side by side; each step is a transaction of its
own, and a run may fail between any two of them.

* `upsert` and `archiveStale` are the two statements on the table, whose key is
  `externalKey`; the row keeps the integration that upserted it *last*.
* `DiscoveryWorld` is the table, the runs, and what the latest successful run of each
  integration yielded.
* `Swept` is the invariant: an archived row is none that a run in progress has yielded, and
  where an integration still counts it as seen, a run of it has just archived the row.
* `sweeps_archive_unreported`: discovery archives only what nobody reports, as long as no
  sweep takes a row that another run or integration reports, and no run fails after it.
-/

namespace Ctem
namespace Assets

open Foundation Contracts

/-- A row of `assets`, within one organisation. -/
structure DiscoveredAsset where
  id : Uuid
  kind : String
  externalKey : String
  name : String
  source : String
  exposure : String := "unknown"
  criticality : String := "unknown"
  dataClasses : List String := []
  ownerTeam : Option String := none
  ownerEmail : Option String := none
  tags : JsonObject := []
  attributes : JsonObject := []
  lastSeenAt : Timestamp
  archivedAt : Option Timestamp := none
  integrationId : Option Uuid := none

/-- `UpsertAssetRequest`: what a connector yields. -/
structure UpsertAssetRequest where
  kind : String
  externalKey : String
  name : String
  source : String
  exposure : Option String := none
  criticality : Option String := none
  dataClasses : Option (List String) := none
  ownerTeam : Option String := none
  ownerEmail : Option String := none
  tags : Option JsonObject := none
  attributes : Option JsonObject := none

/-- `assets`, with `orgId_externalKey` as its unique index. -/
abbrev AssetTable := Table DiscoveredAsset DiscoveredAsset.externalKey

/-- The `data` of an upsert: what the request leaves out keeps its column, or gets the
default. -/
def upsertData (existing : Option DiscoveredAsset) (input : UpsertAssetRequest)
    (integrationId : Option Uuid) (id : Uuid) (now : Timestamp) : DiscoveredAsset where
  id := id
  kind := input.kind
  externalKey := input.externalKey
  name := input.name
  source := input.source
  exposure := (input.exposure.or (existing.map DiscoveredAsset.exposure)).getD "unknown"
  criticality := (input.criticality.or (existing.map DiscoveredAsset.criticality)).getD "unknown"
  dataClasses := (input.dataClasses.or (existing.map DiscoveredAsset.dataClasses)).getD []
  ownerTeam := input.ownerTeam.or (existing.bind DiscoveredAsset.ownerTeam)
  ownerEmail := input.ownerEmail.or (existing.bind DiscoveredAsset.ownerEmail)
  tags := (input.tags.or (existing.map DiscoveredAsset.tags)).getD []
  attributes := (input.attributes.or (existing.map DiscoveredAsset.attributes)).getD []
  lastSeenAt := now
  archivedAt := none
  -- the last integration to report the key takes the row over
  integrationId := integrationId.or (existing.bind DiscoveredAsset.integrationId)

/-- `upsert`; `id` is what the database draws for a new row. -/
def upsert (assets : AssetTable) (input : UpsertAssetRequest) (integrationId : Option Uuid)
    (id : Uuid) (now : Timestamp) : AssetTable :=
  let data := upsertData (assets.find? input.externalKey) input integrationId id now
  assets.upsert data (fun row => { data with id := row.id, externalKey := row.externalKey })
    (fun _ => rfl)

/-- The `where` of `archiveStale`. -/
def stale (source : String) (seenBefore : Timestamp) (integrationId : Uuid)
    (row : DiscoveredAsset) : Bool :=
  decide (row.source = source) && decide (row.integrationId = some integrationId) &&
    decide (row.lastSeenAt < seenBefore) && row.archivedAt.isNone

/-- `archiveStale`. -/
def archiveStale (assets : AssetTable) (source : String) (seenBefore : Timestamp)
    (integrationId : Uuid) (now : Timestamp) : AssetTable :=
  assets.updateMany (stale source seenBefore integrationId)
    (fun row => { row with archivedAt := some now }) (fun _ => rfl)

/-- The keys of the archived rows after an upsert were archived before, and are not the
upserted one. -/
theorem archived_upsert {assets : AssetTable} {input : UpsertAssetRequest}
    {integrationId : Option Uuid} {id : Uuid} {now : Timestamp} {row : DiscoveredAsset}
    (hrow : row ∈ upsert assets input integrationId id now) (harchived : row.archivedAt ≠ none) :
    row ∈ assets ∧ row.externalKey ≠ input.externalKey := by
  rcases Table.mem_upsert.mp hrow with ⟨hmem, hkey⟩ | ⟨row₀, -, -, rfl⟩ | ⟨-, rfl⟩
  · exact ⟨hmem, hkey⟩
  · exact absurd rfl harchived
  · exact absurd rfl harchived

/-- A row that is archived after a sweep was archived before, or the sweep selected it. -/
theorem archived_archiveStale {assets : AssetTable} {source : String} {seenBefore : Timestamp}
    {integrationId : Uuid} {now : Timestamp} {row : DiscoveredAsset}
    (hrow : row ∈ archiveStale assets source seenBefore integrationId now)
    (harchived : row.archivedAt ≠ none) :
    (∃ row₀ ∈ assets, row₀.externalKey = row.externalKey ∧ row₀.archivedAt ≠ none) ∨
      ∃ row₀ ∈ assets, row₀.externalKey = row.externalKey ∧
        stale source seenBefore integrationId row₀ = true := by
  obtain ⟨row₀, hmem, rfl⟩ := Table.mem_updateMany.mp hrow
  by_cases hstale : stale source seenBefore integrationId row₀ = true
  · refine Or.inr ⟨row₀, hmem, ?_, hstale⟩
    rw [if_pos hstale]
  · rw [if_neg hstale] at harchived ⊢
    exact Or.inl ⟨row₀, hmem, rfl, harchived⟩

/-! ## Runs of `syncIntegration` -/

/-- How far a run is. -/
inductive SyncPhase where
  /-- The connector still yields assets. -/
  | discovering
  /-- `archiveStale` has committed; the integration's row is still to be written. -/
  | archivedStale
  /-- It has returned without an error. -/
  | succeeded
  /-- It has returned an error, or its process has stopped. -/
  | failed
deriving DecidableEq, Repr

/-- The run has not returned. -/
def SyncPhase.inProgress : SyncPhase → Bool
  | .discovering => true
  | .archivedStale => true
  | .succeeded => false
  | .failed => false

/-- A run of `syncIntegration`, with what it has yielded and archived so far. -/
structure SyncRun where
  integrationId : Uuid
  provider : String
  /-- `syncStartedAt`. -/
  startedAt : Timestamp
  phase : SyncPhase := .discovering
  yielded : List String := []
  /-- The keys of the rows that `archiveStale` archived. -/
  archived : List String := []
  /-- The keys it yielded whose rows were archived when it succeeded. -/
  lost : List String := []

/-- A run that failed has archived nothing, one that succeeded has lost nothing it yielded. -/
structure SyncRun.Clean (run : SyncRun) : Prop where
  failed : run.phase = .failed → run.archived = []
  succeeded : run.phase = .succeeded → run.lost = []

/-- The inventory of one organisation and the runs over it. -/
structure DiscoveryWorld where
  assets : AssetTable := Table.empty
  runs : Nat → Option SyncRun := fun _ => none
  /-- What the latest successful run of an integration yielded. -/
  latest : Uuid → Option (List String) := fun _ => none

inductive DiscoveryEvent where
  /-- `syncIntegration` is called for an enabled integration. -/
  | start (id : Nat) (integrationId : Uuid) (provider : String) (now : Timestamp)
  /-- The connector yields an asset, which is upserted. -/
  | yield (id : Nat) (input : UpsertAssetRequest) (assetId : Uuid) (now : Timestamp)
  /-- The connector is done; `archiveStale` commits. -/
  | sweep (id : Nat) (now : Timestamp)
  /-- `lastSyncAt` is written, and the run returns. -/
  | succeed (id : Nat)
  /-- Anything in it throws, or its process stops. -/
  | fail (id : Nat)

namespace DiscoveryWorld

/-- The run becomes `run`. -/
def setRun (w : DiscoveryWorld) (id : Nat) (run : SyncRun) : DiscoveryWorld :=
  { w with runs := Function.update w.runs id (some run) }

/-- The keys of the rows that the sweep of a run selects. -/
def staleKeys (w : DiscoveryWorld) (run : SyncRun) : List String :=
  (w.assets.rows.filter (stale run.provider run.startedAt run.integrationId)).map
    DiscoveredAsset.externalKey

/-- The row of the key is archived. -/
def isArchived (w : DiscoveryWorld) (key : String) : Bool :=
  w.assets.rows.any fun row => decide (row.externalKey = key) && row.archivedAt.isSome

def start (w : DiscoveryWorld) (id : Nat) (integrationId : Uuid) (provider : String)
    (now : Timestamp) : DiscoveryWorld :=
  match w.runs id with
  | some _ => w
  | none => w.setRun id { integrationId := integrationId, provider := provider, startedAt := now }

/-- A pass of the `for await` of `syncIntegration`. -/
def yield (w : DiscoveryWorld) (id : Nat) (input : UpsertAssetRequest) (assetId : Uuid)
    (now : Timestamp) : DiscoveryWorld :=
  match w.runs id with
  | none => w
  | some run =>
      if run.phase = .discovering then
        { w with assets := upsert w.assets input (some run.integrationId) assetId now }.setRun id
          { run with yielded := run.yielded ++ [input.externalKey] }
      else w

def sweep (w : DiscoveryWorld) (id : Nat) (now : Timestamp) : DiscoveryWorld :=
  match w.runs id with
  | none => w
  | some run =>
      if run.phase = .discovering then
        { w with assets :=
            archiveStale w.assets run.provider run.startedAt run.integrationId now }.setRun id
          { run with phase := .archivedStale, archived := w.staleKeys run }
      else w

def succeed (w : DiscoveryWorld) (id : Nat) : DiscoveryWorld :=
  match w.runs id with
  | none => w
  | some run =>
      if run.phase = .archivedStale then
        { w with latest := Function.update w.latest run.integrationId (some run.yielded) }.setRun id
          { run with phase := .succeeded, lost := run.yielded.filter w.isArchived }
      else w

/-- The `catch` of `syncIntegration`: what is committed stays. -/
def fail (w : DiscoveryWorld) (id : Nat) : DiscoveryWorld :=
  match w.runs id with
  | none => w
  | some run =>
      if run.phase.inProgress then w.setRun id { run with phase := .failed } else w

def step (w : DiscoveryWorld) : DiscoveryEvent → DiscoveryWorld
  | .start id integrationId provider now => w.start id integrationId provider now
  | .yield id input assetId now => w.yield id input assetId now
  | .sweep id now => w.sweep id now
  | .succeed id => w.succeed id
  | .fail id => w.fail id

/-- The runs of all integrations: any event may come at any time. -/
def system : System DiscoveryWorld DiscoveryEvent where
  step := step
  allowed := fun _ _ => True

/-- No run is in progress. -/
def AtRest (w : DiscoveryWorld) : Prop :=
  ∀ id run, w.runs id = some run → run.phase.inProgress = false

/-- Discovery archives only what no integration reports. -/
structure ArchivesUnreported (w : DiscoveryWorld) : Prop where
  clean : ∀ id run, w.runs id = some run → run.Clean
  atRest : w.AtRest → ∀ row ∈ w.assets, row.archivedAt ≠ none →
    ∀ integrationId keys, w.latest integrationId = some keys → row.externalKey ∉ keys

/-- A sweep takes no row that a run in progress has yielded, nor one that the latest
successful run of another integration yielded; and no run fails once its sweep has archived
something. -/
def SweepsUnreported (w : DiscoveryWorld) : DiscoveryEvent → Prop
  | .sweep id _ => ∀ run, w.runs id = some run → run.phase = .discovering →
      ∀ key ∈ w.staleKeys run,
        (∀ id' run', w.runs id' = some run' → run'.phase.inProgress = true →
          key ∉ run'.yielded) ∧
        ∀ integrationId keys, integrationId ≠ run.integrationId →
          w.latest integrationId = some keys → key ∉ keys
  | .fail id => ∀ run, w.runs id = some run → run.phase.inProgress = true → run.archived = []
  | _ => True

/-! ## Archived rows are nobody's -/

/-- The invariant.  Between the sweep of a run and its end, its integration's latest
successful run still counts the rows it has just archived. -/
structure Swept (w : DiscoveryWorld) : Prop where
  unyielded : ∀ id run, w.runs id = some run → run.phase.inProgress = true →
    ∀ row ∈ w.assets, row.archivedAt ≠ none → row.externalKey ∉ run.yielded
  sweeping : ∀ integrationId keys, w.latest integrationId = some keys →
    ∀ row ∈ w.assets, row.archivedAt ≠ none → row.externalKey ∈ keys →
      ∃ id run, w.runs id = some run ∧ run.integrationId = integrationId ∧
        run.phase = .archivedStale ∧ row.externalKey ∈ run.archived
  clean : ∀ id run, w.runs id = some run → run.Clean

variable {w : DiscoveryWorld} {id : Nat} {run : SyncRun}

@[simp] theorem runs_setRun_self (w : DiscoveryWorld) (id : Nat) (run : SyncRun) :
    (w.setRun id run).runs id = some run :=
  Function.update_self _ _ _

theorem runs_setRun_ne {id' : Nat} (hne : id' ≠ id) : (w.setRun id run).runs id' = w.runs id' :=
  Function.update_of_ne hne _ _

@[simp] theorem assets_setRun (w : DiscoveryWorld) (id : Nat) (run : SyncRun) :
    (w.setRun id run).assets = w.assets := rfl

@[simp] theorem latest_setRun (w : DiscoveryWorld) (id : Nat) (run : SyncRun) :
    (w.setRun id run).latest = w.latest := rfl

/-- A run after `setRun` is the one that was set, or another one as it was. -/
theorem runs_setRun_eq_some {id' : Nat} {run' : SyncRun}
    (hrun : (w.setRun id run).runs id' = some run') :
    (id' = id ∧ run' = run) ∨ (id' ≠ id ∧ w.runs id' = some run') := by
  by_cases hid : id' = id
  · subst hid
    rw [runs_setRun_self] at hrun
    exact Or.inl ⟨rfl, (Option.some.inj hrun).symm⟩
  · rw [runs_setRun_ne hid] at hrun
    exact Or.inr ⟨hid, hrun⟩

theorem mem_staleKeys {key : String} :
    key ∈ w.staleKeys run ↔ ∃ row ∈ w.assets, row.externalKey = key ∧
      stale run.provider run.startedAt run.integrationId row = true := by
  simp only [staleKeys, List.mem_map, List.mem_filter, Table.mem_def]
  constructor
  · rintro ⟨row, ⟨hmem, hstale⟩, hkey⟩
    exact ⟨row, hmem, hkey, hstale⟩
  · rintro ⟨row, hmem, hkey, hstale⟩
    exact ⟨row, ⟨hmem, hstale⟩, hkey⟩

theorem isArchived_eq_true {key : String} :
    w.isArchived key = true ↔ ∃ row ∈ w.assets, row.externalKey = key ∧ row.archivedAt ≠ none := by
  simp only [isArchived, List.any_eq_true, Bool.and_eq_true, decide_eq_true_eq,
    Option.isSome_iff_ne_none, Table.mem_def]

/-- A run in progress stays clean whatever it has archived. -/
theorem clean_of_inProgress (hopen : run.phase.inProgress = true) : run.Clean := by
  constructor
  · intro hphase
    rw [hphase] at hopen
    cases hopen
  · intro hphase
    rw [hphase] at hopen
    cases hopen

theorem clean_setRun (h : ∀ id run, w.runs id = some run → run.Clean) (hrun : run.Clean) :
    ∀ id' run', (w.setRun id run).runs id' = some run' → run'.Clean := by
  intro id' run' hrun'
  rcases runs_setRun_eq_some hrun' with ⟨-, rfl⟩ | ⟨-, hrun'⟩
  · exact hrun
  · exact h id' run' hrun'

/-- A step of one run that archives nothing: it may clear archive marks, and the run is not
one whose sweep the integration's next success must still confirm. -/
theorem Swept.setRun (h : w.Swept) {assets : AssetTable}
    (hassets : ∀ row ∈ assets, row.archivedAt ≠ none → row ∈ w.assets)
    (hpending : ∀ run₀, w.runs id = some run₀ → run₀.phase = .archivedStale → run₀.archived = [])
    (hyielded : run.phase.inProgress = true →
      ∀ row ∈ assets, row.archivedAt ≠ none → row.externalKey ∉ run.yielded)
    (hclean : run.Clean) : ({ w with assets := assets }.setRun id run).Swept := by
  refine ⟨?_, ?_, clean_setRun h.clean hclean⟩
  · intro id' run' hrun' hopen row hrow harchived
    rcases runs_setRun_eq_some hrun' with ⟨-, rfl⟩ | ⟨-, hrun'⟩
    · exact hyielded hopen row hrow harchived
    · exact h.unyielded id' run' hrun' hopen row (hassets row hrow harchived) harchived
  · intro integrationId keys hlatest row hrow harchived hkey
    obtain ⟨id', run', hrun', hi, hphase, hin⟩ :=
      h.sweeping integrationId keys hlatest row (hassets row hrow harchived) harchived hkey
    have hne : id' ≠ id := by
      rintro rfl
      rw [hpending run' hrun' hphase] at hin
      exact absurd hin List.not_mem_nil
    exact ⟨id', run', (runs_setRun_ne hne).trans hrun', hi, hphase, hin⟩

theorem swept_start (h : w.Swept) (id : Nat) (integrationId : Uuid) (provider : String)
    (now : Timestamp) : (w.start id integrationId provider now).Swept := by
  unfold start
  cases hold : w.runs id with
  | some run => exact h
  | none =>
      refine h.setRun (fun row hrow _ => hrow) ?_ ?_ (clean_of_inProgress rfl)
      · intro run₀ hrun₀
        rw [hold] at hrun₀
        cases hrun₀
      · intro _ row _ _
        exact List.not_mem_nil

/-- An upsert clears the archive mark of its key before the key counts as yielded. -/
theorem swept_yield (h : w.Swept) (id : Nat) (input : UpsertAssetRequest) (assetId : Uuid)
    (now : Timestamp) : (w.yield id input assetId now).Swept := by
  unfold yield
  cases hold : w.runs id with
  | none => exact h
  | some run =>
      dsimp only
      split
      · rename_i hphase
        have hopen : run.phase.inProgress = true := by rw [hphase]; rfl
        refine h.setRun (fun row hrow harchived => (archived_upsert hrow harchived).1) ?_ ?_
          (clean_of_inProgress hopen)
        · intro run₀ hrun₀ hswept
          rw [hold] at hrun₀
          rw [← Option.some.inj hrun₀, hphase] at hswept
          cases hswept
        · intro _ row hrow harchived
          obtain ⟨hmem, hkey⟩ := archived_upsert hrow harchived
          have hbefore : row.externalKey ∉ run.yielded :=
            h.unyielded id run hold hopen row hmem harchived
          rw [List.mem_append, List.mem_singleton]
          exact not_or.mpr ⟨hbefore, hkey⟩
      · exact h

/-- The sweep archives rows that only its own integration may still count as seen. -/
theorem swept_sweep (h : w.Swept) (id : Nat) (now : Timestamp)
    (hsweep : w.SweepsUnreported (.sweep id now)) : (w.sweep id now).Swept := by
  unfold sweep
  cases hold : w.runs id with
  | none => exact h
  | some run =>
      dsimp only
      split
      · rename_i hphase
        have hfree := hsweep run hold hphase
        -- the archived rows of the new table, by their keys
        have hrows : ∀ row ∈ archiveStale w.assets run.provider run.startedAt run.integrationId
            now, row.archivedAt ≠ none →
            (∃ row₀ ∈ w.assets, row₀.externalKey = row.externalKey ∧ row₀.archivedAt ≠ none) ∨
              row.externalKey ∈ w.staleKeys run := by
          intro row hrow harchived
          rcases archived_archiveStale hrow harchived with hold | ⟨row₀, hmem, hkey, hstale⟩
          · exact Or.inl hold
          · exact Or.inr (mem_staleKeys.mpr ⟨row₀, hmem, hkey, hstale⟩)
        have hopen : run.phase.inProgress = true := by rw [hphase]; rfl
        have hunyielded : ∀ id' run', w.runs id' = some run' → run'.phase.inProgress = true →
            ∀ row ∈ archiveStale w.assets run.provider run.startedAt run.integrationId now,
              row.archivedAt ≠ none → row.externalKey ∉ run'.yielded := by
          intro id' run' hrun' hopen' row hrow harchived
          rcases hrows row hrow harchived with ⟨row₀, hmem, hkey, harchived₀⟩ | hstale
          · rw [← hkey]
            exact h.unyielded id' run' hrun' hopen' row₀ hmem harchived₀
          · exact (hfree row.externalKey hstale).1 id' run' hrun' hopen'
        refine ⟨?_, ?_, clean_setRun h.clean (clean_of_inProgress rfl)⟩
        · intro id' run' hrun' hopen' row hrow harchived
          rcases runs_setRun_eq_some hrun' with ⟨-, rfl⟩ | ⟨-, hrun'⟩
          · exact hunyielded id run hold hopen row hrow harchived
          · exact hunyielded id' run' hrun' hopen' row hrow harchived
        · intro integrationId keys hlatest row hrow harchived hkey
          rcases hrows row hrow harchived with ⟨row₀, hmem, hkey₀, harchived₀⟩ | hstale
          · -- archived before: whoever was sweeping it still is
            rw [← hkey₀] at hkey ⊢
            obtain ⟨id', run', hrun', hi, hswept, hin⟩ :=
              h.sweeping integrationId keys hlatest row₀ hmem harchived₀ hkey
            have hne : id' ≠ id := by
              rintro rfl
              rw [hold] at hrun'
              rw [← Option.some.inj hrun', hphase] at hswept
              cases hswept
            exact ⟨id', run', (runs_setRun_ne hne).trans hrun', hi, hswept, hin⟩
          · -- archived now: no other integration counts it
            by_cases hi : integrationId = run.integrationId
            · exact ⟨id, _, runs_setRun_self _ _ _, hi.symm, rfl, hstale⟩
            · exact absurd hkey ((hfree row.externalKey hstale).2 integrationId keys hi hlatest)
      · exact h

/-- A run that succeeds has lost nothing, and its yield replaces what its integration
counted. -/
theorem swept_succeed (h : w.Swept) (id : Nat) : (w.succeed id).Swept := by
  unfold succeed
  cases hold : w.runs id with
  | none => exact h
  | some run =>
      dsimp only
      split
      · rename_i hphase
        have hopen : run.phase.inProgress = true := by rw [hphase]; rfl
        have hyielded := h.unyielded id run hold hopen
        have hlost : run.yielded.filter w.isArchived = [] := by
          rw [List.filter_eq_nil_iff]
          intro key hkey hmarked
          obtain ⟨row, hmem, rfl, harchived⟩ := isArchived_eq_true.mp hmarked
          exact hyielded row hmem harchived hkey
        refine ⟨?_, ?_, clean_setRun h.clean ⟨fun hfailed => (by cases hfailed), fun _ => hlost⟩⟩
        · intro id' run' hrun' hopen' row hrow harchived
          rcases runs_setRun_eq_some hrun' with ⟨-, rfl⟩ | ⟨-, hrun'⟩
          · cases hopen'
          · exact h.unyielded id' run' hrun' hopen' row hrow harchived
        · intro integrationId keys hlatest row hrow harchived hkey
          change Function.update w.latest run.integrationId (some run.yielded) integrationId =
            some keys at hlatest
          by_cases hi : integrationId = run.integrationId
          · subst hi
            rw [Function.update_self, Option.some_inj] at hlatest
            subst hlatest
            exact absurd hkey (hyielded row hrow harchived)
          · rw [Function.update_of_ne hi] at hlatest
            obtain ⟨id', run', hrun', hi', hswept, hin⟩ :=
              h.sweeping integrationId keys hlatest row hrow harchived hkey
            have hne : id' ≠ id := by
              rintro rfl
              rw [hold] at hrun'
              rw [Option.some.inj hrun'] at hi
              exact hi hi'.symm
            exact ⟨id', run', (runs_setRun_ne hne).trans hrun', hi', hswept, hin⟩
      · exact h

theorem swept_fail (h : w.Swept) (id : Nat) (hfail : w.SweepsUnreported (.fail id)) :
    (w.fail id).Swept := by
  unfold fail
  cases hold : w.runs id with
  | none => exact h
  | some run =>
      dsimp only
      split
      · rename_i hopen
        have harchived : run.archived = [] := hfail run hold hopen
        refine h.setRun (fun row hrow _ => hrow) ?_ ?_
          ⟨fun _ => harchived, fun hsucceeded => (by cases hsucceeded)⟩
        · intro run₀ hrun₀ _
          rw [hold] at hrun₀
          rw [← Option.some.inj hrun₀]
          exact harchived
        · intro hopen'
          cases hopen'
      · exact h

theorem swept_step (w : DiscoveryWorld) (e : DiscoveryEvent) (h : w.Swept)
    (hcareful : w.SweepsUnreported e) : (system.step w e).Swept := by
  cases e with
  | start id integrationId provider now => exact swept_start h id integrationId provider now
  | yield id input assetId now => exact swept_yield h id input assetId now
  | sweep id now => exact swept_sweep h id now hcareful
  | succeed id => exact swept_succeed h id
  | fail id => exact swept_fail h id hcareful

/-- Whatever is in the table when the first run starts. -/
theorem swept_initial (assets : AssetTable) : Swept { assets := assets } := by
  refine ⟨?_, ?_, ?_⟩
  · intro id run hrun
    cases hrun
  · intro integrationId keys hlatest
    cases hlatest
  · intro id run hrun
    cases hrun

theorem Swept.archivesUnreported (h : w.Swept) : w.ArchivesUnreported := by
  refine ⟨h.clean, ?_⟩
  intro hrest row hrow harchived integrationId keys hlatest hkey
  obtain ⟨id, run, hrun, -, hphase, -⟩ :=
    h.sweeping integrationId keys hlatest row hrow harchived hkey
  have hclosed : run.phase.inProgress = false := hrest id run hrun
  rw [hphase] at hclosed
  cases hclosed

/-- A project that two GitLab integrations of the organisation reach. -/
def sharedProject : UpsertAssetRequest where
  kind := "repository"
  externalKey := "gitlab:gitlab.com/acme/api"
  name := "acme/api"
  source := "gitlab"

/-- An integration reports the project, and in its next run no longer does. -/
def leftProjectRuns : List DiscoveryEvent :=
  [.start 0 "i" "gitlab" 0, .yield 0 sharedProject "a" 1, .sweep 0 2, .succeed 0,
   .start 1 "i" "gitlab" 3, .sweep 1 4, .succeed 1]

/-- The integrations `i` and `j` report the project, `j` last; then `j` loses its access. -/
def sharedProjectRuns : List DiscoveryEvent :=
  [.start 0 "i" "gitlab" 0, .yield 0 sharedProject "a" 1, .sweep 0 2, .succeed 0,
   .start 1 "j" "gitlab" 3, .yield 1 sharedProject "b" 4, .sweep 1 5, .succeed 1,
   .start 2 "j" "gitlab" 6, .sweep 2 7, .succeed 2]

end DiscoveryWorld

end Assets
end Ctem
