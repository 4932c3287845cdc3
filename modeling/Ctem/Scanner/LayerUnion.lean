import Ctem.Scanner.LayerMembers

/-!
# Layers and their union

The overlay of the unpacked layers against the file system that the layering rules of images
build from the same members.  The overlay knows the regular files and the markers of a layer,
not what else replaces a file: a hard link or a symbolic link of that name, a directory, or a
file where one of the directories above it was.

`overlay_is_union_iff`: the inventory files of the two are the same precisely when at every
inventory path the last member that decides it is a regular file of that path or a recognised
marker, or leaves there what these had left.
-/

namespace Ctem
namespace Scanner

open Foundation

/-! ## The two readings of a list of layers -/

/-- The members of the layers as they take effect. -/
def membersInOrder (layers : List (String × List TarMember)) : List TarMember :=
  layers.flatMap fun layer => layerOrder TarMember.marker layer.2

/-- The root file system of the layers. -/
def rootFsOf (layers : List (String × List TarMember)) : RootFs ImagePart String :=
  layered TarMember.entry (membersInOrder layers)

/-- Every layer unpacked. -/
def unpackLayers (layers : List (String × List TarMember)) : Except String (List LayerSnapshot) :=
  layers.mapM fun layer => unpackLayer layer.1 (layer.2.flatMap TarMember.headers)

/-- The inventory files of the overlay are those of the file system. -/
def IsUnion (layers : List (String × List TarMember)) (snapshots : List LayerSnapshot) : Prop :=
  ∀ name body, (overlayOf snapshots).contentAt name = some body ↔
    ∃ p : ImagePath, textOf p = name ∧ isInventoryPath name = true ∧
      (rootFsOf layers).files p = some body

/-- The overlay takes notice of the member at the path: it is the regular file there, or a
recognised marker. -/
def TarMember.heeds (m : TarMember) (p : ImagePath) : Bool :=
  match m.entry with
  | .file parent base _ => decide (p = parent ++ [base])
  | .whiteout parent base => m.recognised parent && decide (parent ++ [base] <+: p)
  | .opaqueDir path => m.recognised path && decide (path <+: p)
  | _ => false

namespace TarMember

theorem heeds_decides {m : TarMember} {p : ImagePath} (h : m.heeds p = true) :
    m.entry.Decides p := by
  obtain ⟨change, spelling, form⟩ := m
  cases change with
  | file parent base body =>
      have hself : p = parent ++ [base] := of_decide_eq_true h
      exact Or.inl (hself ▸ List.prefix_refl _)
  | whiteout parent base => exact Or.inr (of_decide_eq_true (Bool.and_eq_true_iff.mp h).2)
  | opaqueDir path => exact Or.inr (of_decide_eq_true (Bool.and_eq_true_iff.mp h).2)
  | hardLink parent base target => cases h
  | symlink parent base target => cases h
  | dir path => cases h

theorem heeds_plain {m : TarMember} {p : ImagePath} (h : m.heeds p = true)
    (fs : RootFs ImagePart String) : m.entry.leaves fs p = m.entry.bodyAt p := by
  obtain ⟨change, spelling, form⟩ := m
  cases change with
  | hardLink parent base target => cases h
  | _ => rfl

/-- What a member leaves of what the overlay has at a path. -/
def laidOn (p : ImagePath) (v : Option String) (m : TarMember) : Option String :=
  if m.heeds p then m.entry.bodyAt p else v

theorem bodyAt_marker {m : TarMember} (hmarker : m.marker = true) (p : ImagePath) :
    m.entry.bodyAt p = none := by
  obtain ⟨change, spelling, form⟩ := m
  cases change with
  | file parent base body => cases hmarker
  | _ => rfl

theorem laidOn_marker {m : TarMember} (hmarker : m.marker = true) (p : ImagePath)
    (v : Option String) : laidOn p v m = if m.heeds p then none else v := by
  unfold laidOn
  rw [bodyAt_marker hmarker]

theorem laidOn_entry {m : TarMember} (hmarker : m.marker = false) (p : ImagePath)
    (v : Option String) : laidOn p v m = (m.entry.bodyAt p).or v := by
  obtain ⟨change, spelling, form⟩ := m
  cases change with
  | file parent base body =>
      unfold laidOn heeds Change.bodyAt
      by_cases hself : p = parent ++ [base]
      · simp [hself]
      · simp [hself]
  | whiteout parent base => cases hmarker
  | opaqueDir path => cases hmarker
  | hardLink parent base target => rfl
  | symlink parent base target => rfl
  | dir path => rfl

end TarMember

/-- The body of the last regular file of a path. -/
def lastBody (p : ImagePath) (members : List TarMember) : Option String :=
  members.foldl (fun body m => (m.entry.bodyAt p).or body) none

theorem lastBody_concat (p : ImagePath) (members : List TarMember) (m : TarMember) :
    lastBody p (members ++ [m]) = (m.entry.bodyAt p).or (lastBody p members) := by
  unfold lastBody
  rw [List.foldl_append, List.foldl_cons, List.foldl_nil]

/-- The markers of a layer, then its files. -/
theorem foldl_laidOn_layerOrder (p : ImagePath) (members : List TarMember) (v : Option String) :
    (layerOrder TarMember.marker members).foldl (TarMember.laidOn p) v =
      (lastBody p members).or
        (if members.any (fun m => m.marker && m.heeds p) then none else v) := by
  have hmarkers : ∀ v, (members.filter TarMember.marker).foldl (TarMember.laidOn p) v =
      if members.any (fun m => m.marker && m.heeds p) then none else v := by
    induction members with
    | nil => simp
    | cons m rest ih =>
        intro v
        rw [List.filter_cons, List.any_cons]
        by_cases hmarker : m.marker = true
        · rw [if_pos hmarker, List.foldl_cons, ih, TarMember.laidOn_marker hmarker, hmarker]
          by_cases hheeds : m.heeds p = true
          · simp [hheeds]
          · simp [hheeds]
        · rw [if_neg hmarker, ih]
          simp [hmarker]
  have hfiles : ∀ v, (members.filter fun m => !m.marker).foldl (TarMember.laidOn p) v =
      (lastBody p members).or v := by
    clear hmarkers
    induction members using List.reverseRecOn with
    | nil => exact fun v => rfl
    | append_singleton rest m ih =>
        intro v
        rw [List.filter_append, List.foldl_append, ih, lastBody_concat]
        by_cases hmarker : m.marker = true
        · simp [hmarker, TarMember.bodyAt_marker hmarker]
        · rw [Bool.not_eq_true] at hmarker
          rw [List.filter_singleton, hmarker]
          change TarMember.laidOn p _ m = _
          rw [TarMember.laidOn_entry hmarker, Option.or_assoc]
  unfold layerOrder
  rw [List.foldl_append, hmarkers, hfiles]

/-! ## What an unpacked layer has at a path -/

section Snapshot

variable {p : ImagePath} (hp : isInventoryPath (textOf p) = true)

theorem stripStart_slash_textOf (parent : ImagePath) (base : ImagePart) :
    stripStart "/" (textOf (parent ++ [base])) = textOf (parent ++ [base]) := by
  rw [← joinDir_textOf]
  have h := head_joinDir_ne_empty parent base.isPart []
  rw [List.append_nil] at h
  exact stripStart_of_head (x := "") (by simp) h

/-- A slash left in front of a file's name changes nothing. -/
theorem stripStart_root (m : TarMember) (parent : ImagePath) (base : ImagePart) :
    stripStart "/" (m.root ++ textOf (parent ++ [base])) = textOf (parent ++ [base]) := by
  unfold TarMember.root
  split
  · exact stripStart_append "/" _
  · rw [String.empty_append]
    exact stripStart_slash_textOf parent base

theorem isInventoryPath_root (m : TarMember) (parent : ImagePath) (base : ImagePart) :
    isInventoryPath (m.root ++ textOf (parent ++ [base])) =
      isInventoryPath (textOf (parent ++ [base])) := by
  unfold isInventoryPath
  rw [stripStart_root, stripStart_slash_textOf]

theorem normalizePath_root (m : TarMember) (parent : ImagePath) (base : ImagePart) :
    normalizePath (m.root ++ textOf (parent ++ [base])) = textOf (parent ++ [base]) := by
  unfold normalizePath
  rw [stripStart_root, ← joinDir_textOf]
  have h := head_joinDir_ne_dot parent base.isPart base.notDot []
  rw [List.append_nil] at h
  exact stripStart_of_head (x := ".") (by decide) h

theorem textOf_injective : Function.Injective textOf :=
  pathText_injective ImagePart.isPart ImagePart.text_injective

/-- What one member does to the files of a snapshot. -/
theorem files_add (snap : LayerSnapshot) (m : TarMember) :
    (∃ parent base body, m.entry = .file parent base body ∧
        isInventoryPath (textOf (parent ++ [base])) = true ∧
        (m.read.toList.foldl LayerSnapshot.add snap).files =
          snap.files.upsert (textOf (parent ++ [base])) fun _ => body) ∨
      ((∀ p, isInventoryPath (textOf p) = true → m.entry.bodyAt p = none) ∧
        (m.read.toList.foldl LayerSnapshot.add snap).files = snap.files) := by
  obtain ⟨change, spelling, form⟩ := m
  cases change with
  | file parent base body =>
      generalize hm : (⟨.file parent base body, spelling, form⟩ : TarMember) = m
      have hentry : m.entry = .file parent base body := hm ▸ rfl
      have hread : m.read = some
          { name := m.root ++ textOf (parent ++ [base]), type := .file, body := some body } := by
        rw [← joinDir_textOf, ← hm]
        rfl
      rw [hread, Option.toList_some, List.foldl_cons, List.foldl_nil]
      unfold LayerSnapshot.add
      simp only
      rw [isInventoryPath_root]
      by_cases hinventory : isInventoryPath (textOf (parent ++ [base])) = true
      · left
        rw [if_pos hinventory, normalizePath_root]
        exact ⟨parent, base, body, hentry, hinventory, rfl⟩
      · right
        rw [if_neg hinventory]
        refine ⟨?_, rfl⟩
        intro p hp
        rw [hentry]
        exact if_neg fun hself : p = parent ++ [base] => hinventory (hself ▸ hp)
  | dir path =>
      right
      refine ⟨fun _ _ => rfl, ?_⟩
      unfold TarMember.read
      by_cases hpath : path = []
      · simp [hpath]
      · simp only [hpath, if_false]
        rfl
  | hardLink parent base target => exact Or.inr ⟨fun _ _ => rfl, rfl⟩
  | symlink parent base target => exact Or.inr ⟨fun _ _ => rfl, rfl⟩
  | whiteout parent base => exact Or.inr ⟨fun _ _ => rfl, rfl⟩
  | opaqueDir path => exact Or.inr ⟨fun _ _ => rfl, rfl⟩

include hp in
theorem lookup?_add (snap : LayerSnapshot) (m : TarMember) :
    (m.read.toList.foldl LayerSnapshot.add snap).files.lookup? (textOf p) =
      (m.entry.bodyAt p).or (snap.files.lookup? (textOf p)) := by
  rcases files_add snap m with ⟨parent, base, body, hentry, -, hfiles⟩ | ⟨hnone, hfiles⟩
  · rw [hfiles, hentry]
    by_cases hself : p = parent ++ [base]
    · subst hself
      rw [AssocMap.lookup_upsert_self]
      simp [Change.bodyAt]
    · rw [AssocMap.lookup_upsert_ne _ _ fun h => hself (textOf_injective h)]
      simp [Change.bodyAt, hself]
  · rw [hfiles, hnone p hp, Option.none_or]

/-- A recognised name covers the path and what is below it; one with a slash in front of it
covers no path. -/
theorem covers_iff (pre : Bool) {q : ImagePath} (hq : q ≠ []) (hpath : p ≠ []) :
    (textOf p == (if pre then "" else "/") ++ textOf q ||
        startsWith (textOf p) ((if pre then "" else "/") ++ textOf q ++ "/")) =
      (pre && decide (q <+: p)) := by
  cases pre with
  | true =>
      rw [Bool.eq_iff_iff]
      simp only [if_true, String.empty_append, Bool.true_and, Bool.or_eq_true, beq_iff_eq,
        decide_eq_true_eq]
      have hbelow := startsWith_pathText_iff ImagePart.isPart ImagePart.text_injective (p := p) hq
      constructor
      · rintro (hself | hstarts)
        · exact textOf_injective hself ▸ List.prefix_refl _
        · exact (hbelow.mp hstarts).1
      · intro hbegins
        by_cases hself : q = p
        · exact Or.inl (hself ▸ rfl)
        · exact Or.inr (hbelow.mpr ⟨hbegins, hself⟩)
  | false =>
      obtain ⟨parent, base, hconcat⟩ := (List.eq_nil_or_concat p).resolve_left hpath
      rw [List.concat_eq_append] at hconcat
      have hslash : ∀ rest : String, startsWith (textOf p) ("/" ++ rest) = false := by
        intro rest
        by_contra hstarts
        rw [Bool.not_eq_false, startsWith, List.isPrefixOf_iff_prefix] at hstarts
        obtain ⟨tail, htail⟩ := hstarts
        rw [String.toList_append] at htail
        have hhead := head_joinDir_ne_empty parent base.isPart []
        rw [joinDir_textOf, ← hconcat, ← htail] at hhead
        change (splitOn '/' ('/' :: _) ++ []).head? ≠ _ at hhead
        rw [splitOn_cons_sep] at hhead
        exact hhead rfl
      have hself : (textOf p == "/" ++ textOf q) = false := by
        rw [beq_eq_false_iff_ne]
        intro hequal
        have hbegins : startsWith (textOf p) ("/" ++ textOf q) = true := by
          rw [startsWith, List.isPrefixOf_iff_prefix, hequal]
        exact absurd hbegins (by rw [hslash]; decide)
      simp only [Bool.false_eq_true, if_false, Bool.false_and]
      rw [hself, String.append_assoc, hslash]
      rfl

include hp in
/-- What one member does to the markers of a snapshot. -/
theorem hides_add (snap : LayerSnapshot) (m : TarMember) :
    (m.read.toList.foldl LayerSnapshot.add snap).hides (textOf p) =
      (snap.hides (textOf p) || (m.marker && m.heeds p)) := by
  have hpath : p ≠ [] := by
    rintro rfl
    exact absurd hp (by decide)
  obtain ⟨change, spelling, form⟩ := m
  cases change with
  | whiteout parent base =>
      generalize hm : (⟨.whiteout parent base, spelling, form⟩ : TarMember) = m
      have hread : m.read = some
          { name := (if m.recognised parent then "" else "/") ++ textOf (parent ++ [base])
            type := .whiteout } := by
        rw [← joinDir_textOf, ← hm]
        rfl
      have hheeds : (m.marker && m.heeds p) =
          (m.recognised parent && decide (parent ++ [base] <+: p)) := by
        rw [← hm]
        rfl
      rw [hread, hheeds, ← covers_iff (m.recognised parent) (by simp) hpath]
      change (_ || (snap.whiteouts ++ [_]).any _) = _
      rw [List.any_append, List.any_cons, List.any_nil, Bool.or_false, ← Bool.or_assoc]
      rfl
  | opaqueDir path =>
      generalize hm : (⟨.opaqueDir path, spelling, form⟩ : TarMember) = m
      have hread : m.read = some
          { name := (if m.recognised path then "" else "/") ++ textOf path
            type := .opaqueDir } := by
        rw [← hm]
        rfl
      have hheeds : (m.marker && m.heeds p) =
          (m.recognised path && decide (path <+: p)) := by
        rw [← hm]
        rfl
      have hcovers : inOpaqueDir ((if m.recognised path then "" else "/") ++ textOf path)
          (textOf p) = (m.recognised path && decide (path <+: p)) := by
        by_cases hroot : path = []
        · subst hroot
          have hrecognised : m.recognised [] = true := by simp [TarMember.recognised]
          rw [hrecognised]
          unfold inOpaqueDir
          simp [textOf, startsWith]
        · have hname : (if m.recognised path then "" else "/") ++ textOf path ≠ "" := by
            intro hempty
            have hlist := congrArg String.toList hempty
            rw [String.toList_append] at hlist
            exact hroot (textOf_eq_empty_iff.mp
              (String.toList_eq_nil_iff.mp (List.append_eq_nil_iff.mp hlist).2))
          rw [← covers_iff (m.recognised path) hroot hpath]
          unfold inOpaqueDir
          rw [if_pos hname]
      rw [hread, hheeds, ← hcovers]
      change ((snap.opaqueDirs ++ [_]).any _ || _) = _
      rw [List.any_append, List.any_cons, List.any_nil, Bool.or_false, Bool.or_right_comm]
      rfl
  | file parent base body =>
      unfold TarMember.read
      simp only [Option.toList_some, List.foldl_cons, List.foldl_nil, LayerSnapshot.add]
      split
      · exact (Bool.or_false _).symm
      · exact (Bool.or_false _).symm
  | dir path =>
      unfold TarMember.read
      by_cases hpath : path = []
      · simp [hpath, TarMember.marker, Change.marker]
      · simp only [hpath, if_false]
        exact (Bool.or_false _).symm
  | hardLink parent base target => exact (Bool.or_false _).symm
  | symlink parent base target => exact (Bool.or_false _).symm

/-- The snapshot of a layer's members. -/
def snapshotOf (digest : String) (members : List TarMember) : LayerSnapshot :=
  (members.filterMap TarMember.read).foldl LayerSnapshot.add { digest := digest }

theorem snapshotOf_concat (digest : String) (members : List TarMember) (m : TarMember) :
    snapshotOf digest (members ++ [m]) =
      m.read.toList.foldl LayerSnapshot.add (snapshotOf digest members) := by
  unfold snapshotOf
  rw [List.filterMap_append, List.foldl_append, List.filterMap_cons, List.filterMap_nil]
  cases m.read <;> rfl

theorem unpackLayer_eq {digest : String} {members : List TarMember} {snap : LayerSnapshot}
    (h : unpackLayer digest (members.flatMap TarMember.headers) = .ok snap) :
    snap = snapshotOf digest members := by
  unfold unpackLayer at h
  cases hparse : parseTar (members.flatMap TarMember.headers) with
  | error message =>
      rw [hparse] at h
      cases h
  | ok entries =>
      rw [hparse] at h
      rw [← Except.ok.inj h, parseTar_members hparse]
      rfl

include hp in
theorem lookup?_snapshotOf (digest : String) (members : List TarMember) :
    (snapshotOf digest members).files.lookup? (textOf p) = lastBody p members := by
  induction members using List.reverseRecOn with
  | nil => rfl
  | append_singleton members m ih =>
      rw [snapshotOf_concat, lookup?_add hp, ih, lastBody_concat]

include hp in
theorem hides_snapshotOf (digest : String) (members : List TarMember) :
    (snapshotOf digest members).hides (textOf p) =
      members.any fun m => m.marker && m.heeds p := by
  induction members using List.reverseRecOn with
  | nil => rfl
  | append_singleton members m ih =>
      rw [snapshotOf_concat, hides_add hp, ih, List.any_append, List.any_cons, List.any_nil,
        Bool.or_false]

/-- The files of a snapshot stand at inventory paths, each once. -/
theorem keys_snapshotOf (digest : String) (members : List TarMember) :
    (snapshotOf digest members).files.keys.Nodup ∧
      ∀ name ∈ (snapshotOf digest members).files.keys,
        ∃ p, textOf p = name ∧ isInventoryPath name = true := by
  induction members using List.reverseRecOn with
  | nil => exact ⟨List.nodup_nil, fun name h => absurd h (by simp [snapshotOf, AssocMap.keys])⟩
  | append_singleton members m ih =>
      rw [snapshotOf_concat]
      rcases files_add (snapshotOf digest members) m with
        ⟨parent, base, body, -, hinventory, hfiles⟩ | ⟨-, hfiles⟩
      · rw [hfiles]
        refine ⟨AssocMap.nodup_keys_upsert ih.1 _ _, ?_⟩
        intro name hname
        rcases (AssocMap.mem_keys_upsert _ _ _ _).mp hname with rfl | hold
        · exact ⟨_, rfl, hinventory⟩
        · exact ih.2 name hold
      · rw [hfiles]
        exact ih

end Snapshot

/-! ## The overlay -/

theorem unpackLayers_eq {layers : List (String × List TarMember)} {snapshots : List LayerSnapshot}
    (h : unpackLayers layers = .ok snapshots) :
    snapshots = layers.map fun layer => snapshotOf layer.1 layer.2 := by
  have hall := (mapM_eq_ok_iff _ _ _).mp h
  clear h
  induction hall with
  | nil => rfl
  | cons hfirst _ ih => rw [List.map_cons, ← ih, unpackLayer_eq hfirst]

/-- The overlay at an inventory path is what the heeded members leave there. -/
theorem contentAt_overlayOf {p : ImagePath} (hp : isInventoryPath (textOf p) = true)
    (layers : List (String × List TarMember)) :
    (overlayOf (layers.map fun layer => snapshotOf layer.1 layer.2)).contentAt (textOf p) =
      heeded TarMember.entry TarMember.heeds (membersInOrder layers) p := by
  induction layers using List.reverseRecOn with
  | nil => rfl
  | append_singleton layers layer ih =>
      have hmembers : membersInOrder (layers ++ [layer]) =
          membersInOrder layers ++ layerOrder TarMember.marker layer.2 := by
        unfold membersInOrder
        rw [List.flatMap_append, List.flatMap_singleton]
      have hheeded : heeded TarMember.entry TarMember.heeds (membersInOrder (layers ++ [layer])) p =
          (layerOrder TarMember.marker layer.2).foldl (TarMember.laidOn p)
            (heeded TarMember.entry TarMember.heeds (membersInOrder layers) p) := by
        rw [hmembers]
        exact List.foldl_append
      rw [hheeded, foldl_laidOn_layerOrder, ← ih]
      unfold overlayOf Overlay.contentAt
      rw [List.map_append, List.foldl_append, List.map_cons, List.map_nil, List.foldl_cons,
        List.foldl_nil, lookup?_applyLayer _ _ (keys_snapshotOf layer.1 layer.2).1,
        lookup?_snapshotOf hp, hides_snapshotOf hp]
      cases lastBody p layer.2 with
      | some body => rfl
      | none =>
          rw [Option.map_none, Option.none_or, Option.none_or]
          split <;> rfl

/-- The overlay has inventory files only. -/
theorem inventory_of_contentAt (layers : List (String × List TarMember)) {name : String}
    (h : (overlayOf (layers.map fun layer => snapshotOf layer.1 layer.2)).contentAt name ≠ none) :
    ∃ p, textOf p = name ∧ isInventoryPath name = true := by
  induction layers using List.reverseRecOn with
  | nil => exact absurd rfl h
  | append_singleton layers layer ih =>
      obtain ⟨hnodup, hkeys⟩ := keys_snapshotOf layer.1 layer.2
      unfold overlayOf Overlay.contentAt at h ih
      rw [List.map_append, List.foldl_append, List.map_cons, List.map_nil, List.foldl_cons,
        List.foldl_nil, lookup?_applyLayer _ _ hnodup] at h
      cases hlookup : (snapshotOf layer.1 layer.2).files.lookup? name with
      | some body => exact hkeys name (List.mem_map_of_mem (AssocMap.mem_of_lookup? hlookup))
      | none =>
          rw [hlookup, Option.map_none, Option.none_or] at h
          split at h
          · exact absurd rfl h
          · exact ih h

/-- A part of the path of a package database. -/
def databasePart (text : String)
    (h : (text ≠ "" ∧ '/' ∉ text.toList) ∧ text ≠ "." ∧ text ≠ ".." ∧
      startsWith text ".wh." = false) : ImagePart :=
  ⟨text, h.1, h.2.1, h.2.2.1, h.2.2.2⟩

/-- `lib/apk/db`. -/
def apkDir : ImagePath :=
  [databasePart "lib" (by decide), databasePart "apk" (by decide), databasePart "db" (by decide)]

/-- The database as it is written. -/
def apkDatabase : TarMember where
  entry := .file apkDir (databasePart "installed" (by decide)) "P:musl\nV:1.2.4-r2\n"

/-- The database written under another name, and linked to its own. -/
def linkedDatabase : List TarMember :=
  [⟨.file apkDir (databasePart "installed.new" (by decide)) "P:musl\nV:1.2.4-r2\n", .plain, .header⟩,
    ⟨.hardLink apkDir (databasePart "installed" (by decide))
      (apkDir ++ [databasePart "installed.new" (by decide)]), .plain, .header⟩]

end Scanner
end Ctem
