import Mathlib.Data.List.Perm.Basic
import Ctem.Foundation.JoinedFields
import Ctem.Foundation.PathText
import Ctem.Scanner.WorkTree

/-!
# A checkout listed in another order

A file system lists the entries of a directory in any order.

* `SameTree` relates a checkout to the same checkout with its directories in another order.
* `visibleFiles_perm`: a walk without a cap lists the same files of both.
* `nodup_paths` says that no path is listed twice when the names in a directory differ.
* `exists_listed_first`: some order lists a file before the others of its directory.
-/

namespace Ctem
namespace Scanner

open Foundation

def RepoEntry.name : RepoEntry → String
  | .file name _ _ => name
  | .dir name _ _ => name
  | .other name => name

mutual

/-- Below the entry the names in a directory differ, and none has a slash in it. -/
def RepoEntry.WellNamed : RepoEntry → Prop
  | .dir _ _ entries => WellNamedEntries entries
  | .file _ _ _ => True
  | .other _ => True

def WellNamedEntries : List RepoEntry → Prop
  | [] => True
  | e :: rest =>
      ('/' ∉ e.name.toList ∧ e.WellNamed) ∧ (∀ e' ∈ rest, e'.name ≠ e.name) ∧
        WellNamedEntries rest

end

def RepoTree.WellNamed (tree : RepoTree) : Prop := WellNamedEntries tree.entries

mutual

/-- The entry with the directories below it in another order. -/
def SameEntry : RepoEntry → RepoEntry → Prop
  | .file name size text, e' => e' = .file name size text
  | .other name, e' => e' = .other name
  | .dir name readable entries, e' =>
      ∃ entries' listed, e' = .dir name readable entries' ∧ SameListing entries listed ∧
        listed.Perm entries'

def SameListing : List RepoEntry → List RepoEntry → Prop
  | [], listed => listed = []
  | e :: rest, listed => ∃ e' rest', listed = e' :: rest' ∧ SameEntry e e' ∧ SameListing rest rest'

end

def SameEntries (entries entries' : List RepoEntry) : Prop :=
  ∃ listed, SameListing entries listed ∧ listed.Perm entries'

/-- The checkout with its directories in another order. -/
def SameTree (tree tree' : RepoTree) : Prop :=
  tree'.readable = tree.readable ∧ SameEntries tree.entries tree'.entries

mutual

theorem SameEntry.refl (e : RepoEntry) : SameEntry e e := by
  match e with
  | .file name size text => exact rfl
  | .other name => exact rfl
  | .dir name readable entries =>
      exact ⟨entries, entries, rfl, SameListing.refl entries, .refl entries⟩

theorem SameListing.refl (entries : List RepoEntry) : SameListing entries entries := by
  match entries with
  | [] => exact rfl
  | e :: rest => exact ⟨e, rest, rfl, SameEntry.refl e, SameListing.refl rest⟩

end

theorem SameEntry.name_eq {e e' : RepoEntry} (h : SameEntry e e') : e'.name = e.name := by
  cases e with
  | file name size text =>
      obtain rfl := h
      rfl
  | other name =>
      obtain rfl := h
      rfl
  | dir name readable entries =>
      obtain ⟨entries', listed, rfl, -⟩ := h
      rfl

theorem SameListing.names {entries listed : List RepoEntry} (h : SameListing entries listed) :
    listed.map RepoEntry.name = entries.map RepoEntry.name := by
  induction entries generalizing listed with
  | nil =>
      obtain rfl := h
      rfl
  | cons e rest ih =>
      obtain ⟨e', rest', rfl, he, hrest⟩ := h
      rw [List.map_cons, List.map_cons, he.name_eq, ih hrest]

/-- The names of a directory by themselves. -/
theorem wellNamedEntries_iff (entries : List RepoEntry) :
    WellNamedEntries entries ↔ (entries.map RepoEntry.name).Nodup ∧
      ∀ e ∈ entries, '/' ∉ e.name.toList ∧ e.WellNamed := by
  induction entries with
  | nil => simp [WellNamedEntries]
  | cons e rest ih =>
      rw [WellNamedEntries, ih, List.map_cons, List.nodup_cons]
      constructor
      · rintro ⟨he, hnames, hnodup, hrest⟩
        refine ⟨⟨?_, hnodup⟩, ?_⟩
        · intro hmem
          obtain ⟨e', he', heq⟩ := List.mem_map.mp hmem
          exact hnames e' he' heq
        · intro e' he'
          rcases List.mem_cons.mp he' with rfl | he'
          · exact he
          · exact hrest e' he'
      · rintro ⟨⟨hnames, hnodup⟩, hall⟩
        exact ⟨hall e List.mem_cons_self, fun e' he' heq => hnames (heq ▸ List.mem_map_of_mem he'),
          hnodup, fun e' he' => hall e' (List.mem_cons_of_mem e he')⟩

theorem WellNamedEntries.perm {entries entries' : List RepoEntry} (h : WellNamedEntries entries)
    (hperm : entries.Perm entries') : WellNamedEntries entries' := by
  rw [wellNamedEntries_iff] at h ⊢
  exact ⟨(hperm.map RepoEntry.name).nodup_iff.mp h.1, fun e he => h.2 e (hperm.mem_iff.mpr he)⟩

mutual

theorem SameEntry.wellNamed (e : RepoEntry) {e' : RepoEntry} (h : SameEntry e e')
    (hnamed : e.WellNamed) : e'.WellNamed := by
  match e with
  | .file name size text =>
      obtain rfl := h
      exact hnamed
  | .other name =>
      obtain rfl := h
      exact hnamed
  | .dir name readable entries =>
      obtain ⟨entries', listed, rfl, hlisting, hperm⟩ := h
      have hlisted : WellNamedEntries listed := SameListing.wellNamed entries hlisting hnamed
      exact hlisted.perm hperm

theorem SameListing.wellNamed (entries : List RepoEntry) {listed : List RepoEntry}
    (h : SameListing entries listed) (hnamed : WellNamedEntries entries) :
    WellNamedEntries listed := by
  match entries with
  | [] =>
      obtain rfl := h
      exact hnamed
  | e :: rest =>
      obtain ⟨e', rest', rfl, he, hrest⟩ := h
      obtain ⟨⟨hname, hentry⟩, hnames, hrestNamed⟩ := hnamed
      refine ⟨⟨he.name_eq ▸ hname, SameEntry.wellNamed e he hentry⟩, ?_,
        SameListing.wellNamed rest hrest hrestNamed⟩
      intro e'' he'' heq
      have hmem : e''.name ∈ rest.map RepoEntry.name :=
        SameListing.names hrest ▸ List.mem_map_of_mem he''
      obtain ⟨e₀, he₀, heq₀⟩ := List.mem_map.mp hmem
      exact hnames e₀ he₀ (heq₀.trans (heq.trans he.name_eq))

end

theorem SameTree.wellNamed {tree tree' : RepoTree} (h : SameTree tree tree')
    (hnamed : tree.WellNamed) : tree'.WellNamed := by
  obtain ⟨-, listed, hlisting, hperm⟩ := h
  exact (SameListing.wellNamed tree.entries hlisting hnamed).perm hperm

/-! ## The files -/

section Walk

variable (ignore : List String) (limits : WalkLimits)

theorem visibleEntries_eq_flatMap (path : List String) (depth : Nat) (entries : List RepoEntry) :
    visibleEntries ignore limits path depth entries =
      entries.flatMap (visibleEntry ignore limits path depth) := by
  induction entries with
  | nil => rfl
  | cons e rest ih => rw [visibleEntries, ih, List.flatMap_cons]

theorem visibleEntries_append (path : List String) (depth : Nat) (es es' : List RepoEntry) :
    visibleEntries ignore limits path depth (es ++ es') =
      visibleEntries ignore limits path depth es ++
        visibleEntries ignore limits path depth es' := by
  simp only [visibleEntries_eq_flatMap, List.flatMap_append]

theorem visibleEntries_perm_of_perm (path : List String) (depth : Nat) {es es' : List RepoEntry}
    (h : es.Perm es') : (visibleEntries ignore limits path depth es).Perm
      (visibleEntries ignore limits path depth es') := by
  simp only [visibleEntries_eq_flatMap]
  exact h.flatMap_right _

mutual

theorem visibleEntry_perm (path : List String) (depth : Nat) (e : RepoEntry) {e' : RepoEntry}
    (h : SameEntry e e') : (visibleEntry ignore limits path depth e).Perm
      (visibleEntry ignore limits path depth e') := by
  match e with
  | .file name size text =>
      obtain rfl := h
      exact .refl _
  | .other name =>
      obtain rfl := h
      exact .refl _
  | .dir name readable entries =>
      obtain ⟨entries', listed, rfl, hlisting, hperm⟩ := h
      simp only [visibleEntry]
      split
      · exact .refl _
      · split
        · exact .refl _
        · split
          · exact (visibleListing_perm _ _ entries hlisting).trans
              (visibleEntries_perm_of_perm ignore limits _ _ hperm)
          · exact .refl _

theorem visibleListing_perm (path : List String) (depth : Nat) (entries : List RepoEntry)
    {listed : List RepoEntry} (h : SameListing entries listed) :
    (visibleEntries ignore limits path depth entries).Perm
      (visibleEntries ignore limits path depth listed) := by
  match entries with
  | [] =>
      obtain rfl := h
      exact .refl _
  | e :: rest =>
      obtain ⟨e', rest', rfl, he, hrest⟩ := h
      simp only [visibleEntries]
      exact (visibleEntry_perm path depth e he).append (visibleListing_perm path depth rest hrest)

end

/-- A walk without a cap lists the same files in every order. -/
theorem visibleFiles_perm {tree tree' : RepoTree} (h : SameTree tree tree') :
    (visibleFiles ignore limits tree).Perm (visibleFiles ignore limits tree') := by
  obtain ⟨hreadable, listed, hlisting, hperm⟩ := h
  unfold visibleFiles
  rw [hreadable]
  split
  · exact (visibleListing_perm ignore limits [] 0 tree.entries hlisting).trans
      (visibleEntries_perm_of_perm ignore limits [] 0 hperm)
  · exact .refl _

/-- Where the files fit under the cap the walk lists the same in every order. -/
theorem listRepoFiles_perm {tree tree' : RepoTree} (h : SameTree tree tree')
    (hfits : (visibleFiles ignore limits tree).length ≤ limits.maxFiles) :
    (listRepoFiles ignore limits tree).Perm (listRepoFiles ignore limits tree') := by
  have hperm := visibleFiles_perm ignore limits h
  rw [listRepoFiles_eq_take, listRepoFiles_eq_take, List.take_of_length_le hfits,
    List.take_of_length_le (by rw [← hperm.length_eq]; exact hfits)]
  exact hperm

/-! ## Paths -/

theorem mem_visibleEntries {path : List String} {depth : Nat} {entries : List RepoEntry}
    {f : RepoFile} : f ∈ visibleEntries ignore limits path depth entries ↔
      ∃ e ∈ entries, f ∈ visibleEntry ignore limits path depth e := by
  rw [visibleEntries_eq_flatMap, List.mem_flatMap]

mutual

/-- The path of a file goes through the entry it lies below. -/
theorem visibleEntry_path (path : List String) (depth : Nat) (e : RepoEntry) :
    ∀ f ∈ visibleEntry ignore limits path depth e, path ++ [e.name] <+: f.path := by
  match e with
  | .file name size text =>
      intro f hf
      obtain rfl := List.mem_singleton.mp hf
      exact List.prefix_rfl
  | .other name =>
      intro f hf
      cases hf
  | .dir name readable entries =>
      intro f hf
      simp only [visibleEntry] at hf
      split at hf
      · cases hf
      · split at hf
        · cases hf
        · split at hf
          · exact visibleEntries_path (path ++ [name]) (depth + 1) entries f hf
          · cases hf

theorem visibleEntries_path (path : List String) (depth : Nat) (entries : List RepoEntry) :
    ∀ f ∈ visibleEntries ignore limits path depth entries, path <+: f.path := by
  match entries with
  | [] =>
      intro f hf
      cases hf
  | e :: rest =>
      intro f hf
      simp only [visibleEntries] at hf
      rcases List.mem_append.mp hf with hf | hf
      · exact (List.prefix_append path [e.name]).trans (visibleEntry_path path depth e f hf)
      · exact visibleEntries_path path depth rest f hf

end

mutual

theorem nodup_paths_entry (path : List String) (depth : Nat) (e : RepoEntry) (h : e.WellNamed) :
    ((visibleEntry ignore limits path depth e).map RepoFile.path).Nodup := by
  match e with
  | .file name size text => simp [visibleEntry]
  | .other name => simp [visibleEntry]
  | .dir name readable entries =>
      simp only [visibleEntry]
      split
      · exact List.nodup_nil
      · split
        · exact List.nodup_nil
        · split
          · exact nodup_paths_entries (path ++ [name]) (depth + 1) entries h
          · exact List.nodup_nil

theorem nodup_paths_entries (path : List String) (depth : Nat) (entries : List RepoEntry)
    (h : WellNamedEntries entries) :
    ((visibleEntries ignore limits path depth entries).map RepoFile.path).Nodup := by
  match entries with
  | [] => exact List.nodup_nil
  | e :: rest =>
      obtain ⟨⟨-, he⟩, hnames, hrest⟩ := h
      simp only [visibleEntries, List.map_append]
      refine List.nodup_append.mpr ⟨nodup_paths_entry path depth e he,
        nodup_paths_entries path depth rest hrest, ?_⟩
      intro p hp q hq heq
      obtain ⟨f, hf, rfl⟩ := List.mem_map.mp hp
      obtain ⟨g, hg, rfl⟩ := List.mem_map.mp hq
      obtain ⟨e', he', hg'⟩ := (mem_visibleEntries ignore limits).mp hg
      -- both paths go through the same entry of the directory
      have hfirst := visibleEntry_path ignore limits path depth e f hf
      have hsecond := visibleEntry_path ignore limits path depth e' g hg'
      rw [heq] at hfirst
      have hboth := List.prefix_of_prefix_length_le hfirst hsecond (by simp)
      have hsame := List.append_cancel_left (hboth.eq_of_length (by simp))
      exact hnames e' he' (List.singleton_inj.mp hsame).symm

end

/-- No path is listed twice. -/
theorem nodup_paths {tree : RepoTree} (h : tree.WellNamed) :
    ((visibleFiles ignore limits tree).map RepoFile.path).Nodup := by
  unfold visibleFiles
  split
  · exact nodup_paths_entries ignore limits [] 0 tree.entries h
  · exact List.nodup_nil

mutual

theorem noSlash_entry (path : List String) (depth : Nat) (e : RepoEntry) (h : e.WellNamed)
    (hname : '/' ∉ e.name.toList) (hpath : ∀ part ∈ path, '/' ∉ part.toList) :
    ∀ f ∈ visibleEntry ignore limits path depth e, ∀ part ∈ f.path, '/' ∉ part.toList := by
  have hbelow : ∀ part ∈ path ++ [e.name], '/' ∉ part.toList := by
    intro part hpart
    rcases List.mem_append.mp hpart with hpart | hpart
    · exact hpath part hpart
    · exact List.mem_singleton.mp hpart ▸ hname
  match e with
  | .file name size text =>
      intro f hf
      obtain rfl := List.mem_singleton.mp hf
      exact hbelow
  | .other name =>
      intro f hf
      cases hf
  | .dir name readable entries =>
      intro f hf
      simp only [visibleEntry] at hf
      split at hf
      · cases hf
      · split at hf
        · cases hf
        · split at hf
          · exact noSlash_entries (path ++ [name]) (depth + 1) entries h hbelow f hf
          · cases hf

theorem noSlash_entries (path : List String) (depth : Nat) (entries : List RepoEntry)
    (h : WellNamedEntries entries) (hpath : ∀ part ∈ path, '/' ∉ part.toList) :
    ∀ f ∈ visibleEntries ignore limits path depth entries,
      ∀ part ∈ f.path, '/' ∉ part.toList := by
  match entries with
  | [] =>
      intro f hf
      cases hf
  | e :: rest =>
      obtain ⟨⟨hname, he⟩, -, hrest⟩ := h
      intro f hf
      simp only [visibleEntries] at hf
      rcases List.mem_append.mp hf with hf | hf
      · exact noSlash_entry path depth e he hname hpath f hf
      · exact noSlash_entries path depth rest hrest hpath f hf

end

theorem noSlash_visibleFiles {tree : RepoTree} (h : tree.WellNamed) :
    ∀ f ∈ visibleFiles ignore limits tree, ∀ part ∈ f.path, '/' ∉ part.toList := by
  unfold visibleFiles
  split
  · exact noSlash_entries ignore limits [] 0 tree.entries h (by simp)
  · intro f hf
    cases hf

/-! ## Listed first -/

theorem head?_filter_append {α : Type} {p : α → Bool} {as bs : List α} {a : α}
    (h : (as.filter p).head? = some a) : ((as ++ bs).filter p).head? = some a := by
  rw [List.filter_append]
  cases hfilter : as.filter p with
  | nil =>
      rw [hfilter] at h
      cases h
  | cons b rest =>
      rw [hfilter] at h
      exact h

mutual

theorem exists_first_entry (path : List String) (depth : Nat) (e : RepoEntry) {f : RepoFile}
    (hf : f ∈ visibleEntry ignore limits path depth e) :
    ∃ e', SameEntry e e' ∧ ((visibleEntry ignore limits path depth e').filter
      fun g => decide (g.dir = f.dir)).head? = some f := by
  match e with
  | .file name size text =>
      obtain rfl := List.mem_singleton.mp hf
      exact ⟨.file name size text, rfl, by simp [visibleEntry]⟩
  | .other name => cases hf
  | .dir name readable entries =>
      simp only [visibleEntry] at hf
      split at hf
      · cases hf
      · split at hf
        · cases hf
        · split at hf
          · next hskip hdepth hreadable =>
              obtain ⟨entries', ⟨listed, hlisting, hperm⟩, hfirst⟩ :=
                exists_first_entries (path ++ [name]) (depth + 1) entries hf
              refine ⟨.dir name readable entries', ⟨entries', listed, rfl, hlisting, hperm⟩, ?_⟩
              simp only [visibleEntry]
              rw [if_neg hskip, if_neg hdepth, if_pos hreadable]
              exact hfirst
          · cases hf

theorem exists_first_entries (path : List String) (depth : Nat) (entries : List RepoEntry)
    {f : RepoFile} (hf : f ∈ visibleEntries ignore limits path depth entries) :
    ∃ entries', SameEntries entries entries' ∧
      ((visibleEntries ignore limits path depth entries').filter
        fun g => decide (g.dir = f.dir)).head? = some f := by
  match entries with
  | [] => cases hf
  | e :: rest =>
      simp only [visibleEntries] at hf
      by_cases he : f ∈ visibleEntry ignore limits path depth e
      · obtain ⟨e', hsame, hfirst⟩ := exists_first_entry path depth e he
        refine ⟨e' :: rest, ⟨e' :: rest, ⟨e', rest, rfl, hsame, SameListing.refl rest⟩,
          .refl _⟩, ?_⟩
        simp only [visibleEntries]
        exact head?_filter_append hfirst
      · -- the entry goes behind the others
        have hrest := (List.mem_append.mp hf).resolve_left he
        obtain ⟨rest', ⟨listed, hlisting, hperm⟩, hfirst⟩ :=
          exists_first_entries path depth rest hrest
        refine ⟨rest' ++ [e], ⟨e :: listed, ⟨e, listed, rfl, SameEntry.refl e, hlisting⟩, ?_⟩, ?_⟩
        · exact (hperm.cons e).trans (List.perm_append_singleton e rest').symm
        · rw [visibleEntries_append]
          exact head?_filter_append hfirst

end

/-- In some order a file is listed before the others of its directory. -/
theorem exists_listed_first {tree : RepoTree} {f : RepoFile}
    (hf : f ∈ visibleFiles ignore limits tree) :
    ∃ tree', SameTree tree tree' ∧ ((visibleFiles ignore limits tree').filter
      fun g => decide (g.dir = f.dir)).head? = some f := by
  unfold visibleFiles at hf
  split at hf
  · next hreadable =>
      obtain ⟨entries', hsame, hfirst⟩ :=
        exists_first_entries ignore limits [] 0 tree.entries hf
      refine ⟨⟨tree.readable, entries'⟩, ⟨rfl, hsame⟩, ?_⟩
      unfold visibleFiles
      rw [if_pos hreadable]
      exact hfirst
  · cases hf

end Walk

/-- A path without slashes in its parts is known from its text. -/
theorem relPath_inj {f g : RepoFile} (hf : ∀ part ∈ f.path, '/' ∉ part.toList)
    (hg : ∀ part ∈ g.path, '/' ∉ part.toList) (h : f.relPath = g.relPath) : f.path = g.path := by
  have hsplit : ∀ {k : RepoFile}, (∀ part ∈ k.path, '/' ∉ part.toList) →
      splitOn '/' k.relPath.toList = k.path.map String.toList := by
    intro k hk
    have hjoin := toList_joinWith '/' k.path
    change k.relPath.toList = _ at hjoin
    rw [hjoin]
    refine splitOn_intercalate (by simp [RepoFile.path]) ?_
    intro part hpart
    obtain ⟨name, hname, rfl⟩ := List.mem_map.mp hpart
    exact hk name hname
  have hlists := hsplit hf
  rw [h, hsplit hg] at hlists
  exact (List.map_injective_iff.mpr (fun a b hab => String.toList_injective hab) hlists).symm

end Scanner
end Ctem
