import Mathlib.Data.List.Perm.Basic
import Ctem.Foundation.Contest
import Ctem.Scanner.Lockfiles
import Ctem.Scanner.WalkOrder

/-!
# The resolution under another listing

Two listings of the same files lead to the same components when in every directory and group
the unbeaten candidates parse alike and no two lockfiles give components of one key.

* `lookup?_groupWinners`: a group is won by the `champion` of its candidates.
* `parseSelected_perm`: what is parsed does not depend on the order of the siblings.
* `sameResolution_of_perm` puts both together.
-/

namespace Ctem
namespace Scanner

open Foundation

/-- The same set of components, or a failure each. -/
def SameResolution (r r' : Except String (List ResolvedComponent)) : Prop :=
  (∃ cs cs', r = .ok cs ∧ r' = .ok cs' ∧ ∀ c, c ∈ cs ↔ c ∈ cs') ∨
    ∃ m m', r = .error m ∧ r' = .error m'

theorem SameResolution.symm {r r' : Except String (List ResolvedComponent)}
    (h : SameResolution r r') : SameResolution r' r := by
  rcases h with ⟨cs, cs', hr, hr', hcs⟩ | ⟨m, m', hr, hr'⟩
  · exact Or.inl ⟨cs', cs, hr', hr, fun c => (hcs c).symm⟩
  · exact Or.inr ⟨m', m, hr', hr⟩

theorem SameResolution.trans {r r' r'' : Except String (List ResolvedComponent)}
    (h : SameResolution r r') (h' : SameResolution r' r'') : SameResolution r r'' := by
  rcases h with ⟨cs, cs', rfl, rfl, hcs⟩ | ⟨m, m', rfl, rfl⟩
  · rcases h' with ⟨ds, cs'', hr', rfl, hds⟩ | ⟨m, m', hr', rfl⟩
    · obtain rfl := Except.ok.inj hr'
      exact Or.inl ⟨cs, cs'', rfl, rfl, fun c => (hcs c).trans (hds c)⟩
    · cases hr'
  · rcases h' with ⟨ds, cs'', hr', rfl, hds⟩ | ⟨m, m', hr', rfl⟩
    · cases hr'
    · exact Or.inr ⟨_, _, rfl, rfl⟩

/-! ## Winners -/

abbrev Candidate := EcosystemParser × RepoFile

section Winners

variable (localeLess : String → String → Bool) (parsers : List EcosystemParser)

/-- `winsGroup` against a winner. -/
def winsOver (c d : Candidate) : Bool := winsGroup localeLess c.1 c.2 (some d)

/-- The candidates of a group, as the loops meet them. -/
def candidates (files : List RepoFile) (group : String) : List Candidate :=
  files.flatMap fun file =>
    (parsers.filter fun p => p.accepts file.fileName && decide (p.group = group)).map fun p =>
      (p, file)

theorem mem_candidates {files : List RepoFile} {group : String} {c : Candidate} :
    c ∈ candidates parsers files group ↔
      c.2 ∈ files ∧ c.1 ∈ parsers ∧ c.1.accepts c.2.fileName = true ∧ c.1.group = group := by
  obtain ⟨p, file⟩ := c
  simp only [candidates, List.mem_flatMap, List.mem_map, List.mem_filter, Bool.and_eq_true,
    decide_eq_true_eq, Prod.mk.injEq]
  constructor
  · rintro ⟨f, hf, p', ⟨hp, haccepts, hgroup⟩, rfl, rfl⟩
    exact ⟨hf, hp, haccepts, hgroup⟩
  · rintro ⟨hf, hp, haccepts, hgroup⟩
    exact ⟨file, hf, p, ⟨hp, haccepts, hgroup⟩, rfl, rfl⟩

theorem candidates_perm {files files' : List RepoFile} (h : files.Perm files') (group : String) :
    (candidates parsers files group).Perm (candidates parsers files' group) :=
  h.flatMap_right _

variable {parsers}

theorem lookup?_considerParser (file : RepoFile)
    (winners : AssocMap String (EcosystemParser × RepoFile)) (p : EcosystemParser)
    (group : String) :
    (considerParser localeLess file winners p).lookup? group =
      if (p.accepts file.fileName && decide (p.group = group)) = true then
        contest (winsOver localeLess) (winners.lookup? group) (p, file)
      else winners.lookup? group := by
  unfold considerParser
  by_cases hgroup : p.group = group
  · subst hgroup
    cases haccepts : p.accepts file.fileName with
    | false => simp
    | true =>
        cases hlookup : winners.lookup? p.group with
        | none => simp [winsGroup, AssocMap.lookup_upsert_self]
        | some current =>
            by_cases hwins : winsGroup localeLess p file (some current) = true
            · simp [hwins, winsOver, AssocMap.lookup_upsert_self]
            · simp [hwins, winsOver, hlookup]
  · have hother : ∀ f, (winners.upsert p.group f).lookup? group = winners.lookup? group :=
      fun f => AssocMap.lookup_upsert_ne winners f (Ne.symm hgroup)
    simp only [hgroup, decide_false, Bool.and_false, Bool.false_eq_true, if_false]
    split
    · exact hother _
    · rfl

/-- A group is won by the champion of its candidates. -/
theorem lookup?_groupWinners (files : List RepoFile) (group : String) :
    (groupWinners localeLess parsers files).lookup? group =
      champion (winsOver localeLess) (candidates parsers files group) := by
  have hinner : ∀ (file : RepoFile) (ps : List EcosystemParser)
      (winners : AssocMap String (EcosystemParser × RepoFile)),
      (ps.foldl (considerParser localeLess file) winners).lookup? group =
        ((ps.filter fun p => p.accepts file.fileName && decide (p.group = group)).map fun p =>
          (p, file)).foldl (contest (winsOver localeLess)) (winners.lookup? group) := by
    intro file ps
    induction ps with
    | nil => intro winners; rfl
    | cons p ps ih =>
        intro winners
        rw [List.foldl_cons, ih, lookup?_considerParser, List.filter_cons]
        split
        · rw [List.map_cons, List.foldl_cons]
        · rfl
  have houter : ∀ (files : List RepoFile) (winners : AssocMap String (EcosystemParser × RepoFile)),
      (files.foldl (fun winners file => parsers.foldl (considerParser localeLess file) winners)
        winners).lookup? group =
        (candidates parsers files group).foldl (contest (winsOver localeLess))
          (winners.lookup? group) := by
    intro files
    induction files with
    | nil => intro winners; rfl
    | cons file files ih =>
        intro winners
        rw [List.foldl_cons, ih, hinner, candidates, candidates, List.flatMap_cons,
          List.foldl_append]
  exact houter files []

/-! ## Selection -/

/-- The files of a directory. -/
def filesOf (files : List RepoFile) (dir : List String) : List RepoFile :=
  files.filter fun f => decide (f.dir = dir)

theorem filesOf_perm {files files' : List RepoFile} (h : files.Perm files') (dir : List String) :
    (filesOf files dir).Perm (filesOf files' dir) :=
  h.filter _

theorem lookup?_filesByDir (files : List RepoFile) (dir : List String) :
    (filesByDir files).lookup? dir =
      if filesOf files dir = [] then none else some (filesOf files dir) := by
  have hfold : ∀ (fs : List RepoFile) (old : Option (List RepoFile)),
      fs.foldl (fun old f => some (old.getD [] ++ [f])) old =
        if fs = [] then old else some (old.getD [] ++ fs) := by
    intro fs
    induction fs with
    | nil => intro old; rfl
    | cons f fs ih =>
        intro old
        rw [List.foldl_cons, ih, if_neg (List.cons_ne_nil f fs)]
        by_cases hnil : fs = []
        · rw [if_pos hnil, hnil]
        · rw [if_neg hnil, Option.getD_some, List.append_assoc]
          rfl
  unfold filesByDir
  rw [AssocMap.lookup?_groupFold]
  exact (hfold _ none).trans (by simp [filesOf])

/-- The directory and the group a lockfile is selected for. -/
def SelectedLockfile.slot (s : SelectedLockfile) : List String × String :=
  (s.file.dir, s.parser.group)

theorem mem_values_iff {κ : Type} {α : Type} [DecidableEq κ] {m : AssocMap κ α}
    (hnodup : m.keys.Nodup) {a : α} : a ∈ AssocMap.values m ↔ ∃ k, m.lookup? k = some a := by
  constructor
  · intro h
    obtain ⟨⟨k, a'⟩, hmem, rfl⟩ := List.mem_map.mp h
    exact ⟨k, AssocMap.lookup?_of_mem hnodup hmem⟩
  · rintro ⟨k, h⟩
    exact List.mem_map.mpr ⟨(k, a), AssocMap.mem_of_lookup? h, rfl⟩

theorem nodup_keys_filesByDir (files : List RepoFile) : (filesByDir files).keys.Nodup :=
  AssocMap.nodup_keys_groupFold _ _ files

theorem nodup_keys_groupWinners (files : List RepoFile) :
    (groupWinners localeLess parsers files).keys.Nodup := by
  have hconsider : ∀ (file : RepoFile) (ps : List EcosystemParser)
      (winners : AssocMap String (EcosystemParser × RepoFile)), winners.keys.Nodup →
      (ps.foldl (considerParser localeLess file) winners).keys.Nodup := by
    intro file ps
    induction ps with
    | nil => exact fun _ h => h
    | cons p ps ih =>
        intro winners h
        refine ih _ ?_
        unfold considerParser
        split
        · exact AssocMap.nodup_keys_upsert h p.group _
        · exact h
  have hfiles : ∀ (files : List RepoFile) (winners : AssocMap String (EcosystemParser × RepoFile)),
      winners.keys.Nodup →
      (files.foldl (fun winners file => parsers.foldl (considerParser localeLess file) winners)
        winners).keys.Nodup := by
    intro files
    induction files with
    | nil => exact fun _ h => h
    | cons file files ih => exact fun winners h => ih _ (hconsider file parsers winners h)
  exact hfiles files [] List.nodup_nil

/-- The entries of the two maps of the selection. -/
theorem groupWinners_entry {files : List RepoFile} {dir : List String} {group : String}
    {c : Candidate} (h : (groupWinners localeLess parsers (filesOf files dir)).lookup? group =
      some c) : c.2.dir = dir ∧ c.1.group = group ∧ c.1 ∈ parsers := by
  have hmem : c ∈ candidates parsers (filesOf files dir) group := by
    rw [lookup?_groupWinners] at h
    exact champion_mem h
  obtain ⟨hfile, hparser, -, hgroup⟩ := (mem_candidates parsers).mp hmem
  exact ⟨of_decide_eq_true (List.mem_filter.mp hfile).2, hgroup, hparser⟩

theorem mem_selectLockfiles {files : List RepoFile} {s : SelectedLockfile} :
    s ∈ selectLockfiles localeLess parsers files ↔
      s.dirFiles = filesOf files s.file.dir ∧
        champion (winsOver localeLess) (candidates parsers s.dirFiles s.parser.group) =
          some (s.parser, s.file) := by
  unfold selectLockfiles
  simp only [List.mem_flatMap, List.mem_map,
    mem_values_iff (nodup_keys_filesByDir files),
    mem_values_iff (nodup_keys_groupWinners localeLess _)]
  constructor
  · rintro ⟨dirFiles, ⟨dir, hdir⟩, ⟨p, file⟩, ⟨group, hgroup⟩, rfl⟩
    rw [lookup?_filesByDir] at hdir
    split at hdir
    · cases hdir
    · obtain rfl := Option.some.inj hdir
      obtain ⟨hfile, rfl, -⟩ := groupWinners_entry localeLess hgroup
      dsimp only at hfile
      rw [lookup?_groupWinners] at hgroup
      exact ⟨by rw [hfile], hgroup⟩
  · rintro ⟨hfiles, hchampion⟩
    obtain ⟨p, file, dirFiles⟩ := s
    dsimp only at hfiles hchampion
    subst hfiles
    have hfile := ((mem_candidates parsers).mp (champion_mem hchampion)).1
    refine ⟨filesOf files file.dir, ⟨file.dir, ?_⟩, (p, file), ⟨p.group, ?_⟩, rfl⟩
    · rw [lookup?_filesByDir, if_neg (List.ne_nil_of_mem hfile)]
    · rw [lookup?_groupWinners, hchampion]

/-- Every slot is filled once. -/
theorem nodup_slots (files : List RepoFile) :
    ((selectLockfiles localeLess parsers files).map SelectedLockfile.slot).Nodup := by
  have hslots : (selectLockfiles localeLess parsers files).map SelectedLockfile.slot =
      (filesByDir files).flatMap fun e =>
        (groupWinners localeLess parsers e.2).keys.map fun group => (e.1, group) := by
    unfold selectLockfiles AssocMap.values AssocMap.keys
    rw [List.flatMap_map, List.map_flatMap]
    refine List.flatMap_congr fun e he => ?_
    have hdir := AssocMap.lookup?_of_mem (nodup_keys_filesByDir files) he
    rw [lookup?_filesByDir] at hdir
    split at hdir
    · cases hdir
    · rw [List.map_map, List.map_map, List.map_map]
      refine List.map_congr_left fun w hw => ?_
      have hfound := AssocMap.lookup?_of_mem (nodup_keys_groupWinners localeLess e.2) hw
      rw [← Option.some.inj hdir] at hfound
      obtain ⟨hfile, hgroup, -⟩ := groupWinners_entry localeLess hfound
      exact Prod.ext hfile hgroup
  rw [hslots, List.nodup_flatMap]
  refine ⟨fun e _ => ?_, ?_⟩
  · exact (nodup_keys_groupWinners localeLess e.2).map fun a b hab => (Prod.mk.inj hab).2
  · have hpairs := nodup_keys_filesByDir files
    unfold AssocMap.keys at hpairs
    refine (List.pairwise_map.mp hpairs).imp ?_
    intro e e' hne x hx hx'
    obtain ⟨g, -, rfl⟩ := List.mem_map.mp hx
    obtain ⟨g', -, heq⟩ := List.mem_map.mp hx'
    exact hne (Prod.mk.inj heq).1.symm

/-! ## What is parsed -/

/-- The components of a lockfile, when it is parsed. -/
def outcome (s : SelectedLockfile) : Option (List ResolvedComponent) :=
  match parseSelected s with
  | .ok components => some components
  | .error _ => none

theorem outcome_eq_some {s : SelectedLockfile} {components : List ResolvedComponent}
    (h : outcome s = some components) : ∃ content companions,
      s.parser.parse ⟨s.file.relPath, content, companions⟩ = .ok components := by
  unfold outcome at h
  cases hparse : parseSelected s with
  | error message =>
      rw [hparse] at h
      cases h
  | ok found =>
      rw [hparse] at h
      obtain rfl := Option.some.inj h
      unfold parseSelected at hparse
      obtain ⟨companions, -, hparse⟩ := bind_eq_ok.mp hparse
      dsimp only at hparse
      split at hparse
      · exact ⟨_, companions, hparse⟩
      · obtain ⟨content, -, hparse⟩ := bind_eq_ok.mp hparse
        exact ⟨content, companions, hparse⟩

/-- A parser looks its companions up by their names. -/
def ReadsByName (p : EcosystemParser) : Prop :=
  ∀ relPath content (companions companions' : AssocMap String String),
    (∀ name, companions.lookup? name = companions'.lookup? name) →
      p.parse ⟨relPath, content, companions⟩ = p.parse ⟨relPath, content, companions'⟩

/-- One companion behind those of a map. -/
def readCompanion (companions : AssocMap String String) (file : RepoFile) :
    Except String (AssocMap String String) := do
  let text ← readLockfile file
  pure (companions.upsert file.fileName fun _ => text)

theorem readCompanions_error {files : List RepoFile}
    (h : ∃ f ∈ files, ∃ message, readLockfile f = .error message) :
    ∃ message, readCompanions files = .error message := by
  have hfold : ∀ (fs : List RepoFile) (m : AssocMap String String),
      (∃ f ∈ fs, ∃ message, readLockfile f = .error message) →
        ∃ message, fs.foldlM readCompanion m = .error message := by
    intro fs
    induction fs with
    | nil => rintro m ⟨f, hf, -⟩; cases hf
    | cons f fs ih =>
        rintro m ⟨g, hg, message, hread⟩
        rw [List.foldlM_cons]
        cases hfirst : readLockfile f with
        | error e => exact ⟨e, by simp [readCompanion, hfirst, bind, Except.bind]⟩
        | ok text =>
            have hrest : ∃ f ∈ fs, ∃ message, readLockfile f = .error message := by
              rcases List.mem_cons.mp hg with rfl | hg
              · rw [hfirst] at hread
                cases hread
              · exact ⟨g, hg, message, hread⟩
            obtain ⟨e, he⟩ := ih (m.upsert f.fileName fun _ => text) hrest
            refine ⟨e, ?_⟩
            simpa [readCompanion, hfirst, bind, Except.bind, pure, Except.pure] using he
  exact hfold files [] h

/-- When every file can be read, each is found under its name. -/
theorem readCompanions_ok {files : List RepoFile} (hnames : (files.map RepoFile.fileName).Nodup)
    {text : RepoFile → String} (h : ∀ f ∈ files, readLockfile f = .ok (text f)) :
    ∃ companions, readCompanions files = .ok companions ∧
      (∀ f ∈ files, companions.lookup? f.fileName = some (text f)) ∧
      ∀ name, name ∉ files.map RepoFile.fileName → companions.lookup? name = none := by
  have hfold : ∀ (fs : List RepoFile) (m : AssocMap String String),
      (fs.map RepoFile.fileName).Nodup → (∀ f ∈ fs, readLockfile f = .ok (text f)) →
      ∃ m', fs.foldlM readCompanion m = .ok m' ∧
        (∀ f ∈ fs, m'.lookup? f.fileName = some (text f)) ∧
        ∀ name, name ∉ fs.map RepoFile.fileName → m'.lookup? name = m.lookup? name := by
    intro fs
    induction fs with
    | nil => exact fun m _ _ => ⟨m, rfl, by simp, fun _ _ => rfl⟩
    | cons f fs ih =>
        intro m hnodup hread
        rw [List.map_cons, List.nodup_cons] at hnodup
        obtain ⟨m', hm', hfound, hother⟩ := ih (m.upsert f.fileName fun _ => text f) hnodup.2
          fun g hg => hread g (List.mem_cons_of_mem f hg)
        refine ⟨m', ?_, ?_, ?_⟩
        · rw [List.foldlM_cons, readCompanion, hread f List.mem_cons_self]
          exact hm'
        · intro g hg
          rcases List.mem_cons.mp hg with rfl | hg
          · rw [hother g.fileName hnodup.1, AssocMap.lookup_upsert_self]
          · exact hfound g hg
        · intro name hname
          rw [List.map_cons, List.mem_cons, not_or] at hname
          rw [hother name hname.2, AssocMap.lookup_upsert_ne m _ hname.1]
  exact hfold files [] hnames h

/-- The companions by name do not depend on the order. -/
theorem readCompanions_perm {files files' : List RepoFile} (hperm : files.Perm files')
    (hnames : (files.map RepoFile.fileName).Nodup) :
    (∃ m m', readCompanions files = .error m ∧ readCompanions files' = .error m') ∨
      ∃ m m', readCompanions files = .ok m ∧ readCompanions files' = .ok m' ∧
        ∀ name, m.lookup? name = m'.lookup? name := by
  by_cases hfails : ∃ f ∈ files, ∃ message, readLockfile f = .error message
  · obtain ⟨m, hm⟩ := readCompanions_error hfails
    obtain ⟨f, hf, message, hread⟩ := hfails
    obtain ⟨m', hm'⟩ := readCompanions_error ⟨f, hperm.mem_iff.mp hf, message, hread⟩
    exact Or.inl ⟨m, m', hm, hm'⟩
  · have hread : ∀ f ∈ files, ∃ text, readLockfile f = .ok text := by
      intro f hf
      cases hfile : readLockfile f with
      | ok text => exact ⟨text, rfl⟩
      | error message => exact absurd ⟨f, hf, message, hfile⟩ hfails
    choose! text htext using hread
    obtain ⟨m, hm, hfound, hother⟩ := readCompanions_ok hnames htext
    obtain ⟨m', hm', hfound', hother'⟩ := readCompanions_ok
      ((hperm.map RepoFile.fileName).nodup_iff.mp hnames)
      fun f hf => htext f (hperm.mem_iff.mpr hf)
    refine Or.inr ⟨m, m', hm, hm', fun name => ?_⟩
    by_cases hname : name ∈ files.map RepoFile.fileName
    · obtain ⟨f, hf, rfl⟩ := List.mem_map.mp hname
      rw [hfound f hf, hfound' f (hperm.mem_iff.mp hf)]
    · have hname' : name ∉ files'.map RepoFile.fileName := fun h =>
        hname ((hperm.map RepoFile.fileName).mem_iff.mpr h)
      rw [hother name hname, hother' name hname']

theorem outcome_perm {p : EcosystemParser} (hp : ReadsByName p) (file : RepoFile)
    {files files' : List RepoFile} (hperm : files.Perm files')
    (hnames : (files.map RepoFile.fileName).Nodup) :
    outcome ⟨p, file, files⟩ = outcome ⟨p, file, files'⟩ := by
  have hread : (filesToRead p file.fileName files).Perm (filesToRead p file.fileName files') :=
    hperm.filter _
  have hreadNames : ((filesToRead p file.fileName files).map RepoFile.fileName).Nodup :=
    hnames.sublist (List.filter_sublist.map RepoFile.fileName)
  unfold outcome parseSelected
  dsimp only
  rcases readCompanions_perm hread hreadNames with
    ⟨m, m', hm, hm'⟩ | ⟨companions, companions', hm, hm', hlookup⟩
  · rw [hm, hm']
    rfl
  · rw [hm, hm']
    simp only [bind, Except.bind, pure, Except.pure, hlookup]
    cases hcontent : companions'.lookup? file.fileName with
    | some content =>
        dsimp only
        rw [hp file.relPath content companions companions' hlookup]
    | none =>
        dsimp only
        cases readLockfile file with
        | error message => rfl
        | ok content =>
            dsimp only
            rw [hp file.relPath content companions companions' hlookup]

/-! ## One key from one lockfile -/

/-- The components of a lockfile. -/
def componentsOf (s : SelectedLockfile) : List ResolvedComponent := (outcome s).getD []

theorem collectComponents_eq (selected : List SelectedLockfile) :
    collectComponents selected = selected.flatMap componentsOf := by
  unfold collectComponents
  refine List.flatMap_congr fun s _ => ?_
  unfold componentsOf outcome
  cases parseSelected s <;> rfl

theorem everyLockfileFails_iff (selected : List SelectedLockfile) :
    EveryLockfileFails selected ↔ selected ≠ [] ∧ ∀ s ∈ selected, outcome s = none := by
  unfold EveryLockfileFails outcome
  refine and_congr_right fun _ => forall₂_congr fun s _ => ?_
  cases parseSelected s <;> simp

/-- `byKey`. -/
def dedupeMap (components : List ResolvedComponent) : AssocMap String ResolvedComponent :=
  AssocMap.groupFold dedupeKey (fun component old => old.elim component fun existing =>
    if preferred component existing then component else existing) components

theorem dedupeComponents_eq (components : List ResolvedComponent) :
    dedupeComponents components = AssocMap.values (dedupeMap components) := by
  unfold dedupeComponents dedupeMap
  congr 2
  funext component old
  cases old <;> rfl

/-- Of the components of a key the champion is kept. -/
theorem lookup?_dedupeMap (components : List ResolvedComponent) (key : String) :
    (dedupeMap components).lookup? key =
      champion preferred (components.filter fun d => decide (dedupeKey d = key)) := by
  unfold dedupeMap champion
  rw [AssocMap.lookup?_groupFold]
  refine List.foldl_ext _ _ none fun old component _ => ?_
  cases old with
  | none => rfl
  | some existing =>
      rw [contest_some, Option.elim_some]
      split <;> rfl

theorem nodup_keys_dedupeMap (components : List ResolvedComponent) :
    (dedupeMap components).keys.Nodup :=
  AssocMap.nodup_keys_groupFold _ _ components

theorem mem_dedupeComponents {components : List ResolvedComponent} {c : ResolvedComponent} :
    c ∈ dedupeComponents components ↔
      ∃ key, champion preferred (components.filter fun d => decide (dedupeKey d = key)) =
        some c := by
  rw [dedupeComponents_eq, mem_values_iff (nodup_keys_dedupeMap components)]
  simp only [lookup?_dedupeMap]

/-- Where one element alone has something that passes, nothing else is left. -/
theorem filter_flatMap_of_alone {α β : Type} {f : α → List β} {p : β → Bool} {xs : List α} {a : α}
    (hnodup : xs.Nodup) (ha : a ∈ xs) (halone : ∀ b ∈ xs, b ≠ a → (f b).filter p = []) :
    (xs.flatMap f).filter p = (f a).filter p := by
  obtain ⟨front, behind, rfl⟩ := List.append_of_mem ha
  have hnot : ∀ b ∈ front ++ behind, b ≠ a := by
    rintro b hb rfl
    exact (List.nodup_middle.mp hnodup).notMem hb
  have hnil : ∀ ys : List α, (∀ b ∈ ys, b ∈ front ++ behind) → (ys.flatMap f).filter p = [] := by
    intro ys hys
    rw [List.filter_flatMap, List.flatMap_eq_nil_iff]
    intro b hb
    exact halone b (by
      rcases List.mem_append.mp (hys b hb) with h | h
      · exact List.mem_append_left _ h
      · exact List.mem_append_right _ (List.mem_cons_of_mem a h)) (hnot b (hys b hb))
  rw [List.flatMap_append, List.flatMap_cons, List.filter_append, List.filter_append,
    hnil front fun b hb => List.mem_append_left _ hb,
    hnil behind fun b hb => List.mem_append_right _ hb, List.nil_append, List.append_nil]

/-- Two selections with the same lockfiles in every slot. -/
structure SameSelection (selected selected' : List SelectedLockfile) : Prop where
  nodup : (selected.map SelectedLockfile.slot).Nodup
  nodup' : (selected'.map SelectedLockfile.slot).Nodup
  slots : ∀ slot, slot ∈ selected.map SelectedLockfile.slot ↔
    slot ∈ selected'.map SelectedLockfile.slot
  outcomes : ∀ s ∈ selected, ∀ s' ∈ selected', s.slot = s'.slot → outcome s = outcome s'

/-- No key is given by two lockfiles. -/
def KeysApart (selected : List SelectedLockfile) : Prop :=
  ∀ s ∈ selected, ∀ t ∈ selected, s.slot ≠ t.slot →
    ∀ c ∈ componentsOf s, ∀ d ∈ componentsOf t, dedupeKey c ≠ dedupeKey d

/-- The components of a key are those of one lockfile. -/
theorem KeysApart.filter_key {selected : List SelectedLockfile} (hapart : KeysApart selected)
    (hnodup : (selected.map SelectedLockfile.slot).Nodup) {s : SelectedLockfile}
    (hs : s ∈ selected) {d : ResolvedComponent} (hd : d ∈ componentsOf s) :
    (selected.flatMap componentsOf).filter (fun c => decide (dedupeKey c = dedupeKey d)) =
      (componentsOf s).filter fun c => decide (dedupeKey c = dedupeKey d) := by
  refine filter_flatMap_of_alone hnodup.of_map hs fun t ht hne => ?_
  rw [List.filter_eq_nil_iff]
  intro e he hkey
  have hslot : t.slot ≠ s.slot := fun heq =>
    hne (List.inj_on_of_nodup_map hnodup ht hs heq)
  exact hapart t ht s hs hslot e he d hd (of_decide_eq_true hkey)

/-- Of a lockfile with components one is kept. -/
theorem KeysApart.exists_mem_dedupe {selected : List SelectedLockfile}
    (hapart : KeysApart selected) (hnodup : (selected.map SelectedLockfile.slot).Nodup)
    {s : SelectedLockfile} (hs : s ∈ selected) (hsome : componentsOf s ≠ []) :
    ∃ c ∈ dedupeComponents (collectComponents selected), c ∈ componentsOf s := by
  obtain ⟨d, hd⟩ := List.exists_mem_of_ne_nil _ hsome
  have hfilter := hapart.filter_key hnodup hs hd
  have hmem : d ∈ (componentsOf s).filter fun c => decide (dedupeKey c = dedupeKey d) :=
    List.mem_filter.mpr ⟨hd, decide_eq_true rfl⟩
  obtain ⟨c, hc⟩ := exists_champion preferred (List.ne_nil_of_mem hmem)
  refine ⟨c, mem_dedupeComponents.mpr ⟨dedupeKey d, ?_⟩, (List.mem_filter.mp (champion_mem hc)).1⟩
  rw [collectComponents_eq, hfilter, hc]

namespace SameSelection

variable {selected selected' : List SelectedLockfile}

theorem symm (h : SameSelection selected selected') : SameSelection selected' selected where
  nodup := h.nodup'
  nodup' := h.nodup
  slots slot := (h.slots slot).symm
  outcomes s hs s' hs' hslot := (h.outcomes s' hs' s hs hslot.symm).symm

theorem exists_other (h : SameSelection selected selected') {s : SelectedLockfile}
    (hs : s ∈ selected) : ∃ s' ∈ selected', s'.slot = s.slot ∧ outcome s' = outcome s := by
  obtain ⟨s', hs', hslot⟩ := List.mem_map.mp ((h.slots s.slot).mp (List.mem_map_of_mem hs))
  exact ⟨s', hs', hslot, (h.outcomes s hs s' hs' hslot.symm).symm⟩

theorem keysApart (h : SameSelection selected selected') (hapart : KeysApart selected) :
    KeysApart selected' := by
  intro s hs t ht hne c hc d hd
  obtain ⟨s₀, hs₀, hslot, hout⟩ := h.symm.exists_other hs
  obtain ⟨t₀, ht₀, hslot', hout'⟩ := h.symm.exists_other ht
  refine hapart s₀ hs₀ t₀ ht₀ (by rw [hslot, hslot']; exact hne) c ?_ d ?_
  · rw [componentsOf, hout]
    exact hc
  · rw [componentsOf, hout']
    exact hd

/-- What one selection gives for a key the other gives as well. -/
theorem mem_dedupe (h : SameSelection selected selected') (hapart : KeysApart selected)
    {c : ResolvedComponent} (hc : c ∈ dedupeComponents (collectComponents selected)) :
    c ∈ dedupeComponents (collectComponents selected') := by
  rw [mem_dedupeComponents] at hc ⊢
  obtain ⟨key, hkept⟩ := hc
  refine ⟨key, ?_⟩
  rw [collectComponents_eq] at hkept ⊢
  cases hfilter : (selected.flatMap componentsOf).filter fun d => decide (dedupeKey d = key) with
  | nil =>
      rw [hfilter] at hkept
      cases hkept
  | cons d rest =>
      have hd : d ∈ (selected.flatMap componentsOf).filter fun d => decide (dedupeKey d = key) :=
        hfilter ▸ List.mem_cons_self
      obtain ⟨hmem, hkey⟩ := List.mem_filter.mp hd
      obtain ⟨s, hs, hds⟩ := List.mem_flatMap.mp hmem
      obtain ⟨s', hs', -, hout⟩ := h.exists_other hs
      have hcomponents : componentsOf s' = componentsOf s := by
        rw [componentsOf, hout, componentsOf]
      have hkey := of_decide_eq_true hkey
      rw [← hkey, hapart.filter_key h.nodup hs hds] at hkept
      rw [← hkey, (h.keysApart hapart).filter_key h.nodup' hs' (hcomponents ▸ hds), hcomponents]
      exact hkept

theorem everyLockfileFails (h : SameSelection selected selected')
    (hfails : EveryLockfileFails selected) : EveryLockfileFails selected' := by
  rw [everyLockfileFails_iff] at hfails ⊢
  obtain ⟨hne, hall⟩ := hfails
  constructor
  · obtain ⟨s, hs⟩ := List.exists_mem_of_ne_nil selected hne
    obtain ⟨s', hs', -⟩ := h.exists_other hs
    exact List.ne_nil_of_mem hs'
  · intro s' hs'
    obtain ⟨s, hs, -, hout⟩ := h.symm.exists_other hs'
    rw [← hout, hall s hs]

end SameSelection

/-! ## Two listings -/

/-- In every directory and group beating is a strict weak order. -/
def RankedGroups (parsers : List EcosystemParser) (files : List RepoFile) : Prop :=
  ∀ dir group, Ranked (winsOver localeLess) (candidates parsers (filesOf files dir) group)

/-- In every directory and group the unbeaten candidates parse alike. -/
def Decided (parsers : List EcosystemParser) (files : List RepoFile) : Prop :=
  ∀ dir group c d,
    Unbeaten (winsOver localeLess) (candidates parsers (filesOf files dir) group) c →
    Unbeaten (winsOver localeLess) (candidates parsers (filesOf files dir) group) d →
      outcome ⟨c.1, c.2, filesOf files dir⟩ = outcome ⟨d.1, d.2, filesOf files dir⟩

/-- The names in a directory differ. -/
theorem nodup_names {files : List RepoFile} (hpaths : (files.map RepoFile.path).Nodup)
    (dir : List String) : ((filesOf files dir).map RepoFile.fileName).Nodup := by
  have hsub : ((filesOf files dir).map RepoFile.path).Nodup :=
    hpaths.sublist (List.filter_sublist.map RepoFile.path)
  have hmap : (filesOf files dir).map RepoFile.path =
      ((filesOf files dir).map RepoFile.fileName).map fun name => dir ++ [name] := by
    rw [List.map_map]
    refine List.map_congr_left fun f hf => ?_
    have hdir : f.dir = dir := of_decide_eq_true (List.mem_filter.mp hf).2
    rw [RepoFile.path, hdir]
    rfl
  rw [hmap] at hsub
  exact hsub.of_map

theorem mem_slots_iff {files : List RepoFile} {dir : List String} {group : String} :
    (dir, group) ∈ (selectLockfiles localeLess parsers files).map SelectedLockfile.slot ↔
      candidates parsers (filesOf files dir) group ≠ [] := by
  constructor
  · intro h
    obtain ⟨s, hs, hslot⟩ := List.mem_map.mp h
    obtain ⟨rfl, rfl⟩ := Prod.mk.inj hslot
    obtain ⟨hfiles, hchampion⟩ := (mem_selectLockfiles localeLess).mp hs
    rw [hfiles] at hchampion
    exact List.ne_nil_of_mem (champion_mem hchampion)
  · intro h
    cases hchampion : champion (winsOver localeLess)
        (candidates parsers (filesOf files dir) group) with
    | none => exact absurd (champion_eq_none_iff.mp hchampion) h
    | some c =>
        obtain ⟨hfile, -, -, hgroup⟩ := (mem_candidates parsers).mp (champion_mem hchampion)
        have hdir : c.2.dir = dir := of_decide_eq_true (List.mem_filter.mp hfile).2
        refine List.mem_map.mpr ⟨⟨c.1, c.2, filesOf files dir⟩, ?_, Prod.ext hdir hgroup⟩
        rw [mem_selectLockfiles]
        dsimp only
        rw [hdir, hgroup]
        exact ⟨rfl, hchampion⟩

theorem sameSelection_of_perm {files files' : List RepoFile} (hperm : files.Perm files')
    (hpaths : (files.map RepoFile.path).Nodup) (hranked : RankedGroups localeLess parsers files)
    (hdecided : Decided localeLess parsers files) (hreads : ∀ p ∈ parsers, ReadsByName p) :
    SameSelection (selectLockfiles localeLess parsers files)
      (selectLockfiles localeLess parsers files') where
  nodup := nodup_slots localeLess files
  nodup' := nodup_slots localeLess files'
  slots := by
    rintro ⟨dir, group⟩
    have hcandidates := candidates_perm parsers (filesOf_perm hperm dir) group
    rw [mem_slots_iff, mem_slots_iff, ← List.length_pos_iff_ne_nil, ← List.length_pos_iff_ne_nil,
      hcandidates.length_eq]
  outcomes := by
    rintro ⟨p, file, dirFiles⟩ hs ⟨p', file', dirFiles'⟩ hs' hslot
    obtain ⟨hfiles, hchampion⟩ := (mem_selectLockfiles localeLess).mp hs
    obtain ⟨hfiles', hchampion'⟩ := (mem_selectLockfiles localeLess).mp hs'
    obtain ⟨hdir, hgroup⟩ := Prod.mk.inj hslot
    dsimp only at hdir hgroup hfiles hfiles' hchampion hchampion'
    subst hfiles hfiles'
    rw [← hdir, ← hgroup] at hchampion'
    -- both are unbeaten in the first listing
    have hdirPerm := filesOf_perm hperm file.dir
    have hcandidates := candidates_perm parsers hdirPerm p.group
    have hfirst := champion_unbeaten (hranked file.dir p.group) hchampion
    have hsecond := (champion_unbeaten ((hranked file.dir p.group).perm hcandidates)
      hchampion').perm hcandidates.symm
    have hparser' : p' ∈ parsers := ((mem_candidates parsers).mp hsecond.1).2.1
    rw [hdecided file.dir p.group (p, file) (p', file') hfirst hsecond, ← hdir]
    exact outcome_perm (hreads p' hparser') file' hdirPerm (nodup_names hpaths file.dir)

/-- The resolution is the same for two listings of the same files. -/
theorem sameResolution_of_perm {tree tree' : RepoTree}
    (hperm : (listRepoFiles ignoreDirs {} tree).Perm (listRepoFiles ignoreDirs {} tree'))
    (hpaths : ((listRepoFiles ignoreDirs {} tree).map RepoFile.path).Nodup)
    (hranked : RankedGroups localeLess parsers (listRepoFiles ignoreDirs {} tree))
    (hdecided : Decided localeLess parsers (listRepoFiles ignoreDirs {} tree))
    (hreads : ∀ p ∈ parsers, ReadsByName p)
    (hapart : KeysApart (selectedLockfiles localeLess parsers tree)) :
    SameResolution (resolveLockfiles localeLess parsers tree)
      (resolveLockfiles localeLess parsers tree') := by
  have hsame : SameSelection (selectedLockfiles localeLess parsers tree)
      (selectedLockfiles localeLess parsers tree') :=
    sameSelection_of_perm localeLess hperm hpaths hranked hdecided hreads
  rcases resolveLockfiles_eq localeLess parsers tree with ⟨hfails, m, hm⟩ | ⟨hworks, hok⟩
  · rcases resolveLockfiles_eq localeLess parsers tree' with ⟨-, m', hm'⟩ | ⟨hworks', -⟩
    · exact Or.inr ⟨m, m', hm, hm'⟩
    · exact absurd (hsame.everyLockfileFails hfails) hworks'
  · rcases resolveLockfiles_eq localeLess parsers tree' with ⟨hfails', -⟩ | ⟨-, hok'⟩
    · exact absurd (hsame.symm.everyLockfileFails hfails') hworks
    · exact Or.inl ⟨_, _, hok, hok', fun c => ⟨hsame.mem_dedupe hapart,
        hsame.symm.mem_dedupe (hsame.keysApart hapart)⟩⟩

end Winners

end Scanner
end Ctem
