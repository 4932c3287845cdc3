import Ctem.Scanner.OciPull
import Mathlib.Data.List.Forall2
import Mathlib.Data.List.Induction

/-!
# The layer cache over all pulls of a worker

Any number of pulls under way share the cache, and a layer that one of them has unpacked is taken
by all others that name its digest.

* `Served` is what a registry answered a request for a digest with, at some time of the run.
* `pull_layers`: an image that is returned has all layers of the manifest that its own pull was
  given, in order, each of them as the registry served its digest; where a digest always stands
  for the same bytes, the image depends on the manifest alone.
-/

namespace Ctem
namespace Scanner

open Foundation

section Cache

variable (reg : OciRegistry) (gunzip : List UInt8 → Except String (List UInt8))

/-! ## What a run has been given -/

/-- The pull waits for the blob of a digest. -/
def Pull.AwaitsBlob (p : Pull) (digest : String) (mediaType : Option String) : Prop :=
  p.phase = .waiting (.blob digest mediaType) ∨ p.phase = .waiting (.redirected digest mediaType)

/-- An answer of the run to a request for the blob of a digest. -/
structure BlobAnswer (events : List PullEvent) (digest : String) (mediaType : Option String)
    (body : List UInt8) : Prop where
  answer : ∃ before index r checks later p, events = before ++ .reply index r checks :: later ∧
    (Worker.run reg gunzip {} before).pulls[index]? = some p ∧ p.AwaitsBlob digest mediaType ∧
    r.ok = true ∧ r.body = body

/-- A layer as it was unpacked from an answer for its digest. -/
def Served (events : List PullEvent) (digest : String) (snap : PulledLayer) : Prop :=
  ∃ digest' mediaType body, asciiLower digest' = digest ∧
    BlobAnswer reg gunzip events digest' mediaType body ∧
    unpackBlob gunzip digest mediaType body = .ok snap

/-- A snapshot for the layer of a manifest. -/
def FromLayer (events : List PullEvent) (layer : Json) (snap : PulledLayer) : Prop :=
  ∃ digest mediaType, layerDescriptor layer = .ok (digest, mediaType) ∧
    Served reg gunzip events (asciiLower digest) snap

/-- The pull waits for a manifest. -/
def Pull.AwaitsManifest (p : Pull) : Prop :=
  p.phase = .waiting .manifest ∨ ∃ digest, p.phase = .waiting (.nested digest)

/-- The layers stand in a manifest that the pull has asked for and was answered with. -/
def GivenLayers (events : List PullEvent) (index : Nat) (layers : List Json) : Prop :=
  ∃ before r checks later json p, events = before ++ .reply index r checks :: later ∧
    (Worker.run reg gunzip {} before).pulls[index]? = some p ∧ p.AwaitsManifest ∧
    r.ok = true ∧ r.json = .ok json ∧ requireImageManifest reg json = .ok layers

/-- The registry answers each digest with the same bytes, and the manifests name one media type
for it. -/
def ContentAddressed (events : List PullEvent) (content : String → List UInt8)
    (kind : String → Option String) : Prop :=
  ∀ digest mediaType body, BlobAnswer reg gunzip events digest mediaType body →
    body = content (asciiLower digest) ∧ mediaType = kind (asciiLower digest)

variable {reg gunzip}

theorem BlobAnswer.later {events : List PullEvent} {digest : String} {mediaType : Option String}
    {body : List UInt8} (h : BlobAnswer reg gunzip events digest mediaType body)
    (more : List PullEvent) : BlobAnswer reg gunzip (events ++ more) digest mediaType body := by
  obtain ⟨before, index, r, checks, later, p, rfl, hp⟩ := h.answer
  exact ⟨before, index, r, checks, later ++ more, p, by simp, hp⟩

theorem Served.later {events : List PullEvent} {digest : String} {snap : PulledLayer}
    (h : Served reg gunzip events digest snap) (more : List PullEvent) :
    Served reg gunzip (events ++ more) digest snap := by
  obtain ⟨digest', mediaType, body, hdigest, hanswer, hunpack⟩ := h
  exact ⟨digest', mediaType, body, hdigest, hanswer.later more, hunpack⟩

theorem FromLayer.later {events : List PullEvent} {layer : Json} {snap : PulledLayer}
    (h : FromLayer reg gunzip events layer snap) (more : List PullEvent) :
    FromLayer reg gunzip (events ++ more) layer snap := by
  obtain ⟨digest, mediaType, hlayer, hserved⟩ := h
  exact ⟨digest, mediaType, hlayer, hserved.later more⟩

theorem GivenLayers.later {events : List PullEvent} {index : Nat} {layers : List Json}
    (h : GivenLayers reg gunzip events index layers) (more : List PullEvent) :
    GivenLayers reg gunzip (events ++ more) index layers := by
  obtain ⟨before, r, checks, later, json, p, rfl, hp⟩ := h
  exact ⟨before, r, checks, later ++ more, json, p, by simp, hp⟩

/-! ## The invariant -/

/-- The cache holds what the registry served. -/
def CacheServed (reg : OciRegistry) (gunzip : List UInt8 → Except String (List UInt8))
    (events : List PullEvent) (cache : LayerCache) : Prop :=
  ∀ digest snap, cache.lookup? digest = some snap → Served reg gunzip events digest snap

/-- What holds of a pull at any time. -/
structure PullFacts (reg : OciRegistry) (gunzip : List UInt8 → Except String (List UInt8))
    (events : List PullEvent) (index : Nat) (p : Pull) : Prop where
  within : p.layers.length ≤ maxImageLayers
  taken : List.Forall₂ (FromLayer reg gunzip events) (p.layers.take p.snapshots.length) p.snapshots
  blob : ∀ digest mediaType, p.AwaitsBlob digest mediaType →
    GivenLayers reg gunzip events index p.layers ∧ ∃ layer,
      p.layers[p.snapshots.length]? = some layer ∧ layerDescriptor layer = .ok (digest, mediaType)
  image : ∀ image, p.phase = .finished (.ok image) →
    GivenLayers reg gunzip events index p.layers ∧ p.snapshots.length = p.layers.length ∧
      image = { digest := p.ref.digest, owner := p.ref.owner, name := p.ref.name
                layers := p.snapshots }

theorem CacheServed.later {events : List PullEvent} {cache : LayerCache}
    (h : CacheServed reg gunzip events cache) (more : List PullEvent) :
    CacheServed reg gunzip (events ++ more) cache :=
  fun digest snap hsnap => (h digest snap hsnap).later more

theorem PullFacts.later {events : List PullEvent} {index : Nat} {p : Pull}
    (h : PullFacts reg gunzip events index p) (more : List PullEvent) :
    PullFacts reg gunzip (events ++ more) index p where
  within := h.within
  taken := h.taken.imp fun _ _ hlayer => hlayer.later more
  blob := fun digest mediaType hawaits =>
    ⟨(h.blob digest mediaType hawaits).1.later more, (h.blob digest mediaType hawaits).2⟩
  image := fun image himage => ⟨(h.image image himage).1.later more, (h.image image himage).2⟩

theorem PulledLayer.digest_add (snap : PulledLayer) (entry : ByteEntry) :
    (snap.add entry).digest = snap.digest := by
  unfold PulledLayer.add
  split
  · rfl
  · rfl
  · split <;> rfl
  · rfl

theorem digest_unpackBlob {digest : String} {mediaType : Option String} {blob : List UInt8}
    {snap : PulledLayer} (h : unpackBlob gunzip digest mediaType blob = .ok snap) :
    snap.digest = digest := by
  have hfold : ∀ (entries : List ByteEntry) (s : PulledLayer),
      (entries.foldl PulledLayer.add s).digest = s.digest := by
    intro entries
    induction entries with
    | nil => exact fun _ => rfl
    | cons entry rest ih =>
        intro s
        rw [List.foldl_cons, ih, s.digest_add]
  cases mediaType with
  | none => cases h
  | some mediaType =>
      simp only [unpackBlob] at h
      obtain ⟨tar, -, htar⟩ := bind_eq_ok.mp h
      obtain ⟨entries, -, hentries⟩ := bind_eq_ok.mp htar
      cases hentries
      exact hfold entries _

/-! ## One step of a pull -/

theorem PullFacts.failed {events : List PullEvent} {index : Nat} {p : Pull}
    (h : PullFacts reg gunzip events index p) (message : String) :
    PullFacts reg gunzip events index (p.failed message) where
  within := h.within
  taken := h.taken
  blob := by
    rintro digest mediaType (hphase | hphase) <;> cases hphase
  image := by
    intro image hphase
    cases hphase

theorem PullFacts.askManifest {events : List PullEvent} {index : Nat} {p : Pull}
    (h : PullFacts reg gunzip events index p) (digest : Json) {what : Awaiting}
    (hwhat : what = .manifest ∨ ∃ nested, what = .nested nested) (checks : List Bool) :
    PullFacts reg gunzip events index (p.askManifest reg digest what checks) := by
  unfold Pull.askManifest
  split
  · exact h.failed _
  split
  · exact h.failed _
  · exact
      { within := h.within
        taken := h.taken
        blob := by
          rcases hwhat with rfl | ⟨nested, rfl⟩ <;>
            rintro digest' mediaType (hphase | hphase) <;> cases hphase
        image := by intro image hphase; cases hphase }

/-- The loop over the layers keeps to what was served. -/
theorem pullLayers_facts {events : List PullEvent} {index : Nat} {cache : LayerCache}
    (hcache : CacheServed reg gunzip events cache) {ref : PullRef} {layers : List Json}
    (hwithin : layers.length ≤ maxImageLayers)
    (hgiven : GivenLayers reg gunzip events index layers) :
    ∀ (todo done : List Json) (snapshots : List PulledLayer) (checks : List Bool),
      layers = done ++ todo → List.Forall₂ (FromLayer reg gunzip events) done snapshots →
      PullFacts reg gunzip events index (pullLayers reg cache ref layers todo snapshots checks)
  | [], done, snapshots, checks, hlayers, htaken => by
      rw [List.append_nil] at hlayers
      subst hlayers
      have hlength := htaken.length_eq
      exact
        { within := hwithin
          taken := by
            show List.Forall₂ _ (layers.take snapshots.length) snapshots
            rw [← hlength, List.take_length]
            exact htaken
          blob := by rintro digest mediaType (hphase | hphase) <;> cases hphase
          image := by
            intro image hphase
            cases hphase
            exact ⟨hgiven, hlength.symm, rfl⟩ }
  | layer :: todo, done, snapshots, checks, hlayers, htaken => by
      have hlength := htaken.length_eq
      have htake : layers.take snapshots.length = done := by
        rw [hlayers, ← hlength, List.take_left]
      have hnext : layers[snapshots.length]? = some layer := by
        rw [hlayers, ← hlength]
        simp
      have hstopped : ∀ message, PullFacts reg gunzip events index
          { ref := ref, layers := layers, snapshots := snapshots
            phase := .finished (.error message) } := fun message =>
        { within := hwithin
          taken := by
            show List.Forall₂ _ (layers.take snapshots.length) snapshots
            rw [htake]
            exact htaken
          blob := by rintro digest mediaType (hphase | hphase) <;> cases hphase
          image := by intro image hphase; cases hphase }
      rw [pullLayers]
      split
      · exact hstopped _
      · cases hdescriptor : layerDescriptor layer with
        | error message => exact hstopped message
        | ok descriptor =>
            obtain ⟨digest, mediaType⟩ := descriptor
            simp only
            cases hcached : cache.lookup? (asciiLower digest) with
            | some cached =>
                have hfrom : FromLayer reg gunzip events layer cached :=
                  ⟨digest, mediaType, hdescriptor, hcache _ _ hcached⟩
                exact pullLayers_facts hcache hwithin hgiven todo (done ++ [layer])
                  (snapshots ++ [cached]) checks.tail (by rw [hlayers]; simp)
                  (List.rel_append htaken (.cons hfrom .nil))
            | none =>
                simp only
                split
                · exact hstopped _
                split
                · exact hstopped _
                · exact
                    { within := hwithin
                      taken := by
                        show List.Forall₂ _ (layers.take snapshots.length) snapshots
                        rw [htake]
                        exact htaken
                      blob := by
                        rintro digest' mediaType' (hphase | hphase)
                        · cases hphase
                          exact ⟨hgiven, layer, hnext, hdescriptor⟩
                        · cases hphase
                      image := by intro image hphase; cases hphase }

theorem PullFacts.takeLayers {events : List PullEvent} {index : Nat} {cache : LayerCache} {p : Pull}
    (hcache : CacheServed reg gunzip events cache) (h : PullFacts reg gunzip events index p)
    {layers : List Json} (hgiven : GivenLayers reg gunzip events index layers)
    (checks : List Bool) :
    PullFacts reg gunzip events index (p.takeLayers reg cache layers checks) := by
  unfold Pull.takeLayers
  split
  · exact h.failed _
  · rename_i hcap
    exact pullLayers_facts hcache (Nat.le_of_not_lt hcap) hgiven layers [] [] checks rfl .nil

theorem requireImageManifest_of_resolved {json : Json} {layers : List Json}
    (h : resolvePlatform reg json = .ok (.layers layers)) :
    requireImageManifest reg json = .ok layers := by
  have hmap : ∀ {layers : List Json}, (requireImageManifest reg json).map Resolved.layers =
      .ok (.layers layers) → requireImageManifest reg json = .ok layers := by
    intro layers hlayers
    cases hrequire : requireImageManifest reg json with
    | error message =>
        rw [hrequire] at hlayers
        cases hlayers
    | ok found =>
        rw [hrequire] at hlayers
        cases hlayers
        rfl
  unfold resolvePlatform at h
  simp only [bind, Except.bind] at h
  split at h
  · cases h
  · split at h
    · split at h
      · cases h
      · split at h
        · rename_i manifests _
          cases hdigest : chosenDigest reg manifests with
          | error message =>
              rw [hdigest] at h
              cases h
          | ok digest =>
              rw [hdigest] at h
              cases h
        · exact hmap h
    · exact hmap h

theorem PullFacts.takeManifest {events : List PullEvent} {index : Nat} {cache : LayerCache}
    {p : Pull} (hcache : CacheServed reg gunzip events cache)
    (h : PullFacts reg gunzip events index p) (isNested : Bool) {json : Json}
    (hgiven : ∀ layers, requireImageManifest reg json = .ok layers →
      GivenLayers reg gunzip events index layers) (checks : List Bool) :
    PullFacts reg gunzip events index (p.takeManifest reg cache isNested json checks) := by
  unfold Pull.takeManifest
  split
  · split
    · exact h.failed _
    · rename_i hlayers
      exact h.takeLayers hcache (hgiven _ hlayers) checks
  · split
    · exact h.failed _
    · rename_i hlayers
      exact h.takeLayers hcache (hgiven _ (requireImageManifest_of_resolved hlayers)) checks
    · exact h.askManifest _ (.inr ⟨_, rfl⟩) checks

theorem takeBlob_facts {events : List PullEvent} {index : Nat} {cache : LayerCache} {p : Pull}
    (hcache : CacheServed reg gunzip events cache) (h : PullFacts reg gunzip events index p)
    {digest : String} {mediaType : Option String} {body : List UInt8}
    (hawaits : p.AwaitsBlob digest mediaType)
    (hanswer : BlobAnswer reg gunzip events digest mediaType body) (checks : List Bool) :
    CacheServed reg gunzip events
        (p.takeBlob reg gunzip cache digest mediaType body checks).1 ∧
      PullFacts reg gunzip events index
        (p.takeBlob reg gunzip cache digest mediaType body checks).2 := by
  unfold Pull.takeBlob
  cases hunpack : unpackBlob gunzip (asciiLower digest) mediaType body with
  | error message => exact ⟨hcache, h.failed message⟩
  | ok snapshot =>
      have hserved : Served reg gunzip events (asciiLower digest) snapshot :=
        ⟨digest, mediaType, body, rfl, hanswer, hunpack⟩
      obtain ⟨hgiven, layer, hlayer, hdescriptor⟩ := h.blob digest mediaType hawaits
      have hcache' : CacheServed reg gunzip events
          (cache.upsert snapshot.digest fun _ => snapshot) := by
        intro digest' snap hsnap
        rw [digest_unpackBlob hunpack] at hsnap
        by_cases hsame : digest' = asciiLower digest
        · subst hsame
          rw [AssocMap.lookup_upsert_self] at hsnap
          rw [← Option.some.inj hsnap]
          exact hserved
        · rw [AssocMap.lookup_upsert_ne _ _ hsame] at hsnap
          exact hcache digest' snap hsnap
      refine ⟨hcache', ?_⟩
      have hlength : p.snapshots.length < p.layers.length :=
        (List.getElem?_eq_some_iff.mp hlayer).1
      have hsplit : p.layers = (p.layers.take p.snapshots.length ++ [layer]) ++
          p.layers.drop (p.snapshots.length + 1) := by
        rw [List.append_assoc, List.singleton_append]
        have hdrop : p.layers.drop p.snapshots.length =
            layer :: p.layers.drop (p.snapshots.length + 1) := by
          rw [List.drop_eq_getElem_cons hlength]
          have hget := (List.getElem?_eq_some_iff.mp hlayer).2
          rw [hget]
        rw [← hdrop, List.take_append_drop]
      exact pullLayers_facts hcache' h.within hgiven _ _ _ checks hsplit
        (List.rel_append h.taken (.cons ⟨digest, mediaType, hdescriptor, hserved⟩ .nil))

/-- An answer to a request of the pull. -/
theorem receive_facts {events : List PullEvent} {index : Nat} {w : Worker} {p : Pull}
    {what : Awaiting} (r : Reply) (checks : List Bool) (hw : Worker.run reg gunzip {} events = w)
    (hp : w.pulls[index]? = some p) (hphase : p.phase = .waiting what)
    (hcache : CacheServed reg gunzip events w.cache)
    (h : PullFacts reg gunzip events index p) :
    CacheServed reg gunzip (events ++ [.reply index r checks])
        (p.receive reg gunzip w.cache what r checks).1 ∧
      PullFacts reg gunzip (events ++ [.reply index r checks]) index
        (p.receive reg gunzip w.cache what r checks).2 := by
  have hcache' := hcache.later [.reply index r checks]
  have h' := h.later [.reply index r checks]
  have hmanifest : p.AwaitsManifest → r.ok = true → ∀ json, r.json = .ok json → ∀ layers,
      requireImageManifest reg json = .ok layers →
      GivenLayers reg gunzip (events ++ [.reply index r checks]) index layers := by
    intro hawaits hok json hjson layers hlayers
    rw [← hw] at hp
    exact ⟨events, r, checks, [], json, p, rfl, hp, hawaits, hok, hjson, hlayers⟩
  have hblob : ∀ digest mediaType, p.AwaitsBlob digest mediaType → r.ok = true →
      CacheServed reg gunzip (events ++ [.reply index r checks])
          (p.takeBlob reg gunzip w.cache digest mediaType r.body checks).1 ∧
        PullFacts reg gunzip (events ++ [.reply index r checks]) index
          (p.takeBlob reg gunzip w.cache digest mediaType r.body checks).2 := by
    intro digest mediaType hawaits hok
    have hanswer : BlobAnswer reg gunzip (events ++ [.reply index r checks]) digest mediaType
        r.body :=
      ⟨events, index, r, checks, [], p, rfl, by rw [hw]; exact hp, hawaits, hok, rfl⟩
    exact takeBlob_facts hcache' h' hawaits hanswer checks
  cases what with
  | token => exact ⟨hcache', h'⟩
  | manifest =>
      unfold Pull.receive
      cases hok : r.ok with
      | false => exact ⟨hcache', h'.failed _⟩
      | true =>
          simp only [Bool.not_true, Bool.false_eq_true, if_false]
          cases hjson : r.json with
          | error message => exact ⟨hcache', h'.failed message⟩
          | ok json =>
              exact ⟨hcache', h'.takeManifest hcache' false
                (hmanifest (.inl hphase) hok json hjson) _⟩
  | nested digest =>
      unfold Pull.receive
      cases hok : r.ok with
      | false => exact ⟨hcache', h'.failed _⟩
      | true =>
          simp only [Bool.not_true, Bool.false_eq_true, if_false]
          cases hjson : r.json with
          | error message => exact ⟨hcache', h'.failed message⟩
          | ok json =>
              exact ⟨hcache', h'.takeManifest hcache' true
                (hmanifest (.inr ⟨digest, hphase⟩) hok json hjson) _⟩
  | blob digest mediaType =>
      unfold Pull.receive
      simp only
      split
      · split
        · exact ⟨hcache', h'.failed _⟩
        · split
          · exact ⟨hcache', h'.failed _⟩
          · refine ⟨hcache', ?_⟩
            exact
              { within := h'.within
                taken := h'.taken
                blob := by
                  rintro digest' mediaType' (hphase' | hphase')
                  · cases hphase'
                  · cases hphase'
                    exact h'.blob digest mediaType (.inl hphase)
                image := by intro image hphase'; cases hphase' }
      · cases hok : r.ok with
        | false => exact ⟨hcache', h'.failed _⟩
        | true => exact hblob digest mediaType (.inl hphase) hok
  | redirected digest mediaType =>
      unfold Pull.receive
      cases hok : r.ok with
      | false => exact ⟨hcache', h'.failed _⟩
      | true => exact hblob digest mediaType (.inr hphase) hok

/-- What holds of a worker at any time. -/
structure WorkerFacts (reg : OciRegistry) (gunzip : List UInt8 → Except String (List UInt8))
    (events : List PullEvent) (w : Worker) : Prop where
  cache : CacheServed reg gunzip events w.cache
  pull : ∀ index p, w.pulls[index]? = some p → PullFacts reg gunzip events index p

theorem startPull_facts (events : List PullEvent) (index : Nat) (ref : PullRef)
    (checks : List Bool) : PullFacts reg gunzip events index (startPull reg ref checks) where
  within := Nat.zero_le _
  taken := .nil
  blob := by
    rintro digest mediaType (hphase | hphase)
    · simp only [startPull] at hphase
      split at hphase <;> cases hphase
    · simp only [startPull] at hphase
      split at hphase <;> cases hphase
  image := by
    intro image hphase
    simp only [startPull] at hphase
    split at hphase <;> cases hphase

theorem PullFacts.takeToken {events : List PullEvent} {index : Nat} {p : Pull}
    (h : PullFacts reg gunzip events index p) (checks : List Bool) :
    PullFacts reg gunzip events index (p.takeToken reg checks) := by
  unfold Pull.takeToken
  split
  · exact h.askManifest _ (.inl rfl) checks
  · exact h

/-- A pull that has changed, among the others. -/
theorem WorkerFacts.set {events : List PullEvent} {w : Worker} {cache : LayerCache} {index : Nat}
    {p : Pull} (hcache : CacheServed reg gunzip events cache)
    (hpull : ∀ index p, w.pulls[index]? = some p → PullFacts reg gunzip events index p)
    (hp : PullFacts reg gunzip events index p) :
    WorkerFacts reg gunzip events { cache := cache, pulls := w.pulls.set index p } where
  cache := hcache
  pull := by
    intro index' p' hp'
    rw [List.getElem?_set] at hp'
    split at hp'
    · rename_i hsame
      subst hsame
      split at hp'
      · rw [← Option.some.inj hp']
        exact hp
      · cases hp'
    · exact hpull index' p' hp'

/-- **One event** keeps what holds of a worker. -/
theorem workerFacts_step {events : List PullEvent} {w : Worker}
    (hw : Worker.run reg gunzip {} events = w) (h : WorkerFacts reg gunzip events w)
    (event : PullEvent) : WorkerFacts reg gunzip (events ++ [event]) (w.step reg gunzip event) := by
  have hcache := h.cache.later [event]
  have hpull : ∀ index p, w.pulls[index]? = some p →
      PullFacts reg gunzip (events ++ [event]) index p :=
    fun index p hp => (h.pull index p hp).later [event]
  have hsame : WorkerFacts reg gunzip (events ++ [event]) w := ⟨hcache, hpull⟩
  cases event with
  | start ref checks =>
      refine ⟨hcache, fun index p hp => ?_⟩
      have hp' : (w.pulls ++ [startPull reg ref checks])[index]? = some p := hp
      rw [List.getElem?_append] at hp'
      split at hp'
      · exact hpull index p hp'
      · have hmem := List.mem_of_getElem? hp'
        rw [List.mem_singleton.mp hmem]
        exact startPull_facts _ index ref checks
  | token index checks =>
      unfold Worker.step
      simp only
      split
      · rename_i p hp
        exact WorkerFacts.set hcache hpull ((hpull index p hp).takeToken checks)
      · exact hsame
  | reply index r checks =>
      unfold Worker.step
      simp only
      split
      · rename_i p hp
        split
        · rename_i what hphase
          have hreceive := receive_facts r checks hw hp hphase h.cache (h.pull index p hp)
          exact WorkerFacts.set hreceive.1 hpull hreceive.2
        · exact hsame
      · exact hsame
  | failure index message =>
      unfold Worker.step
      simp only
      split
      · rename_i p hp
        split
        · exact WorkerFacts.set hcache hpull ((hpull index p hp).failed message)
        · exact hsame
      · exact hsame

theorem workerFacts_run (reg : OciRegistry) (gunzip : List UInt8 → Except String (List UInt8))
    (events : List PullEvent) :
    WorkerFacts reg gunzip events (Worker.run reg gunzip {} events) := by
  induction events using List.reverseRecOn with
  | nil =>
      refine ⟨fun digest snap hsnap => ?_, fun index p hp => ?_⟩
      · cases hsnap
      · cases hp
  | append_singleton events event ih =>
      have hrun : Worker.run reg gunzip {} (events ++ [event]) =
          (Worker.run reg gunzip {} events).step reg gunzip event := by
        rw [Worker.run, List.foldl_append]
        rfl
      rw [hrun]
      exact workerFacts_step rfl ih event

/-! ## Images -/

/-- **Every image a worker returns**, whatever pulls are under way beside it and whatever fails,
has all layers of the manifest that its own pull was answered with, in order, each as the registry
served its digest to some pull; and where a digest always stands for the same bytes, each layer
depends on its descriptor alone. -/
theorem pull_layers (reg : OciRegistry) (gunzip : List UInt8 → Except String (List UInt8))
    (events : List PullEvent) (index : Nat) (p : Pull) (image : ImagePull) :
    (Worker.run reg gunzip {} events).pulls[index]? = some p →
    p.phase = .finished (.ok image) →
    image.digest = p.ref.digest ∧ GivenLayers reg gunzip events index p.layers ∧
      p.layers.length ≤ maxImageLayers ∧
      List.Forall₂ (FromLayer reg gunzip events) p.layers image.layers ∧
      ∀ content kind, ContentAddressed reg gunzip events content kind →
        List.Forall₂ (fun layer snap => ∃ digest mediaType,
          layerDescriptor layer = .ok (digest, mediaType) ∧
          unpackBlob gunzip (asciiLower digest) (kind (asciiLower digest))
            (content (asciiLower digest)) = .ok snap) p.layers image.layers := by
  intro hp hphase
  have hfacts := (workerFacts_run reg gunzip events).pull index p hp
  obtain ⟨hgiven, hlength, rfl⟩ := hfacts.image image hphase
  have hlayers := hfacts.taken
  rw [hlength, List.take_length] at hlayers
  refine ⟨rfl, hgiven, hfacts.within, hlayers, ?_⟩
  intro content kind haddressed
  refine hlayers.imp ?_
  rintro layer snap ⟨digest, mediaType, hdescriptor, digest', mediaType', body, hdigest, hanswer,
    hunpack⟩
  obtain ⟨hbody, hkind⟩ := haddressed digest' mediaType' body hanswer
  rw [hbody, hkind, hdigest] at hunpack
  exact ⟨digest, mediaType, hdescriptor, hunpack⟩

end Cache

/-- Two pulls whose images share a layer: the second takes it from the cache. -/
def sharedEvents : List PullEvent :=
  let layer := Json.obj [("digest", .str ("sha256:" ++ String.ofList (List.replicate 64 'a')))]
  let manifest : Reply := { status := 200, json := .ok (.obj [("layers", .arr [layer])]) }
  [.start ⟨"sha256:1", "acme", "api"⟩ [], .token 0 [], .reply 0 manifest [],
    .reply 0 { status := 200 } [], .start ⟨"sha256:2", "acme", "web"⟩ [], .token 1 [],
    .reply 1 manifest []]

/-- The image of a pull, where it has one. -/
def Worker.image? (w : Worker) (index : Nat) : Option ImagePull :=
  w.pulls[index]?.bind fun p =>
    match p.phase with
    | .finished (.ok image) => some image
    | _ => none

theorem Worker.image_eq {w : Worker} {index : Nat} {image : ImagePull}
    (h : w.image? index = some image) :
    ∃ p, w.pulls[index]? = some p ∧ p.phase = .finished (.ok image) := by
  unfold Worker.image? at h
  obtain ⟨p, hp, himage⟩ := Option.bind_eq_some_iff.mp h
  refine ⟨p, hp, ?_⟩
  split at himage
  · rename_i image' hphase
    rw [hphase, Option.some.inj himage]
  · cases himage

theorem pull_layers_shared :
    let reg := ghcrRegistry (fun _ _ => .ok "https://ghcr.io/v2/")
      (fun _ _ => .ok "https://ghcr.io/v2/")
      fun _ => .error "Refusing unparseable GHCR blob redirect"
    let gunzip : List UInt8 → Except String (List UInt8) := fun _ => .error "incorrect header"
    ∃ (p : Pull) (image : ImagePull),
      (Worker.run reg gunzip {} sharedEvents).pulls[1]? = some p ∧
      image.layers.length = 1 ∧
      GivenLayers reg gunzip sharedEvents 1 p.layers ∧
      List.Forall₂ (FromLayer reg gunzip sharedEvents) p.layers image.layers := by
  intro reg gunzip
  have himage : (Worker.run reg gunzip {} sharedEvents).image? 1 = some
      { digest := "sha256:2", owner := "acme", name := "web"
        layers := [
          { digest := "sha256:" ++ String.ofList (List.replicate 64 'a'), mediaType := "" }] } := by
    decide +kernel
  obtain ⟨p, hp, hphase⟩ := Worker.image_eq himage
  obtain ⟨-, hgiven, -, hlayers, -⟩ := pull_layers reg gunzip sharedEvents 1 p _ hp hphase
  exact ⟨p, _, hp, rfl, hgiven, hlayers⟩

end Scanner
end Ctem
