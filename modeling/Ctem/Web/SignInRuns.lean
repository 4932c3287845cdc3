import Ctem.Web.SignIn
import Mathlib.Data.List.Induction

/-!
# What a tab sends and keeps

Over every run of a tab, with any addresses for the callback and any answers:

* a code is sent with the verifier and behind the state of the last sign-in that was begun, and
  none that was begun before an answer was read (`Pending`);
* the session is a token that the token endpoint answered such a request with, and only signing
  out takes it away.
-/

namespace Ctem
namespace Web

open Foundation

/-! ## Single steps -/

/-- A trimmed text has nothing to trim. -/
theorem trimText_trimText (s : String) : trimText (trimText s) = trimText s := by
  unfold trimText
  rw [String.toList_ofList]
  congr 1
  have hhead : ∀ cs : List Char, ∀ c, (cs.dropWhile isJsSpace).head? = some c →
      isJsSpace c = false := by
    intro cs c hc
    have hnot := List.head?_dropWhile_not isJsSpace cs
    rw [hc] at hnot
    exact hnot
  by_cases hne : trimChars s.toList = []
  · rw [hne]
    rfl
  have hfirst : ∀ c, (trimChars s.toList).head? = some c → isJsSpace c = false := by
    intro c hc
    refine hhead s.toList c ?_
    have hprefix : trimChars s.toList <+: s.toList.dropWhile isJsSpace := by
      rw [← List.reverse_suffix, trimChars, List.reverse_reverse]
      exact List.dropWhile_suffix _
    obtain ⟨rest, hrest⟩ := hprefix
    rw [← hrest, List.head?_append_of_ne_nil _ hne]
    exact hc
  have hlast : ∀ c, (trimChars s.toList).getLast? = some c → isJsSpace c = false := by
    intro c hc
    rw [trimChars, List.getLast?_reverse] at hc
    exact hhead _ c hc
  have hnone : ∀ c ∈ ([] : List Char), isJsSpace c = true := by
    intro c hc
    exact absurd hc List.not_mem_nil
  have htrim := @trimChars_around (trimChars s.toList) [] [] hnone hnone hne hfirst hlast
  rw [List.nil_append, List.append_nil] at htrim
  exact htrim

theorem jwt_ne_empty {token : String} (h : isJwtAccessToken token = true) : token ≠ "" := by
  rintro rfl
  exact absurd h (by decide)

/-- What a callback is sent on with. -/
structure Exchanged (s : SessionStorage) (search origin : String) (post : TokenPost) : Prop where
  fresh : s.readStoredAccessJwt = none
  noError : nonEmpty (FormUrlEncoded.firstValue (searchParams search) "error") = none
  code : FormUrlEncoded.firstValue (searchParams search) "code" = some post.code
  codeGiven : post.code ≠ ""
  state : FormUrlEncoded.firstValue (searchParams search) "state" = s.state
  stateGiven : s.state.isSome = true
  verifier : s.verifier = some post.verifier
  origin : post.origin = origin

theorem refuseCallback_storage (s : SessionStorage) (message : String) :
    ((refuseCallback s message).1 = s ∨ (refuseCallback s message).1 = s.clearPkce) ∧
      ∀ post, (refuseCallback s message).2 ≠ .posting post := by
  unfold refuseCallback
  split
  · exact ⟨.inl rfl, fun post => by simp⟩
  · exact ⟨.inr rfl, fun post => by simp⟩

/-- The whole of what `exchangeAuthorizationCode` can do before its request. -/
theorem exchange_cases (s : SessionStorage) (search origin : String) :
    ((exchangeAuthorizationCode s search origin).1 = s ∨
        (exchangeAuthorizationCode s search origin).1 = s.clearPkce) ∧
      ∀ post, (exchangeAuthorizationCode s search origin).2 = .posting post →
        Exchanged s search origin post := by
  have hrefused : ∀ message,
      ((refuseCallback s message).1 = s ∨ (refuseCallback s message).1 = s.clearPkce) ∧
        ∀ post, (refuseCallback s message).2 = .posting post → Exchanged s search origin post :=
    fun message => ⟨(refuseCallback_storage s message).1,
      fun post hpost => absurd hpost ((refuseCallback_storage s message).2 post)⟩
  unfold exchangeAuthorizationCode
  split
  · exact ⟨.inl rfl, fun post hpost => by cases hpost⟩
  · rename_i hfresh
    simp only
    split
    · exact hrefused _
    · rename_i hnoError
      split
      · rename_i code returnedState expectedState verifier hcode hreturned hexpected hverifier
        split
        · rename_i hsame
          refine ⟨.inl rfl, fun post hpost => ?_⟩
          cases hpost
          obtain ⟨hcode, hne⟩ := nonEmpty_eq_some.mp hcode
          obtain ⟨hreturned, -⟩ := nonEmpty_eq_some.mp hreturned
          obtain ⟨hexpected, -⟩ := nonEmpty_eq_some.mp hexpected
          obtain ⟨hverifier, -⟩ := nonEmpty_eq_some.mp hverifier
          exact
            { fresh := hfresh
              noError := hnoError
              code := hcode
              codeGiven := hne
              state := by rw [hreturned, hexpected, hsame]
              stateGiven := by rw [hexpected]; rfl
              verifier := hverifier
              origin := rfl }
        · exact hrefused _
      · exact hrefused _

/-- The whole of what an answer can do to the storage. -/
theorem takeResponse_cases (numberText : Rat → String) (s : SessionStorage) (r : TokenResponse) :
    (takeResponse numberText s r).1.verifier = none ∧
      (takeResponse numberText s r).1.state = none ∧
      ((takeResponse numberText s r).1.token = s.token ∨
        (takeResponse numberText s r).1.token = none ∨
        ∃ text, r.ok = true ∧ r.payload.get? "access_token" = some (.str text) ∧
          (takeResponse numberText s r).1.token = some (trimText text) ∧
          isJwtAccessToken (trimText text) = true ∧ isPatToken (trimText text) = false) := by
  unfold takeResponse
  simp only
  split
  · rename_i token hok htoken
    split
    · exact ⟨rfl, rfl, .inl rfl⟩
    · rename_i hjwt
      unfold SessionStorage.setToken
      simp only
      split
      · exact ⟨rfl, rfl, .inl rfl⟩
      · rename_i storage hset
        split at hset
        · cases hset
        · rename_i hpat
          cases hset
          split
          · exact ⟨rfl, rfl, .inr (.inl rfl)⟩
          · refine ⟨rfl, rfl, .inr (.inr ⟨token, hok, ?_, ?_, ?_, ?_⟩)⟩
            · exact (Option.filter_eq_some_iff.mp htoken).1
            · rw [trimText_trimText]
            · simpa using hjwt
            · rw [trimText_trimText] at hpat
              simpa using hpat
  · exact ⟨rfl, rfl, .inl rfl⟩
  · exact ⟨rfl, rfl, .inl rfl⟩

/-! ## Runs -/

section Runs

variable (numberText : Rat → String)

/-- The tab after the events. -/
abbrev tabAfter (events : List TabEvent) : Tab := (tabSystem numberText).run {} events

/-- The sign-in was begun last, and no answer of the token endpoint has been read since. -/
def Pending (events : List TabEvent) (b : SignIn) : Prop :=
  ∃ before later, events = before ++ .begin b :: later ∧
    (∀ b', TabEvent.begin b' ∉ later) ∧
    ∀ mid r rest post, later = mid ++ .respond r :: rest →
      (tabAfter numberText (before ++ .begin b :: mid)).inflight ≠ some (.posting post)

/-- A token that the token endpoint answered a request of the tab with. -/
def Issued (events : List TabEvent) (token : String) : Prop :=
  ∃ before r later post text, events = before ++ .respond r :: later ∧
    (tabAfter numberText before).inflight = some (.posting post) ∧ r.ok = true ∧
    r.payload.get? "access_token" = some (.str text) ∧ token = trimText text ∧
    isJwtAccessToken token = true ∧ isPatToken token = false

/-- What holds of a tab at any time. -/
structure TabFacts (events : List TabEvent) (tab : Tab) : Prop where
  pair : (tab.storage.verifier = none ∧ tab.storage.state = none) ∨
    ∃ b, Pending numberText events b ∧ tab.storage.verifier = some b.verifier ∧
      tab.storage.state = some b.state
  token : ∀ token, tab.storage.token = some token → Issued numberText events token
  idle : ∀ post, tab.inflight = some (.posting post) → tab.storage.token = none

variable {numberText}

theorem Issued.later {events : List TabEvent} {token : String}
    (h : Issued numberText events token) (more : List TabEvent) :
    Issued numberText (events ++ more) token := by
  obtain ⟨before, r, later, post, text, rfl, hpost⟩ := h
  exact ⟨before, r, later ++ more, post, text, by simp, hpost⟩

theorem Issued.isJwt {events : List TabEvent} {token : String}
    (h : Issued numberText events token) :
    isJwtAccessToken token = true ∧ isPatToken token = false := by
  obtain ⟨before, r, later, post, text, -, -, -, -, -, hjwt⟩ := h
  exact hjwt

/-- An event that begins no sign-in and is no answer that is read. -/
theorem Pending.later {events : List TabEvent} {b : SignIn} (h : Pending numberText events b)
    {event : TabEvent} (hbegin : ∀ b', event ≠ .begin b')
    (hrespond : ∀ r, event = .respond r → ∀ post,
      (tabAfter numberText events).inflight ≠ some (.posting post)) :
    Pending numberText (events ++ [event]) b := by
  obtain ⟨before, later, rfl, hlast, hunread⟩ := h
  refine ⟨before, later ++ [event], by simp, ?_, ?_⟩
  · intro b' hb'
    rcases List.mem_append.mp hb' with hb' | hb'
    · exact hlast b' hb'
    · exact hbegin b' (List.mem_singleton.mp hb').symm
  · intro mid r rest post hsplit
    rcases List.eq_nil_or_concat rest with rfl | ⟨rest, last, rfl⟩
    · obtain ⟨rfl, hevent⟩ := List.append_inj' hsplit rfl
      exact hrespond r (List.cons.inj hevent).1 post
    · have hsplit' : later ++ [event] = (mid ++ .respond r :: rest) ++ [last] := by
        rw [hsplit]
        simp
      exact hunread mid r rest post (List.append_inj' hsplit' rfl).1

theorem pending_begin (events : List TabEvent) (b : SignIn) :
    Pending numberText (events ++ [.begin b]) b := by
  refine ⟨events, [], rfl, fun b' => List.not_mem_nil, ?_⟩
  intro mid r rest post hsplit
  exact absurd hsplit (by simp)

theorem tabSystem_step (tab : Tab) (event : TabEvent) :
    (tabSystem numberText).step tab event = tab.step numberText event := rfl

theorem step_respond {tab : Tab} {post : TokenPost} (h : tab.inflight = some (.posting post))
    (r : TokenResponse) :
    tab.step numberText (.respond r) =
      { storage := (takeResponse numberText tab.storage r).1
        inflight := some (.settled (takeResponse numberText tab.storage r).2) } := by
  unfold Tab.step
  simp only [h]

theorem tabAfter_concat (events : List TabEvent) (event : TabEvent) :
    tabAfter numberText (events ++ [event]) =
      (tabAfter numberText events).step numberText event := by
  unfold tabAfter
  rw [System.run_append, System.run_cons, System.run_nil, tabSystem_step]

theorem TabFacts.readStored {events : List TabEvent} {tab : Tab}
    (h : TabFacts numberText events tab) : tab.storage.readStoredAccessJwt = tab.storage.token := by
  unfold SessionStorage.readStoredAccessJwt
  cases htoken : tab.storage.token with
  | none => rfl
  | some token =>
      obtain ⟨hjwt, hpat⟩ := (h.token token htoken).isJwt
      rw [Option.filter_some, hjwt, hpat, decide_eq_false (jwt_ne_empty hjwt)]
      rfl

/-- What changes neither the tokens nor the sign-in. -/
theorem TabFacts.same {events : List TabEvent} {tab tab' : Tab}
    (h : TabFacts numberText events tab) {event : TabEvent} (hbegin : ∀ b', event ≠ .begin b')
    (hrespond : ∀ r, event = .respond r → ∀ post,
      (tabAfter numberText events).inflight ≠ some (.posting post))
    (hstorage : tab'.storage = tab.storage ∨ tab'.storage = tab.storage.clearPkce ∨
      tab'.storage = tab.storage.clearToken)
    (hidle : ∀ post, tab'.inflight = some (.posting post) → tab'.storage.token = none) :
    TabFacts numberText (events ++ [event]) tab' where
  pair := by
    rcases hstorage with hstorage | hstorage | hstorage
    · rw [hstorage]
      rcases h.pair with hnone | ⟨b, hpending, hb⟩
      · exact .inl hnone
      · exact .inr ⟨b, hpending.later hbegin hrespond, hb⟩
    · rw [hstorage]
      exact .inl ⟨rfl, rfl⟩
    · rw [hstorage]
      rcases h.pair with hnone | ⟨b, hpending, hb⟩
      · exact .inl hnone
      · exact .inr ⟨b, hpending.later hbegin hrespond, hb⟩
  token := by
    intro token htoken
    have hkept : tab.storage.token = some token := by
      rcases hstorage with hstorage | hstorage | hstorage
      · rwa [hstorage] at htoken
      · rwa [hstorage] at htoken
      · rw [hstorage] at htoken
        cases htoken
    exact (h.token token hkept).later [event]
  idle := hidle

/-- **One event** keeps what holds of a tab. -/
theorem tabFacts_step {events : List TabEvent}
    (h : TabFacts numberText events (tabAfter numberText events)) (event : TabEvent) :
    TabFacts numberText (events ++ [event])
      ((tabAfter numberText events).step numberText event) := by
  generalize htab : tabAfter numberText events = tab at h ⊢
  cases event with
  | begin b =>
      exact
        { pair := .inr ⟨b, pending_begin events b, rfl, rfl⟩
          token := fun token htoken => (h.token token htoken).later _
          idle := h.idle }
  | complete search origin =>
      have hcases := exchange_cases tab.storage search origin
      show TabFacts numberText _ (tab.completeAuthorization search origin)
      unfold Tab.completeAuthorization
      split
      · exact h.same (by simp) (by simp) (.inl rfl) h.idle
      · exact h.same (by simp) (by simp) (.inl rfl) h.idle
      · refine h.same (by simp) (by simp) ?_ ?_
        · exact hcases.1.imp_right .inl
        · intro post hpost
          have hexchanged := hcases.2 post (Option.some.inj hpost)
          have hnone : tab.storage.token = none := h.readStored ▸ hexchanged.fresh
          rcases hcases.1 with hstorage | hstorage
          · show (exchangeAuthorizationCode tab.storage search origin).1.token = none
            rw [hstorage]
            exact hnone
          · show (exchangeAuthorizationCode tab.storage search origin).1.token = none
            rw [hstorage]
            exact hnone
  | respond r =>
      unfold Tab.step
      simp only
      split
      · rename_i post hpost
        obtain ⟨hverifier, hstate, htoken⟩ := takeResponse_cases numberText tab.storage r
        exact
          { pair := .inl ⟨hverifier, hstate⟩
            token := by
              intro token hstored
              have hstored' : (takeResponse numberText tab.storage r).1.token = some token :=
                hstored
              have hnone := h.idle post hpost
              rcases htoken with htoken | htoken | ⟨text, hok, hpayload, htoken, hjwt, hpat⟩
              · rw [htoken, hnone] at hstored'
                cases hstored'
              · rw [htoken] at hstored'
                cases hstored'
              · rw [htoken] at hstored'
                cases hstored'
                exact ⟨events, r, [], post, text, rfl, htab ▸ hpost, hok, hpayload, rfl, hjwt, hpat⟩
            idle := fun post' hpost' => by cases hpost' }
      · rename_i hunread
        refine h.same (by simp) ?_ (.inl rfl) h.idle
        intro r' _ post hpost
        rw [htab] at hpost
        exact hunread post hpost
  | networkError message =>
      unfold Tab.step
      simp only
      split
      · exact h.same (by simp) (by simp) (.inl rfl) fun post hpost => by cases hpost
      · exact h.same (by simp) (by simp) (.inl rfl) h.idle
  | settle =>
      unfold Tab.step
      simp only
      split
      · exact h.same (by simp) (by simp) (.inl rfl) fun post hpost => by cases hpost
      · exact h.same (by simp) (by simp) (.inl rfl) h.idle
  | callbackFailed =>
      unfold Tab.step
      simp only
      split
      · exact h.same (by simp) (by simp) (.inl rfl) h.idle
      · exact h.same (by simp) (by simp) (.inr (.inr rfl)) fun _ _ => rfl
  | signOut => exact h.same (by simp) (by simp) (.inr (.inr rfl)) fun _ _ => rfl
  | load => exact h.same (by simp) (by simp) (.inl rfl) fun post hpost => by cases hpost

theorem tabFacts_run (events : List TabEvent) :
    TabFacts numberText events (tabAfter numberText events) := by
  induction events using List.reverseRecOn with
  | nil =>
      exact
        { pair := .inl ⟨rfl, rfl⟩
          token := fun token htoken => by cases htoken
          idle := fun post hpost => by cases hpost }
  | append_singleton events event ih =>
      rw [tabAfter_concat]
      exact tabFacts_step ih event

/-! ## A session stays -/

theorem TabFacts.keepsToken {events : List TabEvent} {tab : Tab}
    (h : TabFacts numberText events tab) {token : String} (htoken : tab.storage.token = some token)
    {event : TabEvent} (hstay : event ≠ .signOut) :
    (tab.step numberText event).storage.token = some token := by
  have hstored : tab.storage.readStoredAccessJwt = some token := h.readStored.trans htoken
  have hnot : ∀ post, tab.inflight ≠ some (.posting post) := by
    intro post hpost
    rw [h.idle post hpost] at htoken
    cases htoken
  cases event with
  | begin b => exact htoken
  | complete search origin =>
      show (tab.completeAuthorization search origin).storage.token = some token
      unfold Tab.completeAuthorization
      rw [hstored]
      exact htoken
  | respond r =>
      unfold Tab.step
      simp only
      exact htoken
  | networkError message =>
      unfold Tab.step
      simp only
      exact htoken
  | settle =>
      unfold Tab.step
      simp only
      split <;> exact htoken
  | callbackFailed =>
      unfold Tab.step SessionStorage.keepSessionAfterCallbackError
      simp only
      rw [hstored]
      exact htoken
  | signOut => exact absurd rfl hstay
  | load => exact htoken

theorem token_kept {events : List TabEvent} {token : String}
    (htoken : (tabAfter numberText events).storage.token = some token) (later : List TabEvent)
    (hstay : TabEvent.signOut ∉ later) :
    (tabAfter numberText (events ++ later)).storage.token = some token := by
  induction later using List.reverseRecOn with
  | nil => rwa [List.append_nil]
  | append_singleton later event ih =>
      rw [List.mem_append, not_or] at hstay
      rw [← List.append_assoc, tabAfter_concat]
      refine (tabFacts_run (events ++ later)).keepsToken (ih hstay.1) ?_
      rintro rfl
      exact hstay.2 List.mem_cons_self

theorem posts_none {tab : Tab} {token search origin : String}
    (hstored : tab.storage.readStoredAccessJwt = some token) : tab.posts search origin = none := by
  unfold Tab.posts
  rw [hstored]

theorem exchanged_of_posts {tab : Tab} {search origin : String} {post : TokenPost}
    (h : tab.posts search origin = some post) : Exchanged tab.storage search origin post := by
  unfold Tab.posts at h
  split at h
  · cases h
  · cases h
  · split at h
    · rename_i hpost
      rw [Option.some.inj h] at hpost
      exact (exchange_cases tab.storage search origin).2 post hpost
    · cases h

/-! ## A sign-in that goes through -/

/-- The parameters are read back from the address of the callback. -/
theorem searchParams_writePairs (params : List (String × String)) :
    searchParams ("?" ++ String.ofList (FormUrlEncoded.writePairs params)) = params := by
  have hmark : (FormUrlEncoded.writePairs params).head? ≠ some '?' := by
    intro hhead
    exact FormUrlEncoded.not_mem_writePairs (by decide) (by decide) (by decide) (by decide)
      (by decide) params (List.mem_of_mem_head? hhead)
  have hdrop : dropQuestionMark (FormUrlEncoded.writePairs params) =
      FormUrlEncoded.writePairs params := by
    unfold dropQuestionMark
    split
    · rename_i rest hrest
      rw [hrest] at hmark
      exact absurd rfl hmark
    · rfl
  unfold searchParams
  rw [String.toList_append, String.toList_ofList, String.toList_ofList]
  show FormUrlEncoded.readPairs (dropQuestionMark (FormUrlEncoded.writePairs params)) = params
  rw [hdrop, FormUrlEncoded.readPairs_writePairs]

/-- What `TokenPost.body` reads as. -/
theorem readPairs_body (post : TokenPost) :
    FormUrlEncoded.readPairs post.body =
      [("grant_type", "authorization_code"), ("client_id", "ctem-web"), ("code", post.code),
        ("redirect_uri", callbackUri post.origin), ("code_verifier", post.verifier)] :=
  FormUrlEncoded.readPairs_writePairs _

theorem verifier_ne_empty (b : SignIn) : b.verifier ≠ "" := by
  apply Base64Url.encode_ne_empty
  intro hempty
  have hlength := b.verifierBytes.property
  rw [hempty] at hlength
  cases hlength

theorem state_ne_empty (b : SignIn) : b.state ≠ "" := by
  apply Base64Url.encode_ne_empty
  intro hempty
  have hlength := b.stateBytes.property
  rw [hempty] at hlength
  cases hlength

/-- What the provider comes back with: the code and the state of the sign-in, and no error. -/
structure Answers (b : SignIn) (params : List (String × String)) (code : String) : Prop where
  noError : FormUrlEncoded.firstValue params "error" = none
  hasCode : FormUrlEncoded.firstValue params "code" = some code
  codeGiven : code ≠ ""
  hasState : FormUrlEncoded.firstValue params "state" = some b.state

theorem nonEmpty_none : nonEmpty none = none := rfl

theorem exchange_answers {s : SessionStorage} {b : SignIn} {params : List (String × String)}
    {code : String} (hnone : s.token = none) (h : Answers b params code) :
    exchangeAuthorizationCode (s.beginAuthorization b)
        ("?" ++ String.ofList (FormUrlEncoded.writePairs params)) b.origin =
      (s.beginAuthorization b,
        .posting { code := code, verifier := b.verifier, origin := b.origin }) := by
  have hstored : (s.beginAuthorization b).readStoredAccessJwt = none := by
    unfold SessionStorage.readStoredAccessJwt SessionStorage.beginAuthorization
    rw [hnone]
    rfl
  have hcode : nonEmpty (some code) = some code := nonEmpty_eq_some.mpr ⟨rfl, h.codeGiven⟩
  have hstate : nonEmpty (some b.state) = some b.state :=
    nonEmpty_eq_some.mpr ⟨rfl, state_ne_empty b⟩
  have hverifier : nonEmpty (some b.verifier) = some b.verifier :=
    nonEmpty_eq_some.mpr ⟨rfl, verifier_ne_empty b⟩
  unfold exchangeAuthorizationCode
  rw [hstored]
  simp only [searchParams_writePairs, h.noError, h.hasCode, h.hasState, hcode, hstate,
    SessionStorage.beginAuthorization, hverifier, if_pos, nonEmpty_none]

theorem isPatToken_of_jwt {text : String} (h : isJwtAccessToken text = true) :
    isPatToken (trimText text) = false := by
  unfold isJwtAccessToken at h
  simp only at h
  split at h
  · cases h
  · rename_i hnot
    rw [Bool.or_eq_true, not_or] at hnot
    simpa using hnot.2

theorem takeResponse_jwt {s : SessionStorage} {payload : Json} {text : String}
    (htext : payload.get? "access_token" = some (.str text)) (hjwt : isJwtAccessToken text = true) :
    (takeResponse numberText s { ok := true, payload := payload }).1.token =
      some (trimText text) := by
  have htruthy : Option.filter Json.truthy (some (.str text)) = some (.str text) := by
    rw [Option.filter_some, Json.truthy_str, decide_eq_true (jwt_ne_empty hjwt)]
    rfl
  have hjwt' : isJwtAccessToken (trimText text) = true := by
    unfold isJwtAccessToken at hjwt ⊢
    rw [trimText_trimText]
    simpa [isPatToken, trimText_trimText] using hjwt
  have hpat := isPatToken_of_jwt hjwt
  have hstored : nonEmpty (some (trimText text)) = some (trimText text) :=
    nonEmpty_eq_some.mpr ⟨rfl, jwt_ne_empty hjwt'⟩
  unfold takeResponse SessionStorage.setToken
  simp [htext, htruthy, hjwt', trimText_trimText, hpat, hstored]

/-- The three steps of a sign-in that the provider answers. -/
theorem signIn_through {tab : Tab} {b : SignIn} {params : List (String × String)}
    {code text : String} {payload : Json} (hnone : tab.storage.token = none)
    (hidle : tab.inflight = none) (hparams : Answers b params code)
    (htext : payload.get? "access_token" = some (.str text)) (hjwt : isJwtAccessToken text = true) :
    ((tabSystem numberText).run tab
      [.begin b, .complete ("?" ++ String.ofList (FormUrlEncoded.writePairs params)) b.origin,
        .respond { ok := true, payload := payload }]).storage.token = some (trimText text) := by
  have hstored : (tab.storage.beginAuthorization b).readStoredAccessJwt = none := by
    unfold SessionStorage.readStoredAccessJwt SessionStorage.beginAuthorization
    rw [hnone]
    rfl
  have hcomplete : (tab.step numberText (.begin b)).step numberText
      (.complete ("?" ++ String.ofList (FormUrlEncoded.writePairs params)) b.origin) =
        { storage := tab.storage.beginAuthorization b
          inflight := some (.posting
            { code := code, verifier := b.verifier, origin := b.origin }) } := by
    unfold Tab.step Tab.completeAuthorization
    simp only [hstored, hidle, exchange_answers hnone hparams]
  rw [System.run_cons, System.run_cons, System.run_cons, System.run_nil, tabSystem_step,
    tabSystem_step, tabSystem_step, hcomplete, step_respond rfl, takeResponse_jwt htext hjwt]

end Runs

/-- **Signing in**, over every run of a tab.  The session is a token that the endpoint issued for a
request of the tab and never a PAT; a code goes out only with the verifier of the last sign-in,
whose authorization request had the returned state and the challenge of that verifier, and not
again once an answer was read; a session stays, with no further request, until it is signed out;
and a sign-in that the provider answers goes through. -/
theorem signIn_run (numberText : Rat → String) (sha256 : List UInt8 → List UInt8)
    (events : List TabEvent) :
    (∀ token, (tabAfter numberText events).storage.token = some token →
      Issued numberText events token) ∧
    (∀ before search origin later post, events = before ++ .complete search origin :: later →
      (tabAfter numberText before).posts search origin = some post →
      ∃ b, Pending numberText before b ∧ post.verifier = b.verifier ∧ post.origin = origin ∧
        FormUrlEncoded.firstValue (searchParams search) "code" = some post.code ∧
        FormUrlEncoded.firstValue (searchParams search) "state" =
          FormUrlEncoded.firstValue
            (FormUrlEncoded.readPairs (authorizationQuery sha256 b)) "state" ∧
        FormUrlEncoded.firstValue
            (FormUrlEncoded.readPairs (authorizationQuery sha256 b)) "code_challenge" =
          some (s256Challenge sha256 post.verifier)) ∧
    (∀ token later, (tabAfter numberText events).storage.token = some token →
      TabEvent.signOut ∉ later →
      (tabAfter numberText (events ++ later)).storage.token = some token ∧
      ∀ before search origin rest, later = before ++ .complete search origin :: rest →
        (tabAfter numberText (events ++ before)).posts search origin = none) ∧
    (∀ b params code payload text, (tabAfter numberText events).storage.token = none →
      (tabAfter numberText events).inflight = none → Answers b params code →
      payload.get? "access_token" = some (.str text) → isJwtAccessToken text = true →
      (tabAfter numberText (events ++
        [.begin b, .complete ("?" ++ String.ofList (FormUrlEncoded.writePairs params)) b.origin,
          .respond { ok := true, payload := payload }])).storage.token = some (trimText text)) := by
  refine ⟨(tabFacts_run events).token, ?_, ?_, ?_⟩
  · rintro before search origin later post - hpost
    have hexchanged := exchanged_of_posts hpost
    obtain ⟨hverifier, hstate⟩ | ⟨b, hpending, hverifier, hstate⟩ :=
      (tabFacts_run before).pair
    · have hgiven := hexchanged.stateGiven
      rw [hstate] at hgiven
      cases hgiven
    · have hsame : post.verifier = b.verifier :=
        Option.some.inj (hexchanged.verifier.symm.trans hverifier)
      refine ⟨b, hpending, hsame, hexchanged.origin, hexchanged.code, ?_, ?_⟩
      · rw [hexchanged.state, hstate, authorizationQuery, FormUrlEncoded.readPairs_writePairs]
        rfl
      · rw [hsame, authorizationQuery, FormUrlEncoded.readPairs_writePairs]
        rfl
  · intro token later htoken hstay
    refine ⟨token_kept htoken later hstay, ?_⟩
    rintro before search origin rest rfl
    rw [List.mem_append, not_or] at hstay
    have hkept := token_kept htoken before hstay.1
    exact posts_none ((tabFacts_run (events ++ before)).readStored.trans hkept)
  · intro b params code payload text hnone hidle hparams htext hjwt
    unfold tabAfter at hnone hidle ⊢
    rw [System.run_append]
    exact signIn_through hnone hidle hparams htext hjwt

end Web
end Ctem
