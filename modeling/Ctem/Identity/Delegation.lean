import Ctem.Foundation.Runs
import Ctem.Identity.ApiTokens

/-!
# Delegation along tokens

The machine tokens of one organisation while time passes, members come, go and change roles,
the gateway builds principals, and principals issue and revoke tokens.  A principal is a signed
header: it may be used at any later moment, so the world remembers every principal the gateway
has built.  Which principal issued a token is history that no call reads.

* `NeverAdds` is what delegation promises: the principal of a verified token holds no more than
  the issuer of the token held, and along a chain of tokens issued by tokens the permissions
  shrink.
* `issue` stores what it is asked for.  `delegation_never_adds`: the promise holds along a run
  precisely when every accepted issue asks only for permissions its issuer holds, or for a token
  that has expired already.
-/

namespace Ctem
namespace Identity

open Foundation Contracts

/-- The organisation; its id is a UUID. -/
structure TokenOrg where
  id : Uuid
  id_ne : id ≠ ""

structure TokenWorld where
  now : Timestamp
  memberships : Table MembershipRow MembershipRow.userId
  tokens : ApiTokens
  /-- Every principal whose header the gateway has signed. -/
  built : List GatewayPrincipal
  /-- Who issued a token, by the id of its row. -/
  issuers : Uuid → Option GatewayPrincipal

inductive TokenCall where
  | tick (elapsed : Nat)
  | member (write : MemberWrite)
  /-- A request of a member. -/
  | signIn (userId : Uuid)
  /-- A request with a machine token. -/
  | present (token : String)
  | issue (principal : GatewayPrincipal) (body : IssueTokenBody) (draw : TokenDraw)
  | revoke (principal : GatewayPrincipal) (id : Uuid)

namespace TokenWorld

/-- The organisation before its first token. -/
def start (now : Timestamp) (memberships : Table MembershipRow MembershipRow.userId) :
    TokenWorld where
  now := now
  memberships := memberships
  tokens := ApiTokens.empty
  built := []
  issuers := fun _ => none

/-- The gateway signs the principal it has built. -/
def sign (w : TokenWorld) (result : Except TokenError GatewayPrincipal) : TokenWorld :=
  match result with
  | .ok principal => { w with built := principal :: w.built }
  | .error _ => w

/-- The table with the new row, and who issued it. -/
def record (w : TokenWorld) (tokens : ApiTokens) (id : Uuid) (issuer : GatewayPrincipal) :
    TokenWorld :=
  { w with
    tokens := tokens
    issuers := Function.update w.issuers id (some issuer) }

@[simp] theorem issuers_record_self (w : TokenWorld) (tokens : ApiTokens) (id : Uuid)
    (issuer : GatewayPrincipal) : (w.record tokens id issuer).issuers id = some issuer := by
  simp [record]

theorem issuers_record_ne (w : TokenWorld) (tokens : ApiTokens) {id id' : Uuid}
    (issuer : GatewayPrincipal) (hne : id' ≠ id) :
    (w.record tokens id issuer).issuers id' = w.issuers id' := by
  simp [record, hne]

section Steps

variable (platform : TokenPlatform) (org : TokenOrg)

def stepIssue (w : TokenWorld) (principal : GatewayPrincipal) (body : IssueTokenBody)
    (draw : TokenDraw) : TokenWorld :=
  -- a header the gateway did not sign is refused
  if principal ∈ w.built then
    match issue platform w.tokens principal body draw with
    | .ok (row, tokens) => w.record tokens row.id principal
    | .error _ => w
  else w

def stepRevoke (w : TokenWorld) (principal : GatewayPrincipal) (id : Uuid) : TokenWorld :=
  if principal ∈ w.built then
    match Identity.revoke w.tokens principal id w.now with
    | .ok tokens => { w with tokens := tokens }
    | .error _ => w
  else w

def step (w : TokenWorld) : TokenCall → TokenWorld
  | .tick elapsed => { w with now := w.now + elapsed }
  | .member write => { w with memberships := write.apply w.memberships }
  | .signIn userId => w.sign (memberPrincipal w.memberships org.id userId)
  | .present token => w.sign (verifyPat platform w.tokens token w.now)
  | .issue principal body draw => w.stepIssue platform principal body draw
  | .revoke principal id => w.stepRevoke principal id

/-- The organisation under any sequence of calls. -/
def system : System TokenWorld TokenCall where
  step := step platform org
  allowed := fun _ _ => True

end Steps

/-! ## The promise -/

section Promise

variable (platform : TokenPlatform) (w : TokenWorld)

/-- The principal is one the gateway has built for a token, or builds for a token presented
now. -/
def Builds (q : GatewayPrincipal) : Prop :=
  (q ∈ w.built ∧ q.serviceAccount.isSome = true) ∨
    ∃ token, verifyPat platform w.tokens token w.now = .ok q

/-- The second token was issued by a principal of the first. -/
def IssuedThrough (parent child : Uuid) : Prop :=
  ∃ issuer, w.issuers child = some issuer ∧ issuer.serviceAccount.isSome = true ∧
    issuer.userId = parent

/-- Delegation adds no permission. -/
structure NeverAdds : Prop where
  /-- The issuer of a token held what the principal of the token holds. -/
  held : ∀ q, Builds platform w q →
    ∃ issuer, w.issuers q.userId = some issuer ∧ q.permissions ⊆ issuer.permissions
  /-- Along a chain of tokens issued by tokens the permissions shrink. -/
  shrinks : ∀ p q, Builds platform w p → Builds platform w q →
    Relation.TransGen w.IssuedThrough p.userId q.userId → q.permissions ⊆ p.permissions

end Promise

/-- An accepted issue asks for permissions its issuer holds, or for a token that has expired
already. -/
def AsksWithin (platform : TokenPlatform) (w : TokenWorld) : TokenCall → Prop
  | .issue principal body draw =>
      principal ∈ w.built → ∀ row tokens,
        issue platform w.tokens principal body draw = .ok (row, tokens) →
          scopePermissions body.requested ⊆ principal.permissions ∨ row.expired w.now = true
  | _ => True

end TokenWorld

/-! ## The invariant -/

namespace TokenWorld

section Invariant

variable {platform : TokenPlatform} {org : TokenOrg} {w w' : TokenWorld}

/-- The token holds what its issuer held. -/
def Granted (w : TokenWorld) (row : ApiTokenRow) : Prop :=
  ∃ issuer, w.issuers row.id = some issuer ∧
    scopePermissions row.scopes ⊆ issuer.permissions

/-- Every token that may still verify is granted, and every principal built for a token comes
from a granted one. -/
structure Delegated (org : TokenOrg) (w : TokenWorld) : Prop where
  signedFor : ∀ q ∈ w.built, q.orgId = org.id
  ofOrg : ∀ row ∈ w.tokens, row.orgId = org.id
  granted : ∀ row ∈ w.tokens, row.expired w.now = false → w.Granted row
  issuedBySigned : ∀ id issuer, w.issuers id = some issuer → issuer ∈ w.built
  fromToken : ∀ q ∈ w.built, q.serviceAccount.isSome = true →
    ∃ row ∈ w.tokens, row.id = q.userId ∧ scopePermissions row.scopes = q.permissions ∧
      w.Granted row

theorem delegated_start (now : Timestamp) (memberships : Table MembershipRow MembershipRow.userId) :
    Delegated org (start now memberships) where
  signedFor := by simp [start]
  ofOrg := fun row hrow => absurd hrow (ApiTokens.not_mem_empty row)
  granted := fun row hrow => absurd hrow (ApiTokens.not_mem_empty row)
  issuedBySigned := by simp [start]
  fromToken := by simp [start]

/-! ### Steps that issue nothing -/

/-- Nothing a verification reads for permissions differs between the rows. -/
structure SameGrant (row row' : ApiTokenRow) : Prop where
  id : row'.id = row.id
  orgId : row'.orgId = row.orgId
  scopes : row'.scopes = row.scopes
  expiresAt : row'.expiresAt = row.expiresAt

theorem SameGrant.refl (row : ApiTokenRow) : SameGrant row row := ⟨rfl, rfl, rfl, rfl⟩

/-- A token that has expired stays expired. -/
theorem expired_of_le {row : ApiTokenRow} {now now' : Timestamp} (hle : now ≤ now')
    (hlive : row.expired now' = false) : row.expired now = false := by
  unfold ApiTokenRow.expired at *
  split at hlive
  · rw [decide_eq_false_iff_not] at hlive ⊢
    exact fun hlt => hlive (lt_of_lt_of_le hlt hle)
  · rfl

theorem SameGrant.expired {row row' : ApiTokenRow} (hsame : SameGrant row row') (now : Timestamp) :
    row'.expired now = row.expired now := by
  unfold ApiTokenRow.expired
  rw [hsame.expiresAt]

/-- The invariant survives a step after which every row is a row from before, at a later time,
and nothing was built or issued. -/
theorem Delegated.of_rows (hdel : Delegated org w) (hnow : w.now ≤ w'.now)
    (hbuilt : w'.built = w.built) (hissuers : w'.issuers = w.issuers)
    (hback : ∀ row' ∈ w'.tokens, ∃ row ∈ w.tokens, SameGrant row row')
    (hforth : ∀ row ∈ w.tokens, ∃ row' ∈ w'.tokens, SameGrant row row') : Delegated org w' := by
  have hgranted : ∀ {row row'}, SameGrant row row' → w.Granted row → w'.Granted row' := by
    rintro row row' hsame ⟨issuer, hissuer, hsub⟩
    refine ⟨issuer, ?_, hsame.scopes ▸ hsub⟩
    rw [hissuers, hsame.id, hissuer]
  refine ⟨hbuilt ▸ hdel.signedFor, ?_, ?_, ?_, ?_⟩
  · intro row' hrow'
    obtain ⟨row, hrow, hsame⟩ := hback row' hrow'
    rw [hsame.orgId]
    exact hdel.ofOrg row hrow
  · intro row' hrow' hlive
    obtain ⟨row, hrow, hsame⟩ := hback row' hrow'
    have hbefore : row.expired w.now = false :=
      expired_of_le hnow (hsame.expired w'.now ▸ hlive)
    exact hgranted hsame (hdel.granted row hrow hbefore)
  · rw [hissuers, hbuilt]
    exact hdel.issuedBySigned
  · rw [hbuilt]
    intro q hq hmachine
    obtain ⟨row, hrow, hid, hperm, hgrant⟩ := hdel.fromToken q hq hmachine
    obtain ⟨row', hrow', hsame⟩ := hforth row hrow
    exact ⟨row', hrow', hsame.id.trans hid, hsame.scopes ▸ hperm, hgranted hsame hgrant⟩

theorem Delegated.of_tokens_eq (hdel : Delegated org w) (hnow : w.now ≤ w'.now)
    (hbuilt : w'.built = w.built) (hissuers : w'.issuers = w.issuers)
    (htokens : w'.tokens = w.tokens) : Delegated org w' := by
  refine hdel.of_rows hnow hbuilt hissuers ?_ ?_
  · intro row hrow
    exact ⟨row, htokens ▸ hrow, SameGrant.refl row⟩
  · intro row hrow
    exact ⟨row, htokens ▸ hrow, SameGrant.refl row⟩

theorem delegated_stepRevoke (hdel : Delegated org w) (principal : GatewayPrincipal) (id : Uuid) :
    Delegated org (w.stepRevoke principal id) := by
  unfold stepRevoke
  split
  · split
    · rename_i tokens hrevoke
      have htokens : w.tokens.revoke id w.now = tokens := by
        unfold Identity.revoke at hrevoke
        split at hrevoke
        · simp at hrevoke
        · exact Except.ok.inj hrevoke
      subst htokens
      have hsame : ∀ row : ApiTokenRow, SameGrant row
          (if decide (row.id = id) then { row with revokedAt := some w.now } else row) := by
        intro row
        split
        · exact ⟨rfl, rfl, rfl, rfl⟩
        · exact SameGrant.refl row
      refine hdel.of_rows le_rfl rfl rfl ?_ ?_
      · intro row' hrow'
        obtain ⟨row, hrow, rfl⟩ := ApiTokens.mem_revoke.mp hrow'
        exact ⟨row, hrow, hsame row⟩
      · intro row hrow
        exact ⟨_, ApiTokens.mem_revoke.mpr ⟨row, hrow, rfl⟩, hsame row⟩
    · exact hdel
  · exact hdel

/-! ### Building principals -/

/-- A built principal of this organisation that is a member, or comes from a granted token,
keeps the invariant. -/
theorem Delegated.sign (hdel : Delegated org w) {result : Except TokenError GatewayPrincipal}
    (horg : ∀ q, result = .ok q → q.orgId = org.id)
    (htoken : ∀ q, result = .ok q → q.serviceAccount.isSome = true →
      ∃ row ∈ w.tokens, row.id = q.userId ∧ scopePermissions row.scopes = q.permissions ∧
        w.Granted row) : Delegated org (w.sign result) := by
  cases result with
  | error e => exact hdel
  | ok q =>
      refine ⟨?_, hdel.ofOrg, hdel.granted, ?_, ?_⟩
      · exact List.forall_mem_cons.mpr ⟨horg q rfl, hdel.signedFor⟩
      · intro id issuer hissuer
        exact List.mem_cons_of_mem q (hdel.issuedBySigned id issuer hissuer)
      · exact List.forall_mem_cons.mpr ⟨htoken q rfl, hdel.fromToken⟩

/-- The principal of a verified token comes from a granted row. -/
theorem Delegated.of_verifyPat (hdel : Delegated org w) {token : String} {q : GatewayPrincipal}
    (hverify : verifyPat platform w.tokens token w.now = .ok q) :
    q.orgId = org.id ∧ ∃ row ∈ w.tokens, row.id = q.userId ∧
      scopePermissions row.scopes = q.permissions ∧ w.Granted row := by
  obtain ⟨row, hrow, hlive, hid, horg, hperm, -⟩ := verifyPat_ok hverify
  exact ⟨horg.trans (hdel.ofOrg row hrow), row, hrow, hid.symm, hperm.symm,
    hdel.granted row hrow hlive⟩

/-! ### Issuing -/

/-- An accepted issue adds one row, under a free id, whose issuer is on record. -/
theorem Delegated.issue (hdel : Delegated org w) {principal : GatewayPrincipal}
    {body : IssueTokenBody} {draw : TokenDraw} {row : ApiTokenRow} {tokens : ApiTokens}
    (hsigned : principal ∈ w.built)
    (hissue : Identity.issue platform w.tokens principal body draw = .ok (row, tokens))
    (hwithin : scopePermissions body.requested ⊆ principal.permissions ∨
      row.expired w.now = true) :
    Delegated org (w.record tokens row.id principal) := by
  obtain ⟨expiresAt, -, hrow, hcreate⟩ := issue_ok hissue
  -- the id of the new row is free, so the tokens from before keep their issuers
  have hkeep : ∀ {r : ApiTokenRow}, r ∈ w.tokens → w.Granted r →
      (w.record tokens row.id principal).Granted r := by
    rintro r hr ⟨issuer, hissuer, hsub⟩
    have hne : r.id ≠ row.id := ApiTokens.id_free_of_create? hcreate hr
    exact ⟨issuer, (w.issuers_record_ne tokens principal hne).trans hissuer, hsub⟩
  refine ⟨hdel.signedFor, ?_, ?_, ?_, ?_⟩
  · intro r hr
    rcases (ApiTokens.mem_create? hcreate).mp hr with rfl | hr
    · rw [hrow]
      exact hdel.signedFor principal hsigned
    · exact hdel.ofOrg r hr
  · intro r hr hlive
    rcases (ApiTokens.mem_create? hcreate).mp hr with rfl | hr
    · change r.expired w.now = false at hlive
      rcases hwithin with hsub | hexpired
      · refine ⟨principal, w.issuers_record_self tokens _ principal, ?_⟩
        rw [hrow]
        exact hsub
      · rw [hexpired] at hlive
        exact absurd hlive (by simp)
    · exact hkeep hr (hdel.granted r hr hlive)
  · intro id issuer hissuer
    by_cases hid : id = row.id
    · rw [hid, issuers_record_self, Option.some_inj] at hissuer
      exact hissuer ▸ hsigned
    · rw [w.issuers_record_ne tokens principal hid] at hissuer
      exact hdel.issuedBySigned id issuer hissuer
  · intro q hq hmachine
    obtain ⟨r, hr, hid, hperm, hgrant⟩ := hdel.fromToken q hq hmachine
    exact ⟨r, (ApiTokens.mem_create? hcreate).mpr (Or.inr hr), hid, hperm, hkeep hr hgrant⟩

/-- **Step.**  A call whose issue asks within what the issuer holds keeps the invariant. -/
theorem delegated_step (hdel : Delegated org w) (call : TokenCall)
    (hwithin : AsksWithin platform w call) : Delegated org (step platform org w call) := by
  cases call with
  | tick elapsed => exact hdel.of_tokens_eq (Nat.le_add_right _ _) rfl rfl rfl
  | member write => exact hdel.of_tokens_eq le_rfl rfl rfl rfl
  | signIn userId =>
      refine hdel.sign ?_ ?_
      · intro q hq
        exact (memberPrincipal_ok hq).1
      · intro q hq hmachine
        rw [(memberPrincipal_ok hq).2] at hmachine
        exact absurd hmachine (by simp)
  | present token =>
      refine hdel.sign ?_ ?_
      · intro q hq
        exact (hdel.of_verifyPat hq).1
      · intro q hq _
        exact (hdel.of_verifyPat hq).2
  | issue principal body draw =>
      change Delegated org (w.stepIssue platform principal body draw)
      unfold stepIssue
      split
      · rename_i hsigned
        split
        · rename_i row tokens hissue
          exact hdel.issue hsigned hissue (hwithin hsigned row tokens hissue)
        · exact hdel
      · exact hdel
  | revoke principal id => exact delegated_stepRevoke hdel principal id

/-! ### What the invariant gives -/

/-- A principal the gateway builds for a token has the permissions of a granted row. -/
theorem Delegated.of_builds (hdel : Delegated org w) {q : GatewayPrincipal}
    (hq : Builds platform w q) :
    ∃ row ∈ w.tokens, row.id = q.userId ∧ scopePermissions row.scopes = q.permissions ∧
      w.Granted row := by
  rcases hq with ⟨hbuilt, hmachine⟩ | ⟨token, hverify⟩
  · exact hdel.fromToken q hbuilt hmachine
  · exact (hdel.of_verifyPat hverify).2

/-- The issuer of a token held what any principal of the token holds. -/
theorem Delegated.held (hdel : Delegated org w) {q : GatewayPrincipal}
    (hq : Builds platform w q) :
    ∃ issuer, w.issuers q.userId = some issuer ∧ q.permissions ⊆ issuer.permissions := by
  obtain ⟨row, -, hid, hperm, issuer, hissuer, hsub⟩ := hdel.of_builds hq
  exact ⟨issuer, hid ▸ hissuer, hperm ▸ hsub⟩

/-- Two principals of one token hold the same. -/
theorem Delegated.permissions_eq (hdel : Delegated org w) {p q : GatewayPrincipal}
    (hp : Builds platform w p) (hq : Builds platform w q) (huser : p.userId = q.userId) :
    p.permissions = q.permissions := by
  obtain ⟨row, hrow, hid, hperm, -⟩ := hdel.of_builds hp
  obtain ⟨row', hrow', hid', hperm', -⟩ := hdel.of_builds hq
  have heq : row = row' := ApiTokens.eq_of_id_eq hrow hrow' (hid.trans (huser.trans hid'.symm))
  rw [← hperm, ← hperm', heq]

/-- One link of a chain: the principal of the issued token holds no more than the principal of
the token it was issued through. -/
theorem Delegated.shrinks_link (hdel : Delegated org w) {p q : GatewayPrincipal}
    (hp : Builds platform w p) (hq : Builds platform w q)
    (hlink : w.IssuedThrough p.userId q.userId) : q.permissions ⊆ p.permissions := by
  obtain ⟨issuer, hissuer, hmachine, huser⟩ := hlink
  obtain ⟨issuer', hissuer', hsub⟩ := hdel.held hq
  have hsame : issuer' = issuer := Option.some_inj.mp (hissuer'.symm.trans hissuer)
  have hbuilds : Builds platform w issuer :=
    Or.inl ⟨hdel.issuedBySigned _ _ hissuer, hmachine⟩
  rw [hdel.permissions_eq hp hbuilds huser.symm, ← hsame]
  exact hsub

/-- Along a chain the permissions shrink: by induction on the chain, whose inner links are
principals the gateway has built. -/
theorem Delegated.shrinks (hdel : Delegated org w) {p q : GatewayPrincipal}
    (hp : Builds platform w p) (hq : Builds platform w q)
    (hchain : Relation.TransGen w.IssuedThrough p.userId q.userId) :
    q.permissions ⊆ p.permissions := by
  generalize hend : q.userId = id at hchain
  induction hchain generalizing q with
  | single hlink =>
      subst hend
      exact hdel.shrinks_link hp hq hlink
  | tail _ hlink ih =>
      subst hend
      obtain ⟨issuer, hissuer, hmachine, huser⟩ := hlink
      have hbuilds : Builds platform w issuer :=
        Or.inl ⟨hdel.issuedBySigned _ _ hissuer, hmachine⟩
      have hlast : q.permissions ⊆ issuer.permissions :=
        hdel.shrinks_link hbuilds hq ⟨issuer, hissuer, hmachine, rfl⟩
      exact List.Subset.trans hlast (ih hbuilds huser)

theorem Delegated.neverAdds (hdel : Delegated org w) : NeverAdds platform w where
  held := fun _ hq => hdel.held hq
  shrinks := fun _ _ hp hq hchain => hdel.shrinks hp hq hchain

/-! ### An issue that asks for more -/

/-- Right after an accepted issue that asks for more, the token verifies as a principal that
holds more than its issuer. -/
theorem not_neverAdds_step (hdel : Delegated org w) {call : TokenCall}
    (hbeyond : ¬ AsksWithin platform w call) :
    ¬ NeverAdds platform (step platform org w call) := by
  cases call with
  | issue principal body draw =>
      simp only [AsksWithin, not_forall, not_or] at hbeyond
      obtain ⟨hsigned, row, tokens, hissue, hmore, hlive⟩ := hbeyond
      have hstep : step platform org w (.issue principal body draw) =
          w.record tokens row.id principal := by
        change w.stepIssue platform principal body draw = _
        unfold stepIssue
        rw [if_pos hsigned, hissue]
      obtain ⟨expiresAt, -, hrow, hcreate⟩ := issue_ok hissue
      have hmem : row ∈ tokens := (ApiTokens.mem_create? hcreate).mpr (Or.inl rfl)
      have horg : row.orgId ≠ "" := by
        rw [hrow]
        change principal.orgId ≠ ""
        rw [hdel.signedFor principal hsigned]
        exact org.id_ne
      have hverify : verifyPat platform tokens draw.secret w.now =
          .ok ⟨row.id, row.orgId, .developer, scopePermissions row.scopes, some row.name⟩ :=
        verifyPat_of_mem (startsWith_secret draw) hmem (by rw [hrow]; rfl) (by rw [hrow]; rfl)
          (by simpa using hlive) horg (by rw [hrow]; exact draw.id_ne)
      rw [hstep]
      intro hadds
      obtain ⟨issuer, hissuer, hsub⟩ := hadds.held _ (Or.inr ⟨draw.secret, hverify⟩)
      rw [issuers_record_self, Option.some_inj] at hissuer
      apply hmore
      rw [hissuer]
      rw [hrow] at hsub
      exact hsub
  | tick elapsed => exact absurd trivial hbeyond
  | member write => exact absurd trivial hbeyond
  | signIn userId => exact absurd trivial hbeyond
  | present token => exact absurd trivial hbeyond
  | revoke principal id => exact absurd trivial hbeyond

end Invariant

/-- **Exactness.**  Delegation never adds a permission along a run precisely when every accepted
issue asks for permissions its issuer holds, or for a token that has expired already. -/
theorem delegation_never_adds (platform : TokenPlatform) (org : TokenOrg) (now : Timestamp)
    (memberships : Table MembershipRow MembershipRow.userId) (calls : List TokenCall) :
    (∀ w ∈ (system platform org).states (start now memberships) calls, NeverAdds platform w) ↔
      (system platform org).AllSteps (AsksWithin platform) (start now memberships) calls :=
  (system platform org).forall_states_iff_of_breaks
    (fun _ call (hdel : Delegated org _) hwithin => delegated_step hdel call hwithin)
    (fun _ hdel => hdel.neverAdds) (fun _ _ hdel hbeyond => not_neverAdds_step hdel hbeyond)
    (delegated_start now memberships)

/-! ### An administrator who mints ownership -/

namespace AdminMints

/-- `sha256` on the one token of the run. -/
def platform : TokenPlatform where
  sha256Hex text :=
    if text = "ctem_pat_7Q" then
      "f1bf75f16e8d22fca91e76b1511a99f0a028d738f7fa13b76382cd113b30d016"
    else ""
  newDate _ := none

def org : TokenOrg := ⟨"6d1f", by decide⟩

/-- One administrator; an administrator may not write the organisation. -/
def memberships : Table MembershipRow MembershipRow.userId :=
  ⟨[⟨"ada", .admin, none, false⟩], by decide⟩

def admin : GatewayPrincipal := ⟨"ada", org.id, .admin, rolePermissions .admin, none⟩

def draw : TokenDraw := ⟨"7Q", "c0de", by decide⟩

def calls : List TokenCall :=
  [.signIn "ada", .issue admin ⟨"ci", some ["org:write"], none⟩ draw]

/-- What the new token verifies as. -/
def minted : GatewayPrincipal := ⟨"c0de", org.id, .developer, [.orgWrite], some "ci"⟩

end AdminMints

/-- The token an administrator mints may write the organisation. -/
theorem delegation_adds_org_write :
    ¬ ∀ w ∈ (system AdminMints.platform AdminMints.org).states
        (start 0 AdminMints.memberships) AdminMints.calls, NeverAdds AdminMints.platform w := by
  intro hall
  have hend := hall _ (System.run_mem_states _ _ _)
  obtain ⟨issuer, hissuer, hsub⟩ :=
    hend.held AdminMints.minted (Or.inr ⟨AdminMints.draw.secret, by decide +kernel⟩)
  have hadmin : issuer = AdminMints.admin := by
    have hrecorded : some AdminMints.admin = some issuer := hissuer
    exact (Option.some_inj.mp hrecorded).symm
  rw [hadmin] at hsub
  revert hsub
  decide

end TokenWorld

end Identity
end Ctem
