import Ctem.Foundation.FormUrlEncoded
import Ctem.Foundation.Url
import Ctem.Foundation.JsCoercion
import Ctem.Foundation.Runs

/-!
# Signing in from the browser

The web app signs in with an authorization code and PKCE.  A sign-in leaves its verifier and its
state in the session storage and goes to the identity provider; the callback page exchanges the
code it is called with for a token, which becomes the session.

A `Tab` is the storage, which outlives the page, and the exchange that is in flight, which does
not.  An event may come at any time: a callback with any address, an answer of the token
endpoint, a reload.
-/

namespace Ctem
namespace Web

open Foundation

/-! ## Tokens -/

/-- `PAT_PREFIX`. -/
def patPrefix : String := "ctem_pat_"

def isPatToken (token : String) : Bool :=
  startsWith (trimText token) patPrefix

def isJwtAccessToken (token : String) : Bool :=
  let value := trimText token
  if value = "" || isPatToken value then false
  else
    let parts := splitOn '.' value.toList
    decide (parts.length = 3) && parts.all fun part => decide (0 < part.length)

/-- What the session storage has under `ctem.gateway.token`, `ctem.oidc.code_verifier` and
`ctem.oidc.state`. -/
structure SessionStorage where
  token : Option String := none
  verifier : Option String := none
  state : Option String := none

namespace SessionStorage

def readStoredAccessJwt (s : SessionStorage) : Option String :=
  s.token.filter fun value =>
    !decide (value = "") && isJwtAccessToken value && !isPatToken value

def keepSessionAfterCallbackError (s : SessionStorage) : Bool :=
  s.readStoredAccessJwt.isSome

def clearPkce (s : SessionStorage) : SessionStorage :=
  { s with verifier := none, state := none }

/-- `tokenStore(storage).clear()`. -/
def clearToken (s : SessionStorage) : SessionStorage :=
  { s with token := none }

/-- `tokenStore(storage).set(token)`. -/
def setToken (s : SessionStorage) (token : String) : Except String SessionStorage :=
  let value := trimText token
  if isPatToken value then .error "Refusing to store a PAT in the browser session"
  else .ok { s with token := some value }

end SessionStorage

/-! ## The authorization request -/

/-- Bytes of `crypto.getRandomValues`. -/
abbrev RandomBytes (n : Nat) := { bytes : List UInt8 // bytes.length = n }

def randomUrlToken {n : Nat} (bytes : RandomBytes n) : String :=
  Base64Url.encode bytes.val

/-- What a sign-in draws, and where it is begun. -/
structure SignIn where
  verifierBytes : RandomBytes 32
  stateBytes : RandomBytes 16
  origin : String

namespace SignIn

def verifier (b : SignIn) : String := randomUrlToken b.verifierBytes

def state (b : SignIn) : String := randomUrlToken b.stateBytes

end SignIn

def callbackUri (origin : String) : String :=
  dropSuffix "/" origin ++ "/login/callback"

def s256Challenge (sha256 : List UInt8 → List UInt8) (verifier : String) : String :=
  Base64Url.encode (sha256 (utf8Bytes verifier))

/-- The query of the address that `beginAuthorization` goes to. -/
def authorizationQuery (sha256 : List UInt8 → List UInt8) (b : SignIn) : List Char :=
  FormUrlEncoded.writePairs
    [("client_id", "ctem-web"), ("response_type", "code"), ("scope", "openid"),
      ("redirect_uri", callbackUri b.origin),
      ("code_challenge", s256Challenge sha256 b.verifier), ("code_challenge_method", "S256"),
      ("state", b.state)]

/-! ## The exchange -/

/-- The request to the token endpoint. -/
structure TokenPost where
  code : String
  verifier : String
  origin : String
deriving DecidableEq

/-- The body of the request. -/
def TokenPost.body (post : TokenPost) : List Char :=
  FormUrlEncoded.writePairs
    [("grant_type", "authorization_code"), ("client_id", "ctem-web"), ("code", post.code),
      ("redirect_uri", callbackUri post.origin), ("code_verifier", post.verifier)]

/-- An answer of the token endpoint; a body that is no JSON is `null`. -/
structure TokenResponse where
  ok : Bool
  payload : Json

/-- The exchange that is in flight: its request is out, or it is through and `finally` has not
run. -/
inductive Inflight where
  | posting (post : TokenPost)
  | settled (result : Except String String)

def dropQuestionMark : List Char → List Char
  | '?' :: rest => rest
  | text => text

/-- `new URLSearchParams(search)`, where one question mark at the head goes and the constructor
takes another. -/
def searchParams (search : String) : List (String × String) :=
  FormUrlEncoded.readPairs (dropQuestionMark (dropQuestionMark search.toList))

/-- The token that is stored already, or the error. -/
def keptOr (s : SessionStorage) (message : String) : Except String String :=
  match s.readStoredAccessJwt with
  | some kept => .ok kept
  | none => .error message

/-- A callback that is refused, which clears the sign-in. -/
def refuseCallback (s : SessionStorage) (message : String) : SessionStorage × Inflight :=
  match s.readStoredAccessJwt with
  | some kept => (s, .settled (.ok kept))
  | none => (s.clearPkce, .settled (.error message))

/-- `exchangeAuthorizationCode` up to the request. -/
def exchangeAuthorizationCode (s : SessionStorage) (search origin : String) :
    SessionStorage × Inflight :=
  match s.readStoredAccessJwt with
  | some existing => (s, .settled (.ok existing))
  | none =>
      let params := searchParams search
      match nonEmpty (FormUrlEncoded.firstValue params "error") with
      | some idpError =>
          refuseCallback s <|
            (nonEmpty (FormUrlEncoded.firstValue params "error_description")).getD
              ("Keycloak returned " ++ idpError)
      | none =>
          match nonEmpty (FormUrlEncoded.firstValue params "code"),
              nonEmpty (FormUrlEncoded.firstValue params "state"), nonEmpty s.state,
              nonEmpty s.verifier with
          | some code, some returnedState, some expectedState, some verifier =>
              if returnedState = expectedState then
                (s, .posting { code := code, verifier := verifier, origin := origin })
              else refuseCallback s "Login callback is missing a valid authorization code."
          | _, _, _, _ => refuseCallback s "Login callback is missing a valid authorization code."

section Answer

-- `String(value)` of a number
variable (numberText : Rat → String)

/-- `error_description || error` of an answer. -/
def refusalText (payload : Json) : String :=
  match ((payload.get? "error_description").filter Json.truthy).or
      ((payload.get? "error").filter Json.truthy) with
  | some text => stringOf numberText text
  | none => "Keycloak did not issue an access token."

/-- `exchangeAuthorizationCode` from the answer on. -/
def takeResponse (s : SessionStorage) (r : TokenResponse) :
    SessionStorage × Except String String :=
  let s := s.clearPkce
  match r.ok, (r.payload.get? "access_token").filter Json.truthy with
  | true, some (.str token) =>
      let jwt := trimText token
      if !isJwtAccessToken jwt then (s, .error "Keycloak response was not an access-token JWT.")
      else
        match s.setToken jwt with
        | .error message => (s, .error message)
        | .ok s =>
            if (nonEmpty s.token).all isPatToken then
              (s.clearToken, .error "Refusing to store a PAT in the browser session")
            else (s, .ok jwt)
  | true, some _ => (s, .error "payload.access_token.trim is not a function")
  | _, _ => (s, keptOr s (refusalText numberText r.payload))

end Answer

/-! ## The tab -/

structure Tab where
  storage : SessionStorage := {}
  inflight : Option Inflight := none

/-- What happens in a tab.  `begin` is the moment a sign-in is stored; `callbackFailed` is the end
of a callback page that was given an error, and `signOut` is `tokenStore().clear()` of the other
pages. -/
inductive TabEvent where
  | begin (b : SignIn)
  | complete (search origin : String)
  | respond (r : TokenResponse)
  | networkError (message : String)
  | settle
  | callbackFailed
  | signOut
  | load

/-- `beginAuthorization`. -/
def SessionStorage.beginAuthorization (s : SessionStorage) (b : SignIn) : SessionStorage :=
  { s with verifier := some b.verifier, state := some b.state }

/-- `completeAuthorization`. -/
def Tab.completeAuthorization (tab : Tab) (search origin : String) : Tab :=
  match tab.storage.readStoredAccessJwt, tab.inflight with
  | some _, _ => tab
  | none, some _ => tab
  | none, none =>
      let (storage, inflight) := exchangeAuthorizationCode tab.storage search origin
      { storage := storage, inflight := some inflight }

/-- The request a call sends to the token endpoint. -/
def Tab.posts (tab : Tab) (search origin : String) : Option TokenPost :=
  match tab.storage.readStoredAccessJwt, tab.inflight with
  | some _, _ => none
  | none, some _ => none
  | none, none =>
      match (exchangeAuthorizationCode tab.storage search origin).2 with
      | .posting post => some post
      | .settled _ => none

def Tab.step (numberText : Rat → String) (tab : Tab) : TabEvent → Tab
  | .begin b => { tab with storage := tab.storage.beginAuthorization b }
  | .complete search origin => tab.completeAuthorization search origin
  | .respond r =>
      match tab.inflight with
      | some (.posting _) =>
          let (storage, result) := takeResponse numberText tab.storage r
          { storage := storage, inflight := some (.settled result) }
      | _ => tab
  | .networkError message =>
      match tab.inflight with
      | some (.posting _) => { tab with inflight := some (.settled (.error message)) }
      | _ => tab
  | .settle =>
      match tab.inflight with
      | some (.settled _) => { tab with inflight := none }
      | _ => tab
  | .callbackFailed =>
      if tab.storage.keepSessionAfterCallbackError then tab
      else { tab with storage := tab.storage.clearToken }
  | .signOut => { tab with storage := tab.storage.clearToken }
  | .load => { tab with inflight := none }

/-- A tab and whatever happens in it. -/
def tabSystem (numberText : Rat → String) : System Tab TabEvent where
  step := Tab.step numberText
  allowed := fun _ _ => True

end Web
end Ctem
