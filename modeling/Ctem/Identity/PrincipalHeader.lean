import Ctem.Foundation.JsonPrint
import Ctem.Foundation.Utf8Text
import Ctem.Identity.ApiTokens

/-!
# The signed principal

The gateway hands the principal on in two headers: its JSON in base64, and the HMAC of that text
under the secret of the platform.  A service checks the HMAC and reads the principal back.

`decodePrincipal_encodePrincipal`: a service reads the principal that the gateway wrote, whatever
the names and the trace id in it are.
-/

namespace Ctem
namespace Identity

open Foundation

/-! ## The contract -/

namespace Role

/-- `Role.options`. -/
def options : List Role := [.owner, .admin, .securityAnalyst, .developer, .auditor]

/-- The word of the enumeration. -/
def name : Role → String
  | owner => "owner"
  | admin => "admin"
  | securityAnalyst => "security_analyst"
  | developer => "developer"
  | auditor => "auditor"

def ofName? (text : String) : Option Role :=
  options.find? fun r => decide (r.name = text)

theorem ofName?_name (r : Role) : ofName? r.name = some r := by
  cases r <;> rfl

end Role

theorem Permission.ofScope?_name (p : Permission) : Permission.ofScope? p.name = some p := by
  cases p <;> rfl

/-- `Principal`. -/
structure SignedPrincipal extends GatewayPrincipal where
  traceId : String
deriving DecidableEq

/-- The principal as the object that is written. -/
def principalJson (p : SignedPrincipal) : Json :=
  .obj
    [("userId", .str p.userId), ("orgId", .str p.orgId), ("role", .str p.role.name),
      ("permissions", .arr (p.permissions.map fun permission => .str permission.name)),
      ("serviceAccount", p.serviceAccount.elim .null .str), ("traceId", .str p.traceId)]

/-- `z.array(Permission)`. -/
def parsePermissions : List Json → Option (List Permission)
  | [] => some []
  | item :: rest => do
      let permission ← item.str?.bind Permission.ofScope?
      let permissions ← parsePermissions rest
      some (permission :: permissions)

/-- `z.string().nullable().default(null)`. -/
def parseServiceAccount : Option Json → Option (Option String)
  | none => some none
  | some .null => some none
  | some (.str name) => some (some name)
  | some _ => none

/-- `Principal.parse`. -/
def parsePrincipal (json : Json) : Option SignedPrincipal :=
  match json with
  | .obj _ => do
      let userId ← (json.get? "userId").bind Json.str?
      let orgId ← (json.get? "orgId").bind Json.str?
      let role ← ((json.get? "role").bind Json.str?).bind Role.ofName?
      let permissions ←
        match json.get? "permissions" with
        | some (.arr items) => parsePermissions items
        | _ => none
      let serviceAccount ← parseServiceAccount (json.get? "serviceAccount")
      let traceId ← (json.get? "traceId").bind Json.str?
      some
        { userId := userId
          orgId := orgId
          role := role
          permissions := permissions
          serviceAccount := serviceAccount
          traceId := traceId }
  | _ => none

theorem parsePermissions_names (permissions : List Permission) :
    parsePermissions (permissions.map fun permission => .str permission.name) =
      some permissions := by
  induction permissions with
  | nil => rfl
  | cons permission permissions ih =>
      rw [List.map_cons, parsePermissions, ih]
      simp [Permission.ofScope?_name]

theorem parseServiceAccount_elim (account : Option String) :
    parseServiceAccount (some (account.elim .null .str)) = some account := by
  cases account <;> rfl

/-- A principal has the shape of its contract. -/
theorem parsePrincipal_principalJson (p : SignedPrincipal) :
    parsePrincipal (principalJson p) = some p := by
  unfold parsePrincipal
  rw [principalJson]
  simp [Json.get?, Json.fields, JsonObject.get?_cons, Role.ofName?_name, parsePermissions_names,
    parseServiceAccount_elim]

/-! ## The headers -/

/-- `sha256` of 32 bytes. -/
abbrev Digest := { bytes : List UInt8 // bytes.length = 32 }

/-- The two headers of a principal. -/
structure PrincipalHeaders where
  value : String
  signature : String

section Headers

-- `createHmac('sha256', INTERNAL_TOKEN_SECRET)`
variable (hmac : List UInt8 → Digest)

def sign (value : String) : String :=
  Base64Url.encode (hmac (utf8Bytes value)).val

/-- `JSON.stringify(principal)`, which has no numbers. -/
def principalText (p : SignedPrincipal) : String :=
  String.ofList (JsonPrint.print (fun _ => []) (principalJson p))

def encodePrincipal (p : SignedPrincipal) : PrincipalHeaders :=
  let value := Base64Url.encode (utf8Bytes (principalText p))
  { value := value, signature := sign hmac value }

/-- `decodePrincipal`; `none` is where it throws. -/
def decodePrincipal (value signature : String) : Option SignedPrincipal :=
  if signature = sign hmac value then
    (parseJson (utf8Lossy (Base64Url.decode value))).bind parsePrincipal
  else none

theorem numberless_principalJson (p : SignedPrincipal) :
    JsonPrint.numberless (principalJson p) = true := by
  have hitems : ∀ permissions : List Permission, JsonPrint.numberlessItems
      (permissions.map fun permission => .str permission.name) = true := by
    intro permissions
    induction permissions with
    | nil => rfl
    | cons permission permissions ih =>
        rw [List.map_cons, JsonPrint.numberlessItems, ih]
        rfl
  cases haccount : p.serviceAccount with
  | none =>
      simp [principalJson, haccount, JsonPrint.numberless, JsonPrint.numberlessMembers, hitems]
  | some name =>
      simp [principalJson, haccount, JsonPrint.numberless, JsonPrint.numberlessMembers, hitems]

/-- What stands in the first header is read as the principal. -/
theorem read_encodePrincipal (p : SignedPrincipal) :
    (parseJson (utf8Lossy (Base64Url.decode (encodePrincipal hmac p).value))).bind
      parsePrincipal = some p := by
  show (parseJson (utf8Lossy (Base64Url.decode
    (Base64Url.encode (utf8Bytes (principalText p)))))).bind parsePrincipal = some p
  rw [Base64Url.decode_encode, utf8Lossy_bytes, principalText,
    JsonPrint.parseJson_print _ (numberless_principalJson p), Option.bind_some,
    parsePrincipal_principalJson]

/-- **A service reads the principal that the gateway wrote.** -/
theorem decodePrincipal_encodePrincipal (p : SignedPrincipal) :
    decodePrincipal hmac (encodePrincipal hmac p).value (encodePrincipal hmac p).signature =
      some p := by
  have hsigned : (encodePrincipal hmac p).signature =
      sign hmac (encodePrincipal hmac p).value := rfl
  unfold decodePrincipal
  rw [if_pos hsigned, read_encodePrincipal]

theorem sign_ne_empty (value : String) : sign hmac value ≠ "" := by
  apply Base64Url.encode_ne_empty
  intro hempty
  have hlength := (hmac (utf8Bytes value)).property
  rw [hempty] at hlength
  cases hlength

theorem value_ne_empty (p : SignedPrincipal) : (encodePrincipal hmac p).value ≠ "" := by
  intro hempty
  have hread := read_encodePrincipal hmac p
  rw [hempty] at hread
  have hnone : parseJson (utf8Lossy (Base64Url.decode "")) = none := by rfl
  rw [hnone] at hread
  cases hread

end Headers

end Identity
end Ctem
