import Ctem.Foundation.JsText

/-!
# Probing a host

A probe resolves a host, connects to the common ports of its addresses, reads the
certificates behind the TLS ports and asks for the root page once.  Names under a
domain come from certificate transparency and the name servers of the domain.

A DNS query that fails is caught like a query without records.  The network, the
host syntax and the address ranges are parameters (`ProbeCalls`).
-/

namespace Ctem
namespace Scanner

open Foundation

/-- How a DNS query ends. -/
inductive DnsAnswer where
  | records (values : List String)
  | noRecords
  | failed (message : String)
deriving DecidableEq, Repr

/-- `query.catch(() => [])`. -/
def DnsAnswer.caught : DnsAnswer → List String
  | records values => values
  | _ => []

structure TlsMetadata where
  expiresAt : Option String
  issuer : Option String
  selfSigned : Bool
deriving DecidableEq, Repr

structure HttpRoot where
  port : Nat
  protocol : String
  usedMethod : String
deriving DecidableEq, Repr

structure HttpAnswer where
  statusCode : Nat
  headers : List (String × String)

structure ProbeResult where
  host : String
  addresses : List String
  cnames : List String
  danglingCname : Bool
  openPorts : List Nat
  tls : List (Nat × TlsMetadata)
  httpRoot : Option HttpRoot
  headers : List (String × String)

/-- How the calls of a probe turn out. -/
structure ProbeCalls where
  /-- `normalizeHostTarget(kind, externalKey)`: the host, and whether it is an
  address. -/
  normalizeHostTarget : String → String → Except String (String × Bool)
  isPublicAddress : String → Except String Bool
  isIpLiteral : String → Bool
  toLowerCase : String → String
  resolve4 : String → DnsAnswer
  resolve6 : String → DnsAnswer
  resolveCname : String → DnsAnswer
  resolveNs : String → DnsAnswer
  /-- The deadline or budget error a probe of the host ends in, if any. -/
  overrun : String → Option String
  /-- `tcpConnectOne`. -/
  connects : String → Nat → Bool
  /-- The handshake with one address. -/
  handshake : String → String → Nat → Option TlsMetadata
  /-- `httpRootRequest` of a protocol and method, to an address and port. -/
  request : String → String → String → String → Nat → HttpAnswer
  /-- The names the listing of a domain carries, read from one address of its host. -/
  crtShListing : String → String → Except String (List String)
  localeLe : String → String → Bool

/-! ## Constants -/

def commonPorts : List Nat :=
  [80, 443, 8000, 8008, 8080, 8888, 3000, 5000, 8443, 9443, 10443]

def httpPorts : List Nat := [80, 8000, 8008, 8080, 8888, 3000, 5000]

def httpsPorts : List Nat := [443, 8443, 9443, 10443]

def securityHeaders : List String :=
  ["content-security-policy", "strict-transport-security", "x-content-type-options",
    "x-frame-options", "x-xss-protection", "referrer-policy", "permissions-policy",
    "cross-origin-resource-policy"]

def crtShHost : String := "crt.sh"

/-- `ASM_ENUM_MAX_NAMES`. -/
def asmEnumMaxNames : Nat := 200

section Probe

variable (calls : ProbeCalls)

/-- The first address that is not public is refused. -/
def vetAddresses : List String → Except String Unit
  | [] => .ok ()
  | ip :: rest => do
      let isPublic ← calls.isPublicAddress ip
      if isPublic then vetAddresses rest
      else throw ("ASM refused non-public resolved IP: " ++ ip)

/-- `resolveVettedHost`: addresses and CNAMEs. -/
def resolveVettedHost (host : String) (isIpLiteral : Bool) :
    Except String (List String × List String) :=
  if isIpLiteral then do
    let isPublic ← calls.isPublicAddress host
    if isPublic then pure ([host], []) else throw ("ASM refused non-public target IP: " ++ host)
  else do
    let addresses := (calls.resolve4 host).caught ++ (calls.resolve6 host).caught
    vetAddresses calls addresses
    pure (addresses, (calls.resolveCname host).caught)

/-- `scanCommonPorts`. -/
def scanCommonPorts (addresses : List String) : List Nat :=
  commonPorts.filter fun port => addresses.any fun ip => calls.connects ip port

/-- `handshakeTlsMetadata`. -/
def handshakeTlsMetadata (host : String) (addresses : List String) (openPorts : List Nat) :
    List (Nat × TlsMetadata) :=
  (openPorts.filter fun p => decide (p ∈ httpsPorts)).filterMap fun port =>
    (addresses.findSome? fun ip => calls.handshake host ip port).map fun cert => (port, cert)

/-- `normalizeSecurityHeaders`. -/
def normalizeSecurityHeaders (headers : List (String × String)) : List (String × String) :=
  (headers.map fun h => (asciiLower h.1, h.2)).filter fun h => decide (h.1 ∈ securityHeaders)

/-- `rootSecurityHeaderProbe`: one HEAD, and one GET where HEAD is rejected. -/
def rootSecurityHeaderProbe (host : String) (addresses : List String) (openPorts : List Nat) :
    Option HttpRoot × List (String × String) :=
  let httpsPort := openPorts.find? fun p => decide (p ∈ httpsPorts)
  let httpPort := openPorts.find? fun p => decide (p ∈ httpPorts)
  match httpsPort.or httpPort, addresses with
  | some port, ip :: _ =>
      let protocol := if httpsPort.isSome then "https" else "http"
      let head := calls.request protocol "HEAD" host ip port
      if head.statusCode = 405 ∨ head.statusCode = 501 then
        (some ⟨port, protocol, "GET"⟩,
          normalizeSecurityHeaders (calls.request protocol "GET" host ip port).headers)
      else (some ⟨port, protocol, "HEAD"⟩, normalizeSecurityHeaders head.headers)
  | _, _ => (none, [])

/-- `SurfaceProbe.probe`. -/
def probe (kind externalKey : String) : Except String ProbeResult := do
  if externalKey = "" then throw "ASM missing externalKey"
  let (host, isIpLiteral) ← calls.normalizeHostTarget kind externalKey
  let (addresses, cnames) ← resolveVettedHost calls host isIpLiteral
  match calls.overrun host with
  | some message => throw message
  | none =>
      let openPorts := scanCommonPorts calls addresses
      let (httpRoot, headers) := rootSecurityHeaderProbe calls host addresses openPorts
      pure
        { host := host
          addresses := addresses
          cnames := cnames
          danglingCname := !cnames.isEmpty && addresses.isEmpty
          openPorts := openPorts
          tls := handshakeTlsMetadata calls host addresses openPorts
          httpRoot := httpRoot
          headers := headers }

/-! ## Names under a domain -/

/-- `/^[a-z0-9]([a-z0-9-]*[a-z0-9])?$/i` of at most 63 characters. -/
def isValidLabel (label : List Char) : Bool :=
  match label, label.getLast? with
  | first :: _, some last =>
      decide (label.length ≤ 63) && first.isAlphanum && last.isAlphanum &&
        label.all fun c => c.isAlphanum || decide (c = '-')
  | _, _ => false

/-- `isValidHostname`. -/
def isValidHostname (host : String) : Bool :=
  decide (host.toList.length ≤ 253) && (splitOn '.' host.toList).all isValidLabel

/-- `while (name.startsWith('*.')) name = name.slice(2)`. -/
def stripWildcards : List Char → List Char
  | '*' :: '.' :: rest => stripWildcards rest
  | cs => cs

/-- `name.slice(0, -1)` when it ends in a dot. -/
def stripDot (cs : List Char) : List Char :=
  if cs.getLast? = some '.' then cs.dropLast else cs

/-- The name is the apex or lies under it. -/
def underApex (apex name : String) : Bool :=
  decide (name = apex) || ("." ++ apex).toList.isSuffixOf name.toList

/-- `normalizeDiscoveredName`. -/
def normalizeDiscoveredName (raw apex : String) : Option String :=
  let name := String.ofList
    (stripDot (stripWildcards (calls.toLowerCase (trimText raw)).toList))
  if name = "" then none
  else if '@' ∈ name.toList ∨ '%' ∈ name.toList then none
  else if calls.isIpLiteral name then none
  else if isValidHostname name = false then none
  else if underApex apex name = false then none
  else some name

/-- `collectCrtShNames`. -/
def collectCrtShNames (apex : String) : Except String (List String) := do
  let (addresses, _) ← resolveVettedHost calls crtShHost false
  match addresses with
  | [] => throw "ASM CT lookup failed — crt.sh did not resolve; refusing incomplete scope"
  | ip :: _ => calls.crtShListing ip apex

/-- `collectApexNsNames`. -/
def collectApexNsNames (apex : String) : List String :=
  (calls.resolveNs apex).caught

/-- The names of a domain before the cap on their number. -/
def discoveredNames (apex : String) (fromCt : List String) : List String :=
  (((fromCt ++ collectApexNsNames calls apex).filterMap fun raw =>
    normalizeDiscoveredName calls raw apex).eraseDups).insertionSort fun a b => calls.localeLe a b

/-- `SurfaceProbe.enumerate`. -/
def enumerate (apexDomain : String) : Except String (List String) := do
  let (apex, isIpLiteral) ← calls.normalizeHostTarget "domain" apexDomain
  if isIpLiteral then throw ("ASM refused IP-literal apex for enumeration: " ++ apex)
  let fromCt ← collectCrtShNames calls apex
  pure ((discoveredNames calls apex fromCt).take asmEnumMaxNames)

/-! ## What could not be looked up -/

/-- A query for the host's addresses or its CNAME fails. -/
def HostLookupFailed (host : String) : Prop :=
  ∃ message, calls.resolve4 host = .failed message ∨ calls.resolve6 host = .failed message ∨
    calls.resolveCname host = .failed message

/-- A host whose address queries fail has no address in the probe's eyes. -/
theorem resolveVettedHost_failed {host : String} {m₄ m₆ : String}
    (h₄ : calls.resolve4 host = .failed m₄) (h₆ : calls.resolve6 host = .failed m₆) :
    resolveVettedHost calls host false = .ok ([], (calls.resolveCname host).caught) := by
  unfold resolveVettedHost
  rw [h₄, h₆]
  rfl

/-- Without an address no port is open, and nothing is asked of the host. -/
theorem scanCommonPorts_nil : scanCommonPorts calls [] = [] := by
  unfold scanCommonPorts
  simp

end Probe

end Scanner
end Ctem
