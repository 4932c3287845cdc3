import Ctem.Contracts
import Ctem.Scanner.SurfaceProbe

/-!
# The attack surface scanner

`execute` probes the host of its target and, for a domain, every name found under
it; `findingsFromProbe` is what one probe gives rise to.
-/

namespace Ctem
namespace Scanner

open Foundation Contracts

/-- How the calls of an ASM job turn out. -/
structure AsmCalls where
  probing : ProbeCalls
  /-- `String(value)` of a target member that is no string. -/
  textOf : Json → String
  /-- `ctx.checkDeadline()` before the name of that index. -/
  inTime : Nat → Bool
  /-- `Date.parse(text)`, `none` for NaN. -/
  parseDate : String → Option Int
  now : Int

/-- `EXPIRING_WITHIN_DAYS * DAY_MS`. -/
def expiringMs : Int := 30 * 86400000

section Findings

variable (calls : AsmCalls)

/-- The fields every finding of the scanner shares. -/
def asmFinding (externalId title description : String) (severity : Severity)
    (location : Location) (fix : Fix) (evidence : JsonObject) : RawFinding where
  externalId := externalId
  scannerType := .asm
  scannerName := "ctem-asm"
  title := title
  description := description
  severity := severity
  location := location
  fix := fix
  evidence := evidence

/-- `${host}:${port}`. -/
def hostPort (host : String) (port : Nat) : String :=
  host ++ ":" ++ toString port

def portLocation (host : String) (port : Nat) : Location where
  url := some host
  port := some port
  resource := some (hostPort host port)

def danglingFinding (result : ProbeResult) : RawFinding :=
  { asmFinding ("asm.dangling-cname:" ++ result.host)
      ("Possible subdomain takeover on " ++ result.host)
      (result.host ++ " has a CNAME to " ++ joinWith ", " result.cnames ++
        " that does not resolve. If the target service is unclaimed, an attacker can register " ++
        "it and serve content from your domain.") .high { url := some result.host }
      { available := true
        guidance := some "Remove the DNS record, or reclaim the target resource at the provider." }
      [("cnames", .arr (result.cnames.map .str)),
        ("addresses", .arr (result.addresses.map .str))] with
    identifiers := [⟨"CWE", "CWE-350"⟩] }

def openPortFinding (result : ProbeResult) (port : Nat) : RawFinding :=
  asmFinding ("asm.open-port:" ++ hostPort result.host port)
    ("Unexpected open port " ++ toString port ++ " on " ++ result.host)
    ("TCP port " ++ toString port ++ " appears open on " ++ result.host ++
      ". ASM probes only a fixed, bounded common-port list.") .medium
    (portLocation result.host port)
    { available := false
      guidance := some "Restrict external exposure or close the port." }
    [("port", .num port), ("addresses", .arr (result.addresses.map .str))]

/-- A certificate in the evidence. -/
def TlsMetadata.toJson (cert : TlsMetadata) : JsonObject :=
  [("expiresAt", (cert.expiresAt.map Json.str).getD .null),
    ("issuer", (cert.issuer.map Json.str).getD .null), ("selfSigned", .bool cert.selfSigned)]

def HttpRoot.toJson (root : HttpRoot) : Json :=
  .obj [("port", .num root.port), ("protocol", .str root.protocol),
    ("usedMethod", .str root.usedMethod)]

def headersJson (headers : List (String × String)) : Json :=
  .obj (headers.map fun h => (h.1, .str h.2))

/-- A probe in the raw output. -/
def ProbeResult.toJson (result : ProbeResult) : Json :=
  .obj [("host", .str result.host), ("addresses", .arr (result.addresses.map .str)),
    ("cnames", .arr (result.cnames.map .str)), ("danglingCname", .bool result.danglingCname),
    ("openPorts", .arr (result.openPorts.map fun p => .num p)),
    ("tls", if result.tls.isEmpty then .null
      else .obj (result.tls.map fun e => (toString e.1, .obj e.2.toJson))),
    ("headers", headersJson result.headers),
    ("httpRoot", (result.httpRoot.map HttpRoot.toJson).getD .null)]

/-- The findings of one certificate. -/
def tlsFindings (host : String) (port : Nat) (cert : TlsMetadata) : List RawFinding :=
  let expiresAtMs := cert.expiresAt.bind calls.parseDate
  let expiry := cert.expiresAt.getD "null"
  let selfSigned :=
    if cert.selfSigned then
      [asmFinding ("asm.tls-self-signed:" ++ hostPort host port)
        ("Self-signed TLS certificate on " ++ hostPort host port)
        ("TLS handshake to " ++ hostPort host port ++ " returned a self-signed certificate.")
        .high (portLocation host port)
        { available := false
          guidance := some "Use a certificate from a trusted CA." }
        (cert.toJson ++ [("expiresAtMs", (expiresAtMs.map fun ms => Json.num ms).getD .null)])]
    else []
  let dated (name title verb : String) (severity : Severity) : RawFinding :=
    asmFinding ("asm.tls-" ++ name ++ ":" ++ hostPort host port)
      (title ++ " TLS certificate on " ++ hostPort host port)
      ("TLS certificate for " ++ hostPort host port ++ " " ++ verb ++ " at " ++ expiry ++ ".")
      severity (portLocation host port)
      { available := false
        guidance := some "Renew the TLS certificate." }
      cert.toJson
  selfSigned ++
    match expiresAtMs with
    | none => []
    | some ms =>
        if ms < calls.now then [dated "expired" "Expired" "expired" .high]
        else if ms - calls.now ≤ expiringMs then [dated "expiring" "Expiring" "expires" .medium]
        else []

/-- The findings of the root page: one for each security header it lacks. -/
def headerFindings (result : ProbeResult) (root : HttpRoot) : List RawFinding :=
  (securityHeaders.filter fun name => decide (name ∉ result.headers.map Prod.fst)).map
    fun name =>
      asmFinding ("asm.missing-header:" ++ hostPort result.host root.port ++ ":" ++ name)
        ("Missing security header " ++ name ++ " on " ++ hostPort result.host root.port)
        ("The " ++ root.usedMethod ++ " / response did not include the " ++ name ++
          " security header.") .medium (portLocation result.host root.port)
        { available := false
          guidance := some ("Add the " ++ name ++ " header to responses.") }
        [("httpRoot", root.toJson), ("missingHeader", .str name),
          ("responseHeaders", headersJson result.headers)]

/-- `findingsFromProbe`. -/
def findingsFromProbe (result : ProbeResult) : List RawFinding :=
  (if result.danglingCname then [danglingFinding result] else []) ++
    result.openPorts.map (openPortFinding result) ++
    result.tls.flatMap (fun e => tlsFindings calls result.host e.1 e.2) ++
    (result.httpRoot.map (headerFindings result)).getD []

end Findings

section Asm

variable (calls : AsmCalls)

/-- `String(target[key] ?? '')`. -/
def targetText (job : ScanJob) (key : String) : String :=
  match job.target.get? key with
  | none => ""
  | some .null => ""
  | some (.str s) => s
  | some value => calls.textOf value

/-- `AsmScanner.supports`. -/
def asmSupports (job : ScanJob) : Bool :=
  decide (targetText calls job "kind" ∈
    ["domain", "host", "web_application", "api_endpoint", "ip_range"])

/-- The loop over the names under a domain, from its `n`-th round on. -/
def probeNames (apexHost : String) : Nat → List String → Except String (List ProbeResult)
  | _, [] => .ok []
  | n, name :: rest =>
      if calls.inTime n = false then .error "Job deadline exceeded"
      else if name = apexHost then probeNames apexHost (n + 1) rest
      else do
        let sub ← probe calls.probing "domain" name
        let subs ← probeNames apexHost (n + 1) rest
        pure (sub :: subs)

/-- The probes of a job: the target's own, and those of the names under it. -/
def asmProbes (job : ScanJob) : Except String (ProbeResult × List String × List ProbeResult) := do
  let kind := targetText calls job "kind"
  let apexResult ← probe calls.probing kind (targetText calls job "externalKey")
  if kind = "domain" then
    let enumerated ← enumerate calls.probing apexResult.host
    let subs ← probeNames calls apexResult.host 0 enumerated
    pure (apexResult, enumerated, subs)
  else pure (apexResult, [], [])

/-- `AsmScanner.execute`. -/
def asmExecute (job : ScanJob) : Except String ScanOutcome := do
  let (apexResult, enumerated, subs) ← asmProbes calls job
  let probed := apexResult :: subs
  pure
    { findings := probed.flatMap (findingsFromProbe calls)
      rawOutput := some (.obj [("apex", apexResult.toJson),
        ("enumerated", .arr (enumerated.map .str)),
        ("probes", .arr (probed.map ProbeResult.toJson))])
      stats := [("openPorts", ((probed.map fun p => p.openPorts.length).sum : Nat)),
        ("addresses", ((probed.map fun p => p.addresses.length).sum : Nat)),
        ("enumerated", enumerated.length), ("probed", probed.length)] }

/-- A probe or the enumeration throws, or the deadline passes between two probes. -/
def AsmFails (job : ScanJob) : Prop :=
  ∃ message, asmProbes calls job = .error message

/-- A finding of one of the job's probes. -/
def AsmReports (job : ScanJob) (finding : RawFinding) : Prop :=
  ∃ probes, asmProbes calls job = .ok probes ∧
    ∃ p ∈ probes.1 :: probes.2.2, finding ∈ findingsFromProbe calls p

/-- `execute` throws, or returns the findings of its probes. -/
theorem asmExecute_eq (job : ScanJob) :
    (AsmFails calls job ∧ ∃ message, asmExecute calls job = .error message) ∨
      (¬ AsmFails calls job ∧ ∃ outcome, asmExecute calls job = .ok outcome ∧
        ∀ finding, finding ∈ outcome.findings ↔ AsmReports calls job finding) := by
  unfold asmExecute AsmFails AsmReports
  cases hprobes : asmProbes calls job with
  | error message => exact Or.inl ⟨⟨message, rfl⟩, message, rfl⟩
  | ok probes =>
      obtain ⟨apexResult, enumerated, subs⟩ := probes
      refine Or.inr ⟨by simp, _, rfl, ?_⟩
      intro finding
      simp only [List.mem_flatMap]
      constructor
      · exact fun h => ⟨_, rfl, h⟩
      · rintro ⟨probes', hprobes', h⟩
        rw [Except.ok.injEq] at hprobes'
        subst hprobes'
        exact h

end Asm

end Scanner
end Ctem
