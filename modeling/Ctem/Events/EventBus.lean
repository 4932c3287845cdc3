import Ctem.Events.EventSchemas

/-!
# Publishing and consuming

`publish` parses the payload, puts it into an envelope and sends its JSON; `handleMessage` parses
the payload of the envelope with the schema of the same subject.

* `handleMessage_publish`: the consumer parses what is written of the producer's payload.
* `consumed_iff_survives`: it hands the handler an equal value precisely if the payload survives.
-/

namespace Ctem
namespace Events

open Foundation Foundation.Zod

/-- What an envelope has besides its subject and payload. -/
structure EnvelopeMeta where
  id : String
  orgId : String
  /-- The time value of `new Date()`. -/
  occurredAt : Int
  traceId : String
  causationId : Option String
  producer : String

/-- The members of an `EventEnvelope`. -/
def envelope (about : EnvelopeMeta) (subject : Subject) (payload : JsValue) :
    List (String × JsValue) :=
  [("id", .str about.id), ("subject", .str subject.name), ("orgId", .str about.orgId),
    ("occurredAt", .date (some about.occurredAt)), ("traceId", .str about.traceId),
    ("causationId", (about.causationId.map JsValue.str).getD .null), ("version", .num (.finite 1)),
    ("producer", .str about.producer), ("payload", payload)]

section Bus

variable (isEmail : String → Bool) (dateOf : JsValue → Option Int)

/-- `schema.parse(payload)` with the schema of the subject. -/
def parsePayload (subject : Subject) : JsValue → Option JsValue :=
  (eventSchemas isEmail subject).parse dateOf

/-- `publish`: what is sent, unless the payload is refused or cannot be written. -/
def publish (about : EnvelopeMeta) (subject : Subject) (payload : JsValue) : Option Json :=
  (parsePayload isEmail dateOf subject payload).bind fun parsed =>
    match stringify (.obj (envelope about subject parsed)) with
    | .json message => some message
    | _ => none

/-- `handleMessage`: what the handler is called with, or a redelivery. -/
def handleMessage (subject : Subject) (message : Json) : Option JsValue :=
  (members? (ofJson message)).bind fun envelope =>
    parsePayload isEmail dateOf subject (memberOf envelope "payload")

end Bus

/-! ## The payload of an envelope -/

section Envelope

variable {isEmail : String → Bool} {dateOf : JsValue → Option Int} {about : EnvelopeMeta}
  {subject : Subject} {payload parsed : JsValue}

theorem nodup_envelope :
    ((envelope about subject payload).map Prod.fst).Nodup := by
  show (["id", "subject", "orgId", "occurredAt", "traceId", "causationId", "version", "producer",
    "payload"] : List String).Nodup
  decide

theorem payload_envelope :
    memberOf (envelope about subject payload) "payload" = payload :=
  rfl

/-- Nothing else of an envelope is in the way of its JSON. -/
theorem exists_envelope (h : stringify parsed ≠ .throws) :
    ∃ members, stringifyMembers (envelope about subject parsed) = some members := by
  have hcause : stringify ((about.causationId.map JsValue.str).getD .null) ≠ .throws := by
    cases about.causationId <;> simp [stringify]
  refine exists_stringifyMembers ?_
  simp [envelope, stringify, hcause, h]

/-- A message is sent of a payload that is accepted and can be written, with what is written of
it. -/
theorem publish_eq_some_iff {message : Json} :
    publish isEmail dateOf about subject payload = some message ↔
      ∃ parsed members, parsePayload isEmail dateOf subject payload = some parsed ∧
        stringifyMembers (envelope about subject parsed) = some members ∧
        message = .obj members := by
  unfold publish
  constructor
  · intro h
    obtain ⟨parsed, hparsed, h⟩ := Option.bind_eq_some_iff.mp h
    rw [stringify] at h
    cases hwritten : stringifyMembers (envelope about subject parsed) with
    | none =>
        rw [hwritten] at h
        cases h
    | some members =>
        rw [hwritten] at h
        exact ⟨parsed, members, hparsed, hwritten, (Option.some.inj h).symm⟩
  · rintro ⟨parsed, members, hparsed, hwritten, rfl⟩
    rw [hparsed, Option.bind_some, stringify, hwritten]

/-- **The consumer parses what is written of the payload that the producer has parsed.** -/
theorem handleMessage_publish {members : JsonObject}
    (hwritten : stringifyMembers (envelope about subject parsed) = some members) :
    handleMessage isEmail dateOf subject (.obj members) =
      parsePayload isEmail dateOf subject (stringify parsed).received := by
  have hread := (memberOf_stringifyMembers nodup_envelope hwritten "payload").2
  rw [payload_envelope] at hread
  unfold handleMessage
  rw [ofJson, members?, Option.bind_some, hread]

end Envelope

/-- **What `publish` accepts, the consumer hands to its handler as an equal value, precisely if the
payload survives.** -/
theorem consumed_iff_survives (isEmail : String → Bool) (dateOf : JsValue → Option Int)
    (about : EnvelopeMeta) (subject : Subject) (payload parsed : JsValue)
    (hparsed : parsePayload isEmail dateOf subject payload = some parsed) :
    (∃ message received, publish isEmail dateOf about subject payload = some message ∧
      handleMessage isEmail dateOf subject message = some received ∧
      (eventSchemas isEmail subject).Agrees parsed received) ↔
      (eventSchemas isEmail subject).Survives payload := by
  rw [← Schema.roundTrips _ (eventSchemas_wellFormed isEmail subject) payload parsed hparsed]
  constructor
  · rintro ⟨message, received, hsent, hreceived, hagree⟩
    obtain ⟨parsed', members, hparsed', hwritten, rfl⟩ := publish_eq_some_iff.mp hsent
    rw [hparsed] at hparsed'
    obtain rfl := Option.some.inj hparsed'
    rw [handleMessage_publish hwritten] at hreceived
    have hthrows := (memberOf_stringifyMembers nodup_envelope hwritten "payload").1
    rw [payload_envelope] at hthrows
    exact ⟨hthrows, received, hreceived, hagree⟩
  · rintro ⟨hsent, received, hreceived, hagree⟩
    obtain ⟨members, hwritten⟩ := exists_envelope hsent
    have hpublished := publish_eq_some_iff.mpr ⟨parsed, members, hparsed, hwritten, rfl⟩
    exact ⟨.obj members, received, hpublished, (handleMessage_publish hwritten).trans hreceived,
      hagree⟩

/-- A breach that is due at the epoch. -/
def breach : JsValue :=
  .obj [("findingId", .str "11111111-1111-4111-8111-111111111111"), ("dueAt", .date (some 0))]

def breachMeta : EnvelopeMeta where
  id := "22222222-2222-4222-8222-222222222222"
  orgId := "33333333-3333-4333-8333-333333333333"
  occurredAt := 0
  traceId := ""
  causationId := none
  producer := "policy-service"

theorem breach_is_consumed :
    ∃ message received,
      publish (fun _ => true) (fun _ => none) breachMeta .slaBreached breach = some message ∧
      handleMessage (fun _ => true) (fun _ => none) .slaBreached message = some received ∧
      slaBreached.Agrees breach received := by
  refine (consumed_iff_survives _ _ breachMeta .slaBreached breach breach rfl).mpr ?_
  intro members hmembers
  exact ⟨trivial, trivial, trivial⟩

/-- The result of a scan job that has `perSecond` in its statistics. -/
def ratedResult (perSecond : JsNumber) : JsValue :=
  .obj [("jobId", .str "11111111-1111-4111-8111-111111111111"),
    ("scanId", .str "22222222-2222-4222-8222-222222222222"),
    ("orgId", .str "33333333-3333-4333-8333-333333333333"), ("scannerType", .str "sca"),
    ("assetId", .str "44444444-4444-4444-8444-444444444444"), ("status", .str "succeeded"),
    ("startedAt", .date (some 0)), ("finishedAt", .date (some 0)), ("artifactKey", .null),
    ("findingCount", .num (.finite 0)), ("error", .null),
    ("stats", .obj [("perSecond", .num perSecond)])]

/-- An infinite rate is accepted, written as `null`, and refused by every consumer. -/
theorem infinite_rate_is_refused :
    ¬ ∀ (isEmail : String → Bool) (dateOf : JsValue → Option Int) (about : EnvelopeMeta)
        (subject : Subject) (payload parsed : JsValue),
      parsePayload isEmail dateOf subject payload = some parsed →
      ∃ message received, publish isEmail dateOf about subject payload = some message ∧
        handleMessage isEmail dateOf subject message = some received ∧
        (eventSchemas isEmail subject).Agrees parsed received := by
  intro h
  obtain ⟨message, received, hsent, hreceived, -⟩ := h (fun _ => true) (fun _ => none) breachMeta
    .scanJobCompleted (ratedResult .infinity) (ratedResult .infinity) rfl
  obtain ⟨parsed, members, hparsed, hwritten, rfl⟩ := publish_eq_some_iff.mp hsent
  obtain rfl : ratedResult .infinity = parsed := Option.some.inj hparsed
  rw [handleMessage_publish hwritten] at hreceived
  have hrefused : parsePayload (fun _ => true) (fun _ => none) .scanJobCompleted
      (stringify (ratedResult .infinity)).received = none := rfl
  rw [hrefused] at hreceived
  cases hreceived

end Events
end Ctem
