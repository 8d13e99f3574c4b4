import Mathlib.Data.List.Sort
import Mathlib.Data.Prod.Lex
import Mnemo.Lib.Crew
import Mnemo.Webhook.Subscriptions

/-!
# Deliveries to webhooks

Emitting an event buffers it for every subscription and starts a delivery; a delivery makes several
attempts.  Requests and deliveries are tasks that run at the same time.
-/

namespace Mnemo
namespace Webhook

open Program (Crew)

/-- Which events a client wants to see again. -/
structure ReplayWebhookEventsQuery where
  afterEventId : Option Uuid
  limit : Option Nat
  includeDelivered : Option Bool
  includeDeadLetter : Option Bool

/-- A request, or a delivery that runs by itself. -/
inductive WebhookJob where
  | register (req : RegisterMemoryWebhookRequest) (requestId : Option String)
  | update (webhookId : Uuid) (req : UpdateMemoryWebhookRequest) (requestId : Option String)
  | emit (userId : Uuid) (eventType : MemoryWebhookEventType) (requestId : Option String)
      (payload : Json)
  | deliver (webhookId eventId : Uuid)
  | retry (webhookId eventId : Uuid) (force : Bool) (requestId : Option String)
  | delete (webhookId : Uuid)
  | replay (webhookId : Uuid) (query : ReplayWebhookEventsQuery) (requestId : Option String)
  /-- Another route records an action on a user. -/
  | govern (userId : Uuid) (action : String) (requestId : Option String) (details : Json)

/-! ## Programs -/

namespace WebhookRuntimeState

/-- The text of a refusal. -/
def Refusal.text : Refusal → String
  | .circuitOpen openUntil => "circuit open until " ++ toString openUntil
  | .rateLimitExceeded => "rate limit exceeded for current minute window"

end WebhookRuntimeState

section Programs

variable (setting : WebhookSetting)

/-- The details of the audit of a dead letter. -/
def deadLetterDetails (eventId : Uuid) (reason : String) : Json :=
  .object [("event_id", .string eventId.toText), ("reason", .string reason)]

/-- Give an attempt up that has failed: the last one leaves a dead letter. -/
def recordDeadLetter (webhookId : Uuid) (event : MemoryWebhookEventRecord) (reason : String) :
    WebhookProgram Unit := do
  appendWebhookAudit webhookId "delivery_dead_letter" event.requestId
    (deadLetterDetails event.id reason)
  call .persist

/-- The addresses behind the host are looked at, unless that is switched off. -/
def checkDns (webhook : MemoryWebhookSubscription) : WebhookProgram (Except String Unit) :=
  if setting.delivery.allowLocalhost then return .ok () else call (.validateDns webhook.targetUrl)

/-- Give a delivery up to an address that is not safe. -/
def blockUnsafe (webhookId : Uuid) (webhook : MemoryWebhookSubscription)
    (event : MemoryWebhookEventRecord) (attempt : Nat) (deadLetter : Bool) (error : String) :
    WebhookProgram Unit := do
  call (.updateStatus webhookId event.id attempt false deadLetter (some error))
  call (.recordFailure webhookId false)
  if deadLetter then
    appendWebhookAudit webhookId "delivery_dns_rebinding_blocked" event.requestId
      (.object [("event_id", .string event.id.toText), ("reason", .string error),
        ("target_url", .string webhook.targetUrl)])
    call .persist
  else
    call .persist

/-- An attempt was not successful: the last one leaves a dead letter, after the others comes the
next. -/
def failAttempt (webhookId : Uuid) (event : MemoryWebhookEventRecord) (attempt : Nat)
    (deadLetter sent : Bool) (error reason : String) (next : WebhookProgram Unit) :
    WebhookProgram Unit := do
  call (.updateStatus webhookId event.id attempt false deadLetter (some error))
  call (.recordFailure webhookId sent)
  if deadLetter then
    recordDeadLetter webhookId event reason
  else
    next

/-- Send one attempt. -/
def sendAttempt (webhookId : Uuid) (webhook : MemoryWebhookSubscription)
    (event : MemoryWebhookEventRecord) (attempt : Nat) (deadLetter : Bool)
    (next : WebhookProgram Unit) : WebhookProgram Unit := do
  match ← call (.send webhook event) with
  | .success =>
      call (.updateStatus webhookId event.id attempt true false none)
      call (.recordSuccess webhookId)
      call .persist
  | .status code =>
      let error := "http status " ++ toString code
      failAttempt webhookId event attempt deadLetter true error error next
  | .failed error => failAttempt webhookId event attempt deadLetter true error error next

/-- The attempts that are left; the last one is never followed by another. -/
def attempts (webhookId : Uuid) (webhook : MemoryWebhookSubscription)
    (event : MemoryWebhookEventRecord) : Nat → Nat → WebhookProgram Unit
  | 0, _ => call .persist
  | left + 1, attempt => do
      let next := attempts webhookId webhook event left (attempt + 1)
      let deadLetter := decide (max setting.delivery.maxAttempts 1 ≤ attempt)
      match ← call (.checkRateAndCircuit webhookId) with
      | .error refusal =>
          failAttempt webhookId event attempt deadLetter false refusal.text
            "circuit_or_rate_limited" next
      | .ok _ =>
          match ← checkDns setting webhook with
          | .error error => blockUnsafe webhookId webhook event attempt deadLetter error
          | .ok _ => sendAttempt webhookId webhook event attempt deadLetter next

/-- Deliver an event to a webhook. -/
def deliverMemoryWebhookEvent (webhookId eventId : Uuid) : WebhookProgram Unit := do
  match ← call (.getWebhook webhookId) with
  | none => return ()
  | some webhook =>
      match ← call (.getEvent webhookId eventId) with
      | none => return ()
      | some event =>
          if event.delivered then
            return ()
          else
            match ← call (.serialize event) with
            | .error error =>
                let reason := "serialize failure: " ++ error
                call (.updateStatus webhookId eventId 1 false true (some reason))
                appendWebhookAudit webhookId "delivery_dead_letter" event.requestId
                  (deadLetterDetails eventId reason)
                call (.recordFailure webhookId false)
                call .persist
            | .ok _ => attempts setting webhookId webhook event (max setting.delivery.maxAttempts 1) 1

/-- Tell the subscriptions of a user of an event; hands on the deliveries. -/
def emitMemoryWebhookEvent (userId : Uuid) (eventType : MemoryWebhookEventType)
    (requestId : Option String) (payload : Json) : WebhookProgram (List WebhookJob) := do
  let webhookIds ← call (.subscribedHooks userId eventType)
  if webhookIds.isEmpty then
    return []
  else
    let now ← call .clock
    let queued ← call (.pushEvents webhookIds userId eventType requestId payload now)
    call .persist
    if setting.delivery.enabled then
      return queued.map fun (webhookId, eventId) => .deliver webhookId eventId
    else
      return []

/-- Deliver an event once more; hands on the delivery. -/
def retryMemoryWebhookEvent (webhookId eventId : Uuid) (force : Bool)
    (requestId : Option String) : WebhookProgram (List WebhookJob) := do
  match ← call (.getWebhook webhookId) with
  | none => .fail (.notFound "MemoryWebhook" webhookId.toText)
  | some _ =>
      match ← call (.resetEvent webhookId eventId force) with
      | none => .fail (.notFound "WebhookEvent" eventId.toText)
      | some event =>
          if event.delivered && !force then
            appendWebhookAudit webhookId "retry_skipped" requestId
              (.object [("event_id", .string eventId.toText),
                ("reason", .string "already_delivered")])
            return []
          else
            call .persist
            appendWebhookAudit webhookId "retry_queued" requestId
              (.object [("event_id", .string eventId.toText), ("force", .bool force)])
            return [.deliver webhookId eventId]

/-- Events are shown in the order of their creation, and of their identifiers. -/
def MemoryWebhookEventRecord.key (event : MemoryWebhookEventRecord) : DateTime ×ₗ Uuid :=
  toLex (event.createdAt, event.id)

/-- The events behind a cursor; all of them when none has that identifier. -/
def eventsAfter (events : List MemoryWebhookEventRecord) : Option Uuid →
    List MemoryWebhookEventRecord
  | some after =>
      match events.findIdx? fun event => event.id == after with
      | some index => events.drop (index + 1)
      | none => events
  | none => events

/-- The events that a client wants to see. -/
def ReplayWebhookEventsQuery.wants (query : ReplayWebhookEventsQuery)
    (event : MemoryWebhookEventRecord) : Bool :=
  (query.includeDelivered.getD true || !event.delivered) &&
    (query.includeDeadLetter.getD true || !event.deadLetter)

/-- The events of a page, and the cursor of the next one. -/
def replayPage (query : ReplayWebhookEventsQuery) (rows : List MemoryWebhookEventRecord) :
    List MemoryWebhookEventRecord × Option Uuid :=
  let limit := min (max (query.limit.getD 100) 1) 1000
  let events := rows.insertionSort fun first second => first.key ≤ second.key
  let page := ((eventsAfter events query.afterEventId).filter query.wants).take limit
  (page, page.getLast?.map (·.id))

/-- A JSON value that is absent is null. -/
def optionalJson {Value : Type} (shape : Value → Json) : Option Value → Json
  | some value => shape value
  | none => .null

/-- A page of the events of a webhook, oldest first. -/
def replayMemoryWebhookEvents (webhookId : Uuid) (query : ReplayWebhookEventsQuery)
    (requestId : Option String) :
    WebhookProgram (List MemoryWebhookEventRecord × Option Uuid) := do
  match ← call (.getWebhook webhookId) with
  | none => .fail (.notFound "MemoryWebhook" webhookId.toText)
  | some _ =>
      appendWebhookAudit webhookId "replay_requested" requestId
        (.object [
          ("after_event_id", optionalJson (fun id => .string (Uuid.toText id)) query.afterEventId),
          ("include_dead_letter", optionalJson .bool query.includeDeadLetter),
          ("include_delivered", optionalJson .bool query.includeDelivered),
          ("limit", optionalJson (fun limit : Nat => .number (toString limit)) query.limit)])
      let rows ← call (.getEvents webhookId)
      return replayPage query rows

/-- What a job does; deliveries are handed on. -/
def webhookHandler : WebhookJob → WebhookProgram (List WebhookJob)
  | .register req requestId => do
      let _ ← registerMemoryWebhook setting req requestId
      return []
  | .update webhookId req requestId => do
      let _ ← updateMemoryWebhook setting webhookId req requestId
      return []
  | .emit userId eventType requestId payload =>
      emitMemoryWebhookEvent setting userId eventType requestId payload
  | .deliver webhookId eventId => do
      deliverMemoryWebhookEvent setting webhookId eventId
      return []
  | .retry webhookId eventId force requestId =>
      retryMemoryWebhookEvent webhookId eventId force requestId
  | .delete webhookId => do
      let _ ← deleteMemoryWebhook webhookId
      return []
  | .replay webhookId query requestId => do
      let _ ← replayMemoryWebhookEvents webhookId query requestId
      return []
  | .govern userId action requestId details => do
      appendGovernanceAudit userId action requestId details
      return []

end Programs

/-! ## Tasks -/

section Tasks

variable (Local : Type)

/-- A task of the webhooks. -/
abbrev WebhookTask := Program.Task WebhookCommand WebhookCommand.Reply MnemoError WebhookJob Local

/-- What is in memory, with the tasks of the webhooks. -/
abbrev WebhookCrew :=
  Crew WebhookCommand WebhookCommand.Reply MnemoError WebhookState WebhookJob Local

/-- A job begins, a task performs its next command, or it hands on a delivery. -/
abbrev WebhookEvent := Crew.Event WebhookInput WebhookJob

variable {Local}

/-- What the tasks do; every job comes from outside but a delivery. -/
def webhookOrders (setting : WebhookSetting)
    (protocol : Program.Protocol WebhookCommand WebhookCommand.Reply MnemoError Local)
    (begins : WebhookJob → Local) (handsOn : Local → Local) :
    Crew.Orders WebhookCommand WebhookCommand.Reply MnemoError WebhookJob Local where
  outside
    | .deliver _ _ => false
    | _ => true
  handler := webhookHandler setting
  protocol
  begins
  handsOn

end Tasks

/-! ## A small setting -/

/-- Three attempts are made, and one failure opens the circuit for a second. -/
def briskSetting : WebhookSetting where
  delivery :=
    { enabled := true
      maxAttempts := 3
      maxEventsPerWebhook := 10
      rateLimitPerMinute := 10
      circuitBreakerThreshold := 1
      circuitBreakerCooldownMs := 1000
      persistenceEnabled := false
      allowLocalhost := true }
  requireTls := false
  isUrlSafe _ := true
  targetUrlHost _ := none

/-- A subscription of a user to facts. -/
def factHook (id userId : Uuid) : MemoryWebhookSubscription where
  id
  userId
  userIdentifier := "ada"
  targetUrl := "http://localhost/hook"
  signingSecret := none
  events := [.factAdded]
  enabled := true
  createdAt := 0
  updatedAt := 0

/-- Subscriptions of which nothing was told yet. -/
def quietState (webhooks : Uuid → Option MemoryWebhookSubscription) : WebhookState where
  webhooks
  events _ := []
  audit _ := []
  runtime _ := none
  policies _ := none
  governance _ := []
  issued := []
  posts := []
  notes _ := []

/-- At a moment, whatever is sent fails. -/
def failingAt (now : DateTime) : WebhookInput where
  now
  id := 0
  user := .ok 7
  order := [1]
  serialized := .ok ()
  dns := .ok ()
  outcome := .failed "connection refused"

end Webhook
end Mnemo
