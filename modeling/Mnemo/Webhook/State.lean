import Mnemo.Lib.Database
import Mnemo.Webhook.Model

/-!
# What is kept about webhooks

Each critical section, each call to the outside and each reading of the clock is one command.  What
receivers answer and what is noted of the attempts is kept along, and no command looks at it.
-/

namespace Mnemo
namespace Webhook

open Policy (Policies UserPolicyRecord)

/-! ## Buffered events -/

/-- Change the first event with an identifier. -/
def reviseEvent (eventId : Uuid) (revise : MemoryWebhookEventRecord → MemoryWebhookEventRecord) :
    List MemoryWebhookEventRecord → List MemoryWebhookEventRecord
  | [] => []
  | event :: rows =>
      if event.id = eventId then revise event :: rows else event :: reviseEvent eventId revise rows

/-- The first event with an identifier. -/
def findEvent (eventId : Uuid) (rows : List MemoryWebhookEventRecord) :
    Option MemoryWebhookEventRecord :=
  rows.find? fun event => event.id == eventId

/-- The status of an event after an attempt. -/
def MemoryWebhookEventRecord.withStatus (event : MemoryWebhookEventRecord) (attempts : Nat)
    (delivered deadLetter : Bool) (error : Option String) (now : DateTime) :
    MemoryWebhookEventRecord :=
  if delivered then
    { event with
      attempts
      delivered := true
      deadLetter := false
      deliveredAt := some now
      lastError := none }
  else
    { event with attempts, deadLetter, lastError := error }

/-- An event that is to be delivered again is no dead letter; one that is delivered stays as it is,
unless the retry is forced. -/
def MemoryWebhookEventRecord.forRetry (force : Bool) (event : MemoryWebhookEventRecord) :
    MemoryWebhookEventRecord :=
  if !event.delivered || force then { event with deadLetter := false, lastError := none } else event

/-- Append an event, and drop the oldest ones that are too many. -/
def pushEvent (maxEvents : Nat) (rows : List MemoryWebhookEventRecord)
    (event : MemoryWebhookEventRecord) : List MemoryWebhookEventRecord :=
  (rows ++ [event]).drop ((rows ++ [event]).length - max maxEvents 1)

/-! ## What happens outside and what is noted -/

/-- What comes back from a receiver. -/
inductive SendOutcome where
  | success
  | status (code : Nat)
  | failed (error : String)
  deriving DecidableEq

/-- What is noted of the attempts at a webhook. -/
inductive Note where
  /-- An attempt is sent. -/
  | sent
  /-- An attempt was sent and was successful. -/
  | succeeded
  /-- An attempt was sent and has failed. -/
  | failed
  /-- An attempt that was not sent is recorded as a failure. -/
  | unsent
  /-- The circuit opens. -/
  | opened (now : DateTime)
  deriving DecidableEq

/-- What is in memory, the posts that the receivers have got with their answers, and the notes. -/
structure WebhookState where
  webhooks : Uuid → Option MemoryWebhookSubscription
  events : Uuid → List MemoryWebhookEventRecord
  audit : Uuid → List MemoryWebhookAuditRecord
  runtime : Uuid → Option WebhookRuntimeState
  policies : Policies
  governance : Uuid → List GovernanceAuditRecord
  /-- The identifiers that were drawn. -/
  issued : List Uuid
  /-- The webhook and the event of a post, and whether it was successful. -/
  posts : List (Uuid × Uuid × Bool)
  /-- The notes on a webhook, the latest first. -/
  notes : Uuid → List Note

/-- One critical section, one call to the outside, or one reading of the clock. -/
inductive WebhookCommand where
  | clock
  | freshId
  | findUser (identifier : String)
  /-- The policy of a user, who is given the default one if there is none. -/
  | userPolicy (userId : Uuid) (userIdentifier : String)
  | getWebhook (webhookId : Uuid)
  | putWebhook (webhook : MemoryWebhookSubscription)
  | removeWebhook (webhookId : Uuid)
  | subscribedHooks (userId : Uuid) (eventType : MemoryWebhookEventType)
  | getEvent (webhookId eventId : Uuid)
  | getEvents (webhookId : Uuid)
  | pushEvents (webhookIds : List Uuid) (userId : Uuid) (eventType : MemoryWebhookEventType)
      (requestId : Option String) (payload : Json) (createdAt : DateTime)
  | removeEvents (webhookId : Uuid)
  | resetEvent (webhookId eventId : Uuid) (force : Bool)
  | updateStatus (webhookId eventId : Uuid) (attempts : Nat) (delivered deadLetter : Bool)
      (error : Option String)
  | serialize (event : MemoryWebhookEventRecord)
  | checkRateAndCircuit (webhookId : Uuid)
  | validateDns (targetUrl : String)
  | send (webhook : MemoryWebhookSubscription) (event : MemoryWebhookEventRecord)
  | recordSuccess (webhookId : Uuid)
  /-- The failure of an attempt is recorded; whether it was sent is only noted. -/
  | recordFailure (webhookId : Uuid) (sent : Bool)
  | removeRuntime (webhookId : Uuid)
  | appendAudit (webhookId : Uuid) (action : String) (requestId : Option String) (details : Json)
  | removeAudit (webhookId : Uuid)
  | appendGovernance (userId : Uuid) (action : String) (requestId : Option String) (details : Json)
  /-- What is in memory is written to the database; nothing in memory changes. -/
  | persist

/-- The type of the reply to a command. -/
def WebhookCommand.Reply : WebhookCommand → Type
  | .clock => DateTime
  | .freshId => Uuid
  | .findUser _ => Except MnemoError Uuid
  | .userPolicy _ _ => UserPolicyRecord × Bool
  | .getWebhook _ => Option MemoryWebhookSubscription
  | .removeWebhook _ => Bool
  | .subscribedHooks _ _ => List Uuid
  | .getEvents _ => List MemoryWebhookEventRecord
  | .getEvent _ _ | .resetEvent _ _ _ => Option MemoryWebhookEventRecord
  | .pushEvents _ _ _ _ _ _ => List (Uuid × Uuid)
  | .serialize _ | .validateDns _ => Except String Unit
  | .checkRateAndCircuit _ => Except WebhookRuntimeState.Refusal Unit
  | .send _ _ => SendOutcome
  | _ => Unit

/-- What the environment decides. -/
structure WebhookInput where
  now : DateTime
  /-- A proposal for a fresh identifier. -/
  id : Uuid
  user : Except MnemoError Uuid
  /-- The order in which the map of subscriptions is gone through. -/
  order : List Uuid
  serialized : Except String Unit
  dns : Except String Unit
  outcome : SendOutcome

namespace WebhookState

/-- Change the events of a webhook. -/
def withEvents (state : WebhookState) (webhookId : Uuid) (rows : List MemoryWebhookEventRecord) :
    WebhookState :=
  { state with events := Function.update state.events webhookId rows }

/-- Change the state of the deliveries to a webhook. -/
def withRuntime (state : WebhookState) (webhookId : Uuid) (row : Option WebhookRuntimeState) :
    WebhookState :=
  { state with runtime := Function.update state.runtime webhookId row }

/-- Take note of something about a webhook. -/
def note (state : WebhookState) (webhookId : Uuid) (noted : Note) : WebhookState :=
  { state with notes := Function.update state.notes webhookId (noted :: state.notes webhookId) }

/-- The state of the deliveries to a webhook, a fresh one if there is none. -/
def runtimeOf (state : WebhookState) (webhookId : Uuid) (now : DateTime) : WebhookRuntimeState :=
  (state.runtime webhookId).getD (.fresh now)

/-- Buffer an event for a webhook, under a fresh identifier. -/
def push (config : WebhookDeliveryConfig) (proposal : Uuid) (userId : Uuid)
    (eventType : MemoryWebhookEventType) (requestId : Option String) (payload : Json)
    (createdAt : DateTime) (state : WebhookState) (webhookId : Uuid) : WebhookState :=
  let id := Database.unused state.issued proposal
  let event : MemoryWebhookEventRecord :=
    { id, webhookId, eventType, userId, payload, createdAt
      attempts := 0
      delivered := false
      deadLetter := false
      requestId
      deliveredAt := none
      lastError := none }
  { state.withEvents webhookId
      (pushEvent config.maxEventsPerWebhook (state.events webhookId) event) with
    issued := id :: state.issued }

/-- Buffer an event for one webhook after the other. -/
def pushAll (config : WebhookDeliveryConfig) (proposal : Uuid) (userId : Uuid)
    (eventType : MemoryWebhookEventType) (requestId : Option String) (payload : Json)
    (createdAt : DateTime) : List Uuid → WebhookState → List (Uuid × Uuid) × WebhookState
  | [], state => ([], state)
  | webhookId :: webhookIds, state =>
      let next := state.push config proposal userId eventType requestId payload createdAt webhookId
      let (queued, last) := pushAll config proposal userId eventType requestId payload createdAt
        webhookIds next
      ((webhookId, Database.unused state.issued proposal) :: queued, last)

/-- The subscriptions that are told of an event. -/
def subscribes (userId : Uuid) (eventType : MemoryWebhookEventType)
    (webhook : MemoryWebhookSubscription) : Bool :=
  webhook.enabled && webhook.userId == userId && webhook.events.contains eventType

/-- Append a row to the audit of a webhook, and drop the oldest ones that are too many. -/
def appendWebhookAudit (state : WebhookState) (row : MemoryWebhookAuditRecord) : WebhookState :=
  let rows := state.audit row.webhookId ++ [row]
  { state with audit := Function.update state.audit row.webhookId (rows.drop (rows.length - 1000)) }

/-- Append a row to the audit of a user, and drop the oldest ones that are too many. -/
def appendGovernanceAudit (state : WebhookState) (row : GovernanceAuditRecord) : WebhookState :=
  let rows := state.governance row.userId ++ [row]
  { state with
    governance := Function.update state.governance row.userId (rows.drop (rows.length - 1000)) }

/-- Record the failure of an attempt. -/
def recordFailure (config : WebhookDeliveryConfig) (now : DateTime) (webhookId : Uuid)
    (sent : Bool) (state : WebhookState) : WebhookState :=
  let row := (state.runtimeOf webhookId now).fail config now
  let noted := (state.withRuntime webhookId (some row)).note webhookId
    (if sent then .failed else .unsent)
  -- the count of failures starts again exactly when the circuit opens
  if row.consecutiveFailures = 0 then noted.note webhookId (.opened now) else noted

end WebhookState

section Exec

variable (config : WebhookDeliveryConfig)

/-- Perform a command. -/
def perform (input : WebhookInput) (state : WebhookState) :
    (command : WebhookCommand) → command.Reply × WebhookState
  | .clock => (input.now, state)
  | .freshId =>
      let id := Database.unused state.issued input.id
      (id, { state with issued := id :: state.issued })
  | .findUser _ => (input.user, state)
  | .userPolicy userId userIdentifier =>
      let policy := Policy.policyOf state.policies userId userIdentifier input.now
      ((policy, (state.policies userId).isNone),
        { state with policies := Function.update state.policies userId (some policy) })
  | .getWebhook webhookId => (state.webhooks webhookId, state)
  | .putWebhook webhook =>
      ((), { state with webhooks := Function.update state.webhooks webhook.id (some webhook) })
  | .removeWebhook webhookId =>
      ((state.webhooks webhookId).isSome,
        { state with webhooks := Function.update state.webhooks webhookId none })
  | .subscribedHooks userId eventType =>
      (input.order.filter fun webhookId =>
        (state.webhooks webhookId).any (WebhookState.subscribes userId eventType), state)
  | .getEvents webhookId => (state.events webhookId, state)
  | .getEvent webhookId eventId => (findEvent eventId (state.events webhookId), state)
  | .pushEvents webhookIds userId eventType requestId payload createdAt =>
      state.pushAll config input.id userId eventType requestId payload createdAt webhookIds
  | .removeEvents webhookId => ((), state.withEvents webhookId [])
  | .resetEvent webhookId eventId force =>
      let rows := reviseEvent eventId (·.forRetry force) (state.events webhookId)
      (findEvent eventId rows, state.withEvents webhookId rows)
  | .updateStatus webhookId eventId attempts delivered deadLetter error =>
      ((), state.withEvents webhookId (reviseEvent eventId
        (·.withStatus attempts delivered deadLetter error input.now) (state.events webhookId)))
  | .serialize _ => (input.serialized, state)
  | .checkRateAndCircuit webhookId =>
      let (answer, row) := (state.runtimeOf webhookId input.now).admission config input.now
      (answer, state.withRuntime webhookId (some row))
  | .validateDns _ => (input.dns, state)
  | .send webhook event =>
      (input.outcome,
        { state.note webhook.id .sent with
          posts := (webhook.id, event.id, input.outcome == .success) :: state.posts })
  | .recordSuccess webhookId =>
      ((), (match state.runtime webhookId with
        | some row => state.withRuntime webhookId (some row.succeed)
        | none => state).note webhookId .succeeded)
  | .recordFailure webhookId sent => ((), state.recordFailure config input.now webhookId sent)
  | .removeRuntime webhookId => ((), state.withRuntime webhookId none)
  | .appendAudit webhookId action requestId details =>
      ((), state.appendWebhookAudit
        { id := input.id, webhookId, action, requestId, details, recordedAt := input.now })
  | .removeAudit webhookId =>
      ((), { state with audit := Function.update state.audit webhookId [] })
  | .appendGovernance userId action requestId details =>
      ((), state.appendGovernanceAudit
        { id := input.id, userId, action, requestId, details, recordedAt := input.now })
  | .persist => ((), state)

/-- Perform a command; none of them fails. -/
def exec (command : WebhookCommand) (input : WebhookInput) (state : WebhookState) :
    Except MnemoError command.Reply × WebhookState :=
  (.ok (perform config input state command).1, (perform config input state command).2)

end Exec

/-- A program over what is kept about webhooks. -/
abbrev WebhookProgram := Program WebhookCommand WebhookCommand.Reply MnemoError

/-- Perform a command. -/
def call (command : WebhookCommand) : WebhookProgram command.Reply := Program.call command

end Webhook
end Mnemo
