import Mnemo.Core.Json
import Mnemo.Policy.Model

/-!
# Webhooks

A subscription is told of events in the memory of a user.  Subscriptions, buffered events, audit
rows and the state of the deliveries are kept in memory, each behind a lock of its own.
-/

namespace Mnemo
namespace Webhook

/-- What a subscription may be told of. -/
inductive MemoryWebhookEventType where
  | factAdded
  | factSuperseded
  | headAdvanced
  | conflictDetected
  | revalidationNeeded
  | clarificationGenerated
  | clarificationResolved
  | narrativeRefreshed
  | promotionProposed
  | promotionApproved
  | promotionRejected
  | promotionExpired
  | promotionConflictDetected
  deriving DecidableEq, Repr

/-- A subscription to the events of a user. -/
structure MemoryWebhookSubscription where
  id : Uuid
  userId : Uuid
  userIdentifier : String
  targetUrl : String
  signingSecret : Option String
  events : List MemoryWebhookEventType
  enabled : Bool
  createdAt : DateTime
  updatedAt : DateTime
  deriving DecidableEq, Repr

/-- An event that is delivered to a subscription. -/
structure MemoryWebhookEventRecord where
  id : Uuid
  webhookId : Uuid
  eventType : MemoryWebhookEventType
  userId : Uuid
  payload : Json
  createdAt : DateTime
  attempts : Nat
  delivered : Bool
  deadLetter : Bool
  requestId : Option String
  deliveredAt : Option DateTime
  lastError : Option String

/-- A row of the audit of a subscription. -/
structure MemoryWebhookAuditRecord where
  id : Uuid
  webhookId : Uuid
  action : String
  requestId : Option String
  details : Json
  recordedAt : DateTime

/-- A row of the audit of a user. -/
structure GovernanceAuditRecord where
  id : Uuid
  userId : Uuid
  action : String
  requestId : Option String
  details : Json
  recordedAt : DateTime

/-- Limits on the deliveries. -/
structure WebhookDeliveryConfig where
  enabled : Bool
  maxAttempts : Nat
  maxEventsPerWebhook : Nat
  rateLimitPerMinute : Nat
  circuitBreakerThreshold : Nat
  circuitBreakerCooldownMs : Nat
  persistenceEnabled : Bool
  allowLocalhost : Bool

/-- How the deliveries to a subscription went lately. -/
structure WebhookRuntimeState where
  windowStartedAt : DateTime
  sentInWindow : Nat
  consecutiveFailures : Nat
  circuitOpenUntil : Option DateTime
  deriving DecidableEq, Repr

/-! ## Admission -/

namespace WebhookRuntimeState

/-- Nothing was sent yet. -/
def fresh (now : DateTime) : WebhookRuntimeState :=
  { windowStartedAt := now
    sentInWindow := 0
    consecutiveFailures := 0
    circuitOpenUntil := none }

/-- A circuit whose time has passed is closed. -/
def closeElapsed (row : WebhookRuntimeState) : WebhookRuntimeState :=
  { row with circuitOpenUntil := none }

/-- After a minute a new window begins. -/
def renewWindow (row : WebhookRuntimeState) (now : DateTime) : WebhookRuntimeState :=
  if 60 ≤ numSeconds (now - row.windowStartedAt) then
    { row with windowStartedAt := now, sentInWindow := 0 }
  else
    row

/-- One more attempt is sent in the window. -/
def countSent (row : WebhookRuntimeState) : WebhookRuntimeState :=
  { row with sentInWindow := row.sentInWindow + 1 }

/-- The circuit is open. -/
def isOpen (row : WebhookRuntimeState) (now : DateTime) : Bool :=
  match row.circuitOpenUntil with
  | some openUntil => decide (now < openUntil)
  | none => false

/-- The window has room for another attempt. -/
def hasRoom (config : WebhookDeliveryConfig) (row : WebhookRuntimeState) (now : DateTime) : Bool :=
  decide ((row.renewWindow now).sentInWindow < max config.rateLimitPerMinute 1)

/-- Why an attempt is refused. -/
inductive Refusal where
  | circuitOpen (openUntil : DateTime)
  | rateLimitExceeded
  deriving DecidableEq, Repr

/-- Admit an attempt, unless the circuit is open or the window is full. -/
def admission (config : WebhookDeliveryConfig) (now : DateTime) (row : WebhookRuntimeState) :
    Except Refusal Unit × WebhookRuntimeState :=
  let admitWithin (row : WebhookRuntimeState) : Except Refusal Unit × WebhookRuntimeState :=
    let renewed := row.renewWindow now
    if max config.rateLimitPerMinute 1 ≤ renewed.sentInWindow then
      (.error .rateLimitExceeded, renewed)
    else
      (.ok (), renewed.countSent)
  match row.circuitOpenUntil with
  | some openUntil =>
      if now < openUntil then (.error (.circuitOpen openUntil), row)
      else admitWithin row.closeElapsed
  | none => admitWithin row

/-- A delivery was successful. -/
def succeed (row : WebhookRuntimeState) : WebhookRuntimeState :=
  { row with consecutiveFailures := 0, circuitOpenUntil := none }

/-- How long the circuit stays open. -/
def cooldown (config : WebhookDeliveryConfig) : Int :=
  (config.circuitBreakerCooldownMs : Int).bmod (2 ^ 64) * 1000000

/-- One more failure in a row; when there are enough of them the circuit opens. -/
def fail (config : WebhookDeliveryConfig) (now : DateTime) (row : WebhookRuntimeState) :
    WebhookRuntimeState :=
  let failures := min (row.consecutiveFailures + 1) (2 ^ 32 - 1)
  if max config.circuitBreakerThreshold 1 ≤ failures then
    { row with
      consecutiveFailures := 0
      circuitOpenUntil := some (now + cooldown config) }
  else
    { row with consecutiveFailures := failures }

theorem admission_ok_iff (config : WebhookDeliveryConfig) (now : DateTime)
    (row : WebhookRuntimeState) : (row.admission config now).1 = .ok () ↔
      row.isOpen now = false ∧ row.hasRoom config now = true := by
  have room (other : WebhookRuntimeState) (start : other.windowStartedAt = row.windowStartedAt)
      (sent : other.sentInWindow = row.sentInWindow) :
      (other.renewWindow now).sentInWindow = (row.renewWindow now).sentInWindow := by
    unfold renewWindow
    rw [start]
    split
    · rfl
    · exact sent
  unfold admission isOpen hasRoom
  cases row.circuitOpenUntil with
  | none =>
    dsimp only
    by_cases full : max config.rateLimitPerMinute 1 ≤ (row.renewWindow now).sentInWindow
    · rw [if_pos full]
      exact iff_of_false nofun fun both => absurd (of_decide_eq_true both.2) (not_lt.mpr full)
    · rw [if_neg full]
      exact iff_of_true rfl ⟨rfl, decide_eq_true (not_le.mp full)⟩
  | some openUntil =>
    dsimp only
    by_cases early : now < openUntil
    · rw [if_pos early]
      exact iff_of_false nofun fun both => absurd early (of_decide_eq_false both.1)
    · rw [if_neg early, room row.closeElapsed rfl rfl]
      by_cases full : max config.rateLimitPerMinute 1 ≤ (row.renewWindow now).sentInWindow
      · rw [if_pos full]
        exact iff_of_false nofun fun both => absurd (of_decide_eq_true both.2) (not_lt.mpr full)
      · rw [if_neg full]
        exact iff_of_true rfl ⟨decide_eq_false early, decide_eq_true (not_le.mp full)⟩

theorem consecutiveFailures_admission (config : WebhookDeliveryConfig) (now : DateTime)
    (row : WebhookRuntimeState) :
    (row.admission config now).2.consecutiveFailures = row.consecutiveFailures := by
  have renews (other : WebhookRuntimeState) :
      (other.renewWindow now).consecutiveFailures = other.consecutiveFailures := by
    unfold renewWindow
    split <;> rfl
  unfold admission
  cases row.circuitOpenUntil with
  | none =>
    dsimp only
    split
    · exact renews row
    · exact renews row
  | some openUntil =>
    dsimp only
    split
    · rfl
    · split
      · exact renews row.closeElapsed
      · exact renews row.closeElapsed

end WebhookRuntimeState
end Webhook
end Mnemo
