import Mnemo.Webhook.State

/-!
# Subscribing to webhooks

A subscription is registered under a new identifier.  An update works on a copy of the subscription,
which it stores when its checks have passed.
-/

namespace Mnemo
namespace Webhook

open Policy (UserPolicyRecord)

/-- What the routes depend on: the limits, whether encrypted connections are required, and the
reading of URLs. -/
structure WebhookSetting where
  delivery : WebhookDeliveryConfig
  requireTls : Bool
  /-- The URL does not point into an internal network. -/
  isUrlSafe : String → Bool
  /-- The host of a URL, in lower case. -/
  targetUrlHost : String → Option String

/-- Body of a request to register a webhook. -/
structure RegisterMemoryWebhookRequest where
  user : String
  targetUrl : String
  signingSecret : Option String
  events : Option (List MemoryWebhookEventType)
  enabled : Bool

/-- Body of a request to update a webhook. -/
structure UpdateMemoryWebhookRequest where
  targetUrl : Option String
  signingSecret : Option String
  events : Option (List MemoryWebhookEventType)
  enabled : Option Bool

/-- The events of a subscription that names none. -/
def defaultWebhookEvents : List MemoryWebhookEventType :=
  [.factAdded, .factSuperseded, .headAdvanced, .conflictDetected]

/-- The name of a type of events. -/
def webhookEventTypeStr : MemoryWebhookEventType → String
  | .factAdded => "fact_added"
  | .factSuperseded => "fact_superseded"
  | .headAdvanced => "head_advanced"
  | .conflictDetected => "conflict_detected"
  | .revalidationNeeded => "revalidation_needed"
  | .clarificationGenerated => "clarification_generated"
  | .clarificationResolved => "clarification_resolved"
  | .narrativeRefreshed => "narrative_refreshed"
  | .promotionProposed => "promotion_proposed"
  | .promotionApproved => "promotion_approved"
  | .promotionRejected => "promotion_rejected"
  | .promotionExpired => "promotion_expired"
  | .promotionConflictDetected => "promotion_conflict_detected"

/-- A secret that is blank is none. -/
def normalizeSecret (secret : String) : Option String :=
  if (Text.trim secret).isEmpty then none else some (Text.trim secret)

/-- Change the fields of a subscription that are given. -/
def UpdateMemoryWebhookRequest.apply (req : UpdateMemoryWebhookRequest) (now : DateTime)
    (webhook : MemoryWebhookSubscription) : MemoryWebhookSubscription :=
  { webhook with
    targetUrl := (req.targetUrl.map Text.trim).getD webhook.targetUrl
    signingSecret := (req.signingSecret.map normalizeSecret).getD webhook.signingSecret
    events := (req.events.filter fun events => !events.isEmpty).getD webhook.events
    enabled := req.enabled.getD webhook.enabled
    updatedAt := now }

/-! ## Target URLs -/

/-- The URL uses one of the two protocols of the web. -/
def isHttpUrl (value : String) : Bool :=
  let lower := Text.toAsciiLowercase value
  Text.startsWith lower "http://" || Text.startsWith lower "https://"

section Programs

variable (setting : WebhookSetting)

/-- The policy of a user allows webhooks to the host of a URL. -/
def isTargetUrlAllowed (policy : UserPolicyRecord) (targetUrl : String) : Bool :=
  policy.webhookDomainAllowlist.isEmpty ||
    match setting.targetUrlHost targetUrl with
    | some host => policy.webhookDomainAllowlist.any fun allowed =>
        host == allowed || ("." ++ allowed).toList.isSuffixOf host.toList
    | none => false

/-- What is checked of a trimmed URL before any policy is looked at. -/
def checkTargetUrl (emptyMessage targetUrl : String) : Except MnemoError Unit :=
  if targetUrl.isEmpty then .error (.validation emptyMessage)
  else if !isHttpUrl targetUrl then
    .error (.validation "target_url must start with http:// or https://")
  else if !setting.delivery.allowLocalhost && !setting.isUrlSafe targetUrl then
    .error (.validation
      "target_url must not point to internal or private network addresses")
  else if setting.requireTls && !Text.startsWith targetUrl "https://" then
    .error (.validation "require_tls is enabled; target_url must use https://")
  else .ok ()

/-- Append to the audit of a webhook. -/
def appendWebhookAudit (webhookId : Uuid) (action : String) (requestId : Option String)
    (details : Json) : WebhookProgram Unit := do
  call (.appendAudit webhookId action requestId details)
  call .persist

/-- Append to the audit of a user. -/
def appendGovernanceAudit (userId : Uuid) (action : String) (requestId : Option String)
    (details : Json) : WebhookProgram Unit := do
  call (.appendGovernance userId action requestId details)
  call .persist

/-- The policy of a user, who is given the default one if there is none. -/
def getOrCreateUserPolicy (userId : Uuid) (userIdentifier : String) :
    WebhookProgram UserPolicyRecord := do
  let (policy, created) ← call (.userPolicy userId userIdentifier)
  if created then
    call .persist
  return policy

/-- A webhook to a host that the policy of the user does not allow is noted and refused. -/
def requireAllowedTarget (userId : Uuid) (userIdentifier targetUrl : String)
    (requestId : Option String) (action : List (String × Json)) : WebhookProgram Unit := do
  let policy ← getOrCreateUserPolicy userId userIdentifier
  if !isTargetUrlAllowed setting policy targetUrl then
    appendGovernanceAudit userId "policy_violation_webhook_domain" requestId
      (.object (action ++ [("allowlist", .array (policy.webhookDomainAllowlist.map .string)),
        ("target_url", .string targetUrl)]))
    .fail (.validation "target_url host is not allowed by policy webhook_domain_allowlist")

/-- What the audit says of a subscription. -/
def subscriptionDetails (webhook : MemoryWebhookSubscription) : Json :=
  .object [("enabled", .bool webhook.enabled),
    ("events", .array (webhook.events.map fun event => .string (webhookEventTypeStr event))),
    ("target_url", .string webhook.targetUrl)]

/-! ## Programs -/

/-- Register a webhook under a new identifier. -/
def registerMemoryWebhook (req : RegisterMemoryWebhookRequest) (requestId : Option String) :
    WebhookProgram MemoryWebhookSubscription := do
  let user := Text.trim req.user
  let targetUrl := Text.trim req.targetUrl
  if user.isEmpty then
    .fail (.validation "user is required")
  .ofExcept (checkTargetUrl setting "target_url is required" targetUrl)
  let found ← call (.findUser user)
  let userId ← .ofExcept found
  requireAllowedTarget setting userId user targetUrl requestId []
  let now ← call .clock
  let id ← call .freshId
  let webhook : MemoryWebhookSubscription :=
    { id, userId
      userIdentifier := user
      targetUrl
      signingSecret := req.signingSecret.bind normalizeSecret
      events := (req.events.filter fun events => !events.isEmpty).getD defaultWebhookEvents
      enabled := req.enabled
      createdAt := now
      updatedAt := now }
  call (.putWebhook webhook)
  call .persist
  appendWebhookAudit webhook.id "webhook_registered" requestId (subscriptionDetails webhook)
  return webhook

/-- The URL in an update has to pass the checks of a registration. -/
def checkNewTarget (webhook : MemoryWebhookSubscription) (requestId : Option String) :
    Option String → WebhookProgram Unit
  | none => return ()
  | some newUrl => do
      let trimmed := Text.trim newUrl
      .ofExcept (checkTargetUrl setting "target_url cannot be empty" trimmed)
      requireAllowedTarget setting webhook.userId webhook.userIdentifier trimmed requestId
        [("action", .string "webhook_update")]

/-- Update a webhook: read it, check the request, and store the copy with its changes. -/
def updateMemoryWebhook (id : Uuid) (req : UpdateMemoryWebhookRequest)
    (requestId : Option String) : WebhookProgram MemoryWebhookSubscription := do
  match ← call (.getWebhook id) with
  | none => .fail (.notFound "MemoryWebhook" id.toText)
  | some webhook =>
      checkNewTarget setting webhook requestId req.targetUrl
      let now ← call .clock
      let updated := req.apply now webhook
      call (.putWebhook updated)
      call .persist
      appendWebhookAudit id "webhook_updated" requestId (subscriptionDetails updated)
      return updated

/-- Delete a subscription and everything that is kept for it. -/
def deleteMemoryWebhook (webhookId : Uuid) : WebhookProgram Bool := do
  let removed ← call (.removeWebhook webhookId)
  call (.removeEvents webhookId)
  call (.removeAudit webhookId)
  call (.removeRuntime webhookId)
  call .persist
  return removed

end Programs
end Webhook
end Mnemo
