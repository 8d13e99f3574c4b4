import Mnemo.Webhook.Circuit
import Mnemo.Webhook.Effects

/-!
# What stays within its limits

However the tasks of the webhooks interleave, what is kept in memory stays within its limits, and
everything stands in the place of the webhook or the user that it is about.
-/

namespace Mnemo
namespace Webhook

open Program (Crew)
open StateMachine (finish finish_induction)

section Bounds

variable (config : WebhookDeliveryConfig)

/-- No more attempts are counted than a window and the breaker have room for. -/
structure WithinLimits (row : WebhookRuntimeState) : Prop where
  sent : row.sentInWindow ≤ max config.rateLimitPerMinute 1
  failures : row.consecutiveFailures < max config.circuitBreakerThreshold 1

/-- Everything is filed under what it is about, and within the limits. -/
structure InOrder (state : WebhookState) : Prop where
  webhooks : ∀ webhookId webhook, state.webhooks webhookId = some webhook → webhook.id = webhookId
  events : ∀ webhookId, (state.events webhookId).length ≤ max config.maxEventsPerWebhook 1 ∧
    ∀ event ∈ state.events webhookId, event.webhookId = webhookId
  audit : ∀ webhookId, (state.audit webhookId).length ≤ 1000 ∧
    ∀ row ∈ state.audit webhookId, row.webhookId = webhookId
  governance : ∀ userId, (state.governance userId).length ≤ 1000 ∧
    ∀ row ∈ state.governance userId, row.userId = userId
  runtime : ∀ webhookId row, state.runtime webhookId = some row → WithinLimits config row

variable {config} {row : WebhookRuntimeState} {state : WebhookState}

theorem updated (books : Uuid → α) (property : Uuid → α → Prop) {key : Uuid} {value : α}
    (new : property key value) (old : ∀ key, property key (books key)) :
    ∀ other, property other (Function.update books key value other) :=
  (Function.forall_update_iff books property).mpr ⟨new, fun other _ => old other⟩

/-! ## Deliveries -/

theorem WithinLimits.fresh (now : DateTime) : WithinLimits config (.fresh now) :=
  ⟨Nat.zero_le _, by simp [WebhookRuntimeState.fresh]⟩

theorem WithinLimits.renewWindow (within : WithinLimits config row) (now : DateTime) :
    WithinLimits config (row.renewWindow now) := by
  unfold WebhookRuntimeState.renewWindow
  split
  · exact ⟨Nat.zero_le _, within.failures⟩
  · exact within

theorem WithinLimits.admission (within : WithinLimits config row) (now : DateTime) :
    WithinLimits config (row.admission config now).2 := by
  have admits (other : WebhookRuntimeState) (within : WithinLimits config other) :
      WithinLimits config (if max config.rateLimitPerMinute 1 ≤ (other.renewWindow now).sentInWindow
        then ((.error .rateLimitExceeded : Except WebhookRuntimeState.Refusal Unit),
          other.renewWindow now)
        else (.ok (), (other.renewWindow now).countSent)).2 := by
    have renewed := within.renewWindow now
    split
    · exact renewed
    · refine ⟨?_, renewed.failures⟩
      simp only [WebhookRuntimeState.countSent]
      omega
  unfold WebhookRuntimeState.admission
  cases row.circuitOpenUntil with
  | none => exact admits row within
  | some openUntil =>
    dsimp only
    split
    · exact within
    · exact admits row.closeElapsed ⟨within.sent, within.failures⟩

theorem WithinLimits.fail (within : WithinLimits config row) (now : DateTime) :
    WithinLimits config (row.fail config now) := by
  unfold WebhookRuntimeState.fail
  dsimp only
  split
  · exact ⟨within.sent, by simp⟩
  · exact ⟨within.sent, by dsimp only; omega⟩

theorem InOrder.runtimeOf (ordered : InOrder config state) (webhookId : Uuid) (now : DateTime) :
    WithinLimits config (state.runtimeOf webhookId now) := by
  unfold WebhookState.runtimeOf
  cases found : state.runtime webhookId with
  | none => exact .fresh now
  | some row => exact ordered.runtime webhookId row found

theorem InOrder.withRuntime (ordered : InOrder config state) (webhookId : Uuid)
    {row : Option WebhookRuntimeState} (within : ∀ new, row = some new → WithinLimits config new) :
    InOrder config (state.withRuntime webhookId row) :=
  { ordered with
    runtime := updated state.runtime
      (fun _ row => ∀ found, row = some found → WithinLimits config found) within ordered.runtime }

theorem InOrder.recordFailure (ordered : InOrder config state) (now : DateTime) (webhookId : Uuid)
    (sent : Bool) : InOrder config (state.recordFailure config now webhookId sent) := by
  have failed : InOrder config
      (state.withRuntime webhookId (some ((state.runtimeOf webhookId now).fail config now))) :=
    ordered.withRuntime webhookId fun new same =>
      Option.some.inj same ▸ (ordered.runtimeOf webhookId now).fail now
  unfold WebhookState.recordFailure
  dsimp only
  split
  · exact { failed with }
  · exact { failed with }

theorem InOrder.recordSuccess (ordered : InOrder config state) (input : WebhookInput)
    (webhookId : Uuid) :
    InOrder config (perform config input state (.recordSuccess webhookId)).2 := by
  unfold perform
  dsimp only
  split
  · rename_i row found
    have succeeded : InOrder config (state.withRuntime webhookId (some row.succeed)) := by
      refine ordered.withRuntime webhookId fun new same => ?_
      rw [← Option.some.inj same]
      exact ⟨(ordered.runtime webhookId row found).sent, by simp [WebhookRuntimeState.succeed]⟩
    exact { succeeded with }
  · exact { ordered with }

/-! ## Buffered events -/

theorem InOrder.withEvents (ordered : InOrder config state) (webhookId : Uuid)
    {rows : List MemoryWebhookEventRecord} (few : rows.length ≤ max config.maxEventsPerWebhook 1)
    (filed : ∀ event ∈ rows, event.webhookId = webhookId) :
    InOrder config (state.withEvents webhookId rows) :=
  { ordered with
    events := updated state.events (fun key rows => rows.length ≤ max config.maxEventsPerWebhook 1 ∧
      ∀ event ∈ rows, event.webhookId = key) ⟨few, filed⟩ ordered.events }

theorem InOrder.revise (ordered : InOrder config state) (distinct : EventsDistinct state)
    (webhookId eventId : Uuid) {revise : MemoryWebhookEventRecord → MemoryWebhookEventRecord}
    (keeps : ∀ event, (revise event).id = event.id)
    (files : ∀ event, (revise event).webhookId = event.webhookId) :
    InOrder config (state.withEvents webhookId
      (reviseEvent eventId revise (state.events webhookId))) := by
  obtain ⟨few, filed⟩ := ordered.events webhookId
  have ids : (reviseEvent eventId revise (state.events webhookId)).map (·.id) =
      (state.events webhookId).map (·.id) := map_id_reviseEvent keeps _
  apply ordered.withEvents webhookId
  · rwa [← List.length_map (·.id), ids, List.length_map]
  · intro event member
    obtain ⟨old, there, rfl⟩ := mem_reviseEvent (distinct webhookId) member
    split
    · exact (files old).trans (filed old there)
    · exact filed old there

theorem InOrder.push (ordered : InOrder config state) (proposal userId : Uuid)
    (eventType : MemoryWebhookEventType) (requestId : Option String) (payload : Json)
    (createdAt : DateTime) (webhookId : Uuid) :
    InOrder config
      (state.push config proposal userId eventType requestId payload createdAt webhookId) := by
  have pushed (event : MemoryWebhookEventRecord) (mine : event.webhookId = webhookId) :
      InOrder config (state.withEvents webhookId
        (pushEvent config.maxEventsPerWebhook (state.events webhookId) event)) := by
    refine ordered.withEvents webhookId ?_ fun found member => ?_
    · simp only [pushEvent, List.length_drop]
      omega
    · rcases List.mem_append.mp (List.mem_of_mem_drop member) with old | new
      · exact (ordered.events webhookId).2 found old
      · rwa [List.mem_singleton.mp new]
  exact { pushed _ rfl with }

theorem InOrder.pushAll (ordered : InOrder config state) (proposal userId : Uuid)
    (eventType : MemoryWebhookEventType) (requestId : Option String) (payload : Json)
    (createdAt : DateTime) (webhookIds : List Uuid) :
    InOrder config (state.pushAll config proposal userId eventType requestId payload createdAt
      webhookIds).2 := by
  induction webhookIds generalizing state with
  | nil => exact ordered
  | cons webhookId webhookIds ih =>
    exact ih (ordered.push proposal userId eventType requestId payload createdAt webhookId)

/-! ## Books -/

theorem appended_capped {books : Uuid → List α} {about : α → Uuid}
    (capped : ∀ key, (books key).length ≤ 1000 ∧ ∀ row ∈ books key, about row = key) (row : α)
    (key : Uuid) :
    let rows := books (about row) ++ [row]
    (Function.update books (about row) (rows.drop (rows.length - 1000)) key).length ≤ 1000 ∧
      ∀ found ∈ Function.update books (about row) (rows.drop (rows.length - 1000)) key,
        about found = key := by
  refine updated books (fun key rows => rows.length ≤ 1000 ∧ ∀ row ∈ rows, about row = key)
    ⟨by rw [List.length_drop]; omega, fun found member => ?_⟩ capped key
  rcases List.mem_append.mp (List.mem_of_mem_drop member) with old | new
  · exact (capped (about row)).2 found old
  · rw [List.mem_singleton.mp new]

theorem InOrder.withWebhook (ordered : InOrder config state) (webhookId : Uuid)
    {webhook : Option MemoryWebhookSubscription}
    (named : ∀ new, webhook = some new → new.id = webhookId) :
    InOrder config
      { state with webhooks := Function.update state.webhooks webhookId webhook } :=
  { ordered with
    webhooks := updated state.webhooks (fun id webhook => ∀ found, webhook = some found →
      found.id = id) named ordered.webhooks }

theorem InOrder.perform (ordered : InOrder config state) (distinct : EventsDistinct state)
    (command : WebhookCommand) (input : WebhookInput) :
    InOrder config (perform config input state command).2 := by
  cases command with
  | freshId | userPolicy userId userIdentifier | send webhook event => exact { ordered with }
  | putWebhook webhook =>
    exact ordered.withWebhook webhook.id fun new same => congrArg (·.id) (Option.some.inj same).symm
  | removeWebhook webhookId =>
    exact ordered.withWebhook webhookId (by simp)
  | pushEvents webhookIds userId eventType requestId payload createdAt =>
    exact ordered.pushAll input.id userId eventType requestId payload createdAt webhookIds
  | removeEvents webhookId =>
    exact ordered.withEvents webhookId (Nat.zero_le _) (by simp)
  | resetEvent webhookId eventId force =>
    exact ordered.revise distinct webhookId eventId (id_forRetry force) fun event => by
      unfold MemoryWebhookEventRecord.forRetry
      split <;> rfl
  | updateStatus webhookId eventId attempts delivered deadLetter error =>
    refine ordered.revise distinct webhookId eventId
      (fun event => id_withStatus event attempts delivered deadLetter error input.now) fun event => ?_
    unfold MemoryWebhookEventRecord.withStatus
    split <;> rfl
  | checkRateAndCircuit webhookId =>
    refine ordered.withRuntime webhookId fun new same => ?_
    rw [← Option.some.inj same]
    exact (ordered.runtimeOf webhookId input.now).admission input.now
  | recordSuccess webhookId => exact ordered.recordSuccess input webhookId
  | recordFailure webhookId sent => exact ordered.recordFailure input.now webhookId sent
  | removeRuntime webhookId => exact ordered.withRuntime webhookId (by simp)
  | appendAudit webhookId action requestId details =>
    exact { ordered with audit := appended_capped ordered.audit _ }
  | removeAudit webhookId =>
    exact { ordered with
      audit := updated state.audit
        (fun key rows => rows.length ≤ 1000 ∧ ∀ row ∈ rows, row.webhookId = key) (by simp)
        ordered.audit }
  | appendGovernance userId action requestId details =>
    exact { ordered with governance := appended_capped ordered.governance _ }
  | _ => exact ordered

end Bounds

/-! ## Runs -/

section Runs

variable (setting : WebhookSetting)

/-- However requests and deliveries interleave, everything stays in order: buffers, audits, windows
and counts of failures keep their limits, nothing is filed in a wrong place, and the identifiers in
a buffer stay distinct. -/
theorem stays_in_order (crew : WebhookCrew Unit) (ordered : InOrder setting.delivery crew.shared)
    (issued : EventsIssued crew.shared) (distinct : EventsDistinct crew.shared)
    (events : List WebhookEvent) :
    let after := (finish (deliveryStep setting) crew events).shared
    InOrder setting.delivery after ∧ EventsIssued after ∧ EventsDistinct after := by
  refine @finish_induction _ _ _ (fun crew => InOrder setting.delivery crew.shared ∧
    EventsIssued crew.shared ∧ EventsDistinct crew.shared) ?_ crew ⟨ordered, issued, distinct⟩ events
  rintro crew event ⟨ordered, issued, distinct⟩
  rcases Crew.shared_step (exec setting.delivery) (webhookOrders setting unwatched (fun _ => ()) id)
    crew event with same | ⟨position, input, task, command, rfl, found, upcoming, after⟩
  · rw [deliveryStep, same]
    exact ⟨ordered, issued, distinct⟩
  · rw [deliveryStep, after]
    exact ⟨ordered.perform distinct command input, issued.perform _ _ command,
      distinct.perform _ _ issued command⟩

/-- One subscription is told of an event, and the attempts at it fail. -/
theorem stays_in_order_oneHook :
    let after := (finish (deliveryStep briskSetting) (Crew.idle oneHook) refusedRun).shared
    InOrder briskSetting.delivery after ∧ EventsIssued after ∧ EventsDistinct after := by
  have ordered : InOrder briskSetting.delivery oneHook :=
    { webhooks := fun webhookId webhook same => by
        obtain ⟨here, hook⟩ := Option.ite_none_right_eq_some.mp same
        exact Option.some.inj hook ▸ here.symm
      events := by simp [oneHook, quietState]
      audit := by simp [oneHook, quietState]
      governance := by simp [oneHook, quietState]
      runtime := by simp [oneHook, quietState] }
  exact stays_in_order briskSetting (Crew.idle oneHook) ordered
    (by simp [EventsIssued, Crew.idle, oneHook, quietState])
    (by simp [EventsDistinct, Crew.idle, oneHook, quietState]) refusedRun

end Runs
end Webhook
end Mnemo
