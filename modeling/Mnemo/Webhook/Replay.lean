import Mnemo.Lib.Replay
import Mnemo.Webhook.Effects

/-!
# Replaying the events of a webhook

A client reads the buffered events of a webhook page by page and follows the cursors, while events
come and go and their status changes.
-/

namespace Mnemo
namespace Webhook

open Replay (Ascending Complete Resumes Sound)

/-- What happens during a replay: any command, or the moment at which the request for the next page
reads the events. -/
inductive ReplayEvent where
  | act (command : WebhookCommand) (input : WebhookInput)
  | request (limit : Option Nat)

section Runs

variable (config : WebhookDeliveryConfig) (webhookId : Uuid)
  (includeDelivered includeDeadLetter : Option Bool)

/-- The request after an event, with the same choice of events throughout. -/
def nextQuery (after : Option Uuid) (limit : Option Nat) : ReplayWebhookEventsQuery :=
  ⟨after, limit, includeDelivered, includeDeadLetter⟩

/-- The pages which a client sees that follows the cursors until a page is empty. -/
def followReplay : WebhookState → Option Uuid → List ReplayEvent →
    List (List MemoryWebhookEventRecord)
  | _, _, [] => []
  | state, after, .act command input :: history =>
      followReplay (perform config input state command).2 after history
  | state, after, .request limit :: history =>
      let (page, next) := replayPage (nextQuery includeDelivered includeDeadLetter after limit)
        (state.events webhookId)
      if page.isEmpty then [[]] else page :: followReplay state next history

/-- The size of the pages that are asked for. -/
def pageSize (limit : Option Nat) : Nat := min (max (limit.getD 100) 1) 1000

/-- What is buffered at the requests, and the sizes of the pages. -/
def requestsOf : WebhookState → List ReplayEvent → List (List MemoryWebhookEventRecord × Nat)
  | _, [] => []
  | state, .act command input :: history =>
      requestsOf (perform config input state command).2 history
  | state, .request limit :: history =>
      (state.events webhookId, pageSize limit) :: requestsOf state history

/-- The events that are asked for. -/
def wanted : MemoryWebhookEventRecord → Bool :=
  (nextQuery includeDelivered includeDeadLetter none none).wants

end Runs

/-! ## Pages -/

section Pages

variable {config : WebhookDeliveryConfig} {webhookId : Uuid}
  {includeDelivered includeDeadLetter : Option Bool}

theorem eventsAfter_eq (last : Option MemoryWebhookEventRecord)
    (events : List MemoryWebhookEventRecord) :
    eventsAfter events (last.map (·.id)) = Replay.after (·.id) last events := by
  cases last with
  | none => rfl
  | some shown => rfl

theorem replayPage_eq (last : Option MemoryWebhookEventRecord) (limit : Option Nat)
    (rows : List MemoryWebhookEventRecord) :
    (replayPage (nextQuery includeDelivered includeDeadLetter (last.map (·.id)) limit) rows).1 =
      Replay.page (·.id) MemoryWebhookEventRecord.key (wanted includeDelivered includeDeadLetter)
        last rows (pageSize limit) := by
  rw [replayPage, Replay.page, ← eventsAfter_eq]
  rfl

theorem followReplay_eq (history : List ReplayEvent) (state : WebhookState)
    (last : Option MemoryWebhookEventRecord) :
    followReplay config webhookId includeDelivered includeDeadLetter state (last.map (·.id))
        history =
      Replay.pages (·.id) MemoryWebhookEventRecord.key (wanted includeDelivered includeDeadLetter)
        last (requestsOf config webhookId state history) := by
  induction history generalizing state last with
  | nil => rfl
  | cons event history ih =>
    cases event with
    | act command input => exact ih _ last
    | request limit =>
      rw [followReplay, requestsOf, Replay.pages, ← replayPage_eq, ← ih]
      rfl

end Pages

/-! ## Buffers -/

section Buffers

variable (config : WebhookDeliveryConfig) (webhookId : Uuid) {state : WebhookState}
  {event shown : MemoryWebhookEventRecord}

theorem createdAt_forRetry (force : Bool) (event : MemoryWebhookEventRecord) :
    (event.forRetry force).createdAt = event.createdAt := by
  rw [MemoryWebhookEventRecord.forRetry]
  split <;> rfl

theorem createdAt_withStatus (event : MemoryWebhookEventRecord) (attempts : Nat)
    (delivered deadLetter : Bool) (error : Option String) (now : DateTime) :
    (event.withStatus attempts delivered deadLetter error now).createdAt = event.createdAt := by
  rw [MemoryWebhookEventRecord.withStatus]
  split <;> rfl

/-- An event that was buffered once: its identifier is drawn, and an event with this identifier was
created at the same time. -/
structure Known (state : WebhookState) (shown : MemoryWebhookEventRecord) : Prop where
  issued : shown.id ∈ state.issued
  createdAt : ∀ event ∈ state.events webhookId, event.id = shown.id →
    event.createdAt = shown.createdAt

/-- The identifiers of buffered events are distinct and drawn. -/
structure Kept (state : WebhookState) : Prop where
  distinct : EventsDistinct state
  issued : EventsIssued state

variable {webhookId}

theorem Kept.perform (kept : Kept state) (command : WebhookCommand) (input : WebhookInput) :
    Kept (perform config input state command).2 :=
  ⟨kept.distinct.perform config input kept.issued command, kept.issued.perform config input command⟩

theorem Kept.known (kept : Kept state) (buffered : shown ∈ state.events webhookId) :
    Known webhookId state shown := by
  refine ⟨kept.issued webhookId shown buffered, fun event member same => ?_⟩
  rw [List.inj_on_of_nodup_map (kept.distinct webhookId) member buffered same]

theorem Known.perform (known : Known webhookId state shown) (kept : Kept state)
    (command : WebhookCommand) (input : WebhookInput) :
    Known webhookId (perform config input state command).2 shown := by
  refine ⟨issued_perform config input state command known.issued, fun event member same => ?_⟩
  rcases mem_events_cases config input state kept.distinct command webhookId member with
    ⟨old, -, -⟩ | ⟨fresh, -⟩ | ⟨force, -, old, among, named, rfl⟩ |
      ⟨attempts, delivered, deadLetter, error, -, old, among, named, rfl⟩
  · exact known.createdAt event old same
  · exact absurd (same ▸ known.issued) fresh
  · rw [createdAt_forRetry]
    exact known.createdAt old among (named.trans same)
  · rw [createdAt_withStatus]
    exact known.createdAt old among (named.trans same)

theorem key_eq_iff (same : event.id = shown.id → event.createdAt = shown.createdAt) :
    event.id = shown.id ↔ event.key = shown.key := by
  constructor
  · intro named
    rw [MemoryWebhookEventRecord.key, MemoryWebhookEventRecord.key, named, same named]
  · intro equal
    exact (Prod.mk.inj (toLex.injective equal)).2

theorem Known.createdAt_of_request (history : List ReplayEvent) (kept : Kept state)
    (known : Known webhookId state shown) :
    ∀ request ∈ requestsOf config webhookId state history, ∀ event ∈ request.1,
      event.id = shown.id → event.createdAt = shown.createdAt := by
  induction history generalizing state with
  | nil => exact fun request member => nomatch member
  | cons happening history ih =>
    cases happening with
    | act command input =>
      exact ih (kept.perform config command input) (known.perform config kept command input)
    | request limit =>
      intro request member
      rcases List.mem_cons.mp member with rfl | later
      · exact known.createdAt
      · exact ih kept known request later

theorem sound_requestsOf (history : List ReplayEvent) (kept : Kept state) :
    Sound (·.id) MemoryWebhookEventRecord.key none (requestsOf config webhookId state history) := by
  induction history generalizing state with
  | nil =>
    exact ⟨(fun _ member => nomatch member), (fun _ member => nomatch member),
      (fun _ member => nomatch member), (fun _ member => nomatch member)⟩
  | cons happening history ih =>
    cases happening with
    | act command input => exact ih (kept.perform config command input)
    | request limit =>
      have rest := ih kept
      have mixed : ∀ request ∈ requestsOf config webhookId state history,
          ∀ shown ∈ state.events webhookId, ∀ event ∈ request.1,
            event.id = shown.id ↔ event.key = shown.key := by
        intro request member shown buffered event inside
        exact key_eq_iff ((kept.known buffered).createdAt_of_request config history kept request
          member event inside)
      refine ⟨?_, ?_, (fun _ _ _ isLast => nomatch isLast), ?_⟩
      · intro request member
        rcases List.mem_cons.mp member with rfl | later
        · exact Nat.lt_min.mpr ⟨Nat.lt_of_lt_of_le Nat.one_pos (Nat.le_max_right _ _), by decide⟩
        · exact rest.positive request later
      · intro request member
        rcases List.mem_cons.mp member with rfl | later
        · have names := kept.distinct webhookId
          rw [List.Nodup, List.pairwise_map] at names ⊢
          exact names.imp fun different same =>
            different (Prod.mk.inj (toLex.injective same)).2
        · exact rest.distinct request later
      · intro request member other among shown buffered event inside
        rcases List.mem_cons.mp member with rfl | later
        · rcases List.mem_cons.mp among with rfl | behind
          · exact key_eq_iff ((kept.known buffered).createdAt event inside)
          · exact eq_comm.trans ((mixed other behind event inside shown buffered).trans eq_comm)
        · rcases List.mem_cons.mp among with rfl | behind
          · exact mixed request later shown buffered event inside
          · exact rest.across request later other behind shown buffered event inside

end Buffers

/-- The state without buffered events. -/
def WebhookState.withoutEvents (state : WebhookState) : WebhookState :=
  { state with events := fun _ => [] }

/-- From the first page to an empty one a client sees what was buffered at every request, once and
in the order of creation, exactly if at every request the event of the cursor is still buffered or
all events that are asked for come after it. -/
theorem replay_complete_iff (config : WebhookDeliveryConfig) (webhookId : Uuid)
    (includeDelivered includeDeadLetter : Option Bool) (state : WebhookState)
    (history : List ReplayEvent) :
    let requests := requestsOf config webhookId state.withoutEvents history
    let shown := followReplay config webhookId includeDelivered includeDeadLetter
      state.withoutEvents none history
    Ascending MemoryWebhookEventRecord.key shown ∧
        Complete MemoryWebhookEventRecord.key (wanted includeDelivered includeDeadLetter) requests
          shown ↔
      Resumes (·.id) MemoryWebhookEventRecord.key (wanted includeDelivered includeDeadLetter) none
        requests := by
  have kept : Kept state.withoutEvents := ⟨fun _ => List.nodup_nil, fun _ _ member => nomatch member⟩
  dsimp only
  have shown := @followReplay_eq config webhookId includeDelivered includeDeadLetter history
    state.withoutEvents none
  rw [Option.map_none] at shown
  rw [shown]
  exact Replay.ascending_and_complete_iff (sound_requestsOf config history kept)

/-- Two events for each webhook are buffered. -/
def pairBuffer : WebhookDeliveryConfig where
  enabled := true
  maxAttempts := 1
  maxEventsPerWebhook := 2
  rateLimitPerMinute := 60
  circuitBreakerThreshold := 5
  circuitBreakerCooldownMs := 1000
  persistenceEnabled := false
  allowLocalhost := false

/-- An event is buffered under an identifier; the clock was read before. -/
def emitted (id : Uuid) (createdAt : DateTime) : ReplayEvent :=
  .act (.pushEvents [1] 7 .headAdvanced none .null createdAt) { failingAt createdAt with id := id }

/-- Two emitters read the clock in one order and buffer their events in the other; while a client
replays the events, a third one evicts what was buffered first. -/
def overtaking : List ReplayEvent :=
  [emitted 10 2, emitted 11 1, .request (some 2), emitted 12 3, .request (some 2),
    .request (some 2)]

/-- The event of the cursor is evicted before an event that was created earlier, so the replay starts
again and shows that event twice. -/
theorem replay_starts_again :
    (followReplay pairBuffer 1 none none (quietState fun _ => none).withoutEvents none
        overtaking).map (·.map (·.id)) = [[11, 10], [11, 12], []] ∧
      ¬ Ascending MemoryWebhookEventRecord.key (followReplay pairBuffer 1 none none
        (quietState fun _ => none).withoutEvents none overtaking) := by
  refine ⟨by decide +kernel, fun ascending => ?_⟩
  have keys : (followReplay pairBuffer 1 none none (quietState fun _ => none).withoutEvents none
      overtaking).flatten.map (·.key) =
        [toLex (1, 11), toLex (2, 10), toLex (1, 11), toLex (3, 12)] := by
    decide +kernel
  rw [Ascending, ← List.pairwise_map, keys] at ascending
  exact absurd ascending (by decide)

end Webhook
end Mnemo
