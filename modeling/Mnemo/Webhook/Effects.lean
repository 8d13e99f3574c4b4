import Mathlib.Data.List.Nodup
import Mnemo.Webhook.Phases

/-!
# What the commands change

Most commands change one part of what is kept about webhooks, and the phase of a task moves with few
of them.
-/

namespace Mnemo
namespace Webhook

/-! ## Buffered events -/

section Rows

variable {eventId : Uuid} {revise : MemoryWebhookEventRecord → MemoryWebhookEventRecord}
  {rows : List MemoryWebhookEventRecord} {event : MemoryWebhookEventRecord}

theorem findEvent_eq_some (found : findEvent eventId rows = some event) :
    event ∈ rows ∧ event.id = eventId := by
  have member : event ∈ rows := List.mem_of_find?_eq_some found
  have named := List.find?_some found
  exact ⟨member, by simpa using named⟩

theorem findEvent_ne_none (member : event ∈ rows) : findEvent event.id rows ≠ none := by
  intro missing
  have other := List.find?_eq_none.mp missing event member
  simp at other

theorem findEvent_of_mem (distinct : (rows.map (·.id)).Nodup) (member : event ∈ rows) :
    findEvent event.id rows = some event := by
  obtain ⟨found, there⟩ := Option.ne_none_iff_exists'.mp (findEvent_ne_none member)
  obtain ⟨among, named⟩ := findEvent_eq_some there
  rw [there, List.inj_on_of_nodup_map distinct among member named]

theorem map_id_reviseEvent (keeps : ∀ event, (revise event).id = event.id)
    (rows : List MemoryWebhookEventRecord) :
    (reviseEvent eventId revise rows).map (·.id) = rows.map (·.id) := by
  induction rows with
  | nil => rfl
  | cons event rows ih =>
    unfold reviseEvent
    split
    · simp [keeps]
    · simp [ih]

theorem reviseEvent_eq_map (distinct : (rows.map (·.id)).Nodup) :
    reviseEvent eventId revise rows =
      rows.map fun event => if event.id = eventId then revise event else event := by
  induction rows with
  | nil => rfl
  | cons event rows ih =>
    obtain ⟨fresh, rest⟩ := List.nodup_cons.mp distinct
    unfold reviseEvent
    split
    · rename_i same
      have others : rows.map (fun event => if event.id = eventId then revise event else event) =
          rows := by
        apply (List.map_congr_left _).trans (List.map_id rows)
        intro other member
        apply if_neg
        intro equal
        exact fresh (List.mem_map.mpr ⟨other, member, equal.trans same.symm⟩)
      simp [same, others]
    · rename_i different
      simp [different, ih rest]

theorem mem_reviseEvent (distinct : (rows.map (·.id)).Nodup)
    (member : event ∈ reviseEvent eventId revise rows) : ∃ old ∈ rows,
      event = if old.id = eventId then revise old else old := by
  rw [reviseEvent_eq_map distinct] at member
  obtain ⟨old, among, same⟩ := List.mem_map.mp member
  exact ⟨old, among, same.symm⟩

@[simp]
theorem id_forRetry (force : Bool) (event : MemoryWebhookEventRecord) :
    (event.forRetry force).id = event.id := by
  unfold MemoryWebhookEventRecord.forRetry
  split <;> rfl

@[simp]
theorem id_withStatus (event : MemoryWebhookEventRecord) (attempts : Nat)
    (delivered deadLetter : Bool) (error : Option String) (now : DateTime) :
    (event.withStatus attempts delivered deadLetter error now).id = event.id := by
  unfold MemoryWebhookEventRecord.withStatus
  split <;> rfl

end Rows

/-! ## New events -/

section Push

variable (config : WebhookDeliveryConfig) (proposal userId : Uuid)
  (eventType : MemoryWebhookEventType) (requestId : Option String) (payload : Json)
  (createdAt : DateTime)

/-- The events that were buffered are old ones, or new ones with fresh identifiers. -/
structure Pushed (before after : WebhookState) (queued : List (Uuid × Uuid)) : Prop where
  webhooks : after.webhooks = before.webhooks
  posts : after.posts = before.posts
  issued : before.issued ⊆ after.issued
  events : ∀ webhookId, ∀ event ∈ after.events webhookId, event ∈ before.events webhookId ∨
    event.id ∉ before.issued ∧ event.id ∈ after.issued ∧ event.delivered = false ∧
      event.deadLetter = false
  queued : ∀ pair ∈ queued, pair.2 ∉ before.issued ∧ pair.2 ∈ after.issued
  distinct : (∀ webhookId, ((before.events webhookId).map (·.id)).Nodup ∧
      ∀ event ∈ before.events webhookId, event.id ∈ before.issued) →
    ∀ webhookId, ((after.events webhookId).map (·.id)).Nodup

/-- One event is buffered. -/
theorem pushed_push (state : WebhookState) (webhookId : Uuid) :
    Pushed state
      (state.push config proposal userId eventType requestId payload createdAt webhookId)
      [(webhookId, Database.unused state.issued proposal)] := by
  have fresh := Database.unused_notMem state.issued proposal
  have named (other : Uuid) :
      (state.push config proposal userId eventType requestId payload createdAt
        webhookId).events other = Function.update state.events webhookId
          (pushEvent config.maxEventsPerWebhook (state.events webhookId)
            { id := Database.unused state.issued proposal, webhookId, eventType, userId, payload,
              createdAt, attempts := 0, delivered := false, deadLetter := false, requestId,
              deliveredAt := none, lastError := none }) other := rfl
  refine ⟨rfl, rfl, List.subset_cons_self _ _, fun other event member => ?_, fun pair member => ?_,
    fun before other => ?_⟩
  · rw [named] at member
    rcases eq_or_ne other webhookId with rfl | different
    · rw [Function.update_self] at member
      rcases List.mem_append.mp (List.mem_of_mem_drop member) with old | new
      · exact .inl old
      · rw [List.mem_singleton.mp new]
        exact .inr ⟨fresh, List.mem_cons_self, rfl, rfl⟩
    · rw [Function.update_of_ne different] at member
      exact .inl member
  · rw [List.mem_singleton.mp member]
    exact ⟨fresh, List.mem_cons_self⟩
  · rw [named]
    rcases eq_or_ne other webhookId with rfl | different
    · obtain ⟨distinct, issued⟩ := before other
      rw [Function.update_self, pushEvent, List.map_drop]
      apply List.Nodup.sublist (List.drop_sublist _ _)
      rw [List.map_append, List.map_singleton]
      apply List.Nodup.append distinct (List.nodup_singleton _)
      intro id old new
      obtain ⟨event, member, rfl⟩ := List.mem_map.mp old
      have there := issued event member
      rw [List.mem_singleton.mp new] at there
      exact fresh there
    · rw [Function.update_of_ne different]
      exact (before other).1

theorem Pushed.then {before middle after : WebhookState} {first rest : List (Uuid × Uuid)}
    (one : Pushed before middle first) (more : Pushed middle after rest) :
    Pushed before after (first ++ rest) := by
  refine ⟨more.webhooks.trans one.webhooks, more.posts.trans one.posts,
    List.Subset.trans one.issued more.issued, fun webhookId event member => ?_, fun pair member => ?_,
    fun distinct => more.distinct fun webhookId => ⟨one.distinct distinct webhookId, ?_⟩⟩
  · rcases more.events webhookId event member with old | ⟨fresh, facts⟩
    · rcases one.events webhookId event old with older | ⟨fresh, issued, facts⟩
      · exact .inl older
      · exact .inr ⟨fresh, more.issued issued, facts⟩
    · exact .inr ⟨fun there => fresh (one.issued there), facts⟩
  · rcases List.mem_append.mp member with early | late
    · exact ⟨(one.queued pair early).1, more.issued (one.queued pair early).2⟩
    · exact ⟨fun there => (more.queued pair late).1 (one.issued there), (more.queued pair late).2⟩
  · intro event member
    rcases one.events webhookId event member with old | ⟨_, issued, _⟩
    · exact one.issued ((distinct webhookId).2 event old)
    · exact issued

theorem pushed_pushAll (state : WebhookState) (webhookIds : List Uuid) :
    Pushed state
      (state.pushAll config proposal userId eventType requestId payload createdAt webhookIds).2
      (state.pushAll config proposal userId eventType requestId payload createdAt webhookIds).1 := by
  induction webhookIds generalizing state with
  | nil =>
    exact ⟨rfl, rfl, fun _ member => member, fun _ _ member => .inl member, nofun,
      fun distinct webhookId => (distinct webhookId).1⟩
  | cons webhookId webhookIds ih =>
    have first := pushed_push config proposal userId eventType requestId payload createdAt state
      webhookId
    exact first.then (ih _)

end Push

/-! ## Commands -/

section Commands

variable (config : WebhookDeliveryConfig) (input : WebhookInput) (state : WebhookState)

theorem kept_recordFailure {Part : Type} (part : WebhookState → Part)
    (runtime : ∀ state webhookId row, part (WebhookState.withRuntime state webhookId row) = part state)
    (notes : ∀ state webhookId noted, part (WebhookState.note state webhookId noted) = part state)
    (now : DateTime) (webhookId : Uuid) (sent : Bool) :
    part (state.recordFailure config now webhookId sent) = part state := by
  unfold WebhookState.recordFailure
  dsimp only
  split
  · rw [notes, notes, runtime]
  · rw [notes, runtime]

theorem kept_recordSuccess {Part : Type} (part : WebhookState → Part)
    (runtime : ∀ state webhookId row, part (WebhookState.withRuntime state webhookId row) = part state)
    (notes : ∀ state webhookId noted, part (WebhookState.note state webhookId noted) = part state)
    (webhookId : Uuid) :
    part (perform config input state (.recordSuccess webhookId)).2 = part state := by
  unfold perform
  dsimp only
  rw [notes]
  split
  · exact runtime state webhookId _
  · rfl

theorem webhooks_perform {command : WebhookCommand}
    (putting : ∀ webhook, command ≠ .putWebhook webhook)
    (removing : ∀ webhookId, command ≠ .removeWebhook webhookId) :
    (perform config input state command).2.webhooks = state.webhooks := by
  cases command with
  | putWebhook webhook => exact absurd rfl (putting webhook)
  | removeWebhook webhookId => exact absurd rfl (removing webhookId)
  | pushEvents webhookIds userId eventType requestId payload createdAt =>
    exact (pushed_pushAll config input.id userId eventType requestId payload createdAt state
      webhookIds).webhooks
  | recordSuccess webhookId =>
    exact kept_recordSuccess config input state (·.webhooks) (fun _ _ _ => rfl)
      (fun _ _ _ => rfl) webhookId
  | recordFailure webhookId sent =>
    exact kept_recordFailure config state (·.webhooks) (fun _ _ _ => rfl) (fun _ _ _ => rfl)
      input.now webhookId sent
  | _ => rfl

theorem posts_perform {command : WebhookCommand}
    (sending : ∀ webhook event, command ≠ .send webhook event) :
    (perform config input state command).2.posts = state.posts := by
  cases command with
  | send webhook event => exact absurd rfl (sending webhook event)
  | pushEvents webhookIds userId eventType requestId payload createdAt =>
    exact (pushed_pushAll config input.id userId eventType requestId payload createdAt state
      webhookIds).posts
  | recordSuccess webhookId =>
    exact kept_recordSuccess config input state (·.posts) (fun _ _ _ => rfl)
      (fun _ _ _ => rfl) webhookId
  | recordFailure webhookId sent =>
    exact kept_recordFailure config state (·.posts) (fun _ _ _ => rfl) (fun _ _ _ => rfl)
      input.now webhookId sent
  | _ => rfl

theorem webhooks_perform_eq_some {command : WebhookCommand} {webhookId : Uuid}
    {webhook : MemoryWebhookSubscription}
    (stored : (perform config input state command).2.webhooks webhookId = some webhook) :
    state.webhooks webhookId = some webhook ∨
      command = .putWebhook webhook ∧ webhook.id = webhookId := by
  by_cases putting : ∃ new, command = .putWebhook new
  · obtain ⟨new, rfl⟩ := putting
    change Function.update state.webhooks new.id (some new) webhookId = some webhook at stored
    rcases eq_or_ne webhookId new.id with rfl | different
    · rw [Function.update_self] at stored
      obtain rfl := Option.some.inj stored
      exact .inr ⟨rfl, rfl⟩
    · rw [Function.update_of_ne different] at stored
      exact .inl stored
  · by_cases removing : ∃ gone, command = .removeWebhook gone
    · obtain ⟨gone, rfl⟩ := removing
      change Function.update state.webhooks gone none webhookId = some webhook at stored
      rcases eq_or_ne webhookId gone with rfl | different
      · rw [Function.update_self] at stored
        exact nomatch stored
      · rw [Function.update_of_ne different] at stored
        exact .inl stored
    · rw [webhooks_perform config input state (fun new same => putting ⟨new, same⟩)
        (fun gone same => removing ⟨gone, same⟩)] at stored
      exact .inl stored

theorem webhooks_perform_eq_none {command : WebhookCommand} {webhookId : Uuid}
    (missing : (perform config input state command).2.webhooks webhookId = none) :
    state.webhooks webhookId = none ∨ command = .removeWebhook webhookId := by
  by_cases putting : ∃ new, command = .putWebhook new
  · obtain ⟨new, rfl⟩ := putting
    change Function.update state.webhooks new.id (some new) webhookId = none at missing
    rcases eq_or_ne webhookId new.id with rfl | different
    · rw [Function.update_self] at missing
      exact nomatch missing
    · rw [Function.update_of_ne different] at missing
      exact .inl missing
  · by_cases removing : ∃ gone, command = .removeWebhook gone
    · obtain ⟨gone, rfl⟩ := removing
      change Function.update state.webhooks gone none webhookId = none at missing
      rcases eq_or_ne webhookId gone with rfl | different
      · exact .inr rfl
      · rw [Function.update_of_ne different] at missing
        exact .inl missing
    · rw [webhooks_perform config input state (fun new same => putting ⟨new, same⟩)
        (fun gone same => removing ⟨gone, same⟩)] at missing
      exact .inl missing

theorem mem_posts_perform {command : WebhookCommand} {post : Uuid × Uuid × Bool}
    (member : post ∈ (perform config input state command).2.posts) :
    post ∈ state.posts ∨ ∃ webhook event, command = .send webhook event ∧
      post = (webhook.id, event.id, input.outcome == .success) := by
  by_cases sending : ∃ webhook event, command = .send webhook event
  · obtain ⟨webhook, event, rfl⟩ := sending
    rcases List.mem_cons.mp member with new | old
    · exact .inr ⟨webhook, event, rfl, new⟩
    · exact .inl old
  · rw [posts_perform config input state fun webhook event same =>
      sending ⟨webhook, event, same⟩] at member
    exact .inl member

theorem posts_subset_perform (command : WebhookCommand) :
    state.posts ⊆ (perform config input state command).2.posts := by
  by_cases sending : ∃ webhook event, command = .send webhook event
  · obtain ⟨webhook, event, rfl⟩ := sending
    exact List.subset_cons_self _ _
  · rw [posts_perform config input state fun webhook event same => sending ⟨webhook, event, same⟩]
    exact List.Subset.refl _

theorem issued_perform (command : WebhookCommand) :
    state.issued ⊆ (perform config input state command).2.issued := by
  cases command with
  | freshId => exact List.subset_cons_self _ _
  | pushEvents webhookIds userId eventType requestId payload createdAt =>
    exact (pushed_pushAll config input.id userId eventType requestId payload createdAt state
      webhookIds).issued
  | recordSuccess webhookId =>
    rw [kept_recordSuccess config input state (·.issued) (fun _ _ _ => rfl)
      (fun _ _ _ => rfl) webhookId]
    exact List.Subset.refl _
  | recordFailure webhookId sent =>
    have same := kept_recordFailure config state (·.issued) (fun _ _ _ => rfl) (fun _ _ _ => rfl)
      input.now webhookId sent
    exact same ▸ List.Subset.refl _
  | _ => exact List.Subset.refl _

/-- Commands that touch buffered events. -/
def TouchesEvents : WebhookCommand → Prop
  | .pushEvents _ _ _ _ _ _ | .removeEvents _ | .resetEvent _ _ _ | .updateStatus _ _ _ _ _ _ => True
  | _ => False

theorem events_perform {command : WebhookCommand} (untouched : ¬TouchesEvents command) :
    (perform config input state command).2.events = state.events := by
  cases command with
  | pushEvents _ _ _ _ _ _ => exact absurd trivial untouched
  | removeEvents _ => exact absurd trivial untouched
  | resetEvent _ _ _ => exact absurd trivial untouched
  | updateStatus _ _ _ _ _ _ => exact absurd trivial untouched
  | recordSuccess webhookId =>
    exact kept_recordSuccess config input state (·.events) (fun _ _ _ => rfl)
      (fun _ _ _ => rfl) webhookId
  | recordFailure webhookId sent =>
    exact kept_recordFailure config state (·.events) (fun _ _ _ => rfl) (fun _ _ _ => rfl)
      input.now webhookId sent
  | _ => rfl

/-- Buffered events were buffered before, up to their status, or are new. -/
theorem mem_events_perform (command : WebhookCommand) (webhookId : Uuid)
    {event : MemoryWebhookEventRecord}
    (member : event ∈ (perform config input state command).2.events webhookId) :
    event.id ∈ (state.events webhookId).map (·.id) ∨
      event.id ∉ state.issued ∧ event.id ∈ (perform config input state command).2.issued := by
  have named : event.id ∈ ((perform config input state command).2.events webhookId).map (·.id) :=
    List.mem_map.mpr ⟨event, member, rfl⟩
  by_cases touched : TouchesEvents command
  · cases command with
    | pushEvents webhookIds userId eventType requestId payload createdAt =>
      rcases (pushed_pushAll config input.id userId eventType requestId payload createdAt state
        webhookIds).events webhookId event member with old | ⟨fresh, issued, _⟩
      · exact .inl (List.mem_map.mpr ⟨event, old, rfl⟩)
      · exact .inr ⟨fresh, issued⟩
    | removeEvents other =>
      left
      change event.id ∈ ((Function.update state.events other []) webhookId).map (·.id) at named
      rcases eq_or_ne webhookId other with rfl | different
      · rw [Function.update_self] at named
        exact nomatch named
      · rwa [Function.update_of_ne different] at named
    | resetEvent other eventId force =>
      left
      change event.id ∈ ((Function.update state.events other
        (reviseEvent eventId (·.forRetry force) (state.events other))) webhookId).map (·.id)
        at named
      rcases eq_or_ne webhookId other with rfl | different
      · rwa [Function.update_self, map_id_reviseEvent (id_forRetry force)] at named
      · rwa [Function.update_of_ne different] at named
    | updateStatus other eventId attempts delivered deadLetter error =>
      left
      change event.id ∈ ((Function.update state.events other (reviseEvent eventId
        (·.withStatus attempts delivered deadLetter error input.now) (state.events other)))
          webhookId).map (·.id) at named
      rcases eq_or_ne webhookId other with rfl | different
      · rwa [Function.update_self, map_id_reviseEvent fun event =>
          id_withStatus event attempts delivered deadLetter error input.now] at named
      · rwa [Function.update_of_ne different] at named
    | _ => exact touched.elim
  · left
    rwa [events_perform config input state touched] at named

/-- What a buffered event was before a command: it was not touched, it is new, it was reset, or its
status was updated. -/
theorem mem_events_cases (distinct : ∀ webhookId, ((state.events webhookId).map (·.id)).Nodup)
    (command : WebhookCommand) (webhookId : Uuid) {event : MemoryWebhookEventRecord}
    (member : event ∈ (perform config input state command).2.events webhookId) :
    (event ∈ state.events webhookId ∧
        (∀ force, command ≠ .resetEvent webhookId event.id force) ∧
        ∀ attempts delivered deadLetter error,
          command ≠ .updateStatus webhookId event.id attempts delivered deadLetter error) ∨
      (event.id ∉ state.issued ∧ event.delivered = false) ∨
      (∃ force, command = .resetEvent webhookId event.id force ∧
        ∃ old ∈ state.events webhookId, old.id = event.id ∧ event = old.forRetry force) ∨
      ∃ attempts delivered deadLetter error,
        command = .updateStatus webhookId event.id attempts delivered deadLetter error ∧
          ∃ old ∈ state.events webhookId, old.id = event.id ∧
            event = old.withStatus attempts delivered deadLetter error input.now := by
  by_cases touched : TouchesEvents command
  · cases command with
    | pushEvents webhookIds userId eventType requestId payload createdAt =>
      rcases (pushed_pushAll config input.id userId eventType requestId payload createdAt state
        webhookIds).events webhookId event member with old | ⟨fresh, _, undelivered, _⟩
      · exact .inl ⟨old, nofun, nofun⟩
      · exact .inr (.inl ⟨fresh, undelivered⟩)
    | removeEvents other =>
      change event ∈ Function.update state.events other [] webhookId at member
      rcases eq_or_ne webhookId other with rfl | different
      · rw [Function.update_self] at member
        exact nomatch member
      · rw [Function.update_of_ne different] at member
        exact .inl ⟨member, nofun, nofun⟩
    | resetEvent other eventId force =>
      change event ∈ Function.update state.events other
        (reviseEvent eventId (·.forRetry force) (state.events other)) webhookId at member
      rcases eq_or_ne webhookId other with rfl | different
      · rw [Function.update_self] at member
        obtain ⟨old, among, same⟩ := mem_reviseEvent (distinct webhookId) member
        split at same
        · rename_i named
          have kept : event.id = old.id := by rw [same, id_forRetry]
          refine .inr (.inr (.inl ⟨force, ?_, old, among, kept.symm, same⟩))
          rw [kept, named]
        · rename_i elsewhere
          subst same
          refine .inl ⟨among, fun force same => ?_, nofun⟩
          exact elsewhere (WebhookCommand.resetEvent.inj same).2.1.symm
      · rw [Function.update_of_ne different] at member
        refine .inl ⟨member, fun force same => ?_, nofun⟩
        exact different (WebhookCommand.resetEvent.inj same).1.symm
    | updateStatus other eventId attempts delivered deadLetter error =>
      change event ∈ Function.update state.events other (reviseEvent eventId
        (·.withStatus attempts delivered deadLetter error input.now) (state.events other))
          webhookId at member
      rcases eq_or_ne webhookId other with rfl | different
      · rw [Function.update_self] at member
        obtain ⟨old, among, same⟩ := mem_reviseEvent (distinct webhookId) member
        split at same
        · rename_i named
          have kept : event.id = old.id := by rw [same, id_withStatus]
          refine .inr (.inr (.inr ⟨attempts, delivered, deadLetter, error, ?_, old, among,
            kept.symm, same⟩))
          rw [kept, named]
        · rename_i elsewhere
          subst same
          refine .inl ⟨among, nofun, fun attempts delivered deadLetter error same => ?_⟩
          exact elsewhere (WebhookCommand.updateStatus.inj same).2.1.symm
      · rw [Function.update_of_ne different] at member
        refine .inl ⟨member, nofun, fun attempts delivered deadLetter error same => ?_⟩
        exact different (WebhookCommand.updateStatus.inj same).1.symm
    | _ => exact touched.elim
  · rw [events_perform config input state touched] at member
    refine .inl ⟨member, fun force same => ?_, fun attempts delivered deadLetter error same => ?_⟩
    · exact touched (same ▸ trivial)
    · exact touched (same ▸ trivial)

/-- Buffered events have drawn identifiers. -/
def EventsIssued (state : WebhookState) : Prop :=
  ∀ webhookId, ∀ event ∈ state.events webhookId, event.id ∈ state.issued

variable {state}

theorem EventsIssued.perform (issued : EventsIssued state) (command : WebhookCommand) :
    EventsIssued (perform config input state command).2 := by
  intro webhookId event member
  rcases mem_events_perform config input state command webhookId member with old | ⟨_, new⟩
  · obtain ⟨before, among, same⟩ := List.mem_map.mp old
    exact issued_perform config input state command (same ▸ issued webhookId before among)
  · exact new

/-- No webhook has two buffered events with one identifier. -/
def EventsDistinct (state : WebhookState) : Prop :=
  ∀ webhookId, ((state.events webhookId).map (·.id)).Nodup

theorem EventsDistinct.perform (distinct : EventsDistinct state) (issued : EventsIssued state)
    (command : WebhookCommand) : EventsDistinct (perform config input state command).2 := by
  by_cases touched : TouchesEvents command
  · cases command with
    | pushEvents webhookIds userId eventType requestId payload createdAt =>
      exact (pushed_pushAll config input.id userId eventType requestId payload createdAt state
        webhookIds).distinct fun webhookId => ⟨distinct webhookId, issued webhookId⟩
    | removeEvents other =>
      intro webhookId
      change ((Function.update state.events other [] webhookId).map (·.id)).Nodup
      rcases eq_or_ne webhookId other with rfl | different
      · rw [Function.update_self]
        exact List.nodup_nil
      · rw [Function.update_of_ne different]
        exact distinct webhookId
    | resetEvent other eventId force =>
      intro webhookId
      change ((Function.update state.events other
        (reviseEvent eventId (·.forRetry force) (state.events other)) webhookId).map (·.id)).Nodup
      rcases eq_or_ne webhookId other with rfl | different
      · rw [Function.update_self, map_id_reviseEvent (id_forRetry force)]
        exact distinct webhookId
      · rw [Function.update_of_ne different]
        exact distinct webhookId
    | updateStatus other eventId attempts delivered deadLetter error =>
      intro webhookId
      change ((Function.update state.events other (reviseEvent eventId
        (·.withStatus attempts delivered deadLetter error input.now) (state.events other))
          webhookId).map (·.id)).Nodup
      rcases eq_or_ne webhookId other with rfl | different
      · rw [Function.update_self, map_id_reviseEvent fun event =>
          id_withStatus event attempts delivered deadLetter error input.now]
        exact distinct webhookId
      · rw [Function.update_of_ne different]
        exact distinct webhookId
    | _ => exact touched.elim
  · intro webhookId
    rw [events_perform config input state touched]
    exact distinct webhookId

end Commands

/-! ## Phases -/

namespace Phase

/-- The task may still have to deliver an event. -/
def Concerns (webhookId eventId : Uuid) : Phase → Prop
  | .queuing queued => (webhookId, eventId) ∈ queued
  | .retrying webhook event | .starting webhook event | .told webhook event
  | .delivering webhook event | .blocked webhook event | .succeeded webhook event =>
      webhook = webhookId ∧ event = eventId
  | _ => False

/-- The task has taken the delivery of an event upon itself. -/
def Owes (webhookId eventId : Uuid) : Phase → Prop
  | .retrying webhook event | .starting webhook event | .told webhook event
  | .delivering webhook event | .blocked webhook event | .succeeded webhook event =>
      webhook = webhookId ∧ event = eventId
  | _ => False

/-- The task delivers an event, and has found the subscription. -/
def HasRead (webhookId eventId : Uuid) : Phase → Prop
  | .told webhook event | .delivering webhook event | .blocked webhook event
  | .succeeded webhook event => webhook = webhookId ∧ event = eventId
  | _ => False

/-- The reply names an event that may have to be delivered. -/
def Announces : (command : WebhookCommand) → command.Reply → Uuid → Uuid → Prop
  | .pushEvents _ _ _ _ _ _, queued, webhookId, eventId =>
      let pairs : List (Uuid × Uuid) := queued
      (webhookId, eventId) ∈ pairs
  | .resetEvent webhook event _, found, webhookId, eventId =>
      webhook = webhookId ∧ event = eventId ∧
        ∃ record : MemoryWebhookEventRecord, found = some record
  | _, _, _, _ => False

/-- The reply is a subscription. -/
def Finds : (command : WebhookCommand) → command.Reply → Uuid → MemoryWebhookSubscription → Prop
  | .getWebhook id, found, webhookId, webhook => id = webhookId ∧ found = some webhook
  | _, _, _, _ => False

/-- The reply leaves nothing to deliver. -/
def FindsNothing : (command : WebhookCommand) → command.Reply → Prop
  | .getWebhook _, found => found = none
  | .getEvent _ _, found =>
      ∀ event : MemoryWebhookEventRecord, found = some event → event.delivered = true
  | _, _ => False

/-- The reply is an identifier for a new webhook. -/
def Draws : (command : WebhookCommand) → command.Reply → Uuid → Prop
  | .freshId, proposed, id => proposed = id
  | _, _, _ => False

variable {phase : Phase} {command : WebhookCommand} {value : command.Reply}
  {webhookId eventId : Uuid}

theorem after_concerns (moved : (phase.after command value).Concerns webhookId eventId) :
    phase.Concerns webhookId eventId ∨ Announces command value webhookId eventId := by
  unfold Phase.after at moved
  split at moved
  · exact moved.elim
  · exact .inr moved
  · split at moved
    · rename_i event
      split at moved
      · exact moved.elim
      · exact .inr ⟨moved.1, moved.2, event, rfl⟩
    · exact moved.elim
  · exact moved.elim
  · split at moved <;> exact moved.elim
  · exact moved.elim
  · split at moved
    · exact .inl moved
    · exact moved.elim
  · split at moved
    · split at moved
      · exact moved.elim
      · exact .inl moved
    · exact moved.elim
  · split at moved <;> exact .inl moved
  · split at moved <;> exact .inl moved
  · split at moved
    · exact moved.elim
    · exact .inl moved
  · exact moved.elim
  · exact moved.elim
  · exact .inl moved

theorem concerns_of_owes (owes : phase.Owes webhookId eventId) :
    phase.Concerns webhookId eventId := by
  cases phase <;> first | exact owes | exact owes.elim

theorem concerns_of_hasRead (read : phase.HasRead webhookId eventId) :
    phase.Concerns webhookId eventId := by
  cases phase <;> first | exact read | exact read.elim

theorem owes_of_hasRead (read : phase.HasRead webhookId eventId) :
    phase.Owes webhookId eventId := by
  cases phase <;> first | exact read | exact read.elim

theorem after_owes (allows : phase.Allows command)
    (moved : (phase.after command value).Owes webhookId eventId) :
    phase.Owes webhookId eventId ∨ phase = .resetting webhookId eventId := by
  unfold Phase.after at moved
  split at moved
  · exact moved.elim
  · exact moved.elim
  · split at moved
    · split at moved
      · exact moved.elim
      · obtain ⟨rfl, rfl⟩ := moved
        obtain ⟨rfl, rfl⟩ := allows
        exact .inr rfl
    · exact moved.elim
  · exact moved.elim
  · split at moved <;> exact moved.elim
  · exact moved.elim
  · split at moved
    · exact .inl moved
    · exact moved.elim
  · split at moved
    · split at moved
      · exact moved.elim
      · exact .inl moved
    · exact moved.elim
  · split at moved <;> exact .inl moved
  · split at moved <;> exact .inl moved
  · split at moved
    · exact moved.elim
    · exact .inl moved
  · exact moved.elim
  · exact moved.elim
  · exact .inl moved

/-- A delivery is done with when there is nothing to deliver, or when a status is left. -/
theorem owes_after (allows : phase.Allows command) (value : command.Reply)
    (owes : phase.Owes webhookId eventId) :
    (phase.after command value).Owes webhookId eventId ∨
      phase = .starting webhookId eventId ∧ command = .getWebhook webhookId ∧
        FindsNothing command value ∨
      phase = .told webhookId eventId ∧ command = .getEvent webhookId eventId ∧
        FindsNothing command value ∨
      ∃ attempts delivered deadLetter error,
        command = .updateStatus webhookId eventId attempts delivered deadLetter error := by
  unfold Phase.after
  split
  · exact owes.elim
  · exact owes.elim
  · exact owes.elim
  · exact owes.elim
  · exact owes.elim
  · exact owes.elim
  · rename_i found
    obtain ⟨rfl, rfl⟩ := owes
    obtain rfl := allows
    split
    · exact .inl ⟨rfl, rfl⟩
    · rename_i missing
      exact .inr (.inl ⟨rfl, rfl, Option.not_isSome_iff_eq_none.mp missing⟩)
  · rename_i found
    obtain ⟨rfl, rfl⟩ := owes
    obtain ⟨rfl, rfl⟩ := allows
    split
    · rename_i event
      split
      · rename_i delivered
        refine .inr (.inr (.inl ⟨rfl, rfl, fun other same => ?_⟩))
        rw [← Option.some.inj same]
        exact delivered
      · exact .inl ⟨rfl, rfl⟩
    · exact .inr (.inr (.inl ⟨rfl, rfl, nofun⟩))
  · split <;> exact .inl owes
  · split <;> exact .inl owes
  · rename_i other event attempts delivered deadLetter error _
    obtain ⟨rfl, rfl⟩ := owes
    obtain ⟨rfl, rfl, _⟩ := allows
    exact .inr (.inr (.inr ⟨_, _, _, _, rfl⟩))
  · obtain ⟨rfl, rfl⟩ := owes
    obtain ⟨rfl, rfl, _⟩ := allows
    exact .inr (.inr (.inr ⟨_, _, _, _, rfl⟩))
  · obtain ⟨rfl, rfl⟩ := owes
    obtain ⟨rfl, rfl, _⟩ := allows
    exact .inr (.inr (.inr ⟨_, _, _, _, rfl⟩))
  · exact .inl owes

theorem after_resetting (moved : phase.after command value = .resetting webhookId eventId) :
    phase = .resetting webhookId eventId := by
  unfold Phase.after at moved
  split at moved
  · exact nomatch moved
  · exact nomatch moved
  · split at moved
    · split at moved <;> exact nomatch moved
    · exact nomatch moved
  · exact nomatch moved
  · split at moved <;> exact nomatch moved
  · exact nomatch moved
  · split at moved <;> exact nomatch moved
  · split at moved
    · split at moved <;> exact nomatch moved
    · exact nomatch moved
  · split at moved <;> exact nomatch moved
  · split at moved <;> exact nomatch moved
  · split at moved <;> exact nomatch moved
  · exact nomatch moved
  · exact nomatch moved
  · exact moved

theorem allows_resetEvent {force : Bool}
    (allows : phase.Allows (.resetEvent webhookId eventId force)) :
    phase = .resetting webhookId eventId := by
  cases phase with
  | resetting webhook event =>
    obtain ⟨rfl, rfl⟩ := allows
    rfl
  | _ => exact allows.elim

theorem allows_send {webhook : MemoryWebhookSubscription} {event : MemoryWebhookEventRecord}
    (allows : phase.Allows (.send webhook event)) : phase = .delivering webhook.id event.id := by
  cases phase with
  | delivering webhookId eventId =>
    obtain ⟨rfl, rfl⟩ := allows
    rfl
  | _ => exact allows.elim

theorem allows_updateStatus {attempts : Nat} {delivered deadLetter : Bool} {error : Option String}
    (allows : phase.Allows (.updateStatus webhookId eventId attempts delivered deadLetter error)) :
    (phase = .delivering webhookId eventId ∧ delivered = false) ∨
      (phase = .blocked webhookId eventId ∧ delivered = false) ∨
        phase = .succeeded webhookId eventId ∧ delivered = true := by
  cases phase with
  | delivering webhook event =>
    obtain ⟨rfl, rfl, same⟩ := allows
    exact .inl ⟨rfl, same⟩
  | blocked webhook event =>
    obtain ⟨rfl, rfl, same⟩ := allows
    exact .inr (.inl ⟨rfl, same⟩)
  | succeeded webhook event =>
    obtain ⟨rfl, rfl, same⟩ := allows
    exact .inr (.inr ⟨rfl, same⟩)
  | _ => exact allows.elim

/-- The receiver has accepted what was sent. -/
def Accepts : (command : WebhookCommand) → command.Reply → Prop
  | .send _ _, outcome => outcome = SendOutcome.success
  | _, _ => False

theorem after_succeeded (moved : phase.after command value = .succeeded webhookId eventId) :
    phase = .succeeded webhookId eventId ∨
      phase = .delivering webhookId eventId ∧ Accepts command value := by
  unfold Phase.after at moved
  split at moved
  · exact nomatch moved
  · exact nomatch moved
  · split at moved
    · split at moved <;> exact nomatch moved
    · exact nomatch moved
  · exact nomatch moved
  · split at moved <;> exact nomatch moved
  · exact nomatch moved
  · split at moved <;> exact nomatch moved
  · split at moved
    · split at moved <;> exact nomatch moved
    · exact nomatch moved
  · split at moved <;> exact nomatch moved
  · split at moved
    · obtain ⟨rfl, rfl⟩ := Phase.succeeded.inj moved
      exact .inr ⟨rfl, rfl⟩
    · exact nomatch moved
  · split at moved <;> exact nomatch moved
  · exact nomatch moved
  · exact nomatch moved
  · exact .inl moved

theorem after_hasRead (allows : phase.Allows command)
    (moved : (phase.after command value).HasRead webhookId eventId) :
    phase.HasRead webhookId eventId ∨
      phase = .starting webhookId eventId ∧ ∃ webhook, Finds command value webhookId webhook := by
  unfold Phase.after at moved
  split at moved
  · exact moved.elim
  · exact moved.elim
  · split at moved
    · split at moved <;> exact moved.elim
    · exact moved.elim
  · exact moved.elim
  · split at moved <;> exact moved.elim
  · exact moved.elim
  · rename_i other event id found
    split at moved
    · rename_i there
      obtain ⟨rfl, rfl⟩ := moved
      obtain ⟨webhook, same⟩ := Option.isSome_iff_exists.mp there
      exact .inr ⟨rfl, webhook, allows, same⟩
    · exact moved.elim
  · split at moved
    · split at moved
      · exact moved.elim
      · exact .inl moved
    · exact moved.elim
  · split at moved <;> exact .inl moved
  · split at moved <;> exact .inl moved
  · split at moved
    · exact moved.elim
    · exact .inl moved
  · exact moved.elim
  · exact moved.elim
  · exact .inl moved

theorem after_copied {req : UpdateMemoryWebhookRequest} {copy : MemoryWebhookSubscription}
    (moved : phase.after command value = .copied req copy) :
    phase = .copied req copy ∨ ∃ id, Finds command value id copy := by
  unfold Phase.after at moved
  split at moved
  · exact nomatch moved
  · exact nomatch moved
  · split at moved
    · split at moved <;> exact nomatch moved
    · exact nomatch moved
  · exact nomatch moved
  · rename_i id found
    split at moved
    · exact .inr ⟨id, rfl, congrArg some (Phase.copied.inj moved).2⟩
    · exact nomatch moved
  · exact nomatch moved
  · split at moved <;> exact nomatch moved
  · split at moved
    · split at moved <;> exact nomatch moved
    · exact nomatch moved
  · split at moved <;> exact nomatch moved
  · split at moved <;> exact nomatch moved
  · split at moved <;> exact nomatch moved
  · exact nomatch moved
  · exact nomatch moved
  · exact .inl moved

theorem after_drawn {id : Uuid} (moved : phase.after command value = .drawn id) :
    phase = .drawn id ∨ Draws command value id := by
  unfold Phase.after at moved
  split at moved
  · exact .inr (Phase.drawn.inj moved)
  · exact nomatch moved
  · split at moved
    · split at moved <;> exact nomatch moved
    · exact nomatch moved
  · exact nomatch moved
  · split at moved <;> exact nomatch moved
  · exact nomatch moved
  · split at moved <;> exact nomatch moved
  · split at moved
    · split at moved <;> exact nomatch moved
    · exact nomatch moved
  · split at moved <;> exact nomatch moved
  · split at moved <;> exact nomatch moved
  · split at moved <;> exact nomatch moved
  · exact nomatch moved
  · exact nomatch moved
  · exact .inl moved

end Phase

section Replies

variable (config : WebhookDeliveryConfig) (input : WebhookInput) {state : WebhookState}
  {command : WebhookCommand} {phase : Phase}

theorem announces_issued (issued : EventsIssued state) {webhookId eventId : Uuid}
    (announces : Phase.Announces command (perform config input state command).1 webhookId
      eventId) : eventId ∈ (perform config input state command).2.issued := by
  cases command with
  | pushEvents webhookIds userId eventType requestId payload createdAt =>
    exact ((pushed_pushAll config input.id userId eventType requestId payload createdAt state
      webhookIds).queued _ announces).2
  | resetEvent other event force =>
    obtain ⟨_, rfl, record, found⟩ := announces
    obtain ⟨member, named⟩ := findEvent_eq_some found
    have old : record.id ∈ (state.events other).map (·.id) := by
      rw [← map_id_reviseEvent (id_forRetry force)]
      exact List.mem_map.mpr ⟨record, member, rfl⟩
    obtain ⟨before, among, same⟩ := List.mem_map.mp old
    rw [← named, ← same]
    exact issued other before among
  | _ => exact announces.elim

theorem finds_stored {webhookId : Uuid} {webhook : MemoryWebhookSubscription}
    (finds : Phase.Finds command (perform config input state command).1 webhookId webhook) :
    command = .getWebhook webhookId ∧ state.webhooks webhookId = some webhook := by
  cases command with
  | getWebhook other =>
    obtain ⟨rfl, found⟩ := finds
    exact ⟨rfl, found⟩
  | _ => exact finds.elim

theorem draws_fresh {webhookId : Uuid}
    (draws : Phase.Draws command (perform config input state command).1 webhookId) :
    webhookId ∉ state.issued ∧ webhookId ∈ (perform config input state command).2.issued ∧
      command = .freshId := by
  cases command with
  | freshId =>
    obtain rfl := draws
    exact ⟨Database.unused_notMem state.issued input.id, List.mem_cons_self, rfl⟩
  | _ => exact draws.elim

end Replies
end Webhook
end Mnemo
