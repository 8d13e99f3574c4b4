import Mnemo.Webhook.Effects

/-!
# The outcome of a delivery

An event is delivered, or it is a dead letter.  Three ways of giving up leave something else: the
subscription is missing, the address is found unsafe before the last attempt, or another delivery
was successful in the meantime.
-/

namespace Mnemo
namespace Webhook
namespace Outcome

open Program (Crew Task)
open StateMachine (Always Guarded)

/-- The job is a delivery of an event, or a retry of one. -/
def Serves (webhookId eventId : Uuid) : WebhookJob → Prop
  | .deliver webhook event | .retry webhook event _ _ => webhook = webhookId ∧ event = eventId
  | _ => False

/-- Delivering the event was begun, and everyone who has tried to deliver it has ended. -/
structure Over (tasks : List (WebhookTask Phase)) (webhookId eventId : Uuid) : Prop where
  begun : ∃ task ∈ tasks, task.job = .deliver webhookId eventId
  ended : ∀ task ∈ tasks, Serves webhookId eventId task.job → task.ended = true

/-- The status of a buffered event tells what has become of it: it is never both delivered and a
dead letter, only a success delivers it, and when its deliveries have ended it is delivered or a dead
letter, and was delivered if an attempt was successful. -/
structure Truthful (crew : WebhookCrew Phase) : Prop where
  apart : ∀ webhookId, ∀ event ∈ crew.shared.events webhookId,
    ¬(event.delivered = true ∧ event.deadLetter = true)
  success : ∀ webhookId, ∀ event ∈ crew.shared.events webhookId, event.delivered = true →
    (webhookId, event.id, true) ∈ crew.shared.posts
  marked : ∀ webhookId, ∀ event ∈ crew.shared.events webhookId,
    Over crew.tasks webhookId event.id → event.delivered = true ∨ event.deadLetter = true
  told : ∀ webhookId, ∀ event ∈ crew.shared.events webhookId, Over crew.tasks webhookId event.id →
    (webhookId, event.id, true) ∈ crew.shared.posts → event.delivered = true

/-- The event, if it is still buffered, is delivered or a dead letter. -/
def Marked (state : WebhookState) (webhookId eventId : Uuid) : Prop :=
  ∀ event ∈ state.events webhookId, event.id = eventId →
    event.delivered = true ∨ event.deadLetter = true

/-- The event, if it is still buffered, is not delivered. -/
def Undelivered (state : WebhookState) (webhookId eventId : Uuid) : Prop :=
  ∀ event ∈ state.events webhookId, event.id = eventId → event.delivered = false

/-- What has to hold when a delivery gives up: a missing subscription is noticed after the event was
marked only, an unsafe address before the last attempt only when the event was delivered, and no
dead letter is left for an event that was delivered. -/
def GivesUpRightly (state : WebhookState) : Phase → WebhookCommand → Prop
  | .starting webhookId eventId, .getWebhook _ =>
      state.webhooks webhookId = none → Marked state webhookId eventId
  | .blocked webhookId eventId, .updateStatus _ _ _ _ deadLetter _ =>
      if deadLetter then Undelivered state webhookId eventId
      else ∀ event ∈ state.events webhookId, event.id = eventId → event.delivered = true
  | .delivering webhookId eventId, .updateStatus _ _ _ _ deadLetter _ =>
      deadLetter = true → Undelivered state webhookId eventId
  | _, _ => True

section Runs

variable (setting : WebhookSetting)

/-- One step of the tasks of the webhooks. -/
abbrev outcomeStep : WebhookCrew Phase → WebhookEvent → WebhookCrew Phase :=
  Crew.step (exec setting.delivery)
    (webhookOrders setting phaseProtocol Phase.begins Phase.handsOn)

/-- Every delivery that gives up does so rightly. -/
def RightlyGivenUp (crew : WebhookCrew Phase) : WebhookEvent → Prop
  | .advance position _ =>
      match crew.tasks[position]? with
      | some ⟨_, .perform command _, phase⟩ => GivesUpRightly crew.shared phase command
      | _ => True
  | _ => True

/-- A delivered event stays delivered and becomes no dead letter, as long as it is buffered. -/
def KeepsDelivered (crew : WebhookCrew Phase) (event : WebhookEvent) : Prop :=
  ∀ webhookId, ∀ old ∈ crew.shared.events webhookId, old.delivered = true →
    ∀ new ∈ (outcomeStep setting crew event).shared.events webhookId, new.id = old.id →
      new.delivered = true ∧ new.deadLetter = false

/-- A delivery that is done with its event leaves it delivered, or as a dead letter. -/
def MarksWhatItLeaves (crew : WebhookCrew Phase) (event : WebhookEvent) : Prop :=
  ∀ (position : Nat) (old new : WebhookTask Phase) (webhookId eventId : Uuid),
    crew.tasks[position]? = some old →
    (outcomeStep setting crew event).tasks[position]? = some new →
    Phase.HasRead webhookId eventId old.state ∨ old.state = .starting webhookId eventId →
    new.state = .settled → Marked (outcomeStep setting crew event).shared webhookId eventId

end Runs

/-- What holds before anything is delivered. -/
structure Consistent (state : WebhookState) : Prop where
  filed : ∀ webhookId webhook, state.webhooks webhookId = some webhook → webhook.id = webhookId
  distinct : EventsDistinct state
  issued : EventsIssued state
  posts : ∀ webhookId eventId answer, (webhookId, eventId, answer) ∈ state.posts →
    eventId ∈ state.issued
  apart : ∀ webhookId, ∀ event ∈ state.events webhookId,
    ¬(event.delivered = true ∧ event.deadLetter = true)
  success : ∀ webhookId, ∀ event ∈ state.events webhookId,
    event.delivered = true ↔ (webhookId, event.id, true) ∈ state.posts

/-- The status of an event tells what has become of it, or a task will see to it. -/
structure Accounted (state : WebhookState) (tasks : List (WebhookTask Phase)) : Prop where
  filed : ∀ webhookId webhook, state.webhooks webhookId = some webhook → webhook.id = webhookId
  distinct : EventsDistinct state
  issued : EventsIssued state
  posts : ∀ webhookId eventId answer, (webhookId, eventId, answer) ∈ state.posts →
    eventId ∈ state.issued
  concerns : ∀ task ∈ tasks, ∀ webhookId eventId, task.state.Concerns webhookId eventId →
    eventId ∈ state.issued
  begun : ∀ task ∈ tasks, ∀ webhookId eventId, task.job = .deliver webhookId eventId →
    eventId ∈ state.issued
  serves : ∀ task ∈ tasks, ∀ webhookId eventId, task.state.Owes webhookId eventId ∨
    task.state = .resetting webhookId eventId → Serves webhookId eventId task.job
  answered : ∀ task ∈ tasks, ∀ webhookId eventId, task.state = .succeeded webhookId eventId →
    (webhookId, eventId, true) ∈ state.posts
  apart : ∀ webhookId, ∀ event ∈ state.events webhookId,
    ¬(event.delivered = true ∧ event.deadLetter = true)
  success : ∀ webhookId, ∀ event ∈ state.events webhookId, event.delivered = true →
    (webhookId, event.id, true) ∈ state.posts
  told : ∀ webhookId, ∀ event ∈ state.events webhookId, (webhookId, event.id, true) ∈ state.posts →
    event.delivered = true ∨ ∃ task ∈ tasks, task.state = .succeeded webhookId event.id
  tended : ∀ webhookId, ∀ event ∈ state.events webhookId,
    (∃ task ∈ tasks, task.job = .deliver webhookId event.id) →
      event.delivered = true ∨ event.deadLetter = true ∨
        ∃ task ∈ tasks, task.state.Owes webhookId event.id

/-! ## Commands -/

section Step

variable (config : WebhookDeliveryConfig) {state : WebhookState}
  {tasks : List (WebhookTask Phase)} {position : Nat} {job : WebhookJob}
  {command : WebhookCommand} {continuation : Except MnemoError command.Reply →
    WebhookProgram (List WebhookJob)} {phase : Phase} (input : WebhookInput)

theorem delivered_forRetry (force : Bool) (event : MemoryWebhookEventRecord) :
    (event.forRetry force).delivered = event.delivered := by
  unfold MemoryWebhookEventRecord.forRetry
  split <;> rfl

theorem deadLetter_forRetry {force : Bool} {event : MemoryWebhookEventRecord}
    (apart : ¬(event.delivered = true ∧ event.deadLetter = true)) :
    ¬((event.forRetry force).delivered = true ∧ (event.forRetry force).deadLetter = true) := by
  unfold MemoryWebhookEventRecord.forRetry
  split
  · simp
  · exact apart

theorem withStatus_true (event : MemoryWebhookEventRecord) (attempts : Nat) (deadLetter : Bool)
    (error : Option String) (now : DateTime) :
    (event.withStatus attempts true deadLetter error now).delivered = true ∧
      (event.withStatus attempts true deadLetter error now).deadLetter = false :=
  ⟨rfl, rfl⟩

theorem withStatus_false (event : MemoryWebhookEventRecord) (attempts : Nat) (deadLetter : Bool)
    (error : Option String) (now : DateTime) :
    (event.withStatus attempts false deadLetter error now).delivered = event.delivered ∧
      (event.withStatus attempts false deadLetter error now).deadLetter = deadLetter :=
  ⟨rfl, rfl⟩

namespace Accounted

theorem apart_perform (accounted : Accounted state tasks) (allows : phase.Allows command)
    (rightly : GivesUpRightly state phase command) (webhookId : Uuid)
    {event : MemoryWebhookEventRecord}
    (member : event ∈ (perform config input state command).2.events webhookId) :
    ¬(event.delivered = true ∧ event.deadLetter = true) := by
  rcases mem_events_cases config input state accounted.distinct command webhookId member with
    ⟨old, _⟩ | ⟨_, undelivered⟩ | ⟨force, rfl, old, among, _, same⟩ |
      ⟨attempts, delivered, deadLetter, error, rfl, old, among, named, same⟩
  · exact accounted.apart webhookId event old
  · simp [undelivered]
  · rw [same]
    exact deadLetter_forRetry (accounted.apart webhookId old among)
  · rw [same]
    rcases Phase.allows_updateStatus allows with ⟨rfl, rfl⟩ | ⟨rfl, rfl⟩ | ⟨rfl, rfl⟩
    · obtain ⟨first, second⟩ := withStatus_false old attempts deadLetter error input.now
      rw [first, second]
      rintro ⟨was, last⟩
      exact nomatch was.symm.trans (rightly last old among named)
    · obtain ⟨first, second⟩ := withStatus_false old attempts deadLetter error input.now
      rw [first, second]
      rintro ⟨was, last⟩
      subst last
      exact nomatch was.symm.trans (rightly old among named)
    · simp [withStatus_true]

theorem success_perform (accounted : Accounted state tasks)
    (found : tasks[position]? = some ⟨job, .perform command continuation, phase⟩)
    (allows : phase.Allows command) (webhookId : Uuid) {event : MemoryWebhookEventRecord}
    (member : event ∈ (perform config input state command).2.events webhookId)
    (delivered : event.delivered = true) :
    (webhookId, event.id, true) ∈ (perform config input state command).2.posts := by
  have mine := List.mem_of_getElem? found
  have posted {post : Uuid × Uuid × Bool} (sent : post ∈ state.posts) :=
    posts_subset_perform config input state command sent
  rcases mem_events_cases config input state accounted.distinct command webhookId member with
    ⟨old, _⟩ | ⟨_, undelivered⟩ | ⟨force, rfl, old, among, named, same⟩ |
      ⟨attempts, success, deadLetter, error, rfl, old, among, named, same⟩
  · exact posted (accounted.success webhookId event old delivered)
  · exact nomatch delivered.symm.trans undelivered
  · rw [same, delivered_forRetry] at delivered
    rw [← named]
    exact posted (accounted.success webhookId old among delivered)
  · have before (failed : success = false) :
        (webhookId, event.id, true) ∈ state.posts := by
      subst failed
      rw [same, (withStatus_false old attempts deadLetter error input.now).1] at delivered
      rw [← named]
      exact accounted.success webhookId old among delivered
    rcases Phase.allows_updateStatus allows with ⟨_, failed⟩ | ⟨_, failed⟩ | ⟨rfl, _⟩
    · exact posted (before failed)
    · exact posted (before failed)
    · exact posted (accounted.answered _ mine webhookId event.id rfl)

/-- An event that the receiver has accepted is delivered, or a task is about to say so. -/
theorem told_perform (accounted : Accounted state tasks)
    (found : tasks[position]? = some ⟨job, .perform command continuation, phase⟩)
    (allows : phase.Allows command) (webhookId : Uuid) {event : MemoryWebhookEventRecord}
    (member : event ∈ (perform config input state command).2.events webhookId)
    (sent : (webhookId, event.id, true) ∈ (perform config input state command).2.posts) :
    event.delivered = true ∨ ∃ task ∈ tasks.set position
        ⟨job, continuation (.ok (perform config input state command).1),
          phase.after command (perform config input state command).1⟩,
      task.state = .succeeded webhookId event.id := by
  rcases mem_posts_perform config input state sent with before | ⟨webhook, sending, rfl, same⟩
  · rcases mem_events_cases config input state accounted.distinct command webhookId member with
      ⟨old, _, quiet⟩ | ⟨fresh, _⟩ | ⟨force, rfl, old, among, named, same⟩ |
        ⟨attempts, success, deadLetter, error, rfl, old, among, named, same⟩
    · refine (accounted.told webhookId event old before).imp_right (Crew.exists_mem_set _ found ?_)
      rintro rfl
      cases command with
      | updateStatus other eventId attempts delivered deadLetter error =>
        obtain ⟨rfl, rfl, _⟩ := allows
        exact absurd rfl (quiet attempts delivered deadLetter error)
      | _ => exact allows.elim
    · exact absurd (accounted.posts webhookId event.id true before) fresh
    · rw [← named] at before ⊢
      refine (accounted.told webhookId old among before).imp ?_ (Crew.exists_mem_set _ found ?_)
      · intro delivered
        rw [same, delivered_forRetry]
        exact delivered
      · intro other
        exact nomatch (Phase.allows_resetEvent allows).symm.trans other
    · rw [← named] at before ⊢
      have kept (failed : success = false) (delivered : old.delivered = true) :
          event.delivered = true := by
        subst failed
        rw [same, (withStatus_false old attempts deadLetter error input.now).1]
        exact delivered
      rcases Phase.allows_updateStatus allows with ⟨rfl, failed⟩ | ⟨rfl, failed⟩ | ⟨_, rfl⟩
      · exact (accounted.told webhookId old among before).imp (kept failed)
          (Crew.exists_mem_set _ found nofun)
      · exact (accounted.told webhookId old among before).imp (kept failed)
          (Crew.exists_mem_set _ found nofun)
      · left
        rw [same]
        rfl
  · right
    obtain ⟨rfl, rest⟩ := Prod.mk.inj same
    obtain ⟨named, accepted⟩ := Prod.mk.inj rest
    have success : input.outcome = .success := by simpa using accepted.symm
    refine ⟨_, List.mem_set (List.getElem?_eq_some_iff.mp found).1 _, ?_⟩
    obtain rfl := Phase.allows_send allows
    rw [named]
    change Phase.after (.delivering webhook.id sending.id) (.send webhook sending) input.outcome = _
    rw [success]
    rfl

/-- A task that owes the delivery of an event still does, unless the event is delivered or a dead
letter. -/
theorem owed_perform (accounted : Accounted state tasks)
    (found : tasks[position]? = some ⟨job, .perform command continuation, phase⟩)
    (allows : phase.Allows command) (rightly : GivesUpRightly state phase command)
    (webhookId : Uuid) {event : MemoryWebhookEventRecord} (owes : phase.Owes webhookId event.id)
    (member : event ∈ (perform config input state command).2.events webhookId) :
    event.delivered = true ∨ event.deadLetter = true ∨
      (phase.after command (perform config input state command).1).Owes webhookId event.id := by
  rcases mem_events_cases config input state accounted.distinct command webhookId member with
    ⟨old, _, quiet⟩ | ⟨fresh, _⟩ | ⟨force, rfl, _⟩ |
      ⟨attempts, success, deadLetter, error, rfl, old, among, named, same⟩
  · rcases Phase.owes_after allows (perform config input state command).1 owes with
      still | ⟨rfl, rfl, missing⟩ | ⟨rfl, rfl, nothing⟩ | ⟨attempts, delivered, deadLetter, error, same⟩
    · exact .inr (.inr still)
    · exact (rightly missing event old rfl).imp_right .inl
    · exact .inl (nothing event (findEvent_of_mem (accounted.distinct webhookId) old))
    · exact absurd same (quiet attempts delivered deadLetter error)
  · have mine := List.mem_of_getElem? found
    exact absurd (accounted.concerns _ mine webhookId event.id (Phase.concerns_of_owes owes)) fresh
  · obtain rfl := Phase.allows_resetEvent allows
    exact owes.elim
  · rcases Phase.allows_updateStatus allows with ⟨rfl, rfl⟩ | ⟨rfl, rfl⟩ | ⟨rfl, rfl⟩
    · cases deadLetter with
      | true =>
        right; left
        rw [same]
        rfl
      | false => exact .inr (.inr ⟨rfl, rfl⟩)
    · cases deadLetter with
      | true =>
        right; left
        rw [same]
        rfl
      | false =>
        left
        rw [same]
        exact rightly old among named
    · left
      rw [same]
      rfl

/-- An event whose delivery was begun is delivered, a dead letter, or in the hands of a task. -/
theorem tended_perform (accounted : Accounted state tasks)
    (found : tasks[position]? = some ⟨job, .perform command continuation, phase⟩)
    (allows : phase.Allows command) (rightly : GivesUpRightly state phase command)
    (webhookId : Uuid) {event : MemoryWebhookEventRecord}
    (member : event ∈ (perform config input state command).2.events webhookId)
    (begun : ∃ task ∈ tasks, task.job = .deliver webhookId event.id) :
    event.delivered = true ∨ event.deadLetter = true ∨ ∃ task ∈ tasks.set position
        ⟨job, continuation (.ok (perform config input state command).1),
          phase.after command (perform config input state command).1⟩,
      task.state.Owes webhookId event.id := by
  have inside := (List.getElem?_eq_some_iff.mp found).1
  have mine (owes : phase.Owes webhookId event.id) : event.delivered = true ∨
      event.deadLetter = true ∨ ∃ task ∈ tasks.set position
          ⟨job, continuation (.ok (perform config input state command).1),
            phase.after command (perform config input state command).1⟩,
        task.state.Owes webhookId event.id := by
    have still := accounted.owed_perform config input found allows rightly webhookId owes member
    exact still.imp_right (.imp_right fun owed => ⟨_, List.mem_set inside _, owed⟩)
  rcases mem_events_cases config input state accounted.distinct command webhookId member with
    ⟨old, _, quiet⟩ | ⟨fresh, _⟩ | ⟨force, rfl, _⟩ | ⟨_, _, _, _, rfl, _⟩
  · rcases accounted.tended webhookId event old begun with delivered | dead | ⟨task, among, owes⟩
    · exact .inl delivered
    · exact .inr (.inl dead)
    · obtain ⟨place, there⟩ := List.mem_iff_getElem?.mp among
      rcases eq_or_ne place position with rfl | different
      · obtain rfl := Option.some.inj (found.symm.trans there)
        exact mine owes
      · refine .inr (.inr ⟨task, List.mem_iff_getElem?.mpr ⟨place, ?_⟩, owes⟩)
        rw [List.getElem?_set_ne different.symm]
        exact there
  · obtain ⟨task, among, serves⟩ := begun
    exact absurd (accounted.begun task among webhookId event.id serves) fresh
  · by_cases delivered : event.delivered = true
    · exact .inl delivered
    · refine .inr (.inr ⟨_, List.mem_set inside _, ?_⟩)
      have distinct := accounted.distinct.perform config input accounted.issued
        (.resetEvent webhookId event.id force)
      have there := findEvent_of_mem (distinct webhookId) member
      have rows : (perform config input state (.resetEvent webhookId event.id force)).2.events
          webhookId = reviseEvent event.id (·.forRetry force) (state.events webhookId) :=
        Function.update_self _ _ _
      have reply : (perform config input state (.resetEvent webhookId event.id force)).1 =
          some event := (congrArg (findEvent event.id) rows.symm).trans there
      obtain rfl := Phase.allows_resetEvent allows
      rw [reply]
      change (if event.delivered && !force then Phase.idle
        else .retrying webhookId event.id).Owes webhookId event.id
      rw [if_neg (by simp [delivered])]
      exact ⟨rfl, rfl⟩
  · apply mine
    rcases Phase.allows_updateStatus allows with ⟨rfl, _⟩ | ⟨rfl, _⟩ | ⟨rfl, _⟩
    · exact ⟨rfl, rfl⟩
    · exact ⟨rfl, rfl⟩
    · exact ⟨rfl, rfl⟩

/-- Every command of a task that gives up rightly keeps account of the deliveries. -/
theorem perform (accounted : Accounted state tasks)
    (found : tasks[position]? = some ⟨job, .perform command continuation, phase⟩)
    (allows : phase.Allows command) (rightly : GivesUpRightly state phase command) :
    Accounted (perform config input state command).2
      (tasks.set position ⟨job, continuation (.ok (perform config input state command).1),
        phase.after command (perform config input state command).1⟩) := by
  have grows := issued_perform config input state command
  have mine := List.mem_of_getElem? found
  refine ⟨?_, accounted.distinct.perform config input accounted.issued command,
    accounted.issued.perform config input command, ?_, ?_, ?_, ?_, ?_, ?_, ?_, ?_, ?_⟩
  · intro webhookId webhook stored
    rcases webhooks_perform_eq_some config input state stored with old | ⟨_, named⟩
    · exact accounted.filed webhookId webhook old
    · exact named
  · intro webhookId eventId answer sent
    rcases mem_posts_perform config input state sent with old | ⟨webhook, event, rfl, same⟩
    · exact grows (accounted.posts webhookId eventId answer old)
    · obtain rfl := Phase.allows_send allows
      obtain ⟨_, same⟩ := Prod.mk.inj same
      rw [(Prod.mk.inj same).1]
      exact grows (accounted.concerns _ mine webhook.id event.id ⟨rfl, rfl⟩)
  · intro task member webhookId eventId concerns
    rcases List.mem_or_eq_of_mem_set member with old | rfl
    · exact grows (accounted.concerns task old webhookId eventId concerns)
    · rcases Phase.after_concerns concerns with before | announced
      · exact grows (accounted.concerns _ mine webhookId eventId before)
      · exact announces_issued config input accounted.issued announced
  · intro task member webhookId eventId same
    rcases List.mem_or_eq_of_mem_set member with old | rfl
    · exact grows (accounted.begun task old webhookId eventId same)
    · exact grows (accounted.begun _ mine webhookId eventId same)
  · intro task member webhookId eventId owes
    rcases List.mem_or_eq_of_mem_set member with old | rfl
    · exact accounted.serves task old webhookId eventId owes
    · apply accounted.serves _ mine webhookId eventId
      rcases owes with owes | resets
      · exact Phase.after_owes allows owes
      · exact .inr (Phase.after_resetting resets)
  · have posted {post : Uuid × Uuid × Bool} (sent : post ∈ state.posts) :=
      posts_subset_perform config input state command sent
    intro task member webhookId eventId succeeded
    rcases List.mem_or_eq_of_mem_set member with old | rfl
    · exact posted (accounted.answered task old webhookId eventId succeeded)
    · rcases Phase.after_succeeded succeeded with before | ⟨rfl, accepts⟩
      · exact posted (accounted.answered _ mine webhookId eventId before)
      · cases command with
        | send webhook event =>
          obtain ⟨rfl, rfl⟩ := allows
          have outcome : input.outcome = .success := accepts
          have sent : (webhook.id, event.id, input.outcome == .success) ∈
              (Webhook.perform config input state (.send webhook event)).2.posts :=
            List.mem_cons_self
          rwa [outcome] at sent
        | _ => exact accepts.elim
  · exact fun webhookId event member =>
      accounted.apart_perform config input allows rightly webhookId member
  · exact fun webhookId event member =>
      accounted.success_perform config input found allows webhookId member
  · exact fun webhookId event member =>
      accounted.told_perform config input found allows webhookId member
  · intro webhookId event member begun
    apply accounted.tended_perform config input found allows rightly webhookId member
    obtain ⟨task, among, same⟩ := begun
    rcases List.mem_or_eq_of_mem_set among with old | rfl
    · exact ⟨task, old, same⟩
    · exact ⟨_, mine, same⟩

end Accounted
end Step

/-! ## Tasks that come and go -/

section Tasks

variable {state : WebhookState} {tasks : List (WebhookTask Phase)}

namespace Accounted

/-- A task comes that has nothing to deliver yet. -/
theorem concat (accounted : Accounted state tasks) {task : WebhookTask Phase}
    (idle : ∀ webhookId eventId, ¬task.state.Concerns webhookId eventId)
    (other : ∀ webhookId eventId, task.job ≠ .deliver webhookId eventId)
    (serves : ∀ webhookId eventId, task.state = .resetting webhookId eventId →
      Serves webhookId eventId task.job) :
    Accounted state (tasks ++ [task]) := by
  refine ⟨accounted.filed, accounted.distinct, accounted.issued, accounted.posts, ?_, ?_, ?_, ?_,
    accounted.apart, accounted.success, ?_, ?_⟩
  · intro one member webhookId eventId concerns
    rcases List.mem_append.mp member with old | new
    · exact accounted.concerns one old webhookId eventId concerns
    · rw [List.mem_singleton.mp new] at concerns
      exact absurd concerns (idle webhookId eventId)
  · intro one member webhookId eventId same
    rcases List.mem_append.mp member with old | new
    · exact accounted.begun one old webhookId eventId same
    · rw [List.mem_singleton.mp new] at same
      exact absurd same (other webhookId eventId)
  · intro one member webhookId eventId owes
    rcases List.mem_append.mp member with old | new
    · exact accounted.serves one old webhookId eventId owes
    · rw [List.mem_singleton.mp new] at owes ⊢
      rcases owes with owes | resets
      · exact absurd (Phase.concerns_of_owes owes) (idle webhookId eventId)
      · exact serves webhookId eventId resets
  · intro one member webhookId eventId succeeded
    rcases List.mem_append.mp member with old | new
    · exact accounted.answered one old webhookId eventId succeeded
    · rw [List.mem_singleton.mp new] at succeeded
      refine absurd ?_ (idle webhookId eventId)
      rw [succeeded]
      exact ⟨rfl, rfl⟩
  · intro webhookId event member sent
    refine (accounted.told webhookId event member sent).imp_right ?_
    rintro ⟨one, old, succeeded⟩
    exact ⟨one, List.mem_append_left _ old, succeeded⟩
  · intro webhookId event member begun
    have before : ∃ one ∈ tasks, one.job = .deliver webhookId event.id := by
      obtain ⟨one, among, same⟩ := begun
      rcases List.mem_append.mp among with old | new
      · exact ⟨one, old, same⟩
      · rw [List.mem_singleton.mp new] at same
        exact absurd same (other webhookId event.id)
    refine (accounted.tended webhookId event member before).imp_right (.imp_right ?_)
    rintro ⟨one, old, owes⟩
    exact ⟨one, List.mem_append_left _ old, owes⟩

/-- A delivery is handed on. -/
theorem handOn (accounted : Accounted state tasks) {position : Nat} {job : WebhookJob}
    {jobs rest : List WebhookJob} {phase : Phase} {webhookId eventId : Uuid}
    {program : WebhookProgram (List WebhookJob)}
    (found : tasks[position]? = some ⟨job, .done jobs, phase⟩)
    (concerns : phase.Concerns webhookId eventId)
    (hands : ∀ webhook event, phase.Owes webhook event →
      phase.handsOn.Owes webhook event ∨ webhook = webhookId ∧ event = eventId) :
    Accounted state (tasks.set position ⟨job, .done rest, phase.handsOn⟩ ++
      [⟨.deliver webhookId eventId, program, .starting webhookId eventId⟩]) := by
  have mine := List.mem_of_getElem? found
  have issued := accounted.concerns _ mine webhookId eventId concerns
  have less (holds : Phase → Prop) (idle : ¬holds .idle) (after : holds phase.handsOn) :
      holds phase := by
    cases phase <;> first | exact after | exact absurd after idle
  have last : (⟨.deliver webhookId eventId, program, .starting webhookId eventId⟩ :
      WebhookTask Phase) ∈ tasks.set position ⟨job, .done rest, phase.handsOn⟩ ++
        [⟨.deliver webhookId eventId, program, .starting webhookId eventId⟩] :=
    List.mem_append_right _ (List.mem_singleton_self _)
  have cases_of {one : WebhookTask Phase} (member : one ∈ tasks.set position
      ⟨job, .done rest, phase.handsOn⟩ ++
        [⟨.deliver webhookId eventId, program, .starting webhookId eventId⟩]) :
      one ∈ tasks ∨ one = ⟨job, .done rest, phase.handsOn⟩ ∨
        one = ⟨.deliver webhookId eventId, program, .starting webhookId eventId⟩ := by
    rcases List.mem_append.mp member with old | new
    · exact (List.mem_or_eq_of_mem_set old).imp_right .inl
    · exact .inr (.inr (List.mem_singleton.mp new))
  refine ⟨accounted.filed, accounted.distinct, accounted.issued, accounted.posts, ?_, ?_, ?_, ?_,
    accounted.apart, accounted.success, ?_, ?_⟩
  · intro one member webhook event has
    rcases cases_of member with old | rfl | rfl
    · exact accounted.concerns one old webhook event has
    · exact accounted.concerns _ mine webhook event (less (·.Concerns webhook event) id has)
    · obtain ⟨rfl, rfl⟩ := has
      exact issued
  · intro one member webhook event same
    rcases cases_of member with old | rfl | rfl
    · exact accounted.begun one old webhook event same
    · exact accounted.begun _ mine webhook event same
    · obtain ⟨rfl, rfl⟩ := WebhookJob.deliver.inj same
      exact issued
  · intro one member webhook event has
    rcases cases_of member with old | rfl | rfl
    · exact accounted.serves one old webhook event has
    · apply accounted.serves _ mine webhook event
      exact less (fun phase => phase.Owes webhook event ∨ phase = .resetting webhook event)
        (fun idle => idle.elim id nofun) has
    · rcases has with owes | resets
      · exact owes
      · exact nomatch resets
  · intro one member webhook event succeeded
    rcases cases_of member with old | rfl | rfl
    · exact accounted.answered one old webhook event succeeded
    · exact accounted.answered _ mine webhook event
        (less (· = .succeeded webhook event) nofun succeeded)
    · exact nomatch succeeded
  · intro webhook event member sent
    refine (accounted.told webhook event member sent).imp_right fun there => ?_
    have carries (same : phase = .succeeded webhook event.id) :
        phase.handsOn = .succeeded webhook event.id := by
      rw [same]
      rfl
    obtain ⟨one, among, succeeded⟩ :=
      Crew.exists_mem_set ⟨job, .done rest, phase.handsOn⟩ found carries there
    exact ⟨one, List.mem_append_left _ among, succeeded⟩
  · intro webhook event member begun
    by_cases served : webhook = webhookId ∧ event.id = eventId
    · obtain ⟨rfl, rfl⟩ := served
      exact .inr (.inr ⟨_, last, rfl, rfl⟩)
    · have before : ∃ one ∈ tasks, one.job = .deliver webhook event.id := by
        obtain ⟨one, among, same⟩ := begun
        rcases cases_of among with old | rfl | rfl
        · exact ⟨one, old, same⟩
        · exact ⟨_, mine, same⟩
        · obtain ⟨one, two⟩ := WebhookJob.deliver.inj same
          exact absurd ⟨one.symm, two.symm⟩ served
      refine (accounted.tended webhook event member before).imp_right (.imp_right fun there => ?_)
      have carries (owes : phase.Owes webhook event.id) : phase.handsOn.Owes webhook event.id :=
        (hands webhook event.id owes).resolve_right served
      obtain ⟨one, among, owes⟩ :=
        Crew.exists_mem_set ⟨job, .done rest, phase.handsOn⟩ found carries there
      exact ⟨one, List.mem_append_left _ among, owes⟩

end Accounted
end Tasks
/-! ## Runs -/

section Sound

variable {setting : WebhookSetting}

/-- The account is kept, and every task follows the protocol. -/
abbrev SoundCrew (setting : WebhookSetting) : WebhookCrew Phase → Prop :=
  Crew.Sound (webhookOrders setting phaseProtocol Phase.begins Phase.handsOn) Phase.Ends Accounted

theorem sound_outcomeStep (crew : WebhookCrew Phase) (event : WebhookEvent)
    (sound : SoundCrew setting crew) (rightly : RightlyGivenUp crew event) :
    SoundCrew setting (outcomeStep setting crew event) := by
  apply Crew.Sound.step (follows_webhookHandler setting) ?_ ?_ ?_ ?_ sound rightly
  · exact fun phase next rest ends => Phase.ends_handsOn ends
  · intro crew job outside _ accounted
    cases job with
    | deliver webhookId eventId => exact nomatch outside
    | retry webhookId eventId force requestId =>
      apply accounted.concat
      · exact nofun
      · exact nofun
      · intro webhook event same
        exact Phase.resetting.inj same
    | _ => exact accounted.concat nofun nofun nofun
  · intro crew position job command continuation phase input found allows rightly accounted
    constructor
    · cases command with
      | getWebhook webhookId => exact fun webhook there => accounted.filed webhookId webhook there
      | getEvent webhookId eventId => exact fun event there => (findEvent_eq_some there).2
      | _ => exact trivial
    · apply accounted.perform setting.delivery input found allows
      simpa [RightlyGivenUp, found] using rightly
  · intro crew position job next rest phase found ends accounted
    cases phase with
    | queuing queued =>
      obtain ⟨pair, among, rfl⟩ := ends next List.mem_cons_self
      exact accounted.handOn found among nofun
    | retrying webhookId eventId =>
      obtain rfl : next = .deliver webhookId eventId := (List.cons.inj ends).1
      apply accounted.handOn found ⟨rfl, rfl⟩
      rintro webhook event ⟨rfl, rfl⟩
      exact .inr ⟨rfl, rfl⟩
    | _ => first | exact ends.elim | cases ends

theorem not_ended_of_owes {crew : WebhookCrew Phase} (sound : SoundCrew setting crew)
    {task : WebhookTask Phase} (member : task ∈ crew.tasks) {webhookId eventId : Uuid}
    (owes : task.state.Owes webhookId eventId) : task.ended ≠ true := by
  intro ended
  obtain ⟨job, program, phase⟩ := task
  have follows := sound.follows _ member
  cases follows with
  | done ends =>
    rename_i jobs
    cases jobs with
    | nil => cases phase <;> first | exact owes.elim | exact ends.elim | cases ends
    | cons next rest => exact nomatch ended
  | fail ends => cases phase <;> first | exact owes.elim | exact ends.elim
  | perform _ _ => exact nomatch ended

theorem truthful_of_sound {crew : WebhookCrew Phase} (sound : SoundCrew setting crew) :
    Truthful crew := by
  have accounted := sound.holds
  have settled {webhookId eventId : Uuid} (finished : Over crew.tasks webhookId eventId)
      {task : WebhookTask Phase} (member : task ∈ crew.tasks)
      (owes : task.state.Owes webhookId eventId) : False := by
    have serves := accounted.serves task member webhookId eventId (.inl owes)
    exact not_ended_of_owes sound member owes (finished.ended task member serves)
  refine ⟨accounted.apart, accounted.success, fun webhookId event member finished => ?_,
    fun webhookId event member finished sent => ?_⟩
  · rcases accounted.tended webhookId event member finished.begun with
      delivered | dead | ⟨task, among, owes⟩
    · exact .inl delivered
    · exact .inr dead
    · exact (settled finished among owes).elim
  · rcases accounted.told webhookId event member sent with delivered | ⟨task, among, succeeded⟩
    · exact delivered
    · refine (settled finished among ?_).elim
      rw [succeeded]
      exact ⟨rfl, rfl⟩

theorem keepsDelivered_of_sound {crew : WebhookCrew Phase} (sound : SoundCrew setting crew)
    (event : WebhookEvent) (rightly : RightlyGivenUp crew event) :
    KeepsDelivered setting crew event := by
  have after := (sound_outcomeStep crew event sound rightly).holds
  have distinct := sound.holds.distinct
  intro webhookId old among delivered new member named
  have still : new.delivered = true := by
    have same {other : MemoryWebhookEventRecord} (there : other ∈ crew.shared.events webhookId)
        (equal : other.id = new.id) : other = old :=
      List.inj_on_of_nodup_map (distinct webhookId) there among (equal.trans named)
    rcases Crew.shared_step (exec setting.delivery)
        (webhookOrders setting phaseProtocol Phase.begins Phase.handsOn) crew event with
      stays | ⟨position, input, task, command, rfl, found, upcoming, moves⟩
    · rw [outcomeStep, stays] at member
      rw [same member rfl]
      exact delivered
    · rw [outcomeStep, moves] at member
      rcases mem_events_cases setting.delivery input crew.shared distinct command webhookId member
        with ⟨there, _⟩ | ⟨fresh, _⟩ | ⟨force, rfl, other, there, equal, revised⟩ |
          ⟨attempts, success, deadLetter, error, rfl, other, there, equal, revised⟩
      · rw [same there rfl]
        exact delivered
      · rw [named] at fresh
        exact absurd (sound.holds.issued webhookId old among) fresh
      · rw [revised, delivered_forRetry, same there equal]
        exact delivered
      · rw [revised, same there equal]
        cases success with
        | true => rfl
        | false => exact delivered
  refine ⟨still, ?_⟩
  have apart := after.apart webhookId new member
  simpa [still] using apart

/-- A delivery that is done with its event has marked it. -/
theorem marksWhatItLeaves_of_sound {crew : WebhookCrew Phase} (sound : SoundCrew setting crew)
    (event : WebhookEvent) (rightly : RightlyGivenUp crew event) :
    MarksWhatItLeaves setting crew event := by
  intro position old new webhookId eventId found there holding settled
  have owes : old.state.Owes webhookId eventId := by
    rcases holding with read | starting
    · exact Phase.owes_of_hasRead read
    · rw [starting]
      exact ⟨rfl, rfl⟩
  have moved : new ≠ old := by
    rintro rfl
    rw [settled] at owes
    exact owes.elim
  cases event with
  | begin job =>
    refine absurd ?_ moved
    unfold outcomeStep Crew.step at there
    dsimp only at there
    split at there
    · rw [List.getElem?_append_left (List.getElem?_eq_some_iff.mp found).1] at there
      exact Option.some.inj (there.symm.trans found)
    · exact Option.some.inj (there.symm.trans found)
  | handOn place =>
    refine absurd ?_ moved
    unfold outcomeStep Crew.step at there
    dsimp only at there
    split at there
    · rename_i job next rest phase here
      have inside : position < (crew.tasks.set place ⟨job, .done rest, phase.handsOn⟩).length := by
        rw [List.length_set]
        exact (List.getElem?_eq_some_iff.mp found).1
      change (crew.tasks.set place ⟨job, .done rest, phase.handsOn⟩ ++ _)[position]? = some new
        at there
      rw [List.getElem?_append_left inside] at there
      rcases Crew.getElem?_set_cases there with ⟨rfl, _⟩ | ⟨_, same⟩
      · obtain rfl := Option.some.inj (here.symm.trans found)
        have follows := sound.follows _ (List.mem_of_getElem? here)
        cases follows with
        | done ends =>
          rcases holding with read | starting
          · cases phase <;> first | exact read.elim | exact ends.elim
          · obtain rfl : phase = .starting webhookId eventId := starting
            exact ends.elim
      · exact Option.some.inj (same.symm.trans found)
    · exact Option.some.inj (there.symm.trans found)
  | advance place input =>
    cases here : crew.tasks[place]? with
    | none =>
      have same : outcomeStep setting crew (.advance place input) = crew := by
        simp [Crew.step, here]
      rw [same] at there
      exact absurd (Option.some.inj (there.symm.trans found)) moved
    | some task =>
      obtain ⟨job, program, phase⟩ := task
      cases program with
      | done jobs =>
        have same : outcomeStep setting crew (.advance place input) = crew := by
          simp [Crew.step, here]
        rw [same] at there
        exact absurd (Option.some.inj (there.symm.trans found)) moved
      | fail error =>
        have same : outcomeStep setting crew (.advance place input) = crew := by
          simp [Crew.step, here]
        rw [same] at there
        exact absurd (Option.some.inj (there.symm.trans found)) moved
      | perform command continuation =>
        have steps : outcomeStep setting crew (.advance place input) =
            ⟨(perform setting.delivery input crew.shared command).2,
              crew.tasks.set place ⟨job,
                continuation (.ok (perform setting.delivery input crew.shared command).1),
                phase.after command
                  (perform setting.delivery input crew.shared command).1⟩⟩ := by
          simp [Crew.step, here, exec, phaseProtocol, webhookOrders]
        rw [steps] at there ⊢
        rcases Crew.getElem?_set_cases there with ⟨rfl, rfl⟩ | ⟨_, same⟩
        · obtain rfl := Option.some.inj (here.symm.trans found)
          have follows := sound.follows _ (List.mem_of_getElem? here)
          cases follows with
          | perform allows _ =>
            have gives : GivesUpRightly crew.shared phase command := by
              simpa [RightlyGivenUp, here] using rightly
            intro record member named
            rw [← named] at owes
            have left := sound.holds.owed_perform setting.delivery input here allows gives
              webhookId owes member
            rcases left with delivered | dead | still
            · exact .inl delivered
            · exact .inr dead
            · change Phase.Owes webhookId record.id (phase.after command _) at still
              rw [show phase.after command
                (perform setting.delivery input crew.shared command).1 = .settled
                  from settled] at still
              exact still.elim
        · exact absurd (Option.some.inj (same.symm.trans found)) moved

theorem Consistent.accounted {state : WebhookState} (consistent : Consistent state) :
    Accounted state [] := by
  refine ⟨consistent.filed, consistent.distinct, consistent.issued, consistent.posts, ?_, ?_, ?_,
    ?_, consistent.apart, fun webhookId event member => (consistent.success webhookId event member).mp,
    fun webhookId event member sent => .inl ((consistent.success webhookId event member).mpr sent),
    ?_⟩
  · exact fun _ member => nomatch member
  · exact fun _ member => nomatch member
  · exact fun _ member => nomatch member
  · exact fun _ member => nomatch member
  · rintro webhookId event member ⟨_, impossible, _⟩
    exact nomatch impossible

/-- As long as every delivery that gives up does so rightly, the status of every event is truthful,
what was delivered stays so, and every delivery leaves its event delivered or as a dead letter. -/
theorem truthful_of_rightlyGivenUp (setting : WebhookSetting) (state : WebhookState)
    (consistent : Consistent state) (events : List WebhookEvent)
    (guarded : Guarded (outcomeStep setting) RightlyGivenUp (Crew.idle state) events) :
    Always (outcomeStep setting) Truthful (Crew.idle state) events ∧
      Guarded (outcomeStep setting) (KeepsDelivered setting) (Crew.idle state) events ∧
      Guarded (outcomeStep setting) (MarksWhatItLeaves setting) (Crew.idle state) events := by
  have initially : SoundCrew setting (Crew.idle state) := .idle consistent.accounted
  refine ⟨?_, ?_, ?_⟩
  · exact (guarded.always sound_outcomeStep initially).mono fun _ => truthful_of_sound
  · exact guarded.mono sound_outcomeStep
      (fun crew event sound rightly => keepsDelivered_of_sound sound event rightly) initially
  · exact guarded.mono sound_outcomeStep
      (fun crew event sound rightly => marksWhatItLeaves_of_sound sound event rightly) initially

end Sound

/-! ## An unsafe address -/

/-- One subscription to facts of a user. -/
def hookedState : WebhookState := quietState fun id => if id = 1 then some (factHook 1 7) else none

/-- The addresses behind the hosts are looked at. -/
def wary : WebhookSetting :=
  { briskSetting with delivery := { briskSetting.delivery with allowLocalhost := false } }

/-- The receiver accepts what it gets. -/
def accepting : WebhookInput := { failingAt 0 with outcome := .success }

/-- The address behind the host is not safe. -/
def rebound : WebhookInput := { failingAt 0 with dns := .error "private address" }

theorem consistent_hookedState : Consistent hookedState := by
  refine ⟨fun webhookId webhook stored => ?_, fun _ => List.nodup_nil, ?_, ?_, ?_, ?_⟩
  · have only : webhookId = 1 := by
      by_contra different
      exact nomatch stored.symm.trans (if_neg different)
    subst only
    obtain rfl : factHook 1 7 = webhook := Option.some.inj stored
    rfl
  · exact fun _ _ member => nomatch member
  · exact fun _ _ _ member => nomatch member
  · exact fun _ _ member => nomatch member
  · exact fun _ _ member => nomatch member

/-- An event is emitted, and the receiver accepts it. -/
theorem truthful_of_rightlyGivenUp_accepted :
    let events : List WebhookEvent := [.begin (.emit 7 .factAdded none .null), .advance 0 accepting,
      .advance 0 accepting, .advance 0 accepting, .advance 0 accepting, .handOn 0,
      .advance 1 accepting, .advance 1 accepting, .advance 1 accepting, .advance 1 accepting,
      .advance 1 accepting, .advance 1 accepting, .advance 1 accepting, .advance 1 accepting]
    Consistent hookedState ∧
      Guarded (outcomeStep briskSetting) RightlyGivenUp (Crew.idle hookedState) events ∧
      (Always (outcomeStep briskSetting) Truthful (Crew.idle hookedState) events ∧
        Guarded (outcomeStep briskSetting) (KeepsDelivered briskSetting) (Crew.idle hookedState)
          events ∧
        Guarded (outcomeStep briskSetting) (MarksWhatItLeaves briskSetting) (Crew.idle hookedState)
          events) := by
  have guarded : Guarded (outcomeStep briskSetting) RightlyGivenUp (Crew.idle hookedState)
      [.begin (.emit 7 .factAdded none .null), .advance 0 accepting,
        .advance 0 accepting, .advance 0 accepting, .advance 0 accepting, .handOn 0,
        .advance 1 accepting, .advance 1 accepting, .advance 1 accepting, .advance 1 accepting,
        .advance 1 accepting, .advance 1 accepting, .advance 1 accepting, .advance 1 accepting] :=
    ⟨trivial, trivial, trivial, trivial, trivial, trivial, nofun, trivial, trivial, trivial, trivial,
      trivial, trivial, trivial, trivial⟩
  exact ⟨consistent_hookedState, guarded,
    truthful_of_rightlyGivenUp briskSetting hookedState consistent_hookedState _ guarded⟩

/-- An event is emitted, and before the first of three attempts its address is found unsafe. -/
def blockedRun : List WebhookEvent :=
  [.begin (.emit 7 .factAdded none .null), .advance 0 rebound, .advance 0 rebound,
    .advance 0 rebound, .advance 0 rebound, .handOn 0, .advance 1 rebound, .advance 1 rebound,
    .advance 1 rebound, .advance 1 rebound, .advance 1 rebound, .advance 1 rebound,
    .advance 1 rebound, .advance 1 rebound]

/-- The delivery has ended, and its event is neither delivered nor a dead letter. -/
theorem blocked_event_unmarked :
    ¬Always (outcomeStep wary) Truthful (Crew.idle hookedState) blockedRun := by
  intro always
  have ended : (StateMachine.finish (outcomeStep wary) (Crew.idle hookedState)
      blockedRun).tasks.all (·.ended) = true := rfl
  obtain ⟨event, member, named, undelivered, alive⟩ : ∃ event ∈ (StateMachine.finish
      (outcomeStep wary) (Crew.idle hookedState) blockedRun).shared.events 1,
        event.id = 0 ∧ event.delivered = false ∧ event.deadLetter = false :=
    ⟨_, List.mem_singleton_self _, rfl, rfl, rfl⟩
  have finished : Over (StateMachine.finish (outcomeStep wary) (Crew.idle hookedState)
      blockedRun).tasks 1 event.id := by
    rw [named]
    exact ⟨⟨_, List.mem_cons_of_mem _ List.mem_cons_self, rfl⟩,
      fun task among _ => List.all_eq_true.mp ended task among⟩
  have marked := always.finish.marked 1 event member finished
  simp [undelivered, alive] at marked

end Outcome
end Webhook
end Mnemo
