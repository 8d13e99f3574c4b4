import Mnemo.Lib.Chronicle
import Mnemo.Webhook.Effects

/-!
# Deleted webhooks and lost updates

What is stored is compared with what the calls have asked for, one after the other.  An update that
stores its copy after another change of the subscription undoes that change.
-/

namespace Mnemo
namespace Webhook
namespace Removal

open Program (Crew Task)
open StateMachine (Always Guarded)

/-- What the calls have asked for. -/
structure Asked where
  /-- The subscriptions, with the changes that the calls make in the order in which they store. -/
  subscriptions : Uuid → Option MemoryWebhookSubscription
  /-- The webhooks that were there when they were deleted. -/
  deleted : List Uuid
  /-- A webhook that was deleted and an event that was buffered for it afterwards. -/
  late : List (Uuid × Uuid)

/-- What is put down of a command. -/
def watch (config : WebhookDeliveryConfig) (state : WebhookState) (asked : Asked) :
    Phase → WebhookCommand → WebhookInput → Asked
  | .copied req copy, .putWebhook updated, _ =>
      { asked with
        subscriptions := Function.update asked.subscriptions copy.id
          ((asked.subscriptions copy.id).map (req.apply updated.updatedAt)) }
  | _, .putWebhook webhook, _ =>
      { asked with
        subscriptions := Function.update asked.subscriptions webhook.id (some webhook) }
  | _, .removeWebhook webhookId, _ =>
      { asked with
        subscriptions := Function.update asked.subscriptions webhookId none
        deleted := if (state.webhooks webhookId).isSome then webhookId :: asked.deleted
          else asked.deleted }
  | _, .pushEvents webhookIds userId eventType requestId payload createdAt, input =>
      let queued := (state.pushAll config input.id userId eventType requestId payload createdAt
        webhookIds).1
      { asked with late := queued.filter (asked.deleted.contains ·.1) ++ asked.late }
  | _, _, _ => asked

/-- Before anything was asked for. -/
def unasked (state : WebhookState) : Asked :=
  { subscriptions := state.webhooks, deleted := [], late := [] }

/-- The subscriptions are what the calls have asked for, no deleted one is there, and no event that
was buffered after a deletion was sent to the receiver. -/
structure Heeded (state : WebhookState) (asked : Asked) : Prop where
  subscriptions : state.webhooks = asked.subscriptions
  deleted : ∀ webhookId ∈ asked.deleted, state.webhooks webhookId = none
  late : ∀ pair ∈ asked.late, ∀ answer, (pair.1, pair.2, answer) ∉ state.posts

/-- Two subscriptions agree in everything that the request leaves as it is. -/
structure AgreeBeside (req : UpdateMemoryWebhookRequest)
    (current copy : MemoryWebhookSubscription) : Prop where
  id : current.id = copy.id
  userId : current.userId = copy.userId
  userIdentifier : current.userIdentifier = copy.userIdentifier
  createdAt : current.createdAt = copy.createdAt
  targetUrl : req.targetUrl = none → current.targetUrl = copy.targetUrl
  signingSecret : req.signingSecret = none → current.signingSecret = copy.signingSecret
  events : (req.events.filter fun events => !events.isEmpty) = none → current.events = copy.events
  enabled : req.enabled = none → current.enabled = copy.enabled

theorem apply_eq_iff (req : UpdateMemoryWebhookRequest) (now : DateTime)
    (current copy : MemoryWebhookSubscription) :
    req.apply now current = req.apply now copy ↔ AgreeBeside req current copy := by
  constructor
  · intro same
    simp only [UpdateMemoryWebhookRequest.apply, MemoryWebhookSubscription.mk.injEq] at same
    obtain ⟨id, userId, userIdentifier, targetUrl, signingSecret, events, enabled, createdAt, _⟩ :=
      same
    refine ⟨id, userId, userIdentifier, createdAt, ?_, ?_, ?_, ?_⟩
    · intro unset
      simpa [unset] using targetUrl
    · intro unset
      simpa [unset] using signingSecret
    · intro unset
      simpa only [unset, Option.getD_none] using events
    · intro unset
      simpa [unset] using enabled
  · intro agree
    have given {Value : Type} {change : Option Value} {one two : Value}
        (same : change = none → one = two) : change.getD one = change.getD two := by
      cases change with
      | none => exact same rfl
      | some value => rfl
    simp only [UpdateMemoryWebhookRequest.apply, MemoryWebhookSubscription.mk.injEq]
    refine ⟨agree.id, agree.userId, agree.userIdentifier, given fun unset => ?_,
      given fun unset => ?_, given agree.events, given agree.enabled, agree.createdAt, trivial⟩
    · exact agree.targetUrl (Option.map_eq_none_iff.mp unset)
    · exact agree.signingSecret (Option.map_eq_none_iff.mp unset)

section Runs

variable (setting : WebhookSetting)

/-- The orders of the tasks, with their phases. -/
abbrev phaseOrders : Crew.Orders WebhookCommand WebhookCommand.Reply MnemoError WebhookJob Phase :=
  webhookOrders setting phaseProtocol Phase.begins Phase.handsOn

/-- A crew, with what the calls have asked for. -/
abbrev AskedCrew := WebhookCrew Phase × Asked

/-- One step of the tasks, and what is put down of it. -/
abbrev removalStep : AskedCrew → WebhookEvent → AskedCrew :=
  Crew.chronicle (exec setting.delivery) (phaseOrders setting) (watch setting.delivery)

/-- When an update stores its copy, the subscription is still there, and agrees with the copy in
everything that the request leaves as it is. -/
def StoresCurrent (state : WebhookState) : Phase → WebhookCommand → Prop
  | .copied req copy, .putWebhook _ =>
      ∃ current, state.webhooks copy.id = some current ∧ AgreeBeside req current copy
  | _, _ => True

/-- No update stores an old copy. -/
def WritesCurrent (crew : AskedCrew) : WebhookEvent → Prop
  | .advance position _ =>
      match crew.1.tasks[position]? with
      | some ⟨_, .perform command _, phase⟩ => StoresCurrent crew.1.shared phase command
      | _ => True
  | _ => True

/-- Subscriptions are stored under their identifiers, and these and those of the events were
drawn. -/
structure Numbered (state : WebhookState) : Prop where
  filed : ∀ webhookId webhook, state.webhooks webhookId = some webhook → webhook.id = webhookId
  webhooks : ∀ webhookId, state.webhooks webhookId ≠ none → webhookId ∈ state.issued
  events : EventsIssued state
  posts : ∀ webhookId eventId answer, (webhookId, eventId, answer) ∈ state.posts →
    eventId ∈ state.issued

end Runs

/-! ## What is put down -/

section Watch

variable {config : WebhookDeliveryConfig} {state : WebhookState} {asked : Asked} {phase : Phase}
  {command : WebhookCommand} {input : WebhookInput}

theorem watch_of_remove (webhookId : Uuid) :
    watch config state asked phase (.removeWebhook webhookId) input =
      { asked with
        subscriptions := Function.update asked.subscriptions webhookId none
        deleted := if (state.webhooks webhookId).isSome then webhookId :: asked.deleted
          else asked.deleted } := by
  cases phase <;> rfl

theorem watch_of_other (putting : ∀ webhook, command ≠ .putWebhook webhook)
    (removing : ∀ webhookId, command ≠ .removeWebhook webhookId) :
    (watch config state asked phase command input).subscriptions = asked.subscriptions ∧
      (watch config state asked phase command input).deleted = asked.deleted := by
  unfold watch
  split
  · exact absurd rfl (putting _)
  · exact absurd rfl (putting _)
  · exact absurd rfl (removing _)
  · exact ⟨rfl, rfl⟩
  · exact ⟨rfl, rfl⟩

theorem mem_deleted_watch {webhookId : Uuid}
    (member : webhookId ∈ (watch config state asked phase command input).deleted) :
    webhookId ∈ asked.deleted ∨
      command = .removeWebhook webhookId ∧ state.webhooks webhookId ≠ none := by
  unfold watch at member
  split at member
  · exact .inl member
  · exact .inl member
  · rename_i other _
    dsimp only at member
    split at member
    · rename_i there
      rcases List.mem_cons.mp member with rfl | old
      · exact .inr ⟨rfl, Option.isSome_iff_ne_none.mp there⟩
      · exact .inl old
    · exact .inl member
  · exact .inl member
  · exact .inl member

theorem deleted_subset_watch :
    asked.deleted ⊆ (watch config state asked phase command input).deleted := by
  unfold watch
  split
  · exact List.Subset.refl _
  · exact List.Subset.refl _
  · dsimp only
    split
    · exact List.subset_cons_self _ _
    · exact List.Subset.refl _
  · exact List.Subset.refl _
  · exact List.Subset.refl _

theorem mem_late_watch {pair : Uuid × Uuid}
    (member : pair ∈ (watch config state asked phase command input).late) :
    pair ∈ asked.late ∨ pair.1 ∈ asked.deleted ∧ pair.2 ∉ state.issued ∧
      pair.2 ∈ (perform config input state command).2.issued := by
  unfold watch at member
  split at member
  · exact .inl member
  · exact .inl member
  · exact .inl member
  · rename_i webhookIds userId eventType requestId payload createdAt
    rcases List.mem_append.mp member with new | old
    · obtain ⟨queued, gone⟩ := List.mem_filter.mp new
      have pushed := pushed_pushAll config input.id userId eventType requestId payload createdAt
        state webhookIds
      exact .inr ⟨by simpa using gone, pushed.queued pair queued⟩
    · exact .inl old
  · exact .inl member

end Watch

/-! ## The invariant -/

/-- Identifiers are used for one webhook only, copies are of webhooks that were there, and events
that came too late are in nobody's hands. -/
structure Watched (state : WebhookState) (tasks : List (WebhookTask Phase)) (asked : Asked) :
    Prop where
  numbered : Numbered state
  deleted : ∀ webhookId ∈ asked.deleted, webhookId ∈ state.issued
  drawn : ∀ task ∈ tasks, ∀ webhookId, task.state = .drawn webhookId →
    webhookId ∈ state.issued ∧ state.webhooks webhookId = none ∧ webhookId ∉ asked.deleted
  apart : ∀ (first second : Nat) (one two : WebhookTask Phase) (webhookId : Uuid),
    tasks[first]? = some one → tasks[second]? = some two →
      one.state = .drawn webhookId → two.state = .drawn webhookId → first = second
  copied : ∀ task ∈ tasks, ∀ req copy, task.state = .copied req copy →
    state.webhooks copy.id ≠ none ∨ copy.id ∈ asked.deleted
  concerns : ∀ task ∈ tasks, ∀ webhookId eventId, task.state.Concerns webhookId eventId →
    eventId ∈ state.issued
  late : ∀ pair ∈ asked.late, pair.1 ∈ asked.deleted ∧ pair.2 ∈ state.issued ∧
    (∀ task ∈ tasks, ¬task.state.HasRead pair.1 pair.2) ∧
      ∀ answer, (pair.1, pair.2, answer) ∉ state.posts

section Step

variable (config : WebhookDeliveryConfig) {state : WebhookState}
  {tasks : List (WebhookTask Phase)} {asked : Asked} {position : Nat} {job : WebhookJob}
  {command : WebhookCommand} {continuation : Except MnemoError command.Reply →
    WebhookProgram (List WebhookJob)} {phase : Phase} (input : WebhookInput)

theorem Watched.put {webhook : MemoryWebhookSubscription} (watched : Watched state tasks asked)
    {task : WebhookTask Phase} (found : tasks[position]? = some task)
    (allows : task.state.Allows (.putWebhook webhook)) :
    webhook.id ∈ state.issued ∧ ∀ other one, tasks[other]? = some one →
      one.state = .drawn webhook.id → other = position := by
  have member : task ∈ tasks := List.mem_of_getElem? found
  cases moved : task.state with
  | drawn id =>
    rw [moved] at allows
    obtain rfl : webhook.id = id := allows
    refine ⟨(watched.drawn task member webhook.id moved).1, fun other one there drawn => ?_⟩
    exact watched.apart other position one task webhook.id there found drawn moved
  | copied req copy =>
    rw [moved] at allows
    obtain ⟨now, rfl⟩ : ∃ now, webhook = req.apply now copy := allows
    have registered := watched.copied task member req copy moved
    refine ⟨?_, fun other one there drawn => ?_⟩
    · rcases registered with stored | gone
      · exact watched.numbered.webhooks copy.id stored
      · exact watched.deleted copy.id gone
    · have unused := watched.drawn one (List.mem_of_getElem? there) copy.id drawn
      rcases registered with stored | gone
      · exact absurd unused.2.1 stored
      · exact absurd gone unused.2.2
  | _ => rw [moved] at allows; exact allows.elim

theorem Numbered.perform (numbered : Numbered state)
    (putting : ∀ webhook, command = .putWebhook webhook → webhook.id ∈ state.issued)
    (sending : ∀ webhook event, command = .send webhook event → event.id ∈ state.issued) :
    Numbered (perform config input state command).2 := by
  have grows := issued_perform config input state command
  refine ⟨fun webhookId webhook stored => ?_, fun webhookId stored => ?_,
    numbered.events.perform config input command, fun webhookId eventId answer sent => ?_⟩
  · rcases webhooks_perform_eq_some config input state stored with old | ⟨_, named⟩
    · exact numbered.filed webhookId webhook old
    · exact named
  · obtain ⟨webhook, there⟩ := Option.ne_none_iff_exists'.mp stored
    rcases webhooks_perform_eq_some config input state there with old | ⟨new, rfl⟩
    · exact grows (numbered.webhooks webhookId (by simp [old]))
    · exact grows (putting webhook new)
  · rcases mem_posts_perform config input state sent with old | ⟨webhook, event, new, same⟩
    · exact grows (numbered.posts webhookId eventId answer old)
    · obtain ⟨_, same⟩ := Prod.mk.inj same
      rw [(Prod.mk.inj same).1]
      exact grows (sending webhook event new)

/-- Every command keeps the invariant, as long as the calls were heeded. -/
theorem Watched.perform (watched : Watched state tasks asked) (heeded : Heeded state asked)
    (found : tasks[position]? = some ⟨job, .perform command continuation, phase⟩)
    (allows : phase.Allows command) :
    Watched (perform config input state command).2
      (tasks.set position ⟨job, continuation (.ok (perform config input state command).1),
        phase.after command (perform config input state command).1⟩)
      (watch config state asked phase command input) := by
  have grows := issued_perform config input state command
  have mine := List.mem_of_getElem? found
  have putting (webhook : MemoryWebhookSubscription) (same : command = .putWebhook webhook) :
      webhook.id ∈ state.issued ∧ ∀ other one, tasks[other]? = some one →
        one.state = .drawn webhook.id → other = position := by
    subst same
    exact watched.put found allows
  have sending (webhook : MemoryWebhookSubscription) (event : MemoryWebhookEventRecord)
      (same : command = .send webhook event) : phase.HasRead webhook.id event.id := by
    subst same
    cases phase with
    | delivering webhookId eventId => exact ⟨allows.1.symm, allows.2.symm⟩
    | _ => exact allows.elim
  have unused {webhookId : Uuid} (free : state.webhooks webhookId = none)
      (kept : webhookId ∉ asked.deleted)
      (elsewhere : ∀ webhook, command = .putWebhook webhook → webhook.id ≠ webhookId) :
      (Webhook.perform config input state command).2.webhooks webhookId = none ∧
        webhookId ∉ (watch config state asked phase command input).deleted := by
    constructor
    · by_contra stored
      obtain ⟨webhook, there⟩ := Option.ne_none_iff_exists'.mp stored
      rcases webhooks_perform_eq_some config input state there with old | ⟨new, named⟩
      · exact nomatch free.symm.trans old
      · exact elsewhere webhook new named
    · intro gone
      rcases mem_deleted_watch gone with old | ⟨_, there⟩
      · exact kept old
      · exact there free
  refine ⟨?_, ?_, ?_, ?_, ?_, ?_, ?_⟩
  · exact watched.numbered.perform config input (fun webhook same => (putting webhook same).1)
      fun webhook event same => watched.concerns _ mine _ _ (Phase.concerns_of_hasRead (sending webhook event same))
  · intro webhookId gone
    rcases mem_deleted_watch gone with old | ⟨_, there⟩
    · exact grows (watched.deleted webhookId old)
    · exact grows (watched.numbered.webhooks webhookId there)
  · -- a drawn identifier stays free until its task stores the subscription
    intro task member webhookId drawn
    obtain ⟨place, there⟩ := List.mem_iff_getElem?.mp member
    rcases Crew.getElem?_set_cases there with ⟨_, rfl⟩ | ⟨different, old⟩
    · rcases Phase.after_drawn drawn with same | draws
      · obtain ⟨issued, free, kept⟩ := watched.drawn _ mine webhookId same
        refine ⟨grows issued, unused free kept fun webhook put => ?_⟩
        subst put
        obtain rfl : phase = .drawn webhookId := same
        exact nomatch drawn
      · obtain ⟨fresh, issued, rfl⟩ := draws_fresh config input draws
        refine ⟨issued, unused ?_ (fun gone => fresh (watched.deleted webhookId gone)) nofun⟩
        by_contra stored
        exact fresh (watched.numbered.webhooks webhookId stored)
    · obtain ⟨issued, free, kept⟩ := watched.drawn task (List.mem_of_getElem? old) webhookId drawn
      refine ⟨grows issued, unused free kept fun webhook put named => ?_⟩
      exact different ((putting webhook put).2 place task old (named ▸ drawn))
  · have other (place : Nat) (task : WebhookTask Phase) (webhookId : Uuid)
        (there : tasks[place]? = some task) (drawn : task.state = .drawn webhookId)
        (moved : phase.after command (Webhook.perform config input state command).1 =
          .drawn webhookId) : place = position := by
      rcases Phase.after_drawn moved with same | draws
      · exact watched.apart place position task _ webhookId there found drawn same
      · obtain ⟨fresh, _, _⟩ := draws_fresh config input draws
        exact absurd (watched.drawn task (List.mem_of_getElem? there) webhookId drawn).1 fresh
    intro first second one two webhookId there here drawn also
    rcases Crew.getElem?_set_cases there with ⟨rfl, rfl⟩ | ⟨_, one_old⟩
    · rcases Crew.getElem?_set_cases here with ⟨rfl, rfl⟩ | ⟨_, two_old⟩
      · rfl
      · exact (other second two webhookId two_old also drawn).symm
    · rcases Crew.getElem?_set_cases here with ⟨rfl, rfl⟩ | ⟨_, two_old⟩
      · exact other first one webhookId one_old drawn also
      · exact watched.apart first second one two webhookId one_old two_old drawn also
  · intro task member req copy held
    have registered (before : state.webhooks copy.id ≠ none ∨ copy.id ∈ asked.deleted) :
        (Webhook.perform config input state command).2.webhooks copy.id ≠ none ∨
          copy.id ∈ (watch config state asked phase command input).deleted := by
      by_cases missing : (Webhook.perform config input state command).2.webhooks copy.id = none
      · right
        rcases before with stored | gone
        · rcases webhooks_perform_eq_none config input state missing with absent | rfl
          · exact absurd absent stored
          · rw [watch_of_remove]
            simp [Option.isSome_iff_ne_none, stored]
        · exact deleted_subset_watch gone
      · exact .inl missing
    apply registered
    rcases List.mem_or_eq_of_mem_set member with old | rfl
    · exact watched.copied task old req copy held
    · rcases Phase.after_copied held with same | ⟨id, finds⟩
      · exact watched.copied _ mine req copy same
      · left
        obtain ⟨_, stored⟩ := finds_stored config input finds
        rw [watched.numbered.filed id copy stored, stored]
        exact nofun
  · intro task member webhookId eventId concerns
    rcases List.mem_or_eq_of_mem_set member with old | rfl
    · exact grows (watched.concerns task old webhookId eventId concerns)
    · rcases Phase.after_concerns concerns with before | announced
      · exact grows (watched.concerns _ mine webhookId eventId before)
      · exact announces_issued config input watched.numbered.events announced
  · intro pair late
    rcases mem_late_watch late with old | ⟨gone, fresh, issued⟩
    · obtain ⟨gone, issued, unread, unsent⟩ := watched.late pair old
      refine ⟨deleted_subset_watch gone, grows issued, fun task member read => ?_,
        fun answer sent => ?_⟩
      · rcases List.mem_or_eq_of_mem_set member with older | rfl
        · exact unread task older read
        · rcases Phase.after_hasRead allows read with before | ⟨_, webhook, finds⟩
          · exact unread _ mine before
          · obtain ⟨_, stored⟩ := finds_stored config input finds
            exact nomatch (heeded.deleted pair.1 gone).symm.trans stored
      · rcases mem_posts_perform config input state sent with older | ⟨webhook, event, new, same⟩
        · exact unsent answer older
        · obtain ⟨one, rest⟩ := Prod.mk.inj same
          have read := sending webhook event new
          rw [← one, ← (Prod.mk.inj rest).1] at read
          exact unread _ mine read
    · have nobody (task : WebhookTask Phase) (member : task ∈ tasks) :
          ¬task.state.Concerns pair.1 pair.2 :=
        fun concerns => fresh (watched.concerns task member pair.1 pair.2 concerns)
      refine ⟨deleted_subset_watch gone, issued, fun task member read => ?_,
        fun answer sent => ?_⟩
      · rcases List.mem_or_eq_of_mem_set member with older | rfl
        · exact nobody task older (Phase.concerns_of_hasRead read)
        · rcases Phase.after_hasRead allows read with before | ⟨begins, _, _⟩
          · exact nobody _ mine (Phase.concerns_of_hasRead before)
          · subst begins
            exact nobody _ mine ⟨rfl, rfl⟩
      · rcases mem_posts_perform config input state sent with older | ⟨webhook, event, new, same⟩
        · exact fresh (watched.numbered.posts pair.1 pair.2 answer older)
        · obtain ⟨one, rest⟩ := Prod.mk.inj same
          have read := sending webhook event new
          rw [← one, ← (Prod.mk.inj rest).1] at read
          exact nobody _ mine (Phase.concerns_of_hasRead read)

/-- The calls are heeded after a command exactly if it is no update that stores an old copy. -/
theorem heeded_perform_iff (watched : Watched state tasks asked) (heeded : Heeded state asked)
    (found : tasks[position]? = some ⟨job, .perform command continuation, phase⟩)
    (allows : phase.Allows command) :
    Heeded (perform config input state command).2 (watch config state asked phase command input) ↔
      StoresCurrent state phase command := by
  have mine := List.mem_of_getElem? found
  have unsent := (watched.perform config input heeded found allows).late
  by_cases putting : ∃ webhook, command = .putWebhook webhook
  · obtain ⟨webhook, rfl⟩ := putting
    cases phase with
    | drawn id =>
      obtain rfl : webhook.id = id := allows
      obtain ⟨_, _, kept⟩ := watched.drawn _ mine webhook.id rfl
      refine iff_of_true ⟨?_, fun other gone => ?_, fun pair late => (unsent pair late).2.2.2⟩
        trivial
      · exact congrArg (Function.update · webhook.id (some webhook)) heeded.subscriptions
      · have different : other ≠ webhook.id := by
          rintro rfl
          exact kept gone
        exact (Function.update_of_ne different _ _).trans (heeded.deleted other gone)
    | copied req copy =>
      obtain ⟨now, rfl⟩ : ∃ now, webhook = req.apply now copy := allows
      have stores : (perform config input state (.putWebhook (req.apply now copy))).2.webhooks =
          Function.update state.webhooks copy.id (some (req.apply now copy)) := rfl
      have asks : (watch config state asked (.copied req copy)
            (.putWebhook (req.apply now copy)) input).subscriptions =
          Function.update asked.subscriptions copy.id
            ((asked.subscriptions copy.id).map (req.apply now)) := rfl
      constructor
      · intro after
        have same := congrFun after.subscriptions copy.id
        rw [stores, asks, Function.update_self, Function.update_self] at same
        obtain ⟨current, there, equal⟩ := Option.map_eq_some_iff.mp same.symm
        rw [← heeded.subscriptions] at there
        exact ⟨current, there, (apply_eq_iff req now current copy).mp equal⟩
      · rintro ⟨current, there, agree⟩
        refine ⟨?_, fun other gone => ?_, fun pair late => (unsent pair late).2.2.2⟩
        · rw [stores, asks, ← heeded.subscriptions, there, Option.map_some,
            (apply_eq_iff req now current copy).mpr agree]
        · have different : other ≠ copy.id := by
            rintro rfl
            exact nomatch (heeded.deleted copy.id gone).symm.trans there
          rw [stores, Function.update_of_ne different]
          exact heeded.deleted other gone
    | _ => exact allows.elim
  · have storing (webhook : MemoryWebhookSubscription) : command ≠ .putWebhook webhook :=
      fun same => putting ⟨webhook, same⟩
    have current : StoresCurrent state phase command := by
      unfold StoresCurrent
      split
      · exact absurd rfl (storing _)
      · trivial
    refine iff_of_true ?_ current
    by_cases removing : ∃ webhookId, command = .removeWebhook webhookId
    · obtain ⟨webhookId, rfl⟩ := removing
      refine ⟨?_, fun other gone => ?_, fun pair late => (unsent pair late).2.2.2⟩
      · rw [watch_of_remove]
        exact congrArg (Function.update · webhookId none) heeded.subscriptions
      · change Function.update state.webhooks webhookId none other = none
        rcases eq_or_ne other webhookId with rfl | different
        · exact Function.update_self _ _ _
        · rw [Function.update_of_ne different]
          rcases mem_deleted_watch gone with old | ⟨same, _⟩
          · exact heeded.deleted other old
          · exact absurd (WebhookCommand.removeWebhook.inj same).symm different
    · have keeping (webhookId : Uuid) : command ≠ .removeWebhook webhookId :=
        fun same => removing ⟨webhookId, same⟩
      obtain ⟨subscriptions, deleted⟩ :
          (watch config state asked phase command input).subscriptions = asked.subscriptions ∧
            (watch config state asked phase command input).deleted = asked.deleted :=
        watch_of_other storing keeping
      have same := webhooks_perform config input state storing keeping
      refine ⟨?_, fun other gone => ?_, fun pair late => (unsent pair late).2.2.2⟩
      · rw [same, subscriptions]
        exact heeded.subscriptions
      · rw [same]
        rw [deleted] at gone
        exact heeded.deleted other gone

end Step

/-! ## Tasks that come and go -/

section Tasks

variable {state : WebhookState} {tasks : List (WebhookTask Phase)} {asked : Asked}

theorem Watched.concat (watched : Watched state tasks asked) {task : WebhookTask Phase}
    (drawn : ∀ webhookId, task.state ≠ .drawn webhookId)
    (copied : ∀ req copy, task.state ≠ .copied req copy)
    (concerns : ∀ webhookId eventId, task.state.Concerns webhookId eventId →
      eventId ∈ state.issued)
    (unread : ∀ webhookId eventId, ¬task.state.HasRead webhookId eventId) :
    Watched state (tasks ++ [task]) asked := by
  refine ⟨watched.numbered, watched.deleted, fun other member webhookId has => ?_,
    fun first second one two webhookId there here has also => ?_,
    fun other member req copy has => ?_, fun other member webhookId eventId has => ?_,
    fun pair late => ?_⟩
  · rcases List.mem_append.mp member with old | new
    · exact watched.drawn other old webhookId has
    · rw [List.mem_singleton.mp new] at has
      exact absurd has (drawn webhookId)
  · rcases Crew.getElem?_concat_cases there with ⟨_, rfl⟩ | one_old
    · exact absurd has (drawn webhookId)
    · rcases Crew.getElem?_concat_cases here with ⟨_, rfl⟩ | two_old
      · exact absurd also (drawn webhookId)
      · exact watched.apart first second one two webhookId one_old two_old has also
  · rcases List.mem_append.mp member with old | new
    · exact watched.copied other old req copy has
    · rw [List.mem_singleton.mp new] at has
      exact absurd has (copied req copy)
  · rcases List.mem_append.mp member with old | new
    · exact watched.concerns other old webhookId eventId has
    · rw [List.mem_singleton.mp new] at has
      exact concerns webhookId eventId has
  · obtain ⟨gone, issued, nobody, unsent⟩ := watched.late pair late
    refine ⟨gone, issued, fun other member => ?_, unsent⟩
    rcases List.mem_append.mp member with old | new
    · exact nobody other old
    · rw [List.mem_singleton.mp new]
      exact unread pair.1 pair.2

theorem Watched.handOn (watched : Watched state tasks asked) {position : Nat} {job : WebhookJob}
    {jobs : List WebhookJob} {phase : Phase} (rest : List WebhookJob)
    (found : tasks[position]? = some ⟨job, .done jobs, phase⟩) :
    Watched state (tasks.set position ⟨job, .done rest, phase.handsOn⟩) asked := by
  have mine := List.mem_of_getElem? found
  have less (holds : Phase → Prop) (idle : ¬holds .idle) (after : holds phase.handsOn) :
      holds phase := by
    cases phase <;> first | exact after | exact absurd after idle
  refine ⟨watched.numbered, watched.deleted, fun other member webhookId has => ?_,
    fun first second one two webhookId there here has also => ?_,
    fun other member req copy has => ?_, fun other member webhookId eventId has => ?_,
    fun pair late => ?_⟩
  · rcases List.mem_or_eq_of_mem_set member with old | rfl
    · exact watched.drawn other old webhookId has
    · exact watched.drawn _ mine webhookId (less (· = .drawn webhookId) nofun has)
  · have before {place : Nat} {task : WebhookTask Phase}
        (there : (tasks.set position ⟨job, .done rest, phase.handsOn⟩)[place]? = some task)
        (drawn : task.state = .drawn webhookId) :
        ∃ old, tasks[place]? = some old ∧ old.state = .drawn webhookId := by
      rcases Crew.getElem?_set_cases there with ⟨rfl, rfl⟩ | ⟨_, old⟩
      · exact ⟨_, found, less (· = .drawn webhookId) nofun drawn⟩
      · exact ⟨task, old, drawn⟩
    obtain ⟨one, one_old, one_drawn⟩ := before there has
    obtain ⟨two, two_old, two_drawn⟩ := before here also
    exact watched.apart first second one two webhookId one_old two_old one_drawn two_drawn
  · rcases List.mem_or_eq_of_mem_set member with old | rfl
    · exact watched.copied other old req copy has
    · exact watched.copied _ mine req copy (less (· = .copied req copy) nofun has)
  · rcases List.mem_or_eq_of_mem_set member with old | rfl
    · exact watched.concerns other old webhookId eventId has
    · exact watched.concerns _ mine webhookId eventId
        (less (·.Concerns webhookId eventId) id has)
  · obtain ⟨gone, issued, nobody, unsent⟩ := watched.late pair late
    refine ⟨gone, issued, fun other member has => ?_, unsent⟩
    rcases List.mem_or_eq_of_mem_set member with old | rfl
    · exact nobody other old has
    · exact nobody _ mine (less (·.HasRead pair.1 pair.2) id has)

end Tasks

/-! ## Runs -/

section Sound

variable {setting : WebhookSetting}

/-- The invariant holds, and every task follows the protocol. -/
abbrev SoundCrew (setting : WebhookSetting) : AskedCrew → Prop :=
  Crew.SoundWith (phaseOrders setting) Phase.Ends Watched

theorem sound_removalStep (crew : AskedCrew) (event : WebhookEvent)
    (sound : SoundCrew setting crew) (heeded : Heeded crew.1.shared crew.2) :
    SoundCrew setting (removalStep setting crew event) := by
  let before (crew : AskedCrew) (_ : WebhookEvent) : Prop := Heeded crew.1.shared crew.2
  have now : before crew event := heeded
  apply Crew.SoundWith.step (follows_webhookHandler setting) ?_ ?_ ?_ ?_ sound now
  · exact fun phase next rest ends => Phase.ends_handsOn ends
  · intro crew asked job outside watched
    cases job with
    | deliver webhookId eventId => exact nomatch outside
    | _ => exact watched.concat nofun nofun nofun nofun
  · intro crew asked position job command continuation phase input found allows heeded watched
    refine ⟨?_, watched.perform setting.delivery input heeded found allows⟩
    cases command with
    | getWebhook webhookId => exact fun webhook there => watched.numbered.filed webhookId webhook there
    | getEvent webhookId eventId => exact fun event there => (findEvent_eq_some there).2
    | _ => exact trivial
  · intro crew asked position job next rest phase found ends watched
    have member := List.mem_of_getElem? found
    have handed := watched.handOn rest found
    have delivers : ∃ webhookId eventId, next = .deliver webhookId eventId ∧
        phase.Concerns webhookId eventId := by
      cases phase with
      | queuing queued =>
        obtain ⟨pair, among, same⟩ := ends next List.mem_cons_self
        exact ⟨pair.1, pair.2, same, among⟩
      | retrying webhookId eventId => exact ⟨webhookId, eventId, (List.cons.inj ends).1, rfl, rfl⟩
      | _ => first | exact ends.elim | cases ends
    obtain ⟨webhookId, eventId, rfl, concerns⟩ := delivers
    apply handed.concat
    · exact nofun
    · exact nofun
    · rintro other event ⟨rfl, rfl⟩
      exact watched.concerns _ member _ _ concerns
    · exact nofun

theorem heeded_removalStep_iff (crew : AskedCrew) (event : WebhookEvent)
    (sound : SoundCrew setting crew) (heeded : Heeded crew.1.shared crew.2) :
    Heeded (removalStep setting crew event).1.shared (removalStep setting crew event).2 ↔
      WritesCurrent crew event := by
  obtain ⟨crew, asked⟩ := crew
  cases event with
  | begin job =>
    refine iff_of_true ?_ trivial
    unfold removalStep Crew.chronicle Crew.step Crew.noted
    dsimp only
    split <;> exact heeded
  | handOn position =>
    refine iff_of_true ?_ trivial
    unfold removalStep Crew.chronicle Crew.step Crew.noted
    dsimp only
    split <;> exact heeded
  | advance position input =>
    cases found : crew.tasks[position]? with
    | none => simpa [removalStep, Crew.chronicle, Crew.step, Crew.noted, WritesCurrent, found]
    | some task =>
      obtain ⟨job, program, phase⟩ := task
      cases program with
      | done jobs =>
        simpa [removalStep, Crew.chronicle, Crew.step, Crew.noted, WritesCurrent, found]
      | fail error =>
        simpa [removalStep, Crew.chronicle, Crew.step, Crew.noted, WritesCurrent, found]
      | perform command continuation =>
        have follows := sound.follows _ (List.mem_of_getElem? found)
        cases follows with
        | perform allows _ =>
          have decided := heeded_perform_iff setting.delivery input sound.holds heeded
            found allows
          simpa [removalStep, Crew.chronicle, Crew.step, Crew.noted, WritesCurrent, found,
            exec] using decided

/-- Deleted webhooks stay deleted, nothing that happens afterwards is sent to them, and no update is
lost, exactly as long as no update stores its copy of a subscription that was deleted or changed
elsewhere in the meantime. -/
theorem heeded_iff_writesCurrent (setting : WebhookSetting) (state : WebhookState)
    (numbered : Numbered state) (events : List WebhookEvent) :
    Always (removalStep setting) (fun crew => Heeded crew.1.shared crew.2)
        (Crew.idle state, unasked state) events ↔
      Guarded (removalStep setting) WritesCurrent (Crew.idle state, unasked state) events := by
  have watched : Watched state [] (unasked state) := by
    refine ⟨numbered, ?_, ?_, ?_, ?_, ?_, ?_⟩
    · exact fun _ member => nomatch member
    · exact fun _ member => nomatch member
    · exact fun first _ _ _ _ there => nomatch there
    · exact fun _ member => nomatch member
    · exact fun _ member => nomatch member
    · exact fun _ member => nomatch member
  have heeded : Heeded state (unasked state) := by
    refine ⟨rfl, ?_, ?_⟩
    · exact fun _ member => nomatch member
    · exact fun _ member => nomatch member
  apply StateMachine.always_iff_guarded (SoundCrew setting)
  · exact sound_removalStep
  · exact heeded_removalStep_iff
  · exact .idle watched
  · exact heeded

end Sound

/-! ## A webhook that comes back -/

/-- One subscription to facts of a user, which is stored under the first identifier. -/
def storedHook : WebhookState :=
  { quietState (fun id => if id = 1 then some (factHook 1 7) else none) with issued := [1] }

/-- A request that switches a webhook off. -/
def switchOff : UpdateMemoryWebhookRequest where
  targetUrl := none
  signingSecret := none
  events := none
  enabled := some false

/-- An update copies the subscription, which is deleted before the copy is stored. -/
def revivingRun : List WebhookEvent :=
  [.begin (.update 1 switchOff none), .advance 0 (failingAt 0), .advance 0 (failingAt 0),
    .begin (.delete 1), .advance 1 (failingAt 0), .advance 0 (failingAt 0)]

theorem numbered_storedHook : Numbered storedHook := by
  have only (webhookId : Uuid) (stored : storedHook.webhooks webhookId ≠ none) : webhookId = 1 := by
    by_contra different
    exact stored (if_neg different)
  refine ⟨fun webhookId webhook stored => ?_, fun webhookId stored => ?_, ?_, ?_⟩
  · obtain rfl := only webhookId (by rw [stored]; exact nofun)
    obtain rfl : factHook 1 7 = webhook := Option.some.inj stored
    rfl
  · rw [only webhookId stored]
    exact List.mem_singleton_self 1
  · exact fun _ _ member => nomatch member
  · exact fun _ _ _ member => nomatch member

/-- When the copy is stored before the deletion, the webhook stays deleted. -/
theorem heeded_iff_writesCurrent_inTime :
    let events : List WebhookEvent := [.begin (.update 1 switchOff none), .advance 0 (failingAt 0),
      .advance 0 (failingAt 0), .advance 0 (failingAt 0), .begin (.delete 1),
      .advance 1 (failingAt 0)]
    Numbered storedHook ∧
      Always (removalStep briskSetting) (fun crew => Heeded crew.1.shared crew.2)
        (Crew.idle storedHook, unasked storedHook) events := by
  have agree : AgreeBeside switchOff (factHook 1 7) (factHook 1 7) :=
    ⟨rfl, rfl, rfl, rfl, fun _ => rfl, fun _ => rfl, fun _ => rfl, fun _ => rfl⟩
  have guarded : Guarded (removalStep briskSetting) WritesCurrent
      (Crew.idle storedHook, unasked storedHook)
      [.begin (.update 1 switchOff none), .advance 0 (failingAt 0), .advance 0 (failingAt 0),
        .advance 0 (failingAt 0), .begin (.delete 1), .advance 1 (failingAt 0)] :=
    ⟨trivial, trivial, trivial, ⟨factHook 1 7, rfl, agree⟩, trivial, trivial, trivial⟩
  exact ⟨numbered_storedHook,
    (heeded_iff_writesCurrent briskSetting storedHook numbered_storedHook _).mpr guarded⟩

/-- The deleted webhook is back when the copy is stored. -/
theorem deleted_webhook_revived :
    ¬Always (removalStep briskSetting) (fun crew => Heeded crew.1.shared crew.2)
      (Crew.idle storedHook, unasked storedHook) revivingRun := by
  intro always
  have gone : 1 ∈ (StateMachine.finish (removalStep briskSetting)
      (Crew.idle storedHook, unasked storedHook) revivingRun).2.deleted := List.mem_singleton_self 1
  exact nomatch always.finish.deleted 1 gone

end Removal
end Webhook
end Mnemo
