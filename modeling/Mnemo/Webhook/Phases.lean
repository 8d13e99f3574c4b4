import Mnemo.Webhook.Delivery

/-!
# The phases of the tasks

What a task has read, what it has got from a receiver and what it has to do next.
-/

namespace Mnemo
namespace Webhook

open Program (Crew)
open Program.Protocol (Follows)

/-- How far a task has come. -/
inductive Phase where
  /-- Nothing is due. -/
  | idle
  /-- An identifier for a new webhook was drawn. -/
  | drawn (webhookId : Uuid)
  /-- An update has read nothing yet. -/
  | updating (webhookId : Uuid) (req : UpdateMemoryWebhookRequest)
  /-- An update has this copy of the subscription. -/
  | copied (req : UpdateMemoryWebhookRequest) (webhook : MemoryWebhookSubscription)
  /-- These events were buffered, and may be handed on. -/
  | queuing (queued : List (Uuid × Uuid))
  /-- A retry has not reset its event yet. -/
  | resetting (webhookId eventId : Uuid)
  /-- A retry will hand on a delivery. -/
  | retrying (webhookId eventId : Uuid)
  /-- A delivery has read nothing yet. -/
  | starting (webhookId eventId : Uuid)
  /-- A delivery has read the subscription. -/
  | told (webhookId eventId : Uuid)
  /-- A delivery has read an event that was not delivered. -/
  | delivering (webhookId eventId : Uuid)
  /-- The address of the receiver is not safe. -/
  | blocked (webhookId eventId : Uuid)
  /-- The receiver has accepted the event. -/
  | succeeded (webhookId eventId : Uuid)
  /-- A delivery has left its last status, or has nothing to deliver. -/
  | settled

namespace Phase

/-- The phase in which a job begins. -/
def begins : WebhookJob → Phase
  | .deliver webhookId eventId => .starting webhookId eventId
  | .update webhookId req _ => .updating webhookId req
  | .retry webhookId eventId _ _ => .resetting webhookId eventId
  | _ => .idle

/-- The phase after the first job was handed on. -/
def handsOn : Phase → Phase
  | .retrying _ _ => .idle
  | phase => phase

/-- Commands that neither send, nor change subscriptions or events. -/
def Harmless : WebhookCommand → Prop
  | .putWebhook _ | .removeWebhook _ | .pushEvents _ _ _ _ _ _ | .removeEvents _
  | .resetEvent _ _ _ | .updateStatus _ _ _ _ _ _ | .send _ _ => False
  | _ => True

/-- The commands that a task may perform in a phase. -/
def Allows : Phase → WebhookCommand → Prop
  | .idle, .putWebhook _ | .idle, .resetEvent _ _ _ | .idle, .updateStatus _ _ _ _ _ _
  | .idle, .send _ _ => False
  | .idle, _ => True
  | .drawn webhookId, .putWebhook webhook => webhook.id = webhookId
  | .updating webhookId _, .getWebhook other => other = webhookId
  | .updating _ _, _ => False
  | .copied req webhook, .putWebhook updated => ∃ now, updated = req.apply now webhook
  | .resetting webhookId eventId, .resetEvent other event _ => other = webhookId ∧ event = eventId
  | .starting webhookId _, .getWebhook other => other = webhookId
  | .starting _ _, _ => False
  | .told webhookId eventId, .getEvent other event => other = webhookId ∧ event = eventId
  | .told _ _, _ => False
  | .delivering webhookId eventId, .send webhook event =>
      webhook.id = webhookId ∧ event.id = eventId
  | .delivering webhookId eventId, .updateStatus other event _ delivered _ _ =>
      other = webhookId ∧ event = eventId ∧ delivered = false
  | .blocked webhookId eventId, .updateStatus other event _ delivered _ _ =>
      other = webhookId ∧ event = eventId ∧ delivered = false
  | .blocked _ _, _ => False
  | .succeeded webhookId eventId, .updateStatus other event _ delivered _ _ =>
      other = webhookId ∧ event = eventId ∧ delivered = true
  | .succeeded _ _, _ => False
  | _, command => Harmless command

/-- The phase after a reply. -/
def after : Phase → (command : WebhookCommand) → command.Reply → Phase
  | .idle, .freshId, id => .drawn id
  | .idle, .pushEvents _ _ _ _ _ _, queued => .queuing queued
  | .resetting _ _, .resetEvent webhookId eventId force, found =>
      match (found : Option MemoryWebhookEventRecord) with
      | some event => if event.delivered && !force then .idle else .retrying webhookId eventId
      | none => .idle
  | .drawn _, .putWebhook _, _ => .idle
  | .updating _ req, .getWebhook _, found =>
      match (found : Option MemoryWebhookSubscription) with
      | some webhook => .copied req webhook
      | none => .idle
  | .copied _ _, .putWebhook _, _ => .idle
  | .starting webhookId eventId, .getWebhook _, found =>
      if Option.isSome found then .told webhookId eventId else .settled
  | .told webhookId eventId, .getEvent _ _, found =>
      match (found : Option MemoryWebhookEventRecord) with
      | some event => if event.delivered then .settled else .delivering webhookId eventId
      | none => .settled
  | .delivering webhookId eventId, .validateDns _, safe =>
      match (safe : Except String Unit) with
      | .ok _ => .delivering webhookId eventId
      | .error _ => .blocked webhookId eventId
  | .delivering webhookId eventId, .send _ _, outcome =>
      match (outcome : SendOutcome) with
      | .success => .succeeded webhookId eventId
      | _ => .delivering webhookId eventId
  | .delivering webhookId eventId, .updateStatus _ _ _ _ deadLetter _, _ =>
      if deadLetter then .settled else .delivering webhookId eventId
  | .blocked _ _, .updateStatus _ _ _ _ _ _, _ => .settled
  | .succeeded _ _, .updateStatus _ _ _ _ _ _, _ => .settled
  | phase, _, _ => phase

/-- No command fails, and what is read has the identifier under which it is looked up. -/
def Expects : (command : WebhookCommand) → Except MnemoError command.Reply → Prop
  | _, .error _ => False
  | .getWebhook webhookId, .ok found =>
      ∀ webhook : MemoryWebhookSubscription, found = some webhook → webhook.id = webhookId
  | .getEvent _ eventId, .ok found =>
      ∀ event : MemoryWebhookEventRecord, found = some event → event.id = eventId
  | _, .ok _ => True

/-- A task ends with the jobs that its phase announces. -/
def Ends : Phase → Except MnemoError (List WebhookJob) → Prop
  | .queuing queued, .ok jobs => ∀ job ∈ jobs, ∃ pair ∈ queued, job = .deliver pair.1 pair.2
  | .retrying webhookId eventId, .ok jobs => jobs = [.deliver webhookId eventId]
  | .idle, .ok jobs | .settled, .ok jobs => jobs = []
  | .idle, .error _ | .copied _ _, .error _ | .resetting _ _, .error _ | .settled, .error _ => True
  | _, _ => False

end Phase

/-- The protocol of the tasks. -/
def phaseProtocol :
    Program.Protocol WebhookCommand WebhookCommand.Reply MnemoError Phase where
  start := .idle
  allowed := Phase.Allows
  expected _ := Phase.Expects
  next phase command
    | .ok value => phase.after command value
    | .error _ => phase

/-! ## Programs follow the protocol -/

namespace Phase

/-- Commands after which every phase is as it was. -/
def Plain : WebhookCommand → Prop
  | .clock | .findUser _ | .userPolicy _ _ | .subscribedHooks _ _ | .getEvents _ | .serialize _
  | .checkRateAndCircuit _ | .recordSuccess _ | .recordFailure _ _ | .removeRuntime _
  | .appendAudit _ _ _ _ | .removeAudit _ | .appendGovernance _ _ _ _ | .persist => True
  | _ => False

/-- The phases in which plain commands are allowed. -/
def Open : Phase → Prop
  | .updating _ _ | .starting _ _ | .told _ _ | .blocked _ _ | .succeeded _ _ => False
  | _ => True

variable {command : WebhookCommand} {phase : Phase}

theorem Plain.allows (plain : Plain command) (stays : phase.Open) : phase.Allows command := by
  cases phase <;> first | exact stays.elim | (cases command <;> first | exact plain.elim | trivial)

theorem Plain.after (plain : Plain command) (value : command.Reply) :
    phase.after command value = phase := by
  unfold Phase.after
  split <;> first | rfl | exact plain.elim

theorem Plain.next (plain : Plain command) (reply : Except MnemoError command.Reply) :
    phaseProtocol.next phase command reply = phase := by
  cases reply with
  | ok value => exact plain.after value
  | error error => rfl

theorem Expects.impossible (command : WebhookCommand) (error : MnemoError)
    (fails : Phase.Expects command (.error error)) : False := by
  cases command <;> exact fails

end Phase

section Follows

variable {Value : Type} {phase : Phase}

theorem follows_call {post : Phase → Except MnemoError Value → Prop} {command : WebhookCommand}
    {next : command.Reply → WebhookProgram Value} (allows : phase.Allows command)
    (rest : ∀ value, Phase.Expects command (.ok value) →
      phaseProtocol.Follows post (phase.after command value) (next value)) :
    phaseProtocol.Follows post phase (call command >>= next) :=
  Follows.bind_call allows rest fun error fails =>
    (Phase.Expects.impossible command error fails).elim

theorem follows_plain {post : Phase → Except MnemoError Value → Prop} {command : WebhookCommand}
    {next : command.Reply → WebhookProgram Value} (stays : phase.Open)
    (plain : Phase.Plain command)
    (rest : ∀ value, phaseProtocol.Follows post phase (next value)) :
    phaseProtocol.Follows post phase (call command >>= next) := by
  apply follows_call (plain.allows stays)
  intro value _
  rw [plain.after]
  exact rest value

/-- The program leaves a task in the phase in which it was, also when it fails. -/
def Stays (phase : Phase) (program : WebhookProgram Value) : Prop :=
  phaseProtocol.Follows (fun last _ => last = phase) phase program

theorem Stays.then {Next : Type} {program : WebhookProgram Value}
    {next : Value → WebhookProgram Next} {post : Phase → Except MnemoError Next → Prop}
    (stays : Stays phase program)
    (rest : ∀ value, phaseProtocol.Follows post phase (next value))
    (fails : ∀ error, post phase (.error error)) :
    phaseProtocol.Follows post phase (program >>= next) := by
  apply stays.bind
  · rintro middle value rfl
    exact rest value
  · rintro last error rfl
    exact fails error

/-- The program never fails, and leaves a task in the phase in which it was. -/
def Returns (phase : Phase) (program : WebhookProgram Value) : Prop :=
  phaseProtocol.Follows (fun last reply => last = phase ∧ ∃ value, reply = .ok value) phase program

theorem Returns.then {Next : Type} {program : WebhookProgram Value}
    {next : Value → WebhookProgram Next} {post : Phase → Except MnemoError Next → Prop}
    (returns : Returns phase program)
    (rest : ∀ value, phaseProtocol.Follows post phase (next value)) :
    phaseProtocol.Follows post phase (program >>= next) := by
  apply returns.bind
  · rintro middle value ⟨rfl, _⟩
    exact rest value
  · rintro last error ⟨_, value, impossible⟩
    cases impossible

theorem returns_plain {command : WebhookCommand} (stays : phase.Open)
    (plain : Phase.Plain command) : Returns phase (call command) := by
  refine .perform (plain.allows stays) fun reply expected => ?_
  rw [plain.next]
  cases reply with
  | ok value => exact .done ⟨rfl, value, rfl⟩
  | error error => exact (Phase.Expects.impossible command error expected).elim

theorem returns_persist (stays : phase.Open) :
    Returns phase (call .persist : WebhookProgram Unit) := by
  have plain : Phase.Plain .persist := trivial
  exact returns_plain stays plain

theorem returns_appendWebhookAudit (stays : phase.Open) (webhookId : Uuid) (action : String)
    (requestId : Option String) (details : Json) :
    Returns phase (appendWebhookAudit webhookId action requestId details) := by
  apply follows_plain stays
  · exact trivial
  exact fun _ => returns_persist stays

theorem returns_appendGovernanceAudit (stays : phase.Open) (userId : Uuid) (action : String)
    (requestId : Option String) (details : Json) :
    Returns phase (appendGovernanceAudit userId action requestId details) := by
  apply follows_plain stays
  · exact trivial
  exact fun _ => returns_persist stays

/-! ## Subscriptions -/

variable (setting : WebhookSetting)

theorem stays_requireAllowedTarget (stays : phase.Open) (userId : Uuid)
    (userIdentifier targetUrl : String) (requestId : Option String)
    (action : List (String × Json)) :
    Stays phase (requireAllowedTarget setting userId userIdentifier targetUrl requestId action) := by
  have known : Returns phase (getOrCreateUserPolicy userId userIdentifier) := by
    apply follows_plain stays
    · exact trivial
    rintro ⟨policy, created⟩
    dsimp only
    split
    · exact (returns_persist stays).then fun _ => .done ⟨rfl, policy, rfl⟩
    · exact .done ⟨rfl, policy, rfl⟩
  apply known.then
  intro policy
  split
  · exact (returns_appendGovernanceAudit stays _ _ _ _).then fun _ => .fail rfl
  · exact .done rfl

theorem stays_checkNewTarget (stays : phase.Open) (webhook : MemoryWebhookSubscription)
    (requestId : Option String) (targetUrl : Option String) :
    Stays phase (checkNewTarget setting webhook requestId targetUrl) := by
  cases targetUrl with
  | none => exact .done rfl
  | some newUrl =>
    apply Follows.bind_ofExcept
    · exact fun _ _ => stays_requireAllowedTarget setting stays _ _ _ _ _
    · exact fun _ => rfl

/-- The task is idle when it ends. -/
def EndsIdle (last : Phase) (_ : Except MnemoError Value) : Prop := last = .idle

theorem follows_registerMemoryWebhook (req : RegisterMemoryWebhookRequest)
    (requestId : Option String) :
    phaseProtocol.Follows EndsIdle .idle (registerMemoryWebhook setting req requestId) := by
  have idle : Phase.Open .idle := trivial
  unfold registerMemoryWebhook
  dsimp only
  split
  · exact .fail rfl
  · apply Follows.bind_ofExcept
    · intro _ _
      apply follows_plain idle
      · exact trivial
      intro found
      apply Follows.bind_ofExcept
      · intro userId _
        apply (stays_requireAllowedTarget setting idle _ _ _ _ _).then
        · intro _
          apply follows_plain idle
          · exact trivial
          intro now
          apply follows_call
          · exact trivial
          intro id _
          apply follows_call
          · exact rfl
          intro _ _
          apply follows_plain idle
          · exact trivial
          intro _
          exact (returns_appendWebhookAudit idle _ _ _ _).then fun _ => .done rfl
        · exact fun _ => rfl
      · exact fun _ => rfl
    · exact fun _ => rfl

theorem follows_updateMemoryWebhook (webhookId : Uuid) (req : UpdateMemoryWebhookRequest)
    (requestId : Option String) :
    phaseProtocol.Follows (fun last reply => last = .idle ∨
        (∃ copy, last = .copied req copy) ∧ ∃ error, reply = .error error)
      (.updating webhookId req) (updateMemoryWebhook setting webhookId req requestId) := by
  have idle : Phase.Open .idle := trivial
  apply follows_call
  · exact rfl
  intro found _
  cases found with
  | none => exact .fail (.inl rfl)
  | some webhook =>
    have copied : Phase.Open (.copied req webhook) := trivial
    apply (stays_checkNewTarget setting copied webhook requestId req.targetUrl).then
    · intro _
      apply follows_plain copied
      · exact trivial
      intro now
      apply follows_call
      · exact ⟨now, rfl⟩
      intro _ _
      apply follows_plain idle
      · exact trivial
      intro _
      exact (returns_appendWebhookAudit idle _ _ _ _).then fun _ => .done (.inl rfl)
    · exact fun error => .inr ⟨⟨webhook, rfl⟩, error, rfl⟩

theorem follows_deleteMemoryWebhook (webhookId : Uuid) :
    phaseProtocol.Follows EndsIdle .idle (deleteMemoryWebhook webhookId) := by
  have idle : Phase.Open .idle := trivial
  apply follows_call
  · exact trivial
  intro removed _
  apply follows_call
  · exact trivial
  intro _ _
  apply follows_plain idle
  · exact trivial
  intro _
  apply follows_plain idle
  · exact trivial
  intro _
  exact (returns_persist idle).then fun _ => .done rfl

/-! ## Deliveries -/

theorem returns_recordDeadLetter (webhookId : Uuid) (event : MemoryWebhookEventRecord)
    (reason : String) : Returns .settled (recordDeadLetter webhookId event reason) := by
  have settled : Phase.Open .settled := trivial
  exact (returns_appendWebhookAudit settled _ _ _ _).then fun _ => returns_persist settled

/-- The delivery is settled when it ends. -/
def EndsSettled (last : Phase) (_ : Except MnemoError Value) : Prop := last = .settled

theorem Returns.endsSettled {program : WebhookProgram Value} (returns : Returns .settled program) :
    phaseProtocol.Follows EndsSettled .settled program :=
  returns.mono fun _ _ both => both.1

variable {webhookId : Uuid} {webhook : MemoryWebhookSubscription} {event : MemoryWebhookEventRecord}
  {attempt : Nat} {deadLetter : Bool} {next : WebhookProgram Unit}

theorem follows_blockUnsafe (error : String) :
    phaseProtocol.Follows EndsSettled (.blocked webhookId event.id)
      (blockUnsafe webhookId webhook event attempt deadLetter error) := by
  have settled : Phase.Open .settled := trivial
  apply follows_call
  · exact ⟨rfl, rfl, rfl⟩
  intro _ _
  apply follows_plain settled
  · exact trivial
  intro _
  cases deadLetter with
  | true =>
    apply (returns_appendWebhookAudit settled _ _ _ _).then
    exact fun _ => (returns_persist settled).endsSettled
  | false => exact (returns_persist settled).endsSettled

theorem follows_failAttempt (sent : Bool) (error reason : String)
    (continues : deadLetter = false → phaseProtocol.Follows EndsSettled
      (.delivering webhookId event.id) next) :
    phaseProtocol.Follows EndsSettled (.delivering webhookId event.id)
      (failAttempt webhookId event attempt deadLetter sent error reason next) := by
  apply follows_call
  · exact ⟨rfl, rfl, rfl⟩
  intro _ _
  cases deadLetter with
  | true =>
    apply follows_plain (by trivial)
    · exact trivial
    exact fun _ => (returns_recordDeadLetter webhookId event reason).endsSettled
  | false =>
    apply follows_plain (by trivial)
    · exact trivial
    exact fun _ => continues rfl

theorem follows_sendAttempt (named : webhook.id = webhookId)
    (continues : deadLetter = false → phaseProtocol.Follows EndsSettled
      (.delivering webhookId event.id) next) :
    phaseProtocol.Follows EndsSettled (.delivering webhookId event.id)
      (sendAttempt webhookId webhook event attempt deadLetter next) := by
  have settled : Phase.Open .settled := trivial
  apply follows_call
  · exact ⟨named, rfl⟩
  intro outcome _
  cases outcome with
  | success =>
    apply follows_call
    · exact ⟨rfl, rfl, rfl⟩
    intro _ _
    apply follows_plain settled
    · exact trivial
    exact fun _ => (returns_persist settled).endsSettled
  | status code => exact follows_failAttempt true _ _ continues
  | failed error => exact follows_failAttempt true _ _ continues

theorem follows_checkDns (webhookId eventId : Uuid) (webhook : MemoryWebhookSubscription) :
    phaseProtocol.Follows (fun last reply =>
        last = .delivering webhookId eventId ∧ reply = .ok (.ok ()) ∨
          last = .blocked webhookId eventId ∧ ∃ error, reply = .ok (.error error))
      (.delivering webhookId eventId) (checkDns setting webhook) := by
  by_cases lenient : setting.delivery.allowLocalhost
  · have skips : checkDns setting webhook = pure (.ok ()) := if_pos lenient
    rw [skips]
    exact .done (.inl ⟨rfl, rfl⟩)
  · have looks : checkDns setting webhook = call (.validateDns webhook.targetUrl) := if_neg lenient
    rw [looks]
    apply Follows.perform
    · trivial
    intro reply expected
    cases reply with
    | error error => exact (Phase.Expects.impossible (.validateDns webhook.targetUrl) error expected).elim
    | ok safe =>
      cases safe with
      | error error => exact .done (.inr ⟨rfl, error, rfl⟩)
      | ok _ => exact .done (.inl ⟨rfl, rfl⟩)

theorem follows_attempt (named : webhook.id = webhookId) (left attempt : Nat)
    (continues : decide (max setting.delivery.maxAttempts 1 ≤ attempt) = false →
      phaseProtocol.Follows EndsSettled (.delivering webhookId event.id)
        (attempts setting webhookId webhook event left (attempt + 1))) :
    phaseProtocol.Follows EndsSettled (.delivering webhookId event.id)
      (attempts setting webhookId webhook event (left + 1) attempt) := by
  have delivering : Phase.Open (.delivering webhookId event.id) := trivial
  apply follows_plain delivering
  · trivial
  intro admission
  cases admission with
  | error refusal => exact follows_failAttempt false _ _ continues
  | ok _ =>
    apply (follows_checkDns setting webhookId event.id webhook).bind
    · rintro middle safe (⟨rfl, same⟩ | ⟨rfl, error, same⟩)
      · rw [Except.ok.inj same]
        exact follows_sendAttempt named continues
      · rw [Except.ok.inj same]
        exact follows_blockUnsafe error
    · rintro last error (⟨_, impossible⟩ | ⟨_, _, impossible⟩)
      · cases impossible
      · cases impossible

theorem follows_attempts (named : webhook.id = webhookId) (left attempt : Nat)
    (reaches : left + attempt = max setting.delivery.maxAttempts 1) :
    phaseProtocol.Follows EndsSettled (.delivering webhookId event.id)
      (attempts setting webhookId webhook event (left + 1) attempt) := by
  induction left generalizing attempt with
  | zero =>
    apply follows_attempt setting named
    intro another
    have early := of_decide_eq_false another
    omega
  | succ left ih =>
    apply follows_attempt setting named
    exact fun _ => ih (attempt + 1) (by omega)

/-- A delivery is settled when it ends. -/
theorem follows_deliverMemoryWebhookEvent (webhookId eventId : Uuid) :
    phaseProtocol.Follows EndsSettled (.starting webhookId eventId)
      (deliverMemoryWebhookEvent setting webhookId eventId) := by
  have settled : Phase.Open .settled := trivial
  apply follows_call
  · exact rfl
  intro found filed
  cases found with
  | none => exact .done rfl
  | some webhook =>
    apply follows_call
    · exact ⟨rfl, rfl⟩
    intro stored named
    cases stored with
    | none => exact .done rfl
    | some event =>
      obtain rfl : event.id = eventId := named event rfl
      change phaseProtocol.Follows EndsSettled
        (if event.delivered then .settled else .delivering webhookId event.id) _
      dsimp only
      split
      · exact .done rfl
      · have delivering : Phase.Open (.delivering webhookId event.id) := trivial
        apply follows_plain delivering
        · trivial
        intro serialized
        cases serialized with
        | error error =>
          apply follows_call
          · exact ⟨rfl, rfl, rfl⟩
          intro _ _
          apply (returns_appendWebhookAudit settled _ _ _ _).then
          intro _
          apply follows_plain settled
          · trivial
          exact fun _ => (returns_persist settled).endsSettled
        | ok _ =>
          obtain ⟨more, enough⟩ :=
            Nat.exists_eq_succ_of_ne_zero (n := max setting.delivery.maxAttempts 1) (by omega)
          dsimp only
          rw [enough]
          exact follows_attempts setting (filed webhook rfl) more 1 (by omega)

/-! ## All jobs -/

theorem follows_emitMemoryWebhookEvent (userId : Uuid) (eventType : MemoryWebhookEventType)
    (requestId : Option String) (payload : Json) :
    phaseProtocol.Follows Phase.Ends .idle
      (emitMemoryWebhookEvent setting userId eventType requestId payload) := by
  have idle : Phase.Open .idle := trivial
  apply follows_plain idle
  · trivial
  intro webhookIds
  split
  · exact .done rfl
  · apply follows_plain idle
    · trivial
    intro now
    apply follows_call
    · trivial
    intro queued _
    have queuing : Phase.Open (.queuing queued) := trivial
    apply (returns_persist queuing).then
    intro _
    split
    · refine .done fun job member => ?_
      obtain ⟨pair, among, rfl⟩ := List.mem_map.mp member
      exact ⟨pair, among, rfl⟩
    · exact .done nofun

theorem follows_retryMemoryWebhookEvent (webhookId eventId : Uuid) (force : Bool)
    (requestId : Option String) :
    phaseProtocol.Follows Phase.Ends (.resetting webhookId eventId)
      (retryMemoryWebhookEvent webhookId eventId force requestId) := by
  have idle : Phase.Open .idle := trivial
  apply follows_call
  · trivial
  intro found _
  cases found with
  | none => exact .fail trivial
  | some webhook =>
    apply follows_call
    · exact ⟨rfl, rfl⟩
    intro stored _
    cases stored with
    | none => exact .fail trivial
    | some event =>
      change phaseProtocol.Follows Phase.Ends
        (if event.delivered && !force then .idle else .retrying webhookId eventId) _
      dsimp only
      split
      · exact (returns_appendWebhookAudit idle _ _ _ _).then fun _ => .done rfl
      · have retrying : Phase.Open (.retrying webhookId eventId) := trivial
        apply (returns_persist retrying).then
        intro _
        exact (returns_appendWebhookAudit retrying _ _ _ _).then fun _ => .done rfl

theorem follows_replayMemoryWebhookEvents (webhookId : Uuid) (query : ReplayWebhookEventsQuery)
    (requestId : Option String) :
    phaseProtocol.Follows EndsIdle .idle
      (replayMemoryWebhookEvents webhookId query requestId) := by
  have idle : Phase.Open .idle := trivial
  apply follows_call
  · trivial
  intro found _
  cases found with
  | none => exact .fail rfl
  | some webhook =>
    apply (returns_appendWebhookAudit idle _ _ _ _).then
    intro _
    apply follows_plain idle
    · trivial
    exact fun _ => .done rfl

theorem follows_nothing {program : WebhookProgram Value}
    (follows : phaseProtocol.Follows EndsIdle phase program) :
    phaseProtocol.Follows Phase.Ends phase (do
      let _ ← program
      return []) := by
  apply follows.bind
  · rintro last value rfl
    exact .done rfl
  · rintro last error rfl
    trivial

theorem follows_webhookHandler (job : WebhookJob) :
    phaseProtocol.Follows Phase.Ends (Phase.begins job) (webhookHandler setting job) := by
  cases job with
  | register req requestId => exact follows_nothing (follows_registerMemoryWebhook setting req _)
  | update webhookId req requestId =>
    apply (follows_updateMemoryWebhook setting webhookId req requestId).bind
    · rintro last value (rfl | ⟨_, error, impossible⟩)
      · exact .done rfl
      · cases impossible
    · rintro last error (rfl | ⟨⟨copy, rfl⟩, _⟩)
      · trivial
      · trivial
  | emit userId eventType requestId payload =>
    exact follows_emitMemoryWebhookEvent setting userId eventType requestId payload
  | deliver webhookId eventId =>
    apply (follows_deliverMemoryWebhookEvent setting webhookId eventId).bind
    · rintro last value rfl
      exact .done rfl
    · rintro last error rfl
      trivial
  | retry webhookId eventId force requestId =>
    exact follows_retryMemoryWebhookEvent webhookId eventId force requestId
  | delete webhookId => exact follows_nothing (follows_deleteMemoryWebhook webhookId)
  | replay webhookId query requestId =>
    exact follows_nothing (follows_replayMemoryWebhookEvents webhookId query requestId)
  | govern userId action requestId details =>
    have idle : Phase.Open .idle := trivial
    exact (returns_appendGovernanceAudit idle userId action requestId details).then
      fun _ => .done rfl

theorem Phase.ends_handsOn {phase : Phase} {next : WebhookJob} {rest : List WebhookJob}
    (ends : phase.Ends (.ok (next :: rest))) : phase.handsOn.Ends (.ok rest) := by
  cases phase with
  | queuing queued => exact fun job member => ends job (List.mem_cons_of_mem next member)
  | retrying webhookId eventId => exact (List.cons.inj ends).2
  | _ => first | exact ends.elim | cases ends

end Follows
end Webhook
end Mnemo
