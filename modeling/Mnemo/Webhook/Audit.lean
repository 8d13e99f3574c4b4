import Mathlib.Data.List.Sort
import Mnemo.Auth.ApiKey
import Mnemo.Lib.CappedLog
import Mnemo.Lib.Chronicle
import Mnemo.Webhook.Effects

/-!
# The export of the audit

The rows of the audit are kept by webhook and by user, and an export looks up whose a webhook is
when it is asked for.  What it returns is compared with everything that was ever recorded.
-/

namespace Mnemo
namespace Webhook
namespace Audit

open Auth (CallerContext)
open CappedLog (Mark Outlives contents kept appended)
open Program (Crew)

/-- What an auditor asks for. -/
structure AuditExportQuery where
  fromTime : DateTime
  toTime : DateTime
  limit : Nat
  includeGovernance : Bool
  includeWebhook : Bool
  user : Option String

/-- Where a record comes from. -/
inductive AuditType where
  | governance
  | webhook
  deriving DecidableEq, Repr

/-- A record of an export. -/
structure AuditExportRecord where
  auditType : AuditType
  id : Uuid
  userId : Uuid
  action : String
  recordedAt : DateTime
  requestId : Option String
  details : Json
  webhookId : Option Uuid

/-- The order in which a map is gone through: every key that has rows comes once. -/
structure Order {Row : Type} (rows : Uuid → List Row) where
  keys : List Uuid
  distinct : keys.Nodup
  covers : ∀ key, rows key ≠ [] → key ∈ keys

/-- The sentinel for a user that is not known. -/
def nilUuid : Uuid := 0

/-- Whether a row lies in the window of the query. -/
def AuditExportQuery.inWindow (query : AuditExportQuery) (recordedAt : DateTime) : Bool :=
  !(decide (recordedAt < query.fromTime) || decide (query.toTime < recordedAt))

/-- The number of records that are returned at most. -/
def AuditExportQuery.maxRecords (query : AuditExportQuery) : Nat := min (max query.limit 1) 10000

/-- The record of a row of the audit of a user. -/
def AuditExportRecord.ofGovernance (row : GovernanceAuditRecord) : AuditExportRecord where
  auditType := .governance
  id := row.id
  userId := row.userId
  action := row.action
  recordedAt := row.recordedAt
  requestId := row.requestId
  details := row.details
  webhookId := none

/-- The record of a row of the audit of a webhook. -/
def AuditExportRecord.ofWebhook (webhookId : Uuid) (owner : Option Uuid)
    (row : MemoryWebhookAuditRecord) : AuditExportRecord where
  auditType := .webhook
  id := row.id
  userId := owner.getD nilUuid
  action := row.action
  recordedAt := row.recordedAt
  requestId := row.requestId
  details := row.details
  webhookId := some webhookId

section Export

variable (state : WebhookState) (query : AuditExportQuery) (userFilter : Option Uuid)

/-- The records of the audits of the users. -/
def governanceRecords (order : Order state.governance) : List AuditExportRecord :=
  order.keys.flatMap fun userId =>
    if userFilter.all fun filter => userId == filter then
      ((state.governance userId).filter fun row => query.inWindow row.recordedAt).map .ofGovernance
    else []

/-- The user who has subscribed a webhook that is registered. -/
def ownerOf (webhookId : Uuid) : Option Uuid := (state.webhooks webhookId).map (·.userId)

/-- The records of the audits of the webhooks. -/
def webhookRecords (order : Order state.audit) : List AuditExportRecord :=
  order.keys.flatMap fun webhookId =>
    ((state.audit webhookId).filter fun row => query.inWindow row.recordedAt &&
      userFilter.all fun filter => ownerOf state webhookId == some filter).map
        (.ofWebhook webhookId (ownerOf state webhookId))

/-- Export the audit: the records in a time window, the newest first. -/
def auditExport (findUser : String → Except MnemoError Uuid) (caller : CallerContext)
    (governanceOrder : Order state.governance) (auditOrder : Order state.audit) :
    Except MnemoError (List AuditExportRecord) := do
  caller.requireRole .admin
  if query.toTime ≤ query.fromTime then
    throw (.validation "'to' must be after 'from'")
  -- no record matches a user that is not known
  let userFilter := query.user.map fun identifier =>
    (findUser (Text.trim identifier)).toOption.getD nilUuid
  let governance := if query.includeGovernance then
    governanceRecords state query userFilter governanceOrder else []
  let webhook := if query.includeWebhook then
    webhookRecords state query userFilter auditOrder else []
  let sorted := (governance ++ webhook).insertionSort fun newer older =>
    older.recordedAt ≤ newer.recordedAt
  return sorted.take query.maxRecords

end Export

/-! ## What was recorded -/

/-- Everything that was recorded: who has registered a webhook, and what was done to the audits, the
latest first. -/
structure Trail where
  owners : Uuid → Option Uuid
  webhookLog : List (Mark Uuid MemoryWebhookAuditRecord)
  governanceLog : List (Mark Uuid GovernanceAuditRecord)

/-- Nothing was recorded yet. -/
def Trail.empty : Trail where
  owners _ := none
  webhookLog := []
  governanceLog := []

/-- What is put down of a command. -/
def watch (_ : WebhookState) (trail : Trail) : Phase → WebhookCommand → WebhookInput → Trail
  | .drawn _, .putWebhook webhook, _ =>
      { trail with owners := Function.update trail.owners webhook.id (some webhook.userId) }
  | _, .appendAudit webhookId action requestId details, input =>
      { trail with
        webhookLog := .append webhookId
          { id := input.id, webhookId, action, requestId, details, recordedAt := input.now } ::
            trail.webhookLog }
  | _, .removeAudit webhookId, _ =>
      { trail with webhookLog := .erase webhookId :: trail.webhookLog }
  | _, .appendGovernance userId action requestId details, input =>
      { trail with
        governanceLog := .append userId
          { id := input.id, userId, action, requestId, details, recordedAt := input.now } ::
            trail.governanceLog }
  | _, _, _ => trail

/-- Whether an entry of the audits of the users is about a user, in the window of the query. -/
def governs (query : AuditExportQuery) (userId : Uuid)
    (entry : Uuid × GovernanceAuditRecord) : Bool :=
  entry.1 == userId && query.inWindow entry.2.recordedAt

/-- Whether an entry of the audits of the webhooks is about a webhook of a user, in the window of
the query. -/
def concerns (query : AuditExportQuery) (owners : Uuid → Option Uuid) (userId : Uuid)
    (entry : Uuid × MemoryWebhookAuditRecord) : Bool :=
  owners entry.1 == some userId && query.inWindow entry.2.recordedAt

/-- Everything that was recorded for a user in the window of the query. -/
def Trail.recordedFor (trail : Trail) (query : AuditExportQuery) (userId : Uuid) :
    List AuditExportRecord :=
  ((appended trail.governanceLog).filter (governs query userId)).map (.ofGovernance ·.2) ++
    ((appended trail.webhookLog).filter (concerns query trail.owners userId)).map
      fun entry => .ofWebhook entry.1 (some userId) entry.2

/-- An export has every action that was recorded exactly once, the newest first. -/
def Complete (recorded : List AuditExportRecord)
    (answer : Except MnemoError (List AuditExportRecord)) : Prop :=
  ∃ records, answer = .ok records ∧ records.Perm recorded ∧
    records.Pairwise fun newer older => older.recordedAt ≤ newer.recordedAt

/-- No action on the user is followed by a thousand further ones, no action on a webhook of the user
by a thousand further ones on that webhook or by its deletion, and the webhook is registered. -/
structure Preserved (state : WebhookState) (trail : Trail) (query : AuditExportQuery)
    (userId : Uuid) : Prop where
  governance : ∀ newer row older, trail.governanceLog = newer ++ .append userId row :: older →
    query.inWindow row.recordedAt = true → Outlives 1000 userId newer
  webhook : ∀ newer webhookId row older,
    trail.webhookLog = newer ++ .append webhookId row :: older →
      trail.owners webhookId = some userId → query.inWindow row.recordedAt = true →
        Outlives 1000 webhookId newer ∧ state.webhooks webhookId ≠ none

/-! ## Exports and logs -/

section Records

variable {state : WebhookState} {query : AuditExportQuery} {userId : Uuid}
  {governanceLog : List (Mark Uuid GovernanceAuditRecord)}
  {webhookLog : List (Mark Uuid MemoryWebhookAuditRecord)}

theorem governanceRecords_perm (logged : state.governance = contents 1000 governanceLog)
    (order : Order state.governance) :
    (governanceRecords state query (some userId) order).Perm
      (((kept (fun _ => 1000) governanceLog).filter (governs query userId)).map
        (.ofGovernance ·.2)) := by
  have collected := CappedLog.contents_perm_kept 1000 governanceLog order.distinct
    (by rw [← logged]; exact order.covers)
  have same : governanceRecords state query (some userId) order =
      ((order.keys.flatMap fun key => (contents 1000 governanceLog key).map (key, ·)).filter
        (governs query userId)).map (.ofGovernance ·.2) := by
    rw [governanceRecords, List.filter_flatMap, List.map_flatMap]
    refine List.flatMap_congr fun key _ => ?_
    rw [logged, List.filter_map, List.map_map]
    by_cases mine : key = userId
    · subst mine
      rw [Option.all_some, if_pos (beq_self_eq_true key)]
      refine congrArg _ (List.filter_congr fun row _ => ?_)
      simp [governs]
    · rw [Option.all_some, if_neg (by simpa using mine)]
      refine (List.map_eq_nil_iff.mpr (List.filter_eq_nil_iff.mpr fun row _ => ?_)).symm
      simp [governs, mine]
  rw [same]
  exact (collected.filter _).map _

theorem webhookRecords_perm (logged : state.audit = contents 1000 webhookLog)
    (order : Order state.audit) :
    (webhookRecords state query (some userId) order).Perm
      (((kept (fun _ => 1000) webhookLog).filter
        (concerns query (ownerOf state) userId)).map
          fun entry => .ofWebhook entry.1 (some userId) entry.2) := by
  have collected := CappedLog.contents_perm_kept 1000 webhookLog order.distinct
    (by rw [← logged]; exact order.covers)
  have same : webhookRecords state query (some userId) order =
      ((order.keys.flatMap fun key => (contents 1000 webhookLog key).map (key, ·)).filter
        (concerns query (ownerOf state) userId)).map
          fun entry => .ofWebhook entry.1 (some userId) entry.2 := by
    rw [webhookRecords, List.filter_flatMap, List.map_flatMap]
    refine List.flatMap_congr fun key _ => ?_
    rw [logged, List.filter_map, List.map_map]
    by_cases mine : ownerOf state key = some userId
    · rw [mine]
      refine congrArg _ (List.filter_congr fun row _ => ?_)
      simp [concerns, mine]
    · have nothing : (contents 1000 webhookLog key).filter (fun row =>
          query.inWindow row.recordedAt &&
            (some userId).all fun filter => ownerOf state key == some filter) = [] := by
        refine List.filter_eq_nil_iff.mpr fun row _ => ?_
        simp [mine]
      rw [nothing]
      refine (List.map_eq_nil_iff.mpr (List.filter_eq_nil_iff.mpr fun row _ => ?_)).symm
      simp [concerns, mine]
  rw [same]
  exact (collected.filter _).map _

end Records

/-! ## The invariant -/

/-- The audits are what the log says, and a webhook belongs to the user who has registered it. -/
structure Trailed (state : WebhookState) (tasks : List (WebhookTask Phase)) (trail : Trail) :
    Prop where
  audit : state.audit = contents 1000 trail.webhookLog
  governance : state.governance = contents 1000 trail.governanceLog
  filed : ∀ webhookId webhook, state.webhooks webhookId = some webhook →
    webhook.id = webhookId ∧ trail.owners webhookId = some webhook.userId
  issued : ∀ webhookId, trail.owners webhookId ≠ none → webhookId ∈ state.issued
  drawn : ∀ task ∈ tasks, ∀ webhookId, task.state = .drawn webhookId →
    webhookId ∈ state.issued ∧ trail.owners webhookId = none
  apart : ∀ (first second : Nat) (one two : WebhookTask Phase) (webhookId : Uuid),
    tasks[first]? = some one → tasks[second]? = some two →
      one.state = .drawn webhookId → two.state = .drawn webhookId → first = second
  copied : ∀ task ∈ tasks, ∀ req copy, task.state = .copied req copy →
    trail.owners copy.id = some copy.userId

section Watch

variable {config : WebhookDeliveryConfig} {state : WebhookState} {trail : Trail} {phase : Phase}
  {command : WebhookCommand} {input : WebhookInput}

theorem owners_watch : (watch state trail phase command input).owners = trail.owners ∨
    ∃ id webhook, phase = .drawn id ∧ command = .putWebhook webhook ∧
      (watch state trail phase command input).owners =
        Function.update trail.owners webhook.id (some webhook.userId) := by
  unfold watch
  split
  · exact .inr ⟨_, _, rfl, rfl, rfl⟩
  · exact .inl rfl
  · exact .inl rfl
  · exact .inl rfl
  · exact .inl rfl

/-- The commands that change the audits. -/
def Audits : WebhookCommand → Prop
  | .appendAudit _ _ _ _ | .removeAudit _ | .appendGovernance _ _ _ _ => True
  | _ => False

theorem kept_pushAll {Part : Type} (part : WebhookState → Part) {proposal userId : Uuid}
    {eventType : MemoryWebhookEventType} {requestId : Option String} {payload : Json}
    {createdAt : DateTime}
    (keeps : ∀ (state : WebhookState) webhookId, part (state.push config proposal userId eventType
      requestId payload createdAt webhookId) = part state)
    (state : WebhookState) (webhookIds : List Uuid) :
    part (state.pushAll config proposal userId eventType requestId payload createdAt
      webhookIds).2 = part state := by
  induction webhookIds generalizing state with
  | nil => rfl
  | cons webhookId webhookIds ih => exact (ih _).trans (keeps state webhookId)

theorem audits_perform (other : ¬Audits command) :
    (perform config input state command).2.audit = state.audit ∧
      (perform config input state command).2.governance = state.governance := by
  cases command with
  | appendAudit webhookId action requestId details => exact absurd trivial other
  | removeAudit webhookId => exact absurd trivial other
  | appendGovernance userId action requestId details => exact absurd trivial other
  | pushEvents webhookIds userId eventType requestId payload createdAt =>
    exact ⟨kept_pushAll (·.audit) (fun _ _ => rfl) state webhookIds,
      kept_pushAll (·.governance) (fun _ _ => rfl) state webhookIds⟩
  | recordSuccess webhookId =>
    exact ⟨kept_recordSuccess config input state (·.audit) (fun _ _ _ => rfl)
        (fun _ _ _ => rfl) webhookId,
      kept_recordSuccess config input state (·.governance) (fun _ _ _ => rfl)
        (fun _ _ _ => rfl) webhookId⟩
  | recordFailure webhookId sent =>
    exact ⟨kept_recordFailure config state (·.audit) (fun _ _ _ => rfl) (fun _ _ _ => rfl)
        input.now webhookId sent,
      kept_recordFailure config state (·.governance) (fun _ _ _ => rfl) (fun _ _ _ => rfl)
        input.now webhookId sent⟩
  | _ => exact ⟨rfl, rfl⟩

theorem logs_watch (other : ¬Audits command) :
    (watch state trail phase command input).webhookLog = trail.webhookLog ∧
      (watch state trail phase command input).governanceLog = trail.governanceLog := by
  unfold watch
  split
  · exact ⟨rfl, rfl⟩
  · exact absurd trivial other
  · exact absurd trivial other
  · exact absurd trivial other
  · exact ⟨rfl, rfl⟩

/-- Every command does to the audits what is put down of it. -/
theorem logged_perform (audit : state.audit = contents 1000 trail.webhookLog)
    (governance : state.governance = contents 1000 trail.governanceLog) :
    (perform config input state command).2.audit =
        contents 1000 (watch state trail phase command input).webhookLog ∧
      (perform config input state command).2.governance =
        contents 1000 (watch state trail phase command input).governanceLog := by
  by_cases audits : Audits command
  · cases command with
    | appendAudit webhookId action requestId details =>
      have appends : (watch state trail phase (.appendAudit webhookId action requestId details)
          input) = { trail with
            webhookLog := .append webhookId
              { id := input.id, webhookId, action, requestId, details,
                recordedAt := input.now } :: trail.webhookLog } := by
        cases phase <;> rfl
      rw [appends]
      refine ⟨?_, governance⟩
      rw [contents, ← audit]
      rfl
    | removeAudit webhookId =>
      have erases : (watch state trail phase (.removeAudit webhookId) input) =
          { trail with webhookLog := .erase webhookId :: trail.webhookLog } := by
        cases phase <;> rfl
      rw [erases]
      refine ⟨?_, governance⟩
      rw [contents, ← audit]
      rfl
    | appendGovernance userId action requestId details =>
      have appends : (watch state trail phase (.appendGovernance userId action requestId details)
          input) = { trail with
            governanceLog := .append userId
              { id := input.id, userId, action, requestId, details,
                recordedAt := input.now } :: trail.governanceLog } := by
        cases phase <;> rfl
      rw [appends]
      refine ⟨audit, ?_⟩
      rw [contents, ← governance]
      rfl
    | _ => exact audits.elim
  · have kept : (perform config input state command).2.audit = state.audit ∧
        (perform config input state command).2.governance = state.governance :=
      audits_perform audits
    have same : (watch state trail phase command input).webhookLog = trail.webhookLog ∧
        (watch state trail phase command input).governanceLog = trail.governanceLog :=
      logs_watch audits
    rw [kept.1, kept.2, same.1, same.2]
    exact ⟨audit, governance⟩

end Watch

section Step

variable (config : WebhookDeliveryConfig) {state : WebhookState}
  {tasks : List (WebhookTask Phase)} {trail : Trail} {position : Nat} {job : WebhookJob}
  {command : WebhookCommand} {continuation : Except MnemoError command.Reply →
    WebhookProgram (List WebhookJob)} {phase : Phase} (input : WebhookInput)

theorem Trailed.put (trailed : Trailed state tasks trail) {task : WebhookTask Phase}
    {webhook : MemoryWebhookSubscription} (found : tasks[position]? = some task)
    (allows : task.state.Allows (.putWebhook webhook)) :
    (task.state = .drawn webhook.id ∧ webhook.id ∈ state.issued ∧
        trail.owners webhook.id = none ∧ ∀ other one, tasks[other]? = some one →
          one.state = .drawn webhook.id → other = position) ∨
      (∃ req copy, task.state = .copied req copy) ∧
        trail.owners webhook.id = some webhook.userId := by
  have member : task ∈ tasks := List.mem_of_getElem? found
  cases moved : task.state with
  | drawn id =>
    rw [moved] at allows
    obtain rfl : webhook.id = id := allows
    obtain ⟨issued, unowned⟩ := trailed.drawn task member webhook.id moved
    refine .inl ⟨rfl, issued, unowned, fun other one there drawn => ?_⟩
    exact trailed.apart other position one task webhook.id there found drawn moved
  | copied req copy =>
    rw [moved] at allows
    obtain ⟨now, rfl⟩ : ∃ now, webhook = req.apply now copy := allows
    exact .inr ⟨⟨req, copy, rfl⟩, trailed.copied task member req copy moved⟩
  | _ => rw [moved] at allows; exact allows.elim

/-- Every command keeps the invariant. -/
theorem Trailed.perform (trailed : Trailed state tasks trail)
    (found : tasks[position]? = some ⟨job, .perform command continuation, phase⟩)
    (allows : phase.Allows command) :
    Trailed (perform config input state command).2
      (tasks.set position ⟨job, continuation (.ok (perform config input state command).1),
        phase.after command (perform config input state command).1⟩)
      (watch state trail phase command input) := by
  have grows := issued_perform config input state command
  have mine := List.mem_of_getElem? found
  have logged := @logged_perform config state trail phase command input trailed.audit
    trailed.governance
  -- once a user is put down for a webhook, that stays so
  have owned {webhookId userId : Uuid} (owner : trail.owners webhookId = some userId) :
      (watch state trail phase command input).owners webhookId = some userId := by
    have cases' : (watch state trail phase command input).owners = trail.owners ∨ _ := owners_watch
    rcases cases' with same | ⟨id, webhook, rfl, rfl, same⟩
    · rw [same]
      exact owner
    · obtain rfl : webhook.id = id := allows
      have unowned := (trailed.drawn _ mine webhook.id rfl).2
      rw [same, Function.update_of_ne]
      · exact owner
      · rintro rfl
        exact nomatch unowned.symm.trans owner
  -- a webhook that nobody has registered is registered only under its drawn identifier
  have unowned {webhookId : Uuid} (free : trail.owners webhookId = none)
      (elsewhere : ∀ webhook, phase = .drawn webhookId → command = .putWebhook webhook → False) :
      (watch state trail phase command input).owners webhookId = none := by
    have cases' : (watch state trail phase command input).owners = trail.owners ∨ _ := owners_watch
    rcases cases' with same | ⟨id, webhook, rfl, rfl, same⟩
    · rw [same]
      exact free
    · obtain rfl : webhook.id = id := allows
      rw [same, Function.update_of_ne]
      · exact free
      · rintro rfl
        exact elsewhere webhook rfl rfl
  refine ⟨logged.1, logged.2, ?_, ?_, ?_, ?_, ?_⟩
  · intro webhookId webhook stored
    rcases webhooks_perform_eq_some config input state stored with old | ⟨rfl, rfl⟩
    · obtain ⟨named, owner⟩ := trailed.filed webhookId webhook old
      exact ⟨named, owned owner⟩
    · refine ⟨rfl, ?_⟩
      rcases trailed.put found allows with ⟨drawn, _⟩ | ⟨_, owner⟩
      · obtain rfl : phase = .drawn webhook.id := drawn
        exact Function.update_self _ _ _
      · exact owned owner
  · intro webhookId owner
    have cases' : (watch state trail phase command input).owners = trail.owners ∨ _ := owners_watch
    rcases cases' with same | ⟨id, webhook, rfl, rfl, same⟩
    · rw [same] at owner
      exact grows (trailed.issued webhookId owner)
    · obtain rfl : webhook.id = id := allows
      rcases eq_or_ne webhookId webhook.id with rfl | different
      · exact grows (trailed.drawn _ mine webhook.id rfl).1
      · rw [same, Function.update_of_ne different] at owner
        exact grows (trailed.issued webhookId owner)
  · intro task member webhookId drawn
    obtain ⟨place, there⟩ := List.mem_iff_getElem?.mp member
    rcases Crew.getElem?_set_cases there with ⟨_, rfl⟩ | ⟨different, old⟩
    · rcases Phase.after_drawn drawn with rfl | draws
      · obtain ⟨issued, free⟩ := trailed.drawn _ mine webhookId rfl
        refine ⟨grows issued, unowned free ?_⟩
        rintro webhook _ rfl
        exact nomatch drawn
      · obtain ⟨fresh, issued, rfl⟩ := draws_fresh config input draws
        have free : trail.owners webhookId = none := by
          by_contra owner
          exact fresh (trailed.issued webhookId owner)
        exact ⟨issued, unowned free nofun⟩
    · obtain ⟨issued, free⟩ := trailed.drawn task (List.mem_of_getElem? old) webhookId drawn
      refine ⟨grows issued, unowned free ?_⟩
      rintro webhook rfl rfl
      exact different (trailed.apart place position task _ webhookId old found drawn rfl)
  · have other (place : Nat) (task : WebhookTask Phase) (webhookId : Uuid)
        (there : tasks[place]? = some task) (drawn : task.state = .drawn webhookId)
        (moved : phase.after command (Webhook.perform config input state command).1 =
          .drawn webhookId) : place = position := by
      rcases Phase.after_drawn moved with same | draws
      · exact trailed.apart place position task _ webhookId there found drawn same
      · obtain ⟨fresh, _, _⟩ := draws_fresh config input draws
        exact absurd (trailed.drawn task (List.mem_of_getElem? there) webhookId drawn).1 fresh
    intro first second one two webhookId there here drawn also
    rcases Crew.getElem?_set_cases there with ⟨rfl, rfl⟩ | ⟨_, one_old⟩
    · rcases Crew.getElem?_set_cases here with ⟨rfl, rfl⟩ | ⟨_, two_old⟩
      · rfl
      · exact (other second two webhookId two_old also drawn).symm
    · rcases Crew.getElem?_set_cases here with ⟨rfl, rfl⟩ | ⟨_, two_old⟩
      · exact other first one webhookId one_old drawn also
      · exact trailed.apart first second one two webhookId one_old two_old drawn also
  · intro task member req copy held
    apply owned
    rcases List.mem_or_eq_of_mem_set member with old | rfl
    · exact trailed.copied task old req copy held
    · rcases Phase.after_copied held with same | ⟨id, finds⟩
      · exact trailed.copied _ mine req copy same
      · obtain ⟨_, stored⟩ := finds_stored config input finds
        obtain ⟨rfl, owner⟩ := trailed.filed id copy stored
        exact owner

end Step

section Tasks

variable {state : WebhookState} {tasks : List (WebhookTask Phase)} {trail : Trail}

theorem Trailed.concat (trailed : Trailed state tasks trail) {task : WebhookTask Phase}
    (drawn : ∀ webhookId, task.state ≠ .drawn webhookId)
    (copied : ∀ req copy, task.state ≠ .copied req copy) :
    Trailed state (tasks ++ [task]) trail := by
  refine ⟨trailed.audit, trailed.governance, trailed.filed, trailed.issued,
    fun other member webhookId has => ?_,
    fun first second one two webhookId there here has also => ?_,
    fun other member req copy has => ?_⟩
  · rcases List.mem_append.mp member with old | new
    · exact trailed.drawn other old webhookId has
    · rw [List.mem_singleton.mp new] at has
      exact absurd has (drawn webhookId)
  · rcases Crew.getElem?_concat_cases there with ⟨_, rfl⟩ | one_old
    · exact absurd has (drawn webhookId)
    · rcases Crew.getElem?_concat_cases here with ⟨_, rfl⟩ | two_old
      · exact absurd also (drawn webhookId)
      · exact trailed.apart first second one two webhookId one_old two_old has also
  · rcases List.mem_append.mp member with old | new
    · exact trailed.copied other old req copy has
    · rw [List.mem_singleton.mp new] at has
      exact absurd has (copied req copy)

theorem Trailed.handOn (trailed : Trailed state tasks trail) {position : Nat} {job : WebhookJob}
    {jobs : List WebhookJob} {phase : Phase} (rest : List WebhookJob)
    (found : tasks[position]? = some ⟨job, .done jobs, phase⟩) :
    Trailed state (tasks.set position ⟨job, .done rest, phase.handsOn⟩) trail := by
  have mine := List.mem_of_getElem? found
  have less (holds : Phase → Prop) (idle : ¬holds .idle) (after : holds phase.handsOn) :
      holds phase := by
    cases phase <;> first | exact after | exact absurd after idle
  refine ⟨trailed.audit, trailed.governance, trailed.filed, trailed.issued,
    fun other member webhookId has => ?_,
    fun first second one two webhookId there here has also => ?_,
    fun other member req copy has => ?_⟩
  · rcases List.mem_or_eq_of_mem_set member with old | rfl
    · exact trailed.drawn other old webhookId has
    · exact trailed.drawn _ mine webhookId (less (· = .drawn webhookId) nofun has)
  · have before {place : Nat} {task : WebhookTask Phase}
        (there : (tasks.set position ⟨job, .done rest, phase.handsOn⟩)[place]? = some task)
        (drawn : task.state = .drawn webhookId) :
        ∃ old, tasks[place]? = some old ∧ old.state = .drawn webhookId := by
      rcases Crew.getElem?_set_cases there with ⟨rfl, rfl⟩ | ⟨_, old⟩
      · exact ⟨_, found, less (· = .drawn webhookId) nofun drawn⟩
      · exact ⟨task, old, drawn⟩
    obtain ⟨one, one_old, one_drawn⟩ := before there has
    obtain ⟨two, two_old, two_drawn⟩ := before here also
    exact trailed.apart first second one two webhookId one_old two_old one_drawn two_drawn
  · rcases List.mem_or_eq_of_mem_set member with old | rfl
    · exact trailed.copied other old req copy has
    · exact trailed.copied _ mine req copy (less (· = .copied req copy) nofun has)

end Tasks

/-! ## Runs -/

section Runs

variable (setting : WebhookSetting)

/-- The orders of the tasks, with their phases. -/
abbrev auditOrders : Crew.Orders WebhookCommand WebhookCommand.Reply MnemoError WebhookJob Phase :=
  webhookOrders setting phaseProtocol Phase.begins Phase.handsOn

/-- One step of the tasks, and what is put down of it. -/
abbrev trailStep : WebhookCrew Phase × Trail → WebhookEvent → WebhookCrew Phase × Trail :=
  Crew.chronicle (exec setting.delivery) (auditOrders setting) watch

/-- What is in memory and what was recorded after a history. -/
def history (events : List WebhookEvent) : WebhookState × Trail :=
  let after := StateMachine.finish (trailStep setting)
    (Crew.idle (quietState fun _ => none), Trail.empty) events
  (after.1.shared, after.2)

variable {setting}

theorem trailed_step (crew : WebhookCrew Phase × Trail) (event : WebhookEvent)
    (sound : Crew.SoundWith (auditOrders setting) Phase.Ends Trailed crew) :
    Crew.SoundWith (auditOrders setting) Phase.Ends Trailed (trailStep setting crew event) := by
  let free (_ : WebhookCrew Phase × Trail) (_ : WebhookEvent) : Prop := True
  have admissible : free crew event := trivial
  apply Crew.SoundWith.step (follows_webhookHandler setting) ?_ ?_ ?_ ?_ sound admissible
  · exact fun phase next rest ends => Phase.ends_handsOn ends
  · intro crew trail job outside trailed
    cases job with
    | deliver webhookId eventId => exact nomatch outside
    | _ => exact trailed.concat nofun nofun
  · intro crew trail position job command continuation phase input found allows _ trailed
    refine ⟨?_, trailed.perform setting.delivery input found allows⟩
    cases command with
    | getWebhook webhookId =>
      exact fun webhook there => (trailed.filed webhookId webhook there).1
    | getEvent webhookId eventId => exact fun event there => (findEvent_eq_some there).2
    | _ => exact trivial
  · intro crew trail position job next rest phase found ends trailed
    have handed := trailed.handOn rest found
    have delivers : ∃ webhookId eventId, next = .deliver webhookId eventId := by
      cases phase with
      | queuing queued =>
        obtain ⟨pair, _, same⟩ := ends next List.mem_cons_self
        exact ⟨pair.1, pair.2, same⟩
      | retrying webhookId eventId => exact ⟨webhookId, eventId, (List.cons.inj ends).1⟩
      | _ => first | exact ends.elim | cases ends
    obtain ⟨webhookId, eventId, rfl⟩ := delivers
    exact handed.concat nofun nofun

theorem trailed_history (setting : WebhookSetting) (events : List WebhookEvent) :
    ∃ tasks, Trailed (history setting events).1 tasks (history setting events).2 := by
  have quiet : Trailed (quietState fun _ => none) [] Trail.empty := by
    refine ⟨rfl, rfl, ?_, ?_, ?_, ?_, ?_⟩
    · exact fun _ _ stored => nomatch stored
    · exact fun _ owner => absurd rfl owner
    · exact fun _ member => nomatch member
    · exact fun _ _ _ _ _ there => nomatch there
    · exact fun _ member => nomatch member
  have sound : Crew.SoundWith (auditOrders setting) Phase.Ends Trailed
      (StateMachine.finish (trailStep setting) (Crew.idle (quietState fun _ => none), Trail.empty)
        events) :=
    StateMachine.finish_induction trailed_step (Crew.SoundWith.idle quiet) events
  exact ⟨_, sound.holds⟩

end Runs

/-! ## Complete exports -/

/-- An administrator asks for everything about a user. -/
structure AsksFor (query : AuditExportQuery) (findUser : String → Except MnemoError Uuid)
    (caller : CallerContext) (userId : Uuid) : Prop where
  admin : caller.role.hasAtLeast .admin = true
  user : ∃ identifier, query.user = some identifier ∧ findUser (Text.trim identifier) = .ok userId
  governance : query.includeGovernance = true
  webhook : query.includeWebhook = true

section Exports

variable {state : WebhookState} {trail : Trail} {query : AuditExportQuery} {userId : Uuid}
  {findUser : String → Except MnemoError Uuid} {caller : CallerContext}

theorem auditExport_eq (asks : AsksFor query findUser caller userId)
    (interval : query.fromTime < query.toTime) (governanceOrder : Order state.governance)
    (auditOrder : Order state.audit) :
    auditExport state query findUser caller governanceOrder auditOrder =
      .ok (((governanceRecords state query (some userId) governanceOrder ++
        webhookRecords state query (some userId) auditOrder).insertionSort fun newer older =>
          older.recordedAt ≤ newer.recordedAt).take query.maxRecords) := by
  obtain ⟨identifier, named, known⟩ := asks.user
  have admitted : caller.requireRole .admin = .ok () := if_pos asks.admin
  simp only [auditExport, admitted, not_le.mpr interval, named, known, asks.governance,
    asks.webhook, Option.map_some, Except.toOption, Option.getD_some, if_true, if_false]
  rfl

theorem auditExport_of_empty (asks : AsksFor query findUser caller userId)
    (empty : query.toTime ≤ query.fromTime) (governanceOrder : Order state.governance)
    (auditOrder : Order state.audit) :
    auditExport state query findUser caller governanceOrder auditOrder =
      .error (.validation "'to' must be after 'from'") := by
  have admitted : caller.requireRole .admin = .ok () := if_pos asks.admin
  simp only [auditExport, admitted, empty, if_true]
  rfl

variable (filed : ∀ webhookId webhook, state.webhooks webhookId = some webhook →
  trail.owners webhookId = some webhook.userId)

include filed

theorem ownerOf_eq_some_iff (webhookId : Uuid) : ownerOf state webhookId = some userId ↔
    trail.owners webhookId = some userId ∧ state.webhooks webhookId ≠ none := by
  cases stored : state.webhooks webhookId with
  | none => simp [ownerOf, stored]
  | some webhook => simp [ownerOf, stored, filed webhookId webhook stored]

theorem concerns_of_ownerOf (entry : Uuid × MemoryWebhookAuditRecord)
    (visible : concerns query (ownerOf state) userId entry = true) :
    concerns query trail.owners userId entry = true := by
  obtain ⟨mine, inside⟩ := Bool.and_eq_true_iff.mp visible
  have owner := ((ownerOf_eq_some_iff filed _).mp (beq_iff_eq.mp mine)).1
  exact Bool.and_eq_true_iff.mpr ⟨beq_iff_eq.mpr owner, inside⟩

theorem preserved_iff :
    Preserved state trail query userId ↔
      (kept (fun _ => 1000) trail.governanceLog).filter (governs query userId) =
          (appended trail.governanceLog).filter (governs query userId) ∧
        (kept (fun _ => 1000) trail.webhookLog).filter (concerns query (ownerOf state) userId) =
          (appended trail.webhookLog).filter (concerns query trail.owners userId) := by
  have owned (webhookId : Uuid) := @ownerOf_eq_some_iff state trail userId filed webhookId
  rw [CappedLog.filter_kept_eq_iff (fun _ governed => governed),
    CappedLog.filter_kept_eq_iff (concerns_of_ownerOf filed)]
  constructor
  · intro preserved
    constructor
    · intro newer key row older split wanted
      obtain ⟨mine, inside⟩ := Bool.and_eq_true_iff.mp wanted
      obtain rfl : key = userId := beq_iff_eq.mp mine
      exact ⟨preserved.governance newer row older split inside, wanted⟩
    · intro newer key row older split wanted
      obtain ⟨mine, inside⟩ := Bool.and_eq_true_iff.mp wanted
      have owner := beq_iff_eq.mp mine
      obtain ⟨outlives, registered⟩ := preserved.webhook newer key row older split owner inside
      refine ⟨outlives, Bool.and_eq_true_iff.mpr ⟨beq_iff_eq.mpr ?_, inside⟩⟩
      exact (owned key).mpr ⟨owner, registered⟩
  · rintro ⟨governance, webhook⟩
    constructor
    · intro newer row older split inside
      exact (governance newer userId row older split
        (Bool.and_eq_true_iff.mpr ⟨beq_self_eq_true userId, inside⟩)).1
    · intro newer webhookId row older split owner inside
      obtain ⟨outlives, visible⟩ := webhook newer webhookId row older split
        (Bool.and_eq_true_iff.mpr ⟨beq_iff_eq.mpr owner, inside⟩)
      have mine := beq_iff_eq.mp (Bool.and_eq_true_iff.mp visible).1
      exact ⟨outlives, ((owned webhookId).mp mine).2⟩

end Exports

/-- After every history, an export has every action that was recorded for a user in the interval
exactly once, the newest first, exactly if the interval is not empty, no such action was followed by
a thousand further ones, and every webhook with such an action was neither deleted afterwards nor is
unregistered. -/
theorem auditExport_complete_iff (setting : WebhookSetting) (events : List WebhookEvent)
    (query : AuditExportQuery) (findUser : String → Except MnemoError Uuid)
    (caller : CallerContext) (userId : Uuid)
    (governanceOrder : Order (history setting events).1.governance)
    (auditOrder : Order (history setting events).1.audit)
    (asks : AsksFor query findUser caller userId)
    (few : ((history setting events).2.recordedFor query userId).length ≤ query.maxRecords) :
    Complete ((history setting events).2.recordedFor query userId)
        (auditExport (history setting events).1 query findUser caller governanceOrder
          auditOrder) ↔
      query.fromTime < query.toTime ∧
        Preserved (history setting events).1 (history setting events).2 query userId := by
  obtain ⟨tasks, trailed⟩ := trailed_history setting events
  rcases lt_or_ge query.fromTime query.toTime with interval | empty
  · have filed (webhookId : Uuid) (webhook : MemoryWebhookSubscription)
        (stored : (history setting events).1.webhooks webhookId = some webhook) :=
      (trailed.filed webhookId webhook stored).2
    rw [and_iff_right interval, preserved_iff filed, auditExport_eq asks interval]
    generalize (history setting events).1 = state at *
    generalize (history setting events).2 = trail at *
    have governance := @governanceRecords_perm state query userId _ trailed.governance
      governanceOrder
    have webhook := @webhookRecords_perm state query userId _ trailed.audit auditOrder
    have together := governance.append webhook
    have sorting := List.perm_insertionSort
      (fun newer older : AuditExportRecord => older.recordedAt ≤ newer.recordedAt)
      (governanceRecords state query (some userId) governanceOrder ++
        webhookRecords state query (some userId) auditOrder)
    have fewerGovernance := CappedLog.filter_kept_sublist
      (fun _ governed => governed : ∀ entry, governs query userId entry = true → _)
      (fun _ => 1000) trail.governanceLog
    have fewerWebhook := CappedLog.filter_kept_sublist (@concerns_of_ownerOf state trail query
      userId filed) (fun _ => 1000) trail.webhookLog
    constructor
    · rintro ⟨records, answered, complete, -⟩
      obtain rfl := Except.ok.inj answered
      have all := complete.length_eq
      have taken := List.length_take_le' query.maxRecords
        ((governanceRecords state query (some userId) governanceOrder ++
          webhookRecords state query (some userId) auditOrder).insertionSort
            fun newer older => older.recordedAt ≤ newer.recordedAt)
      have sorted := sorting.length_eq
      have counted := together.length_eq
      simp only [List.length_append, List.length_map] at counted sorted
      simp only [Trail.recordedFor, List.length_append, List.length_map] at all
      have one := fewerGovernance.length_le
      have two := fewerWebhook.length_le
      exact ⟨fewerGovernance.eq_of_length (by omega), fewerWebhook.eq_of_length (by omega)⟩
    · rintro ⟨one, two⟩
      rw [one, two] at together
      have whole := sorting.trans together
      refine ⟨_, rfl, ?_, ?_⟩
      · rw [List.take_of_length_le (whole.length_eq.trans_le few)]
        exact whole
      · exact (List.pairwise_insertionSort _ _).sublist (List.take_sublist _ _)
  · refine iff_of_false ?_ fun both => absurd both.1 (not_lt.mpr empty)
    rintro ⟨records, answered, -⟩
    rw [auditExport_of_empty asks empty] at answered
    exact nomatch answered

/-! ## A deleted webhook -/

/-- An administrator. -/
def auditor : CallerContext where
  keyId := 9
  keyName := "auditor"
  role := .admin
  scope := none

/-- Everything about one user, in a window of ten. -/
def userQuery : AuditExportQuery where
  fromTime := 0
  toTime := 10
  limit := 1000
  includeGovernance := true
  includeWebhook := true
  user := some "ada"

/-- A moment at which a proposal for an identifier is at hand. -/
def momentAt (now : DateTime) : WebhookInput := { failingAt now with id := 1 }

/-- A request for a webhook. -/
def hookRequest : RegisterMemoryWebhookRequest where
  user := "ada"
  targetUrl := "http://localhost/hook"
  signingSecret := none
  events := none
  enabled := true

/-- A webhook is registered, and deleted afterwards. -/
def deletion : List WebhookEvent :=
  .begin (.register hookRequest none) :: List.replicate 9 (.advance 0 (momentAt 5)) ++
    .begin (.delete 1) :: List.replicate 5 (.advance 1 (momentAt 6))

theorem asksFor_auditor : AsksFor userQuery (fun _ => .ok 7) auditor 7 :=
  ⟨rfl, ⟨"ada", rfl, rfl⟩, rfl, rfl⟩

/-- One action on the policy of the user is exported. -/
theorem auditExport_complete_iff_governed :
    let events : List WebhookEvent :=
      [.begin (.govern 7 "policy_updated" none .null), .advance 0 (momentAt 5)]
    ∀ governanceOrder auditOrder,
      Complete ((history briskSetting events).2.recordedFor userQuery 7)
        (auditExport (history briskSetting events).1 userQuery (fun _ => .ok 7) auditor
          governanceOrder auditOrder) := by
  intro events governanceOrder auditOrder
  have few : ((history briskSetting events).2.recordedFor userQuery 7).length ≤
      userQuery.maxRecords := by
    decide
  refine (auditExport_complete_iff briskSetting events userQuery (fun _ => .ok 7) auditor 7
    governanceOrder auditOrder asksFor_auditor few).mpr ⟨by decide, ?_, ?_⟩
  · intro newer row older split _
    cases newer with
    | nil => exact ⟨nofun, by decide⟩
    | cons mark newer =>
        have rest : [] = newer ++ .append 7 row :: older := (List.cons.inj split).2
        exact absurd rest (by simp)
  · intro newer webhookId row older split
    have empty : (history briskSetting events).2.webhookLog = [] := rfl
    rw [empty] at split
    exact absurd split (by simp)

/-- The registration of a webhook is not exported after the webhook was deleted. -/
theorem deleted_webhook_unaudited :
    AsksFor userQuery (fun _ => .ok 7) auditor 7 ∧ userQuery.fromTime < userQuery.toTime ∧
      ((history briskSetting deletion).2.recordedFor userQuery 7).length = 1 ∧
      ∀ governanceOrder auditOrder,
        ¬Complete ((history briskSetting deletion).2.recordedFor userQuery 7)
          (auditExport (history briskSetting deletion).1 userQuery (fun _ => .ok 7) auditor
            governanceOrder auditOrder) := by
  refine ⟨asksFor_auditor, by decide, rfl, fun governanceOrder auditOrder => ?_⟩
  rintro ⟨records, answered, complete, -⟩
  obtain ⟨tasks, trailed⟩ := trailed_history briskSetting deletion
  have governance := @governanceRecords_perm _ userQuery 7 _ trailed.governance governanceOrder
  have webhook := @webhookRecords_perm _ userQuery 7 _ trailed.audit auditOrder
  have nobody : CappedLog.kept (fun _ => 1000) (history briskSetting deletion).2.governanceLog =
      [] := rfl
  have nothing : CappedLog.kept (fun _ => 1000) (history briskSetting deletion).2.webhookLog =
      [] := rfl
  rw [nobody] at governance
  rw [nothing] at webhook
  rw [auditExport_eq asksFor_auditor (by decide), governance.eq_nil, webhook.eq_nil] at answered
  obtain rfl := Except.ok.inj answered
  exact absurd complete.length_eq (by decide)

end Audit
end Webhook
end Mnemo
