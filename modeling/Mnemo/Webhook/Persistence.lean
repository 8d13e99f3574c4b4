import Mnemo.Lib.Snapshots
import Mnemo.Webhook.State

/-!
# What is kept over a restart

The subscriptions, the events, the audits and the policies are written to the database as a whole,
each map with a command of its own, after every request that has changed some of them.
-/

namespace Mnemo
namespace Webhook
namespace Persistence

open Policy (Policies)
open Program (Crew)
open Program.Protocol (Follows)
open Snapshots (Format Versioned Server Command Hold Ends InOrder)

/-- The maps that are written. -/
inductive Part where
  | webhooks
  | events
  | audit
  | policies
  | governance
  deriving DecidableEq

/-- What a map is in memory. -/
def Part.Value : Part → Type
  | .webhooks => Uuid → Option MemoryWebhookSubscription
  | .events => Uuid → List MemoryWebhookEventRecord
  | .audit => Uuid → List MemoryWebhookAuditRecord
  | .policies => Policies
  | .governance => Uuid → List GovernanceAuditRecord

/-- A subscription in the database; its signing secret is not serialized. -/
structure StoredSubscription where
  id : Uuid
  userId : Uuid
  userIdentifier : String
  targetUrl : String
  events : List MemoryWebhookEventType
  enabled : Bool
  createdAt : DateTime
  updatedAt : DateTime

/-- Serialize a subscription. -/
def StoredSubscription.ofSubscription (webhook : MemoryWebhookSubscription) :
    StoredSubscription where
  id := webhook.id
  userId := webhook.userId
  userIdentifier := webhook.userIdentifier
  targetUrl := webhook.targetUrl
  events := webhook.events
  enabled := webhook.enabled
  createdAt := webhook.createdAt
  updatedAt := webhook.updatedAt

/-- Read a subscription back; the field that is missing is taken for an absent one. -/
def StoredSubscription.toSubscription (stored : StoredSubscription) :
    MemoryWebhookSubscription where
  id := stored.id
  userId := stored.userId
  userIdentifier := stored.userIdentifier
  targetUrl := stored.targetUrl
  signingSecret := none
  events := stored.events
  enabled := stored.enabled
  createdAt := stored.createdAt
  updatedAt := stored.updatedAt

/-- What a map is in the database. -/
def Part.Stored : Part → Type
  | .webhooks => Uuid → Option StoredSubscription
  | part => part.Value

/-- Serialize a map. -/
def serialize : (part : Part) → part.Value → part.Stored
  | .webhooks, hooks => fun webhookId => (hooks webhookId).map .ofSubscription
  | .events, events => events
  | .audit, audit => audit
  | .policies, policies => policies
  | .governance, audit => audit

/-- Read a map back. -/
def deserialize : (part : Part) → part.Stored → part.Value
  | .webhooks, hooks => fun webhookId => (hooks webhookId).map (·.toSubscription)
  | .events, events => events
  | .audit, audit => audit
  | .policies, policies => policies
  | .governance, audit => audit

/-- The maps with which a server starts. -/
def emptyMap : (part : Part) → part.Value
  | .webhooks | .policies => fun _ => none
  | .events | .audit | .governance => fun _ => []

/-- How the maps are written and read. -/
def mapFormat : Format Part.Value where
  Stored := Part.Stored
  serialize
  deserialize
  initial := emptyMap

/-- What is in memory and in the database. -/
abbrev PersistedServer := Server mapFormat

/-- A program over the maps and the database. -/
abbrev PersistProgram := Program (Command mapFormat) Command.Reply MnemoError

/-! ## Programs -/

/-- Perform a command. -/
def call (command : Command mapFormat) : PersistProgram command.Reply := Program.call command

/-- Copy a map. -/
def snapshot (part : Part) : PersistProgram (Versioned part.Value) := call (.snapshot part)

/-- Write the copy of a map; that the database refuses it is only logged. -/
def set (part : Part) (copy : Versioned part.Value) : PersistProgram Unit :=
  call (.set part (copy.stored mapFormat))

/-- Write all maps, after all of them were copied. -/
def persistWebhookState : PersistProgram Unit := do
  let hooksSnapshot ← snapshot .webhooks
  let eventsSnapshot ← snapshot .events
  let auditSnapshot ← snapshot .audit
  let policySnapshot ← snapshot .policies
  let governanceAuditSnapshot ← snapshot .governance
  set .webhooks hooksSnapshot
  set .events eventsSnapshot
  set .audit auditSnapshot
  set .policies policySnapshot
  set .governance governanceAuditSnapshot

/-- What a server has in memory after it has started again. -/
def restoreWebhookState (server : PersistedServer) (part : Part) : part.Value :=
  server.restore part

/-- A change of one map. -/
structure Change where
  part : Part
  change : part.Value → part.Value

/-- Make some changes, one after the other. -/
def applyChanges : List Change → PersistProgram Unit
  | [] => .done ()
  | ⟨part, change⟩ :: changes => do
      call (.mutate part change)
      applyChanges changes

/-- A request changes some maps, as a deletion changes three of them, and writes all of them. -/
def handleRequest (changes : List Change) : PersistProgram (List (List Change)) := do
  applyChanges changes
  persistWebhookState
  .done []

/-- What the requests do. -/
def requests : Crew.Orders (Command mapFormat) Command.Reply MnemoError (List Change)
    (∀ part : Part, Hold part.Value) where
  outside _ := true
  handler := handleRequest
  protocol := Snapshots.protocol MnemoError mapFormat
  begins _ _ := .clean
  handsOn holds := holds

/-- The maps and the database, with the requests. -/
abbrev PersistCrew := Crew (Command mapFormat) Command.Reply MnemoError PersistedServer
  (List Change) (∀ part : Part, Hold part.Value)

/-- A request begins, or performs its next command; the database may refuse a write. -/
abbrev PersistEvent := Crew.Event Bool (List Change)

/-- One step of the requests. -/
abbrev persistStep : PersistCrew → PersistEvent → PersistCrew := Crew.step Snapshots.exec requests

/-- After a history of requests. -/
def history (events : List PersistEvent) : PersistCrew :=
  StateMachine.finish persistStep (Crew.idle (Server.fresh mapFormat)) events

/-! ## Requests write what they change -/

section Follows

variable {Value : Type} {holds : ∀ part : Part, Hold part.Value}
  {post : (∀ part : Part, Hold part.Value) → Except MnemoError Value → Prop}

theorem follows_snapshot {part : Part} {next : Versioned part.Value → PersistProgram Value}
    (rest : ∀ copy, (Snapshots.protocol MnemoError mapFormat).Follows post
      (Function.update holds part (.holding copy)) (next copy)) :
    (Snapshots.protocol MnemoError mapFormat).Follows post holds (snapshot part >>= next) := by
  have allowed : (Snapshots.protocol MnemoError mapFormat).allowed holds (.snapshot part) := trivial
  exact Follows.bind_call allowed (fun copy _ => rest copy)
    fun _ impossible => False.elim impossible

theorem follows_set {part : Part} {copy : Versioned part.Value}
    {next : Unit → PersistProgram Value} (holding : holds part = .holding copy)
    (rest : (Snapshots.protocol MnemoError mapFormat).Follows post
      (Function.update holds part .clean) (next ())) :
    (Snapshots.protocol MnemoError mapFormat).Follows post holds (set part copy >>= next) := by
  have allowed : (Snapshots.protocol MnemoError mapFormat).allowed holds
      (.set part (copy.stored mapFormat)) := ⟨copy, holding, rfl⟩
  exact Follows.bind_call allowed (fun _ _ => rest) fun _ impossible => False.elim impossible

theorem follows_applyChanges {next : Unit → PersistProgram Value}
    (rest : ∀ holds, (Snapshots.protocol MnemoError mapFormat).Follows post holds (next ()))
    (changes : List Change) (holds : ∀ part : Part, Hold part.Value) :
    (Snapshots.protocol MnemoError mapFormat).Follows post holds
      (applyChanges changes >>= next) := by
  induction changes generalizing holds with
  | nil => exact rest holds
  | cons change changes ih =>
    have allowed : (Snapshots.protocol MnemoError mapFormat).allowed holds
        (.mutate change.part change.change) := trivial
    refine .perform allowed fun reply expected => ?_
    cases reply with
    | ok value => exact ih _
    | error error => exact False.elim expected

theorem follows_persistWebhookState (holds : ∀ part : Part, Hold part.Value) :
    (Snapshots.protocol MnemoError mapFormat).Follows
      (fun last reply => (∀ part, last part = .clean) ∧ reply = .ok ()) holds
      persistWebhookState := by
  refine follows_snapshot fun hooks => ?_
  refine follows_snapshot fun events => ?_
  refine follows_snapshot fun audit => ?_
  refine follows_snapshot fun policies => ?_
  refine follows_snapshot fun governance => ?_
  refine follows_set rfl ?_
  refine follows_set rfl ?_
  refine follows_set rfl ?_
  refine follows_set rfl ?_
  refine .perform ⟨governance, rfl, rfl⟩ fun reply expected => ?_
  cases reply with
  | ok value =>
    refine .done ⟨fun part => ?_, rfl⟩
    cases part <;> rfl
  | error error => exact False.elim expected

theorem follows_handleRequest (changes : List Change) (holds : ∀ part : Part, Hold part.Value) :
    (Snapshots.protocol MnemoError mapFormat).Follows Ends holds (handleRequest changes) := by
  refine follows_applyChanges (fun holds => ?_) changes holds
  refine (follows_persistWebhookState holds).bind ?_ ?_
  · rintro last value ⟨clean, -⟩
    exact .done ⟨clean, rfl⟩
  · rintro last error ⟨-, impossible⟩
    exact nomatch impossible

end Follows

/-! ## Runs -/

/-- No subscription has a signing secret after a change; a copy is written, and none that is newer
is replaced. -/
def Safe (server : PersistedServer) (accepted : Bool) : Command mapFormat → Prop
  | .mutate .webhooks change => ∀ webhookId webhook,
      change (server.memory .webhooks).value webhookId = some webhook → webhook.signingSecret = none
  | .set part copy =>
      accepted = true ∧ ∀ old, server.store part = some old → old.version ≤ copy.version
  | _ => True

/-- The next command of a request is safe. -/
def SafeStep (crew : PersistCrew) : PersistEvent → Prop
  | .advance position accepted =>
      match crew.tasks[position]? with
      | some ⟨_, .perform command _, _⟩ => Safe crew.shared accepted command
      | _ => True
  | _ => True

theorem toSubscription_ofSubscription {webhook : MemoryWebhookSubscription}
    (plain : webhook.signingSecret = none) :
    (StoredSubscription.ofSubscription webhook).toSubscription = webhook := by
  cases webhook
  cases plain
  rfl

theorem Safe.orderly {server : PersistedServer} {accepted : Bool} {command : Command mapFormat}
    (safe : Safe server accepted command) : Snapshots.Orderly server accepted command := by
  cases command with
  | snapshot part => trivial
  | set part copy => exact safe
  | mutate part change =>
    cases part with
    | webhooks =>
      funext webhookId
      change ((change (server.memory .webhooks).value webhookId).map
        StoredSubscription.ofSubscription).map (·.toSubscription) =
          change (server.memory .webhooks).value webhookId
      cases stored : change (server.memory .webhooks).value webhookId with
      | none => rfl
      | some webhook =>
        exact congrArg some (toSubscription_ofSubscription (safe webhookId webhook stored))
    | _ => rfl

theorem SafeStep.inOrder (crew : PersistCrew) (event : PersistEvent) (safe : SafeStep crew event) :
    InOrder crew event := by
  cases event with
  | advance position accepted =>
    unfold SafeStep at safe
    unfold InOrder
    dsimp only at safe ⊢
    split
    · rename_i found
      rw [found] at safe
      exact Safe.orderly safe
    · trivial
  | _ => trivial

/-- A subscription without a signing secret. -/
def plainHook : MemoryWebhookSubscription where
  id := 1
  userId := 7
  userIdentifier := "ada"
  targetUrl := "https://hooks.example/ada"
  signingSecret := none
  events := [.factAdded]
  enabled := true
  createdAt := 0
  updatedAt := 0

/-- Store a subscription. -/
def register (webhook : MemoryWebhookSubscription) : Change where
  part := .webhooks
  change hooks := Function.update hooks webhook.id (some webhook)

/-- Remove a subscription. -/
def delete (webhookId : Uuid) : Change where
  part := .webhooks
  change hooks := Function.update hooks webhookId none

/-- One request performs some commands, and the database accepts all writes. -/
def advances (position count : Nat) : List PersistEvent :=
  List.replicate count (.advance position true)

/-- A subscription is registered; it is deleted while the registration writes. -/
def overlap : List PersistEvent :=
  .begin [register plainHook] :: advances 0 6 ++ .begin [delete 1] :: advances 1 11 ++ advances 0 5

/-- A subscription with a signing secret is registered, and nothing else happens. -/
def secretly : List PersistEvent :=
  .begin [register { plainHook with signingSecret := some "s3cret" }] :: advances 0 11

end Persistence
end Webhook
end Mnemo
