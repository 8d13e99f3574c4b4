import Mnemo.Agent.Footprint
import Mnemo.Agent.Routes
import Mnemo.Lib.Protocol

/-!
# Promotion proposals

Proposals are created, approved and rejected at the same time.  A call that decides on a proposal
reads it, and later stores what it has become; a call that completes the quorum applies the
candidate core in between.  Decisions stand as long as no call stores over a proposal that it has
not read.
-/

namespace Mnemo
namespace Agent
namespace Promotion

open Auth (CallerContext)
open Database (Command)
open Program (Completes Observed Server)
open Program.Protocol (Follows)

/-- A call on promotion proposals. -/
inductive PromotionCall where
  | propose (agentId : String) (body : CreatePromotionProposalRequest)
  | approve (caller : CallerContext) (agentId : String) (proposalId : Uuid)
  | reject (agentId : String) (proposalId : Uuid) (reason : Option String)

/-- The program of a call. -/
def PromotionCall.handle (sha256Hex toLowercase : String → String) :
    PromotionCall → AgentProgram AgentResponse
  | .propose agentId body => Routes.createPromotionProposal agentId body
  | .approve caller agentId proposalId =>
      Routes.approvePromotionProposal sha256Hex toLowercase caller agentId proposalId
  | .reject agentId proposalId reason => Routes.rejectPromotionProposal agentId proposalId reason

/-- What calls depend on beside the database: the case folding of risk levels, and the policies of
the agents, which no call changes. -/
structure Setting where
  toLowercase : String → String
  policies : String → Option ApprovalPolicy

/-- The requirement for a proposal. -/
def Setting.requirement (setting : Setting) (proposal : PromotionProposal) : ApprovalRequirement :=
  ((setting.policies proposal.agentId).getD
    (ApprovalPolicy.defaultForAgent proposal.agentId 0)).requirementForRisk setting.toLowercase
      proposal.riskLevel

/-- Among the instants is one before the expiry of a proposal, and one after its cooling period. -/
structure Setting.InTime (setting : Setting) (proposal : PromotionProposal)
    (readings : List DateTime) : Prop where
  unexpired : ∀ hours, (setting.requirement proposal).autoRejectAfterHours = some hours →
    ∃ instant ∈ readings, instant < proposal.createdAt + hours * hour
  cooled : ∀ hours, (setting.requirement proposal).coolingPeriodHours = some hours →
    ∃ instant ∈ readings, proposal.createdAt + hours * hour ≤ instant

/-- A later state of a proposal. -/
structure Revises (proposal revised : PromotionProposal) : Prop where
  id : revised.id = proposal.id
  agentId : revised.agentId = proposal.agentId
  candidateCore : revised.candidateCore = proposal.candidateCore
  riskLevel : revised.riskLevel = proposal.riskLevel
  createdAt : revised.createdAt = proposal.createdAt
  approvers : proposal.approvers ⊆ revised.approvers
  nodup : proposal.approvers.Nodup → revised.approvers.Nodup

/-! ## The protocol of a call -/

/-- How far a call has come. -/
inductive PromotionState where
  | idle
  /-- The proposal was read, and the clock has shown these instants since. -/
  | read (proposal : PromotionProposal) (readings : List DateTime)
  /-- The identity was read in order to apply the core; it may have to be created first. -/
  | based (proposal : PromotionProposal) (readings : List DateTime) (missing : Bool)
  /-- The core was applied. -/
  | applied (proposal : PromotionProposal) (readings : List DateTime)
  /-- The proposal was stored. -/
  | decided

/-- The state of a call after the reply to a command. -/
def PromotionState.after : PromotionState → (command : AgentCommand) →
    Except MnemoError (command.Reply AgentAnswer) → PromotionState
  | .idle, .get (.proposal _), .ok stored =>
      match (stored : Option PromotionProposal) with
      | some proposal => .read proposal []
      | none => .idle
  | .read proposal readings, .clock, .ok now => .read proposal (now :: readings)
  | .read proposal readings, .get (.identity _), .ok stored =>
      .based proposal readings (Option.isNone stored)
  | .based proposal readings true, .set (.identity _) _, .ok _ => .based proposal readings false
  | .based proposal readings false, .set (.identity _) _, .ok _ => .applied proposal readings
  | .read _ _, .set (.proposal _) _, .ok _ => .decided
  | .applied _ _, .set (.proposal _) _, .ok _ => .decided
  | state, _, _ => state

/-- The commands that change proposals, identities or policies. -/
def AgentCommand.onPromotion : AgentCommand → Bool
  | .set (.proposal _) _ | .del (.proposal _) | .set (.identity _) _ | .del (.identity _)
  | .set (.policy _) _ | .del (.policy _) => true
  | _ => false

/-- What a call may store in its state. -/
def PromotionState.Stores (setting : Setting) : PromotionState → AgentCommand → Prop
  | .idle, command => ∃ proposal : PromotionProposal,
      command = .set (.proposal proposal.id) proposal ∧ proposal.status = .pending ∧
        proposal.approvers = []
  | .read proposal _, command => ∃ revised : PromotionProposal,
      command = .set (.proposal revised.id) revised ∧ Revises proposal revised ∧
        proposal.status = .pending ∧ revised.status ≠ .approved
  | .based proposal readings missing, command => ∃ identity : AgentIdentityProfile,
      command = .set (.identity proposal.agentId) identity ∧ (missing = false →
        identity.core = proposal.candidateCore ∧ proposal.status = .pending ∧
          setting.InTime proposal readings)
  | .applied proposal _, command => ∃ approved : PromotionProposal,
      command = .set (.proposal approved.id) approved ∧ Revises proposal approved ∧
        proposal.status = .pending ∧ approved.status = .approved ∧
          (setting.requirement proposal).minApprovers ≤ approved.approvers.length
  | .decided, _ => False

/-- Policies are what they are, and nothing fails once a core is applied. -/
def PromotionState.Expects (setting : Setting) : PromotionState → (command : AgentCommand) →
    Except MnemoError (command.Reply AgentAnswer) → Prop
  | .applied _ _, _, reply => ∃ value, reply = .ok value
  | _, .get (.policy agentId), .ok stored => stored = setting.policies agentId
  | _, _, _ => True

/-- The protocol of calls. -/
def promotionProtocol (setting : Setting) :
    Program.Protocol AgentCommand (·.Reply AgentAnswer) MnemoError PromotionState where
  start := .idle
  allowed state command := AgentCommand.onPromotion command = false ∨ state.Stores setting command
  expected := PromotionState.Expects setting
  next := PromotionState.after

/-- The core was applied, and the proposal is not stored yet. -/
def PromotionState.isMidway : PromotionState → Bool
  | .applied _ _ => true
  | _ => false

/-- A call does not end midway. -/
def PromotionState.Ended {α : Type} (last : PromotionState) (_ : Except MnemoError α) : Prop :=
  last.isMidway = false

section Follows

variable {sha256Hex : String → String} {setting : Setting} {agentId : String}
  {proposal : PromotionProposal} {readings : List DateTime}

theorem auditCommand_apart (command : AgentCommand) (audit : AuditCommand agentId command) :
    AgentCommand.onPromotion command = false := by
  unfold AuditCommand at audit
  split at audit <;> first | rfl | exact audit.elim

/-- In these states a call only waits for what it stores. -/
def PromotionState.Waits : PromotionState → Prop
  | .based _ _ _ | .applied _ _ | .decided => True
  | .idle | .read _ _ => False

theorem waits_based (missing : Bool) :
    (PromotionState.based proposal readings missing).Waits := trivial

theorem waits_applied : (PromotionState.applied proposal readings).Waits := trivial

theorem PromotionState.after_of_waits {state : PromotionState} (waits : state.Waits)
    {command : AgentCommand} (apart : AgentCommand.onPromotion command = false)
    (reply : Except MnemoError (command.Reply AgentAnswer)) :
    state.after command reply = state := by
  unfold PromotionState.after
  split <;> first | exact False.elim waits | cases apart | rfl

/-- A part of a call ends in a state; when it fails, the call is not midway. -/
def PromotionState.Reaches {α : Type} (state last : PromotionState) :
    Except MnemoError α → Prop
  | .ok _ => last = state
  | .error _ => last.isMidway = false

theorem follows_of_apart {α : Type} {program : AgentProgram α}
    (completes : Completes (fun command => AgentCommand.onPromotion command = false) program)
    {state : PromotionState} (waits : state.Waits) :
    (promotionProtocol setting).Follows state.Reaches state program := by
  apply Follows.of_completes completes
  · exact fun command apart => .inl apart
  · exact fun command value apart => PromotionState.after_of_waits waits apart (.ok value)
  · exact fun value => rfl
  · intro command error other apart expected
    have same : (promotionProtocol setting).next state command (.error error) = state :=
      PromotionState.after_of_waits waits apart (.error error)
    rw [same]
    cases state with
    | applied proposal readings =>
      obtain ⟨value, impossible⟩ := expected
      cases impossible
    | _ => rfl

theorem follows_appendIdentityAudit (action : AgentIdentityAuditAction)
    (fromVersion : Option Nat) (toVersion : Nat) (rollbackToVersion : Option Nat)
    (reason : Option String) {state : PromotionState} (waits : state.Waits) :
    (promotionProtocol setting).Follows state.Reaches state
      (appendIdentityAudit sha256Hex agentId action fromVersion toVersion rollbackToVersion
        reason) :=
  follows_of_apart ((completes_appendIdentityAudit _ _ _ _ _).mono auditCommand_apart) waits

/-- The state in which a call has persisted an identity. -/
def PromotionState.persisted (proposal : PromotionProposal) (readings : List DateTime)
    (missing : Bool) : PromotionState :=
  if missing then .based proposal readings false else .applied proposal readings

theorem follows_persistIdentitySnapshot {missing : Bool} {identity : AgentIdentityProfile}
    (applies : missing = false → identity.core = proposal.candidateCore ∧
      proposal.status = .pending ∧ setting.InTime proposal readings) :
    (promotionProtocol setting).Follows
      (PromotionState.persisted proposal readings missing).Reaches
      (.based proposal readings missing)
      (persistIdentitySnapshot proposal.agentId identity) := by
  apply Follows.bind_call
  · exact Or.inr ⟨identity, rfl, applies⟩
  · intro _ _
    have snapshot : Completes (fun command => AgentCommand.onPromotion command = false)
        (do
          Redis.set (.version proposal.agentId identity.version) identity
          Redis.zadd (.versions proposal.agentId) (toString identity.version)
            identity.version) := by
      apply Completes.bind
      · exact .call _ rfl
      · exact fun _ => .call _ rfl
    have waits : (PromotionState.persisted proposal readings missing).Waits := by
      cases missing <;> exact trivial
    have rest : (promotionProtocol setting).Follows
        (PromotionState.persisted proposal readings missing).Reaches
        (.persisted proposal readings missing) _ := follows_of_apart snapshot waits
    cases missing with
    | true => exact rest
    | false => exact rest
  · intro error _
    cases missing <;> rfl

theorem follows_getAgentIdentity :
    (promotionProtocol setting).Follows (PromotionState.based proposal readings false).Reaches
      (.read proposal readings) (getAgentIdentity sha256Hex proposal.agentId) := by
  apply Follows.bind_call
  · exact Or.inl rfl
  · intro stored _
    cases stored with
    | some identity => exact .done rfl
    | none =>
      apply Follows.bind_call
      · exact Or.inl rfl
      · intro now _
        have creates : (promotionProtocol setting).Follows
            (PromotionState.persisted proposal readings true).Reaches
            (.based proposal readings true)
            (persistIdentitySnapshot proposal.agentId
              (AgentIdentityProfile.new proposal.agentId now)) :=
          follows_persistIdentitySnapshot fun impossible => nomatch impossible
        apply creates.bind
        · rintro middle _ rfl
          apply (follows_appendIdentityAudit _ _ _ _ _ (waits_based _)).bind
          · rintro last _ rfl
            apply (follows_of_apart (.call _ rfl) (waits_based _)).bind
            · rintro last _ rfl
              exact .done rfl
            · exact fun last error stopped => stopped
          · exact fun last error stopped => stopped
        · exact fun last error stopped => stopped
      · exact fun _ _ => rfl
  · exact fun _ _ => rfl

theorem follows_updateAgentIdentity (pending : proposal.status = .pending)
    (inTime : setting.InTime proposal readings) :
    (promotionProtocol setting).Follows (PromotionState.applied proposal readings).Reaches
      (.read proposal readings)
      (updateAgentIdentity sha256Hex proposal.agentId proposal.candidateCore) := by
  apply follows_getAgentIdentity.bind
  · rintro middle identity rfl
    apply Follows.bind_call
    · exact Or.inl rfl
    · intro now _
      apply (follows_persistIdentitySnapshot fun _ => ⟨rfl, pending, inTime⟩).bind
      · rintro middle _ rfl
        apply (follows_appendIdentityAudit _ _ _ _ _ waits_applied).bind
        · rintro last _ rfl
          exact .done rfl
        · exact fun last error stopped => stopped
      · exact fun last error stopped => stopped
    · exact fun _ _ => rfl
  · exact fun last error stopped => stopped

/-! ### Creating a proposal -/

theorem follows_requireSourceEvents (eventIds : List Uuid) :
    (promotionProtocol setting).Follows (fun last _ => last = .idle) .idle
      (Routes.requireSourceEvents eventIds) := by
  induction eventIds with
  | nil => exact .done rfl
  | cons eventId eventIds ih =>
    apply Follows.bind_call
    · exact Or.inl rfl
    · intro event _
      cases event with
      | none => exact .fail rfl
      | some event => exact ih
    · exact fun _ _ => rfl

theorem follows_orNewId (given : Option Uuid) :
    (promotionProtocol setting).Follows (fun last _ => last = .idle) .idle (orNewId given) := by
  cases given with
  | some id => exact .done rfl
  | none =>
    refine .perform (.inl rfl) fun reply _ => ?_
    cases reply with
    | ok id => exact .done rfl
    | error error => exact .fail rfl

theorem follows_createPromotionProposal (owner : String)
    (body : CreatePromotionProposalRequest) :
    (promotionProtocol setting).Follows PromotionState.Ended .idle
      (createPromotionProposal owner body) := by
  apply (follows_orNewId _).bind
  · rintro _ id rfl
    apply Follows.bind_call
    · exact Or.inl rfl
    · intro createdAt _
      apply Follows.bind_call
      · exact Or.inr ⟨_, rfl, rfl, rfl⟩
      · intro _ _
        apply Follows.bind_call
        · exact Or.inl rfl
        · exact fun _ _ => .done rfl
        · exact fun _ _ => rfl
      · exact fun _ _ => rfl
    · exact fun _ _ => rfl
  · rintro _ error rfl
    rfl

theorem follows_propose (owner : String) (body : CreatePromotionProposalRequest) :
    (promotionProtocol setting).Follows PromotionState.Ended .idle
      (Routes.createPromotionProposal owner body) := by
  apply Follows.bind_ofExcept
  · intro owner _
    apply Follows.bind_ofExcept
    · intro _ _
      apply Follows.bind_ofExcept
      · intro _ _
        apply Follows.bind_ofExcept
        · intro _ _
          split
          · exact .fail rfl
          · apply (follows_requireSourceEvents _).bind
            · rintro _ _ rfl
              apply (follows_createPromotionProposal _ _).bind
              · exact fun last value ended => .done ended
              · exact fun last error ended => ended
            · rintro _ error rfl
              rfl
        · exact fun _ => rfl
      · exact fun _ => rfl
    · exact fun _ => rfl
  · exact fun _ => rfl

/-! ### Deciding on a proposal -/

/-- A proposal was read that meets the condition. -/
def PromotionState.HasRead (condition : PromotionProposal → Prop) (last : PromotionState) :
    Except MnemoError PromotionProposal → Prop
  | .ok proposal => last = .read proposal [] ∧ condition proposal
  | .error _ => last.isMidway = false

theorem follows_getRequired (proposalId : Uuid) (notFound : MnemoError) :
    (promotionProtocol setting).Follows (PromotionState.HasRead fun _ => True) .idle
      (Redis.getRequired (.proposal proposalId) notFound) := by
  apply Follows.bind_call
  · exact Or.inl rfl
  · intro stored _
    cases stored with
    | none => exact .fail rfl
    | some proposal => exact .done ⟨rfl, trivial⟩
  · exact fun _ _ => rfl

theorem follows_getPromotionProposal (owner : String) (proposalId : Uuid) :
    (promotionProtocol setting).Follows (PromotionState.HasRead (·.agentId = owner)) .idle
      (getPromotionProposal owner proposalId) := by
  apply (follows_getRequired _ _).bind
  · rintro _ proposal ⟨rfl, _⟩
    by_cases same : proposal.agentId = owner
    · simp only [same, ne_eq, not_true_eq_false, ite_false]
      exact .done ⟨rfl, same⟩
    · simp only [same, ne_eq, not_false_eq_true, ite_true]
      exact .fail rfl
  · exact fun last error stopped => stopped

theorem requirePending_ok {value : Unit} (ok : Routes.requirePending proposal = .ok value) :
    proposal.status = .pending := by
  unfold Routes.requirePending at ok
  split at ok
  · assumption
  · cases ok

theorem requirementForRisk_defaultForAgent (toLowercase : String → String) (owner : String)
    (now : DateTime) (riskLevel : String) :
    (ApprovalPolicy.defaultForAgent owner now).requirementForRisk toLowercase riskLevel =
      default := by
  unfold ApprovalPolicy.requirementForRisk
  dsimp only
  split
  · rfl
  · split <;> rfl

theorem follows_approvalPolicy :
    (promotionProtocol setting).Follows
      (fun last outcome => last.isMidway = false ∧ ∀ policy, outcome = .ok policy →
        (∃ readings, last = .read proposal readings) ∧
          policy.requirementForRisk setting.toLowercase proposal.riskLevel =
            setting.requirement proposal)
      (.read proposal []) (Routes.approvalPolicy proposal.agentId) := by
  apply Follows.bind_call
  · exact Or.inl rfl
  · intro stored (known : stored = setting.policies proposal.agentId)
    cases stored with
    | some policy =>
      refine .done ⟨rfl, ?_⟩
      rintro _ ⟨⟩
      refine ⟨⟨[], rfl⟩, ?_⟩
      rw [Setting.requirement, ← known]
      rfl
    | none =>
      apply Follows.bind_call
      · exact Or.inl rfl
      · intro now _
        refine .done ⟨rfl, ?_⟩
        rintro _ ⟨⟩
        refine ⟨⟨[now], rfl⟩, ?_⟩
        rw [Setting.requirement, ← known]
        exact (requirementForRisk_defaultForAgent _ _ now _).trans
          (requirementForRisk_defaultForAgent _ _ 0 _).symm
      · exact fun _ _ => ⟨rfl, fun _ impossible => nomatch impossible⟩
  · exact fun _ _ => ⟨rfl, fun _ impossible => nomatch impossible⟩

theorem follows_decide {α : Type} {revised : PromotionProposal}
    {rest : AgentProgram α} (revises : Revises proposal revised)
    (pending : proposal.status = .pending) (unapproved : revised.status ≠ .approved)
    (ends : (promotionProtocol setting).Follows PromotionState.Ended .decided rest) :
    (promotionProtocol setting).Follows PromotionState.Ended (.read proposal readings)
      (do
        updatePromotionProposal revised
        rest) := by
  have stores : (promotionProtocol setting).allowed (.read proposal readings)
      (.set (.proposal revised.id) revised : AgentCommand) :=
    Or.inr ⟨revised, rfl, revises, pending, unapproved⟩
  apply Follows.bind_call stores
  · exact fun _ _ => ends
  · exact fun _ _ => rfl

theorem revises_withApprover (name : String) :
    Revises proposal (Routes.withApprover proposal name) := by
  unfold Routes.withApprover
  constructor
  · rfl
  · rfl
  · rfl
  · rfl
  · rfl
  · dsimp only
    split
    · exact List.Subset.refl _
    · exact List.subset_append_left _ _
  · dsimp only
    intro distinct
    split
    · exact distinct
    · rename_i other
      rw [List.nodup_append]
      refine ⟨distinct, List.nodup_singleton name, ?_⟩
      intro approver before added isName same
      rw [List.mem_singleton] at isName
      rw [same, isName] at before
      exact other (List.contains_iff_mem.mpr before)

theorem inTime_of_checks {policy : ApprovalPolicy} {checkedAt cooledAt : DateTime}
    (same : policy.requirementForRisk setting.toLowercase proposal.riskLevel =
      setting.requirement proposal)
    (pending : proposal.status = .pending)
    (unexpired : proposal.isExpired setting.toLowercase policy checkedAt = false)
    (cooled : proposal.coolingPeriodElapsed setting.toLowercase policy cooledAt = true)
    (readings : List DateTime) :
    setting.InTime proposal (cooledAt :: checkedAt :: readings) := by
  unfold PromotionProposal.isExpired at unexpired
  unfold PromotionProposal.coolingPeriodElapsed at cooled
  rw [same] at unexpired cooled
  constructor
  · intro hours expires
    refine ⟨checkedAt, by simp, ?_⟩
    rw [pending, expires] at unexpired
    simpa using unexpired
  · intro hours waits
    refine ⟨cooledAt, by simp, ?_⟩
    rw [waits] at cooled
    simpa using cooled

theorem follows_applyPromotion {approved : PromotionProposal}
    (revises : Revises proposal approved) (pending : proposal.status = .pending)
    (inTime : setting.InTime proposal readings)
    (quorum : (setting.requirement proposal).minApprovers ≤ approved.approvers.length) :
    (promotionProtocol setting).Follows PromotionState.Ended (.read proposal readings)
      (Routes.applyPromotion sha256Hex proposal.agentId approved) := by
  apply Follows.bind_ofExcept
  · intro _ _
    have applies : (promotionProtocol setting).Follows
        (PromotionState.applied proposal readings).Reaches (.read proposal readings)
        (updateAgentIdentity sha256Hex proposal.agentId approved.candidateCore) := by
      rw [revises.candidateCore]
      exact follows_updateAgentIdentity pending inTime
    apply applies.bind
    · rintro _ updated rfl
      apply Follows.bind_call
      · exact Or.inl rfl
      · intro approvedAt _
        apply Follows.bind_call
        · obtain ⟨id, agentId, candidateCore, riskLevel, createdAt, approvers, nodup⟩ := revises
          exact Or.inr ⟨_, rfl, ⟨id, agentId, candidateCore, riskLevel, createdAt, approvers,
            nodup⟩, pending, rfl, quorum⟩
        · exact fun _ _ => .done rfl
        · rintro error ⟨value, impossible⟩
          cases impossible
      · rintro error ⟨value, impossible⟩
        cases impossible
    · exact fun last error stopped => stopped
  · exact fun _ => rfl

theorem follows_approve (caller : CallerContext) (owner : String) (proposalId : Uuid) :
    (promotionProtocol setting).Follows PromotionState.Ended .idle
      (Routes.approvePromotionProposal sha256Hex setting.toLowercase caller owner
        proposalId) := by
  apply Follows.bind_ofExcept
  · intro owner _
    apply (follows_getPromotionProposal _ _).bind
    · rintro _ proposal ⟨rfl, rfl⟩
      apply Follows.bind_ofExcept
      · intro _ isPending
        have pending := requirePending_ok isPending
        apply follows_approvalPolicy.bind
        · rintro _ policy ⟨_, read⟩
          obtain ⟨⟨readings, rfl⟩, same⟩ := read policy rfl
          apply Follows.bind_call
          · exact Or.inl rfl
          · intro checkedAt _
            dsimp only
            split
            · apply Follows.bind_call
              · exact Or.inl rfl
              · intro expiredAt _
                apply follows_decide _ pending _ (.fail rfl)
                · exact ⟨rfl, rfl, rfl, rfl, rfl, List.Subset.refl _, id⟩
                · exact fun impossible => nomatch impossible
              · exact fun _ _ => rfl
            · rename_i unexpired
              apply Follows.bind_call
              · exact Or.inl rfl
              · intro cooledAt _
                split
                · exact .fail rfl
                · rename_i cooled
                  have inTime := inTime_of_checks same pending (by simpa using unexpired)
                    (by simpa using cooled) readings
                  have revises : Revises proposal (Routes.withApprover proposal caller.keyName) :=
                    revises_withApprover caller.keyName
                  split
                  · rename_i quorum
                    apply follows_applyPromotion revises pending inTime
                    have enough := of_decide_eq_true quorum
                    rw [revises.riskLevel] at enough
                    exact same ▸ enough
                  · apply follows_decide revises pending _ (.done rfl)
                    intro impossible
                    cases pending.symm.trans impossible
              · exact fun _ _ => rfl
          · exact fun _ _ => rfl
        · exact fun last error stopped => stopped.1
      · exact fun _ => rfl
    · exact fun last error stopped => stopped
  · exact fun _ => rfl

theorem follows_reject (owner : String) (proposalId : Uuid) (reason : Option String) :
    (promotionProtocol setting).Follows PromotionState.Ended .idle
      (Routes.rejectPromotionProposal owner proposalId reason) := by
  apply Follows.bind_ofExcept
  · intro owner _
    apply (follows_getPromotionProposal _ _).bind
    · rintro _ proposal ⟨rfl, rfl⟩
      apply Follows.bind_ofExcept
      · intro _ isPending
        apply Follows.bind_call
        · exact Or.inl rfl
        · intro rejectedAt _
          apply follows_decide _ (requirePending_ok isPending) _ (.done rfl)
          · exact ⟨rfl, rfl, rfl, rfl, rfl, List.Subset.refl _, id⟩
          · exact fun impossible => nomatch impossible
        · exact fun _ _ => rfl
      · exact fun _ => rfl
    · exact fun last error stopped => stopped
  · exact fun _ => rfl

theorem PromotionCall.follows (call : PromotionCall) :
    (promotionProtocol setting).Follows PromotionState.Ended .idle
      (call.handle sha256Hex setting.toLowercase) := by
  cases call with
  | propose owner body => exact follows_propose owner body
  | approve caller owner proposalId => exact follows_approve caller owner proposalId
  | reject owner proposalId reason => exact follows_reject owner proposalId reason

end Follows

/-! ## Calls in turn -/

/-- A core that was applied, and the instants that the call had read before. -/
structure Application where
  agentId : String
  core : Json
  readings : List DateTime

/-- What was stored and applied for each proposal, the newest first. -/
structure PromotionLog where
  stored : Uuid → List PromotionProposal
  applied : Uuid → List Application

/-- Note a proposal that is stored. -/
def PromotionLog.store (log : PromotionLog) (id : Uuid) (proposal : PromotionProposal) :
    PromotionLog :=
  { log with stored := Function.update log.stored id (proposal :: log.stored id) }

/-- Note a core that is applied. -/
def PromotionLog.apply (log : PromotionLog) (id : Uuid) (application : Application) :
    PromotionLog :=
  { log with applied := Function.update log.applied id (application :: log.applied id) }

namespace PromotionLog

variable (log : PromotionLog)

@[simp]
theorem stored_store_self (id : Uuid) (proposal : PromotionProposal) :
    (log.store id proposal).stored id = proposal :: log.stored id := Function.update_self _ _ _

theorem stored_store_of_ne {id other : Uuid} (different : other ≠ id)
    (proposal : PromotionProposal) : (log.store id proposal).stored other = log.stored other :=
  Function.update_of_ne different _ _

@[simp]
theorem applied_apply_self (id : Uuid) (application : Application) :
    (log.apply id application).applied id = application :: log.applied id :=
  Function.update_self _ _ _

theorem applied_apply_of_ne {id other : Uuid} (different : other ≠ id)
    (application : Application) :
    (log.apply id application).applied other = log.applied other :=
  Function.update_of_ne different _ _

end PromotionLog

/-- Note the proposals that are stored and the cores that are applied. -/
def watchPromotions (log : PromotionLog) (_ : Nat) (state : PromotionState) :
    (command : AgentCommand) → Database.Input AgentAnswer MnemoError →
      Except MnemoError (command.Reply AgentAnswer) → PromotionLog
  | .set (.proposal id) (proposal : PromotionProposal), _, .ok _ => log.store id proposal
  | .set (.identity agentId) (identity : AgentIdentityProfile), _, .ok _ =>
      match state with
      | .based proposal readings false =>
          log.apply proposal.id { agentId, core := identity.core, readings }
      | _ => log
  | _, _, _ => log

/-- A server of calls. -/
abbrev PromotionServer :=
  Server AgentCommand (·.Reply AgentAnswer) MnemoError AgentContents PromotionCall AgentResponse

/-- A server of calls under observation. -/
abbrev ObservedPromotions :=
  Observed AgentCommand (·.Reply AgentAnswer) MnemoError AgentContents PromotionCall
    AgentResponse PromotionState PromotionLog

/-- An event of a run of calls. -/
abbrev PromotionEvent := Program.Event (Database.Input AgentAnswer MnemoError) PromotionCall

/-- The proposal that a call has in hand. -/
def PromotionState.inHand : PromotionState → Option PromotionProposal
  | .idle | .decided => none
  | .read proposal _ | .based proposal _ _ | .applied proposal _ => some proposal

/-- A proposal is stored over the one that the call has in hand, or where there is none; a core is
applied while the proposal is the one in hand, and no other call is midway with it. -/
def Timely (contents : AgentContents) (locals : Nat → PromotionState) (state : PromotionState) :
    AgentCommand → Prop
  | .set (.proposal id) _ => contents.docs (.proposal id) = state.inHand
  | .set (.identity _) _ =>
      match state with
      | .based proposal _ false => contents.docs (.proposal proposal.id) = some proposal ∧
          ∀ thread other readings, locals thread = .applied other readings →
            other.id ≠ proposal.id
      | _ => True
  | _ => True

/-- Everything that a call stores is timely, and a call that is midway is not cut off by a
failure. -/
def DecidesInTurn (observed : ObservedPromotions) : PromotionEvent → Prop
  | .arrive _ _ => True
  | .advance thread input =>
      match observed.server.threads thread with
      | some (_, .perform command _) =>
          (input.failure = none →
            Timely observed.server.shared observed.locals (observed.locals thread) command) ∧
          ((observed.locals thread).isMidway = true → input.failure = none)
      | _ => True

/-- No call is under way. -/
def AllEnded (server : PromotionServer) : Prop :=
  ∀ thread call command continuation,
    server.threads thread ≠ some (call, .perform command continuation)

section Runs

variable (sha256Hex : String → String) (setting : Setting)

/-- One step of the observed server. -/
def promotionStep : ObservedPromotions → PromotionEvent → ObservedPromotions :=
  Observed.step Database.exec (PromotionCall.handle sha256Hex setting.toLowercase)
    (promotionProtocol setting) watchPromotions

/-- Nothing has been stored or applied. -/
def emptyLog : PromotionLog :=
  { stored := fun _ => [], applied := fun _ => [] }

/-- Beginning with contents that have these policies and no proposals. -/
structure Setting.Begins (contents : AgentContents) : Prop where
  policies : ∀ agentId, contents.docs (.policy agentId) = setting.policies agentId
  fresh : ∀ id, contents.docs (.proposal id) = none

/-- A proposal that was approved with enough approvers, whose core was applied in time. -/
structure Setting.Confirms (proposal : PromotionProposal) (application : Application) :
    Prop where
  approved : proposal.status = .approved
  agentId : application.agentId = proposal.agentId
  core : application.core = proposal.candidateCore
  inTime : setting.InTime proposal application.readings
  distinct : proposal.approvers.Nodup
  quorum : (setting.requirement proposal).minApprovers ≤ proposal.approvers.length

/-- Decisions stand, no recorded approval is lost, and a core is applied once and for the proposals
that are approved by enough approvers in time. -/
structure DecisionsStand (observed : ObservedPromotions) : Prop where
  final : ∀ id earlier, earlier ∈ observed.account.stored id → earlier.status ≠ .pending →
    ∃ current : PromotionProposal, observed.server.shared.docs (.proposal id) = some current ∧
      current.status = earlier.status
  recorded : ∀ id earlier, earlier ∈ observed.account.stored id →
    ∃ current : PromotionProposal, observed.server.shared.docs (.proposal id) = some current ∧
      earlier.approvers ⊆ current.approvers
  once : ∀ id, (observed.account.applied id).length ≤ 1
  confirmed : ∀ id (current : PromotionProposal),
    observed.server.shared.docs (.proposal id) = some current → current.status = .approved →
      ∃ application ∈ observed.account.applied id, setting.Confirms current application
  applied : AllEnded observed.server → ∀ id, observed.account.applied id ≠ [] →
    ∃ current : PromotionProposal, observed.server.shared.docs (.proposal id) = some current ∧
      current.status = .approved

/-! ### What is kept -/

/-- The log of a proposal ends with the stored one, which keeps the approvals and the decision. -/
structure Recorded (contents : AgentContents) (log : PromotionLog) : Prop where
  current : ∀ id, contents.docs (.proposal id) = (log.stored id).head?
  policies : ∀ agentId, contents.docs (.policy agentId) = setting.policies agentId
  history : ∀ id (current : PromotionProposal), contents.docs (.proposal id) = some current →
    current.approvers.Nodup ∧ ∀ earlier ∈ log.stored id,
      earlier.approvers ⊆ current.approvers ∧
        (earlier.status ≠ .pending → current.status = earlier.status)

/-- No call is midway with the proposal. -/
def Nobody (locals : Nat → PromotionState) (id : Uuid) : Prop :=
  ∀ thread proposal readings, locals thread = .applied proposal readings → proposal.id ≠ id

/-- The proposal is not approved. -/
def Unapproved (contents : AgentContents) (id : Uuid) : Prop :=
  ∀ proposal : PromotionProposal, contents.docs (.proposal id) = some proposal →
    proposal.status ≠ .approved

/-- How far a proposal has come. -/
inductive Progress (contents : AgentContents) (locals : Nat → PromotionState) (log : PromotionLog)
    (id : Uuid) : Prop
  | undecided (nobody : Nobody locals id) (unapproved : Unapproved contents id)
      (unapplied : log.applied id = [])
  | midway {thread : Nat} {proposal : PromotionProposal} {readings : List DateTime}
      (holder : locals thread = .applied proposal readings) (same : proposal.id = id)
      (alone : ∀ other held instants, locals other = .applied held instants → held.id = id →
        other = thread)
      (unapproved : Unapproved contents id) (inTime : setting.InTime proposal readings)
      (applied : log.applied id = [⟨proposal.agentId, proposal.candidateCore, readings⟩])
  | closed {current : PromotionProposal} {application : Application}
      (nobody : Nobody locals id)
      (stored : contents.docs (.proposal id) = some current)
      (confirms : setting.Confirms current application)
      (applied : log.applied id = [application])

/-- What calls in turn keep. -/
structure PromotionsKept (contents : AgentContents) (locals : Nat → PromotionState)
    (log : PromotionLog) : Prop where
  recorded : Recorded setting contents log
  progress : ∀ id, Progress setting contents locals log id

variable {sha256Hex setting} {contents after : AgentContents} {log : PromotionLog}
  {locals moved : Nat → PromotionState} {thread : Nat} {id : Uuid}

theorem Nobody.of_iff (nobody : Nobody locals id)
    (same : ∀ thread proposal readings, moved thread = .applied proposal readings ↔
      locals thread = .applied proposal readings) : Nobody moved id :=
  fun thread proposal readings held => nobody thread proposal readings ((same _ _ _).mp held)

theorem PromotionsKept.congr (kept : PromotionsKept setting contents locals log)
    (proposals : ∀ id, after.docs (.proposal id) = contents.docs (.proposal id))
    (policies : ∀ agentId, after.docs (.policy agentId) = contents.docs (.policy agentId))
    (same : ∀ thread proposal readings, moved thread = .applied proposal readings ↔
      locals thread = .applied proposal readings) :
    PromotionsKept setting after moved log := by
  obtain ⟨⟨current, known, history⟩, progress⟩ := kept
  refine ⟨⟨fun id => ?_, fun agentId => ?_, fun id stored => ?_⟩, fun id => ?_⟩
  · rw [proposals]
    exact current id
  · rw [policies]
    exact known agentId
  · rw [proposals]
    exact history id stored
  · have unapproved (before : Unapproved contents id) : Unapproved after id := by
      intro proposal stored
      rw [proposals] at stored
      exact before proposal stored
    cases progress id with
    | undecided nobody before unapplied =>
      exact .undecided (nobody.of_iff same) (unapproved before) unapplied
    | midway holder isThis alone before inTime applied =>
      apply Progress.midway ((same _ _ _).mpr holder) isThis _ (unapproved before) inTime applied
      intro other held instants held_other
      exact alone other held instants ((same _ _ _).mp held_other)
    | closed nobody stored confirms applied =>
      exact .closed (nobody.of_iff same) ((proposals id).trans stored) confirms applied

/-- A proposal is stored over its earlier state. -/
theorem Recorded.store (recorded : Recorded setting contents log) {proposal : PromotionProposal}
    (distinct : proposal.approvers.Nodup)
    (succeeds : ∀ current : PromotionProposal,
      contents.docs (.proposal proposal.id) = some current →
        current.status = .pending ∧ current.approvers ⊆ proposal.approvers) :
    Recorded setting (contents.put (.proposal proposal.id) proposal)
      (log.store proposal.id proposal) := by
  obtain ⟨current, policies, history⟩ := recorded
  have mine : (contents.put (.proposal proposal.id) proposal).docs (.proposal proposal.id) =
      some proposal := Database.Contents.docs_put_self _ _ _
  have others (id : Uuid) (different : id ≠ proposal.id) :
      (contents.put (.proposal proposal.id) proposal).docs (.proposal id) =
        contents.docs (.proposal id) :=
    Database.Contents.docs_put_of_ne _ (by simpa using different) _
  constructor
  · intro id
    rcases eq_or_ne id proposal.id with rfl | different
    · apply mine.trans
      rw [log.stored_store_self]
      rfl
    · apply (others id different).trans
      rw [log.stored_store_of_ne different]
      exact current id
  · exact fun agentId =>
      (Database.Contents.docs_put_of_ne _ (by simp) _).trans (policies agentId)
  · intro id stored found
    rcases eq_or_ne id proposal.id with rfl | different
    · obtain rfl := Option.some.inj (mine.symm.trans found)
      refine ⟨distinct, fun earlier logged => ?_⟩
      rw [log.stored_store_self] at logged
      rcases List.mem_cons.mp logged with rfl | before
      · exact ⟨List.Subset.refl _, fun _ => rfl⟩
      · cases older : log.stored proposal.id with
        | nil =>
          rw [older] at before
          cases before
        | cons last others =>
          have was : contents.docs (.proposal proposal.id) = some last := by
            rw [current, older]
            rfl
          obtain ⟨pending, kept⟩ := succeeds last was
          obtain ⟨approvers, status⟩ := (history _ last was).2 earlier before
          refine ⟨List.Subset.trans approvers kept, fun terminal => ?_⟩
          exact absurd ((status terminal).symm.trans pending) terminal
    · rw [log.stored_store_of_ne different]
      exact history id stored ((others id different).symm.trans found)

theorem PromotionsKept.store (kept : PromotionsKept setting contents locals log)
    {proposal : PromotionProposal} (unapproved : proposal.status ≠ .approved)
    (distinct : proposal.approvers.Nodup)
    (succeeds : ∀ current : PromotionProposal,
      contents.docs (.proposal proposal.id) = some current →
        current.status = .pending ∧ current.approvers ⊆ proposal.approvers)
    (same : ∀ thread proposal readings, moved thread = .applied proposal readings ↔
      locals thread = .applied proposal readings) :
    PromotionsKept setting (contents.put (.proposal proposal.id) proposal) moved
      (log.store proposal.id proposal) := by
  refine ⟨kept.recorded.store distinct succeeds, fun id => ?_⟩
  have others (different : id ≠ proposal.id) :
      (contents.put (.proposal proposal.id) proposal).docs (.proposal id) =
        contents.docs (.proposal id) :=
    Database.Contents.docs_put_of_ne _ (by simpa using different) _
  have stays (before : Unapproved contents id) :
      Unapproved (contents.put (.proposal proposal.id) proposal) id := by
    intro stored found
    rcases eq_or_ne id proposal.id with rfl | different
    · obtain rfl := Option.some.inj
        ((Database.Contents.docs_put_self contents _ _).symm.trans found)
      exact unapproved
    · exact before stored ((others different).symm.trans found)
  cases kept.progress id with
  | undecided nobody before unapplied =>
    exact .undecided (nobody.of_iff same) (stays before) unapplied
  | midway holder isThis alone before inTime applied =>
    have still (other : Nat) (held : PromotionProposal) (instants : List DateTime)
        (holds : moved other = .applied held instants) (isHeld : held.id = id) : other = _ :=
      alone other held instants ((same _ _ _).mp holds) isHeld
    exact .midway ((same _ _ _).mpr holder) isThis still (stays before) inTime applied
  | closed nobody stored confirms applied =>
    rcases eq_or_ne id proposal.id with rfl | different
    · have pending := (succeeds _ stored).1
      cases pending.symm.trans confirms.approved
    · exact .closed (nobody.of_iff same) ((others different).trans stored) confirms applied

/-- A core is applied. -/
theorem PromotionsKept.apply (kept : PromotionsKept setting contents locals log)
    {proposal : PromotionProposal} {readings : List DateTime}
    (stored : contents.docs (.proposal proposal.id) = some proposal)
    (pending : proposal.status = .pending) (inTime : setting.InTime proposal readings)
    (alone : Nobody locals proposal.id) (identity : AgentIdentityProfile)
    (was : ∀ held instants, locals thread ≠ .applied held instants)
    (core : identity.core = proposal.candidateCore) :
    PromotionsKept setting (contents.put (.identity proposal.agentId) identity)
      (Function.update locals thread (.applied proposal readings))
      (log.apply proposal.id
        { agentId := proposal.agentId, core := identity.core, readings }) := by
  have proposals (id : Uuid) :
      (contents.put (.identity proposal.agentId) identity).docs (.proposal id) =
        contents.docs (.proposal id) := Database.Contents.docs_put_of_ne _ (by simp) _
  have policies (agentId : String) :
      (contents.put (.identity proposal.agentId) identity).docs (.policy agentId) =
        contents.docs (.policy agentId) := Database.Contents.docs_put_of_ne _ (by simp) _
  obtain ⟨recorded, progress⟩ := kept.congr proposals policies fun _ _ _ => Iff.rfl
  refine ⟨⟨recorded.current, recorded.policies, recorded.history⟩, fun id => ?_⟩
  rcases eq_or_ne id proposal.id with rfl | different
  · have unapproved : Unapproved (contents.put (.identity proposal.agentId) identity)
        proposal.id := by
      intro current found approved
      obtain rfl := Option.some.inj (stored.symm.trans ((proposals _).symm.trans found))
      cases pending.symm.trans approved
    cases progress proposal.id with
    | undecided nobody before unapplied =>
      apply Progress.midway (Function.update_self _ _ _) rfl _ unapproved inTime
      · rw [log.applied_apply_self, unapplied, core]
      · intro other held instants holds isThis
        by_contra different
        rw [Function.update_of_ne different] at holds
        exact alone other held instants holds isThis
    | midway holder isThis =>
      exact absurd isThis (alone _ _ _ holder)
    | closed nobody found confirms =>
      exact absurd confirms.approved (unapproved _ found)
  · have nobody (free : Nobody locals id) :
        Nobody (Function.update locals thread (.applied proposal readings)) id := by
      intro other held instants holds
      rcases eq_or_ne other thread with rfl | apart
      · rw [Function.update_self] at holds
        obtain ⟨rfl, rfl⟩ := PromotionState.applied.inj holds
        exact different.symm
      · rw [Function.update_of_ne apart] at holds
        exact free other held instants holds
    have unchanged := log.applied_apply_of_ne different
      { agentId := proposal.agentId, core := identity.core, readings }
    cases progress id with
    | undecided free before unapplied =>
      exact .undecided (nobody free) before (unchanged.trans unapplied)
    | midway holder isThis alone before inTime applied =>
      have still := (Function.update_of_ne (fun same => was _ _ (same ▸ holder))
        (PromotionState.applied proposal readings) locals).trans holder
      refine .midway still isThis ?_ before inTime (unchanged.trans applied)
      · intro other held instants holds isHeld
        rcases eq_or_ne other thread with rfl | apart
        · rw [Function.update_self] at holds
          obtain ⟨rfl, rfl⟩ := PromotionState.applied.inj holds
          exact absurd isHeld.symm different
        · rw [Function.update_of_ne apart] at holds
          exact alone other held instants holds isHeld
    | closed free found confirms applied =>
      exact .closed (nobody free) found confirms (unchanged.trans applied)

theorem requirement_of_revises {proposal approved : PromotionProposal}
    (revises : Revises proposal approved) :
    setting.requirement approved = setting.requirement proposal := by
  unfold Setting.requirement
  rw [revises.agentId, revises.riskLevel]

theorem inTime_of_revises {proposal approved : PromotionProposal} {readings : List DateTime}
    (revises : Revises proposal approved) (inTime : setting.InTime proposal readings) :
    setting.InTime approved readings := by
  constructor
  · rw [requirement_of_revises revises, revises.createdAt]
    exact inTime.unexpired
  · rw [requirement_of_revises revises, revises.createdAt]
    exact inTime.cooled

/-- A proposal whose core was applied is stored as approved. -/
theorem PromotionsKept.approve (kept : PromotionsKept setting contents locals log)
    {proposal approved : PromotionProposal} {readings : List DateTime}
    (holder : locals thread = .applied proposal readings)
    (stored : contents.docs (.proposal proposal.id) = some proposal)
    (revises : Revises proposal approved) (pending : proposal.status = .pending)
    (status : approved.status = .approved)
    (quorum : (setting.requirement proposal).minApprovers ≤ approved.approvers.length) :
    PromotionsKept setting (contents.put (.proposal approved.id) approved)
      (Function.update locals thread .decided) (log.store approved.id approved) := by
  obtain ⟨recorded, progress⟩ := kept
  obtain ⟨distinct, _⟩ := recorded.history _ proposal stored
  have succeeds (current : PromotionProposal)
      (found : contents.docs (.proposal approved.id) = some current) :
      current.status = .pending ∧ current.approvers ⊆ approved.approvers := by
    rw [revises.id] at found
    obtain rfl := Option.some.inj (stored.symm.trans found)
    exact ⟨pending, revises.approvers⟩
  refine ⟨recorded.store (revises.nodup distinct) succeeds, fun id => ?_⟩
  have before {other : Nat} {held : PromotionProposal} {instants : List DateTime}
      (holds : Function.update locals thread PromotionState.decided other =
        .applied held instants) : other ≠ thread ∧ locals other = .applied held instants := by
    rcases eq_or_ne other thread with rfl | apart
    · rw [Function.update_self] at holds
      cases holds
    · rw [Function.update_of_ne apart] at holds
      exact ⟨apart, holds⟩
  rcases eq_or_ne id approved.id with rfl | different
  · have mine : (contents.put (.proposal approved.id) approved).docs (.proposal approved.id) =
        some approved := Database.Contents.docs_put_self _ _ _
    cases progress approved.id with
    | undecided nobody => exact absurd revises.id.symm (nobody _ _ _ holder)
    | closed nobody => exact absurd revises.id.symm (nobody _ _ _ holder)
    | midway first _ alone _ inTime applied =>
      obtain rfl := alone _ _ _ holder revises.id.symm
      obtain ⟨rfl, rfl⟩ := PromotionState.applied.inj (holder.symm.trans first)
      have nobody : Nobody (Function.update locals thread .decided) approved.id := by
        intro other held instants holds isHeld
        obtain ⟨apart, held_before⟩ := before holds
        exact apart (alone _ _ _ held_before isHeld)
      refine .closed nobody mine ⟨status, revises.agentId.symm, revises.candidateCore.symm,
        inTime_of_revises revises inTime, revises.nodup distinct, ?_⟩ applied
      rw [requirement_of_revises revises]
      exact quorum
  · have others : (contents.put (.proposal approved.id) approved).docs (.proposal id) =
        contents.docs (.proposal id) :=
      Database.Contents.docs_put_of_ne _ (by simpa using different) _
    have unapproved (was : Unapproved contents id) :
        Unapproved (contents.put (.proposal approved.id) approved) id :=
      fun current found => was current (others.symm.trans found)
    have nobody (free : Nobody locals id) :
        Nobody (Function.update locals thread .decided) id :=
      fun other held instants holds => free other held instants (before holds).2
    cases progress id with
    | undecided free was unapplied => exact .undecided (nobody free) (unapproved was) unapplied
    | midway first isThis alone was inTime applied =>
      rename_i other _ _
      have apart : other ≠ thread := by
        rintro rfl
        obtain ⟨rfl, _⟩ := PromotionState.applied.inj (first.symm.trans holder)
        exact different (isThis.symm.trans revises.id.symm)
      have still := (Function.update_of_ne apart PromotionState.decided locals).trans first
      refine .midway still isThis ?_ (unapproved was) inTime applied
      intro other held instants holds
      exact alone other held instants (before holds).2
    | closed free found confirms applied =>
      exact .closed (nobody free) (others.trans found) confirms applied

/-! ### Commands -/

theorem PromotionState.after_error (state : PromotionState) (command : AgentCommand)
    (error : MnemoError) : state.after command (.error error) = state := by
  unfold PromotionState.after
  split <;> first | rfl | (rename_i impossible; cases impossible)

theorem watchPromotions_error (state : PromotionState) (command : AgentCommand)
    (input : Database.Input AgentAnswer MnemoError) (error : MnemoError) :
    watchPromotions log thread state command input (.error error) = log := by
  unfold watchPromotions
  split <;> first | rfl | (rename_i impossible; cases impossible)

theorem watchPromotions_of_not_onPromotion (state : PromotionState) {command : AgentCommand}
    (apart : AgentCommand.onPromotion command = false)
    (input : Database.Input AgentAnswer MnemoError)
    (reply : Except MnemoError (command.Reply AgentAnswer)) :
    watchPromotions log thread state command input reply = log := by
  unfold watchPromotions
  split <;> first | rfl | cases apart

theorem PromotionState.after_eq_applied {state : PromotionState} {command : AgentCommand}
    (apart : AgentCommand.onPromotion command = false)
    (reply : Except MnemoError (command.Reply AgentAnswer)) (proposal : PromotionProposal)
    (readings : List DateTime) :
    state.after command reply = .applied proposal readings ↔
      state = .applied proposal readings := by
  unfold PromotionState.after
  split
  · split <;> simp
  · simp
  · simp
  · cases apart
  · cases apart
  · cases apart
  · cases apart
  · exact Iff.rfl

theorem docs_exec_of_not_onPromotion {command : AgentCommand}
    (apart : AgentCommand.onPromotion command = false)
    (input : Database.Input AgentAnswer MnemoError) (contents : AgentContents) :
    (∀ id, (Database.exec command input contents).2.docs (.proposal id) =
      contents.docs (.proposal id)) ∧
    ∀ agentId, (Database.exec command input contents).2.docs (.policy agentId) =
      contents.docs (.policy agentId) := by
  unfold Database.exec
  split
  · exact ⟨fun _ => rfl, fun _ => rfl⟩
  · cases command with
    | set key doc =>
      constructor
      · intro id
        apply Database.Contents.docs_put_of_ne
        rintro rfl
        cases apart
      · intro agentId
        apply Database.Contents.docs_put_of_ne
        rintro rfl
        cases apart
    | del key =>
      constructor
      · intro id
        apply Database.Contents.docs_remove_of_ne
        rintro rfl
        cases apart
      · intro agentId
        apply Database.Contents.docs_remove_of_ne
        rintro rfl
        cases apart
    | _ => exact ⟨fun _ => rfl, fun _ => rfl⟩

theorem fallible_of_stores {state : PromotionState} {command : AgentCommand}
    (stores : state.Stores setting command) : command.fallible = true := by
  cases state with
  | decided => exact False.elim stores
  | _ =>
    obtain ⟨_, rfl, _⟩ := stores
    rfl

theorem update_eq_applied {before next : PromotionState} (was : locals thread = before)
    (same : ∀ proposal readings, next = .applied proposal readings ↔
      before = .applied proposal readings) (other : Nat) (proposal : PromotionProposal)
    (readings : List DateTime) :
    Function.update locals thread next other = .applied proposal readings ↔
      locals other = .applied proposal readings := by
  rcases eq_or_ne other thread with rfl | different
  · rw [Function.update_self, was]
    exact same proposal readings
  · rw [Function.update_of_ne different]

/-- Every command of a call in turn keeps what is kept. -/
theorem PromotionsKept.perform {observed : ObservedPromotions}
    (kept : PromotionsKept setting observed.server.shared observed.locals observed.account)
    {call : PromotionCall} {command : AgentCommand}
    {continuation : Except MnemoError (command.Reply AgentAnswer) → AgentProgram AgentResponse}
    {input : Database.Input AgentAnswer MnemoError}
    (running : observed.server.threads thread = some (call, .perform command continuation))
    (allows : (promotionProtocol setting).allowed (observed.locals thread) command)
    (turn : DecidesInTurn observed (.advance thread input)) :
    PromotionsKept setting (Database.exec command input observed.server.shared).2
      (Function.update observed.locals thread ((observed.locals thread).after command
        (Database.exec command input observed.server.shared).1))
      (watchPromotions observed.account thread (observed.locals thread) command input
        (Database.exec command input observed.server.shared).1) := by
  obtain ⟨⟨contents, threads⟩, locals, log⟩ := observed
  simp only [DecidesInTurn] at running turn
  rw [running] at turn
  obtain ⟨timely, _⟩ := turn
  dsimp only at kept allows timely ⊢
  rcases allows with apart | stores
  · rw [watchPromotions_of_not_onPromotion _ apart]
    obtain ⟨proposals, policies⟩ := docs_exec_of_not_onPromotion apart input contents
    exact kept.congr proposals policies
      (update_eq_applied rfl (PromotionState.after_eq_applied apart _))
  · cases failing : input.failure with
    | some error =>
      have fallible := fallible_of_stores stores
      rw [Database.exec_of_failure fallible failing, PromotionState.after_error,
        Function.update_eq_self, watchPromotions_error]
      exact kept
    | none =>
      have timely := timely failing
      rw [Database.exec_of_failure_none failing]
      cases state : locals thread with
      | idle =>
        rw [state] at stores timely
        obtain ⟨proposal, rfl, pending, none⟩ := stores
        apply kept.store
        · rw [pending]
          exact fun impossible => nomatch impossible
        · rw [none]
          exact List.nodup_nil
        · intro current found
          cases timely.symm.trans found
        · exact update_eq_applied state fun _ _ => Iff.rfl
      | read proposal readings =>
        rw [state] at stores timely
        obtain ⟨revised, rfl, revises, pending, unapproved⟩ := stores
        obtain ⟨distinct, _⟩ := kept.recorded.history _ proposal timely
        apply kept.store unapproved (revises.nodup distinct)
        · intro current found
          obtain rfl := Option.some.inj (timely.symm.trans found)
          exact ⟨pending, revises.approvers⟩
        · apply update_eq_applied state
          intro _ _
          exact iff_of_false (fun impossible => nomatch impossible)
            (fun impossible => nomatch impossible)
      | based proposal readings missing =>
        rw [state] at stores timely
        obtain ⟨identity, rfl, applies⟩ := stores
        cases missing with
        | true =>
          apply kept.congr
          · exact fun _ => Database.Contents.docs_put_of_ne _ (by simp) _
          · exact fun _ => Database.Contents.docs_put_of_ne _ (by simp) _
          · apply update_eq_applied state
            intro _ _
            exact iff_of_false (fun impossible => nomatch impossible)
              (fun impossible => nomatch impossible)
        | false =>
          obtain ⟨core, pending, inTime⟩ := applies rfl
          obtain ⟨stored, alone⟩ := timely
          apply kept.apply stored pending inTime alone identity _ core
          rw [state]
          exact fun _ _ impossible => nomatch impossible
      | applied proposal readings =>
        rw [state] at stores timely
        obtain ⟨approved, rfl, revises, pending, status, quorum⟩ := stores
        have stored : contents.docs (.proposal proposal.id) = some proposal := by
          rw [← revises.id]
          exact timely
        exact kept.approve state stored revises pending status quorum
      | decided =>
        rw [state] at stores
        exact False.elim stores

theorem PromotionsKept.expects (kept : PromotionsKept setting contents locals log)
    {state : PromotionState} {input : Database.Input AgentAnswer MnemoError}
    (calm : state.isMidway = true → input.failure = none) (command : AgentCommand) :
    state.Expects setting command (Database.exec command input contents).1 := by
  cases state with
  | applied proposal readings => exact exec_ok (fun _ => calm rfl) contents
  | _ =>
    cases command with
    | get key =>
      cases key with
      | policy agentId =>
        cases failing : input.failure with
        | some error =>
          rw [Database.exec_of_failure rfl failing]
          trivial
        | none =>
          rw [Database.exec_of_failure_none failing]
          exact kept.recorded.policies agentId
      | _ => trivial
    | _ => trivial

theorem not_applied_of_allEnded {observed : ObservedPromotions}
    (sound : Observed.Sound (promotionProtocol setting) (PromotionsKept setting)
      PromotionState.Ended observed) (ended : AllEnded observed.server) (thread : Nat)
    (proposal : PromotionProposal) (readings : List DateTime) :
    observed.locals thread ≠ .applied proposal readings := by
  intro holder
  cases served : observed.server.threads thread with
  | none => cases holder.symm.trans (sound.vacant thread served)
  | some running =>
    obtain ⟨call, program⟩ := running
    have rest := sound.follows thread call program served
    rw [holder] at rest
    cases rest with
    | done stopped => cases stopped
    | fail stopped => cases stopped
    | perform => exact absurd served (ended thread call _ _)

/-- What the threads of a sound server keep makes decisions stand. -/
theorem decisionsStand_of_sound {observed : ObservedPromotions}
    (sound : Observed.Sound (promotionProtocol setting) (PromotionsKept setting)
      PromotionState.Ended observed) : DecisionsStand setting observed := by
  obtain ⟨⟨current, policies, history⟩, progress⟩ := sound.holds
  have stored {id : Uuid} {earlier : PromotionProposal}
      (logged : earlier ∈ observed.account.stored id) :
      ∃ last : PromotionProposal, observed.server.shared.docs (.proposal id) = some last := by
    cases all : observed.account.stored id with
    | nil =>
      rw [all] at logged
      cases logged
    | cons last others =>
      refine ⟨last, ?_⟩
      rw [current, all]
      rfl
  constructor
  · intro id earlier logged terminal
    obtain ⟨last, found⟩ := stored logged
    exact ⟨last, found, ((history id last found).2 earlier logged).2 terminal⟩
  · intro id earlier logged
    obtain ⟨last, found⟩ := stored logged
    exact ⟨last, found, ((history id last found).2 earlier logged).1⟩
  · intro id
    cases progress id with
    | undecided _ _ unapplied => simp [unapplied]
    | midway _ _ _ _ _ applied => simp [applied]
    | closed _ _ _ applied => simp [applied]
  · intro id last found approved
    cases progress id with
    | undecided _ unapproved _ => exact absurd approved (unapproved last found)
    | midway _ _ _ unapproved _ _ => exact absurd approved (unapproved last found)
    | closed _ same confirms applied =>
      obtain rfl := Option.some.inj (same.symm.trans found)
      exact ⟨_, by simp [applied], confirms⟩
  · intro ended id applied
    cases progress id with
    | undecided _ _ unapplied => exact absurd unapplied applied
    | closed _ same confirms _ => exact ⟨_, same, confirms.approved⟩
    | midway holder => exact absurd holder (not_applied_of_allEnded sound ended _ _ _)

/-- However calls on promotion proposals interleave, decisions stand as long as they are taken in
turn. -/
theorem decisions_stand {initial : AgentContents} (begins : setting.Begins initial)
    {events : List PromotionEvent}
    (turn : StateMachine.Guarded (promotionStep sha256Hex setting) DecidesInTurn
      (Observed.idle (promotionProtocol setting) initial emptyLog) events) :
    StateMachine.Always (promotionStep sha256Hex setting) (DecisionsStand setting)
      (Observed.idle (promotionProtocol setting) initial emptyLog) events := by
  have initially : PromotionsKept setting initial (fun _ => .idle) emptyLog := by
    refine ⟨⟨fun id => ?_, begins.policies, fun id current found => ?_⟩, fun id => ?_⟩
    · rw [begins.fresh id]
      rfl
    · cases (begins.fresh id).symm.trans found
    · apply Progress.undecided
      · exact fun _ _ _ impossible => nomatch impossible
      · intro proposal found
        cases (begins.fresh id).symm.trans found
      · rfl
  have sound := Observed.always_sound PromotionCall.follows
    (fun observed thread call command continuation input sound running allows admissible => by
      refine ⟨?_, sound.holds.perform running allows admissible⟩
      simp only [DecidesInTurn, running] at admissible
      exact sound.holds.expects admissible.2 command)
    (Observed.Sound.idle initially) turn
  exact sound.mono fun observed all => decisionsStand_of_sound all


end Runs


/-- No policies, and risk levels as they are written. -/
def plainSetting : Setting := { toLowercase := id, policies := fun _ => none }

/-- One experience, from which a promotion can be proposed. -/
def oneExperience : AgentContents :=
  noAgents.put (.experience (Uuid.toText 1))
    { id := 1, agentId := "helper", userId := none, sessionId := none, category := "tone",
      signal := "warm", confidence := 1, weight := 1, decayHalfLifeDays := 30,
      evidenceEpisodeIds := [], fisherImportance := 0, createdAt := 0 }

theorem begins_oneExperience : plainSetting.Begins oneExperience :=
  ⟨fun _ => rfl, fun _ => rfl⟩

/-- A proposal with an identifier of the client's choice. -/
def warmerTone : PromotionCall :=
  .propose "helper"
    { id := some 7, proposal := "warmer tone", candidateCore := .object [], reason := "feedback",
      riskLevel := "low", sourceEventIds := [1, 1, 1] }

/-- A proposal is created and approved, one after the other. -/
def approvedInTurn : List PromotionEvent :=
  .arrive 0 warmerTone :: List.replicate 6 (.advance 0 (untroubled 2 0)) ++
    .arrive 1 (.approve .adminBootstrap "helper" 7) ::
      List.replicate 28 (.advance 1 (untroubled 3 1))

theorem decisions_stand_approvedInTurn :
    StateMachine.Always (promotionStep id plainSetting) (DecisionsStand plainSetting)
      (Observed.idle (promotionProtocol plainSetting) oneExperience emptyLog) approvedInTurn := by
  apply decisions_stand begins_oneExperience
  repeat' apply And.intro
  all_goals
    first
    | exact trivial
    | exact fun _ => rfl
    | exact fun _ => trivial
    | exact fun _ => ⟨rfl, fun
        | 0, _, _, impossible => nomatch impossible
        | 1, _, _, impossible => nomatch impossible
        | _ + 2, _, _, impossible => nomatch impossible⟩

/-- A rejection reads the proposal before it is approved. -/
def overlappingDecisions : List PromotionEvent :=
  .arrive 0 warmerTone :: List.replicate 6 (.advance 0 (untroubled 2 0)) ++
    .arrive 1 (.approve .adminBootstrap "helper" 7) :: .arrive 2 (.reject "helper" 7 none) ::
      .advance 2 (untroubled 3 1) :: List.replicate 28 (.advance 1 (untroubled 3 1)) ++
        List.replicate 2 (.advance 2 (untroubled 4 2))

set_option maxRecDepth 10000 in
/-- A rejection that overlaps with an approval is stored over it. -/
theorem overlapping_decisions_do_not_stand :
    ¬ ∀ (sha256Hex : String → String) (setting : Setting) (initial : AgentContents)
      (events : List PromotionEvent), setting.Begins initial →
      (∀ thread input, .advance thread input ∈ events → input.failure = none) →
      StateMachine.Always (promotionStep sha256Hex setting) (DecisionsStand setting)
        (Observed.idle (promotionProtocol setting) initial emptyLog) events := by
  intro stand
  have always := stand id plainSetting oneExperience overlappingDecisions begins_oneExperience ?_
  · have final := always.finish.final 7 _ (.tail _ (.head _))
      (fun impossible => nomatch impossible)
    obtain ⟨current, found, same⟩ := final
    obtain rfl := Option.some.inj found
    cases same
  · intro thread input performed
    simp only [overlappingDecisions, List.mem_cons, List.mem_append, List.mem_replicate,
      reduceCtorEq, false_or, Program.Event.advance.injEq] at performed
    rcases performed with (⟨-, -, rfl⟩ | ⟨-, rfl⟩ | ⟨-, -, rfl⟩) | ⟨-, -, rfl⟩ <;> rfl

end Promotion
end Agent
end Mnemo
