import Mnemo.Agent.Store
import Mnemo.Agent.Validation

/-!
# The agent routes

Handlers check the request and the role of the caller, and leave the rest to the store.  Which core
is validated where follows the source: branches and forks hand their cores to the store unseen.
-/

namespace Mnemo
namespace Agent

open Auth (CallerContext)

/-- What a handler returns. -/
inductive AgentResponse where
  | registered (isNew : Bool) (profile : AgentIdentityProfile)
  | identity (profile : AgentIdentityProfile)
  | experience (event : ExperienceEvent)
  | proposal (proposal : PromotionProposal)
  | policy (policy : ApprovalPolicy)
  | branch (info : BranchInfo)
  | merged (result : MergeResult)
  | forked (result : ForkResult)
  | noContent

/-- The trimmed identifier of an agent, which must not be empty. -/
def normalizeAgentId (agentId : String) : Except MnemoError String :=
  let trimmed := Text.trim agentId
  if trimmed.isEmpty then .error (.validation "agent_id is required") else .ok trimmed

/-- Body of a request to set an approval policy. -/
structure SetApprovalPolicyRequest where
  lowRisk : ApprovalRequirement
  mediumRisk : ApprovalRequirement
  highRisk : ApprovalRequirement

namespace Routes

/-- A blank text fails with the message. -/
def requireText (text message : String) : Except MnemoError Unit :=
  if (Text.trim text).isEmpty then .error (.validation message) else .ok ()

section Handlers

variable (sha256Hex : String → String) (toLowercase : String → String)
  (computeFisherImportance : ExperienceEvent → List ExperienceEvent → ℚ)

def registerAgent (agentId : String) (description : Option String) :
    AgentProgram AgentResponse := do
  let agentId ← .ofExcept (normalizeAgentId agentId)
  let (isNew, profile) ← Agent.registerAgent sha256Hex agentId description
  return .registered isNew profile

def getAgentIdentity (agentId : String) : AgentProgram AgentResponse := do
  let agentId ← .ofExcept (normalizeAgentId agentId)
  let identity ← Agent.getAgentIdentity sha256Hex agentId
  return .identity identity

def deleteAgent (caller : CallerContext) (agentId : String) : AgentProgram AgentResponse := do
  .ofExcept (caller.requireRole .admin)
  let agentId ← .ofExcept (normalizeAgentId agentId)
  Agent.deleteAgent agentId
  return .noContent

def updateAgentIdentity (caller : CallerContext) (agentId : String) (core : Json) :
    AgentProgram AgentResponse := do
  .ofExcept (caller.requireRole .write)
  let agentId ← .ofExcept (normalizeAgentId agentId)
  .ofExcept (validateIdentityCore core)
  let identity ← Agent.updateAgentIdentity sha256Hex agentId core
  return .identity identity

def rollbackAgentIdentity (caller : CallerContext) (agentId : String) (targetVersion : Nat)
    (reason : Option String) : AgentProgram AgentResponse := do
  .ofExcept (caller.requireRole .admin)
  let agentId ← .ofExcept (normalizeAgentId agentId)
  if targetVersion = 0 then
    .fail (.validation "target_version must be >= 1")
  let identity ← Agent.rollbackAgentIdentity sha256Hex agentId targetVersion reason
  return .identity identity

def addAgentExperience (caller : CallerContext) (agentId : String)
    (request : CreateExperienceRequest) : AgentProgram AgentResponse := do
  .ofExcept (caller.requireRole .write)
  let agentId ← .ofExcept (normalizeAgentId agentId)
  .ofExcept (requireText request.signal "signal is required")
  .ofExcept (requireText request.category "category is required")
  let event ← addExperienceEvent agentId request
  let allEvents ← listExperienceEvents agentId 500
  let categoryEvents := allEvents.filter fun other =>
    other.category == request.category && other.id != event.id
  let scored := { event with fisherImportance := computeFisherImportance event categoryEvents }
  Redis.set (.experience scored.id.toText) scored
  return .experience scored

/-- Every source event of a proposal has to exist. -/
def requireSourceEvents : List Uuid → AgentProgram Unit
  | [] => return ()
  | eventId :: eventIds => do
      let event : Option ExperienceEvent ← Redis.get (.experience eventId.toText)
      if event.isNone then
        .fail (.validation ("source_event_id " ++ eventId.toText ++
          " does not reference an existing experience event"))
      requireSourceEvents eventIds

def createPromotionProposal (agentId : String) (request : CreatePromotionProposalRequest) :
    AgentProgram AgentResponse := do
  let agentId ← .ofExcept (normalizeAgentId agentId)
  .ofExcept (requireText request.proposal "proposal is required")
  .ofExcept (requireText request.reason "reason is required")
  .ofExcept (validateIdentityCore request.candidateCore)
  if request.sourceEventIds.length < 3 then
    .fail (.validation "promotion requires at least 3 source_event_ids")
  requireSourceEvents request.sourceEventIds
  let proposal ← Agent.createPromotionProposal agentId request
  return .proposal proposal

/-- Only pending proposals can be decided. -/
def requirePending (proposal : PromotionProposal) : Except MnemoError Unit :=
  if proposal.status = .pending then .ok ()
  else .error (.validation "proposal is not pending")

/-- Add an approver who is not yet among them. -/
def withApprover (proposal : PromotionProposal) (name : String) : PromotionProposal :=
  { proposal with
    approvers :=
      if proposal.approvers.contains name then proposal.approvers
      else proposal.approvers ++ [name] }

/-- The policy of an agent, or the default one. -/
def approvalPolicy (agentId : String) : AgentProgram ApprovalPolicy := do
  let stored : Option ApprovalPolicy ← Redis.get (.policy agentId)
  match stored with
  | some policy => return policy
  | none =>
      let now ← Redis.now
      return ApprovalPolicy.defaultForAgent agentId now

/-- Apply the candidate core of a proposal which has its quorum. -/
def applyPromotion (agentId : String) (proposal : PromotionProposal) :
    AgentProgram AgentResponse := do
  .ofExcept (validateIdentityCore proposal.candidateCore)
  let _ ← Agent.updateAgentIdentity sha256Hex agentId proposal.candidateCore
  let approvedAt ← Redis.now
  let approved := { proposal with status := .approved, approvedAt := some approvedAt }
  updatePromotionProposal approved
  return .proposal approved

def approvePromotionProposal (caller : CallerContext) (agentId : String) (proposalId : Uuid) :
    AgentProgram AgentResponse := do
  let agentId ← .ofExcept (normalizeAgentId agentId)
  let proposal ← getPromotionProposal agentId proposalId
  .ofExcept (requirePending proposal)
  let policy ← approvalPolicy agentId
  let checkedAt ← Redis.now
  if proposal.isExpired toLowercase policy checkedAt then
    let expiredAt ← Redis.now
    updatePromotionProposal { proposal with status := .expired, expiredAt := some expiredAt }
    .fail (.validation "proposal has expired")
  let cooledAt ← Redis.now
  if !proposal.coolingPeriodElapsed toLowercase policy cooledAt then
    .fail (.validation "cooling period has not elapsed")
  let approved := withApprover proposal caller.keyName
  if approved.hasQuorum toLowercase policy then
    applyPromotion sha256Hex agentId approved
  else
    updatePromotionProposal approved
    return .proposal approved

/-- The reason of a rejected proposal, with the one given at its rejection. -/
def rejectionReason (reason : String) (given : Option String) : String :=
  match given with
  | some text =>
      if (Text.trim text).isEmpty then reason
      else reason ++ " | rejection_reason=" ++ Text.trim text
  | none => reason

def rejectPromotionProposal (agentId : String) (proposalId : Uuid) (reason : Option String) :
    AgentProgram AgentResponse := do
  let agentId ← .ofExcept (normalizeAgentId agentId)
  let proposal ← getPromotionProposal agentId proposalId
  .ofExcept (requirePending proposal)
  let rejectedAt ← Redis.now
  let rejected := { proposal with
    status := .rejected
    rejectedAt := some rejectedAt
    reason := rejectionReason proposal.reason reason }
  updatePromotionProposal rejected
  return .proposal rejected

def setAgentApprovalPolicy (caller : CallerContext) (agentId : String)
    (request : SetApprovalPolicyRequest) : AgentProgram AgentResponse := do
  let agentId ← .ofExcept (normalizeAgentId agentId)
  .ofExcept (caller.requireRole .admin)
  let updatedAt ← Redis.now
  let policy : ApprovalPolicy :=
    { agentId, lowRisk := request.lowRisk, mediumRisk := request.mediumRisk
      highRisk := request.highRisk, updatedAt }
  Redis.set (.policy agentId) policy
  return .policy policy

def createAgentBranch (caller : CallerContext) (agentId : String)
    (request : CreateBranchRequest) : AgentProgram AgentResponse := do
  .ofExcept (caller.requireRole .admin)
  let agentId ← .ofExcept (normalizeAgentId agentId)
  let info ← Agent.createAgentBranch sha256Hex agentId request
  return .branch info

def getAgentBranch (agentId branchName : String) : AgentProgram AgentResponse := do
  let agentId ← .ofExcept (normalizeAgentId agentId)
  let info ← Agent.getAgentBranch sha256Hex agentId branchName
  return .branch info

def updateAgentBranch (caller : CallerContext) (agentId branchName : String) (core : Json) :
    AgentProgram AgentResponse := do
  .ofExcept (caller.requireRole .write)
  let agentId ← .ofExcept (normalizeAgentId agentId)
  let identity ← Agent.updateAgentBranch sha256Hex agentId branchName core
  return .identity identity

def mergeAgentBranch (caller : CallerContext) (agentId branchName : String) :
    AgentProgram AgentResponse := do
  .ofExcept (caller.requireRole .admin)
  let agentId ← .ofExcept (normalizeAgentId agentId)
  let result ← Agent.mergeAgentBranch sha256Hex agentId branchName
  return .merged result

def deleteAgentBranch (caller : CallerContext) (agentId branchName : String) :
    AgentProgram AgentResponse := do
  .ofExcept (caller.requireRole .admin)
  let agentId ← .ofExcept (normalizeAgentId agentId)
  Agent.deleteAgentBranch sha256Hex agentId branchName
  return .noContent

def forkAgent (caller : CallerContext) (agentId : String) (request : ForkAgentRequest) :
    AgentProgram AgentResponse := do
  .ofExcept (caller.requireRole .admin)
  let agentId ← .ofExcept (normalizeAgentId agentId)
  let result ← Agent.forkAgent sha256Hex agentId request
  return .forked result

end Handlers
end Routes

/-- A request to one of the agent routes. -/
inductive AgentRequest where
  | register (agentId : String) (description : Option String)
  | getIdentity (agentId : String)
  | delete (caller : CallerContext) (agentId : String)
  | update (caller : CallerContext) (agentId : String) (core : Json)
  | rollback (caller : CallerContext) (agentId : String) (targetVersion : Nat)
      (reason : Option String)
  | addExperience (caller : CallerContext) (agentId : String) (body : CreateExperienceRequest)
  | propose (agentId : String) (body : CreatePromotionProposalRequest)
  | approve (caller : CallerContext) (agentId : String) (proposalId : Uuid)
  | reject (agentId : String) (proposalId : Uuid) (reason : Option String)
  | setPolicy (caller : CallerContext) (agentId : String) (body : SetApprovalPolicyRequest)
  | createBranch (caller : CallerContext) (agentId : String) (body : CreateBranchRequest)
  | getBranch (agentId branchName : String)
  | updateBranch (caller : CallerContext) (agentId branchName : String) (core : Json)
  | mergeBranch (caller : CallerContext) (agentId branchName : String)
  | deleteBranch (caller : CallerContext) (agentId branchName : String)
  | fork (caller : CallerContext) (agentId : String) (body : ForkAgentRequest)

section Dispatch

variable (sha256Hex : String → String) (toLowercase : String → String)
  (computeFisherImportance : ExperienceEvent → List ExperienceEvent → ℚ)

/-- The program which serves a request. -/
def AgentRequest.handle : AgentRequest → AgentProgram AgentResponse
  | .register agentId description => Routes.registerAgent sha256Hex agentId description
  | .getIdentity agentId => Routes.getAgentIdentity sha256Hex agentId
  | .delete caller agentId => Routes.deleteAgent caller agentId
  | .update caller agentId core => Routes.updateAgentIdentity sha256Hex caller agentId core
  | .rollback caller agentId targetVersion reason =>
      Routes.rollbackAgentIdentity sha256Hex caller agentId targetVersion reason
  | .addExperience caller agentId body =>
      Routes.addAgentExperience computeFisherImportance caller agentId body
  | .propose agentId body => Routes.createPromotionProposal agentId body
  | .approve caller agentId proposalId =>
      Routes.approvePromotionProposal sha256Hex toLowercase caller agentId proposalId
  | .reject agentId proposalId reason =>
      Routes.rejectPromotionProposal agentId proposalId reason
  | .setPolicy caller agentId body => Routes.setAgentApprovalPolicy caller agentId body
  | .createBranch caller agentId body => Routes.createAgentBranch sha256Hex caller agentId body
  | .getBranch agentId branchName => Routes.getAgentBranch sha256Hex agentId branchName
  | .updateBranch caller agentId branchName core =>
      Routes.updateAgentBranch sha256Hex caller agentId branchName core
  | .mergeBranch caller agentId branchName =>
      Routes.mergeAgentBranch sha256Hex caller agentId branchName
  | .deleteBranch caller agentId branchName =>
      Routes.deleteAgentBranch sha256Hex caller agentId branchName
  | .fork caller agentId body => Routes.forkAgent sha256Hex caller agentId body

end Dispatch
end Agent
end Mnemo
