import Mathlib
import Mnemo.Auth.ApiKey
import Mnemo.Core.Json
import Mnemo.Lib.Documents

/-!
# Agents: identities, branches, proposals and their records

An agent has a versioned identity with a free-form core.  The records live in a key-value database
under keys that are joined from their parts by colons.
-/

namespace Mnemo
namespace Agent

/-- Versioned identity of an agent. -/
structure AgentIdentityProfile where
  agentId : String
  version : Nat
  core : Json
  updatedAt : DateTime

/-- The first version of an identity, with an empty core. -/
def AgentIdentityProfile.new (agentId : String) (now : DateTime) : AgentIdentityProfile :=
  { agentId, version := 1, core := .object [], updatedAt := now }

/-- Replace the core and advance the version. -/
def AgentIdentityProfile.applyUpdate (profile : AgentIdentityProfile) (core : Json)
    (now : DateTime) : AgentIdentityProfile :=
  { profile with core, version := profile.version + 1, updatedAt := now }

/-- What happened to an identity. -/
inductive AgentIdentityAuditAction where
  | created
  | updated
  | rolledBack
  | branchCreated
  | branchMerged
  | branchDeleted
  | forked
  deriving DecidableEq, Repr

/-- The serialized name of an action. -/
def AgentIdentityAuditAction.text : AgentIdentityAuditAction → String
  | .created => "created"
  | .updated => "updated"
  | .rolledBack => "rolled_back"
  | .branchCreated => "branch_created"
  | .branchMerged => "branch_merged"
  | .branchDeleted => "branch_deleted"
  | .forked => "forked"

/-- Record of an identity mutation in the witness chain of its agent. -/
structure AgentIdentityAuditEvent where
  id : Uuid
  agentId : String
  action : AgentIdentityAuditAction
  fromVersion : Option Nat
  toVersion : Nat
  rollbackToVersion : Option Nat
  reason : Option String
  createdAt : DateTime
  prevHash : Option String
  eventHash : String
  deriving DecidableEq, Repr

/-- The hash of the canonical fields of an event. -/
def AgentIdentityAuditEvent.computeHash (sha256Hex : String → String)
    (event : AgentIdentityAuditEvent) : String :=
  sha256Hex (String.intercalate "|"
    [event.action.text, (event.fromVersion.map toString).getD "", toString event.toVersion,
      event.prevHash.getD "", toString (timestampMillis event.createdAt)])

/-- An experience of an agent; weights are the rational values of their floating point numbers. -/
structure ExperienceEvent where
  id : Uuid
  agentId : String
  userId : Option Uuid
  sessionId : Option Uuid
  category : String
  signal : String
  confidence : ℚ
  weight : ℚ
  decayHalfLifeDays : Nat
  evidenceEpisodeIds : List Uuid
  fisherImportance : ℚ
  createdAt : DateTime

/-- Which experiences a fork transfers. -/
structure ExperienceFilter where
  categories : List String
  minConfidence : Option ℚ
  minWeight : Option ℚ
  maxEvents : Option Nat

/-- The filter which transfers everything. -/
instance : Inhabited ExperienceFilter :=
  ⟨{ categories := [], minConfidence := none, minWeight := none, maxEvents := none }⟩

/-- Whether an experience passes a filter. -/
def ExperienceFilter.matches (filter : ExperienceFilter) (event : ExperienceEvent) : Bool :=
  (filter.categories.isEmpty || filter.categories.contains event.category) &&
    (match filter.minConfidence with
      | some least => decide (least ≤ event.confidence)
      | none => true) &&
    (match filter.minWeight with
      | some least => decide (least ≤ event.weight)
      | none => true)

/-- Lifecycle of a promotion proposal. -/
inductive PromotionStatus where
  | pending
  | approved
  | rejected
  | expired
  deriving DecidableEq, Repr

/-- A candidate identity core which awaits approval. -/
structure PromotionProposal where
  id : Uuid
  agentId : String
  proposal : String
  candidateCore : Json
  reason : String
  riskLevel : String
  status : PromotionStatus
  sourceEventIds : List Uuid
  approvers : List String
  approvedAt : Option DateTime
  rejectedAt : Option DateTime
  expiredAt : Option DateTime
  createdAt : DateTime

/-- Requirements for one risk level. -/
structure ApprovalRequirement where
  minApprovers : Nat
  coolingPeriodHours : Option Nat
  autoRejectAfterHours : Option Nat

/-- One approver, no waiting and no expiry. -/
instance : Inhabited ApprovalRequirement :=
  ⟨{ minApprovers := 1, coolingPeriodHours := none, autoRejectAfterHours := none }⟩

/-- Requirements of an agent by risk level. -/
structure ApprovalPolicy where
  agentId : String
  lowRisk : ApprovalRequirement
  mediumRisk : ApprovalRequirement
  highRisk : ApprovalRequirement
  updatedAt : DateTime

/-- The policy of an agent that has none. -/
def ApprovalPolicy.defaultForAgent (agentId : String) (now : DateTime) : ApprovalPolicy :=
  { agentId, lowRisk := default, mediumRisk := default, highRisk := default, updatedAt := now }

/-- Nanoseconds of an hour. -/
def hour : Int := 3600000000000

section Policy

variable (toLowercase : String → String)

/-- The requirement for a risk level; unknown levels count as medium. -/
def ApprovalPolicy.requirementForRisk (policy : ApprovalPolicy) (riskLevel : String) :
    ApprovalRequirement :=
  let level := toLowercase riskLevel
  if level = "low" then policy.lowRisk
  else if level = "high" then policy.highRisk
  else policy.mediumRisk

/-- Whether a pending proposal has outlived its policy. -/
def PromotionProposal.isExpired (proposal : PromotionProposal) (policy : ApprovalPolicy)
    (now : DateTime) : Bool :=
  proposal.status == .pending &&
    match (policy.requirementForRisk toLowercase proposal.riskLevel).autoRejectAfterHours with
    | some hours => decide (proposal.createdAt + hours * hour ≤ now)
    | none => false

/-- Whether the mandatory wait is over. -/
def PromotionProposal.coolingPeriodElapsed (proposal : PromotionProposal)
    (policy : ApprovalPolicy) (now : DateTime) : Bool :=
  match (policy.requirementForRisk toLowercase proposal.riskLevel).coolingPeriodHours with
  | some hours => decide (proposal.createdAt + hours * hour ≤ now)
  | none => true

/-- Whether enough approvers have signed off. -/
def PromotionProposal.hasQuorum (proposal : PromotionProposal) (policy : ApprovalPolicy) : Bool :=
  decide ((policy.requirementForRisk toLowercase proposal.riskLevel).minApprovers ≤
    proposal.approvers.length)

end Policy

/-- Metadata of a copy-on-write branch. -/
structure BranchMetadata where
  branchName : String
  parentAgentId : String
  forkVersion : Nat
  createdAt : DateTime
  description : Option String
  merged : Bool

/-- Where a forked agent comes from. -/
structure ForkLineage where
  parentAgentId : String
  parentVersion : Nat
  forkedAt : DateTime
  description : Option String
  experienceEventsTransferred : Nat
  experienceFilter : Option ExperienceFilter

/-! ## The database of agents -/

/-- The keys of documents, by the words they begin with. -/
inductive AgentKey where
  /-- `agent_identity:{agent}` -/
  | identity (agentId : String)
  /-- `agent_identity_version:{agent}:{version}` -/
  | version (agentId : String) (version : Nat)
  /-- `agent_branch:{agent}:{branch}`, after the first colon -/
  | branch (path : String)
  /-- `promotion_proposal:{id}` -/
  | proposal (id : Uuid)
  /-- `approval_policy:{agent}` -/
  | policy (agentId : String)
  /-- `agent_identity_audit_event:{id}` -/
  | auditEvent (id : String)
  /-- `agent_audit:{agent}:{id}` -/
  | forkAudit (agentId id : String)
  /-- `experience:{id}` -/
  | experience (id : String)
  /-- `agent_experience:{agent}:{id}` -/
  | forkExperience (agentId id : String)
  /-- `agent_lineage:{agent}` -/
  | lineage (agentId : String)
  deriving DecidableEq, Repr

/-- The type of the document under a key. -/
def AgentDoc : AgentKey → Type
  | .identity _ | .version _ _ => AgentIdentityProfile
  | .branch _ => BranchMetadata
  | .proposal _ => PromotionProposal
  | .policy _ => ApprovalPolicy
  | .auditEvent _ | .forkAudit _ _ => AgentIdentityAuditEvent
  | .experience _ | .forkExperience _ _ => ExperienceEvent
  | .lineage _ => ForkLineage

/-- The sorted sets. -/
inductive AgentIndex where
  | agents
  | versions (agentId : String)
  | branches (agentId : String)
  | proposals (agentId : String)
  | audit (agentId : String)
  | forkAudit (agentId : String)
  | experiences (agentId : String)
  | forkExperiences (agentId : String)
  | episodes (agentId : String)
  | sessions (agentId : String)
  deriving DecidableEq, Repr

/-- Agents use no outside service. -/
abbrev AgentAnswer : Empty → Type := Empty.rec

/-- A command on the database of agents. -/
abbrev AgentCommand := Database.Command AgentKey AgentDoc AgentIndex String Empty

/-- The contents of the database of agents. -/
abbrev AgentContents := Database.Contents AgentKey AgentDoc AgentIndex String

/-- A program over the database of agents. -/
abbrev AgentProgram := Program AgentCommand (·.Reply AgentAnswer) MnemoError

/-- The database before the first request. -/
def noAgents : AgentContents :=
  { docs := fun _ => none, sets := fun _ => .empty, issued := [] }

/-- What the environment decides when nothing fails. -/
def untroubled (id : Uuid) (now : DateTime) : Database.Input AgentAnswer MnemoError :=
  { failure := none, now, id, answer := fun call => call.elim }

end Agent
end Mnemo
