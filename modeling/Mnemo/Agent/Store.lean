import Mnemo.Agent.Model

/-!
# The store operations on agents

Each operation is a program over the database: one command for one Redis command, in the order of
the source.
-/

namespace Mnemo
namespace Agent

open Database (Command)

namespace Redis

def get (key : AgentKey) : AgentProgram (Option (AgentDoc key)) :=
  Program.call (Command.get key : AgentCommand)

def set (key : AgentKey) (doc : AgentDoc key) : AgentProgram Unit :=
  Program.call (Command.set key doc : AgentCommand)

def del (key : AgentKey) : AgentProgram Unit :=
  Program.call (Command.del key : AgentCommand)

def zadd (index : AgentIndex) (member : String) (score : Int) : AgentProgram Unit :=
  Program.call (Command.zadd index member score : AgentCommand)

def zrem (index : AgentIndex) (member : String) : AgentProgram Unit := do
  let _ ← Program.call (Command.zrem index member : AgentCommand)
  return ()

def zdel (index : AgentIndex) : AgentProgram Unit :=
  Program.call (Command.zdel index : AgentCommand)

def zrevrange (index : AgentIndex) (start stop : Int) : AgentProgram (List String) :=
  Program.call (Command.zrevrange index start stop : AgentCommand)

/-- The current time. -/
def now : AgentProgram DateTime := Program.call (Command.clock : AgentCommand)

/-- A new identifier. -/
def newId : AgentProgram Uuid := Program.call (Command.freshId : AgentCommand)

/-- Read a document which has to exist. -/
def getRequired (key : AgentKey) (notFound : MnemoError) : AgentProgram (AgentDoc key) := do
  match ← get key with
  | some doc => return doc
  | none => .fail notFound

end Redis

section Audit

variable (sha256Hex : String → String)

/-- The hash of the latest event in the witness chain of an agent. -/
def latestAuditHash (agentId : String) : AgentProgram (Option String) := do
  match ← Redis.zrevrange (.audit agentId) 0 0 with
  | [] => return none
  | latestId :: _ =>
      let latest : Option AgentIdentityAuditEvent ← Redis.get (.auditEvent latestId)
      return latest.map (·.eventHash)

/-- Append an event to the witness chain of an agent. -/
def appendIdentityAudit (agentId : String) (action : AgentIdentityAuditAction)
    (fromVersion : Option Nat) (toVersion : Nat) (rollbackToVersion : Option Nat)
    (reason : Option String) : AgentProgram Unit := do
  let prevHash ← latestAuditHash agentId
  let id ← Redis.newId
  let createdAt ← Redis.now
  let unhashed : AgentIdentityAuditEvent :=
    { id, agentId, action, fromVersion, toVersion, rollbackToVersion, reason, createdAt, prevHash
      eventHash := "" }
  let event := { unhashed with eventHash := unhashed.computeHash sha256Hex }
  Redis.set (.auditEvent event.id.toText) event
  Redis.zadd (.audit agentId) event.id.toText (timestampMillis event.createdAt)

/-- Store an identity as the current one and as the snapshot of its version. -/
def persistIdentitySnapshot (agentId : String) (identity : AgentIdentityProfile) :
    AgentProgram Unit := do
  Redis.set (.identity agentId) identity
  Redis.set (.version agentId identity.version) identity
  Redis.zadd (.versions agentId) (toString identity.version) identity.version

/-- Enter an agent into the registry under the time of its last update. -/
def indexAgent (agentId : String) (identity : AgentIdentityProfile) : AgentProgram Unit :=
  Redis.zadd .agents agentId (timestampMillis identity.updatedAt)

/-- The core of a newly registered agent. -/
def registeredCore : Option String → Json
  | some description => .object [("description", .string description)]
  | none => .object []

/-- Write a description into the core of a registered agent, when the core is an object. -/
def describedCore (core : Json) (description : String) : Json :=
  match core with
  | .object fields => .object (Json.insertField "description" (.string description) fields)
  | other => other

/-- Register an agent, or give a registered one a description. -/
def registerAgent (agentId : String) (description : Option String) :
    AgentProgram (Bool × AgentIdentityProfile) := do
  let stored : Option AgentIdentityProfile ← Redis.get (.identity agentId)
  match stored with
  | some existing =>
      match description with
      | some description =>
          let updatedAt ← Redis.now
          let described := { existing with
            core := describedCore existing.core description
            updatedAt }
          Redis.set (.identity agentId) described
          indexAgent agentId described
          return (false, described)
      | none =>
          indexAgent agentId existing
          return (false, existing)
  | none =>
      let now ← Redis.now
      let identity := { AgentIdentityProfile.new agentId now with
        core := registeredCore description }
      persistIdentitySnapshot agentId identity
      appendIdentityAudit sha256Hex agentId .created none identity.version none none
      indexAgent agentId identity
      return (true, identity)

/-- The identity of an agent, which is created when there is none. -/
def getAgentIdentity (agentId : String) : AgentProgram AgentIdentityProfile := do
  let stored : Option AgentIdentityProfile ← Redis.get (.identity agentId)
  match stored with
  | some identity => return identity
  | none =>
      let now ← Redis.now
      let identity := AgentIdentityProfile.new agentId now
      persistIdentitySnapshot agentId identity
      appendIdentityAudit sha256Hex agentId .created none identity.version none none
      indexAgent agentId identity
      return identity

/-- Replace the core of an identity. -/
def updateAgentIdentity (agentId : String) (core : Json) :
    AgentProgram AgentIdentityProfile := do
  let identity ← getAgentIdentity sha256Hex agentId
  let now ← Redis.now
  let updated := identity.applyUpdate core now
  persistIdentitySnapshot agentId updated
  appendIdentityAudit sha256Hex agentId .updated (some identity.version) updated.version none none
  return updated

/-- Store the snapshot of an earlier version as a new version. -/
def rollbackAgentIdentity (agentId : String) (targetVersion : Nat) (reason : Option String) :
    AgentProgram AgentIdentityProfile := do
  let target : AgentIdentityProfile ← Redis.getRequired (.version agentId targetVersion)
    (.notFound "AgentIdentityVersion" (agentId ++ ":" ++ toString targetVersion))
  let current ← getAgentIdentity sha256Hex agentId
  let now ← Redis.now
  let rolled := { target with agentId, version := current.version + 1, updatedAt := now }
  persistIdentitySnapshot agentId rolled
  appendIdentityAudit sha256Hex agentId .rolledBack (some current.version) rolled.version
    (some targetVersion) reason
  return rolled

/-- Delete an agent; its snapshots, audit events and branches stay. -/
def deleteAgent (agentId : String) : AgentProgram Unit := do
  let _ ← Redis.getRequired (.identity agentId) (.notFound "agent" agentId)
  Redis.del (.identity agentId)
  Redis.zrem .agents agentId
  let _ ← (Redis.zdel (.episodes agentId)).attempt
  let _ ← (Redis.zdel (.sessions agentId)).attempt

end Audit

/-! ## Branches -/

/-- The key under which the identity of a branch is stored. -/
def branchAgentId (agentId branchName : String) : String := agentId ++ ":branch:" ++ branchName

/-- The key of the metadata of a branch. -/
def branchKey (agentId branchName : String) : AgentKey := .branch (agentId ++ ":" ++ branchName)

/-- Check a branch name. -/
def validateBranchName (name : String) : Except MnemoError Unit :=
  if name.isEmpty then .error (.validation "branch name cannot be empty")
  else if 64 < Text.byteLength name then
    .error (.validation "branch name must be <= 64 characters")
  else if !(name.toList.all fun character =>
      Text.isAsciiAlphanumeric character || character == '-' || character == '_') then
    .error (.validation
      "branch name must contain only alphanumeric characters, hyphens, or underscores")
  else .ok ()

/-- Body of a request to create a branch. -/
structure CreateBranchRequest where
  branchName : String
  description : Option String
  coreOverride : Option Json

/-- A branch with its identity. -/
structure BranchInfo where
  metadata : BranchMetadata
  identity : AgentIdentityProfile

/-- Outcome of a merge. -/
structure MergeResult where
  branchName : String
  mergedIdentity : AgentIdentityProfile
  parentVersionBefore : Nat
  branchCoreApplied : Json

section Branches

variable (sha256Hex : String → String)

/-- Create a branch with the core of its parent, or the one given in the request. -/
def createAgentBranch (agentId : String) (request : CreateBranchRequest) :
    AgentProgram BranchInfo := do
  .ofExcept (validateBranchName request.branchName)
  let existing : Option BranchMetadata ← Redis.get (branchKey agentId request.branchName)
  if existing.isSome then
    .fail (.validation ("branch '" ++ request.branchName ++ "' already exists for agent '" ++
      agentId ++ "'"))
  let parent ← getAgentIdentity sha256Hex agentId
  let updatedAt ← Redis.now
  let branchIdentity : AgentIdentityProfile :=
    { agentId := branchAgentId agentId request.branchName
      version := parent.version
      core := request.coreOverride.getD parent.core
      updatedAt }
  Redis.set (.identity (branchAgentId agentId request.branchName)) branchIdentity
  let createdAt ← Redis.now
  let metadata : BranchMetadata :=
    { branchName := request.branchName
      parentAgentId := agentId
      forkVersion := parent.version
      createdAt
      description := request.description
      merged := false }
  Redis.set (branchKey agentId request.branchName) metadata
  Redis.zadd (.branches agentId) request.branchName (timestampMillis createdAt)
  appendIdentityAudit sha256Hex agentId .branchCreated (some parent.version) parent.version none
    (some ("branch:" ++ request.branchName))
  return { metadata, identity := branchIdentity }

/-- The metadata of a branch which has to exist. -/
def getBranchMetadata (agentId branchName : String) : AgentProgram BranchMetadata :=
  Redis.getRequired (branchKey agentId branchName)
    (.notFound "AgentBranch" (agentId ++ ":" ++ branchName))

/-- The metadata and the identity of a branch. -/
def getAgentBranch (agentId branchName : String) : AgentProgram BranchInfo := do
  let metadata ← getBranchMetadata agentId branchName
  let identity ← getAgentIdentity sha256Hex (branchAgentId agentId branchName)
  return { metadata, identity }

/-- Fail when a branch has been merged. -/
def requireUnmerged (metadata : BranchMetadata) (branchName : String) : AgentProgram Unit :=
  if metadata.merged then
    .fail (.validation ("branch '" ++ branchName ++ "' has already been merged"))
  else .done ()

/-- Replace the core of a branch. -/
def updateAgentBranch (agentId branchName : String) (core : Json) :
    AgentProgram AgentIdentityProfile := do
  let metadata ← getBranchMetadata agentId branchName
  requireUnmerged metadata branchName
  updateAgentIdentity sha256Hex (branchAgentId agentId branchName) core

/-- Apply the core of a branch to its parent, and mark the branch as merged. -/
def mergeAgentBranch (agentId branchName : String) : AgentProgram MergeResult := do
  let metadata ← getBranchMetadata agentId branchName
  requireUnmerged metadata branchName
  let branchIdentity ← getAgentIdentity sha256Hex (branchAgentId agentId branchName)
  let parentBefore ← getAgentIdentity sha256Hex agentId
  let merged ← updateAgentIdentity sha256Hex agentId branchIdentity.core
  Redis.set (branchKey agentId branchName) { metadata with merged := true }
  appendIdentityAudit sha256Hex agentId .branchMerged (some parentBefore.version) merged.version
    none (some ("branch:" ++ branchName))
  return {
    branchName
    mergedIdentity := merged
    parentVersionBefore := parentBefore.version
    branchCoreApplied := branchIdentity.core }

/-- Delete a branch with its identity and its metadata. -/
def deleteAgentBranch (agentId branchName : String) : AgentProgram Unit := do
  let _ ← getBranchMetadata agentId branchName
  Redis.del (.identity (branchAgentId agentId branchName))
  Redis.del (branchKey agentId branchName)
  Redis.zrem (.branches agentId) branchName
  let parent ← getAgentIdentity sha256Hex agentId
  appendIdentityAudit sha256Hex agentId .branchDeleted (some parent.version) parent.version none
    (some ("branch:" ++ branchName))

end Branches

/-! ## Forks -/

/-- Check the identifier of a forked agent. -/
def validateForkAgentId (id : String) : Except MnemoError Unit :=
  if id.isEmpty then .error (.validation "new_agent_id must not be empty")
  else if 128 < Text.byteLength id then
    .error (.validation "new_agent_id must be <= 128 characters")
  else if Text.occursIn ":" id || Text.occursIn "/" id || Text.occursIn ".." id then
    .error (.validation "new_agent_id must not contain ':', '/', or '..'")
  else if !(id.toList.all fun character =>
      Text.isAsciiAlphanumeric character || character == '-' || character == '_' ||
        character == '.') then
    .error (.validation
      ("new_agent_id must contain only alphanumeric characters, hyphens, underscores, " ++
        "or dots"))
  else .ok ()

/-- Body of a request to fork an agent. -/
structure ForkAgentRequest where
  newAgentId : String
  coreOverride : Option Json
  experienceFilter : Option ExperienceFilter
  description : Option String

/-- A forked agent and where it comes from. -/
structure ForkResult where
  newAgent : AgentIdentityProfile
  lineage : ForkLineage

/-- The documents of experiences which exist, in the order of their identifiers. -/
def getExperiences : List String → AgentProgram (List ExperienceEvent)
  | [] => return []
  | id :: ids => do
      let event : Option ExperienceEvent ← Redis.get (.experience id)
      let events ← getExperiences ids
      return event.toList ++ events

/-- The newest experiences of an agent. -/
def listExperienceEvents (agentId : String) (limit : Nat) :
    AgentProgram (List ExperienceEvent) := do
  let ids ← Redis.zrevrange (.experiences agentId) 0 ((limit : Int) - 1)
  getExperiences ids

/-- Copy experiences to a forked agent, each under a new identifier, and count them. -/
def transferExperiences (newAgentId : String) : List ExperienceEvent → AgentProgram Nat
  | [] => return 0
  | event :: events => do
      let id ← Redis.newId
      let copy := { event with id, agentId := newAgentId }
      Redis.set (.forkExperience newAgentId id.toText) copy
      Redis.zadd (.forkExperiences newAgentId) id.toText (timestampMillis copy.createdAt)
      let transferred ← transferExperiences newAgentId events
      return transferred + 1

section Forks

variable (sha256Hex : String → String)

/-- The audit event of a new agent, in the log that forks use. -/
def appendForkAudit (newAgentId : String) (description : Option String) :
    AgentProgram Unit := do
  let id ← Redis.newId
  let createdAt ← Redis.now
  let unhashed : AgentIdentityAuditEvent :=
    { id, agentId := newAgentId, action := .created, fromVersion := none, toVersion := 1
      rollbackToVersion := none, reason := description, createdAt, prevHash := none
      eventHash := "" }
  let event := { unhashed with eventHash := unhashed.computeHash sha256Hex }
  Redis.set (.forkAudit newAgentId event.id.toText) event
  Redis.zadd (.forkAudit newAgentId) event.id.toText (timestampMillis event.createdAt)

/-- Create an agent with the core of another one, or the core given in the request. -/
def forkAgent (sourceAgentId : String) (request : ForkAgentRequest) :
    AgentProgram ForkResult := do
  .ofExcept (validateForkAgentId request.newAgentId)
  let existing : Option AgentIdentityProfile ← Redis.get (.identity request.newAgentId)
  if existing.isSome then
    .fail (.validation ("agent '" ++ request.newAgentId ++
      "' already exists; cannot fork to an existing agent_id"))
  let source ← getAgentIdentity sha256Hex sourceAgentId
  let updatedAt ← Redis.now
  let identity : AgentIdentityProfile :=
    { agentId := request.newAgentId
      version := 1
      core := request.coreOverride.getD source.core
      updatedAt }
  Redis.set (.identity request.newAgentId) identity
  persistIdentitySnapshot request.newAgentId identity
  let sourceEvents ← listExperienceEvents sourceAgentId 10000
  let filter := request.experienceFilter.getD default
  let passing := sourceEvents.filter fun event => filter.matches event
  let chosen := match filter.maxEvents with
    | some most => passing.take most
    | none => passing
  let transferred ← transferExperiences request.newAgentId chosen
  let forkedAt ← Redis.now
  let lineage : ForkLineage :=
    { parentAgentId := sourceAgentId
      parentVersion := source.version
      forkedAt
      description := request.description
      experienceEventsTransferred := transferred
      experienceFilter := request.experienceFilter }
  Redis.set (.lineage request.newAgentId) lineage
  appendForkAudit sha256Hex request.newAgentId request.description
  appendIdentityAudit sha256Hex sourceAgentId .forked (some source.version) source.version none
    (some ("forked_to:" ++ request.newAgentId))
  return { newAgent := identity, lineage }

end Forks

/-! ## Experiences, proposals and policies -/

/-- Body of a request to record an experience. -/
structure CreateExperienceRequest where
  id : Option Uuid
  userId : Option Uuid
  sessionId : Option Uuid
  category : String
  signal : String
  confidence : ℚ
  weight : ℚ
  decayHalfLifeDays : Nat
  evidenceEpisodeIds : List Uuid
  createdAt : Option DateTime

/-- The identifier in a request, or a new one. -/
def orNewId : Option Uuid → AgentProgram Uuid
  | some id => return id
  | none => Redis.newId

/-- The instant in a request, or the current one. -/
def orNow : Option DateTime → AgentProgram DateTime
  | some instant => return instant
  | none => Redis.now

/-- Store and index an experience. -/
def addExperienceEvent (agentId : String) (request : CreateExperienceRequest) :
    AgentProgram ExperienceEvent := do
  let id ← orNewId request.id
  let createdAt ← orNow request.createdAt
  let event : ExperienceEvent :=
    { id, agentId, userId := request.userId, sessionId := request.sessionId
      category := request.category, signal := request.signal, confidence := request.confidence
      weight := request.weight, decayHalfLifeDays := request.decayHalfLifeDays
      evidenceEpisodeIds := request.evidenceEpisodeIds, fisherImportance := 0, createdAt }
  Redis.set (.experience event.id.toText) event
  Redis.zadd (.experiences agentId) event.id.toText (timestampMillis event.createdAt)
  return event

/-- Body of a request to propose a promotion. -/
structure CreatePromotionProposalRequest where
  id : Option Uuid
  proposal : String
  candidateCore : Json
  reason : String
  riskLevel : String
  sourceEventIds : List Uuid

/-- Store and index a pending proposal. -/
def createPromotionProposal (agentId : String) (request : CreatePromotionProposalRequest) :
    AgentProgram PromotionProposal := do
  let id ← orNewId request.id
  let createdAt ← Redis.now
  let proposal : PromotionProposal :=
    { id, agentId, proposal := request.proposal, candidateCore := request.candidateCore
      reason := request.reason, riskLevel := request.riskLevel, status := .pending
      sourceEventIds := request.sourceEventIds, approvers := [], approvedAt := none
      rejectedAt := none, expiredAt := none, createdAt }
  Redis.set (.proposal proposal.id) proposal
  Redis.zadd (.proposals agentId) proposal.id.toText (timestampMillis proposal.createdAt)
  return proposal

/-- A proposal which has to exist and to belong to the agent. -/
def getPromotionProposal (agentId : String) (proposalId : Uuid) :
    AgentProgram PromotionProposal := do
  let proposal : PromotionProposal ← Redis.getRequired (.proposal proposalId)
    (.notFound "PromotionProposal" proposalId.toText)
  if proposal.agentId ≠ agentId then
    .fail (.notFound "PromotionProposal" proposalId.toText)
  return proposal

/-- Store a proposal over its earlier state. -/
def updatePromotionProposal (proposal : PromotionProposal) : AgentProgram Unit :=
  Redis.set (.proposal proposal.id) proposal

end Agent
end Mnemo
