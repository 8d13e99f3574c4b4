import Mnemo.Auth.ApiKey
import Mnemo.Core.Text
import Mnemo.Lib.Transaction
import Mnemo.Memory.Users

/-!
# Memory regions

A region scopes a part of what is known of a user, for the agent that owns it and for the agents to
which access was granted.  One sorted set for each agent lists the regions that it owns or was
granted; listing the regions of an agent deletes the grants that it finds expired.
-/

namespace Mnemo
namespace Region

open Auth (CallerContext)
open Database (Write Request)

/-- Filter for the entities of a region. -/
structure RegionEntityFilter where
  entityTypes : List String
  namePatterns : List String

/-- Filter for the edges of a region. -/
structure RegionEdgeFilter where
  labels : List String
  minConfidence : Option ℚ

/-- A part of the memory of a user that agents can share. -/
structure MemoryRegion where
  id : Uuid
  name : String
  ownerAgentId : String
  userId : Uuid
  entityFilter : Option RegionEntityFilter
  edgeFilter : Option RegionEdgeFilter
  classificationCeiling : Classification
  createdAt : DateTime
  updatedAt : DateTime

/-- What an agent may do in a region. -/
inductive RegionPermission where
  | read
  | write
  | manage
  deriving DecidableEq, Repr

/-- A grant of access to a region. -/
structure MemoryRegionAcl where
  regionId : Uuid
  agentId : String
  permission : RegionPermission
  grantedBy : String
  grantedAt : DateTime
  expiresAt : Option DateTime
  deriving DecidableEq

/-- The grant has expired at a time. -/
def MemoryRegionAcl.expiredAt (acl : MemoryRegionAcl) (now : DateTime) : Bool :=
  match acl.expiresAt with
  | some expiry => expiry ≤ now
  | none => false

/-! ## The database -/

/-- The keys of documents. -/
inductive RegionKey where
  /-- `user:{id}` -/
  | user (id : Uuid)
  /-- `region:{id}` -/
  | region (id : Uuid)
  /-- `region_acl_entry:{region}:{agent}` -/
  | aclEntry (regionId : Uuid) (agentId : String)
  deriving DecidableEq

/-- The documents which are stored under the keys. -/
abbrev RegionDoc : RegionKey → Type
  | .user _ => Users.User
  | .region _ => MemoryRegion
  | .aclEntry _ _ => MemoryRegionAcl

/-- The sorted sets. -/
inductive RegionIndex where
  /-- `regions` -/
  | regions
  /-- `user_regions:{user}` -/
  | userRegions (userId : Uuid)
  /-- `agent_regions:{agent}` -/
  | agentRegions (agentId : String)
  /-- `region_acl:{region}` -/
  | regionAcl (regionId : Uuid)
  deriving DecidableEq

/-- A member of a sorted set: an identifier, which is ordered as its text is, or an agent. -/
abbrev RegionMember := Uuid ⊕ₗ String

/-- The member that stands for a region. -/
abbrev regionMember (id : Uuid) : RegionMember := Sum.inlₗ id

/-- The member that stands for an agent. -/
abbrev agentMember (agentId : String) : RegionMember := Sum.inrₗ agentId

/-- A write to the database of regions. -/
abbrev RegionWrite := Write RegionKey RegionDoc RegionIndex RegionMember

/-- A request to the database of regions. -/
abbrev RegionRequest := Request RegionKey RegionDoc RegionIndex RegionMember

/-- The contents of the database of regions. -/
abbrev RegionContents := Database.Contents RegionKey RegionDoc RegionIndex RegionMember

/-- What the environment decides at a request. -/
abbrev RegionInput := Database.RequestInput MnemoError

/-- A program over the database of regions. -/
abbrev RegionProgram := Program RegionRequest (·.Reply) MnemoError

namespace Redis

def get (key : RegionKey) : RegionProgram (Option (RegionDoc key)) :=
  Program.call (Request.get key : RegionRequest)

def members (index : RegionIndex) : RegionProgram (List RegionMember) :=
  Program.call (Request.members index : RegionRequest)

def transaction (writes : List RegionWrite) : RegionProgram Unit :=
  Program.call (Request.transaction writes : RegionRequest)

def pipeline (writes : List RegionWrite) : RegionProgram Unit :=
  Program.call (Request.pipeline writes : RegionRequest)

/-- The current time. -/
def now : RegionProgram DateTime := Program.call (Request.clock : RegionRequest)

/-- A new identifier. -/
def newId : RegionProgram Uuid := Program.call (Request.freshId : RegionRequest)

end Redis

/-! ## The store -/

/-- The writes that store a new region, and index it under its user and its owner. -/
def creationWrites (region : MemoryRegion) : List RegionWrite :=
  let score := timestampMillis region.createdAt
  [.set (.region region.id) region,
    .zadd .regions (regionMember region.id) score,
    .zadd (.userRegions region.userId) (regionMember region.id) score,
    .zadd (.agentRegions region.ownerAgentId) (regionMember region.id) score]

def createRegion (region : MemoryRegion) : RegionProgram Unit :=
  Redis.transaction (creationWrites region)

def getRegion (id : Uuid) : RegionProgram (Option MemoryRegion) := Redis.get (.region id)

def updateRegion (region : MemoryRegion) : RegionProgram Unit :=
  Redis.transaction [.set (.region region.id) region]

/-- The agents among the members of a sorted set. -/
def agentsOf (members : List RegionMember) : List String :=
  members.filterMap fun member => (ofLex member).getRight?

/-- The writes that delete a region with the grants of the agents. -/
def deletionWrites (region : MemoryRegion) (id : Uuid) (agents : List String) :
    List RegionWrite :=
  [.del (.region id), .zrem .regions (regionMember id),
    .zrem (.userRegions region.userId) (regionMember id),
    .zrem (.agentRegions region.ownerAgentId) (regionMember id)] ++
  agents.flatMap (fun agentId =>
    [.del (.aclEntry id agentId), .zrem (.agentRegions agentId) (regionMember id)]) ++
  [.zdel (.regionAcl id)]

/-- Delete a region, with every grant of it. -/
def deleteRegion (id : Uuid) : RegionProgram Unit := do
  match ← getRegion id with
  | some region =>
      let members ← Redis.members (.regionAcl id)
      Redis.transaction (deletionWrites region id (agentsOf members))
  | none => return ()

/-- The writes that grant access, instead of what the agent was granted before. -/
def grantWrites (acl : MemoryRegionAcl) : List RegionWrite :=
  let score := timestampMillis acl.grantedAt
  [.set (.aclEntry acl.regionId acl.agentId) acl,
    .zadd (.regionAcl acl.regionId) (agentMember acl.agentId) score,
    .zadd (.agentRegions acl.agentId) (regionMember acl.regionId) score]

def grantRegionAccess (acl : MemoryRegionAcl) : RegionProgram Unit :=
  Redis.transaction (grantWrites acl)

/-- The writes that withdraw a grant. -/
def withdrawalWrites (agentId : String) (regionId : Uuid) : List RegionWrite :=
  [.del (.aclEntry regionId agentId), .zrem (.regionAcl regionId) (agentMember agentId),
    .zrem (.agentRegions agentId) (regionMember regionId)]

/-- Withdraw access. -/
def revokeRegionAccess (regionId : Uuid) (agentId : String) : RegionProgram Unit :=
  Redis.transaction (withdrawalWrites agentId regionId)

/-- The grant has expired now. -/
def isExpired (acl : MemoryRegionAcl) : RegionProgram Bool := do
  match acl.expiresAt with
  | some expiry =>
      let now ← Redis.now
      return decide (expiry ≤ now)
  | none => return false

/-- What a region in the list of an agent turns out to be. -/
inductive Standing where
  | accessible (region : MemoryRegion)
  | expired
  | other

/-- Look up whether an agent has access to a region in its list. -/
def standing (agentId : String) (id : Uuid) : RegionProgram Standing := do
  let granted : Option MemoryRegionAcl ← Redis.get (.aclEntry id agentId)
  match granted with
  | some acl =>
      if ← isExpired acl then return .expired
      match ← getRegion id with
      | some region => return .accessible region
      | none => return .other
  | none =>
      -- without a grant the agent may be the owner
      match ← getRegion id with
      | some region =>
          if region.ownerAgentId = agentId then return .accessible region else return .other
      | none => return .other

/-- The accessible regions among those listed, and the identifiers of the expired grants. -/
def standings (agentId : String) : List Uuid → RegionProgram (List MemoryRegion × List Uuid)
  | [] => return ([], [])
  | id :: ids => do
      let found ← standing agentId id
      let (regions, expired) ← standings agentId ids
      match found with
      | .accessible region => return (region :: regions, expired)
      | .expired => return (regions, id :: expired)
      | .other => return (regions, expired)

/-- The identifiers of regions among the members of a sorted set. -/
def regionsOf (members : List RegionMember) : List Uuid :=
  members.filterMap fun member => (ofLex member).getLeft?

/-- The regions to which an agent has access; expired grants are deleted on the way, and a failure to
delete them is ignored. -/
def listAgentAccessibleRegions (agentId : String) : RegionProgram (List MemoryRegion) := do
  let members ← Redis.members (.agentRegions agentId)
  let (regions, expired) ← standings agentId (regionsOf members)
  if expired.isEmpty then return regions
  let _ ← (Redis.pipeline (expired.flatMap (withdrawalWrites agentId))).attempt
  return regions

/-- The regions which exist among those listed. -/
def getRegions : List Uuid → RegionProgram (List MemoryRegion)
  | [] => return []
  | id :: ids => do
      let region ← getRegion id
      let regions ← getRegions ids
      return region.toList ++ regions

/-- The regions of an agent and a user, as far as they are given. -/
def listRegions (userId : Option Uuid) (agentId : Option String) :
    RegionProgram (List MemoryRegion) := do
  match agentId with
  | some agentId =>
      let regions ← listAgentAccessibleRegions agentId
      return regions.filter fun region => userId.all (region.userId = ·)
  | none =>
      let members ← Redis.members (userId.elim .regions .userRegions)
      getRegions (regionsOf members)

end Region
end Mnemo
