import Mnemo.Region.Store

/-!
# The region routes

Handlers check the caller and the request.  Access cannot be granted to the owner of a region, but
it can be revoked from anyone.
-/

namespace Mnemo
namespace Region

open Auth (CallerContext)

/-- The general category `Cc`. -/
def isControl (character : Char) : Bool :=
  character.toNat < 0x20 || (0x7F ≤ character.toNat && character.toNat ≤ 0x9F)

/-- Check the identifier of an agent, white space around it ignored. -/
def validateAgentId (id : String) : Except String Unit :=
  let trimmed := Text.trim id
  if trimmed.isEmpty then .error "agent_id must not be empty"
  else if 128 < Text.byteLength trimmed then .error "agent_id must be <= 128 characters"
  else if Text.occursIn ":" trimmed || Text.occursIn "/" trimmed || Text.occursIn ".." trimmed then
    .error "agent_id must not contain ':', '/', or '..'"
  else if !(trimmed.toList.all fun character =>
      Text.isAsciiAlphanumeric character || character == '-' || character == '_' ||
        character == '.') then
    .error ("agent_id must contain only alphanumeric characters, hyphens, underscores, or dots")
  else .ok ()

/-- Check the name of a region, white space around it ignored. -/
def validateRegionName (name : String) : Except String Unit :=
  let trimmed := Text.trim name
  if trimmed.isEmpty then .error "region name cannot be empty"
  else if 128 < Text.byteLength trimmed then .error "region name must be <= 128 characters"
  else if trimmed.toList.any isControl then
    .error "region name must not contain control characters"
  else .ok ()

/-- Body of a request to create a region. -/
structure CreateRegionRequest where
  name : String
  ownerAgentId : String
  userId : Uuid
  entityFilter : Option RegionEntityFilter
  edgeFilter : Option RegionEdgeFilter
  classificationCeiling : Classification

/-- Body of a request to update a region. -/
structure UpdateRegionRequest where
  name : Option String
  entityFilter : Option RegionEntityFilter
  edgeFilter : Option RegionEdgeFilter
  classificationCeiling : Option Classification

/-- Body of a request to grant access to a region. -/
structure GrantRegionAccessRequest where
  agentId : String
  permission : RegionPermission
  expiresAt : Option DateTime

/-- Only the owner of a region and administrators may change it. -/
def mayChange (caller : CallerContext) (region : MemoryRegion) : Bool :=
  caller.role = .admin || caller.keyName = region.ownerAgentId

namespace Routes

/-- A text that fails a check is reported after what it is. -/
def checked (label : String) (check : Except String Unit) : RegionProgram Unit :=
  .ofExcept (check.mapError fun message => .validation (label ++ message))

/-- A region which has to exist. -/
def requireRegion (id : Uuid) : RegionProgram MemoryRegion := do
  match ← Region.getRegion id with
  | some region => return region
  | none => .fail (.notFound "MemoryRegion" id.toText)

def requireChange (caller : CallerContext) (region : MemoryRegion) : RegionProgram Unit :=
  if mayChange caller region then .done () else .fail .forbidden

/-- A user which has to exist; every failure to read it is reported as its absence. -/
def requireUser (id : Uuid) : RegionProgram Unit := do
  match ← (Redis.get (.user id)).attempt with
  | .ok (some _) => return ()
  | _ => .fail (.notFound "User" id.toText)

def createRegion (caller : CallerContext) (req : CreateRegionRequest) :
    RegionProgram MemoryRegion := do
  .ofExcept (caller.requireRole .write)
  checked "" (validateRegionName req.name)
  checked "owner_agent_id: " (validateAgentId req.ownerAgentId)
  requireUser req.userId
  let id ← Redis.newId
  let createdAt ← Redis.now
  let updatedAt ← Redis.now
  let region : MemoryRegion :=
    { id
      name := Text.trim req.name
      ownerAgentId := Text.trim req.ownerAgentId
      userId := req.userId
      entityFilter := req.entityFilter
      edgeFilter := req.edgeFilter
      classificationCeiling := req.classificationCeiling
      createdAt
      updatedAt }
  Region.createRegion region
  return region

def listRegions (caller : CallerContext) (userId : Option Uuid) (agentId : Option String) :
    RegionProgram (List MemoryRegion) := do
  .ofExcept (caller.requireRole .read)
  Region.listRegions userId agentId

/-- The region with the name, unless none is given. -/
def renamed (region : MemoryRegion) : Option String → RegionProgram MemoryRegion
  | some name => do
      checked "" (validateRegionName name)
      return { region with name := Text.trim name }
  | none => return region

def updateRegion (caller : CallerContext) (id : Uuid) (req : UpdateRegionRequest) :
    RegionProgram MemoryRegion := do
  .ofExcept (caller.requireRole .write)
  let region ← requireRegion id
  requireChange caller region
  let named ← renamed region req.name
  let filtered :=
    if req.entityFilter.isSome || req.edgeFilter.isSome then
      { named with entityFilter := req.entityFilter, edgeFilter := req.edgeFilter }
    else named
  let updatedAt ← Redis.now
  let updated := { filtered with
    classificationCeiling := req.classificationCeiling.getD filtered.classificationCeiling
    updatedAt }
  Region.updateRegion updated
  return updated

def deleteRegion (caller : CallerContext) (id : Uuid) : RegionProgram Unit := do
  .ofExcept (caller.requireRole .admin)
  let _ ← requireRegion id
  Region.deleteRegion id

def grantRegionAccess (caller : CallerContext) (regionId : Uuid)
    (req : GrantRegionAccessRequest) : RegionProgram MemoryRegionAcl := do
  .ofExcept (caller.requireRole .write)
  checked "agent_id: " (validateAgentId req.agentId)
  let region ← requireRegion regionId
  requireChange caller region
  if Text.trim req.agentId = region.ownerAgentId then
    .fail (.validation "cannot grant explicit access to the region owner")
  let grantedAt ← Redis.now
  let acl : MemoryRegionAcl :=
    { regionId
      agentId := Text.trim req.agentId
      permission := req.permission
      grantedBy := caller.keyName
      grantedAt
      expiresAt := req.expiresAt }
  Region.grantRegionAccess acl
  return acl

def revokeRegionAccess (caller : CallerContext) (regionId : Uuid) (agentId : String) :
    RegionProgram Unit := do
  .ofExcept (caller.requireRole .write)
  let region ← requireRegion regionId
  requireChange caller region
  Region.revokeRegionAccess regionId agentId

end Routes
end Region
end Mnemo
