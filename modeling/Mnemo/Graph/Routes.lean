import Mnemo.Auth.ApiKey
import Mnemo.Memory.GraphStore

/-!
# Requests that change stored facts and entities

Read accesses are counted, facts are revalidated, contradictions are settled, and records are
classified anew.  Each request reads a whole record, and writes it back changed.
-/

namespace Mnemo
namespace Graph

open Memory
open Auth (ApiKeyRole CallerContext)

/-! ## Read accesses -/

/-- Count a read access to an edge. -/
def recordEdgeAccess (edgeId : Uuid) : MemoryProgram Unit := do
  match ← readEdge edgeId with
  | some edge =>
      let accessedAt ← Redis.now
      let updatedAt ← Redis.now
      Redis.set (.edge edgeId) (edge.recordAccess accessedAt updatedAt)
  | none => return ()

/-! ## Revalidation -/

/-- Body of a request to revalidate a fact. -/
structure RevalidateFactRequest where
  edgeId : Uuid
  newConfidence : ℚ
  evidenceEpisodeId : Option Uuid
  deriving DecidableEq, Repr

/-- The revalidated edge, and its confidence before. -/
structure RevalidateFactResult where
  edge : Edge
  previousConfidence : ℚ
  deriving DecidableEq, Repr

/-- An episode that is given as evidence corroborates the edge. -/
def withEvidence (edge : Edge) : Option Uuid → MemoryProgram Edge
  | some _ => do
      let now ← Redis.now
      return edge.corroborate now
  | none => return edge

/-- Give an open edge of the user a new confidence, and let it begin to hold anew. -/
def revalidateFact (userId : Uuid) (request : RevalidateFactRequest) :
    MemoryProgram RevalidateFactResult := do
  if request.newConfidence < 0 ∨ 1 < request.newConfidence then
    .fail (.validation "new_confidence must be between 0.0 and 1.0")
  else
    let edge ← getEdge request.edgeId
    if edge.userId ≠ userId then
      .fail (.validation "edge does not belong to this user")
    else if edge.isValid = false then
      .fail (.validation "cannot revalidate an invalidated edge")
    else
      let validAt ← Redis.now
      let updatedAt ← Redis.now
      let revalidated ← withEvidence (edge.revalidate request.newConfidence validAt updatedAt)
        request.evidenceEpisodeId
      updateEdge revalidated
      return { edge := revalidated, previousConfidence := edge.confidence }

/-! ## Clarifications -/

/-- Body of a request to resolve a clarification. -/
structure ResolveClarificationRequest where
  answer : String
  winningEdgeId : Option Uuid
  deriving DecidableEq, Repr

/-- The name of a status in messages. -/
def clarificationStatusName : ClarificationStatus → String
  | .pending => "Pending"
  | .resolved => "Resolved"
  | .expired => "Expired"
  | .dismissed => "Dismissed"

/-- Store a clarification, and rank it by its severity among those of its user. -/
def saveClarification (clarification : ClarificationRequest) : MemoryProgram Unit := do
  Redis.set (.clarification clarification.id) clarification
  Redis.zadd (.userClarifications clarification.userId) clarification.id
    ⌊clarification.severity * 1000⌋

/-- The edge that loses is closed on behalf of the system; failures to do so are ignored. -/
def closeLoser (edgeId : Uuid) : MemoryProgram Unit := do
  match ← (getEdge edgeId).attempt with
  | .ok loser =>
      if loser.isValid = true then
        let now ← Redis.now
        let _ ← (updateEdge (loser.invalidate 0 now)).attempt
        return ()
      else
        return ()
  | .error _ => return ()

/-- Close the edges of a conflict other than the one that wins. -/
def closeLosers (winnerId : Uuid) : List Uuid → MemoryProgram Unit
  | [] => return ()
  | edgeId :: edgeIds => do
      if edgeId ≠ winnerId then
        closeLoser edgeId
        closeLosers winnerId edgeIds
      else
        closeLosers winnerId edgeIds

/-- Settle the conflict, if a winning edge is named. -/
def settleConflict (clarification : ClarificationRequest) : Option Uuid → MemoryProgram Unit
  | some winnerId => closeLosers winnerId clarification.conflictEdgeIds
  | none => return ()

/-- Resolve a pending clarification of the user with an answer. -/
def resolveClarification (userId clarificationId : Uuid) (request : ResolveClarificationRequest) :
    MemoryProgram ClarificationRequest := do
  if (Text.trim request.answer).isEmpty then
    .fail (.validation "answer is required")
  else
    let clarification ← Redis.getRequired (.clarification clarificationId)
      (.notFound "clarification" clarificationId.toText)
    if clarification.userId ≠ userId then
      .fail (.validation "clarification does not belong to this user")
    else if clarification.status ≠ .pending then
      .fail (.validation ("clarification is not pending (status: " ++
        clarificationStatusName clarification.status ++ ")"))
    else
      settleConflict clarification request.winningEdgeId
      let now ← Redis.now
      let resolved := clarification.resolve request.answer request.winningEdgeId none now
      saveClarification resolved
      return resolved

/-! ## Classification -/

/-- The name of a classification in messages. -/
def classificationName : Classification → String
  | .«public» => "Public"
  | .internal => "Internal"
  | .confidential => "Confidential"
  | .restricted => "Restricted"

/-- Records of a kind that are classified. -/
structure Records (Item : Type) where
  kind : String
  get : Uuid → MemoryProgram Item
  update : Item → MemoryProgram Unit
  userId : Item → Uuid
  classification : Item → Classification
  classify : Item → Classification → DateTime → Item

/-- Entities are classified. -/
def entityRecords : Records Entity where
  kind := "entity"
  get := getEntity
  update := updateEntity
  userId := Entity.userId
  classification := Entity.classification
  classify := Entity.classify

/-- Edges are classified. -/
def edgeRecords : Records Edge where
  kind := "edge"
  get := getEdge
  update := updateEdge
  userId := Edge.userId
  classification := Edge.classification
  classify := Edge.classify

section Patches

variable {Item : Type} (records : Records Item)

/-- Only administrators lower a classification. -/
def mayReclassify (caller : CallerContext) (old new : Classification) : Except MnemoError Unit :=
  if new < old then
    (caller.requireRole .admin).mapError fun _ =>
      .validation ("downgrading classification from " ++ classificationName old ++ " to " ++
        classificationName new ++ " requires Admin role")
  else
    .ok ()

/-- Classify a record anew. -/
def patchClassification (caller : CallerContext) (id : Uuid) (classification : Classification) :
    MemoryProgram Item := do
  .ofExcept (caller.requireRole .write)
  let item ← records.get id
  .ofExcept (caller.requireUserAccess (records.userId item))
  .ofExcept (mayReclassify caller (records.classification item) classification)
  let now ← Redis.now
  let classified := records.classify item classification now
  records.update classified
  return classified

/-- Classify an entity anew. -/
def patchEntityClassification : CallerContext → Uuid → Classification → MemoryProgram Entity :=
  patchClassification entityRecords

/-- Classify an edge anew. -/
def patchEdgeClassification : CallerContext → Uuid → Classification → MemoryProgram Edge :=
  patchClassification edgeRecords

/-- How a remote call fails. -/
inductive Status where
  | notFound (message : String)
  | invalidArgument (message : String)
  | unauthenticated (message : String)
  | permissionDenied (message : String)
  | alreadyExists (message : String)
  | resourceExhausted (message : String)
  | internal (message : String)
  | aborted (message : String)
  deriving DecidableEq, Repr

/-- The status for an error of the store. -/
def storageErrToStatus (error : MnemoError) : Status :=
  match error.statusCode with
  | 404 => .notFound error.message
  | 400 => .invalidArgument error.message
  | 401 => .unauthenticated error.message
  | 403 => .permissionDenied error.message
  | 409 => .alreadyExists error.message
  | 429 => .resourceExhausted error.message
  | _ => .internal error.message

/-- Classify a record anew, and read it again to see whether it was overwritten; then try again. -/
def classifyAndVerify (id : Uuid) (classification : Classification) :
    (attempts : Nat) → MemoryProgram (Except Status Item)
  | 0 =>
      return .error (.aborted
        "classification patch failed due to concurrent modification — retry")
  | attempts + 1 => do
      let item ← records.get id
      let now ← Redis.now
      records.update (records.classify item classification now)
      let written ← records.get id
      if records.classification written = classification then
        return .ok written
      else
        classifyAndVerify id classification attempts

/-- Hand on the error of the store as a status. -/
def answered {α : Type} (program : MemoryProgram (Except Status α)) :
    MemoryProgram (Except Status α) := do
  match ← program.attempt with
  | .ok answer => return answer
  | .error error => return .error (storageErrToStatus error)

/-- Classify a record anew, as a remote call. -/
def grpcPatchClassification (caller : CallerContext) (id : Uuid)
    (classification : Classification) : MemoryProgram (Except Status Item) :=
  match caller.requireRole .write with
  | .error error => return .error (.permissionDenied error.message)
  | .ok () => answered do
      let initial ← records.get id
      match caller.requireUserAccess (records.userId initial) with
      | .error _ =>
          return .error (.notFound (records.kind ++ " " ++ id.toText ++ " not found"))
      | .ok () => classifyAndVerify records id classification 3

/-- Classify an entity anew, as a remote call. -/
def grpcPatchEntityClassification :
    CallerContext → Uuid → Classification → MemoryProgram (Except Status Entity) :=
  grpcPatchClassification entityRecords

/-- Classify an edge anew, as a remote call. -/
def grpcPatchEdgeClassification :
    CallerContext → Uuid → Classification → MemoryProgram (Except Status Edge) :=
  grpcPatchClassification edgeRecords

end Patches
end Graph
end Mnemo
