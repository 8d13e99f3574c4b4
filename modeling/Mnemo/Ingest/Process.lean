import Mnemo.Memory.GraphStore

/-!
# Processing of an episode

The worker extracts entities and relationships from an episode, finds the entities in the graph or
creates them, closes the edges that a new relationship supersedes, and stores the new edge.
-/

namespace Mnemo
namespace Ingest

open Memory

section Processing

variable (unicode : Unicode) (fallback : String → Option ExtractionResult)

/-- The entity as a hint to the extraction. -/
def hint (entity : Entity) : ExtractedEntity :=
  { name := entity.name
    entityType := entity.entityType
    summary := entity.summary
    classification := entity.classification }

/-- Extract from an episode; when nothing is found the fallback is tried. -/
def extract (episode : Episode) : MemoryProgram ExtractionResult := do
  let existing ← listEntities episode.userId 100 none
  let extraction : ExtractionResult ← Redis.ask (.extract episode.content (existing.map hint))
  if extraction.entities.isEmpty && extraction.relationships.isEmpty then
    return (fallback episode.content).getD extraction
  else
    return extraction

/-- The latest summary wins. -/
def withSummary (entity : Entity) : Option String → MemoryProgram Entity
  | some summary => do
      let now ← Redis.now
      return entity.updateSummary summary now
  | none => return entity

/-- Find an extracted entity by its name, or create it; also tells whether it is new. -/
def resolveEntity (episode : Episode) (extracted : ExtractedEntity) :
    MemoryProgram (Uuid × Bool) := do
  let existing ← findEntityByName unicode episode.userId extracted.name
  match existing with
  | some entity =>
      let now ← Redis.now
      let updated ← withSummary (entity.recordMention now) extracted.summary
      updateEntity updated
      return (updated.id, false)
  | none =>
      let now ← Redis.now
      let id ← Redis.newId
      let created ← createEntity unicode (Entity.fromExtraction extracted episode.userId id now)
      let _ ← Redis.ask (.embed (created.name ++ " (" ++ created.entityType.asStr ++ ")"))
      let _ ← Redis.ask (.upsertEntityEmbedding created.id created.userId)
      return (created.id, true)

/-- Identifiers of entities by lower-case name; later entries come first. -/
abbrev NameMap := List (String × Uuid)

/-- Resolve the extracted entities in turn, and list the new ones. -/
def resolveEntities (episode : Episode) :
    List ExtractedEntity → NameMap → List Uuid → MemoryProgram (NameMap × List Uuid)
  | [], names, newIds => return (names, newIds)
  | extracted :: rest, names, newIds => do
      let (id, isNew) ← resolveEntity unicode episode extracted
      resolveEntities episode rest ((unicode.toLowercase extracted.name, id) :: names)
        (if isNew then newIds ++ [id] else newIds)

/-- Close edges in turn. -/
def invalidateEdges (episode : Episode) : List Edge → MemoryProgram Unit
  | [] => return ()
  | edge :: edges => do
      let now ← Redis.now
      updateEdge (edge.invalidate episode.id now)
      invalidateEdges episode edges

/-- The name of an entity, empty when it cannot be read. -/
def entityNameOrEmpty (id : Uuid) : MemoryProgram String := do
  match ← (getEntity id).attempt with
  | .ok entity => return entity.name
  | .error _ => return ""

/-- Close the edges to targets of another name; failures to do so are ignored. -/
def supersedeOthers (episode : Episode) (rel : ExtractedRelationship) :
    List Edge → MemoryProgram Unit
  | [] => return ()
  | existing :: edges => do
      let oldTarget ← entityNameOrEmpty existing.targetEntityId
      if unicode.toLowercase rel.targetName ≠ unicode.toLowercase oldTarget then
        let now ← Redis.now
        let _ ← (updateEdge (existing.invalidate episode.id now)).attempt
        supersedeOthers episode rel edges
      else
        supersedeOthers episode rel edges

/-- The outgoing edges of an entity, none when they cannot be read. -/
def outgoingOrNone (entityId : Uuid) : MemoryProgram (List Edge) := do
  match ← (getOutgoingEdges entityId).attempt with
  | .ok edges => return edges
  | .error _ => return []

/-- A valid edge with the same source and label but another target. -/
def isBeliefChange (episode : Episode) (rel : ExtractedRelationship) (targetId : Uuid)
    (edge : Edge) : Bool :=
  edge.label == rel.label && edge.userId == episode.userId && edge.isValid &&
    edge.targetEntityId != targetId

/-- Store the edge of a relationship and its embedding. -/
def storeFact (episode : Episode) (rel : ExtractedRelationship) (sourceId targetId : Uuid) :
    MemoryProgram Uuid := do
  let now ← Redis.now
  let id ← Redis.newId
  let created ← createEdge unicode
    (Edge.fromExtraction rel episode.userId sourceId targetId episode.id episode.createdAt
      episode.agentId id now)
  let _ ← Redis.ask (.embed created.fact)
  let _ ← Redis.ask (.upsertEdgeEmbedding created.id created.userId)
  return created.id

/-- Close what a relationship supersedes and store its edge. -/
def processFact (episode : Episode) (rel : ExtractedRelationship) (sourceId targetId : Uuid) :
    MemoryProgram Uuid := do
  let conflicts ← findConflictingEdges episode.userId sourceId targetId rel.label
  invalidateEdges episode conflicts
  let outgoing ← outgoingOrNone sourceId
  supersedeOthers unicode episode rel (outgoing.filter (isBeliefChange episode rel targetId))
  storeFact unicode episode rel sourceId targetId

/-- Process the relationships in turn; those between unknown names are skipped. -/
def processRelationships (episode : Episode) (names : NameMap) :
    List ExtractedRelationship → List Uuid → MemoryProgram (List Uuid)
  | [], newIds => return newIds
  | rel :: rels, newIds =>
      match names.lookup (unicode.toLowercase rel.sourceName),
        names.lookup (unicode.toLowercase rel.targetName) with
      | some sourceId, some targetId => do
          let id ← processFact unicode episode rel sourceId targetId
          processRelationships episode names rels (newIds ++ [id])
      | _, _ => processRelationships episode names rels newIds

/-- Process a single episode. -/
def processEpisode (episode : Episode) : MemoryProgram Unit := do
  let extraction ← extract fallback episode
  let (names, newEntityIds) ← resolveEntities unicode episode extraction.entities [] []
  let newEdgeIds ← processRelationships unicode episode names extraction.relationships []
  let _ ← Redis.ask (.embed episode.content)
  let _ ← Redis.ask (.upsertEpisodeEmbedding episode.id episode.userId)
  updateEpisode (episode.markCompleted newEntityIds newEdgeIds)

end Processing
end Ingest
end Mnemo
