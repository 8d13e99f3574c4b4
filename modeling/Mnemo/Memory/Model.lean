import Mathlib
import Mnemo.Core.Basic
import Mnemo.Core.Text
import Mnemo.Lib.Database
import Mnemo.Lib.Span

/-!
# The temporal knowledge graph

Episodes are what users and agents said; entities and edges are what was extracted from them.  An
edge is a fact about two entities which holds over a span of time.
-/

namespace Mnemo
namespace Memory

/-- What the Unicode tables decide. -/
structure Unicode where
  toLowercase : String → String
  isAlphanumeric : Char → Bool

/-- Kind of an entity. -/
inductive EntityType where
  | person
  | organization
  | product
  | location
  | event
  | concept
  | custom (name : String)
  deriving DecidableEq, Repr

/-- The name of a kind. -/
def EntityType.asStr : EntityType → String
  | .person => "person"
  | .organization => "organization"
  | .product => "product"
  | .location => "location"
  | .event => "event"
  | .concept => "concept"
  | .custom name => name

/-- An entity as it was extracted, before it is found in the graph. -/
structure ExtractedEntity where
  name : String
  entityType : EntityType
  summary : Option String
  classification : Classification
  deriving DecidableEq, Repr

/-- A node of the graph. -/
structure Entity where
  id : Uuid
  userId : Uuid
  name : String
  entityType : EntityType
  summary : Option String
  classification : Classification
  mentionCount : Nat
  createdAt : DateTime
  updatedAt : DateTime
  deriving DecidableEq, Repr

namespace Entity

/-- A new entity. -/
def fromExtraction (extracted : ExtractedEntity) (userId id : Uuid) (now : DateTime) : Entity :=
  { id, userId
    name := extracted.name
    entityType := extracted.entityType
    summary := extracted.summary
    classification := extracted.classification
    mentionCount := 1
    createdAt := now
    updatedAt := now }

def recordMention (entity : Entity) (now : DateTime) : Entity :=
  { entity with mentionCount := entity.mentionCount + 1, updatedAt := now }

def updateSummary (entity : Entity) (summary : String) (now : DateTime) : Entity :=
  { entity with summary := some summary, updatedAt := now }

/-- Classify anew. -/
def classify (entity : Entity) (classification : Classification) (now : DateTime) : Entity :=
  { entity with classification, updatedAt := now }

end Entity

/-- How the validity of a fact is to be read. -/
inductive FactTemporalScope where
  | mutable
  | stable
  | timeBounded (expiresAt : Option DateTime)
  deriving DecidableEq, Repr

/-- Whether a fact of this scope counts as current at an instant. -/
def FactTemporalScope.isCurrentAt (now : DateTime) : FactTemporalScope → Bool
  | .mutable | .stable => true
  | .timeBounded (some expiry) => decide (now < expiry)
  | .timeBounded none => true

/-- A relationship as it was extracted, between names. -/
structure ExtractedRelationship where
  sourceName : String
  targetName : String
  label : String
  fact : String
  confidence : ℚ
  validAt : Option DateTime
  classification : Classification
  temporalScope : Option FactTemporalScope
  deriving DecidableEq, Repr

/-- What was extracted from one episode. -/
structure ExtractionResult where
  entities : List ExtractedEntity
  relationships : List ExtractedRelationship
  deriving DecidableEq, Repr

/-- A fact: a labelled edge of the graph with the span of time over which it holds. -/
structure Edge where
  id : Uuid
  userId : Uuid
  sourceEntityId : Uuid
  targetEntityId : Uuid
  label : String
  fact : String
  validAt : DateTime
  invalidAt : Option DateTime
  ingestedAt : DateTime
  sourceEpisodeId : Uuid
  sourceAgentId : Option String
  invalidatedByEpisodeId : Option Uuid
  confidence : ℚ
  corroborationCount : Nat
  classification : Classification
  createdAt : DateTime
  updatedAt : DateTime
  temporalScope : Option FactTemporalScope
  accessCount : Nat
  lastAccessedAt : Option DateTime
  deriving DecidableEq, Repr

namespace Edge

/-- A new edge between resolved entities. -/
def fromExtraction (rel : ExtractedRelationship) (userId sourceEntityId targetEntityId : Uuid)
    (episodeId : Uuid) (eventTime : DateTime) (sourceAgentId : Option String) (id : Uuid)
    (now : DateTime) : Edge :=
  { id, userId, sourceEntityId, targetEntityId
    label := rel.label
    fact := rel.fact
    validAt := rel.validAt.getD eventTime
    invalidAt := none
    ingestedAt := now
    sourceEpisodeId := episodeId
    sourceAgentId
    invalidatedByEpisodeId := none
    confidence := rel.confidence
    corroborationCount := 1
    classification := rel.classification
    createdAt := now
    updatedAt := now
    temporalScope := rel.temporalScope
    accessCount := 0
    lastAccessedAt := none }

/-- Whether the edge has not been invalidated. -/
def isValid (edge : Edge) : Bool := edge.invalidAt.isNone

/-- Whether the edge holds at an instant. -/
def isValidAt (edge : Edge) (time : DateTime) : Bool :=
  if time < edge.validAt then false
  else
    match edge.invalidAt with
    | some invalid => decide (time < invalid)
    | none => true

/-- Close the edge at the current time. -/
def invalidate (edge : Edge) (invalidatedBy : Uuid) (now : DateTime) : Edge :=
  { edge with
    invalidAt := some now
    invalidatedByEpisodeId := some invalidatedBy
    updatedAt := now }

/-- Record that another episode confirms the edge. -/
def corroborate (edge : Edge) (now : DateTime) : Edge :=
  { edge with
    corroborationCount := (edge.corroborationCount + 1) % 2 ^ 32
    updatedAt := now }

/-- Count a read access, up to the largest 32-bit number. -/
def recordAccess (edge : Edge) (accessedAt updatedAt : DateTime) : Edge :=
  { edge with
    accessCount := min (edge.accessCount + 1) (2 ^ 32 - 1)
    lastAccessedAt := some accessedAt
    updatedAt }

/-- Take a new confidence, and start to hold anew. -/
def revalidate (edge : Edge) (confidence : ℚ) (validAt updatedAt : DateTime) : Edge :=
  { edge with confidence, validAt, updatedAt }

/-- Classify anew. -/
def classify (edge : Edge) (classification : Classification) (now : DateTime) : Edge :=
  { edge with classification, updatedAt := now }

/-- The span over which the edge holds. -/
def span (edge : Edge) : Span DateTime := ⟨edge.validAt, edge.invalidAt⟩

theorem isValid_iff (edge : Edge) : edge.isValid = true ↔ edge.invalidAt = none := by
  simp [isValid]

theorem isValidAt_iff (edge : Edge) (time : DateTime) :
    edge.isValidAt time = true ↔ edge.span.Covers time := by
  unfold isValidAt Span.Covers span
  rcases lt_or_ge time edge.validAt with before | after
  · simp [before, not_le.mpr before]
  · cases edge.invalidAt with
    | none => simp [not_lt.mpr after, after]
    | some invalid => simp [not_lt.mpr after, after]

end Edge

/-- The longest label of an edge, in bytes. -/
def maxEdgeLabelLength : Nat := 128

/-- Check the label of an edge. -/
def validateEdgeLabel (unicode : Unicode) (label : String) : Except String Unit :=
  if label.isEmpty then .error "edge label cannot be empty"
  else if maxEdgeLabelLength < Text.byteLength label then
    .error "edge label exceeds maximum length of 128 characters"
  else if Text.byteLength (Text.trim label) ≠ Text.byteLength label then
    .error "edge label cannot have leading or trailing whitespace"
  else if (Text.trim label).isEmpty then .error "edge label cannot be all whitespace"
  else
    match label.toList.find? fun character =>
      !unicode.isAlphanumeric character && character != '_' && character != '-' &&
        character != ' ' with
    | some character =>
        .error ("edge label contains invalid character '" ++ String.singleton character ++
          "'; allowed: alphanumeric, underscore, hyphen, space")
    | none => .ok ()

/-- Speaker of a message. -/
inductive MessageRole where
  | user
  | assistant
  | system
  | tool
  deriving DecidableEq, Repr

/-- State of the processing of an episode. -/
inductive ProcessingStatus where
  | pending
  | processing
  | completed
  | failed
  | skipped
  deriving DecidableEq, Repr

/-- The unit of ingestion: a message, an event or a text. -/
structure Episode where
  id : Uuid
  sessionId : Uuid
  userId : Uuid
  agentId : Option String
  content : String
  role : Option MessageRole
  createdAt : DateTime
  processingStatus : ProcessingStatus
  processingError : Option String
  entityIds : List Uuid
  edgeIds : List Uuid
  retryCount : Nat
  deriving DecidableEq, Repr

/-- Mark an episode as processed. -/
def Episode.markCompleted (episode : Episode) (entityIds edgeIds : List Uuid) : Episode :=
  { episode with
    processingStatus := .completed
    entityIds
    edgeIds
    processingError := none }

/-- Mark an episode as being processed. -/
def Episode.markProcessing (episode : Episode) : Episode :=
  { episode with processingStatus := .processing }

/-- Mark an episode as failed. -/
def Episode.markFailed (episode : Episode) (error : String) : Episode :=
  { episode with
    processingStatus := .failed
    processingError := some error }

/-- Put an episode back into the queue after a failure. -/
def Episode.requeued (episode : Episode) (retryCount : Nat) (error : Option String) : Episode :=
  { episode with
    processingStatus := .pending
    processingError := error
    retryCount }

/-- The delay before another attempt, in milliseconds: 500, 1000, 2000 and so on. -/
def backoffDelay (retryCount : Nat) : Nat := 500 * 2 ^ (retryCount - 1) % 2 ^ 64

/-- Prepare an episode for another attempt, with the delay, or mark it as failed when there were
enough. -/
def Episode.requeueForRetry (episode : Episode) (error : String) (maxRetries : Nat) :
    Episode × Option Nat :=
  if maxRetries ≤ episode.retryCount then (episode.markFailed error, none)
  else
    (episode.requeued (episode.retryCount + 1) (some error),
      some (backoffDelay (episode.retryCount + 1)))

/-- A thread of episodes. -/
structure Session where
  id : Uuid
  userId : Uuid
  agentId : Option String
  episodeCount : Nat
  summary : Option String
  summaryTokens : Nat
  createdAt : DateTime
  updatedAt : DateTime
  /-- When the last episode was added. -/
  lastActivityAt : Option DateTime
  deriving DecidableEq, Repr

/-- Replace the summary of a session. -/
def Session.withSummary (session : Session) (summary : String) (tokens : Nat) (now : DateTime) :
    Session :=
  { session with
    summary := some summary
    summaryTokens := tokens
    updatedAt := now }

/-- State of a clarification. -/
inductive ClarificationStatus where
  | pending
  | resolved
  | expired
  | dismissed
  deriving DecidableEq, Repr

/-- A question to the user about facts that contradict each other. -/
structure ClarificationRequest where
  id : Uuid
  userId : Uuid
  question : String
  status : ClarificationStatus
  conflictEdgeIds : List Uuid
  sourceEntity : String
  label : String
  conflictingFacts : List String
  severity : ℚ
  createdAt : DateTime
  expiresAt : DateTime
  resolvedAt : Option DateTime
  resolutionAnswer : Option String
  winningEdgeId : Option Uuid
  resolutionEpisodeId : Option Uuid
  deriving DecidableEq, Repr

/-- Mark a clarification as resolved by an answer. -/
def ClarificationRequest.resolve (clarification : ClarificationRequest) (answer : String)
    (winningEdgeId resolutionEpisodeId : Option Uuid) (now : DateTime) : ClarificationRequest :=
  { clarification with
    status := .resolved
    resolvedAt := some now
    resolutionAnswer := some answer
    winningEdgeId
    resolutionEpisodeId }

/-! ## The database -/

/-- The keys of documents. -/
inductive MemoryKey where
  /-- `entity:{id}` -/
  | entity (id : Uuid)
  /-- `entity_name:{user}:{name}` -/
  | entityName (userId : Uuid) (name : String)
  /-- `edge:{id}` -/
  | edge (id : Uuid)
  /-- `episode:{id}` -/
  | episode (id : Uuid)
  /-- `session:{id}` -/
  | session (id : Uuid)
  /-- `clarification:{id}` -/
  | clarification (id : Uuid)
  deriving DecidableEq, Repr

/-- The type of the document under a key. -/
abbrev MemoryDoc : MemoryKey → Type
  | .entity _ => Entity
  | .entityName _ _ => Uuid
  | .edge _ => Edge
  | .episode _ => Episode
  | .session _ => Session
  | .clarification _ => ClarificationRequest

/-- The sorted sets, whose members are identifiers; the order of identifiers is that of the texts
in which they are printed. -/
inductive MemoryIndex where
  | userEntities (userId : Uuid)
  | userEdges (userId : Uuid)
  | adjOut (entityId : Uuid)
  | adjIn (entityId : Uuid)
  | sessionEpisodes (sessionId : Uuid)
  | userSessions (userId : Uuid)
  | userClarifications (userId : Uuid)
  /-- The episodes that wait for a worker. -/
  | pendingEpisodes
  deriving DecidableEq, Repr

/-- Calls of language models, embedders and the vector store. -/
inductive MemoryService where
  | extract (content : String) (hints : List ExtractedEntity)
  | embed (text : String)
  | upsertEntityEmbedding (id userId : Uuid)
  | upsertEdgeEmbedding (id userId : Uuid)
  | upsertEpisodeEmbedding (id userId : Uuid)
  | summarize (content : String) (maxTokens : Nat)
  deriving DecidableEq, Repr

/-- What a service answers. -/
def MemoryAnswer : MemoryService → Type
  | .extract _ _ => ExtractionResult
  | .embed _ | .upsertEntityEmbedding _ _ | .upsertEdgeEmbedding _ _
  | .upsertEpisodeEmbedding _ _ => Unit
  | .summarize _ _ => String

/-- A command on the database of memories. -/
abbrev MemoryCommand := Database.Command MemoryKey MemoryDoc MemoryIndex Uuid MemoryService

/-- The contents of the database of memories. -/
abbrev MemoryContents := Database.Contents MemoryKey MemoryDoc MemoryIndex Uuid

/-- What the environment decides at a command. -/
abbrev MemoryInput := Database.Input MemoryAnswer MnemoError

/-- A program over the database of memories. -/
abbrev MemoryProgram := Program MemoryCommand (·.Reply MemoryAnswer) MnemoError

/-- The database before anything was stored. -/
def emptyMemory : MemoryContents :=
  { docs := fun _ => none, sets := fun _ => .empty, issued := [] }

end Memory
end Mnemo
