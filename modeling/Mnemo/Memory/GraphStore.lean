import Mnemo.Memory.Model

/-!
# The store operations on entities, edges and episodes
-/

namespace Mnemo
namespace Memory

open Database (Command)

namespace Redis

def get (key : MemoryKey) : MemoryProgram (Option (MemoryDoc key)) :=
  Program.call (Command.get key : MemoryCommand)

def set (key : MemoryKey) (doc : MemoryDoc key) : MemoryProgram Unit :=
  Program.call (Command.set key doc : MemoryCommand)

def del (key : MemoryKey) : MemoryProgram Unit :=
  Program.call (Command.del key : MemoryCommand)

def zadd (index : MemoryIndex) (member : Uuid) (score : Int) : MemoryProgram Unit :=
  Program.call (Command.zadd index member score : MemoryCommand)

/-- Remove a member; the reply is the number of members that were removed. -/
def zremCount (index : MemoryIndex) (member : Uuid) : MemoryProgram Nat :=
  Program.call (Command.zrem index member : MemoryCommand)

def zrem (index : MemoryIndex) (member : Uuid) : MemoryProgram Unit := do
  let _ ← zremCount index member
  return ()

def zscore (index : MemoryIndex) (member : Uuid) : MemoryProgram (Option Int) :=
  Program.call (Command.zscore index member : MemoryCommand)

def zrange (index : MemoryIndex) (start stop : Int) : MemoryProgram (List Uuid) :=
  Program.call (Command.zrange index start stop : MemoryCommand)

def zrevrange (index : MemoryIndex) (start stop : Int) : MemoryProgram (List Uuid) :=
  Program.call (Command.zrevrange index start stop : MemoryCommand)

def zrevrangeBelow (index : MemoryIndex) (bound : Int) (limit : Nat) :
    MemoryProgram (List Uuid) :=
  Program.call (Command.zrevrangeBelow index bound limit : MemoryCommand)

/-- The current time. -/
def now : MemoryProgram DateTime := Program.call (Command.clock : MemoryCommand)

/-- A new identifier. -/
def newId : MemoryProgram Uuid := Program.call (Command.freshId : MemoryCommand)

/-- Call an outside service. -/
def ask (service : MemoryService) : MemoryProgram (MemoryAnswer service) :=
  Program.call (Command.service service : MemoryCommand)

/-- Read a document which has to exist. -/
def getRequired (key : MemoryKey) (notFound : MnemoError) : MemoryProgram (MemoryDoc key) := do
  match ← get key with
  | some doc => return doc
  | none => .fail notFound

end Redis

/-- Read the documents under the keys of identifiers; those without a document are left out. -/
def getAll {Item : Type} (read : Uuid → MemoryProgram (Option Item)) :
    List Uuid → MemoryProgram (List Item)
  | [] => return []
  | id :: ids => do
      let item ← read id
      let items ← getAll read ids
      return item.toList ++ items

/-- The identifiers of a page, newest first; an unknown cursor gives an empty page. -/
def pageIds (index : MemoryIndex) (limit : Nat) (after : Option Uuid) :
    MemoryProgram (List Uuid) :=
  match after with
  | none => Redis.zrevrange index 0 ((limit : Int) - 1)
  | some cursor => do
      match ← Redis.zscore index cursor with
      | some score => Redis.zrevrangeBelow index score limit
      | none => return []

/-- A page of the documents that are indexed by a sorted set. -/
def listFromZset {Item : Type} (index : MemoryIndex)
    (read : Uuid → MemoryProgram (Option Item)) (limit : Nat) (after : Option Uuid) :
    MemoryProgram (List Item) := do
  let ids ← pageIds index limit after
  getAll read ids

/-! ## Entities -/

/-- The entity under an identifier, if there is one. -/
def readEntity (id : Uuid) : MemoryProgram (Option Entity) := Redis.get (.entity id)

def getEntity (id : Uuid) : MemoryProgram Entity :=
  Redis.getRequired (.entity id) (.entityNotFound id)

def updateEntity (entity : Entity) : MemoryProgram Unit := Redis.set (.entity entity.id) entity

def listEntities (userId : Uuid) (limit : Nat) (after : Option Uuid) :
    MemoryProgram (List Entity) :=
  listFromZset (.userEntities userId) readEntity limit after

section Names

variable (unicode : Unicode)

/-- Store an entity, index it, and enter its name for deduplication. -/
def createEntity (entity : Entity) : MemoryProgram Entity := do
  Redis.set (.entity entity.id) entity
  Redis.zadd (.userEntities entity.userId) entity.id (timestampMillis entity.createdAt)
  Redis.set (.entityName entity.userId (unicode.toLowercase entity.name)) entity.id
  return entity

/-- Delete an entity, its index entry and the entry of its name. -/
def deleteEntity (id : Uuid) : MemoryProgram Unit := do
  let entity ← getEntity id
  Redis.del (.entity id)
  Redis.zrem (.userEntities entity.userId) id
  Redis.del (.entityName entity.userId (unicode.toLowercase entity.name))

def findEntityByName (userId : Uuid) (name : String) : MemoryProgram (Option Entity) := do
  let found : Option Uuid ← Redis.get (.entityName userId (unicode.toLowercase name))
  match found with
  | some id =>
      let entity ← getEntity id
      return some entity
  | none => return none

end Names

/-! ## Edges -/

/-- The edge under an identifier, if there is one. -/
def readEdge (id : Uuid) : MemoryProgram (Option Edge) := Redis.get (.edge id)

def getEdge (id : Uuid) : MemoryProgram Edge := Redis.getRequired (.edge id) (.edgeNotFound id)

def updateEdge (edge : Edge) : MemoryProgram Unit := Redis.set (.edge edge.id) edge

/-- Check the label of an edge, store it, and enter it into the adjacency lists. -/
def createEdge (unicode : Unicode) (edge : Edge) : MemoryProgram Edge := do
  .ofExcept ((validateEdgeLabel unicode edge.label).mapError .validation)
  Redis.set (.edge edge.id) edge
  Redis.zadd (.adjOut edge.sourceEntityId) edge.id (timestampMillis edge.validAt)
  Redis.zadd (.adjIn edge.targetEntityId) edge.id (timestampMillis edge.validAt)
  Redis.zadd (.userEdges edge.userId) edge.id (timestampMillis edge.validAt)
  return edge

/-- How many edges of an adjacency list are read. -/
def adjacencyLimit : Nat := 1000

def getOutgoingEdges (entityId : Uuid) : MemoryProgram (List Edge) :=
  listFromZset (.adjOut entityId) readEdge adjacencyLimit none

def getIncomingEdges (entityId : Uuid) : MemoryProgram (List Edge) :=
  listFromZset (.adjIn entityId) readEdge adjacencyLimit none

/-- The valid edges with the same ends and the same label. -/
def findConflictingEdges (userId sourceEntityId targetEntityId : Uuid) (label : String) :
    MemoryProgram (List Edge) := do
  let edges ← getOutgoingEdges sourceEntityId
  return edges.filter fun edge =>
    edge.targetEntityId == targetEntityId && edge.label == label && edge.userId == userId &&
      edge.isValid

/-! ## Episodes -/

def updateEpisode (episode : Episode) : MemoryProgram Unit :=
  Redis.set (.episode episode.id) episode

end Memory
end Mnemo
