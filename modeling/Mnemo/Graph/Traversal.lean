import Mnemo.Core.Basic
import Mnemo.Lib.BreadthFirst
import Mnemo.Memory.Model

/-!
# Traversal of the graph

The engine reads entities and the edges at them from a store, and collects what surrounds a seed,
breadth first.  Only what belongs to the user is visited, when there is one.
-/

namespace Mnemo
namespace Graph

open Memory
open BreadthFirst

/-! ## The store -/

/-- What the engine reads: an entity by its identifier, and the edges that begin or end there. -/
structure GraphStore where
  getEntity : Uuid → Except MnemoError Entity
  getOutgoingEdges : Uuid → Except MnemoError (List Edge)
  getIncomingEdges : Uuid → Except MnemoError (List Edge)
  entity_id : ∀ id entity, getEntity id = .ok entity → entity.id = id
  source_id : ∀ id edges, getOutgoingEdges id = .ok edges → ∀ edge ∈ edges,
    edge.sourceEntityId = id
  target_id : ∀ id edges, getIncomingEdges id = .ok edges → ∀ edge ∈ edges,
    edge.targetEntityId = id

/-- Whether an entity may be visited. -/
def userOwns (userId : Option Uuid) (entity : Entity) : Bool :=
  match userId with
  | some uid => entity.userId == uid
  | none => true

/-- Whether an edge may be followed. -/
def admits (userId : Option Uuid) (validOnly : Bool) (edge : Edge) : Bool :=
  let userOk :=
    match userId with
    | some uid => edge.userId == uid
    | none => true
  let validOk := !validOnly || edge.isValid
  userOk && validOk

namespace GraphStore

/-- The edges from an entity; none if they cannot be read. -/
def outgoing (store : GraphStore) (entityId : Uuid) : List Edge :=
  (store.getOutgoingEdges entityId).toOption.getD []

/-- The edges to an entity; none if they cannot be read. -/
def incoming (store : GraphStore) (entityId : Uuid) : List Edge :=
  (store.getIncomingEdges entityId).toOption.getD []

def filteredOut (store : GraphStore) (userId : Option Uuid) (validOnly : Bool) (entityId : Uuid) :
    List Edge :=
  (store.outgoing entityId).filter (admits userId validOnly)

def filteredIn (store : GraphStore) (userId : Option Uuid) (validOnly : Bool) (entityId : Uuid) :
    List Edge :=
  (store.incoming entityId).filter (admits userId validOnly)

/-- An entity that is stored under its own identifier, and may be visited. -/
def Present (store : GraphStore) (userId : Option Uuid) (entity : Entity) : Prop :=
  store.getEntity entity.id = .ok entity ∧ userOwns userId entity = true

/-- Every edge is found at both of its ends. -/
structure TwoSided (store : GraphStore) : Prop where
  outgoing_incoming : ∀ id, ∀ edge ∈ store.outgoing id,
    edge ∈ store.incoming edge.targetEntityId
  incoming_outgoing : ∀ id, ∀ edge ∈ store.incoming id,
    edge ∈ store.outgoing edge.sourceEntityId

/-- The queries for edges agree, and no two edges share an identifier. -/
structure Consistent (store : GraphStore) : Prop extends TwoSided store where
  edge_id : ∀ id other, ∀ edge ∈ store.outgoing id, ∀ twin ∈ store.outgoing other,
    edge.id = twin.id → edge = twin

/-- An edge leads from one entity to another, in one of its directions. -/
def Joins (edge : Edge) (one other : Uuid) : Prop :=
  edge.sourceEntityId = one ∧ edge.targetEntityId = other ∨
    edge.sourceEntityId = other ∧ edge.targetEntityId = one

theorem outgoing_source {store : GraphStore} {id : Uuid} {edge : Edge}
    (member : edge ∈ store.outgoing id) : edge.sourceEntityId = id := by
  unfold outgoing at member
  cases answer : store.getOutgoingEdges id with
  | error failure => simp [answer, Except.toOption] at member
  | ok edges =>
    rw [answer] at member
    exact store.source_id id edges answer edge member

theorem incoming_target {store : GraphStore} {id : Uuid} {edge : Edge}
    (member : edge ∈ store.incoming id) : edge.targetEntityId = id := by
  unfold incoming at member
  cases answer : store.getIncomingEdges id with
  | error failure => simp [answer, Except.toOption] at member
  | ok edges =>
    rw [answer] at member
    exact store.target_id id edges answer edge member

/-- The undirected graph of the edges that may be followed between entities that may be visited. -/
def graph (store : GraphStore) (userId : Option Uuid) (validOnly : Bool) : SimpleGraph Uuid where
  Adj one other := one ≠ other ∧
    (∃ entity, entity.id = one ∧ store.Present userId entity) ∧
    (∃ entity, entity.id = other ∧ store.Present userId entity) ∧
    ∃ edge ∈ store.outgoing edge.sourceEntityId, admits userId validOnly edge = true ∧
      Joins edge one other
  symm := by
    constructor
    rintro one other ⟨different, first, second, edge, stored, admitted, joins⟩
    exact ⟨different.symm, second, first, edge, stored, admitted, joins.symm⟩
  loopless := ⟨fun _ adjacent => adjacent.1 rfl⟩

end GraphStore

namespace GraphStore

/-- A store of some entities and edges. -/
def ofRecords (entities : List Entity) (edges : List Edge) : GraphStore where
  getEntity id :=
    match entities.find? fun entity => entity.id == id with
    | some entity => .ok entity
    | none => .error (.entityNotFound id)
  getOutgoingEdges id := .ok (edges.filter fun edge => edge.sourceEntityId == id)
  getIncomingEdges id := .ok (edges.filter fun edge => edge.targetEntityId == id)
  entity_id := by
    intro id entity stored
    split at stored
    · rename_i found looked
      obtain rfl : found = entity := Except.ok.inj stored
      simpa using List.find?_some looked
    · cases stored
  source_id := by
    intro id listed same edge member
    obtain rfl := Except.ok.inj same
    simpa using (List.mem_filter.mp member).2
  target_id := by
    intro id listed same edge member
    obtain rfl := Except.ok.inj same
    simpa using (List.mem_filter.mp member).2

variable {entities : List Entity} {edges : List Edge}

theorem mem_outgoing_ofRecords {id : Uuid} {edge : Edge} :
    edge ∈ (ofRecords entities edges).outgoing id ↔ edge ∈ edges ∧ edge.sourceEntityId = id := by
  simp [outgoing, ofRecords, Except.toOption]

theorem mem_incoming_ofRecords {id : Uuid} {edge : Edge} :
    edge ∈ (ofRecords entities edges).incoming id ↔ edge ∈ edges ∧ edge.targetEntityId = id := by
  simp [incoming, ofRecords, Except.toOption]

theorem consistent_ofRecords (distinct : (edges.map Edge.id).Nodup) :
    (ofRecords entities edges).Consistent where
  outgoing_incoming _ _ member :=
    mem_incoming_ofRecords.mpr ⟨(mem_outgoing_ofRecords.mp member).1, rfl⟩
  incoming_outgoing _ _ member :=
    mem_outgoing_ofRecords.mpr ⟨(mem_incoming_ofRecords.mp member).1, rfl⟩
  edge_id _ _ _ member _ also same :=
    List.inj_on_of_nodup_map distinct (mem_outgoing_ofRecords.mp member).1
      (mem_outgoing_ofRecords.mp also).1 same

end GraphStore

/-- An entity of a user. -/
def conceptOf (userId id : Uuid) : Entity :=
  { id, userId, name := id.toText, entityType := .concept, summary := none
    classification := .internal, mentionCount := 1, createdAt := 0, updatedAt := 0 }

/-- A valid edge of a user between two entities. -/
def linkOf (userId id sourceEntityId targetEntityId : Uuid) : Edge :=
  { id, userId, sourceEntityId, targetEntityId, label := "knows", fact := "One knows the other"
    validAt := 0, invalidAt := none, ingestedAt := 0, sourceEpisodeId := 4, sourceAgentId := none
    invalidatedByEpisodeId := none, confidence := 1, corroborationCount := 1
    classification := .internal, createdAt := 0, updatedAt := 0, temporalScope := none
    accessCount := 0, lastAccessedAt := none }

/-! ## The engine -/

/-- An entity of a subgraph with the edges at it. -/
structure GraphNode where
  entity : Entity
  outgoing : List Edge
  incoming : List Edge
  depth : Nat
  deriving DecidableEq, Repr

/-- Result of a traversal. -/
structure Subgraph where
  nodes : List GraphNode
  edges : List Edge
  entitiesVisited : Nat
  deriving DecidableEq, Repr

/-- What a traversal has visited, queued and collected. -/
structure Traversal where
  visited : List Uuid
  queue : List (Uuid × Nat)
  nodes : List GraphNode
  edges : List Edge

/-- Queue the neighbours that were not visited. -/
def queueNeighbors (depth : Nat) :
    List Uuid → List Uuid × List (Uuid × Nat) → List Uuid × List (Uuid × Nat)
  | [], state => state
  | neighbor :: neighbors, (visited, queue) =>
      if neighbor ∈ visited then queueNeighbors depth neighbors (visited, queue)
      else queueNeighbors depth neighbors (visited ++ [neighbor], queue ++ [(neighbor, depth)])

/-- Keep the first edge of every identifier. -/
def retainFirst (seenEdges : List Uuid) : List Edge → List Edge
  | [] => []
  | edge :: edges =>
      if edge.id ∈ seenEdges then retainFirst seenEdges edges
      else edge :: retainFirst (seenEdges ++ [edge.id]) edges

section Traverse

variable (store : GraphStore) (userId : Option Uuid) (maxDepth maxNodes : Nat) (validOnly : Bool)

/-- Visit an entity that was taken from the queue. -/
def visit (entityId : Uuid) (depth : Nat) (state : Traversal) : Traversal :=
  match store.getEntity entityId with
  | .error _ => state
  | .ok entity =>
      if userOwns userId entity = false then state
      else
        let filteredOut := store.filteredOut userId validOnly entityId
        let filteredIn := store.filteredIn userId validOnly entityId
        let (visited, queue) :=
          if depth < maxDepth then
            queueNeighbors (depth + 1) (filteredIn.map Edge.sourceEntityId)
              (queueNeighbors (depth + 1) (filteredOut.map Edge.targetEntityId)
                (state.visited, state.queue))
          else (state.visited, state.queue)
        { visited, queue
          nodes := state.nodes ++ [⟨entity, filteredOut, filteredIn, depth⟩]
          edges := state.edges ++ filteredOut ++ filteredIn }

/-- The loop over the queue; nothing if it has not ended within the fuel. -/
def traverseLoop : Nat → Traversal → Option Traversal
  | 0, _ => none
  | fuel + 1, state =>
      match state.queue with
      | [] => some state
      | (entityId, depth) :: queue =>
          if maxNodes ≤ state.nodes.length then some { state with queue }
          else
            traverseLoop fuel
              (visit store userId maxDepth validOnly entityId depth { state with queue })

/-- Collect what surrounds a seed. -/
def traverseBfsForUser (fuel : Nat) (seedEntityId : Uuid) : Option Subgraph :=
  (traverseLoop store userId maxDepth maxNodes validOnly fuel
    ⟨[seedEntityId], [(seedEntityId, 0)], [], []⟩).map fun final =>
      { nodes := final.nodes
        edges := retainFirst [] final.edges
        entitiesVisited := final.visited.length }

end Traverse

/-! ## Lists -/

theorem queueNeighbors_eq (depth : Nat) (neighbors visited : List Uuid)
    (queue : List (Uuid × Nat)) : queueNeighbors depth neighbors (visited, queue) =
      (visited ++ fresh visited neighbors,
        queue ++ (fresh visited neighbors).map fun neighbor => (neighbor, depth)) := by
  induction neighbors generalizing visited queue with
  | nil => simp [queueNeighbors]
  | cons neighbor neighbors ih =>
    rw [queueNeighbors]
    by_cases old : neighbor ∈ visited
    · rw [if_pos old, ih, fresh_cons_of_mem old]
    · rw [if_neg old, ih, fresh_cons_of_notMem old]
      simp

theorem mem_of_mem_retainFirst {seen : List Uuid} {edges : List Edge} {edge : Edge}
    (member : edge ∈ retainFirst seen edges) : edge ∈ edges ∧ edge.id ∉ seen := by
  induction edges generalizing seen with
  | nil => simp [retainFirst] at member
  | cons head edges ih =>
    rw [retainFirst] at member
    split at member
    · have rest := ih member
      exact ⟨List.mem_cons_of_mem _ rest.1, rest.2⟩
    · rename_i new
      rcases List.mem_cons.mp member with rfl | among
      · exact ⟨List.mem_cons_self, new⟩
      · have rest := ih among
        exact ⟨List.mem_cons_of_mem _ rest.1, fun old => rest.2 (by simp [old])⟩

theorem nodup_retainFirst (seen : List Uuid) (edges : List Edge) :
    ((retainFirst seen edges).map Edge.id).Nodup := by
  induction edges generalizing seen with
  | nil => simp [retainFirst]
  | cons head edges ih =>
    rw [retainFirst]
    split
    · exact ih seen
    · rw [List.map_cons, List.nodup_cons]
      refine ⟨fun again => ?_, ih _⟩
      obtain ⟨edge, member, same⟩ := List.mem_map.mp again
      exact (mem_of_mem_retainFirst member).2 (by simp [same])

theorem exists_mem_retainFirst {seen : List Uuid} {edges : List Edge} {edge : Edge}
    (member : edge ∈ edges) (new : edge.id ∉ seen) :
    ∃ kept ∈ retainFirst seen edges, kept.id = edge.id := by
  induction edges generalizing seen with
  | nil => simp at member
  | cons head edges ih =>
    rw [retainFirst]
    split
    · rename_i old
      rcases List.mem_cons.mp member with rfl | among
      · exact absurd old new
      · exact ih among new
    · rcases eq_or_ne edge.id head.id with same | different
      · exact ⟨head, List.mem_cons_self, same.symm⟩
      · rcases List.mem_cons.mp member with rfl | among
        · exact absurd rfl different
        · have newer : edge.id ∉ seen ++ [head.id] := by
            simp [new, different]
          obtain ⟨kept, here, same⟩ := ih among newer
          exact ⟨kept, List.mem_cons_of_mem _ here, same⟩

/-! ## Its order -/

section Order

variable (store : GraphStore) (userId : Option Uuid) (validOnly : Bool)

/-- Where the edges at an entity lead. -/
def neighborIds (entityId : Uuid) : List Uuid :=
  (store.filteredOut userId validOnly entityId).map Edge.targetEntityId ++
    (store.filteredIn userId validOnly entityId).map Edge.sourceEntityId

/-- The entity that is visited under an identifier. -/
def entityAt (entityId : Uuid) : Option Entity :=
  match store.getEntity entityId with
  | .error _ => none
  | .ok entity => if userOwns userId entity = false then none else some entity

/-- What is queued when an entity is visited. -/
def nextIds (entityId : Uuid) : List Uuid :=
  if (entityAt store userId entityId).isSome then neighborIds store userId validOnly entityId
  else []

/-- The node of a visited entity. -/
def nodeAt (taken : Uuid × Nat) : Option GraphNode :=
  (entityAt store userId taken.1).map fun entity =>
    ⟨entity, store.filteredOut userId validOnly taken.1,
      store.filteredIn userId validOnly taken.1, taken.2⟩

/-- The edges at the entity of a node. -/
def nodeEdges (node : GraphNode) : List Edge := node.outgoing ++ node.incoming

variable {store userId validOnly} {maxDepth maxNodes : Nat}

theorem entityAt_eq_some {entityId : Uuid} {entity : Entity} :
    entityAt store userId entityId = some entity ↔
      store.getEntity entityId = .ok entity ∧ userOwns userId entity = true := by
  unfold entityAt
  cases store.getEntity entityId with
  | error failure => simp
  | ok found =>
    simp only [Except.ok.injEq]
    cases owned : userOwns userId found with
    | false =>
      rw [if_pos rfl]
      constructor
      · exact fun absent => nomatch absent
      · rintro ⟨rfl, same⟩
        exact absurd same (by simp [owned])
    | true =>
      rw [if_neg (by simp), Option.some.injEq]
      constructor
      · rintro rfl
        exact ⟨rfl, owned⟩
      · exact fun same => same.1

theorem visit_eq (entityId : Uuid) (depth : Nat) (state : Traversal) :
    visit store userId maxDepth validOnly entityId depth state =
      { visited := state.visited ++ appended (nextIds store userId validOnly) maxDepth
          state.visited (entityId, depth)
        queue := state.queue ++ (appended (nextIds store userId validOnly) maxDepth
          state.visited (entityId, depth)).map fun neighbor => (neighbor, depth + 1)
        nodes := state.nodes ++ (nodeAt store userId validOnly (entityId, depth)).toList
        edges := state.edges ++
          ((nodeAt store userId validOnly (entityId, depth)).toList).flatMap nodeEdges } := by
  cases known : entityAt store userId entityId with
  | none =>
    have stays : visit store userId maxDepth validOnly entityId depth state = state := by
      unfold entityAt at known
      unfold visit
      split at known <;> simp_all
    simp [stays, appended, expand, nextIds, nodeAt, known]
  | some entity =>
    obtain ⟨stored, owned⟩ := entityAt_eq_some.mp known
    unfold visit
    by_cases less : depth < maxDepth
    · simp [stored, owned, less, appended, expand, nextIds, nodeAt, known, nodeEdges, neighborIds,
        queueNeighbors_eq, fresh_append]
    · simp [stored, owned, less, appended, expand, nodeAt, known, nodeEdges]

theorem filterMap_cons_eq (f : Uuid × Nat → Option GraphNode) (head : Uuid × Nat)
    (rest : List (Uuid × Nat)) :
    (head :: rest).filterMap f = (f head).toList ++ rest.filterMap f := by
  cases image : f head <;> simp [image]

theorem collected_nodes (nodes rest : List GraphNode) (node : Option GraphNode)
    (room : nodes.length < maxNodes) :
    nodes ++ node.toList ++ rest.take (maxNodes - (nodes ++ node.toList).length) =
      nodes ++ (node.toList ++ rest).take (maxNodes - nodes.length) := by
  cases node with
  | none => simp
  | some head =>
    obtain ⟨more, space⟩ : ∃ more, maxNodes - nodes.length = more + 1 :=
      ⟨maxNodes - nodes.length - 1, by omega⟩
    have less : maxNodes - (nodes.length + 1) = more := by
      omega
    simp [space, less]

theorem collected_edges (edges : List Edge) (nodes rest : List GraphNode)
    (node : Option GraphNode) (room : nodes.length < maxNodes) :
    edges ++ node.toList.flatMap nodeEdges ++
        (rest.take (maxNodes - (nodes ++ node.toList).length)).flatMap nodeEdges =
      edges ++ ((node.toList ++ rest).take (maxNodes - nodes.length)).flatMap nodeEdges := by
  have whole := collected_nodes nodes rest node room
  rw [List.append_assoc, List.append_cancel_left_eq] at whole
  rw [← whole, List.flatMap_append, List.append_assoc]

/-- The loop collects the nodes in the order of the search, as many as it may. -/
theorem traverseLoop_of_drains {state : Traversal} {order : List (Uuid × Nat)}
    (drains : Drains (nextIds store userId validOnly) maxDepth state.visited state.queue order)
    {fuel : Nat} (enough : order.length < fuel) :
    ∃ final, traverseLoop store userId maxDepth maxNodes validOnly fuel state = some final ∧
      final.nodes = state.nodes ++ (order.filterMap (nodeAt store userId validOnly)).take
        (maxNodes - state.nodes.length) ∧
      final.edges = state.edges ++ ((order.filterMap (nodeAt store userId validOnly)).take
        (maxNodes - state.nodes.length)).flatMap nodeEdges := by
  induction fuel generalizing state order with
  | zero => omega
  | succ fuel ih =>
    cases queued : state.queue with
    | nil =>
      rw [queued] at drains
      cases drains
      exact ⟨state, by rw [traverseLoop, queued], by simp, by simp⟩
    | cons taken queue =>
      rw [queued] at drains
      obtain ⟨entityId, depth⟩ := taken
      cases drains with
      | cons drained =>
        rename_i rest
        rw [traverseLoop, queued]
        by_cases full : maxNodes ≤ state.nodes.length
        · have none_left : maxNodes - state.nodes.length = 0 := by omega
          exact ⟨{ state with queue }, by simp [full], by simp [none_left],
            by simp [none_left]⟩
        · simp only [if_neg full]
          rw [visit_eq]
          have room : state.nodes.length < maxNodes := by
            omega
          have shorter : rest.length < fuel := by
            rw [List.length_cons] at enough
            omega
          set after : Traversal :=
            { visited := state.visited ++ appended (nextIds store userId validOnly) maxDepth
                state.visited (entityId, depth)
              queue := queue ++ (appended (nextIds store userId validOnly) maxDepth
                state.visited (entityId, depth)).map fun neighbor => (neighbor, depth + 1)
              nodes := state.nodes ++ (nodeAt store userId validOnly (entityId, depth)).toList
              edges := state.edges ++
                ((nodeAt store userId validOnly (entityId, depth)).toList).flatMap nodeEdges }
          have remaining : Drains (nextIds store userId validOnly) maxDepth after.visited
              after.queue rest := drained
          obtain ⟨final, ends, nodes, edges⟩ := ih remaining shorter
          refine ⟨final, ends, ?_, ?_⟩
          · rw [nodes, filterMap_cons_eq]
            exact collected_nodes _ _ _ room
          · rw [edges, filterMap_cons_eq]
            exact collected_edges _ _ _ _ room

end Order

/-! ## What it returns -/

/-- A subgraph holds what is nearest to the seed, with the distances. -/
structure Surrounds (store : GraphStore) (userId : Option Uuid) (seedEntityId : Uuid)
    (maxDepth maxNodes : Nat) (validOnly : Bool) (result : Subgraph) : Prop where
  distinct : (result.nodes.map fun node => node.entity.id).Nodup
  present : ∀ node ∈ result.nodes, store.Present userId node.entity
  outgoing : ∀ node ∈ result.nodes,
    node.outgoing = store.filteredOut userId validOnly node.entity.id
  incoming : ∀ node ∈ result.nodes,
    node.incoming = store.filteredIn userId validOnly node.entity.id
  depth : ∀ node ∈ result.nodes,
    (store.graph userId validOnly).edist seedEntityId node.entity.id = node.depth
  within : ∀ node ∈ result.nodes, node.depth ≤ maxDepth
  limited : result.nodes.length ≤ maxNodes
  complete : result.nodes.length < maxNodes → ∀ entity, store.Present userId entity →
    (store.graph userId validOnly).edist seedEntityId entity.id ≤ maxDepth →
    ∃ node ∈ result.nodes, node.entity = entity
  nearest : ∀ node ∈ result.nodes, ∀ entity, store.Present userId entity →
    (∀ other ∈ result.nodes, other.entity ≠ entity) →
    node.depth ≤ (store.graph userId validOnly).edist seedEntityId entity.id
  edges_distinct : (result.edges.map Edge.id).Nodup
  edges_union : ∀ edge, edge ∈ result.edges ↔
    ∃ node ∈ result.nodes, edge ∈ node.outgoing ∨ edge ∈ node.incoming

section Result

variable {store : GraphStore} {userId : Option Uuid} {validOnly : Bool}
variable {seedEntityId : Uuid} {maxDepth maxNodes : Nat}

/-- The nodes within the depth, in the order of the search. -/
def reachedNodes (store : GraphStore) (userId : Option Uuid) (validOnly : Bool)
    (seedEntityId : Uuid) (maxDepth : Nat) : List GraphNode :=
  (order (nextIds store userId validOnly) seedEntityId maxDepth).filterMap
    (nodeAt store userId validOnly)

theorem nodeAt_eq_some {taken : Uuid × Nat} {node : GraphNode} :
    nodeAt store userId validOnly taken = some node ↔
      entityAt store userId taken.1 = some node.entity ∧
        node.outgoing = store.filteredOut userId validOnly taken.1 ∧
        node.incoming = store.filteredIn userId validOnly taken.1 ∧ node.depth = taken.2 := by
  rw [nodeAt, Option.map_eq_some_iff]
  constructor
  · rintro ⟨entity, known, rfl⟩
    exact ⟨known, rfl, rfl, rfl⟩
  · rintro ⟨known, out, into, depth⟩
    exact ⟨node.entity, known, by rw [← out, ← into, ← depth]⟩

theorem present_of_entityAt {entityId : Uuid} {entity : Entity}
    (known : entityAt store userId entityId = some entity) :
    entity.id = entityId ∧ store.Present userId entity := by
  obtain ⟨stored, owned⟩ := entityAt_eq_some.mp known
  obtain rfl := store.entity_id _ _ stored
  exact ⟨rfl, stored, owned⟩

theorem entityAt_of_present {entity : Entity} (present : store.Present userId entity) :
    entityAt store userId entity.id = some entity :=
  entityAt_eq_some.mpr present

section TwoSided

variable (consistent : store.TwoSided)

include consistent

theorem mem_neighborIds {vertex neighbor : Uuid} :
    neighbor ∈ neighborIds store userId validOnly vertex ↔
      ∃ edge ∈ store.outgoing edge.sourceEntityId, admits userId validOnly edge = true ∧
        GraphStore.Joins edge vertex neighbor := by
  constructor
  · intro member
    rcases List.mem_append.mp member with forward | backward
    · obtain ⟨edge, listed, rfl⟩ := List.mem_map.mp forward
      obtain ⟨stored, admitted⟩ := List.mem_filter.mp listed
      have source := GraphStore.outgoing_source stored
      exact ⟨edge, by rw [source]; exact stored, admitted, .inl ⟨source, rfl⟩⟩
    · obtain ⟨edge, listed, rfl⟩ := List.mem_map.mp backward
      obtain ⟨stored, admitted⟩ := List.mem_filter.mp listed
      have target := GraphStore.incoming_target stored
      exact ⟨edge, consistent.incoming_outgoing _ _ stored, admitted, .inr ⟨rfl, target⟩⟩
  · rintro ⟨edge, stored, admitted, ⟨source, rfl⟩ | ⟨rfl, target⟩⟩
    · rw [source] at stored
      apply List.mem_append_left
      exact List.mem_map.mpr ⟨edge, List.mem_filter.mpr ⟨stored, admitted⟩, rfl⟩
    · have listed := consistent.outgoing_incoming _ _ stored
      rw [target] at listed
      apply List.mem_append_right
      exact List.mem_map.mpr ⟨edge, List.mem_filter.mpr ⟨listed, admitted⟩, rfl⟩

theorem nextIds_adj {vertex neighbor : Uuid}
    (here : ∃ entity, entity.id = vertex ∧ store.Present userId entity)
    (there : ∃ entity, entity.id = neighbor ∧ store.Present userId entity)
    (different : vertex ≠ neighbor)
    (member : neighbor ∈ nextIds store userId validOnly vertex) :
    (store.graph userId validOnly).Adj vertex neighbor := by
  refine ⟨different, here, there, ?_⟩
  unfold nextIds at member
  split at member
  · exact (mem_neighborIds consistent).mp member
  · simp at member

theorem mem_nextIds_of_adj {vertex neighbor : Uuid}
    (adjacent : (store.graph userId validOnly).Adj vertex neighbor) :
    neighbor ∈ nextIds store userId validOnly vertex := by
  obtain ⟨_, ⟨entity, rfl, present⟩, _, edge⟩ := adjacent
  rw [nextIds, if_pos (by rw [entityAt_of_present present]; rfl)]
  exact (mem_neighborIds consistent).mpr edge

theorem mem_layer_nextIds {entity : Entity} (present : store.Present userId entity) {depth : Nat} :
    entity.id ∈ layer (nextIds store userId validOnly) seedEntityId depth ↔
      (store.graph userId validOnly).edist seedEntityId entity.id = depth := by
  apply mem_layer_iff_edist fun id => ∃ entity, entity.id = id ∧ store.Present userId entity
  · intro vertex missing
    rw [nextIds, if_neg]
    intro known
    obtain ⟨found, here⟩ := Option.isSome_iff_exists.mp known
    obtain ⟨same, there⟩ := present_of_entityAt here
    exact missing ⟨found, same, there⟩
  · intro vertex neighbor here there different member
    exact nextIds_adj consistent here there different member
  · intro vertex neighbor adjacent
    exact mem_nextIds_of_adj consistent adjacent
  · exact ⟨entity, rfl, present⟩

theorem mem_reachedNodes {node : GraphNode} :
    node ∈ reachedNodes store userId validOnly seedEntityId maxDepth ↔
      store.Present userId node.entity ∧
      node.outgoing = store.filteredOut userId validOnly node.entity.id ∧
      node.incoming = store.filteredIn userId validOnly node.entity.id ∧
      (store.graph userId validOnly).edist seedEntityId node.entity.id = node.depth ∧
      node.depth ≤ maxDepth := by
  rw [reachedNodes, List.mem_filterMap]
  constructor
  · rintro ⟨⟨entityId, depth⟩, taken, collected⟩
    obtain ⟨known, out, into, rfl⟩ := nodeAt_eq_some.mp collected
    obtain ⟨rfl, present⟩ := present_of_entityAt known
    obtain ⟨near, met⟩ := mem_order.mp taken
    exact ⟨present, out, into, (mem_layer_nextIds consistent present).mp met, near⟩
  · rintro ⟨present, out, into, distance, near⟩
    refine ⟨(node.entity.id, node.depth), mem_order.mpr ⟨near, ?_⟩, nodeAt_eq_some.mpr ?_⟩
    · exact (mem_layer_nextIds consistent present).mpr distance
    · exact ⟨entityAt_of_present present, out, into, rfl⟩

end TwoSided

theorem sublist_ids (taken : List (Uuid × Nat)) :
    List.Sublist ((taken.filterMap (nodeAt store userId validOnly)).map fun node => node.entity.id)
      (taken.map Prod.fst) := by
  induction taken with
  | nil => exact List.Sublist.refl _
  | cons head taken ih =>
    cases collected : nodeAt store userId validOnly head with
    | none =>
      rw [List.filterMap_cons_none collected, List.map_cons]
      exact ih.cons _
    | some node =>
      have known := (nodeAt_eq_some.mp collected).1
      rw [List.filterMap_cons_some collected, List.map_cons, List.map_cons,
        (present_of_entityAt known).1]
      exact ih.cons_cons _

theorem nodup_reachedNodes :
    ((reachedNodes store userId validOnly seedEntityId maxDepth).map
      fun node => node.entity.id).Nodup := by
  apply (sublist_ids _).nodup
  rw [map_order]
  exact nodup_upTo maxDepth

theorem pairwise_reachedNodes :
    (reachedNodes store userId validOnly seedEntityId maxDepth).Pairwise
      fun first second => first.depth ≤ second.depth := by
  apply List.Pairwise.filterMap _ _ (pairwise_order maxDepth)
  intro first second le node collected other also
  rw [(nodeAt_eq_some.mp collected).2.2.2, (nodeAt_eq_some.mp also).2.2.2]
  exact le

variable (consistent : store.Consistent)

include consistent

theorem exists_reachedNode {entity : Entity} (present : store.Present userId entity)
    (near : (store.graph userId validOnly).edist seedEntityId entity.id ≤ maxDepth) :
    ∃ node ∈ reachedNodes store userId validOnly seedEntityId maxDepth, node.entity = entity := by
  obtain ⟨depth, distance⟩ := ENat.ne_top_iff_exists.mp
    (ne_top_of_le_ne_top (ENat.natCast_ne_top maxDepth) near)
  refine ⟨⟨entity, store.filteredOut userId validOnly entity.id,
    store.filteredIn userId validOnly entity.id, depth⟩, ?_, rfl⟩
  rw [← distance] at near
  exact (mem_reachedNodes consistent.toTwoSided).mpr
    ⟨present, rfl, rfl, distance.symm, by exact_mod_cast near⟩

theorem stored_of_mem_nodeEdges {node : GraphNode} {edge : Edge}
    (reached : node ∈ reachedNodes store userId validOnly seedEntityId maxDepth)
    (member : edge ∈ nodeEdges node) : edge ∈ store.outgoing edge.sourceEntityId := by
  obtain ⟨_, out, into, _⟩ := (mem_reachedNodes consistent.toTwoSided).mp reached
  rcases List.mem_append.mp member with forward | backward
  · rw [out] at forward
    have stored := (List.mem_filter.mp forward).1
    rw [GraphStore.outgoing_source stored]
    exact stored
  · rw [into] at backward
    exact consistent.incoming_outgoing _ _ (List.mem_filter.mp backward).1

/-- The traversal ends, and collects what is nearest to the seed. -/
theorem traverse_surrounds : ∃ enough, ∀ fuel ≥ enough, ∃ result,
    traverseBfsForUser store userId maxDepth maxNodes validOnly fuel seedEntityId = some result ∧
      Surrounds store userId seedEntityId maxDepth maxNodes validOnly result := by
  refine ⟨(order (nextIds store userId validOnly) seedEntityId maxDepth).length + 1,
    fun fuel enough => ?_⟩
  have begins : Drains (nextIds store userId validOnly) maxDepth [seedEntityId]
      [(seedEntityId, 0)] (order (nextIds store userId validOnly) seedEntityId maxDepth) :=
    drains_order maxDepth
  obtain ⟨final, ends, nodes, edges⟩ := @traverseLoop_of_drains store userId validOnly maxDepth
    maxNodes ⟨[seedEntityId], [(seedEntityId, 0)], [], []⟩ _ begins fuel enough
  have taken : final.nodes =
      (reachedNodes store userId validOnly seedEntityId maxDepth).take maxNodes := nodes
  have gathered : final.edges = final.nodes.flatMap nodeEdges := by
    rw [nodes, edges]
    rfl
  have reached : ∀ node ∈ final.nodes,
      node ∈ reachedNodes store userId validOnly seedEntityId maxDepth := by
    intro node member
    rw [taken] at member
    exact List.mem_of_mem_take member
  refine ⟨_, by rw [traverseBfsForUser, ends, Option.map_some], ?_⟩
  constructor
  case distinct =>
    rw [taken, List.map_take]
    exact (List.take_sublist _ _).nodup (nodup_reachedNodes)
  case present => exact fun node member => ((mem_reachedNodes consistent.toTwoSided).mp (reached _ member)).1
  case outgoing =>
    exact fun node member => ((mem_reachedNodes consistent.toTwoSided).mp (reached _ member)).2.1
  case incoming =>
    exact fun node member => ((mem_reachedNodes consistent.toTwoSided).mp (reached _ member)).2.2.1
  case depth =>
    exact fun node member => ((mem_reachedNodes consistent.toTwoSided).mp (reached _ member)).2.2.2.1
  case within =>
    exact fun node member => ((mem_reachedNodes consistent.toTwoSided).mp (reached _ member)).2.2.2.2
  case limited =>
    rw [taken]
    exact List.length_take_le _ _
  case complete =>
    intro fewer entity present near
    obtain ⟨node, member, same⟩ := exists_reachedNode consistent present near
    refine ⟨node, ?_, same⟩
    rw [taken, List.length_take] at fewer
    rw [taken, List.take_of_length_le (by omega)]
    exact member
  case nearest =>
    intro node member entity present omitted
    by_cases near : (store.graph userId validOnly).edist seedEntityId entity.id ≤ maxDepth
    · obtain ⟨other, found, rfl⟩ := exists_reachedNode consistent present near
      have ordered := @pairwise_reachedNodes store userId validOnly seedEntityId maxDepth
      rw [← List.take_append_drop maxNodes (reachedNodes store userId validOnly seedEntityId
        maxDepth)] at found ordered
      rw [taken] at member omitted
      rcases List.mem_append.mp found with early | late
      · exact absurd rfl (omitted other early)
      · have le := (List.pairwise_append.mp ordered).2.2 node member other late
        have distance := ((mem_reachedNodes consistent.toTwoSided).mp (List.mem_of_mem_drop late)).2.2.2.1
        rw [distance]
        exact_mod_cast le
    · have shallow := ((mem_reachedNodes consistent.toTwoSided).mp (reached _ member)).2.2.2.2
      exact le_trans (by exact_mod_cast shallow) (not_le.mp near).le
  case edges_distinct => exact nodup_retainFirst [] _
  case edges_union =>
    intro edge
    have gathers : edge ∈ final.edges ↔
        ∃ node ∈ final.nodes, edge ∈ node.outgoing ∨ edge ∈ node.incoming := by
      rw [gathered, List.mem_flatMap]
      simp only [nodeEdges, List.mem_append]
    rw [← gathers]
    constructor
    · exact fun kept => (mem_of_mem_retainFirst kept).1
    · intro member
      have unseen : edge.id ∉ ([] : List Uuid) := List.not_mem_nil
      obtain ⟨kept, here, same⟩ := exists_mem_retainFirst member unseen
      have also := (mem_of_mem_retainFirst here).1
      rw [gathered] at member also
      obtain ⟨node, listed, at_node⟩ := List.mem_flatMap.mp member
      obtain ⟨other, also_listed, at_other⟩ := List.mem_flatMap.mp also
      have equal := consistent.edge_id _ _ _
        (stored_of_mem_nodeEdges consistent (reached _ also_listed) at_other) _
        (stored_of_mem_nodeEdges consistent (reached _ listed) at_node) same
      rwa [equal] at here

end Result

/-- Three entities in a circle, with one edge twice. -/
def circle : GraphStore :=
  .ofRecords [conceptOf 7 1, conceptOf 7 2, conceptOf 7 3]
    [linkOf 7 11 1 2, linkOf 7 12 2 3, linkOf 7 13 3 1, linkOf 7 14 1 2]

theorem traverse_surrounds_circle : ∃ enough, ∀ fuel ≥ enough, ∃ result,
    traverseBfsForUser circle (some 7) 1 2 true fuel 1 = some result ∧
      Surrounds circle (some 7) 1 1 2 true result :=
  traverse_surrounds (GraphStore.consistent_ofRecords (by decide))

end Graph
end Mnemo
