import Mathlib.Combinatorics.SimpleGraph.Connectivity.Connected
import Mnemo.Graph.Traversal
import Mnemo.Lib.AssocMap
import Mnemo.Lib.Sequential
import Mnemo.Memory.GraphStore

/-!
# Communities

Every entity of a user begins with a label of its own and takes, round after round, the label that
most of its neighbours have.  Which of several labels with equal counts it takes depends on the
order in which a hash map is walked.
-/

namespace Mnemo
namespace Graph

open Memory
open Database (exec ReadsAs Faulty)
open SortedSet (memberOf)

/-! ## The edges of a user -/

/-- Which edges of a user are asked for. -/
structure EdgeFilter where
  sourceEntityId : Option Uuid
  targetEntityId : Option Uuid
  label : Option String
  validAtTime : Option DateTime
  includeInvalidated : Bool
  maxClassification : Option Classification
  limit : Nat

/-- Whether an edge passes a filter. -/
def EdgeFilter.accepts (filter : EdgeFilter) (edge : Edge) : Bool :=
  filter.sourceEntityId.all (fun src => edge.sourceEntityId == src) &&
    filter.targetEntityId.all (fun tgt => edge.targetEntityId == tgt) &&
    filter.label.all (fun label => edge.label == label) &&
    filter.validAtTime.all (fun time => edge.isValidAt time) &&
    (filter.includeInvalidated || edge.isValid) &&
    filter.maxClassification.all fun max => decide (edge.classification ≤ max)

/-- The newest edges of a user that pass a filter, among three times as many candidates. -/
def queryEdges (userId : Uuid) (filter : EdgeFilter) : MemoryProgram (List Edge) := do
  let fetchLimit := min (filter.limit * 3) (2 ^ 32 - 1)
  let candidates ← listFromZset (.userEdges userId) readEdge fetchLimit none
  return (candidates.filter filter.accepts).take filter.limit

/-! ## Label propagation -/

/-- The label of every entity. -/
abbrev Labels : Type := AList fun _ : Uuid => Uuid

/-- The neighbours of every entity, once for each edge. -/
abbrev Adjacency : Type := AList fun _ : Uuid => List Uuid

/-- How often each label occurs. -/
abbrev LabelCounts : Type := AList fun _ : Uuid => Nat

/-- The order in which the counts are walked, in each round and at each entity. -/
structure WalkOrder where
  arrange : Nat → Nat → List (Sigma fun _ : Uuid => Nat) → List (Sigma fun _ : Uuid => Nat)
  perm : ∀ round position counts, (arrange round position counts).Perm counts

/-- Enter a neighbour of an entity. -/
def pushNeighbor (adjacency : Adjacency) (entityId neighborId : Uuid) : Adjacency :=
  adjacency.insert entityId (AssocMap.valueD [] adjacency entityId ++ [neighborId])

/-- The neighbours along edges, in both directions. -/
def adjacencyOf (edges : List Edge) : Adjacency :=
  edges.foldl (fun adjacency edge =>
    pushNeighbor (pushNeighbor adjacency edge.sourceEntityId edge.targetEntityId)
      edge.targetEntityId edge.sourceEntityId) ∅

/-- Count the labels of neighbours; those without a label do not count. -/
def countLabels (labels : Labels) (neighbors : List Uuid) : LabelCounts :=
  neighbors.foldl (fun counts neighborId =>
    match labels.lookup neighborId with
    | some label => counts.insert label (AssocMap.valueD 0 counts label + 1)
    | none => counts) ∅

/-- The last entry with the greatest count. -/
def maxByCount (counts : List (Sigma fun _ : Uuid => Nat)) :
    Option (Sigma fun _ : Uuid => Nat) :=
  counts.foldl (fun best entry =>
    match best with
    | none => some entry
    | some greatest => if greatest.2 ≤ entry.2 then some entry else some greatest) none

section Propagate

variable (order : WalkOrder) (entities : List Entity) (adjacency : Adjacency)

/-- Give an entity the label that most of its neighbours have. -/
def relabel (round position : Nat) (entity : Entity) (state : Labels × Bool) : Labels × Bool :=
  match adjacency.lookup entity.id with
  | none => state
  | some neighbors =>
      match maxByCount (order.arrange round position
          (countLabels state.1 neighbors).entries) with
      | none => state
      | some best =>
          if state.1.lookup entity.id = some best.1 then state
          else (state.1.insert entity.id best.1, true)

/-- One round over the entities, and whether a label has changed. -/
def relabelAll (round : Nat) : Nat → List Entity → Labels × Bool → Labels × Bool
  | _, [], state => state
  | position, entity :: rest, state =>
      relabelAll round (position + 1) rest (relabel order adjacency round position entity state)

/-- Rounds until no label changes, or the bound is reached. -/
def propagate : Nat → Nat → Labels → Labels
  | 0, _, labels => labels
  | left + 1, round, labels =>
      let (next, changed) := relabelAll order adjacency round 0 entities (labels, false)
      if changed then propagate left (round + 1) next else next

end Propagate

/-- The label of every entity is its own identifier. -/
def initialLabels (entities : List Entity) : Labels :=
  entities.foldl (fun labels entity => labels.insert entity.id entity.id) ∅

/-- The greatest number of entities that are loaded. -/
def communityEntityLimit : Nat := 10000

/-- The edges from which communities are built. -/
def currentEdges : EdgeFilter :=
  { sourceEntityId := none, targetEntityId := none, label := none, validAtTime := none
    includeInvalidated := false, maxClassification := none, limit := 100000 }

/-- Detect the communities of a user. -/
def detectCommunities (order : WalkOrder) (userId : Uuid) (maxIterations : Nat) :
    MemoryProgram Labels := do
  let entities ← listEntities userId communityEntityLimit none
  if entities.isEmpty then return ∅
  else do
    let answer ← (queryEdges userId currentEdges).attempt
    let allEdges := answer.toOption.getD []
    return propagate order entities (adjacencyOf allEdges) maxIterations 0 (initialLabels entities)

/-! ## Where labels come from -/

theorem mem_pushNeighbor {adjacency : Adjacency} {id entityId neighborId neighbor : Uuid}
    (member : neighbor ∈ AssocMap.valueD [] (pushNeighbor adjacency entityId neighborId) id) :
    id = entityId ∧ neighbor = neighborId ∨ neighbor ∈ AssocMap.valueD [] adjacency id := by
  rw [pushNeighbor, AssocMap.valueD_insert] at member
  by_cases same : id = entityId
  · subst same
    rw [if_pos rfl] at member
    rcases List.mem_append.mp member with old | new
    · exact .inr old
    · exact .inl ⟨rfl, List.mem_singleton.mp new⟩
  · rw [if_neg same] at member
    exact .inr member

theorem exists_edge_of_neighbor {edges : List Edge} {id neighbor : Uuid}
    (member : neighbor ∈ AssocMap.valueD [] (adjacencyOf edges) id) :
    ∃ edge ∈ edges, GraphStore.Joins edge id neighbor := by
  have grown : ∀ adjacency : Adjacency,
      neighbor ∈ AssocMap.valueD [] (edges.foldl (fun adjacency edge =>
        pushNeighbor (pushNeighbor adjacency edge.sourceEntityId edge.targetEntityId)
          edge.targetEntityId edge.sourceEntityId) adjacency) id →
      neighbor ∈ AssocMap.valueD [] adjacency id ∨ ∃ edge ∈ edges, GraphStore.Joins edge id neighbor := by
    clear member
    induction edges with
    | nil => exact fun adjacency member => .inl member
    | cons edge edges ih =>
      intro adjacency member
      rcases ih _ member with before | ⟨other, listed, joins⟩
      · rcases mem_pushNeighbor before with ⟨target, source⟩ | before
        · exact .inr ⟨edge, List.mem_cons_self, .inr ⟨source.symm, target.symm⟩⟩
        · rcases mem_pushNeighbor before with ⟨source, target⟩ | before
          · exact .inr ⟨edge, List.mem_cons_self, .inl ⟨source.symm, target.symm⟩⟩
          · exact .inl before
      · exact .inr ⟨other, List.mem_cons_of_mem _ listed, joins⟩
  rcases grown ∅ member with absent | found
  · simp at absent
  · exact found

theorem exists_neighbor_of_counted {labels : Labels} {neighbors : List Uuid} {label : Uuid}
    (counted : label ∈ countLabels labels neighbors) :
    ∃ neighbor ∈ neighbors, labels.lookup neighbor = some label := by
  have grown : ∀ counts : LabelCounts,
      label ∈ neighbors.foldl (fun counts neighborId =>
        match labels.lookup neighborId with
        | some label => counts.insert label (AssocMap.valueD 0 counts label + 1)
        | none => counts) counts →
      label ∈ counts ∨ ∃ neighbor ∈ neighbors, labels.lookup neighbor = some label := by
    clear counted
    induction neighbors with
    | nil => exact fun counts member => .inl member
    | cons neighbor neighbors ih =>
      intro counts member
      rcases ih _ member with before | ⟨other, listed, same⟩
      · cases found : labels.lookup neighbor with
        | none =>
          simp only [found] at before
          exact .inl before
        | some own =>
          simp only [found] at before
          rcases (AList.mem_insert _).mp before with rfl | before
          · exact .inr ⟨neighbor, List.mem_cons_self, found⟩
          · exact .inl before
      · exact .inr ⟨other, List.mem_cons_of_mem _ listed, same⟩
  rcases grown ∅ counted with absent | found
  · exact absurd absent (AList.notMem_empty label)
  · exact found

theorem mem_of_maxByCount {counts : List (Sigma fun _ : Uuid => Nat)}
    {best : Sigma fun _ : Uuid => Nat} (greatest : maxByCount counts = some best) :
    best ∈ counts := by
  have grown : ∀ first : Option (Sigma fun _ : Uuid => Nat),
      counts.foldl (fun best entry =>
        match best with
        | none => some entry
        | some greatest => if greatest.2 ≤ entry.2 then some entry else some greatest) first =
        some best → first = some best ∨ best ∈ counts := by
    clear greatest
    induction counts with
    | nil => exact fun first same => .inl same
    | cons entry counts ih =>
      intro first same
      rcases ih _ same with here | later
      · cases first with
        | none =>
          obtain rfl := Option.some.inj here
          exact .inr List.mem_cons_self
        | some greatest =>
          simp only at here
          split at here
          · obtain rfl := Option.some.inj here
            exact .inr List.mem_cons_self
          · exact .inl here
      · exact .inr (List.mem_cons_of_mem _ later)
  exact (grown none greatest).resolve_left nofun

theorem lookup_initialLabels {entities : List Entity} {id label : Uuid} :
    (initialLabels entities).lookup id = some label ↔
      label = id ∧ ∃ entity ∈ entities, entity.id = id := by
  have grown : ∀ labels : Labels, (∀ label, labels.lookup id = some label → label = id) →
      ((entities.foldl (fun labels entity => labels.insert entity.id entity.id) labels).lookup
        id = some label ↔
      label = id ∧ (labels.lookup id = some id ∨ ∃ entity ∈ entities, entity.id = id)) := by
    induction entities with
    | nil =>
      intro labels own
      simp only [List.foldl_nil, List.not_mem_nil, false_and, exists_false, or_false]
      constructor
      · intro found
        obtain rfl := own label found
        exact ⟨rfl, found⟩
      · rintro ⟨rfl, found⟩
        exact found
    | cons entity entities ih =>
      intro labels own
      rw [List.foldl_cons, ih]
      · simp only [List.mem_cons, exists_eq_or_imp]
        rcases eq_or_ne id entity.id with rfl | different
        · simp
        · rw [AList.lookup_insert_ne different]
          simp [different.symm]
      · intro other found
        rcases eq_or_ne id entity.id with rfl | different
        · rw [AList.lookup_insert] at found
          exact (Option.some.inj found).symm
        · rw [AList.lookup_insert_ne different] at found
          exact own other found
  rw [initialLabels, grown ∅ (by simp)]
  simp

/-! ## Labels stay in their component -/

/-- Every entity has a label, which is an entity that the graph connects with it. -/
structure Stable (graph : SimpleGraph Uuid) (entities : List Entity) (labels : Labels) :
    Prop where
  labelled : ∀ id, id ∈ labels ↔ ∃ entity ∈ entities, entity.id = id
  listed : ∀ id label, labels.lookup id = some label → ∃ entity ∈ entities, entity.id = label
  connected : ∀ id label, labels.lookup id = some label → graph.Reachable id label

section Stable

variable {graph : SimpleGraph Uuid} {entities : List Entity} {order : WalkOrder}
variable {adjacency : Adjacency}

theorem stable_initialLabels : Stable graph entities (initialLabels entities) where
  labelled id := by
    rw [← AList.lookup_isSome, Option.isSome_iff_exists]
    simp only [lookup_initialLabels]
    constructor
    · rintro ⟨label, rfl, found⟩
      exact found
    · exact fun found => ⟨id, rfl, found⟩
  listed id label found := by
    obtain ⟨rfl, entity⟩ := lookup_initialLabels.mp found
    exact entity
  connected id label found := by
    obtain ⟨rfl, _⟩ := lookup_initialLabels.mp found
    exact SimpleGraph.Reachable.refl _

theorem Stable.insert {labels : Labels} {id neighbor label : Uuid}
    (stable : Stable graph entities labels) (entity : ∃ entity ∈ entities, entity.id = id)
    (reachable : graph.Reachable id neighbor) (found : labels.lookup neighbor = some label) :
    Stable graph entities (labels.insert id label) where
  labelled other := by
    rw [AList.mem_insert, stable.labelled]
    constructor
    · rintro (rfl | listed)
      · exact entity
      · exact listed
    · exact .inr
  listed other given looked := by
    rcases eq_or_ne other id with rfl | different
    · rw [AList.lookup_insert] at looked
      obtain rfl := Option.some.inj looked
      exact stable.listed neighbor label found
    · rw [AList.lookup_insert_ne different] at looked
      exact stable.listed other given looked
  connected other given looked := by
    rcases eq_or_ne other id with rfl | different
    · rw [AList.lookup_insert] at looked
      obtain rfl := Option.some.inj looked
      exact reachable.trans (stable.connected neighbor label found)
    · rw [AList.lookup_insert_ne different] at looked
      exact stable.connected other given looked

/-- Neighbours that are entities are connected by the graph. -/
def Follows (graph : SimpleGraph Uuid) (entities : List Entity) (adjacency : Adjacency) : Prop :=
  ∀ id neighbor, neighbor ∈ AssocMap.valueD [] adjacency id →
    (∃ entity ∈ entities, entity.id = id) → (∃ entity ∈ entities, entity.id = neighbor) →
    graph.Reachable id neighbor

variable (order) (follows : Follows graph entities adjacency)

include follows

theorem stable_relabel (round position : Nat) {entity : Entity} (member : entity ∈ entities)
    {state : Labels × Bool} (stable : Stable graph entities state.1) :
    Stable graph entities (relabel order adjacency round position entity state).1 := by
  unfold relabel
  cases near : adjacency.lookup entity.id with
  | none => exact stable
  | some neighbors =>
    cases greatest : maxByCount (order.arrange round position
        (countLabels state.1 neighbors).entries) with
    | none => simpa only [greatest] using stable
    | some best =>
      simp only [greatest]
      split
      · exact stable
      · have arranged := mem_of_maxByCount greatest
        have counted : best ∈ (countLabels state.1 neighbors).entries :=
          (order.perm round position _).mem_iff.mp arranged
        have label : best.1 ∈ countLabels state.1 neighbors :=
          List.mem_keys_of_mem counted
        obtain ⟨neighbor, among, found⟩ := exists_neighbor_of_counted label
        have here : neighbor ∈ AssocMap.valueD [] adjacency entity.id := by
          rw [AssocMap.valueD, near]
          exact among
        have there : ∃ entity ∈ entities, entity.id = neighbor := by
          rw [← stable.labelled, ← AList.lookup_isSome, found]
          rfl
        exact stable.insert ⟨entity, member, rfl⟩
          (follows _ _ here ⟨entity, member, rfl⟩ there) found

theorem stable_relabelAll (round position : Nat) {rest : List Entity} (subset : rest ⊆ entities)
    {state : Labels × Bool} (stable : Stable graph entities state.1) :
    Stable graph entities (relabelAll order adjacency round position rest state).1 := by
  induction rest generalizing position state with
  | nil => exact stable
  | cons entity rest ih =>
    rw [relabelAll]
    have next := stable_relabel order follows round position (subset List.mem_cons_self)
      stable
    exact ih (position + 1) (List.Subset.trans (List.subset_cons_self _ _) subset) next

theorem stable_propagate (left round : Nat) {labels : Labels}
    (stable : Stable graph entities labels) :
    Stable graph entities (propagate order entities adjacency left round labels) := by
  induction left generalizing round labels with
  | zero => exact stable
  | succ left ih =>
    have begins : Stable graph entities ((labels, false) : Labels × Bool).1 := stable
    have next := stable_relabelAll order follows round 0 (List.Subset.refl entities) begins
    rw [propagate]
    simp only
    split
    · exact ih (round + 1) next
    · exact next

end Stable

/-! ## Reading the graph -/

section Reading

variable {Item : Type} {read : Uuid → MemoryProgram (Option Item)} {stored : Uuid → Option Item}
variable {allowed : MemoryInput → Prop} {contents : MemoryContents}

/-- The programs that read, in any environment. -/
abbrev Reads (allowed : MemoryInput → Prop) {α : Type} (value : α) (program : MemoryProgram α)
    (contents : MemoryContents) : Prop :=
  ReadsAs allowed (fun _ _ => True) value program contents

theorem reads_getAll (reads : ∀ id, Reads allowed (stored id) (read id) contents)
    (ids : List Uuid) : Reads allowed (ids.filterMap stored) (getAll read ids) contents := by
  induction ids with
  | nil => exact .done []
  | cons id ids ih =>
    have split : (id :: ids).filterMap stored =
        (stored id).toList ++ ids.filterMap stored := by
      cases found : stored id <;> simp [found]
    rw [split]
    exact (reads id).andThen (ih.andThen (.done _))

/-- The identifiers of the highest entries of an index. -/
def newestIds (contents : MemoryContents) (index : MemoryIndex) (limit : Nat) : List Uuid :=
  ((contents.sets index).entries.reverse.take limit).map memberOf

theorem reads_newest (reads : ∀ id, Reads allowed (stored id) (read id) contents)
    (index : MemoryIndex) {limit : Nat} (positive : 0 < limit) :
    Reads allowed ((newestIds contents index limit).filterMap stored)
      (listFromZset index read limit none) contents := by
  have ids : Reads allowed (newestIds contents index limit) (pageIds index limit none)
      contents := by
    rw [newestIds, ← SortedSet.revRange_first _ positive]
    exact Database.readsAs_zrevrange index 0 ((limit : Int) - 1) trivial
  exact ids.andThen (reads_getAll reads _)

/-- An entity of a user: it is indexed, and its document is stored. -/
def UserEntity (contents : MemoryContents) (userId id : Uuid) : Prop :=
  ∃ listed ∈ (contents.sets (.userEntities userId)).members,
    ∃ entity : Entity, contents.docs (.entity listed) = some entity ∧ entity.id = id

/-- An entity that is loaded: its index entry is among the newest. -/
def LoadedEntity (contents : MemoryContents) (userId id : Uuid) : Prop :=
  ∃ listed ∈ newestIds contents (.userEntities userId) communityEntityLimit,
    ∃ entity : Entity, contents.docs (.entity listed) = some entity ∧ entity.id = id

/-- The graph of the valid edges between the entities of a user. -/
def validGraph (contents : MemoryContents) (userId : Uuid) : SimpleGraph Uuid where
  Adj one other := one ≠ other ∧ UserEntity contents userId one ∧
    UserEntity contents userId other ∧
    ∃ listed ∈ (contents.sets (.userEdges userId)).members,
      ∃ edge : Edge, contents.docs (.edge listed) = some edge ∧ edge.isValid = true ∧
        GraphStore.Joins edge one other
  symm := by
    constructor
    rintro one other ⟨different, first, second, listed, member, edge, stored, valid, joins⟩
    exact ⟨different.symm, second, first, listed, member, edge, stored, valid, joins.symm⟩
  loopless := ⟨fun _ adjacent => adjacent.1 rfl⟩

theorem newestIds_subset (contents : MemoryContents) (index : MemoryIndex) (limit : Nat) :
    newestIds contents index limit ⊆ (contents.sets index).members := by
  intro id member
  obtain ⟨entry, taken, rfl⟩ := List.mem_map.mp member
  exact List.mem_map_of_mem (List.mem_reverse.mp (List.mem_of_mem_take taken))

theorem LoadedEntity.userEntity {contents : MemoryContents} {userId id : Uuid}
    (loaded : LoadedEntity contents userId id) : UserEntity contents userId id := by
  obtain ⟨listed, newest, entity⟩ := loaded
  exact ⟨listed, newestIds_subset contents _ _ newest, entity⟩

theorem loadedEntity_iff {contents : MemoryContents} {userId id : Uuid}
    (short : (contents.sets (.userEntities userId)).members.length ≤ communityEntityLimit) :
    LoadedEntity contents userId id ↔ UserEntity contents userId id := by
  refine ⟨LoadedEntity.userEntity, ?_⟩
  rintro ⟨listed, member, entity⟩
  refine ⟨listed, ?_, entity⟩
  obtain ⟨entry, held, rfl⟩ := List.mem_map.mp member
  have fits : (contents.sets (.userEntities userId)).entries.reverse.length ≤
      communityEntityLimit := by
    simpa [SortedSet.members] using short
  rw [newestIds, List.take_of_length_le fits]
  exact List.mem_map_of_mem (List.mem_reverse.mpr held)

theorem follows_validGraph {entities : List Entity} {edges : List Edge} {userId : Uuid}
    (loaded : ∀ entity ∈ entities, UserEntity contents userId entity.id)
    (valid : ∀ edge ∈ edges, edge.isValid = true ∧
      ∃ listed ∈ (contents.sets (.userEdges userId)).members,
        contents.docs (.edge listed) = some edge) :
    Follows (validGraph contents userId) entities (adjacencyOf edges) := by
  rintro id neighbor member ⟨entity, here, rfl⟩ ⟨other, there, rfl⟩
  obtain ⟨edge, queried, joins⟩ := exists_edge_of_neighbor member
  obtain ⟨is_valid, listed, indexed, stored⟩ := valid edge queried
  rcases eq_or_ne entity.id other.id with same | different
  · rw [same]
  · apply SimpleGraph.Adj.reachable
    exact ⟨different, loaded entity here, loaded other there, listed, indexed, edge, stored,
      is_valid, joins⟩

theorem reads_queryEdges (allowed : MemoryInput → Prop) (userId : Uuid) {filter : EdgeFilter}
    (current : filter.includeInvalidated = false) (positive : 0 < filter.limit) :
    ∃ edges, Reads allowed edges (queryEdges userId filter) contents ∧
      ∀ edge ∈ edges, edge.isValid = true ∧
        ∃ listed ∈ (contents.sets (.userEdges userId)).members,
          contents.docs (.edge listed) = some edge := by
  have reads : ∀ id, Reads allowed (contents.docs (.edge id)) (readEdge id) contents :=
    fun id => Database.readsAs_get (MemoryKey.edge id) trivial
  have fetches : 0 < min (filter.limit * 3) (2 ^ 32 - 1) := by
    omega
  refine ⟨_, (reads_newest reads (.userEdges userId) fetches).andThen (.done _), ?_⟩
  intro edge member
  obtain ⟨candidate, accepted⟩ := List.mem_filter.mp (List.mem_of_mem_take member)
  obtain ⟨listed, newest, stored⟩ := List.mem_filterMap.mp candidate
  refine ⟨?_, listed, newestIds_subset contents _ _ newest, stored⟩
  simp only [EdgeFilter.accepts, current, Bool.false_or, Bool.and_eq_true] at accepted
  exact accepted.1.2

/-- Labels for exactly the loaded entities, each from the component of its entity. -/
def Labelled (contents : MemoryContents) (userId : Uuid) (labels : Labels) : Prop :=
  (∀ id, id ∈ labels ↔ LoadedEntity contents userId id) ∧
    ∀ id label, labels.lookup id = some label → LoadedEntity contents userId label ∧
      (validGraph contents userId).Reachable id label

/-- The entities that are loaded. -/
def loadedEntities (contents : MemoryContents) (userId : Uuid) : List Entity :=
  (newestIds contents (.userEntities userId) communityEntityLimit).filterMap
    fun id => contents.docs (.entity id)

theorem exists_loaded_iff {userId id : Uuid} :
    (∃ entity ∈ loadedEntities contents userId, entity.id = id) ↔
      LoadedEntity contents userId id := by
  constructor
  · rintro ⟨entity, member, same⟩
    obtain ⟨listed, newest, stored⟩ := List.mem_filterMap.mp member
    exact ⟨listed, newest, entity, stored, same⟩
  · rintro ⟨listed, newest, entity, stored, same⟩
    exact ⟨entity, List.mem_filterMap.mpr ⟨listed, newest, stored⟩, same⟩

theorem labelled_propagate (order : WalkOrder) (userId : Uuid) (maxIterations : Nat)
    {edges : List Edge}
    (valid : ∀ edge ∈ edges, edge.isValid = true ∧
      ∃ listed ∈ (contents.sets (.userEdges userId)).members,
        contents.docs (.edge listed) = some edge) :
    Labelled contents userId (propagate order (loadedEntities contents userId)
      (adjacencyOf edges) maxIterations 0 (initialLabels (loadedEntities contents userId))) := by
  have follows : Follows (validGraph contents userId) (loadedEntities contents userId)
      (adjacencyOf edges) := by
    refine follows_validGraph (fun entity member => ?_) valid
    exact (exists_loaded_iff.mp ⟨entity, member, rfl⟩).userEntity
  have stable := stable_propagate order follows maxIterations 0 stable_initialLabels
  refine ⟨fun id => (stable.labelled id).trans exists_loaded_iff, fun id label found => ?_⟩
  exact ⟨exists_loaded_iff.mp (stable.listed id label found), stable.connected id label found⟩

/-- Whatever fails, labels that are returned are those of the loaded entities, and each label is an
entity that valid edges connect with the labelled one. -/
theorem ensures_detectCommunities (allowed : MemoryInput → Prop) (order : WalkOrder)
    (userId : Uuid) (maxIterations : Nat) :
    Program.Ensures exec allowed (fun _ _ => True)
      (fun outcome final => final = contents ∧
        (∀ labels, outcome = .ok labels → Labelled contents userId labels) ∧
        (¬ Faulty allowed → ∃ labels, outcome = .ok labels))
      (detectCommunities order userId maxIterations) contents := by
  have reads : ∀ id, Reads allowed (contents.docs (.entity id)) (readEntity id) contents :=
    fun id => Database.readsAs_get (MemoryKey.entity id) trivial
  have returns : ∀ labels, Labelled contents userId labels →
      Program.Ensures exec allowed (fun _ _ => True)
        (fun outcome final => final = contents ∧
          (∀ labels, outcome = .ok labels → Labelled contents userId labels) ∧
          (¬ Faulty allowed → ∃ labels, outcome = .ok labels))
        (.done labels : MemoryProgram Labels) contents := by
    intro labels labelled
    refine .done ⟨rfl, fun other same => ?_, fun _ => ⟨labels, rfl⟩⟩
    obtain rfl := Except.ok.inj same
    exact labelled
  apply (reads_newest reads (.userEntities userId) (by decide : 0 < communityEntityLimit)).bind
  · change Program.Ensures _ _ _ _ (if (loadedEntities contents userId).isEmpty then _ else _) _
    by_cases empty : (loadedEntities contents userId).isEmpty
    · rw [if_pos empty]
      apply returns
      have nothing : ∀ id, ¬ LoadedEntity contents userId id := by
        intro id loaded
        obtain ⟨entity, member, _⟩ := exists_loaded_iff.mpr loaded
        rw [List.isEmpty_iff.mp empty] at member
        simp at member
      refine ⟨fun id => iff_of_false (AList.notMem_empty id) (nothing id), fun id label found => ?_⟩
      rw [AList.lookup_empty] at found
      exact nomatch found
    · rw [if_neg empty]
      obtain ⟨edges, queried, valid⟩ :=
        @reads_queryEdges contents allowed userId currentEdges rfl (by decide)
      apply Program.Ensures.bind_attempt queried
      rintro outcome middle ⟨rfl, gives⟩
      rcases gives with rfl | ⟨_, error, rfl⟩
      · exact returns _ (labelled_propagate order userId maxIterations valid)
      · have none_queried : ∀ edge ∈ ([] : List Edge), edge.isValid = true ∧
            ∃ listed ∈ (middle.sets (.userEdges userId)).members,
              middle.docs (.edge listed) = some edge := by
          simp
        exact returns _ (labelled_propagate order userId maxIterations none_queried)
  · intro error faulty
    exact ⟨rfl, (fun labels same => nomatch same), fun sound => absurd faulty sound⟩

/-- Detection changes nothing.  The labels it returns are those of the loaded entities, which are
all of a user who has no more than are loaded, and stay in their component; in an environment where
nothing fails it returns labels. -/
theorem detectCommunities_labelled (order : WalkOrder) (userId : Uuid) (maxIterations : Nat)
    (contents : MemoryContents) (inputs : Nat → MemoryInput) :
    (Program.eval exec (detectCommunities order userId maxIterations) inputs contents).2 =
        contents ∧
      (∀ labels, (Program.eval exec (detectCommunities order userId maxIterations) inputs
          contents).1 = .ok labels →
        Labelled contents userId labels ∧
        ((contents.sets (.userEntities userId)).members.length ≤ communityEntityLimit →
          ∀ id, id ∈ labels ↔ UserEntity contents userId id)) ∧
      ((∀ position, (inputs position).failure = none) → ∃ labels,
        (Program.eval exec (detectCommunities order userId maxIterations) inputs contents).1 =
          .ok labels) := by
  have ends := (@ensures_detectCommunities contents (fun input => ∃ position,
    inputs position = input) order userId maxIterations).eval fun position => ⟨position, rfl⟩
  obtain ⟨unchanged, sound, total⟩ := ends
  refine ⟨unchanged, fun labels returned => ⟨sound labels returned, fun short id => ?_⟩,
    fun calm => total ?_⟩
  · exact ((sound labels returned).1 id).trans (loadedEntity_iff short)
  · rintro ⟨_, ⟨position, rfl⟩, fails⟩
    rw [calm position] at fails
    exact nomatch fails

end Reading

/-! ## More entities than are loaded -/

/-- The identifiers below a bound, each with itself as its score. -/
def crowdEntries (count : Nat) : List (Int ×ₗ Uuid) :=
  (List.range count).map fun id : Uuid => toLex (Int.ofNat id, id)

/-- A user with as many entities as are wanted. -/
def crowd (count : Nat) : MemoryContents :=
  { emptyMemory with
    docs := fun key =>
      match key with
      | .entity id => if id < count then some (conceptOf 9 id) else none
      | _ => none
    sets := fun index =>
      if index = .userEntities 9 then
        { entries := crowdEntries count
          sorted := by
            apply List.pairwise_map.mpr
            apply List.pairwise_lt_range.imp
            intro one other less
            exact Prod.Lex.toLex_le_toLex.mpr (.inl (Int.ofNat_lt.mpr less))
          nodup := by
            rw [crowdEntries, List.map_map]
            simpa [Function.comp_def] using List.nodup_range }
      else .empty }

theorem sets_crowd (count : Nat) :
    ((crowd count).sets (.userEntities 9)).entries = crowdEntries count := rfl

theorem stored_crowd (count : Nat) (id : Uuid) : (crowd count).docs (.entity id) =
    if id < count then some (conceptOf 9 id) else none := rfl

theorem id_of_stored_crowd {count : Nat} {id : Uuid} {entity : Entity}
    (stored : (crowd count).docs (.entity id) = some entity) : entity.id = id := by
  rw [stored_crowd] at stored
  split at stored
  · obtain rfl := Option.some.inj stored
    rfl
  · exact nomatch stored

theorem zero_notMem_newest {count limit : Nat} (le : limit ≤ count) :
    0 ∉ newestIds (crowd (count + 1)) (.userEntities 9) limit := by
  intro newest
  rw [newestIds, sets_crowd, crowdEntries, List.range_succ_eq_map, List.map_cons,
    List.reverse_cons, List.take_append_of_le_length (by simpa using le)] at newest
  obtain ⟨entry, taken, zero⟩ := List.mem_map.mp newest
  have held := List.mem_reverse.mp (List.mem_of_mem_take taken)
  simp only [List.map_map, List.mem_map] at held
  obtain ⟨id, _, rfl⟩ := held
  exact nomatch zero

theorem userEntity_crowd (count : Nat) : UserEntity (crowd (count + 1)) 9 0 := by
  have listed : 0 ∈ ((crowd (count + 1)).sets (.userEntities 9)).members := by
    change 0 ∈ (crowdEntries (count + 1)).map fun entry => (ofLex entry).2
    rw [crowdEntries, List.range_succ_eq_map, List.map_cons, List.map_cons]
    exact List.mem_cons_self
  have stored : (crowd (count + 1)).docs (.entity 0) = some (conceptOf 9 0) := by
    rw [stored_crowd, if_pos (Nat.succ_pos count)]
  exact ⟨0, listed, conceptOf 9 0, stored, rfl⟩

/-- The oldest of ten thousand and one entities gets no label, though nothing fails. -/
theorem oldest_of_crowd_unlabelled : ∃ contents : MemoryContents, ∃ order : WalkOrder,
    ∀ inputs : Nat → MemoryInput, (∀ position, (inputs position).failure = none) →
      ∃ labels, (Program.eval exec (detectCommunities order 9 20) inputs contents).1 =
          .ok labels ∧
        UserEntity contents 9 0 ∧ 0 ∉ labels := by
  refine ⟨crowd (communityEntityLimit + 1), ⟨fun _ _ counts => counts, fun _ _ _ => .refl _⟩,
    fun inputs calm => ?_⟩
  obtain ⟨_, sound, total⟩ := (@ensures_detectCommunities (crowd (communityEntityLimit + 1))
    (fun input => input.failure = none) _ 9 20).eval calm
  have never : ¬ Faulty fun input : MemoryInput => input.failure = none := by
    rintro ⟨input, none_fails, fails⟩
    rw [none_fails] at fails
    exact nomatch fails
  obtain ⟨labels, returned⟩ := total never
  refine ⟨labels, returned, userEntity_crowd _, fun labelled => ?_⟩
  obtain ⟨listed, newest, entity, stored, zero⟩ := ((sound labels returned).1 0).mp labelled
  rw [id_of_stored_crowd stored] at zero
  subst zero
  exact zero_notMem_newest (Nat.le_refl _) newest

end Graph
end Mnemo
