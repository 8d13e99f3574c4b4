import Mnemo.Graph.Communities
import Mnemo.Lib.Newest

/-!
# Queries of edges

The edges of a user are indexed by the instant from which they hold.  A query filters a window of
the index, three times as long as its limit; the remote call merges two such answers by identifier.
-/

namespace Mnemo
namespace Graph

open Memory
open Database (exec ReadsAs)
open Newest (IsNewest IsNewestFirst Reaches Ordered OffersEnough ChoosesNewest windowed)

/-! ## The remote call -/

/-- The query of edges over the network, once the caller is authorized. -/
structure QueryEdgesRequest where
  userId : Uuid
  entityId : Option Uuid
  label : Option String
  currentOnly : Option Bool
  limit : Option Int

/-- How many edges are asked for. -/
def QueryEdgesRequest.clampedLimit (request : QueryEdgesRequest) : Nat :=
  (max 1 (min (request.limit.getD 20) 1000)).toNat

/-- The edges that are asked for, from or to given entities. -/
def QueryEdgesRequest.filter (request : QueryEdgesRequest) (source target : Option Uuid) :
    EdgeFilter :=
  { sourceEntityId := source
    targetEntityId := target
    label := request.label
    validAtTime := none
    includeInvalidated := !(request.currentOnly.getD false)
    maxClassification := none
    limit := request.clampedLimit }

/-- The edges from and to an entity, or of the user. -/
def queryEdgesRpc (request : QueryEdgesRequest) : MemoryProgram (List Edge) :=
  match request.entityId with
  | some entityId => do
      let outgoing ← queryEdges request.userId (request.filter (some entityId) none)
      let incoming ← queryEdges request.userId (request.filter none (some entityId))
      return (Newest.merged Edge.id outgoing incoming).take request.clampedLimit
  | none => queryEdges request.userId (request.filter none none)

/-! ## The index of edges -/

/-- A database in which the index of every user has exactly the identifiers of the user's stored
edges. -/
structure EdgeShelf where
  contents : MemoryContents
  filed : ∀ id (edge : Edge), contents.docs (.edge id) = some edge → edge.id = id
  indexed : ∀ userId id, id ∈ (contents.sets (.userEdges userId)).members ↔
    ∃ edge : Edge, contents.docs (.edge id) = some edge ∧ edge.userId = userId

namespace EdgeShelf

/-- Without edges. -/
def empty : EdgeShelf where
  contents := emptyMemory
  filed := fun _ _ stored => nomatch stored
  indexed := fun userId id => by simp [emptyMemory]

/-- The contents after an edge was created. -/
def created (contents : MemoryContents) (edge : Edge) : MemoryContents :=
  let stored := contents.put (.edge edge.id) edge
  let outgoing := stored.withSet (.adjOut edge.sourceEntityId)
    ((stored.sets (.adjOut edge.sourceEntityId)).insert edge.id (timestampMillis edge.validAt))
  let incoming := outgoing.withSet (.adjIn edge.targetEntityId)
    ((outgoing.sets (.adjIn edge.targetEntityId)).insert edge.id (timestampMillis edge.validAt))
  incoming.withSet (.userEdges edge.userId)
    ((incoming.sets (.userEdges edge.userId)).insert edge.id (timestampMillis edge.validAt))

theorem docs_created (contents : MemoryContents) (edge : Edge) :
    (created contents edge).docs = (contents.put (.edge edge.id) edge).docs := rfl

theorem members_created (contents : MemoryContents) (edge : Edge) (userId id : Uuid) :
    id ∈ ((created contents edge).sets (.userEdges userId)).members ↔
      id = edge.id ∧ userId = edge.userId ∨ id ∈ (contents.sets (.userEdges userId)).members := by
  rw [created]
  by_cases same : userId = edge.userId
  · subst same
    rw [Database.Contents.sets_withSet_self, SortedSet.mem_members_insert]
    simp
  · rw [Database.Contents.sets_withSet_of_ne _ (by simpa using same)]
    simp [same]

/-- An edge with a new identifier goes into the index. -/
def create (shelf : EdgeShelf) (edge : Edge) (fresh : shelf.contents.docs (.edge edge.id) = none) :
    EdgeShelf where
  contents := created shelf.contents edge
  filed := by
    intro id stored found
    rw [docs_created] at found
    by_cases same : id = edge.id
    · subst same
      rw [Database.Contents.docs_put_self] at found
      exact congrArg Edge.id (Option.some.inj found).symm
    · rw [Database.Contents.docs_put_of_ne _ (by simpa using same)] at found
      exact shelf.filed id stored found
  indexed := by
    intro userId id
    rw [members_created, docs_created, shelf.indexed]
    by_cases same : id = edge.id
    · subst same
      rw [Database.Contents.docs_put_self, fresh]
      simp [eq_comm]
    · rw [Database.Contents.docs_put_of_ne _ (by simpa using same)]
      simp [same]

variable (shelf : EdgeShelf) (userId : Uuid)

/-- A stored edge of a user. -/
def Stored (edge : Edge) : Prop :=
  shelf.contents.docs (.edge edge.id) = some edge ∧ edge.userId = userId

/-- The edges of a user in the order of the index, newest first. -/
def listing : List Edge :=
  (shelf.contents.sets (.userEdges userId)).members.reverse.filterMap fun id =>
    shelf.contents.docs (.edge id)

variable {shelf userId}

theorem mem_listing_iff {edge : Edge} :
    edge ∈ shelf.listing userId ↔ shelf.Stored userId edge := by
  rw [listing, List.mem_filterMap, Stored]
  constructor
  · rintro ⟨id, listed, found⟩
    rw [List.mem_reverse, shelf.indexed] at listed
    obtain ⟨stored, here, owner⟩ := listed
    obtain rfl := Option.some.inj (here.symm.trans found)
    rw [shelf.filed id stored found]
    exact ⟨found, owner⟩
  · rintro ⟨found, owner⟩
    exact ⟨edge.id, List.mem_reverse.mpr ((shelf.indexed userId edge.id).mpr ⟨edge, found, owner⟩),
      found⟩

theorem nodup_listing : (shelf.listing userId).Nodup := by
  refine List.Nodup.filterMap ?_
    (List.nodup_reverse.mpr (shelf.contents.sets (.userEdges userId)).nodup_members)
  intro id other edge found same
  rw [← shelf.filed id edge found, shelf.filed other edge same]

theorem eq_of_id {edge other : Edge} (one : edge ∈ shelf.listing userId)
    (two : other ∈ shelf.listing userId) (same : edge.id = other.id) : edge = other := by
  obtain ⟨found, -⟩ := mem_listing_iff.mp one
  obtain ⟨also, -⟩ := mem_listing_iff.mp two
  rw [same] at found
  exact Option.some.inj (found.symm.trans also)

theorem filterMap_take {α β : Type} {read : α → Option β} {ids : List α}
    (present : ∀ id ∈ ids, (read id).isSome = true) (width : Nat) :
    (ids.take width).filterMap read = (ids.filterMap read).take width := by
  induction ids generalizing width with
  | nil => simp
  | cons id ids ih =>
    obtain ⟨first, others⟩ := List.forall_mem_cons.mp present
    obtain ⟨value, found⟩ := Option.isSome_iff_exists.mp first
    cases width with
    | zero => rfl
    | succ width =>
      rw [List.take_succ_cons, List.filterMap_cons_some found, List.filterMap_cons_some found,
        List.take_succ_cons, ih others]

theorem newest_filterMap (width : Nat) :
    (newestIds shelf.contents (.userEdges userId) width).filterMap
        (fun id => shelf.contents.docs (.edge id)) = (shelf.listing userId).take width := by
  have reversed : newestIds shelf.contents (.userEdges userId) width =
      (shelf.contents.sets (.userEdges userId)).members.reverse.take width := by
    rw [newestIds, SortedSet.members, ← List.map_reverse, List.map_take]
    rfl
  rw [reversed, listing]
  refine filterMap_take (fun id member => ?_) width
  rw [List.mem_reverse, shelf.indexed] at member
  obtain ⟨edge, found, -⟩ := member
  rw [found]
  rfl

end EdgeShelf

/-! ## Answers -/

/-- How long the window of a query is. -/
def EdgeFilter.fetchLimit (filter : EdgeFilter) : Nat := min (filter.limit * 3) (2 ^ 32 - 1)

section Answers

variable {allowed : MemoryInput → Prop} (shelf : EdgeShelf) (userId : Uuid) (filter : EdgeFilter)

/-- The answer to a query of edges. -/
def EdgeShelf.answer : List Edge :=
  windowed (shelf.listing userId) filter.accepts filter.fetchLimit filter.limit

theorem reads_answer :
    Reads allowed (shelf.answer userId filter) (queryEdges userId filter) shelf.contents := by
  have reads : ∀ id, Reads allowed (shelf.contents.docs (.edge id)) (readEdge id) shelf.contents :=
    fun id => Database.readsAs_get (MemoryKey.edge id) trivial
  rcases Nat.eq_zero_or_pos filter.limit with zero | positive
  · have ids : Reads allowed ((shelf.contents.sets (.userEdges userId)).revRange 0
        (((min (filter.limit * 3) (2 ^ 32 - 1) : Nat) : Int) - 1))
        (pageIds (.userEdges userId) (min (filter.limit * 3) (2 ^ 32 - 1)) none)
        shelf.contents := Database.readsAs_zrevrange _ 0 _ trivial
    have nothing : shelf.answer userId filter = [] := by
      rw [EdgeShelf.answer, windowed, zero, List.take_zero]
    rw [nothing]
    refine (ids.andThen (reads_getAll reads _)).andThen ?_
    rw [zero, List.take_zero]
    exact .done _
  · have fetches : 0 < min (filter.limit * 3) (2 ^ 32 - 1) := by omega
    rw [EdgeShelf.answer, windowed, EdgeFilter.fetchLimit, ← shelf.newest_filterMap]
    exact (reads_newest reads (.userEdges userId) fetches).andThen (.done _)

/-- The answer to a remote query for an entity. -/
def EdgeShelf.answerRpc (request : QueryEdgesRequest) (entityId : Uuid) : List Edge :=
  (Newest.merged Edge.id (shelf.answer request.userId (request.filter (some entityId) none))
    (shelf.answer request.userId (request.filter none (some entityId)))).take request.clampedLimit

theorem reads_answerRpc {request : QueryEdgesRequest} {entityId : Uuid}
    (entity : request.entityId = some entityId) :
    Reads allowed (shelf.answerRpc request entityId) (queryEdgesRpc request) shelf.contents := by
  rw [queryEdgesRpc, entity]
  exact (reads_answer shelf _ _).andThen ((reads_answer shelf _ _).andThen (.done _))

/-! ## The newest edges -/

/-- A stored edge of a user that passes a filter. -/
def EdgeShelf.Matches (edge : Edge) : Prop :=
  shelf.Stored userId edge ∧ filter.accepts edge = true

/-- A stored edge that a remote query asks for, from or to the entity. -/
def EdgeShelf.Touches (request : QueryEdgesRequest) (entityId : Uuid) (edge : Edge) : Prop :=
  shelf.Stored request.userId edge ∧
    ((request.filter (some entityId) none).accepts edge = true ∨
      (request.filter none (some entityId)).accepts edge = true)

variable {shelf userId filter}

theorem answer_newest_iff :
    IsNewestFirst Edge.validAt (shelf.Matches userId filter) filter.limit
        (shelf.answer userId filter) ↔
      Reaches (shelf.listing userId) filter.accepts filter.fetchLimit filter.limit ∧
        Ordered Edge.validAt (shelf.listing userId) filter.accepts filter.limit := by
  have wanted : shelf.Matches userId filter =
      fun edge => edge ∈ shelf.listing userId ∧ filter.accepts edge = true := by
    funext edge
    rw [EdgeShelf.Matches, EdgeShelf.mem_listing_iff]
  rw [wanted]
  exact Newest.windowed_newestFirst_iff EdgeShelf.nodup_listing

theorem answerRpc_newest_iff {request : QueryEdgesRequest} {entityId : Uuid} :
    IsNewest Edge.validAt (shelf.Touches request entityId) request.clampedLimit
        (shelf.answerRpc request entityId) ↔
      OffersEnough (shelf.listing request.userId)
          (request.filter (some entityId) none).accepts
          (request.filter none (some entityId)).accepts
          (3 * request.clampedLimit) request.clampedLimit ∧
        ChoosesNewest Edge.validAt Edge.id (shelf.listing request.userId)
          (request.filter (some entityId) none).accepts
          (request.filter none (some entityId)).accepts
          (3 * request.clampedLimit) request.clampedLimit := by
  have width : min (request.clampedLimit * 3) (2 ^ 32 - 1) = 3 * request.clampedLimit := by
    rw [QueryEdgesRequest.clampedLimit]
    omega
  have wanted : shelf.Touches request entityId =
      fun edge => edge ∈ shelf.listing request.userId ∧
        ((request.filter (some entityId) none).accepts edge = true ∨
          (request.filter none (some entityId)).accepts edge = true) := by
    funext edge
    rw [EdgeShelf.Touches, EdgeShelf.mem_listing_iff]
  rw [wanted, EdgeShelf.answerRpc, EdgeShelf.answer, EdgeShelf.answer, EdgeFilter.fetchLimit,
    EdgeFilter.fetchLimit]
  simp only [QueryEdgesRequest.filter]
  rw [width]
  exact Newest.merged_newest_iff EdgeShelf.nodup_listing fun edge known other also same =>
    EdgeShelf.eq_of_id known also same

end Answers

/-- A query gives the newest stored edges that pass its filter, newest first, exactly if the first of
them in the index are within the window and none of those is followed by a newer one.  The remote
query for an entity gives the newest edges that touch it exactly if the two windows offer enough of
them and those with the least identifiers among the offered are the newest. -/
theorem queryEdges_newest_iff (shelf : EdgeShelf) :
    (∀ userId filter, ∃ answer,
      (∀ allowed, Reads allowed answer (queryEdges userId filter) shelf.contents) ∧
        (IsNewestFirst Edge.validAt (shelf.Matches userId filter) filter.limit answer ↔
          Reaches (shelf.listing userId) filter.accepts filter.fetchLimit filter.limit ∧
            Ordered Edge.validAt (shelf.listing userId) filter.accepts filter.limit)) ∧
      ∀ (request : QueryEdgesRequest) (entityId : Uuid), ∃ answer,
        (∀ allowed, Reads allowed answer
          (queryEdgesRpc { request with entityId := some entityId }) shelf.contents) ∧
          (IsNewest Edge.validAt (shelf.Touches request entityId) request.clampedLimit answer ↔
            OffersEnough (shelf.listing request.userId)
                (request.filter (some entityId) none).accepts
                (request.filter none (some entityId)).accepts
                (3 * request.clampedLimit) request.clampedLimit ∧
              ChoosesNewest Edge.validAt Edge.id (shelf.listing request.userId)
                (request.filter (some entityId) none).accepts
                (request.filter none (some entityId)).accepts
                (3 * request.clampedLimit) request.clampedLimit) := by
  constructor
  · intro userId filter
    exact ⟨shelf.answer userId filter, fun _ => reads_answer shelf userId filter,
      answer_newest_iff⟩
  · intro request entityId
    exact ⟨shelf.answerRpc request entityId, fun allowed =>
      @reads_answerRpc allowed shelf { request with entityId := some entityId } entityId rfl,
      answerRpc_newest_iff⟩

/-- An edge that holds from a given second. -/
def linking (id source target : Uuid) (label : String) (second : Int) : Edge where
  id := id
  userId := 7
  sourceEntityId := source
  targetEntityId := target
  label := label
  fact := "they are linked"
  validAt := second * 1000000000
  invalidAt := none
  ingestedAt := second * 1000000000
  sourceEpisodeId := 1
  sourceAgentId := none
  invalidatedByEpisodeId := none
  confidence := 1
  corroborationCount := 1
  classification := .internal
  createdAt := second * 1000000000
  updatedAt := second * 1000000000
  temporalScope := none
  accessCount := 0
  lastAccessedAt := none

/-- Three edges that lead to an entity after one that leads from it. -/
def threeVisits : EdgeShelf :=
  (((EdgeShelf.empty.create (linking 1 10 11 "married_to" 1) rfl).create
    (linking 2 12 10 "visited" 2) rfl).create (linking 3 12 10 "visited" 3) rfl).create
      (linking 4 12 10 "visited" 4) rfl

/-- A query for the one edge with a label. -/
def rareLabel : EdgeFilter where
  sourceEntityId := none
  targetEntityId := none
  label := some "married_to"
  validAtTime := none
  includeInvalidated := true
  maxClassification := none
  limit := 1

/-- A remote query for two edges that touch an entity. -/
def aroundEntity : QueryEdgesRequest where
  userId := 7
  entityId := some 10
  label := none
  currentOnly := none
  limit := some 2

/-- An edge with a rare label is not found behind newer edges, and the remote query prefers it to
newer ones because its identifier is less. -/
theorem rare_edge_missed :
    ((∀ allowed, Reads allowed [] (queryEdges 7 rareLabel) threeVisits.contents) ∧
      ¬ IsNewestFirst Edge.validAt (threeVisits.Matches 7 rareLabel) rareLabel.limit []) ∧
    (∀ allowed, Reads allowed [linking 1 10 11 "married_to" 1, linking 3 12 10 "visited" 3]
      (queryEdgesRpc aroundEntity) threeVisits.contents) ∧
      ¬ IsNewest Edge.validAt (threeVisits.Touches aroundEntity 10) aroundEntity.clampedLimit
        [linking 1 10 11 "married_to" 1, linking 3 12 10 "visited" 3] := by
  refine ⟨⟨fun allowed => ?_, fun newest => ?_⟩, fun allowed => ?_, fun newest => ?_⟩
  · have nothing : threeVisits.answer 7 rareLabel = [] := by
      decide +kernel
    rw [← nothing]
    exact reads_answer threeVisits 7 rareLabel
  · have wanted : threeVisits.Matches 7 rareLabel (linking 1 10 11 "married_to" 1) :=
      ⟨⟨rfl, rfl⟩, by decide +kernel⟩
    exact List.not_mem_nil (newest.full Nat.one_pos _ wanted)
  · have given : threeVisits.answerRpc aroundEntity 10 =
        [linking 1 10 11 "married_to" 1, linking 3 12 10 "visited" 3] := by
      decide +kernel
    rw [← given]
    exact reads_answerRpc threeVisits rfl
  · have wanted : threeVisits.Touches aroundEntity 10 (linking 4 12 10 "visited" 4) :=
      ⟨⟨rfl, rfl⟩, .inr (by decide +kernel)⟩
    have older := newest.newest (linking 4 12 10 "visited" 4) wanted
      (by decide +kernel) (linking 1 10 11 "married_to" 1)
      List.mem_cons_self
    exact absurd older (by decide +kernel)

end Graph
end Mnemo
