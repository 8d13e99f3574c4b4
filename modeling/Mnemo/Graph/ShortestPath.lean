import Mnemo.Graph.Traversal

/-!
# The shortest path between two entities

A search from the source records for every identifier it meets where it came from.  When the target
is met, the records are followed back, and the entities on the way are loaded.
-/

namespace Mnemo
namespace Graph

open Memory
open BreadthFirst

/-! ## The search -/

/-- An entity of a path with the edge that leads to it. -/
structure PathStep where
  entity : Entity
  edge : Option Edge
  depth : Nat
  deriving DecidableEq, Repr

/-- Result of the search for a path. -/
structure ShortestPath where
  steps : List PathStep
  entitiesVisited : Nat
  found : Bool
  deriving DecidableEq, Repr

/-- What a search has met, each with the entity and the edge it came from, and its queue. -/
structure Search where
  visited : List (Uuid × Option Uuid × Option Edge)
  queue : List (Uuid × Nat)

/-- Meet where the edges at an entity lead; the search is over when the target is met. -/
def meetNeighbors (entityId toId : Uuid) (depth : Nat) (neighborOf : Edge → Uuid) :
    List Edge → Search → Search × Bool
  | [], search => (search, false)
  | edge :: edges, search =>
      let neighbor := neighborOf edge
      if (search.visited.lookup neighbor).isSome then
        meetNeighbors entityId toId depth neighborOf edges search
      else
        let visited := search.visited ++ [(neighbor, some entityId, some edge)]
        if neighbor = toId then ({ search with visited }, true)
        else
          meetNeighbors entityId toId depth neighborOf edges
            { visited, queue := search.queue ++ [(neighbor, depth + 1)] }

section Find

variable (store : GraphStore) (userId : Option Uuid) (maxDepth : Nat) (validOnly : Bool)

/-- Whether an identifier is known to belong to another user. -/
def isForeign (entityId : Uuid) : Bool :=
  match userId with
  | some uid =>
      match store.getEntity entityId with
      | .ok entity => entity.userId != uid
      | .error _ => false
  | none => false

/-- The loop over the queue, and whether the target was met; nothing if it has not ended. -/
def searchLoop (toId : Uuid) : Nat → Search → Option (Search × Bool)
  | 0, _ => none
  | fuel + 1, search =>
      match search.queue with
      | [] => some (search, false)
      | (entityId, depth) :: queue =>
          if maxDepth ≤ depth then searchLoop toId fuel { search with queue }
          else if isForeign store userId entityId then searchLoop toId fuel { search with queue }
          else
            let filteredOut := store.filteredOut userId validOnly entityId
            let filteredIn := store.filteredIn userId validOnly entityId
            match meetNeighbors entityId toId depth Edge.targetEntityId filteredOut
                { search with queue } with
            | (search, true) => some (search, true)
            | (search, false) =>
                match meetNeighbors entityId toId depth Edge.sourceEntityId filteredIn search with
                | (search, true) => some (search, true)
                | (search, false) => searchLoop toId fuel search

/-- Follow the records from an identifier back to the source; nothing if it has not ended. -/
def followBack (visited : List (Uuid × Option Uuid × Option Edge)) :
    Nat → Uuid → Option (List (Uuid × Option Edge))
  | 0, _ => none
  | fuel + 1, current =>
      match visited.lookup current with
      | none => some []
      | some (some parent, edge) =>
          (followBack visited fuel parent).map fun path => path ++ [(current, edge)]
      | some (none, edge) => some [(current, edge)]

/-- The step for an identifier on the path, if its entity can be shown. -/
def stepAt (position : Nat) (entityId : Uuid) (edge : Option Edge) : Option PathStep :=
  match store.getEntity entityId with
  | .error _ => none
  | .ok entity => if userOwns userId entity = false then none else some ⟨entity, edge, position⟩

/-- Load the entities of a path; those that cannot be shown are skipped. -/
def resolveSteps (path : List (Uuid × Option Edge)) : List PathStep :=
  path.zipIdx.filterMap fun entry => stepAt store userId entry.2 entry.1.1 entry.1.2

/-- Search for a shortest path between two entities; nothing if it has not ended. -/
def findShortestPathForUser (fuel : Nat) (fromId toId : Uuid) : Option ShortestPath :=
  if fromId = toId then
    match store.getEntity fromId with
    | .error _ => some ⟨[], 0, false⟩
    | .ok entity =>
        if userOwns userId entity = false then some ⟨[], 0, false⟩
        else some ⟨[⟨entity, none, 0⟩], 1, true⟩
  else
    match searchLoop store userId maxDepth validOnly toId fuel
        ⟨[(fromId, none, none)], [(fromId, 0)]⟩ with
    | none => none
    | some (search, false) => some ⟨[], search.visited.length, false⟩
    | some (search, true) =>
        (followBack search.visited fuel toId).map fun path =>
          ⟨resolveSteps store userId path, search.visited.length, true⟩

end Find

/-! ## What is recorded -/

section Records

variable (store : GraphStore) (userId : Option Uuid) (maxDepth : Nat) (validOnly : Bool)
variable (fromId toId : Uuid)

/-- Where the search goes on from an identifier. -/
def searchNext (entityId : Uuid) : List Uuid :=
  if isForeign store userId entityId then [] else neighborIds store userId validOnly entityId

/-- An edge at an entity that may be followed, and leads to another one. -/
def Leaves (edge : Edge) (one other : Uuid) : Prop :=
  edge ∈ store.filteredOut userId validOnly one ∧ edge.targetEntityId = other ∨
    edge ∈ store.filteredIn userId validOnly one ∧ edge.sourceEntityId = other

/-- The first of some taken identifiers that leads to another one. -/
def firstLeading (taken : List (Uuid × Nat)) (id : Uuid) : Option (Uuid × Nat) :=
  taken.find? fun entry =>
    decide (id ∈ expand (searchNext store userId validOnly) maxDepth entry)

/-- Every record names the first taken identifier that leads there. -/
structure Recorded (taken : List (Uuid × Nat))
    (visited : List (Uuid × Option Uuid × Option Edge)) : Prop where
  source : visited.lookup fromId = some (none, none)
  parent : ∀ id record, id ≠ fromId → visited.lookup id = some record →
    ∃ before edge, firstLeading store userId maxDepth validOnly taken id = some before ∧
      record = (some before.1, some edge) ∧ Leaves store userId validOnly edge before.1 id
  known : ∀ entry ∈ taken, (visited.lookup entry.1).isSome

/-- Whatever the taken identifiers lead to is recorded. -/
def Closed (taken : List (Uuid × Nat)) (visited : List (Uuid × Option Uuid × Option Edge)) :
    Prop :=
  ∀ entry ∈ taken, ∀ id ∈ expand (searchNext store userId validOnly) maxDepth entry,
    (visited.lookup id).isSome

variable {store userId maxDepth validOnly fromId toId}

theorem lookup_concat (visited : List (Uuid × Option Uuid × Option Edge)) (id other : Uuid)
    (record : Option Uuid × Option Edge) :
    (visited ++ [(id, record)]).lookup other =
      (visited.lookup other).or (if other = id then some record else none) := by
  rw [List.lookup_append]
  by_cases same : other = id
  · simp [same]
  · have apart : (other == id) = false := by
      simpa using same
    simp [List.lookup_cons, apart, same]

theorem isSome_lookup {visited : List (Uuid × Option Uuid × Option Edge)} {id : Uuid} :
    (visited.lookup id).isSome ↔ id ∈ visited.map Prod.fst := by
  rw [List.lookup_isSome_iff, List.mem_map]
  constructor
  · rintro ⟨entry, member, same⟩
    exact ⟨entry, member, (beq_iff_eq.mp same).symm⟩
  · rintro ⟨entry, member, rfl⟩
    exact ⟨entry, member, beq_self_eq_true _⟩

theorem firstLeading_append {taken later : List (Uuid × Nat)} {id : Uuid} {before : Uuid × Nat}
    (first : firstLeading store userId maxDepth validOnly taken id = some before) :
    firstLeading store userId maxDepth validOnly (taken ++ later) id = some before := by
  unfold firstLeading at first ⊢
  rw [List.find?_append, first]
  rfl

theorem Recorded.append {taken later : List (Uuid × Nat)}
    {visited : List (Uuid × Option Uuid × Option Edge)}
    (recorded : Recorded store userId maxDepth validOnly fromId taken visited)
    (known : ∀ entry ∈ later, (visited.lookup entry.1).isSome) :
    Recorded store userId maxDepth validOnly fromId (taken ++ later) visited where
  source := recorded.source
  parent id record other found := by
    obtain ⟨before, edge, first, same, leaves⟩ := recorded.parent id record other found
    exact ⟨before, edge, firstLeading_append first, same, leaves⟩
  known entry member := by
    rcases List.mem_append.mp member with early | late
    · exact recorded.known entry early
    · exact known entry late

/-- A new identifier is recorded with the entity it is met from. -/
theorem Recorded.concat {taken : List (Uuid × Nat)} {current : Uuid × Nat}
    {visited : List (Uuid × Option Uuid × Option Edge)} {id : Uuid} {edge : Edge}
    (recorded : Recorded store userId maxDepth validOnly fromId (taken ++ [current]) visited)
    (closed : Closed store userId maxDepth validOnly taken visited)
    (new : visited.lookup id = none)
    (leads : id ∈ expand (searchNext store userId validOnly) maxDepth current)
    (leaves : Leaves store userId validOnly edge current.1 id) :
    Recorded store userId maxDepth validOnly fromId (taken ++ [current])
      (visited ++ [(id, some current.1, some edge)]) where
  source := by
    rw [lookup_concat, recorded.source]
    rfl
  parent other record apart found := by
    rw [lookup_concat] at found
    cases old : visited.lookup other with
    | some older =>
      rw [old] at found
      obtain rfl := Option.some.inj found
      exact recorded.parent other _ apart old
    | none =>
      rw [old, Option.none_or] at found
      split at found
      · rename_i same
        subst same
        obtain rfl := Option.some.inj found
        refine ⟨current, edge, ?_, rfl, leaves⟩
        unfold firstLeading
        rw [List.find?_append, List.find?_eq_none.mpr, Option.none_or]
        · simp [leads]
        · intro entry member also
          have met := closed entry member other (by simpa using also)
          rw [new] at met
          exact nomatch met
      · exact nomatch found
  known entry member := by
    rw [lookup_concat]
    obtain ⟨record, found⟩ := Option.isSome_iff_exists.mp (recorded.known entry member)
    rw [found]
    rfl

/-- Following edges from an entity records where they lead, until the target is met. -/
theorem meetNeighbors_spec {taken : List (Uuid × Nat)} {current : Uuid × Nat}
    {neighborOf : Edge → Uuid} {edges : List Edge} {search : Search}
    (leads : ∀ edge ∈ edges,
      neighborOf edge ∈ expand (searchNext store userId validOnly) maxDepth current)
    (leaves : ∀ edge ∈ edges,
      Leaves store userId validOnly edge current.1 (neighborOf edge))
    (recorded : Recorded store userId maxDepth validOnly fromId (taken ++ [current])
      search.visited)
    (closed : Closed store userId maxDepth validOnly taken search.visited)
    (unmet : search.visited.lookup toId = none) :
    ∃ after found,
      meetNeighbors current.1 toId current.2 neighborOf edges search = (after, found) ∧
      Recorded store userId maxDepth validOnly fromId (taken ++ [current]) after.visited ∧
      Closed store userId maxDepth validOnly taken after.visited ∧
      (found = true → (after.visited.lookup toId).isSome) ∧
      (found = false → after.visited.lookup toId = none ∧
        after.visited.map Prod.fst = search.visited.map Prod.fst ++
          fresh (search.visited.map Prod.fst) (edges.map neighborOf) ∧
        after.queue = search.queue ++ (fresh (search.visited.map Prod.fst)
          (edges.map neighborOf)).map fun neighbor => (neighbor, current.2 + 1)) := by
  induction edges generalizing search with
  | nil =>
    exact ⟨search, false, rfl, recorded, closed, (fun met => by cases met),
      fun _ => ⟨unmet, by simp, by simp⟩⟩
  | cons edge edges ih =>
    have rest_leads := fun other member => leads other (List.mem_cons_of_mem _ member)
    have rest_leaves := fun other member => leaves other (List.mem_cons_of_mem _ member)
    rw [meetNeighbors]
    by_cases old : (search.visited.lookup (neighborOf edge)).isSome
    · simp only [if_pos old]
      rw [List.map_cons, fresh_cons_of_mem (isSome_lookup.mp old)]
      exact ih rest_leads rest_leaves recorded closed unmet
    · simp only [if_neg old]
      have new : search.visited.lookup (neighborOf edge) = none :=
        Option.not_isSome_iff_eq_none.mp old
      have here := leads edge List.mem_cons_self
      have further := recorded.concat closed new here (leaves edge List.mem_cons_self)
      have still : Closed store userId maxDepth validOnly taken
          (search.visited ++ [(neighborOf edge, some current.1, some edge)]) := by
        intro entry member id leading
        obtain ⟨record, found⟩ := Option.isSome_iff_exists.mp (closed entry member id leading)
        rw [lookup_concat, found]
        rfl
      by_cases target : neighborOf edge = toId
      · rw [if_pos target]
        refine ⟨_, true, rfl, further, still, fun _ => ?_, fun lost => by cases lost⟩
        rw [lookup_concat, unmet, if_pos target.symm]
        rfl
      · rw [if_neg target]
        have unmet_after : (search.visited ++
            [(neighborOf edge, some current.1, some edge)]).lookup toId = none := by
          rw [lookup_concat, unmet, if_neg (Ne.symm target)]
          rfl
        obtain ⟨after, found, runs, keeps, closes, met, missed⟩ :=
          @ih ⟨_, search.queue ++ [(neighborOf edge, current.2 + 1)]⟩ rest_leads rest_leaves
            further still unmet_after
        refine ⟨after, found, runs, keeps, closes, met, fun lost => ?_⟩
        obtain ⟨absent, keys, queue⟩ := missed lost
        have unlisted : neighborOf edge ∉ search.visited.map Prod.fst := by
          rw [← isSome_lookup]
          exact old
        rw [List.map_cons, fresh_cons_of_notMem unlisted]
        refine ⟨absent, ?_, ?_⟩
        · rw [keys]
          simp
        · rw [queue]
          simp

theorem Closed.concat_of_nil {taken : List (Uuid × Nat)} {current : Uuid × Nat}
    {visited : List (Uuid × Option Uuid × Option Edge)}
    (closed : Closed store userId maxDepth validOnly taken visited)
    (nowhere : expand (searchNext store userId validOnly) maxDepth current = []) :
    Closed store userId maxDepth validOnly (taken ++ [current]) visited := by
  intro entry member id leads
  rcases List.mem_append.mp member with early | late
  · exact closed entry early id leads
  · obtain rfl := List.mem_singleton.mp late
    rw [nowhere] at leads
    simp at leads

/-- Both lists of edges at an entity record where it leads, until the target is met. -/
theorem meetBoth_spec {taken : List (Uuid × Nat)} {current : Uuid × Nat} {search : Search}
    (goes : expand (searchNext store userId validOnly) maxDepth current =
      neighborIds store userId validOnly current.1)
    (recorded : Recorded store userId maxDepth validOnly fromId (taken ++ [current])
      search.visited)
    (closed : Closed store userId maxDepth validOnly taken search.visited)
    (unmet : search.visited.lookup toId = none) :
    ∃ middle early after found,
      meetNeighbors current.1 toId current.2 Edge.targetEntityId
        (store.filteredOut userId validOnly current.1) search = (middle, early) ∧
      (early = true → Recorded store userId maxDepth validOnly fromId (taken ++ [current])
        middle.visited ∧ (middle.visited.lookup toId).isSome) ∧
      (early = false → meetNeighbors current.1 toId current.2 Edge.sourceEntityId
          (store.filteredIn userId validOnly current.1) middle = (after, found) ∧
        Recorded store userId maxDepth validOnly fromId (taken ++ [current]) after.visited ∧
        Closed store userId maxDepth validOnly taken after.visited ∧
        (found = true → (after.visited.lookup toId).isSome) ∧
        (found = false → after.visited.lookup toId = none ∧
          after.visited.map Prod.fst = search.visited.map Prod.fst ++
            appended (searchNext store userId validOnly) maxDepth
              (search.visited.map Prod.fst) current ∧
          after.queue = search.queue ++ (appended (searchNext store userId validOnly) maxDepth
            (search.visited.map Prod.fst) current).map fun neighbor =>
              (neighbor, current.2 + 1))) := by
  have out_leads : ∀ edge ∈ store.filteredOut userId validOnly current.1,
      edge.targetEntityId ∈ expand (searchNext store userId validOnly) maxDepth current := by
    intro edge member
    rw [goes]
    exact List.mem_append_left _ (List.mem_map.mpr ⟨edge, member, rfl⟩)
  have in_leads : ∀ edge ∈ store.filteredIn userId validOnly current.1,
      edge.sourceEntityId ∈ expand (searchNext store userId validOnly) maxDepth current := by
    intro edge member
    rw [goes]
    exact List.mem_append_right _ (List.mem_map.mpr ⟨edge, member, rfl⟩)
  obtain ⟨middle, early, runs, keeps, closes, met, missed⟩ := meetNeighbors_spec out_leads
    (fun edge member => .inl ⟨member, rfl⟩) recorded closed unmet
  cases early with
  | true => exact ⟨middle, true, middle, true, runs, fun _ => ⟨keeps, met rfl⟩,
      fun lost => by cases lost⟩
  | false =>
    obtain ⟨absent, keys, queue⟩ := missed rfl
    obtain ⟨after, found, runs_on, still, closes_on, met_after, missed_after⟩ :=
      meetNeighbors_spec in_leads (fun edge member => .inr ⟨member, rfl⟩) keeps closes absent
    refine ⟨middle, false, after, found, runs, (fun lost => by cases lost),
      fun _ => ⟨runs_on, still, closes_on, met_after, fun lost => ?_⟩⟩
    obtain ⟨still_absent, keys_after, queue_after⟩ := missed_after lost
    have whole : appended (searchNext store userId validOnly) maxDepth
        (search.visited.map Prod.fst) current =
        fresh (search.visited.map Prod.fst)
          ((store.filteredOut userId validOnly current.1).map Edge.targetEntityId) ++
        fresh (middle.visited.map Prod.fst)
          ((store.filteredIn userId validOnly current.1).map Edge.sourceEntityId) := by
      rw [appended, goes, neighborIds, fresh_append, keys]
    refine ⟨still_absent, ?_, ?_⟩
    · rw [keys_after, whole, keys, List.append_assoc]
    · rw [queue_after, whole, queue, List.map_append, List.append_assoc]

theorem queued_after {search after : Search} {current : Uuid × Nat} {queue : List (Uuid × Nat)}
    (queued : ∀ entry ∈ queue, (search.visited.lookup entry.1).isSome)
    (keys : after.visited.map Prod.fst = search.visited.map Prod.fst ++
      appended (searchNext store userId validOnly) maxDepth (search.visited.map Prod.fst) current)
    (grown : after.queue = queue ++ (appended (searchNext store userId validOnly) maxDepth
      (search.visited.map Prod.fst) current).map fun neighbor => (neighbor, current.2 + 1)) :
    ∀ entry ∈ after.queue, (after.visited.lookup entry.1).isSome := by
  intro entry member
  rw [isSome_lookup, keys]
  rw [grown] at member
  rcases List.mem_append.mp member with early | late
  · exact List.mem_append_left _ (isSome_lookup.mp (queued entry early))
  · obtain ⟨neighbor, new, rfl⟩ := List.mem_map.mp late
    exact List.mem_append_right _ new

theorem closed_after {taken : List (Uuid × Nat)} {search after : Search} {current : Uuid × Nat}
    (closed : Closed store userId maxDepth validOnly taken after.visited)
    (keys : after.visited.map Prod.fst = search.visited.map Prod.fst ++
      appended (searchNext store userId validOnly) maxDepth
        (search.visited.map Prod.fst) current) :
    Closed store userId maxDepth validOnly (taken ++ [current]) after.visited := by
  intro entry member id leads
  rcases List.mem_append.mp member with early | late
  · exact closed entry early id leads
  · obtain rfl := List.mem_singleton.mp late
    rw [isSome_lookup, keys, List.mem_append]
    by_cases old : id ∈ search.visited.map Prod.fst
    · exact .inl old
    · exact .inr (mem_fresh.mpr ⟨leads, old⟩)

/-- The loop ends; it has met the target, or nothing in the order leads to it. -/
theorem searchLoop_spec {taken rest : List (Uuid × Nat)} {search : Search}
    (drains : Drains (searchNext store userId validOnly) maxDepth (search.visited.map Prod.fst)
      search.queue rest)
    (recorded : Recorded store userId maxDepth validOnly fromId taken search.visited)
    (closed : Closed store userId maxDepth validOnly taken search.visited)
    (queued : ∀ entry ∈ search.queue, (search.visited.lookup entry.1).isSome)
    (unmet : search.visited.lookup toId = none) {fuel : Nat} (enough : rest.length < fuel) :
    ∃ final found,
      searchLoop store userId maxDepth validOnly toId fuel search = some (final, found) ∧
      (found = true → (final.visited.lookup toId).isSome ∧
        ∃ seen later, taken ++ rest = seen ++ later ∧
          Recorded store userId maxDepth validOnly fromId seen final.visited) ∧
      (found = false → ∀ entry ∈ taken ++ rest,
        toId ∉ expand (searchNext store userId validOnly) maxDepth entry) := by
  induction fuel generalizing search taken rest with
  | zero => omega
  | succ fuel ih =>
    obtain ⟨visited, queue⟩ := search
    cases drains with
    | nil =>
      refine ⟨_, false, rfl, (fun met => by cases met), fun _ entry member leads => ?_⟩
      rw [List.append_nil] at member
      have met := closed entry member toId leads
      rw [unmet] at met
      cases met
    | @cons _ current queue rest later =>
      have shorter : rest.length < fuel := by
        rw [List.length_cons] at enough
        omega
      have parts : taken ++ current :: rest = (taken ++ [current]) ++ rest := by
        simp
      have now_known : ∀ entry ∈ [current], (visited.lookup entry.1).isSome := by
        intro entry member
        obtain rfl := List.mem_singleton.mp member
        exact queued entry List.mem_cons_self
      have still_queued : ∀ entry ∈ queue, (visited.lookup entry.1).isSome :=
        fun entry member => queued entry (List.mem_cons_of_mem _ member)
      have more := recorded.append now_known
      rw [parts, searchLoop]
      obtain ⟨entityId, depth⟩ := current
      by_cases stops : maxDepth ≤ depth ∨ isForeign store userId entityId = true
      · have nowhere : expand (searchNext store userId validOnly) maxDepth (entityId, depth) =
            [] := by
          rcases stops with deep | foreign
          · exact if_neg (not_lt.mpr deep)
          · simp [expand, searchNext, foreign]
        rw [appended, nowhere, fresh_nil, List.map_nil, List.append_nil,
          List.append_nil] at later
        obtain ⟨final, found, ends, met, missed⟩ :=
          @ih _ _ ⟨visited, queue⟩ later more (closed.concat_of_nil nowhere) still_queued
            unmet shorter
        refine ⟨final, found, ?_, met, missed⟩
        rw [← ends]
        by_cases deep : maxDepth ≤ depth
        · simp only [if_pos deep]
        · simp only [if_neg deep, if_pos (stops.resolve_left deep)]
      · obtain ⟨shallow, own⟩ := not_or.mp stops
        have goes : expand (searchNext store userId validOnly) maxDepth (entityId, depth) =
            neighborIds store userId validOnly entityId := by
          rw [expand, if_pos (not_le.mp shallow), searchNext, if_neg own]
        simp only [if_neg shallow, if_neg own]
        obtain ⟨middle, early, after, found, runs, met, missed⟩ :=
          @meetBoth_spec _ _ _ _ _ _ _ _ ⟨visited, queue⟩ goes more closed unmet
        rw [runs]
        cases early with
        | true =>
          obtain ⟨keeps, target⟩ := met rfl
          exact ⟨middle, true, rfl, fun _ => ⟨target, _, rest, rfl, keeps⟩,
            fun lost => by cases lost⟩
        | false =>
          obtain ⟨runs_on, keeps, closes, target, absent⟩ := missed rfl
          simp only [runs_on]
          cases found with
          | true =>
            exact ⟨after, true, rfl, fun _ => ⟨target rfl, _, rest, rfl, keeps⟩,
              fun lost => by cases lost⟩
          | false =>
            obtain ⟨still_unmet, keys, grown⟩ := absent rfl
            rw [← grown, ← keys] at later
            exact ih later keeps (closed_after closes keys)
              (queued_after still_queued keys grown) still_unmet shorter

/-! ## The way back -/

/-- The edge of an entry leads to it from the entry before. -/
def Linked (store : GraphStore) (userId : Option Uuid) (validOnly : Bool)
    (one other : Uuid × Option Edge) : Prop :=
  ∃ edge, other.2 = some edge ∧ Leaves store userId validOnly edge one.1 other.1

/-- The records lead back along the way by which an identifier was first met. -/
theorem followBack_spec {seen later : List (Uuid × Nat)}
    {visited : List (Uuid × Option Uuid × Option Edge)}
    (parts : order (searchNext store userId validOnly) fromId maxDepth = seen ++ later)
    (recorded : Recorded store userId maxDepth validOnly fromId seen visited)
    {depth : Nat} {id : Uuid} (within : depth ≤ maxDepth)
    (member : id ∈ layer (searchNext store userId validOnly) fromId depth)
    (found : (visited.lookup id).isSome) {fuel : Nat} (enough : depth < fuel) :
    ∃ path, followBack visited fuel id = some path ∧
      path.map Prod.fst = trail (searchNext store userId validOnly) fromId maxDepth depth id ∧
      path.IsChain (Linked store userId validOnly) ∧ path.head? = some (fromId, none) ∧
      path.getLast?.map Prod.fst = some id := by
  induction fuel generalizing depth id with
  | zero => omega
  | succ fuel ih =>
    cases depth with
    | zero =>
      obtain rfl : id = fromId := List.mem_singleton.mp member
      refine ⟨[(id, none)], ?_, rfl, List.isChain_singleton _, rfl, rfl⟩
      rw [followBack, recorded.source]
    | succ depth =>
      have apart : id ≠ fromId := by
        rintro rfl
        rw [layer_succ] at member
        exact (mem_fresh.mp member).2 (upTo_mono (Nat.zero_le depth) (by simp))
      obtain ⟨record, looked⟩ := Option.isSome_iff_exists.mp found
      obtain ⟨before, edge, first, rfl, leaves⟩ := recorded.parent id record apart looked
      obtain ⟨parent, first_of_all, met, _⟩ := exists_parentOf within member
      have same : before.1 = parent := by
        have whole : firstLeading store userId maxDepth validOnly (seen ++ later) id =
            some before := firstLeading_append first
        rw [← parts] at whole
        rw [parentOf] at first_of_all
        unfold firstLeading at whole
        rw [whole] at first_of_all
        exact Option.some.inj first_of_all
      subst same
      have taken : before ∈ seen := List.mem_of_find?_eq_some first
      obtain ⟨path, back, ids, chain, head, last⟩ :=
        ih (by omega) met (recorded.known before taken) (by omega)
      refine ⟨path ++ [(id, some edge)], ?_, ?_, ?_, ?_, by simp⟩
      · rw [followBack, looked]
        simp [back]
      · rw [List.map_append, ids, trail, first_of_all]
        rfl
      · apply chain.append (List.isChain_singleton _)
        intro one final other here
        obtain rfl : (id, some edge) = other := by simpa using here
        refine ⟨edge, rfl, ?_⟩
        have end_id : one.1 = before.1 := by
          rw [Option.mem_def.mp final] at last
          exact Option.some.inj last
        rwa [end_id]
      · cases path with
        | nil => simp at head
        | cons entry path => exact head

end Records

/-! ## The steps -/

/-- The steps lead from one entity to another, each over its edge, between the user's entities. -/
structure Leads (store : GraphStore) (userId : Option Uuid) (fromId toId : Uuid)
    (steps : List PathStep) : Prop where
  first : steps.head?.map (fun step => step.entity.id) = some fromId
  last : steps.getLast?.map (fun step => step.entity.id) = some toId
  joined : steps.IsChain fun one other =>
    ∃ edge, other.edge = some edge ∧ GraphStore.Joins edge one.entity.id other.entity.id
  present : ∀ step ∈ steps, store.Present userId step.entity

section Steps

variable {store : GraphStore} {userId : Option Uuid} {validOnly : Bool}

/-- The identifier and the edge of a step. -/
def PathStep.entry (step : PathStep) : Uuid × Option Edge := (step.entity.id, step.edge)

/-- The edge of an entry joins it to the entry before. -/
def Joined (one other : Uuid × Option Edge) : Prop :=
  ∃ edge, other.2 = some edge ∧ GraphStore.Joins edge one.1 other.1

theorem Linked.joined {one other : Uuid × Option Edge}
    (linked : Linked store userId validOnly one other) : Joined one other := by
  obtain ⟨edge, here, leaves⟩ := linked
  refine ⟨edge, here, ?_⟩
  rcases leaves with ⟨listed, target⟩ | ⟨listed, source⟩
  · exact .inl ⟨GraphStore.outgoing_source (List.mem_filter.mp listed).1, target⟩
  · exact .inr ⟨source, GraphStore.incoming_target (List.mem_filter.mp listed).1⟩

theorem stepAt_eq (position : Nat) (entityId : Uuid) (edge : Option Edge) :
    stepAt store userId position entityId edge =
      (entityAt store userId entityId).map fun entity => ⟨entity, edge, position⟩ := by
  unfold stepAt entityAt
  cases store.getEntity entityId with
  | error failure => rfl
  | ok entity => by_cases foreign : userOwns userId entity = false <;> simp [foreign]

theorem map_resolve (path : List (Uuid × Option Edge)) (offset : Nat) :
    ((path.zipIdx offset).filterMap fun entry =>
      stepAt store userId entry.2 entry.1.1 entry.1.2).map PathStep.entry =
      path.filter fun entry => (entityAt store userId entry.1).isSome := by
  induction path generalizing offset with
  | nil => rfl
  | cons entry path ih =>
    rw [List.zipIdx_cons, List.filterMap_cons, stepAt_eq]
    cases known : entityAt store userId entry.1 with
    | none =>
      rw [List.filter_cons_of_neg (by simp [known])]
      exact ih (offset + 1)
    | some entity =>
      rw [List.filter_cons_of_pos (by simp [known]), Option.map_some, List.map_cons,
        ih (offset + 1), PathStep.entry, (present_of_entityAt known).1]

theorem map_resolveSteps (path : List (Uuid × Option Edge)) :
    (resolveSteps store userId path).map PathStep.entry =
      path.filter fun entry => (entityAt store userId entry.1).isSome :=
  map_resolve path 0

theorem present_of_mem_resolveSteps {path : List (Uuid × Option Edge)} {step : PathStep}
    (member : step ∈ resolveSteps store userId path) : store.Present userId step.entity := by
  obtain ⟨entry, _, shown⟩ := List.mem_filterMap.mp member
  rw [stepAt_eq] at shown
  obtain ⟨entity, known, rfl⟩ := Option.map_eq_some_iff.mp shown
  exact (present_of_entityAt known).2

theorem leads_resolveSteps_iff {path : List (Uuid × Option Edge)} {fromId toId : Uuid} :
    Leads store userId fromId toId (resolveSteps store userId path) ↔
      let kept := path.filter fun entry => (entityAt store userId entry.1).isSome
      kept.head?.map Prod.fst = some fromId ∧ kept.getLast?.map Prod.fst = some toId ∧
        kept.IsChain Joined := by
  simp only [← map_resolveSteps]
  rw [List.head?_map, List.getLast?_map, Option.map_map, Option.map_map, List.isChain_map]
  constructor
  · intro leads
    exact ⟨leads.first, leads.last, leads.joined⟩
  · rintro ⟨first, last, joined⟩
    exact ⟨first, last, joined, fun _ member => present_of_mem_resolveSteps member⟩

theorem exists_before {related : Uuid × Option Edge → Uuid × Option Edge → Prop}
    {first entry : Uuid × Option Edge} {path : List (Uuid × Option Edge)}
    (chain : (first :: path).IsChain related) (member : entry ∈ path) :
    ∃ before ∈ first :: path, related before entry := by
  induction path generalizing first with
  | nil => simp at member
  | cons second path ih =>
    rw [List.isChain_cons_cons] at chain
    rcases List.mem_cons.mp member with rfl | later
    · exact ⟨first, List.mem_cons_self, chain.1⟩
    · obtain ⟨before, among, holds⟩ := ih chain.2 later
      exact ⟨before, List.mem_cons_of_mem _ among, holds⟩

theorem Joined.unique {one two entry : Uuid × Option Edge} (first : Joined one entry)
    (second : Joined two entry) (apart : one.1 ≠ entry.1) : one.1 = two.1 := by
  obtain ⟨edge, here, joins⟩ := first
  obtain ⟨same, also, joins_too⟩ := second
  obtain rfl : edge = same := Option.some.inj (here.symm.trans also)
  rcases joins with ⟨source, target⟩ | ⟨source, target⟩
  · rcases joins_too with ⟨also_source, _⟩ | ⟨also_source, _⟩
    · exact source.symm.trans also_source
    · exact absurd (source.symm.trans also_source) apart
  · rcases joins_too with ⟨_, also_target⟩ | ⟨_, also_target⟩
    · exact absurd (target.symm.trans also_target) apart
    · exact target.symm.trans also_target

/-- If the kept entries of a path still form a path between its ends, all entries are kept. -/
theorem all_kept {keep : Uuid × Option Edge → Bool} {first : Uuid × Option Edge}
    {path : List (Uuid × Option Edge)} (chain : (first :: path).IsChain Joined)
    (distinct : ((first :: path).map Prod.fst).Nodup)
    (head : ((first :: path).filter keep).head?.map Prod.fst = some first.1)
    (last : ((first :: path).filter keep).getLast?.map Prod.fst =
      (first :: path).getLast?.map Prod.fst)
    (joined : ((first :: path).filter keep).IsChain Joined) :
    ∀ entry ∈ first :: path, keep entry = true := by
  induction path generalizing first with
  | nil =>
    intro entry member
    obtain rfl := List.mem_singleton.mp member
    by_contra dropped
    simp [dropped] at head
  | cons second path ih =>
    have fresh_first : first.1 ∉ (second :: path).map Prod.fst :=
      (List.nodup_cons.mp distinct).1
    have elsewhere : ∀ entry ∈ second :: path, first.1 ≠ entry.1 := by
      intro entry member same
      exact fresh_first (List.mem_map.mpr ⟨entry, member, same.symm⟩)
    have here : keep first = true := by
      by_contra dropped
      rw [List.filter_cons_of_neg dropped] at head
      obtain ⟨entry, among, same⟩ := Option.map_eq_some_iff.mp head
      have member := List.mem_of_mem_filter (List.mem_of_head? among)
      exact elsewhere entry member same.symm
    rw [List.filter_cons_of_pos here] at last joined
    -- the entry kept after the first is the second, since its edge comes from nowhere else
    have next_kept : ((second :: path).filter keep).head?.map Prod.fst = some second.1 := by
      cases rest : (second :: path).filter keep with
      | nil =>
        rw [rest, List.getLast?_cons_cons] at last
        obtain ⟨final, among, same⟩ := Option.map_eq_some_iff.mp last.symm
        exact absurd same.symm (elsewhere final (List.mem_of_getLast? among))
      | cons third kept =>
        rw [rest, List.isChain_cons_cons] at joined
        have listed : third ∈ second :: path := by
          apply List.mem_of_mem_filter (p := keep)
          rw [rest]
          exact List.mem_cons_self
        rcases List.mem_cons.mp listed with rfl | later
        · rfl
        · obtain ⟨before, among, also⟩ := exists_before (List.isChain_cons_cons.mp chain).2 later
          exact absurd (joined.1.unique also (elsewhere third listed)) (elsewhere before among)
    intro entry member
    rcases List.mem_cons.mp member with rfl | later
    · exact here
    · refine ih (List.isChain_cons_cons.mp chain).2 (List.nodup_cons.mp distinct).2 next_kept ?_
        joined.tail entry later
      cases rest : (second :: path).filter keep with
      | nil => simp [rest] at next_kept
      | cons third kept => rwa [rest, List.getLast?_cons_cons, List.getLast?_cons_cons] at last

end Steps

/-! ## The result -/

section Result

variable {store : GraphStore} {userId : Option Uuid} {maxDepth : Nat} {validOnly : Bool}
variable {fromId toId : Uuid}

/-- Every entity on the way by which the target is first met may be shown. -/
def WayPresent (store : GraphStore) (userId : Option Uuid) (maxDepth : Nat) (validOnly : Bool)
    (fromId toId : Uuid) : Prop :=
  ∀ depth ≤ maxDepth, toId ∈ layer (searchNext store userId validOnly) fromId depth →
    ∀ id ∈ trail (searchNext store userId validOnly) fromId maxDepth depth toId,
      ∃ entity, entity.id = id ∧ store.Present userId entity

theorem lookup_source {id : Uuid} (apart : id ≠ fromId) :
    ([(fromId, none, none)] : List (Uuid × Option Uuid × Option Edge)).lookup id = none := by
  rw [List.lookup_eq_none_iff]
  simpa using apart

theorem recorded_source :
    Recorded store userId maxDepth validOnly fromId [] [(fromId, none, none)] where
  source := by simp
  parent id record apart looked := by
    rw [lookup_source apart] at looked
    exact nomatch looked
  known := by simp

/-- The search ends; a target within reach is found along the way by which it is first met. -/
theorem find_spec (apart : fromId ≠ toId) : ∃ enough, ∀ fuel ≥ enough, ∃ result,
    findShortestPathForUser store userId maxDepth validOnly fuel fromId toId = some result ∧
      (result.found = true ↔
        toId ∈ upTo (searchNext store userId validOnly) fromId maxDepth) ∧
      (result.found = true → ∃ depth ≤ maxDepth, ∃ path,
        toId ∈ layer (searchNext store userId validOnly) fromId depth ∧
        result.steps = resolveSteps store userId path ∧
        path.map Prod.fst = trail (searchNext store userId validOnly) fromId maxDepth depth toId ∧
        path.IsChain (Linked store userId validOnly) ∧ path.head? = some (fromId, none) ∧
        path.getLast?.map Prod.fst = some toId) := by
  refine ⟨(order (searchNext store userId validOnly) fromId maxDepth).length + maxDepth + 1,
    fun fuel enough => ?_⟩
  have begins : Drains (searchNext store userId validOnly) maxDepth [fromId] [(fromId, 0)]
      (order (searchNext store userId validOnly) fromId maxDepth) := drains_order maxDepth
  have queued : ∀ entry ∈ [(fromId, 0)],
      (([(fromId, none, none)] : List (Uuid × Option Uuid × Option Edge)).lookup
        entry.1).isSome := by
    simp
  have closed : Closed store userId maxDepth validOnly [] [(fromId, none, none)] := by
    intro entry member
    simp at member
  obtain ⟨final, found, ends, met, missed⟩ := @searchLoop_spec store userId maxDepth validOnly
    fromId toId [] _ ⟨[(fromId, none, none)], [(fromId, 0)]⟩ begins recorded_source closed queued
    (lookup_source apart.symm) fuel (by omega)
  rw [findShortestPathForUser, if_neg apart, ends]
  cases found with
  | false =>
    refine ⟨_, rfl, ⟨(fun lost => nomatch lost), fun within => ?_⟩, fun lost => nomatch lost⟩
    obtain ⟨depth, le, member⟩ := mem_upTo within
    cases depth with
    | zero => exact absurd (List.mem_singleton.mp member).symm apart
    | succ depth =>
      obtain ⟨parent, _, before, adjacent⟩ := exists_parentOf le member
      have listed : (parent, depth) ∈
          order (searchNext store userId validOnly) fromId maxDepth :=
        mem_order.mpr ⟨by omega, before⟩
      exact absurd (mem_expand.mpr ⟨le, adjacent⟩) (missed rfl _ listed)
  | true =>
    obtain ⟨target, seen, later, parts, keeps⟩ := met rfl
    have within : toId ∈ upTo (searchNext store userId validOnly) fromId maxDepth := by
      obtain ⟨record, looked⟩ := Option.isSome_iff_exists.mp target
      obtain ⟨before, _, first, _, _⟩ := keeps.parent toId record apart.symm looked
      have listed : before ∈ order (searchNext store userId validOnly) fromId maxDepth := by
        change before ∈ [] ++ order (searchNext store userId validOnly) fromId maxDepth
        rw [parts]
        exact List.mem_append_left _ (List.mem_of_find?_eq_some first)
      have leads : toId ∈ expand (searchNext store userId validOnly) maxDepth before := by
        simpa using List.find?_some first
      exact upTo_mono (mem_expand.mp leads).1 (mem_upTo_of_mem_expand listed leads)
    obtain ⟨depth, le, member⟩ := mem_upTo within
    obtain ⟨path, back, ids, chain, head, last⟩ :=
      @followBack_spec store userId maxDepth validOnly fromId seen later _ parts keeps depth toId
        le member target fuel (by omega)
    have followed := congrArg (Option.map fun path => (⟨resolveSteps store userId path,
      final.visited.length, true⟩ : ShortestPath)) back
    refine ⟨_, followed, ⟨fun _ => within, fun _ => rfl⟩, fun _ => ?_⟩
    exact ⟨depth, le, path, member, rfl, ids, chain, head, last⟩

theorem leads_iff_present {depth : Nat} {path : List (Uuid × Option Edge)} (le : depth ≤ maxDepth)
    (member : toId ∈ layer (searchNext store userId validOnly) fromId depth)
    (ids : path.map Prod.fst =
      trail (searchNext store userId validOnly) fromId maxDepth depth toId)
    (chain : path.IsChain (Linked store userId validOnly))
    (head : path.head? = some (fromId, none)) (last : path.getLast?.map Prod.fst = some toId) :
    Leads store userId fromId toId (resolveSteps store userId path) ↔
      ∀ id ∈ path.map Prod.fst, ∃ entity, entity.id = id ∧ store.Present userId entity := by
  have joined : path.IsChain Joined := chain.imp fun _ _ => Linked.joined
  have distinct : (path.map Prod.fst).Nodup := by
    rw [ids]
    exact nodup_trail le member
  rw [leads_resolveSteps_iff]
  constructor
  · rintro ⟨kept_head, kept_last, kept_joined⟩ id listed
    obtain ⟨entry, among, rfl⟩ := List.mem_map.mp listed
    have kept : (entityAt store userId entry.1).isSome = true := by
      cases path with
      | nil => simp at head
      | cons first path =>
        obtain rfl : first = (fromId, none) := by simpa using head
        exact all_kept joined distinct kept_head (kept_last.trans last.symm) kept_joined
          entry among
    obtain ⟨entity, known⟩ := Option.isSome_iff_exists.mp kept
    exact ⟨entity, present_of_entityAt known⟩
  · intro present
    have whole : (path.filter fun entry => (entityAt store userId entry.1).isSome) = path := by
      rw [List.filter_eq_self]
      intro entry among
      obtain ⟨entity, same, here⟩ := present entry.1 (List.mem_map.mpr ⟨entry, among, rfl⟩)
      rw [← same, entityAt_of_present here]
      rfl
    simp only [whole]
    exact ⟨by rw [head]; rfl, last, joined⟩

/-- What is reported as found leads to the target exactly if the way there may be shown. -/
theorem leads_of_found_iff_wayPresent : ∃ enough, ∀ fuel ≥ enough, ∃ result,
    findShortestPathForUser store userId maxDepth validOnly fuel fromId toId = some result ∧
      ((result.found = true → Leads store userId fromId toId result.steps) ↔
        (fromId = toId ∨ WayPresent store userId maxDepth validOnly fromId toId)) := by
  rcases eq_or_ne fromId toId with rfl | apart
  · refine ⟨0, fun fuel _ => ?_⟩
    rw [findShortestPathForUser, if_pos rfl]
    cases stored : store.getEntity fromId with
    | error failure => exact ⟨_, rfl, by simp⟩
    | ok entity =>
        cases owned : userOwns userId entity with
        | false => exact ⟨⟨[], 0, false⟩, by simp [owned], by simp⟩
        | true =>
            obtain rfl := store.entity_id _ _ stored
            refine ⟨⟨[⟨entity, none, 0⟩], 1, true⟩, by simp [owned], fun _ => .inl rfl,
              fun _ _ => ?_⟩
            exact ⟨rfl, rfl, List.isChain_singleton _, by simpa using ⟨stored, owned⟩⟩
  · obtain ⟨enough, spec⟩ := @find_spec store userId maxDepth validOnly fromId toId apart
    refine ⟨enough, fun fuel le => ?_⟩
    obtain ⟨result, ends, reached, path_spec⟩ := spec fuel le
    refine ⟨result, ends, ?_⟩
    rw [or_iff_right apart]
    cases found : result.found with
    | false =>
        refine ⟨fun _ depth within member => ?_, fun _ lost => by cases lost⟩
        have met : toId ∈ upTo (searchNext store userId validOnly) fromId maxDepth :=
          upTo_mono within (layer_subset_upTo _ member)
        rw [reached.mpr met] at found
        cases found
    | true =>
        obtain ⟨depth, within, path, member, steps, ids, chain, head, last⟩ := path_spec found
        rw [steps, imp_iff_right rfl, leads_iff_present within member ids chain head last, ids]
        constructor
        · intro present other _ also
          rw [layer_unique also member]
          exact present
        · exact fun way => way depth within member

/-- Every edge that may be followed has two entities that may be visited. -/
def Anchored (store : GraphStore) (userId : Option Uuid) (validOnly : Bool) : Prop :=
  ∀ id, ∀ edge ∈ store.outgoing id, admits userId validOnly edge = true →
    (∃ entity, entity.id = edge.sourceEntityId ∧ store.Present userId entity) ∧
    ∃ entity, entity.id = edge.targetEntityId ∧ store.Present userId entity

theorem isForeign_of_present {entity : Entity} (present : store.Present userId entity) :
    isForeign store userId entity.id = false := by
  obtain ⟨stored, owned⟩ := present
  unfold userOwns at owned
  unfold isForeign
  cases userId with
  | none => rfl
  | some uid =>
    simp only [stored]
    simpa using owned

theorem mem_layer_searchNext (twoSided : store.TwoSided)
    (anchored : Anchored store userId validOnly) {entity : Entity}
    (present : store.Present userId entity) {depth : Nat} :
    entity.id ∈ layer (searchNext store userId validOnly) fromId depth ↔
      (store.graph userId validOnly).edist fromId entity.id = depth := by
  apply mem_layer_iff_edist fun id => ∃ entity, entity.id = id ∧ store.Present userId entity
  · intro vertex missing
    by_contra leads
    obtain ⟨neighbor, member⟩ := List.exists_mem_of_ne_nil _ leads
    unfold searchNext at member
    split at member
    · simp at member
    · obtain ⟨edge, stored, admitted, ends⟩ := (mem_neighborIds twoSided).mp member
      obtain ⟨source, target⟩ := anchored _ edge stored admitted
      rcases ends with ⟨rfl, _⟩ | ⟨_, rfl⟩
      · exact missing source
      · exact missing target
  · intro vertex neighbor here there different member
    unfold searchNext at member
    split at member
    · simp at member
    · exact ⟨different, here, there, (mem_neighborIds twoSided).mp member⟩
  · intro vertex neighbor adjacent
    obtain ⟨_, ⟨found, rfl, here⟩, _, edge⟩ := adjacent
    rw [searchNext, if_neg (by simp [isForeign_of_present here])]
    exact (mem_neighborIds twoSided).mpr edge
  · exact ⟨entity, rfl, present⟩

/-- The steps form a path over edges that may be followed, and no walk has fewer edges. -/
structure Shortest (store : GraphStore) (userId : Option Uuid) (validOnly : Bool)
    (fromId toId : Uuid) (steps : List PathStep) : Prop extends
    Leads store userId fromId toId steps where
  admitted : ∀ step ∈ steps, ∀ edge, step.edge = some edge →
    edge ∈ store.outgoing edge.sourceEntityId ∧ admits userId validOnly edge = true
  minimal : ∀ walk : (store.graph userId validOnly).Walk fromId toId,
    steps.length ≤ walk.length + 1

theorem Linked.admitted {one other : Uuid × Option Edge} {edge : Edge}
    (twoSided : store.TwoSided) (linked : Linked store userId validOnly one other)
    (here : other.2 = some edge) :
    edge ∈ store.outgoing edge.sourceEntityId ∧ admits userId validOnly edge = true := by
  obtain ⟨same, also, leaves⟩ := linked
  obtain rfl : edge = same := Option.some.inj (here.symm.trans also)
  rcases leaves with ⟨listed, _⟩ | ⟨listed, _⟩
  · obtain ⟨stored, admitted⟩ := List.mem_filter.mp listed
    rw [GraphStore.outgoing_source stored]
    exact ⟨stored, admitted⟩
  · obtain ⟨stored, admitted⟩ := List.mem_filter.mp listed
    exact ⟨twoSided.incoming_outgoing _ _ stored, admitted⟩

theorem linked_before {path : List (Uuid × Option Edge)}
    (chain : path.IsChain (Linked store userId validOnly))
    (head : path.head? = some (fromId, none)) (entry : Uuid × Option Edge) (member : entry ∈ path) :
    entry = (fromId, none) ∨ ∃ before, Linked store userId validOnly before entry := by
  cases path with
  | nil => simp at member
  | cons first path =>
    obtain rfl : first = (fromId, none) := by simpa using head
    rcases List.mem_cons.mp member with same | later
    · exact .inl same
    · obtain ⟨before, _, link⟩ := exists_before chain later
      exact .inr ⟨before, link⟩

/-- The search ends, and finds a shortest path exactly if there is one that is short enough. -/
theorem find_shortest (twoSided : store.TwoSided) (anchored : Anchored store userId validOnly)
    {source target : Entity} (source_present : store.Present userId source)
    (target_present : store.Present userId target) : ∃ enough, ∀ fuel ≥ enough, ∃ result,
    findShortestPathForUser store userId maxDepth validOnly fuel source.id target.id =
        some result ∧
      (result.found = true ↔
        ∃ walk : (store.graph userId validOnly).Walk source.id target.id,
          walk.length ≤ maxDepth) ∧
      (result.found = true →
        Shortest store userId validOnly source.id target.id result.steps) := by
  rcases eq_or_ne source.id target.id with same | apart
  · obtain ⟨stored, owned⟩ := source_present
    have also := target_present.1
    rw [← same] at also
    obtain rfl : source = target := Except.ok.inj (stored.symm.trans also)
    refine ⟨0, fun fuel _ => ⟨⟨[⟨source, none, 0⟩], 1, true⟩, ?_, ?_, fun _ => ?_⟩⟩
    · simp [findShortestPathForUser, stored, owned]
    · exact iff_of_true rfl ⟨.nil, Nat.zero_le _⟩
    · exact { first := rfl, last := rfl, joined := List.isChain_singleton _
              present := by simpa using target_present
              admitted := by simp
              minimal := by simp }
  · obtain ⟨enough, spec⟩ := @find_spec store userId maxDepth validOnly _ _ apart
    refine ⟨enough, fun fuel le => ?_⟩
    obtain ⟨result, ends, reached, path_spec⟩ := spec fuel le
    refine ⟨result, ends, ?_, fun found => ?_⟩
    · rw [reached]
      constructor
      · intro met
        obtain ⟨depth, within, member⟩ := mem_upTo met
        have distance := (mem_layer_searchNext twoSided anchored target_present).mp member
        obtain ⟨walk, length⟩ := SimpleGraph.exists_walk_of_edist_eq_coe distance
        exact ⟨walk, by omega⟩
      · rintro ⟨walk, short⟩
        have near := SimpleGraph.edist_le walk
        obtain ⟨depth, distance⟩ := ENat.ne_top_iff_exists.mp
          (ne_top_of_le_ne_top (ENat.natCast_ne_top walk.length) near)
        have member := (mem_layer_searchNext twoSided anchored target_present).mpr distance.symm
        rw [← distance] at near
        have le_length : depth ≤ walk.length := by exact_mod_cast near
        exact upTo_mono (by omega) (layer_subset_upTo _ member)
    · obtain ⟨depth, within, path, member, steps, ids, chain, head, last⟩ := path_spec found
      have linked := linked_before chain head
      have present : ∀ id ∈ path.map Prod.fst,
          ∃ entity, entity.id = id ∧ store.Present userId entity := by
        intro id listed
        obtain ⟨entry, among, rfl⟩ := List.mem_map.mp listed
        rcases linked entry among with rfl | ⟨before, link⟩
        · exact ⟨source, rfl, source_present⟩
        · obtain ⟨edge, here, joins⟩ := link.joined
          obtain ⟨stored, admitted⟩ := link.admitted twoSided here
          obtain ⟨first, second⟩ := anchored _ edge stored admitted
          rcases joins with ⟨_, ends⟩ | ⟨begins, _⟩
          · rw [← ends]
            exact second
          · rw [← begins]
            exact first
      have leads := (leads_iff_present within member ids chain head last).mpr present
      rw [← steps] at leads
      refine { leads with admitted := fun step shown edge here => ?_, minimal := fun walk => ?_ }
      · have entry : step.entry ∈ path := by
          apply List.mem_of_mem_filter (p := fun entry => (entityAt store userId entry.1).isSome)
          rw [← map_resolveSteps, ← steps]
          exact List.mem_map.mpr ⟨step, shown, rfl⟩
        rcases linked _ entry with first | ⟨before, link⟩
        · have none_here : step.edge = none := congrArg Prod.snd first
          rw [here] at none_here
          exact nomatch none_here
        · exact link.admitted twoSided here
      · have count : result.steps.length ≤ path.length := by
          rw [steps, ← List.length_map PathStep.entry, map_resolveSteps]
          exact List.length_filter_le _ _
        have length : path.length = depth + 1 := by
          rw [← List.length_map Prod.fst, ids, length_trail within member]
        have distance := (mem_layer_searchNext twoSided anchored target_present).mp member
        have near := SimpleGraph.edist_le walk
        rw [distance] at near
        have le_length : depth ≤ walk.length := by exact_mod_cast near
        omega

end Result

/-! ## A missing target -/

/-- A fact about an entity that has been deleted. -/
def dangling : GraphStore :=
  .ofRecords [conceptOf 7 1, conceptOf 7 2] [linkOf 7 11 1 2, linkOf 7 12 2 3]

theorem steps_miss_the_target :
    ∃ result, findShortestPathForUser dangling (some 7) 5 true 10 1 3 = some result ∧
      result.found = true ∧ ¬ Leads dangling (some 7) 1 3 result.steps := by
  refine ⟨_, rfl, rfl, fun leads => ?_⟩
  exact absurd leads.last (by decide)

theorem anchored_circle : Anchored circle (some 7) true := by
  intro id edge member _
  have listed := (GraphStore.mem_outgoing_ofRecords.mp member).1
  simp only [List.mem_cons, List.not_mem_nil, or_false] at listed
  rcases listed with rfl | rfl | rfl | rfl
  · exact ⟨⟨conceptOf 7 1, rfl, rfl, rfl⟩, conceptOf 7 2, rfl, rfl, rfl⟩
  · exact ⟨⟨conceptOf 7 2, rfl, rfl, rfl⟩, conceptOf 7 3, rfl, rfl, rfl⟩
  · exact ⟨⟨conceptOf 7 3, rfl, rfl, rfl⟩, conceptOf 7 1, rfl, rfl, rfl⟩
  · exact ⟨⟨conceptOf 7 1, rfl, rfl, rfl⟩, conceptOf 7 2, rfl, rfl, rfl⟩

theorem find_shortest_circle : ∃ enough, ∀ fuel ≥ enough, ∃ result,
    findShortestPathForUser circle (some 7) 5 true fuel 1 3 = some result ∧
      (result.found = true ↔
        ∃ walk : (circle.graph (some 7) true).Walk 1 3, walk.length ≤ 5) ∧
      (result.found = true → Shortest circle (some 7) true 1 3 result.steps) :=
  @find_shortest circle (some 7) 5 true
    (GraphStore.consistent_ofRecords (by decide)).toTwoSided anchored_circle (conceptOf 7 1)
    (conceptOf 7 3) ⟨rfl, rfl⟩ ⟨rfl, rfl⟩

end Graph
end Mnemo
