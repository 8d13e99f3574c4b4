import Mnemo.Ingest.Process
import Mnemo.Lib.Sequential

/-!
# What the processing of an episode does to edges

Edges are opened under new identifiers and open ones are closed; nothing else happens to them.
-/

namespace Mnemo
namespace Ingest

open Memory
open Program (Ensures Performs)
open Database (Command Faulty Gives)

/-- The command stores a new edge, which is open, under an unused identifier. -/
def Opens (contents : MemoryContents) (id : Uuid) (edge : Edge) : Prop :=
  edge.id = id ∧ contents.docs (.edge id) = none ∧ edge.invalidAt = none

/-- The command closes a stored edge that is open. -/
def Closes (contents : MemoryContents) (id : Uuid) (edge : Edge) : Prop :=
  ∃ (old : Edge) (episodeId : Uuid) (now : DateTime), contents.docs (.edge id) = some old ∧
    old.invalidAt = none ∧ edge = old.invalidate episodeId now

/-- Edges are only ever opened and closed. -/
def HandlesEdges : MemoryCommand → MemoryContents → Prop
  | .set (.edge id) edge, contents => Opens contents id edge ∨ Closes contents id edge
  | .del (.edge _), _ => False
  | _, _ => True

/-- Edges are stored under their own identifiers, which were drawn. -/
def Filed (contents : MemoryContents) : Prop :=
  ∀ id (edge : Edge), contents.docs (.edge id) = some edge → edge.id = id ∧ id ∈ contents.issued

/-- A command that neither writes an edge nor touches an adjacency list. -/
def AwayFromEdges : MemoryCommand → Prop
  | .set (.edge _) _ | .del (.edge _) => False
  | .zadd (.adjOut _) _ _ | .zrem (.adjOut _) _ | .zdel (.adjOut _) => False
  | _ => True

/-- The edges and their adjacency lists have not changed. -/
structure SameEdges (before after : MemoryContents) : Prop where
  docs : ∀ id, after.docs (.edge id) = before.docs (.edge id)
  sets : ∀ id, after.sets (.adjOut id) = before.sets (.adjOut id)
  issued : before.issued ⊆ after.issued

namespace SameEdges

theorem refl (contents : MemoryContents) : SameEdges contents contents :=
  ⟨fun _ => rfl, fun _ => rfl, fun _ drawn => drawn⟩

theorem trans {first second third : MemoryContents} (one : SameEdges first second)
    (two : SameEdges second third) : SameEdges first third :=
  ⟨fun id => (two.docs id).trans (one.docs id), fun id => (two.sets id).trans (one.sets id),
    fun _ drawn => two.issued (one.issued drawn)⟩

theorem filed {before after : MemoryContents} (same : SameEdges before after)
    (filed : Filed before) : Filed after := by
  intro id edge found
  rw [same.docs] at found
  exact ⟨(filed id edge found).1, same.issued (filed id edge found).2⟩

theorem perform {command : MemoryCommand} (away : AwayFromEdges command) (input : MemoryInput)
    (contents : MemoryContents) :
    SameEdges contents (Database.perform input contents command).2 := by
  cases command with
  | set key doc =>
    cases key with
    | edge id => exact away.elim
    | _ => exact ⟨fun id => Database.Contents.docs_put_of_ne _ (by simp) _, fun _ => rfl,
        fun _ drawn => drawn⟩
  | del key =>
    cases key with
    | edge id => exact away.elim
    | _ => exact ⟨fun id => Database.Contents.docs_remove_of_ne _ (by simp), fun _ => rfl,
        fun _ drawn => drawn⟩
  | zadd index member score =>
    cases index with
    | adjOut id => exact away.elim
    | _ => exact ⟨fun _ => rfl, fun id => Database.Contents.sets_withSet_of_ne _ (by simp) _,
        fun _ drawn => drawn⟩
  | zrem index member =>
    cases index with
    | adjOut id => exact away.elim
    | _ => exact ⟨fun _ => rfl, fun id => Database.Contents.sets_withSet_of_ne _ (by simp) _,
        fun _ drawn => drawn⟩
  | zdel index =>
    cases index with
    | adjOut id => exact away.elim
    | _ => exact ⟨fun _ => rfl, fun id => Database.Contents.sets_withSet_of_ne _ (by simp) _,
        fun _ drawn => drawn⟩
  | freshId => exact ⟨fun _ => rfl, fun _ => rfl, fun _ drawn => List.mem_cons_of_mem _ drawn⟩
  | _ => exact refl contents

theorem exec {command : MemoryCommand} (away : AwayFromEdges command) (input : MemoryInput)
    (contents : MemoryContents) : SameEdges contents (Database.exec command input contents).2 := by
  unfold Database.exec
  split
  · exact refl contents
  · exact perform away input contents

end SameEdges

theorem AwayFromEdges.handles {command : MemoryCommand} (away : AwayFromEdges command)
    (contents : MemoryContents) : HandlesEdges command contents := by
  cases command with
  | set key doc =>
    cases key with
    | edge id => exact away.elim
    | _ => trivial
  | del key =>
    cases key with
    | edge id => exact away.elim
    | _ => trivial
  | _ => trivial

section Programs

variable {allowed : MemoryInput → Prop} {contents : MemoryContents}

variable (allowed) in
/-- The program handles edges and ends as described. -/
abbrev Does {α : Type} (post : Except MnemoError α → MemoryContents → Prop)
    (program : MemoryProgram α) (contents : MemoryContents) : Prop :=
  Ensures Database.exec allowed HandlesEdges post program contents

theorem does_of_away {α : Type} {program : MemoryProgram α}
    (away : Performs AwayFromEdges program) (contents : MemoryContents) :
    Does allowed (fun _ final => SameEdges contents final) program contents :=
  away.ensures SameEdges.refl (fun _ state away => away.handles state)
    (fun _ input _ last away same => same.trans (SameEdges.exec away input last)) contents

/-! ## Reading edges -/

/-- The edges stored under some identifiers. -/
def edgesUnder (contents : MemoryContents) (ids : List Uuid) : List Edge :=
  ids.filterMap fun id => contents.docs (.edge id)

/-- The outgoing edges of an entity that are read: the newest ones. -/
def outgoing (contents : MemoryContents) (entityId : Uuid) : List Edge :=
  edgesUnder contents
    ((contents.sets (.adjOut entityId)).revRange 0 ((adjacencyLimit : Int) - 1))

variable (allowed) in
/-- The program only reads, and ends with the value. -/
abbrev Reads {α : Type} (value : α) (program : MemoryProgram α) (contents : MemoryContents) :
    Prop :=
  Database.ReadsAs allowed HandlesEdges value program contents

theorem reads_readEdge (id : Uuid) :
    Reads allowed (contents.docs (.edge id) : Option Edge) (readEdge id) contents :=
  Database.readsAs_get (MemoryKey.edge id) trivial

theorem reads_getAll_readEdge (ids : List Uuid) :
    Reads allowed (edgesUnder contents ids) (getAll readEdge ids) contents := by
  induction ids with
  | nil => exact .done []
  | cons id ids ih =>
    refine (reads_readEdge id).andThen (ih.andThen ?_)
    have split : edgesUnder contents (id :: ids) =
        (contents.docs (.edge id) : Option Edge).toList ++ edgesUnder contents ids := by
      unfold edgesUnder
      rw [List.filterMap_cons]
      cases contents.docs (.edge id) <;> rfl
    rw [split]
    exact .done _

theorem reads_getOutgoingEdges (entityId : Uuid) :
    Reads allowed (outgoing contents entityId) (getOutgoingEdges entityId) contents := by
  have page : Reads allowed
      ((contents.sets (.adjOut entityId)).revRange 0 ((adjacencyLimit : Int) - 1))
      (pageIds (.adjOut entityId) adjacencyLimit none) contents :=
    Database.readsAs_zrevrange (MemoryIndex.adjOut entityId) 0 _ trivial
  exact page.andThen (reads_getAll_readEdge _)

theorem reads_findConflictingEdges (userId sourceEntityId targetEntityId : Uuid)
    (label : String) :
    Reads allowed
      ((outgoing contents sourceEntityId).filter fun edge =>
        edge.targetEntityId == targetEntityId && edge.label == label && edge.userId == userId &&
          edge.isValid)
      (findConflictingEdges userId sourceEntityId targetEntityId label) contents :=
  (reads_getOutgoingEdges sourceEntityId).andThen (.done _)

/-- The edges are stored under their own identifiers, each once. -/
structure Stored (contents : MemoryContents) (edges : List Edge) : Prop where
  nodup : (edges.map Edge.id).Nodup
  docs : ∀ edge ∈ edges, contents.docs (.edge edge.id) = some edge

namespace Stored

theorem filter {edges : List Edge} (stored : Stored contents edges) (keep : Edge → Bool) :
    Stored contents (edges.filter keep) :=
  ⟨stored.nodup.sublist (List.filter_sublist.map _),
    fun edge member => stored.docs edge (List.mem_of_mem_filter member)⟩

theorem tail {edge : Edge} {edges : List Edge} (stored : Stored contents (edge :: edges)) :
    Stored contents edges :=
  ⟨(List.nodup_cons.mp stored.nodup).2,
    fun other member => stored.docs other (List.mem_cons_of_mem _ member)⟩

theorem put_head {edge : Edge} {edges : List Edge} (stored : Stored contents (edge :: edges))
    (changed : Edge) : Stored (contents.put (.edge edge.id) changed) edges := by
  refine ⟨stored.tail.nodup, fun other member => ?_⟩
  have different : other.id ≠ edge.id := by
    intro same
    have absent := (List.nodup_cons.mp stored.nodup).1
    exact absent (same ▸ List.mem_map_of_mem member)
  rw [Database.Contents.docs_put_of_ne _ (by simpa using different)]
  exact stored.tail.docs other member

end Stored

theorem stored_edgesUnder (filed : Filed contents) {ids : List Uuid} (nodup : ids.Nodup) :
    Stored contents (edgesUnder contents ids) := by
  induction ids with
  | nil => exact ⟨List.nodup_nil, fun edge member => by cases member⟩
  | cons id ids ih =>
    obtain ⟨absent, rest⟩ := List.nodup_cons.mp nodup
    have tail := ih rest
    unfold edgesUnder at tail ⊢
    rw [List.filterMap_cons]
    cases found : (contents.docs (.edge id) : Option Edge) with
    | none => exact tail
    | some edge =>
      have own : edge.id = id := (filed id edge found).1
      refine ⟨List.nodup_cons.mpr ⟨fun again => ?_, tail.nodup⟩, fun other member => ?_⟩
      · obtain ⟨other, member, same⟩ := List.mem_map.mp again
        obtain ⟨otherId, listed, foundOther⟩ := List.mem_filterMap.mp member
        have otherOwn : other.id = otherId := (filed otherId other foundOther).1
        rw [← own, ← same, otherOwn] at absent
        exact absent listed
      · rcases List.mem_cons.mp member with rfl | later
        · rw [own]
          exact found
        · exact tail.docs other later

theorem stored_outgoing (filed : Filed contents) (entityId : Uuid) :
    Stored contents (outgoing contents entityId) := by
  apply stored_edgesUnder filed
  exact SortedSet.nodup_revRange _ _ _

/-! ## Closing edges -/

/-- Some open edges, all of a kind, have been closed. -/
structure Closing (kind : Edge → Prop) (before after : MemoryContents) : Prop where
  sets : after.sets = before.sets
  issued : after.issued = before.issued
  others : ∀ key, (∀ id, key ≠ .edge id) → after.docs key = before.docs key
  edges : ∀ id, after.docs (.edge id) = before.docs (.edge id) ∨
    ∃ (edge : Edge) (episodeId : Uuid) (now : DateTime),
      before.docs (.edge id) = some edge ∧ kind edge ∧ edge.invalidAt = none ∧
        after.docs (.edge id) = some (edge.invalidate episodeId now)

namespace Closing

variable {kind : Edge → Prop}

theorem refl (contents : MemoryContents) : Closing kind contents contents :=
  ⟨rfl, rfl, fun _ _ => rfl, fun _ => .inl rfl⟩

theorem closed {before after : MemoryContents} (closing : Closing kind before after) {id : Uuid}
    {edge : Edge} (found : before.docs (.edge id) = some edge)
    (ended : edge.invalidAt.isSome = true) : after.docs (.edge id) = some edge := by
  rcases closing.edges id with same | ⟨other, episodeId, now, stored, _, opened, _⟩
  · rw [same, found]
  · obtain rfl : edge = other := Option.some.inj (found.symm.trans stored)
    rw [opened] at ended
    cases ended

theorem trans {first second third : MemoryContents} (one : Closing kind first second)
    (two : Closing kind second third) : Closing kind first third := by
  refine ⟨two.sets.trans one.sets, two.issued.trans one.issued,
    fun key other => (two.others key other).trans (one.others key other), fun id => ?_⟩
  rcases one.edges id with same | ⟨edge, episodeId, now, found, belongs, opened, closed⟩
  · rcases two.edges id with also | ⟨edge, episodeId, now, found, belongs, opened, closed⟩
    · exact .inl (also.trans same)
    · exact .inr ⟨edge, episodeId, now, same ▸ found, belongs, opened, closed⟩
  · exact .inr ⟨edge, episodeId, now, found, belongs, opened, two.closed closed rfl⟩

theorem filed {before after : MemoryContents} (closing : Closing kind before after)
    (filed : Filed before) : Filed after := by
  intro id edge found
  rw [closing.issued]
  rcases closing.edges id with same | ⟨old, episodeId, now, stored, _, _, closed⟩
  · exact filed id edge (same ▸ found)
  · obtain rfl : edge = old.invalidate episodeId now :=
      Option.some.inj (found.symm.trans closed)
    exact filed id old stored

theorem put {edge : Edge} (found : contents.docs (.edge edge.id) = some edge)
    (belongs : kind edge) (opened : edge.invalidAt = none) (episodeId : Uuid)
    (now : DateTime) :
    Closing kind contents (contents.put (.edge edge.id) (edge.invalidate episodeId now)) := by
  refine ⟨rfl, rfl, fun key other => ?_, fun id => ?_⟩
  · exact Database.Contents.docs_put_of_ne _ (other edge.id) _
  · rcases eq_or_ne id edge.id with rfl | different
    · exact .inr ⟨edge, episodeId, now, found, belongs, opened,
        Database.Contents.docs_put_self _ _ _⟩
    · exact .inl (Database.Contents.docs_put_of_ne _ (by simpa using different) _)

end Closing

/-- The edge is stored as closed. -/
def IsClosed (contents : MemoryContents) (edge : Edge) : Prop :=
  ∃ closed : Edge, contents.docs (.edge edge.id) = some closed ∧ closed.invalidAt.isSome = true

theorem Closing.isClosed {kind : Edge → Prop} {before after : MemoryContents}
    (closing : Closing kind before after) {edge : Edge} (closed : IsClosed before edge) :
    IsClosed after edge := by
  obtain ⟨stored, found, ended⟩ := closed
  exact ⟨stored, closing.closed found ended, ended⟩

theorem isClosed_put (edge : Edge) (episodeId : Uuid) (now : DateTime) :
    IsClosed (contents.put (.edge edge.id) (edge.invalidate episodeId now)) edge :=
  ⟨_, Database.Contents.docs_put_self _ _ _, rfl⟩

theorem does_invalidateEdges {kind : Edge → Prop} (episode : Episode) {edges : List Edge}
    (stored : Stored contents edges)
    (closable : ∀ edge ∈ edges, kind edge ∧ edge.invalidAt = none) :
    Does allowed (fun outcome final => Closing kind contents final ∧
        (outcome = .ok () → ∀ edge ∈ edges, IsClosed final edge) ∧
        (¬ Faulty allowed → outcome = .ok ()))
      (invalidateEdges episode edges) contents := by
  induction edges generalizing contents with
  | nil => exact .done ⟨.refl _, (fun _ _ member => nomatch member), fun _ => rfl⟩
  | cons edge edges ih =>
    have found := stored.docs edge List.mem_cons_self
    obtain ⟨belongs, opened⟩ := closable edge List.mem_cons_self
    refine Database.bind_clock trivial fun now => ?_
    refine Database.bind_set (.inr ⟨edge, episode.id, now, found, opened, rfl⟩) ?_ ?_
    · have head := Closing.put found belongs opened episode.id now
      refine (ih (stored.put_head _)
        fun other member => closable other (List.mem_cons_of_mem _ member)).mono ?_
      rintro outcome final ⟨tail, closes, succeeds⟩
      refine ⟨head.trans tail, fun ok other member => ?_, succeeds⟩
      rcases List.mem_cons.mp member with rfl | later
      · exact tail.isClosed (isClosed_put other episode.id now)
      · exact closes ok other later
    · exact fun error faulty =>
        ⟨.refl _, (fun impossible => nomatch impossible), fun sound => absurd faulty sound⟩

/-! ## Closing the edges to other targets -/

/-- The name of an entity as it is stored, empty when there is none. -/
def storedName (contents : MemoryContents) (entityId : Uuid) : String :=
  match (contents.docs (.entity entityId) : Option Entity) with
  | some entity => entity.name
  | none => ""

/-- What reading an entity gives when nothing fails. -/
def entityOutcome (contents : MemoryContents) (entityId : Uuid) : Except MnemoError Entity :=
  match (contents.docs (.entity entityId) : Option Entity) with
  | some entity => .ok entity
  | none => .error (.entityNotFound entityId)

theorem does_getEntity (entityId : Uuid) :
    Does allowed (fun outcome final => final = contents ∧
        (¬ Faulty allowed → outcome = entityOutcome contents entityId))
      (getEntity entityId) contents := by
  have read : Reads allowed (contents.docs (.entity entityId) : Option Entity)
      (Redis.get (.entity entityId)) contents :=
    Database.readsAs_get (MemoryKey.entity entityId) trivial
  refine read.bind ?_ fun error faulty => ⟨rfl, fun sound => absurd faulty sound⟩
  unfold entityOutcome
  cases (contents.docs (.entity entityId) : Option Entity) with
  | some entity => exact .done ⟨rfl, fun _ => rfl⟩
  | none => exact .fail ⟨rfl, fun _ => rfl⟩

theorem does_entityNameOrEmpty (entityId : Uuid) :
    Does allowed (fun outcome final => final = contents ∧
        ∃ name, outcome = .ok name ∧ (¬ Faulty allowed → name = storedName contents entityId))
      (entityNameOrEmpty entityId) contents := by
  refine (does_getEntity entityId).bind_attempt ?_
  rintro outcome final ⟨rfl, described⟩
  cases outcome with
  | ok entity =>
    refine .done ⟨rfl, _, rfl, fun sound => ?_⟩
    have read := described sound
    unfold entityOutcome at read
    unfold storedName
    split at read
    · exact congrArg Entity.name (Except.ok.inj read)
    · cases read
  | error error =>
    refine .done ⟨rfl, _, rfl, fun sound => ?_⟩
    have read := described sound
    unfold entityOutcome at read
    unfold storedName
    split at read
    · cases read
    · rfl

theorem does_updateEdge_invalidate {edge : Edge}
    (found : contents.docs (.edge edge.id) = some edge) (opened : edge.invalidAt = none)
    (episodeId : Uuid) (now : DateTime) :
    Does allowed (fun outcome final =>
        outcome = .ok () ∧ final = contents.put (.edge edge.id) (edge.invalidate episodeId now) ∨
        Faulty allowed ∧ final = contents)
      (updateEdge (edge.invalidate episodeId now)) contents :=
  Database.ensures_fallible
    (Command.set (.edge edge.id) (edge.invalidate episodeId now) : MemoryCommand) rfl
    (.inr ⟨edge, episodeId, now, found, opened, rfl⟩) (fun _ _ => .inl ⟨rfl, rfl⟩)
    fun _ faulty => .inr ⟨faulty, rfl⟩

/-- The target of an edge has another name than the target of a relationship. -/
def NameDiffers (unicode : Unicode) (contents : MemoryContents) (rel : ExtractedRelationship)
    (edge : Edge) : Prop :=
  unicode.toLowercase rel.targetName ≠
    unicode.toLowercase (storedName contents edge.targetEntityId)

theorem Closing.nameDiffers_iff {kind : Edge → Prop} {before after : MemoryContents}
    (closing : Closing kind before after) (unicode : Unicode) (rel : ExtractedRelationship)
    (edge : Edge) :
    NameDiffers unicode after rel edge ↔ NameDiffers unicode before rel edge := by
  have same := closing.others (.entity edge.targetEntityId) (fun _ => by simp)
  unfold NameDiffers storedName
  rw [same]

theorem does_supersedeOthers (unicode : Unicode) {kind : Edge → Prop} (episode : Episode)
    (rel : ExtractedRelationship) {edges : List Edge} (stored : Stored contents edges)
    (closable : ∀ edge ∈ edges, kind edge ∧ edge.invalidAt = none) :
    Does allowed (fun outcome final => outcome = .ok () ∧ Closing kind contents final ∧
        (¬ Faulty allowed → ∀ edge ∈ edges, NameDiffers unicode contents rel edge →
          IsClosed final edge))
      (supersedeOthers unicode episode rel edges) contents := by
  induction edges generalizing contents with
  | nil => exact .done ⟨rfl, .refl _, (fun _ _ member => nomatch member)⟩
  | cons edge edges ih =>
    have found := stored.docs edge List.mem_cons_self
    obtain ⟨belongs, opened⟩ := closable edge List.mem_cons_self
    have others : ∀ other ∈ edges, kind other ∧ other.invalidAt = none :=
      fun other member => closable other (List.mem_cons_of_mem _ member)
    refine Ensures.bind (does_entityNameOrEmpty edge.targetEntityId) ?_ ?_
    · rintro name middle ⟨rfl, oldTarget, same, described⟩
      obtain rfl := Except.ok.inj same
      split
      · refine Database.bind_clock trivial fun now => ?_
        refine (does_updateEdge_invalidate found opened episode.id now).bind_attempt ?_
        rintro outcome final (⟨_, rfl⟩ | ⟨faulty, rfl⟩)
        · have head := Closing.put found belongs opened episode.id now
          refine (ih (stored.put_head _) others).mono ?_
          rintro outcome final ⟨ok, rest, closes⟩
          refine ⟨ok, head.trans rest, fun sound other member differs => ?_⟩
          rcases List.mem_cons.mp member with rfl | later
          · exact rest.isClosed (isClosed_put other episode.id now)
          · exact closes sound other later ((head.nameDiffers_iff unicode rel other).mpr differs)
        · refine (ih stored.tail others).mono ?_
          rintro outcome final ⟨ok, rest, _⟩
          exact ⟨ok, rest, fun sound => absurd faulty sound⟩
      · rename_i sameName
        refine (ih stored.tail others).mono ?_
        rintro outcome final ⟨ok, rest, closes⟩
        refine ⟨ok, rest, fun sound other member differs => ?_⟩
        rcases List.mem_cons.mp member with rfl | later
        · refine absurd ?_ sameName
          rw [described sound]
          exact differs
        · exact closes sound other later differs
    · rintro error middle ⟨rfl, name, impossible, _⟩
      cases impossible

/-! ## Storing the new edge -/

/-- A new edge is stored under an unused identifier and entered into the list of its source. -/
structure FactStored (edge : Edge) (before after : MemoryContents) : Prop where
  unused : before.docs (.edge edge.id) = none
  stored : after.docs (.edge edge.id) = some edge
  others : ∀ key, key ≠ .edge edge.id → after.docs key = before.docs key
  source : after.sets (.adjOut edge.sourceEntityId) =
    (before.sets (.adjOut edge.sourceEntityId)).insert edge.id (timestampMillis edge.validAt)
  lists : ∀ entityId, entityId ≠ edge.sourceEntityId →
    after.sets (.adjOut entityId) = before.sets (.adjOut entityId)
  issued : after.issued = edge.id :: before.issued

theorem Filed.unused (filed : Filed contents) {id : Uuid} (fresh : id ∉ contents.issued) :
    contents.docs (.edge id) = none := by
  cases found : (contents.docs (.edge id) : Option Edge) with
  | none => rfl
  | some edge => exact absurd (filed id edge found).2 fresh

theorem Filed.putNew (filed : Filed contents) (edge : Edge) :
    Filed ((contents.draw edge.id).put (.edge edge.id) edge) := by
  intro id other found
  rcases eq_or_ne id edge.id with rfl | different
  · rw [Database.Contents.docs_put_self] at found
    obtain rfl := Option.some.inj found
    exact ⟨rfl, List.mem_cons_self⟩
  · rw [Database.Contents.docs_put_of_ne _ (by simpa using different)] at found
    exact ⟨(filed id other found).1, List.mem_cons_of_mem _ (filed id other found).2⟩

/-- At most identifiers have been drawn. -/
structure SameStore (before after : MemoryContents) : Prop where
  docs : after.docs = before.docs
  sets : after.sets = before.sets
  issued : before.issued ⊆ after.issued

/-- The edge which a relationship asserts for an episode. -/
abbrev factEdge (episode : Episode) (rel : ExtractedRelationship)
    (sourceId targetId id : Uuid) (now : DateTime) : Edge :=
  Edge.fromExtraction rel episode.userId sourceId targetId episode.id episode.createdAt
    episode.agentId id now

theorem does_createEdge (unicode : Unicode) {edge : Edge} (filed : Filed contents)
    (fresh : edge.id ∉ contents.issued) (opened : edge.invalidAt = none) :
    Does allowed (fun outcome final => Filed final ∧ (¬ Faulty allowed →
        outcome = .ok edge ∧ validateEdgeLabel unicode edge.label = .ok () ∧
            FactStored edge contents final ∨
          (∃ error, outcome = .error error) ∧ validateEdgeLabel unicode edge.label ≠ .ok () ∧
            SameStore contents final))
      (createEdge unicode edge) (contents.draw edge.id) := by
  have drawn : Filed (contents.draw edge.id) :=
    fun id other found => ⟨(filed id other found).1, List.mem_cons_of_mem _ (filed id other found).2⟩
  have put := filed.putNew edge
  unfold createEdge
  cases valid : validateEdgeLabel unicode edge.label with
  | error reason =>
    refine .fail ⟨drawn, fun _ => .inr ⟨⟨_, rfl⟩, by simp, rfl, rfl, fun _ member => ?_⟩⟩
    exact List.mem_cons_of_mem _ member
  | ok value =>
    refine Database.bind_set (.inl ⟨rfl, filed.unused fresh, opened⟩) ?_
      fun error faulty => ⟨drawn, fun sound => absurd faulty sound⟩
    refine Database.bind_zadd trivial ?_
      fun error faulty => ⟨put, fun sound => absurd faulty sound⟩
    refine Database.bind_zadd trivial ?_
      fun error faulty => ⟨put, fun sound => absurd faulty sound⟩
    refine Database.bind_zadd trivial ?_
      fun error faulty => ⟨put, fun sound => absurd faulty sound⟩
    refine .done ⟨put, fun _ => .inl ⟨rfl, rfl, filed.unused fresh, ?_, ?_, ?_, ?_, rfl⟩⟩
    · exact Database.Contents.docs_put_self _ _ _
    · exact fun key other => Database.Contents.docs_put_of_ne _ other _
    · simp
    · intro entityId other
      simp [other]

/-- The edge of a relationship is stored, provided that its label is valid. -/
def Added (unicode : Unicode) (episode : Episode) (rel : ExtractedRelationship)
    (sourceId targetId : Uuid) (before after : MemoryContents) : Prop :=
  validateEdgeLabel unicode rel.label = .ok () ∧
      (∃ id now, FactStored (factEdge episode rel sourceId targetId id now) before after) ∨
    validateEdgeLabel unicode rel.label ≠ .ok () ∧ SameStore before after

theorem does_storeFact (unicode : Unicode) (episode : Episode) (rel : ExtractedRelationship)
    (sourceId targetId : Uuid) (filed : Filed contents) :
    Does allowed (fun _ final => Filed final ∧ (¬ Faulty allowed →
        Added unicode episode rel sourceId targetId contents final))
      (storeFact unicode episode rel sourceId targetId) contents := by
  refine Database.bind_clock trivial fun now => ?_
  refine Database.bind_freshId trivial fun id fresh => ?_
  refine Ensures.bind (does_createEdge unicode filed (by exact fresh) rfl) ?_ ?_
  · rintro created middle ⟨kept, described⟩
    have added (sound : ¬ Faulty allowed) :
        Added unicode episode rel sourceId targetId contents middle := by
      rcases described sound with ⟨_, valid, stored⟩ | ⟨⟨error, impossible⟩, _⟩
      · exact .inl ⟨valid, id, now, stored⟩
      · cases impossible
    refine Database.bind_service trivial (fun _ => ?_) fun _ => ⟨kept, added⟩
    refine Database.bind_service trivial (fun _ => ?_) fun _ => ⟨kept, added⟩
    exact .done ⟨kept, added⟩
  · rintro error middle ⟨kept, described⟩
    refine ⟨kept, fun sound => ?_⟩
    rcases described sound with ⟨impossible, _⟩ | ⟨_, invalid, same⟩
    · cases impossible
    · exact .inr ⟨invalid, same⟩

/-! ## The whole of a relationship -/

/-- The edges that the processing of a relationship may close. -/
def Superseded (contents : MemoryContents) (episode : Episode) (rel : ExtractedRelationship)
    (sourceId : Uuid) (edge : Edge) : Prop :=
  edge ∈ outgoing contents sourceId ∧ edge.label = rel.label ∧ edge.userId = episode.userId

theorem Closing.mem_outgoing {kind : Edge → Prop} {before after : MemoryContents}
    (closing : Closing kind before after) {entityId : Uuid} {edge : Edge}
    (member : edge ∈ outgoing after entityId) (opened : edge.invalidAt = none) :
    edge ∈ outgoing before entityId := by
  obtain ⟨id, listed, found⟩ := List.mem_filterMap.mp member
  rw [closing.sets] at listed
  refine List.mem_filterMap.mpr ⟨id, listed, ?_⟩
  rcases closing.edges id with same | ⟨old, episodeId, now, _, _, _, closed⟩
  · exact same.symm.trans found
  · obtain rfl : edge = old.invalidate episodeId now :=
      Option.some.inj (found.symm.trans closed)
    cases opened

theorem Closing.isClosed_or_mem {kind : Edge → Prop} {before after : MemoryContents}
    (closing : Closing kind before after) (filed : Filed before) {entityId : Uuid} {edge : Edge}
    (member : edge ∈ outgoing before entityId) :
    IsClosed after edge ∨ edge ∈ outgoing after entityId := by
  obtain ⟨id, listed, found⟩ := List.mem_filterMap.mp member
  obtain rfl : edge.id = id := (filed id edge found).1
  rcases closing.edges edge.id with same | ⟨old, episodeId, now, _, _, _, closed⟩
  · refine .inr (List.mem_filterMap.mpr ⟨edge.id, ?_, same.trans found⟩)
    rw [closing.sets]
    exact listed
  · exact .inl ⟨_, closed, rfl⟩

/-- What the processing of a relationship does in an environment without faults: it closes what
was read and is superseded, and stores the new edge if its label is valid. -/
def Supersedes (unicode : Unicode) (episode : Episode) (rel : ExtractedRelationship)
    (sourceId targetId : Uuid) (before after : MemoryContents) : Prop :=
  ∃ middle, Closing (Superseded before episode rel sourceId) before middle ∧
    (∀ edge, Superseded before episode rel sourceId edge → edge.invalidAt = none →
      edge.targetEntityId = targetId ∨ NameDiffers unicode before rel edge →
        IsClosed middle edge) ∧
    Added unicode episode rel sourceId targetId middle after

theorem does_outgoingOrNone (entityId : Uuid) :
    Does allowed (fun outcome final => final = contents ∧ ∃ edges, outcome = .ok edges ∧
        (edges = outgoing contents entityId ∨ Faulty allowed ∧ edges = []))
      (outgoingOrNone entityId) contents := by
  refine (reads_getOutgoingEdges entityId).bind_attempt ?_
  rintro outcome final ⟨rfl, rfl | ⟨faulty, error, rfl⟩⟩
  · exact .done ⟨rfl, _, rfl, .inl rfl⟩
  · exact .done ⟨rfl, _, rfl, .inr ⟨faulty, rfl⟩⟩

theorem closed_of_superseded {unicode : Unicode} {episode : Episode} {rel : ExtractedRelationship}
    {sourceId targetId : Uuid} {first second : MemoryContents} (filed : Filed contents)
    {kind : Edge → Prop} (one : Closing kind contents first) (two : Closing kind first second)
    (conflicts : ∀ edge ∈ outgoing contents sourceId, edge.targetEntityId = targetId →
      edge.label = rel.label → edge.userId = episode.userId → edge.invalidAt = none →
        IsClosed first edge)
    (changes : ∀ edge ∈ outgoing first sourceId, isBeliefChange episode rel targetId edge = true →
      NameDiffers unicode first rel edge → IsClosed second edge)
    {edge : Edge} (superseded : Superseded contents episode rel sourceId edge)
    (opened : edge.invalidAt = none)
    (found : edge.targetEntityId = targetId ∨ NameDiffers unicode contents rel edge) :
    IsClosed second edge := by
  obtain ⟨member, label, user⟩ := superseded
  rcases eq_or_ne edge.targetEntityId targetId with target | other
  · exact two.isClosed (conflicts edge member target label user opened)
  · rcases one.isClosed_or_mem filed member with closed | still
    · exact two.isClosed closed
    · have differs := found.resolve_left other
      refine changes edge still ?_ ((one.nameDiffers_iff unicode rel edge).mpr differs)
      simp [isBeliefChange, label, user, other, Edge.isValid, opened]

theorem does_processFact (unicode : Unicode) (episode : Episode) (rel : ExtractedRelationship)
    (sourceId targetId : Uuid) (filed : Filed contents) :
    Does allowed (fun _ final => Filed final ∧ (¬ Faulty allowed →
        Supersedes unicode episode rel sourceId targetId contents final))
      (processFact unicode episode rel sourceId targetId) contents := by
  refine (reads_findConflictingEdges _ _ _ _).bind ?_
    fun error faulty => ⟨filed, fun sound => absurd faulty sound⟩
  have conflicts := (stored_outgoing filed sourceId).filter fun edge =>
    edge.targetEntityId == targetId && edge.label == rel.label && edge.userId == episode.userId &&
      edge.isValid
  have closable (edge : Edge) (member : edge ∈ (outgoing contents sourceId).filter fun edge =>
      edge.targetEntityId == targetId && edge.label == rel.label &&
        edge.userId == episode.userId && edge.isValid) :
      Superseded contents episode rel sourceId edge ∧ edge.invalidAt = none := by
    obtain ⟨read, matching⟩ := List.mem_filter.mp member
    simp only [Bool.and_eq_true, beq_iff_eq, Edge.isValid_iff] at matching
    obtain ⟨⟨⟨_, label⟩, user⟩, opened⟩ := matching
    exact ⟨⟨read, label, user⟩, opened⟩
  refine Ensures.bind (does_invalidateEdges episode conflicts closable) ?_ ?_
  · rintro _ first ⟨one, closes, _⟩
    have firstFiled := one.filed filed
    refine (does_outgoingOrNone sourceId).bind ?_ ?_
    · rintro edges middle ⟨rfl, read, same, described⟩
      obtain rfl := Except.ok.inj same
      have stored : Stored middle edges := by
        rcases described with rfl | ⟨_, rfl⟩
        · exact stored_outgoing firstFiled sourceId
        · exact ⟨List.nodup_nil, (fun _ member => by cases member)⟩
      have readBefore : ∀ edge ∈ edges, edge ∈ outgoing middle sourceId := by
        rcases described with rfl | ⟨_, rfl⟩
        · exact fun _ member => member
        · exact fun _ member => by cases member
      have changeable (edge : Edge)
          (member : edge ∈ edges.filter (isBeliefChange episode rel targetId)) :
          Superseded contents episode rel sourceId edge ∧ edge.invalidAt = none := by
        obtain ⟨member, changing⟩ := List.mem_filter.mp member
        simp only [isBeliefChange, Bool.and_eq_true, beq_iff_eq, bne_iff_ne,
          Edge.isValid_iff] at changing
        obtain ⟨⟨⟨label, user⟩, opened⟩, _⟩ := changing
        exact ⟨⟨one.mem_outgoing (readBefore edge member) opened, label, user⟩, opened⟩
      refine Ensures.bind (does_supersedeOthers unicode episode rel
        (stored.filter (isBeliefChange episode rel targetId)) changeable) ?_ ?_
      · rintro _ second ⟨_, two, supersedes⟩
        refine (does_storeFact unicode episode rel sourceId targetId
          (two.filed firstFiled)).mono ?_
        rintro outcome final ⟨kept, added⟩
        refine ⟨kept, fun sound => ⟨second, one.trans two, ?_, added sound⟩⟩
        · intro edge superseded opened found
          refine closed_of_superseded filed one two ?_ ?_ superseded opened found
          · intro edge member target label user opened
            refine closes rfl edge (List.mem_filter.mpr ⟨member, ?_⟩)
            simp [target, label, user, Edge.isValid, opened]
          · intro edge member changing differs
            refine supersedes sound edge (List.mem_filter.mpr ⟨?_, changing⟩) differs
            rcases described with rfl | ⟨faulty, _⟩
            · exact member
            · exact absurd faulty sound
      · rintro error second ⟨impossible, _⟩
        cases impossible
    · rintro error middle ⟨rfl, edges, impossible, _⟩
      cases impossible
  · rintro error first ⟨one, _, succeeds⟩
    exact ⟨one.filed filed, fun sound => by cases succeeds sound⟩

end Programs

/-! ## Programs that stay away from edges -/

theorem AwayFromEdges.of_readOnly {command : MemoryCommand} (reads : command.readOnly = true) :
    AwayFromEdges command := by
  cases command with
  | set key doc => cases reads
  | del key => cases reads
  | zadd index member score => cases reads
  | zrem index member => cases reads
  | zdel index => cases reads
  | _ => trivial

section Away

variable (unicode : Unicode) (fallback : String → Option ExtractionResult)

/-- The program stays away from edges and their adjacency lists. -/
abbrev Away {α : Type} (program : MemoryProgram α) : Prop := Performs AwayFromEdges program

/-- The program only reads and asks services. -/
abbrev OnlyReads {α : Type} (program : MemoryProgram α) : Prop :=
  Performs (fun command => command.readOnly = true) program

theorem does_of_onlyReads {allowed : MemoryInput → Prop} {α : Type} {program : MemoryProgram α}
    (reads : OnlyReads program) (contents : MemoryContents) :
    Does allowed (fun _ final => final = contents) program contents :=
  (reads.ensures (fun _ => rfl)
    (fun _ state readOnly => (AwayFromEdges.of_readOnly readOnly).handles state)
    (fun _ input _ last readOnly same =>
      same.trans (Database.exec_readOnly readOnly input last).symm) contents).mono
    fun _ _ same => same.symm

theorem onlyReads_get (key : MemoryKey) : OnlyReads (Redis.get key) :=
  Performs.call (Command.get key : MemoryCommand) rfl

theorem onlyReads_now : OnlyReads Redis.now := Performs.call (Command.clock : MemoryCommand) rfl

theorem onlyReads_ask (service : MemoryService) : OnlyReads (Redis.ask service) :=
  Performs.call (Command.service service : MemoryCommand) rfl

theorem onlyReads_getAll {Item : Type} {read : Uuid → MemoryProgram (Option Item)}
    (reads : ∀ id, OnlyReads (read id)) (ids : List Uuid) : OnlyReads (getAll read ids) := by
  induction ids with
  | nil => exact .done
  | cons id ids ih => exact (reads id).bind fun _ => ih.bind fun _ => .done

theorem onlyReads_listEntities (userId : Uuid) (limit : Nat) :
    OnlyReads (listEntities userId limit none) := by
  have page : OnlyReads (pageIds (.userEntities userId) limit none) :=
    Performs.call (Command.zrevrange (.userEntities userId) 0 _ : MemoryCommand) rfl
  exact page.bind fun ids => onlyReads_getAll (fun id => onlyReads_get (.entity id)) ids

theorem onlyReads_extract (episode : Episode) :
    OnlyReads (extract fallback episode) := by
  refine (onlyReads_listEntities episode.userId 100).bind fun existing => ?_
  refine (onlyReads_ask _).bind fun extraction => ?_
  split
  · exact .done
  · exact .done

theorem onlyReads_findEntityByName (userId : Uuid) (name : String) :
    OnlyReads (findEntityByName unicode userId name) := by
  refine (onlyReads_get _).bind fun found => ?_
  cases found with
  | none => exact .done
  | some id =>
    have required : OnlyReads (getEntity id) := by
      refine (onlyReads_get _).bind fun stored => ?_
      cases stored with
      | none => exact .fail
      | some entity => exact .done
    exact required.bind fun _ => .done

theorem onlyReads_withSummary (entity : Entity) (summary : Option String) :
    OnlyReads (withSummary entity summary) := by
  cases summary with
  | none => exact .done
  | some text => exact onlyReads_now.bind fun _ => .done

/-- A command that writes an entity, enters it into an index, reads, or draws an identifier. -/
def WritesEntities : MemoryCommand → Prop
  | .set (.entity _) _ | .set (.entityName _ _) _ | .zadd (.userEntities _) _ _ | .freshId => True
  | command => command.readOnly = true

theorem WritesEntities.of_readOnly {command : MemoryCommand} (reads : command.readOnly = true) :
    WritesEntities command := by
  cases command with
  | set key doc => cases reads
  | zadd index member score => cases reads
  | freshId => trivial
  | _ => exact reads

theorem WritesEntities.awayFromEdges {command : MemoryCommand} (writes : WritesEntities command) :
    AwayFromEdges command := by
  unfold WritesEntities at writes
  split at writes
  · trivial
  · trivial
  · trivial
  · trivial
  · exact AwayFromEdges.of_readOnly writes

theorem OnlyReads.writesEntities {α : Type} {program : MemoryProgram α}
    (reads : OnlyReads program) : Performs WritesEntities program :=
  reads.mono fun _ => WritesEntities.of_readOnly

theorem performs_createEntity (entity : Entity) :
    Performs WritesEntities (createEntity unicode entity) := by
  have entry : Performs WritesEntities (Redis.zadd (.userEntities entity.userId) entity.id
      (timestampMillis entity.createdAt)) :=
    Performs.call (Command.zadd _ _ _ : MemoryCommand) trivial
  have name : Performs WritesEntities
      (Redis.set (.entityName entity.userId (unicode.toLowercase entity.name)) entity.id) :=
    Performs.call (Command.set (.entityName _ _) _ : MemoryCommand) trivial
  have doc : Performs WritesEntities (Redis.set (.entity entity.id) entity) :=
    Performs.call (Command.set (.entity _) _ : MemoryCommand) trivial
  exact doc.bind fun _ => entry.bind fun _ => name.bind fun _ => .done

theorem performs_resolveEntity (episode : Episode) (extracted : ExtractedEntity) :
    Performs WritesEntities (resolveEntity unicode episode extracted) := by
  refine (onlyReads_findEntityByName unicode _ _).writesEntities.bind fun existing => ?_
  cases existing with
  | some entity =>
    refine onlyReads_now.writesEntities.bind fun now => ?_
    refine (onlyReads_withSummary _ _).writesEntities.bind fun updated => ?_
    have stores : Performs WritesEntities (updateEntity updated) :=
      Performs.call (Command.set (.entity _) _ : MemoryCommand) trivial
    exact stores.bind fun _ => .done
  | none =>
    refine onlyReads_now.writesEntities.bind fun now => ?_
    have draws : Performs WritesEntities Redis.newId :=
      Performs.call (Command.freshId : MemoryCommand) trivial
    refine draws.bind fun id => (performs_createEntity unicode _).bind fun created => ?_
    exact (onlyReads_ask _).writesEntities.bind fun _ =>
      (onlyReads_ask _).writesEntities.bind fun _ => .done

theorem performs_resolveEntities (episode : Episode) (extracted : List ExtractedEntity)
    (names : NameMap) (newIds : List Uuid) :
    Performs WritesEntities (resolveEntities unicode episode extracted names newIds) := by
  induction extracted generalizing names newIds with
  | nil => exact .done
  | cons head rest ih => exact (performs_resolveEntity unicode episode head).bind fun _ => ih _ _

theorem away_resolveEntities (episode : Episode) (extracted : List ExtractedEntity)
    (names : NameMap) (newIds : List Uuid) :
    Away (resolveEntities unicode episode extracted names newIds) :=
  (performs_resolveEntities unicode episode extracted names newIds).mono
    fun _ => WritesEntities.awayFromEdges

end Away

end Ingest
end Mnemo
