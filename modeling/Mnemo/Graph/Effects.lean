import Mnemo.Graph.Editors

/-!
# What editors do to the stored records

An allowed command stores one edge or one entity, or leaves all of them as they are.  Copies are of
stored records, and nothing is stored under drawn identifiers until their editor stores it.
-/

namespace Mnemo
namespace Graph

open Memory
open Database (exec)

/-- Edges and entities are stored under their own identifiers, which were drawn. -/
structure Filed (contents : MemoryContents) : Prop where
  edges : Ingest.Filed contents
  entities : ∀ id (entity : Entity), contents.docs (.entity id) = some entity →
    entity.id = id ∧ id ∈ contents.issued

/-- The stored edges and entities are the same. -/
structure SameRecords (before after : MemoryContents) : Prop where
  edges : ∀ id, after.docs (.edge id) = before.docs (.edge id)
  entities : ∀ id, after.docs (.entity id) = before.docs (.entity id)
  issued : before.issued ⊆ after.issued

theorem SameRecords.refl (contents : MemoryContents) : SameRecords contents contents :=
  ⟨fun _ => rfl, fun _ => rfl, fun _ drawn => drawn⟩

theorem SameRecords.filed {before after : MemoryContents} (same : SameRecords before after)
    (filed : Filed before) : Filed after := by
  constructor
  · intro id edge found
    rw [same.edges] at found
    exact ⟨(filed.edges id edge found).1, same.issued (filed.edges id edge found).2⟩
  · intro id entity found
    rw [same.entities] at found
    exact ⟨(filed.entities id entity found).1, same.issued (filed.entities id entity found).2⟩

/-- What an allowed command does: it leaves the records as they are, or the editor stores an edge
or an entity. -/
inductive Effect (knowledge : Knowledge) (before : MemoryContents) (command : MemoryCommand)
    (input : MemoryInput) (after : MemoryContents) : Prop
  | kept (same : SameRecords before after)
  | edge {id : Uuid} {edge : Edge} (isSet : command = .set (.edge id) edge)
      (calm : input.failure = none) (writes : knowledge.WritesEdge id edge)
      (stored : after = before.put (.edge id) edge)
  | entity {id : Uuid} {entity : Entity} (isSet : command = .set (.entity id) entity)
      (calm : input.failure = none) (writes : knowledge.WritesEntity id entity)
      (stored : after = before.put (.entity id) entity)

theorem effect_of_allows {knowledge : Knowledge} {command : MemoryCommand}
    (allows : knowledge.Allows command) (input : MemoryInput) (contents : MemoryContents) :
    Effect knowledge contents command input (exec command input contents).2 := by
  unfold Database.exec
  split
  · exact .kept (.refl contents)
  · rename_i succeeds
    have calm (fallible : command.fallible = true) : input.failure = none := by
      cases failure : input.failure with
      | none => rfl
      | some error => exact (succeeds error failure fallible).elim
    cases command with
    | set key doc =>
      cases key with
      | edge id => exact .edge rfl (calm rfl) allows rfl
      | entity id => exact .entity rfl (calm rfl) allows rfl
      | _ =>
        exact .kept ⟨fun _ => Database.Contents.docs_put_of_ne _ (by simp) _,
          fun _ => Database.Contents.docs_put_of_ne _ (by simp) _, fun _ drawn => drawn⟩
    | del key =>
      cases key with
      | edge id => exact allows.elim
      | entity id => exact allows.elim
      | _ =>
        exact .kept ⟨fun _ => Database.Contents.docs_remove_of_ne _ (by simp),
          fun _ => Database.Contents.docs_remove_of_ne _ (by simp), fun _ drawn => drawn⟩
    | freshId =>
      exact .kept ⟨fun _ => rfl, fun _ => rfl, fun _ drawn => List.mem_cons_of_mem _ drawn⟩
    | _ => exact .kept ⟨fun _ => rfl, fun _ => rfl, fun _ drawn => drawn⟩

/-! ## Copies and drawn identifiers -/

/-- What an editor knows of the stored records. -/
structure Informed (knowledge : Knowledge) (contents : MemoryContents) : Prop where
  edges : ∀ id copy, knowledge.edges id = some copy →
    copy.id = id ∧ contents.docs (.edge id) ≠ none
  entities : ∀ id copy, knowledge.entities id = some copy →
    copy.id = id ∧ contents.docs (.entity id) ≠ none
  drawn : ∀ id ∈ knowledge.drawn, id ∈ contents.issued ∧
    contents.docs (.edge id) = none ∧ contents.docs (.entity id) = none

namespace Informed

variable {knowledge : Knowledge} {contents : MemoryContents}

theorem initial (editor : Editor) (contents : MemoryContents) :
    Informed (.initial editor) contents :=
  ⟨(fun _ _ found => nomatch found), (fun _ _ found => nomatch found),
    (fun _ member => nomatch member)⟩

theorem of_sameRecords {after : MemoryContents} (informed : Informed knowledge contents)
    (same : SameRecords contents after) : Informed knowledge after := by
  refine ⟨fun id copy found => ?_, fun id copy found => ?_, fun id member => ?_⟩
  · rw [same.edges]
    exact informed.edges id copy found
  · rw [same.entities]
    exact informed.entities id copy found
  · rw [same.edges, same.entities]
    exact ⟨same.issued (informed.drawn id member).1, (informed.drawn id member).2⟩

theorem putEdge {id : Uuid} (informed : Informed knowledge contents) (unused : id ∉ knowledge.drawn)
    (edge : Edge) : Informed knowledge (contents.put (.edge id) edge) := by
  refine ⟨fun other copy found => ?_, fun other copy found => ?_, fun other member => ?_⟩
  · refine ⟨(informed.edges other copy found).1, ?_⟩
    rcases eq_or_ne other id with rfl | different
    · rw [Database.Contents.docs_put_self]
      exact Option.some_ne_none _
    · rw [Database.Contents.docs_put_of_ne _ (by simpa using different)]
      exact (informed.edges other copy found).2
  · rw [Database.Contents.docs_put_of_ne _ (by simp)]
    exact informed.entities other copy found
  · have different : other ≠ id := fun same => unused (same ▸ member)
    rw [Database.Contents.docs_put_of_ne _ (by simpa using different),
      Database.Contents.docs_put_of_ne _ (by simp)]
    exact informed.drawn other member

theorem putEntity {id : Uuid} (informed : Informed knowledge contents)
    (unused : id ∉ knowledge.drawn) (entity : Entity) :
    Informed knowledge (contents.put (.entity id) entity) := by
  refine ⟨fun other copy found => ?_, fun other copy found => ?_, fun other member => ?_⟩
  · rw [Database.Contents.docs_put_of_ne _ (by simp)]
    exact informed.edges other copy found
  · refine ⟨(informed.entities other copy found).1, ?_⟩
    rcases eq_or_ne other id with rfl | different
    · rw [Database.Contents.docs_put_self]
      exact Option.some_ne_none _
    · rw [Database.Contents.docs_put_of_ne _ (by simpa using different)]
      exact (informed.entities other copy found).2
  · have different : other ≠ id := fun same => unused (same ▸ member)
    rw [Database.Contents.docs_put_of_ne _ (by simp),
      Database.Contents.docs_put_of_ne _ (by simpa using different)]
    exact informed.drawn other member

theorem use (informed : Informed knowledge contents) (id : Uuid) :
    Informed (knowledge.use id) contents :=
  ⟨informed.edges, informed.entities, fun other member =>
    informed.drawn other (List.mem_of_mem_filter member)⟩

theorem notMem_use (knowledge : Knowledge) (id : Uuid) : id ∉ (knowledge.use id).drawn := by
  simp [Knowledge.use]

theorem issued_edge (informed : Informed knowledge contents) (filed : Filed contents) {id : Uuid}
    {edge : Edge} (writes : knowledge.WritesEdge id edge) : id ∈ contents.issued := by
  cases writes with
  | revised copied revises own =>
    obtain ⟨stored, found⟩ := Option.ne_none_iff_exists'.mp (informed.edges id _ copied).2
    exact (filed.edges id stored found).2
  | new fresh isOpen own => exact (informed.drawn id fresh).1

theorem issued_entity (informed : Informed knowledge contents) (filed : Filed contents) {id : Uuid}
    {entity : Entity} (writes : knowledge.WritesEntity id entity) : id ∈ contents.issued := by
  cases writes with
  | revised copied revises own =>
    obtain ⟨stored, found⟩ := Option.ne_none_iff_exists'.mp (informed.entities id _ copied).2
    exact (filed.entities id stored found).2
  | new fresh own => exact (informed.drawn id fresh).1

end Informed

theorem Knowledge.WritesEdge.own_eq {knowledge : Knowledge} {id : Uuid} {edge : Edge}
    (writes : knowledge.WritesEdge id edge) : edge.id = id := by
  cases writes <;> assumption

theorem Knowledge.WritesEntity.own_eq {knowledge : Knowledge} {id : Uuid} {entity : Entity}
    (writes : knowledge.WritesEntity id entity) : entity.id = id := by
  cases writes <;> assumption

section Commands

variable {knowledge : Knowledge} {command : MemoryCommand} {contents : MemoryContents}

theorem Filed.exec (filed : Filed contents) (informed : Informed knowledge contents)
    (allows : knowledge.Allows command) (input : MemoryInput) :
    Filed (exec command input contents).2 := by
  cases effect_of_allows allows input contents with
  | kept same => exact same.filed filed
  | edge isSet calm writes stored =>
    rename_i id edge
    rw [stored]
    refine ⟨fun other found doc => ?_, fun other found doc => ?_⟩
    · rcases eq_or_ne other id with rfl | different
      · rw [Database.Contents.docs_put_self] at doc
        obtain rfl := Option.some.inj doc
        exact ⟨writes.own_eq, informed.issued_edge filed writes⟩
      · rw [Database.Contents.docs_put_of_ne _ (by simpa using different)] at doc
        exact filed.edges other found doc
    · rw [Database.Contents.docs_put_of_ne _ (by simp)] at doc
      exact filed.entities other found doc
  | entity isSet calm writes stored =>
    rename_i id entity
    rw [stored]
    refine ⟨fun other found doc => ?_, fun other found doc => ?_⟩
    · rw [Database.Contents.docs_put_of_ne _ (by simp)] at doc
      exact filed.edges other found doc
    · rcases eq_or_ne other id with rfl | different
      · rw [Database.Contents.docs_put_self] at doc
        obtain rfl := Option.some.inj doc
        exact ⟨writes.own_eq, informed.issued_entity filed writes⟩
      · rw [Database.Contents.docs_put_of_ne _ (by simpa using different)] at doc
        exact filed.entities other found doc

theorem expects_exec (filed : Filed contents) (command : MemoryCommand) (input : MemoryInput) :
    Expects command (Database.exec command input contents).1 := by
  unfold Database.exec
  split
  · cases command with
    | get key => cases key <;> trivial
    | _ => trivial
  · cases command with
    | get key =>
      cases key with
      | edge id => exact fun edge found => (filed.edges id edge found).1
      | entity id => exact fun entity found => (filed.entities id entity found).1
      | _ => trivial
    | zrevrange index start stop => exact SortedSet.nodup_revRange _ _ _
    | _ => trivial

theorem drawn_learn (knowledge : Knowledge) (command : MemoryCommand) (input : MemoryInput)
    (contents : MemoryContents) {id : Uuid}
    (member : id ∈ (knowledge.learn command (Database.exec command input contents).1).drawn) :
    id ∈ knowledge.drawn ∨ id ∉ contents.issued := by
  unfold Database.exec at member
  split at member
  · left
    cases command with
    | get key => cases key <;> exact member
    | set key doc => cases key <;> exact member
    | _ => exact member
  · cases command with
    | get key => cases key <;> exact .inl member
    | set key doc =>
      cases key with
      | edge other => exact .inl (List.mem_of_mem_filter member)
      | entity other => exact .inl (List.mem_of_mem_filter member)
      | _ => exact .inl member
    | freshId =>
      rcases List.mem_cons.mp member with rfl | old
      · exact .inr (Database.unused_notMem _ _)
      · exact .inl old
    | _ => exact .inl member

theorem Informed.copyEdge (informed : Informed knowledge contents) (filed : Filed contents)
    (id : Uuid) : Informed (knowledge.copyEdge id (contents.docs (.edge id))) contents := by
  refine ⟨fun other copy found => ?_, informed.entities, informed.drawn⟩
  rcases eq_or_ne other id with rfl | different
  · have stored : contents.docs (.edge other) = some copy :=
      (knowledge.edges_copyEdge_self other _).symm.trans found
    refine ⟨(filed.edges other copy stored).1, ?_⟩
    rw [stored]
    exact Option.some_ne_none _
  · rw [knowledge.edges_copyEdge_of_ne different] at found
    exact informed.edges other copy found

theorem Informed.copyEntity (informed : Informed knowledge contents) (filed : Filed contents)
    (id : Uuid) : Informed (knowledge.copyEntity id (contents.docs (.entity id))) contents := by
  refine ⟨informed.edges, fun other copy found => ?_, informed.drawn⟩
  rcases eq_or_ne other id with rfl | different
  · have stored : contents.docs (.entity other) = some copy :=
      (knowledge.entities_copyEntity_self other _).symm.trans found
    refine ⟨(filed.entities other copy stored).1, ?_⟩
    rw [stored]
    exact Option.some_ne_none _
  · rw [knowledge.entities_copyEntity_of_ne different] at found
    exact informed.entities other copy found

theorem Filed.unused (filed : Filed contents) {id : Uuid} (fresh : id ∉ contents.issued) :
    contents.docs (.edge id) = none ∧ contents.docs (.entity id) = none := by
  refine ⟨filed.edges.unused fresh, ?_⟩
  cases found : (contents.docs (.entity id) : Option Entity) with
  | none => rfl
  | some entity => exact absurd (filed.entities id entity found).2 fresh

theorem Informed.draw (informed : Informed knowledge contents) (filed : Filed contents) {id : Uuid}
    (fresh : id ∉ contents.issued) : Informed (knowledge.draw id) (contents.draw id) := by
  refine ⟨informed.edges, informed.entities, fun other member => ?_⟩
  rcases List.mem_cons.mp member with rfl | old
  · exact ⟨List.mem_cons_self, filed.unused fresh⟩
  · exact ⟨List.mem_cons_of_mem _ (informed.drawn other old).1, (informed.drawn other old).2⟩

theorem Informed.exec_self (informed : Informed knowledge contents) (filed : Filed contents)
    (allows : knowledge.Allows command) (input : MemoryInput) :
    Informed (knowledge.learn command (Database.exec command input contents).1)
      (Database.exec command input contents).2 := by
  unfold Database.exec
  split
  · cases command with
    | get key => cases key <;> exact informed
    | set key doc => cases key <;> exact informed
    | _ => exact informed
  · cases command with
    | get key =>
      cases key with
      | edge id => exact informed.copyEdge filed id
      | entity id => exact informed.copyEntity filed id
      | _ => exact informed
    | set key doc =>
      cases key with
      | edge id => exact (informed.use id).putEdge (Informed.notMem_use knowledge id) doc
      | entity id => exact (informed.use id).putEntity (Informed.notMem_use knowledge id) doc
      | _ =>
        refine informed.of_sameRecords ⟨fun _ => ?_, fun _ => ?_, fun _ drawn => drawn⟩
        · exact Database.Contents.docs_put_of_ne _ (by simp) _
        · exact Database.Contents.docs_put_of_ne _ (by simp) _
    | del key =>
      cases key with
      | edge id => exact allows.elim
      | entity id => exact allows.elim
      | _ =>
        refine informed.of_sameRecords ⟨fun _ => ?_, fun _ => ?_, fun _ drawn => drawn⟩
        · exact Database.Contents.docs_remove_of_ne _ (by simp)
        · exact Database.Contents.docs_remove_of_ne _ (by simp)
    | freshId => exact informed.draw filed (Database.unused_notMem _ _)
    | clock => exact ⟨informed.edges, informed.entities, informed.drawn⟩
    | _ => exact informed.of_sameRecords ⟨fun _ => rfl, fun _ => rfl, fun _ drawn => drawn⟩

theorem Informed.exec_other {other : Knowledge} (informed : Informed other contents)
    (mine : Informed knowledge contents) (apart : ∀ id ∈ knowledge.drawn, id ∉ other.drawn)
    (allows : knowledge.Allows command) (input : MemoryInput) :
    Informed other (Database.exec command input contents).2 := by
  cases effect_of_allows allows input contents with
  | kept same => exact informed.of_sameRecords same
  | edge isSet calm writes stored =>
    rename_i id edge
    rw [stored]
    apply informed.putEdge
    intro member
    cases writes with
    | revised copied revises own =>
      exact (mine.edges id _ copied).2 (informed.drawn id member).2.1
    | new fresh isOpen own => exact apart id fresh member
  | entity isSet calm writes stored =>
    rename_i id entity
    rw [stored]
    apply informed.putEntity
    intro member
    cases writes with
    | revised copied revises own =>
      exact (mine.entities id _ copied).2 (informed.drawn id member).2.2
    | new fresh own => exact apart id fresh member

end Commands
/-! ## A store with one fact -/

/-- Letters as they are, and ASCII letters and digits. -/
def plainUnicode : Unicode := ⟨id, Char.isAlphanum⟩

/-- The clock stands at an instant, and nothing fails. -/
def calmAt (now : DateTime) : MemoryInput :=
  { failure := none, now, id := 0, answer := fun _ => .error .unauthorized }

/-- A fact which has been valid from the beginning. -/
def fact : Edge :=
  { id := 1, userId := 7, sourceEntityId := 2, targetEntityId := 3, label := "likes"
    fact := "Kendra likes tea", validAt := 0, invalidAt := none, ingestedAt := 0
    sourceEpisodeId := 4, sourceAgentId := none, invalidatedByEpisodeId := none, confidence := 1
    corroborationCount := 1, classification := .internal, createdAt := 0, updatedAt := 0
    temporalScope := none, accessCount := 0, lastAccessedAt := none }

/-- Nothing but the fact is stored. -/
def factStore : MemoryContents := { emptyMemory with issued := [1] }.put (.edge 1) fact

theorem filed_factStore : Filed factStore := by
  constructor
  · intro id edge found
    rcases eq_or_ne id 1 with rfl | different
    · obtain rfl : fact = edge := Option.some.inj found
      exact ⟨rfl, List.mem_singleton.mpr rfl⟩
    · have absent : (factStore.docs (.edge id) : Option Edge) = none :=
        Database.Contents.docs_put_of_ne _ (by simpa using different) _
      exact nomatch absent.symm.trans found
  · intro id entity found
    have absent : (factStore.docs (.entity id) : Option Entity) = none :=
      Database.Contents.docs_put_of_ne _ (by simp) _
    exact nomatch absent.symm.trans found

end Graph
end Mnemo
