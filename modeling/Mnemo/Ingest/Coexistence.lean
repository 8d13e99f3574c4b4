import Mnemo.Ingest.Bitemporal
import Mnemo.Ingest.Resolution

/-!
# Facts of one extraction

The relationships of an extraction are processed in turn, and each closes the edges that it
supersedes before its own edge is stored.  Among these edges may be those of earlier relationships of
the same extraction.
-/

namespace Mnemo
namespace Ingest

open Memory
open Program (Ensures)
open Database (Faulty)

variable {unicode : Unicode} {allowed : MemoryInput → Prop} {contents : MemoryContents}

/-! ## Environments -/

/-- Nothing fails, and every service answers. -/
structure Calm (allowed : MemoryInput → Prop) : Prop where
  sound : ¬ Faulty allowed
  answers : ∀ input, allowed input → ∀ service, ∃ answer, input.answer service = .ok answer

theorem bind_service_calm {α : Type} {service : MemoryService}
    {next : MemoryAnswer service → MemoryProgram α}
    {post : Except MnemoError α → MemoryContents → Prop}
    (rest : ∀ answer, Does allowed post (next answer) contents)
    (fails : ∀ error, ¬ Calm allowed → post (.error error) contents) :
    Does allowed post (Redis.ask service >>= next) contents := by
  refine Database.bind_fallible (Database.Command.service service : MemoryCommand) rfl trivial
    (fun input admissible => ?_) fun error faulty => fails error fun calm => calm.sound faulty
  cases answered : input.answer service with
  | ok answer =>
    simp only [Database.perform, answered]
    exact rest answer
  | error error =>
    simp only [Database.perform, answered]
    refine .fail (fails error fun calm => ?_)
    obtain ⟨answer, impossible⟩ := calm.answers input admissible service
    rw [answered] at impossible
    cases impossible

/-! ## One relationship, whatever fails -/

/-- A new edge is stored; the store may fail before it has been listed. -/
structure FactKept (edge : Edge) (before after : MemoryContents) : Prop where
  unused : before.docs (.edge edge.id) = none
  fresh : edge.id ∉ before.issued
  stored : after.docs (.edge edge.id) = some edge
  others : ∀ key, key ≠ .edge edge.id → after.docs key = before.docs key
  lists : ∀ entityId, after.sets (.adjOut entityId) = before.sets (.adjOut entityId) ∨
    entityId = edge.sourceEntityId ∧ after.sets (.adjOut entityId) =
      (before.sets (.adjOut entityId)).insert edge.id (timestampMillis edge.validAt)
  issued : after.issued = edge.id :: before.issued

theorem does_createEdge_any {edge : Edge} (filed : Filed contents)
    (fresh : edge.id ∉ contents.issued) (opened : edge.invalidAt = none) :
    Does allowed (fun outcome final =>
        (SameStore contents final ∧ (∃ error, outcome = .error error) ∨
          FactKept edge contents final) ∧
        (∀ created, outcome = .ok created →
          created = edge ∧ validateEdgeLabel unicode edge.label = .ok ()) ∧
        (Calm allowed → validateEdgeLabel unicode edge.label = .ok () →
          ∃ created, outcome = .ok created))
      (createEdge unicode edge) (contents.draw edge.id) := by
  have unused := filed.unused fresh
  have put : FactKept edge contents ((contents.draw edge.id).put (.edge edge.id) edge) :=
    { unused, fresh
      stored := Database.Contents.docs_put_self _ _ _
      others := fun key other => Database.Contents.docs_put_of_ne _ other _
      lists := fun _ => .inl rfl
      issued := rfl }
  have listed (index : MemoryIndex) (score : Int) (middle : MemoryContents)
      (kept : FactKept edge contents middle) (other : ∀ entityId, index ≠ .adjOut entityId) :
      FactKept edge contents (middle.withSet index ((middle.sets index).insert edge.id score)) :=
    { kept with
      lists := fun entityId => by
        rw [Database.Contents.sets_withSet_of_ne _ (other entityId).symm]
        exact kept.lists entityId }
  have stops (error : MnemoError) (middle : MemoryContents)
      (kept : SameStore contents middle ∨ FactKept edge contents middle)
      (reason : validateEdgeLabel unicode edge.label = .ok () → Faulty allowed) :
      (SameStore contents middle ∧
        (∃ other, (.error error : Except MnemoError Edge) = .error other) ∨
          FactKept edge contents middle) ∧
        (∀ created, (.error error : Except MnemoError Edge) = .ok created →
          created = edge ∧ validateEdgeLabel unicode edge.label = .ok ()) ∧
        (Calm allowed → validateEdgeLabel unicode edge.label = .ok () →
          ∃ created, (.error error : Except MnemoError Edge) = .ok created) :=
    ⟨kept.imp (fun same => ⟨same, error, rfl⟩) id, (fun _ impossible => nomatch impossible),
      fun calm valid => absurd (reason valid) calm.sound⟩
  have drawn : SameStore contents (contents.draw edge.id) :=
    ⟨rfl, rfl, fun _ member => List.mem_cons_of_mem _ member⟩
  unfold createEdge
  cases valid : validateEdgeLabel unicode edge.label with
  | error reason =>
    rw [valid] at stops
    exact .fail (stops _ _ (.inl drawn) fun impossible => nomatch impossible)
  | ok value =>
    rw [valid] at stops
    refine Database.bind_set (.inl ⟨rfl, unused, opened⟩) ?_
      fun error faulty => stops error _ (.inl drawn) fun _ => faulty
    have first : FactKept edge contents (((contents.draw edge.id).put (.edge edge.id)
        edge).withSet (.adjOut edge.sourceEntityId) ((contents.sets
          (.adjOut edge.sourceEntityId)).insert edge.id (timestampMillis edge.validAt))) :=
      { put with
        lists := fun entityId => by
          rcases eq_or_ne entityId edge.sourceEntityId with rfl | different
          · exact .inr ⟨rfl, by simp⟩
          · rw [Database.Contents.sets_withSet_of_ne _ (by simpa using different)]
            exact .inl rfl }
    refine Database.bind_zadd trivial ?_
      fun error faulty => stops error _ (.inr put) fun _ => faulty
    have second := listed (.adjIn edge.targetEntityId) (timestampMillis edge.validAt) _ first
      (by simp)
    refine Database.bind_zadd trivial ?_
      fun error faulty => stops error _ (.inr first) fun _ => faulty
    have third := listed (.userEdges edge.userId) (timestampMillis edge.validAt) _ second
      (by simp)
    refine Database.bind_zadd trivial ?_
      fun error faulty => stops error _ (.inr second) fun _ => faulty
    exact .done ⟨.inr third, (fun _ same => ⟨(Except.ok.inj same).symm, rfl⟩),
      fun _ _ => ⟨edge, rfl⟩⟩

/-- At most the edge of a relationship has been added. -/
def AddedAtMost (episode : Episode) (rel : ExtractedRelationship) (sourceId targetId : Uuid)
    (before after : MemoryContents) : Prop :=
  SameStore before after ∨
    ∃ id now, FactKept (factEdge episode rel sourceId targetId id now) before after

theorem does_storeFact_any (episode : Episode) (rel : ExtractedRelationship)
    (sourceId targetId : Uuid) (filed : Filed contents) :
    Does allowed (fun outcome final =>
        AddedAtMost episode rel sourceId targetId contents final ∧
        (∀ id, outcome = .ok id → validateEdgeLabel unicode rel.label = .ok () ∧
          ∃ now, FactKept (factEdge episode rel sourceId targetId id now) contents final) ∧
        (Calm allowed → validateEdgeLabel unicode rel.label = .ok () → ∃ id, outcome = .ok id))
      (storeFact unicode episode rel sourceId targetId) contents := by
  refine Database.bind_clock trivial fun now => ?_
  refine Database.bind_freshId trivial fun id fresh => ?_
  refine Ensures.bind (@does_createEdge_any unicode allowed contents
    (factEdge episode rel sourceId targetId id now) filed fresh rfl) ?_ ?_
  · rintro created middle ⟨kept, created_valid, _⟩
    obtain ⟨rfl, valid⟩ := created_valid created rfl
    have stored : FactKept (factEdge episode rel sourceId targetId id now) contents middle := by
      rcases kept with ⟨_, error, impossible⟩ | stored
      · cases impossible
      · exact stored
    have added : AddedAtMost episode rel sourceId targetId contents middle := .inr ⟨id, now, stored⟩
    refine bind_service_calm (fun _ => ?_) fun _ storm =>
      ⟨added, (fun _ impossible => nomatch impossible), fun calm => absurd calm storm⟩
    refine bind_service_calm (fun _ => ?_) fun _ storm =>
      ⟨added, (fun _ impossible => nomatch impossible), fun calm => absurd calm storm⟩
    refine .done ⟨added, (fun other same => ⟨valid, now, ?_⟩), fun _ _ => ⟨_, rfl⟩⟩
    obtain rfl := Except.ok.inj same
    exact stored
  · rintro error middle ⟨kept, _, ends⟩
    refine ⟨?_, (fun _ impossible => nomatch impossible), fun calm valid => ?_⟩
    · rcases kept with ⟨same, _⟩ | stored
      · exact .inl same
      · exact .inr ⟨id, now, stored⟩
    · obtain ⟨created, impossible⟩ := ends calm valid
      exact nomatch impossible

/-- What the processing of a relationship does in any environment: it closes edges that are
superseded, and adds at most the new edge. -/
theorem does_processFact_any (episode : Episode) (rel : ExtractedRelationship)
    (sourceId targetId : Uuid) (filed : Filed contents) :
    Does allowed (fun outcome final =>
        ∃ middle, Closing (Superseded contents episode rel sourceId) contents middle ∧
          AddedAtMost episode rel sourceId targetId middle final ∧
          (∀ id, outcome = .ok id → validateEdgeLabel unicode rel.label = .ok () ∧
            ∃ now, FactKept (factEdge episode rel sourceId targetId id now) middle final) ∧
          (Calm allowed → validateEdgeLabel unicode rel.label = .ok () → ∃ id, outcome = .ok id))
      (processFact unicode episode rel sourceId targetId) contents := by
  refine (reads_findConflictingEdges _ _ _ _).bind ?_ fun error faulty =>
    ⟨contents, .refl _, .inl ⟨rfl, rfl, List.Subset.refl _⟩,
      (fun _ impossible => by cases impossible), fun calm => absurd faulty calm.sound⟩
  have conflicts := (stored_outgoing filed sourceId).filter fun edge =>
    edge.targetEntityId == targetId && edge.label == rel.label && edge.userId == episode.userId &&
      edge.isValid
  have closable (edge : Edge) (member : edge ∈ (outgoing contents sourceId).filter fun edge =>
      edge.targetEntityId == targetId && edge.label == rel.label &&
        edge.userId == episode.userId && edge.isValid) :
      Superseded contents episode rel sourceId edge ∧ edge.invalidAt = none := by
    obtain ⟨read, matching⟩ := List.mem_filter.mp member
    simp only [Bool.and_eq_true, beq_iff_eq, Edge.isValid_iff] at matching
    obtain ⟨⟨⟨_, label⟩, user⟩, opened⟩ := matching
    exact ⟨⟨read, label, user⟩, opened⟩
  refine Ensures.bind (does_invalidateEdges episode conflicts closable) ?_ ?_
  · rintro _ first ⟨one, _⟩
    have firstFiled := one.filed filed
    refine (does_outgoingOrNone sourceId).bind ?_ ?_
    · rintro edges middle ⟨rfl, read, same, described⟩
      obtain rfl := Except.ok.inj same
      have stored : Stored middle edges := by
        rcases described with rfl | ⟨_, rfl⟩
        · exact stored_outgoing firstFiled sourceId
        · exact ⟨List.nodup_nil, fun _ member => by cases member⟩
      have readBefore : ∀ edge ∈ edges, edge ∈ outgoing middle sourceId := by
        rcases described with rfl | ⟨_, rfl⟩
        · exact fun _ member => member
        · exact fun _ member => by cases member
      have changeable (edge : Edge)
          (member : edge ∈ edges.filter (isBeliefChange episode rel targetId)) :
          Superseded contents episode rel sourceId edge ∧ edge.invalidAt = none := by
        obtain ⟨member, changing⟩ := List.mem_filter.mp member
        simp only [isBeliefChange, Bool.and_eq_true, beq_iff_eq, bne_iff_ne,
          Edge.isValid_iff] at changing
        obtain ⟨⟨⟨label, user⟩, opened⟩, _⟩ := changing
        exact ⟨⟨one.mem_outgoing (readBefore edge member) opened, label, user⟩, opened⟩
      refine Ensures.bind (does_supersedeOthers unicode episode rel
        (stored.filter (isBeliefChange episode rel targetId)) changeable) ?_ ?_
      · rintro _ second ⟨_, two, _⟩
        refine (does_storeFact_any episode rel sourceId targetId (two.filed firstFiled)).mono ?_
        rintro outcome final ⟨added, stored, ends⟩
        exact ⟨second, one.trans two, added, stored, ends⟩
      · rintro error second ⟨impossible, _⟩
        cases impossible
    · rintro error middle ⟨rfl, edges, impossible, _⟩
      cases impossible
  · rintro error first ⟨one, _, succeeds⟩
    exact ⟨first, one, .inl ⟨rfl, rfl, List.Subset.refl _⟩,
      (fun _ impossible => by cases impossible), fun calm => by cases succeeds calm.sound⟩

/-! ## Relationships that are stored -/

section Relationships

variable (unicode)

/-- Two relationships state facts about one source under one label. -/
def SameKey (first second : ExtractedRelationship) : Prop :=
  unicode.toLowercase first.sourceName = unicode.toLowercase second.sourceName ∧
    first.label = second.label

/-- The relationships whose edges are stored: those between known names, up to the first one whose
label is not valid. -/
def storable (known : ExtractedRelationship → Bool) :
    List ExtractedRelationship → List ExtractedRelationship
  | [] => []
  | rel :: rels =>
      if known rel = false then storable known rels
      else
        match validateEdgeLabel unicode rel.label with
        | .ok () => rel :: storable known rels
        | .error _ => []

/-- No two of the stored relationships state facts about one source under one label. -/
def Apart (known : ExtractedRelationship → Bool) (rels : List ExtractedRelationship) : Prop :=
  (storable unicode known rels).Pairwise fun first second => ¬ SameKey unicode first second

/-- Every edge that was created since is still valid. -/
def CreatedOpen (before after : MemoryContents) : Prop :=
  ∀ id (edge : Edge), before.docs (.edge id) = none → after.docs (.edge id) = some edge →
    edge.isValid = true

/-- Both names of a relationship are resolved. -/
def bothResolved (names : NameMap) (rel : ExtractedRelationship) : Bool :=
  (names.lookup (unicode.toLowercase rel.sourceName)).isSome &&
    (names.lookup (unicode.toLowercase rel.targetName)).isSome

/-- Different names are resolved to different entities. -/
def Separates (names : NameMap) : Prop :=
  ∀ first second id, names.lookup first = some id → names.lookup second = some id →
    first = second

/-- The lists of outgoing edges have only edges of their entities. -/
def Listed (contents : MemoryContents) : Prop :=
  ∀ entityId, ∀ id ∈ (contents.sets (.adjOut entityId)).members, id ∈ contents.issued ∧
    ∀ edge : Edge, contents.docs (.edge id) = some edge → edge.sourceEntityId = entityId

/-- An edge is that of a relationship. -/
def Expresses (names : NameMap) (rel : ExtractedRelationship) (edge : Edge) : Prop :=
  names.lookup (unicode.toLowercase rel.sourceName) = some edge.sourceEntityId ∧
    edge.label = rel.label

/-- What holds while relationships are processed: the created edges are those of the relationships
that are done, and all of them are valid. -/
structure Coexist (start : MemoryContents) (names : NameMap) (done : List ExtractedRelationship)
    (current : MemoryContents) : Prop where
  filed : Filed current
  listed : Listed current
  created : ∀ id (edge : Edge), start.docs (.edge id) = none →
    current.docs (.edge id) = some edge →
      edge.invalidAt = none ∧ ∃ rel ∈ done, Expresses unicode names rel edge

end Relationships

section Loop

variable {start : MemoryContents} {names : NameMap} {done : List ExtractedRelationship}
variable {episode : Episode} {rel : ExtractedRelationship} {sourceId targetId : Uuid}

theorem Coexist.createdOpen (coexist : Coexist unicode start names done contents) :
    CreatedOpen start contents := by
  intro id edge absent found
  exact (Edge.isValid_iff edge).mpr (coexist.created id edge absent found).1

theorem Listed.source_of_mem_outgoing (listed : Listed contents) {entityId : Uuid} {edge : Edge}
    (member : edge ∈ outgoing contents entityId) : edge.sourceEntityId = entityId := by
  obtain ⟨id, among, found⟩ := List.mem_filterMap.mp member
  have held := List.mem_reverse.mp ((SortedSet.sublist_slice _ _ _).subset among)
  exact (listed entityId id held).2 edge found

theorem Coexist.closing {middle : MemoryContents}
    (coexist : Coexist unicode start names done contents) (separates : Separates names)
    (source : names.lookup (unicode.toLowercase rel.sourceName) = some sourceId)
    (apart : ∀ other ∈ done, ¬ SameKey unicode other rel)
    (closing : Closing (Superseded contents episode rel sourceId) contents middle) :
    Coexist unicode start names done middle where
  filed := closing.filed coexist.filed
  listed entityId id member := by
    rw [closing.sets] at member
    obtain ⟨drawn, own⟩ := coexist.listed entityId id member
    refine ⟨closing.issued ▸ drawn, fun edge found => ?_⟩
    rcases closing.edges id with same | ⟨old, episodeId, now, stored, _, _, closed⟩
    · exact own edge (same ▸ found)
    · obtain rfl : edge = old.invalidate episodeId now :=
        Option.some.inj (found.symm.trans closed)
      exact own old stored
  created id edge absent found := by
    rcases closing.edges id with same | ⟨old, _, _, stored, superseded, _, _⟩
    · exact coexist.created id edge absent (same ▸ found)
    · obtain ⟨_, other, member, resolved, label⟩ := coexist.created id old absent stored
      obtain ⟨read, also, _⟩ := superseded
      have own := coexist.listed.source_of_mem_outgoing read
      rw [own] at resolved
      exact absurd ⟨separates _ _ _ resolved source, label.symm.trans also⟩ (apart other member)

theorem Coexist.factKept {id : Uuid} {now : DateTime} {after : MemoryContents}
    (coexist : Coexist unicode start names done contents)
    (source : names.lookup (unicode.toLowercase rel.sourceName) = some sourceId)
    (kept : FactKept (factEdge episode rel sourceId targetId id now) contents after) :
    Coexist unicode start names (done ++ [rel]) after := by
  have elsewhere : ∀ other (edge : Edge), after.docs (.edge other) = some edge →
      other = id ∧ edge = factEdge episode rel sourceId targetId id now ∨
        other ≠ id ∧ contents.docs (.edge other) = some edge := by
    intro other edge found
    rcases eq_or_ne other id with rfl | different
    · exact .inl ⟨rfl, Option.some.inj (found.symm.trans kept.stored)⟩
    · have unlike : MemoryKey.edge other ≠ .edge id := by
        simpa using different
      rw [kept.others (.edge other) unlike] at found
      exact .inr ⟨different, found⟩
  constructor
  case filed =>
    intro other edge found
    rw [kept.issued]
    rcases elsewhere other edge found with ⟨rfl, rfl⟩ | ⟨_, before⟩
    · exact ⟨rfl, List.mem_cons_self⟩
    · obtain ⟨own, drawn⟩ := coexist.filed other edge before
      exact ⟨own, List.mem_cons_of_mem _ drawn⟩
  case listed =>
    intro entityId other member
    have before : other ∈ (contents.sets (.adjOut entityId)).members ∨
        other = id ∧ entityId = sourceId := by
      rcases kept.lists entityId with same | ⟨rfl, grown⟩
      · rw [same] at member
        exact .inl member
      · rw [grown, SortedSet.mem_members_insert] at member
        rcases member with rfl | old
        · exact .inr ⟨rfl, rfl⟩
        · exact .inl old
    rw [kept.issued]
    rcases before with old | ⟨rfl, rfl⟩
    · obtain ⟨drawn, own⟩ := coexist.listed entityId other old
      refine ⟨List.mem_cons_of_mem _ drawn, fun edge found => ?_⟩
      rcases elsewhere other edge found with ⟨rfl, _⟩ | ⟨_, stored⟩
      · exact absurd drawn kept.fresh
      · exact own edge stored
    · refine ⟨List.mem_cons_self, fun edge found => ?_⟩
      rcases elsewhere other edge found with ⟨_, rfl⟩ | ⟨different, _⟩
      · rfl
      · exact absurd rfl different
  case created =>
    intro other edge absent found
    rcases elsewhere other edge found with ⟨_, rfl⟩ | ⟨_, before⟩
    · exact ⟨rfl, rel, by simp, source, rfl⟩
    · obtain ⟨opened, known, member, states⟩ := coexist.created other edge absent before
      exact ⟨opened, known, List.mem_append_left _ member, states⟩

theorem Coexist.createdOpen_addedAtMost {after : MemoryContents}
    (coexist : Coexist unicode start names done contents)
    (source : names.lookup (unicode.toLowercase rel.sourceName) = some sourceId)
    (added : AddedAtMost episode rel sourceId targetId contents after) :
    CreatedOpen start after := by
  rcases added with same | ⟨id, now, kept⟩
  · intro id edge absent found
    rw [same.docs] at found
    exact coexist.createdOpen id edge absent found
  · exact (coexist.factKept source kept).createdOpen

theorem bothResolved_iff : bothResolved unicode names rel = true ↔
    ∃ sourceId targetId, names.lookup (unicode.toLowercase rel.sourceName) = some sourceId ∧
      names.lookup (unicode.toLowercase rel.targetName) = some targetId := by
  simp [bothResolved, Option.isSome_iff_exists]

/-- Relationships that are apart from each other leave the created edges valid, whatever fails. -/
theorem does_processRelationships_open (separates : Separates names)
    (rels : List ExtractedRelationship) (newIds : List Uuid)
    (coexist : Coexist unicode start names done contents)
    (labels : ∀ rel ∈ done, validateEdgeLabel unicode rel.label = .ok ())
    (apart : (done ++ storable unicode (bothResolved unicode names) rels).Pairwise
      fun first second => ¬ SameKey unicode first second) :
    Does allowed (fun _ final => CreatedOpen start final)
      (processRelationships unicode episode names rels newIds) contents := by
  induction rels generalizing contents done newIds with
  | nil => exact .done coexist.createdOpen
  | cons rel rels ih =>
    unfold processRelationships
    split
    · rename_i sourceId targetId source target
      have known : bothResolved unicode names rel = true :=
        bothResolved_iff.mpr ⟨sourceId, targetId, source, target⟩
      rw [storable, if_neg (by simp [known])] at apart
      have unlike : ∀ other ∈ done, ¬ SameKey unicode other rel := by
        intro other member same
        have valid := labels other member
        rw [same.2] at valid
        rw [valid] at apart
        exact (List.pairwise_append.mp apart).2.2 other member rel List.mem_cons_self same
      refine Ensures.bind (does_processFact_any episode rel sourceId targetId coexist.filed) ?_ ?_
      · rintro id final ⟨middle, closing, _, stored, _⟩
        obtain ⟨valid, now, kept⟩ := stored id rfl
        have next := (coexist.closing separates source unlike closing).factKept source kept
        rw [valid] at apart
        refine ih _ next (fun other member => ?_) (by simpa using apart)
        rcases List.mem_append.mp member with early | late
        · exact labels other early
        · obtain rfl := List.mem_singleton.mp late
          exact valid
      · rintro error final ⟨middle, closing, added, _⟩
        exact (coexist.closing separates source unlike closing).createdOpen_addedAtMost source
          added
    · rename_i unresolved
      have unknown : bothResolved unicode names rel = false := by
        by_contra resolved
        obtain ⟨sourceId, targetId, source, target⟩ :=
          bothResolved_iff.mp (by simpa using resolved)
        exact unresolved sourceId targetId source target
      rw [storable, if_pos unknown] at apart
      exact ih newIds coexist labels apart

end Loop

/-! ## Relationships that close an earlier one -/

/-- What holds while relationships are processed and nothing fails: each one that is done has its
edge, which is listed, and there is room in the lists. -/
structure Progress (unicode : Unicode) (start : MemoryContents) (names : NameMap)
    (episode : Episode) (done : List ExtractedRelationship) (left : Nat)
    (current : MemoryContents) : Prop where
  filed : Filed current
  named : Named unicode episode.userId current
  agrees : Agrees current episode.userId names
  grown : ∀ id, current.docs (.edge id) = none → start.docs (.edge id) = none
  room : ∀ entityId, (current.sets (.adjOut entityId)).members.length + left ≤ adjacencyLimit
  present : ∀ rel ∈ done, ∃ id, ∃ edge : Edge, start.docs (.edge id) = none ∧
    current.docs (.edge id) = some edge ∧ Expresses unicode names rel edge ∧
      edge.userId = episode.userId ∧
      names.lookup (unicode.toLowercase rel.targetName) = some edge.targetEntityId ∧
      id ∈ (current.sets (.adjOut edge.sourceEntityId)).members

section Progress

variable {start middle after : MemoryContents} {names : NameMap} {left : Nat}
variable {done : List ExtractedRelationship} {episode : Episode} {rel : ExtractedRelationship}
variable {sourceId targetId : Uuid} {kind : Edge → Prop}

theorem not_createdOpen_closing (closing : Closing kind contents middle)
    (broken : ¬ CreatedOpen start contents) : ¬ CreatedOpen start middle := by
  intro created
  apply broken
  intro id edge absent found
  by_contra invalid
  have ended : edge.invalidAt.isSome = true := by
    cases closed : edge.invalidAt with
    | none => exact absurd ((Edge.isValid_iff edge).mpr closed) invalid
    | some time => rfl
  exact invalid (created id edge absent (closing.closed found ended))

theorem not_createdOpen_added (added : Added unicode episode rel sourceId targetId middle after)
    (broken : ¬ CreatedOpen start middle) : ¬ CreatedOpen start after := by
  intro created
  apply broken
  intro id edge absent found
  apply created id edge absent
  rcases added with ⟨_, newId, now, stored⟩ | ⟨_, same⟩
  · rw [stored.others]
    · exact found
    · intro impossible
      have unused := stored.unused
      rw [← impossible, found] at unused
      exact nomatch unused
  · rw [same.docs]
    exact found

theorem Progress.mem_outgoing (progress : Progress unicode start names episode done left contents)
    {id entityId : Uuid} {edge : Edge}
    (listed : id ∈ (contents.sets (.adjOut entityId)).members)
    (found : contents.docs (.edge id) = some edge) : edge ∈ outgoing contents entityId := by
  have small : (contents.sets (.adjOut entityId)).members.length ≤ adjacencyLimit :=
    le_trans (Nat.le_add_right _ left) (progress.room entityId)
  refine List.mem_filterMap.mpr ⟨id, ?_, found⟩
  rw [SortedSet.revRange_of_length_le _ small]
  exact List.mem_reverse.mpr listed

/-- The edge of an earlier relationship about the same source under the same label is closed. -/
theorem Progress.closes {other : ExtractedRelationship}
    (progress : Progress unicode start names episode done left contents) (member : other ∈ done)
    (same : SameKey unicode other rel)
    (source : names.lookup (unicode.toLowercase rel.sourceName) = some sourceId)
    (target : names.lookup (unicode.toLowercase rel.targetName) = some targetId)
    (closing : Closing (Superseded contents episode rel sourceId) contents middle)
    (closes : ∀ edge, Superseded contents episode rel sourceId edge → edge.invalidAt = none →
      edge.targetEntityId = targetId ∨ NameDiffers unicode contents rel edge →
        IsClosed middle edge) : ¬ CreatedOpen start middle := by
  obtain ⟨id, edge, absent, found, ⟨resolved, label⟩, user, other_target, listed⟩ :=
    progress.present other member
  have own := (progress.filed id edge found).1
  cases opened : edge.invalidAt with
  | some time =>
    apply not_createdOpen_closing closing
    intro created
    have valid := created id edge absent found
    rw [Edge.isValid_iff, opened] at valid
    exact nomatch valid
  | none =>
    have here : edge.sourceEntityId = sourceId := by
      rw [same.1, source] at resolved
      exact (Option.some.inj resolved).symm
    rw [here] at listed
    have superseded : Superseded contents episode rel sourceId edge :=
      ⟨progress.mem_outgoing listed found, label.trans same.2, user⟩
    have differs : edge.targetEntityId = targetId ∨ NameDiffers unicode contents rel edge := by
      rcases eq_or_ne edge.targetEntityId targetId with equal | different
      · exact .inl equal
      · right
        obtain ⟨_, entity, stored, _, lower⟩ :=
          progress.named _ _ (progress.agrees _ _ other_target)
        unfold NameDiffers storedName
        rw [stored]
        simp only [lower]
        intro equal
        rw [equal, other_target] at target
        exact different (Option.some.inj target)
    obtain ⟨closed, kept, ended⟩ := closes edge superseded opened differs
    intro created
    rw [own] at kept
    have valid := created id closed absent kept
    rw [Edge.isValid_iff] at valid
    rw [valid] at ended
    exact nomatch ended

theorem Progress.closing (progress : Progress unicode start names episode done left contents)
    (closing : Closing kind contents middle) :
    Progress unicode start names episode done left middle := by
  have docs_of : ∀ id (edge : Edge), contents.docs (.edge id) = some edge →
      ∃ kept : Edge, middle.docs (.edge id) = some kept ∧
        kept.sourceEntityId = edge.sourceEntityId ∧ kept.targetEntityId = edge.targetEntityId ∧
        kept.label = edge.label ∧ kept.userId = edge.userId := by
    intro id edge found
    rcases closing.edges id with same | ⟨old, episodeId, now, stored, _, _, closed⟩
    · exact ⟨edge, same.trans found, rfl, rfl, rfl, rfl⟩
    · obtain rfl : old = edge := Option.some.inj (stored.symm.trans found)
      exact ⟨_, closed, rfl, rfl, rfl, rfl⟩
  constructor
  case filed => exact closing.filed progress.filed
  case named => exact closing.sameNames.named progress.named
  case agrees =>
    intro name id held
    exact closing.sameNames.grown name id (progress.agrees name id held)
  case grown =>
    intro id absent
    apply progress.grown id
    cases found : (contents.docs (.edge id) : Option Edge) with
    | none => rfl
    | some edge =>
      obtain ⟨kept, stored, _⟩ := docs_of id edge found
      rw [absent] at stored
      exact nomatch stored
  case room =>
    intro entityId
    rw [closing.sets]
    exact progress.room entityId
  case present =>
    intro other member
    obtain ⟨id, edge, absent, found, ⟨source, label⟩, user, target, listed⟩ :=
      progress.present other member
    obtain ⟨kept, stored, same_source, same_target, same_label, same_user⟩ := docs_of id edge found
    refine ⟨id, kept, absent, stored, ⟨?_, ?_⟩, ?_, ?_, ?_⟩
    · rw [same_source]
      exact source
    · rw [same_label]
      exact label
    · rw [same_user]
      exact user
    · rw [same_target]
      exact target
    · rw [closing.sets, same_source]
      exact listed

theorem length_members_insert_le (set : SortedSet Uuid) (member : Uuid) (score : Int) :
    (set.insert member score).members.length ≤ set.members.length + 1 := by
  simp only [SortedSet.members, SortedSet.insert, List.length_map, List.orderedInsert_length]
  exact Nat.succ_le_succ (List.length_filter_le _ _)

/-- A stored relationship is done. -/
theorem Progress.factStored {id : Uuid} {now : DateTime}
    (progress : Progress unicode start names episode done (left + 1) middle)
    (source : names.lookup (unicode.toLowercase rel.sourceName) = some sourceId)
    (target : names.lookup (unicode.toLowercase rel.targetName) = some targetId)
    (stored : FactStored (factEdge episode rel sourceId targetId id now) middle after) :
    Progress unicode start names episode (done ++ [rel]) left after := by
  have keeps : ∀ other (edge : Edge), middle.docs (.edge other) = some edge →
      other ≠ id ∧ after.docs (.edge other) = some edge := by
    intro other edge found
    have different : other ≠ id := by
      rintro rfl
      have unused : middle.docs (.edge other) = none := stored.unused
      rw [found] at unused
      exact nomatch unused
    have unlike : MemoryKey.edge other ≠ .edge id := by
      simpa using different
    exact ⟨different, (stored.others _ unlike).trans found⟩
  have member_kept : ∀ entityId other, other ∈ (middle.sets (.adjOut entityId)).members →
      other ∈ (after.sets (.adjOut entityId)).members := by
    intro entityId other member
    rcases eq_or_ne entityId sourceId with rfl | elsewhere
    · have grown : after.sets (.adjOut entityId) = _ := stored.source
      rw [grown, SortedSet.mem_members_insert]
      exact .inr member
    · rw [stored.lists entityId elsewhere]
      exact member
  constructor
  case filed =>
    intro other edge found
    rw [stored.issued]
    rcases eq_or_ne other id with rfl | different
    · obtain rfl := Option.some.inj (stored.stored.symm.trans found)
      exact ⟨rfl, List.mem_cons_self⟩
    · have unlike : MemoryKey.edge other ≠ .edge id := by
        simpa using different
      rw [stored.others _ unlike] at found
      obtain ⟨own, drawn⟩ := progress.filed other edge found
      exact ⟨own, List.mem_cons_of_mem _ drawn⟩
  case named => exact stored.sameNames.named progress.named
  case agrees =>
    intro name id held
    exact stored.sameNames.grown name id (progress.agrees name id held)
  case grown =>
    intro other absent
    apply progress.grown other
    cases found : (middle.docs (.edge other) : Option Edge) with
    | none => rfl
    | some edge =>
      rw [(keeps other edge found).2] at absent
      exact nomatch absent
  case room =>
    intro entityId
    have before := progress.room entityId
    rcases eq_or_ne entityId sourceId with rfl | elsewhere
    · have grown : after.sets (.adjOut entityId) = _ := stored.source
      rw [grown]
      have longer := length_members_insert_le (middle.sets (.adjOut entityId)) id
        (timestampMillis (factEdge episode rel entityId targetId id now).validAt)
      exact le_trans (Nat.add_le_add_right longer left) (by omega)
    · rw [stored.lists entityId elsewhere]
      omega
  case present =>
    intro other member
    rcases List.mem_append.mp member with early | late
    · obtain ⟨own, edge, absent, found, states, user, other_target, listed⟩ :=
        progress.present other early
      exact ⟨own, edge, absent, (keeps own edge found).2, states, user, other_target,
        member_kept _ _ listed⟩
    · obtain rfl := List.mem_singleton.mp late
      refine ⟨id, _, progress.grown id stored.unused, stored.stored, ⟨source, rfl⟩, rfl, target, ?_⟩
      have grown : after.sets (.adjOut sourceId) = _ := stored.source
      change id ∈ (after.sets (.adjOut sourceId)).members
      rw [grown, SortedSet.mem_members_insert]
      exact .inl rfl

/-- When nothing fails, relationships that are not apart leave a created edge closed. -/
theorem does_processRelationships_closed (calm : Calm allowed)
    (rels : List ExtractedRelationship) (newIds : List Uuid)
    (progress : Progress unicode start names episode done
      (storable unicode (bothResolved unicode names) rels).length contents)
    (so_far : done.Pairwise (fun first second => ¬ SameKey unicode first second) ∨
      ¬ CreatedOpen start contents)
    (clash : ¬ (done ++ storable unicode (bothResolved unicode names) rels).Pairwise
      fun first second => ¬ SameKey unicode first second) :
    Does allowed (fun _ final => ¬ CreatedOpen start final)
      (processRelationships unicode episode names rels newIds) contents := by
  induction rels generalizing contents done newIds with
  | nil =>
    rw [storable, List.append_nil] at clash
    exact .done (so_far.resolve_left clash)
  | cons rel rels ih =>
    unfold processRelationships
    split
    · rename_i sourceId targetId source target
      have known : bothResolved unicode names rel = true :=
        bothResolved_iff.mpr ⟨sourceId, targetId, source, target⟩
      have turn : Does allowed _ (processFact unicode episode rel sourceId targetId) contents :=
        (does_processFact unicode episode rel sourceId targetId progress.filed).and
          (does_processFact_any episode rel sourceId targetId progress.filed)
      refine Ensures.bind turn ?_ ?_
      · rintro id final ⟨⟨_, described⟩, _, _, _, stores, _⟩
        obtain ⟨middle, closing, closes, added⟩ := described calm.sound
        have valid := (stores id rfl).1
        rw [storable, if_neg (by simp [known]), valid] at progress clash
        have closed := progress.closing closing
        obtain ⟨newId, now, stored⟩ : ∃ newId now,
            FactStored (factEdge episode rel sourceId targetId newId now) middle final := by
          rcases added with ⟨_, stored⟩ | ⟨invalid, _⟩
          · exact stored
          · exact absurd valid invalid
        refine ih _ (closed.factStored source target stored) ?_ (by simpa using clash)
        by_cases earlier : ∃ other ∈ done, SameKey unicode other rel
        · obtain ⟨other, member, same⟩ := earlier
          right
          apply not_createdOpen_added added
          exact progress.closes member same source target closing closes
        · rcases so_far with apart | broken
          · left
            refine List.pairwise_append.mpr ⟨apart, List.pairwise_singleton _ _, ?_⟩
            intro other member second also same
            obtain rfl := List.mem_singleton.mp also
            exact earlier ⟨other, member, same⟩
          · exact .inr (not_createdOpen_added added (not_createdOpen_closing closing broken))
      · rintro error final ⟨⟨_, described⟩, _, _, _, _, ends⟩
        obtain ⟨middle, closing, _, added⟩ := described calm.sound
        have stops : storable unicode (bothResolved unicode names) (rel :: rels) = [] := by
          rw [storable, if_neg (by simp [known])]
          cases label : validateEdgeLabel unicode rel.label with
          | error reason => rfl
          | ok value =>
            obtain ⟨id, impossible⟩ := ends calm label
            exact nomatch impossible
        rw [stops, List.append_nil] at clash
        exact not_createdOpen_added added
          (not_createdOpen_closing closing (so_far.resolve_left clash))
    · rename_i unresolved
      have unknown : bothResolved unicode names rel = false := by
        by_contra resolved
        obtain ⟨sourceId, targetId, source, target⟩ :=
          bothResolved_iff.mp (by simpa using resolved)
        exact unresolved sourceId targetId source target
      rw [storable, if_pos unknown] at progress clash
      exact ih newIds progress so_far clash

end Progress

/-! ## Names, whatever fails -/

section Names

variable {userId : Uuid} {episode : Episode}

theorem does_createEntity_any (entity : Entity) :
    Does allowed (fun outcome final =>
        (∀ created, outcome = .ok created →
          created = entity ∧ final = withEntity unicode contents entity) ∧
        (Calm allowed → ∃ created, outcome = .ok created))
      (createEntity unicode entity) (contents.draw entity.id) := by
  have stops (error : MnemoError) (faulty : Faulty allowed) (final : MemoryContents) :
      (∀ created, (.error error : Except MnemoError Entity) = .ok created →
        created = entity ∧ final = withEntity unicode contents entity) ∧
      (Calm allowed → ∃ created, (.error error : Except MnemoError Entity) = .ok created) :=
    ⟨(fun _ impossible => nomatch impossible), fun calm => absurd faulty calm.sound⟩
  refine Database.bind_set trivial ?_ fun error faulty => stops error faulty _
  refine Database.bind_zadd trivial ?_ fun error faulty => stops error faulty _
  refine Database.bind_set trivial ?_ fun error faulty => stops error faulty _
  exact .done ⟨(fun created same => ⟨(Except.ok.inj same).symm, rfl⟩), fun _ => ⟨entity, rfl⟩⟩

/-- If an extracted entity is resolved, it is to what the name index then holds. -/
theorem does_resolveEntity_any (named : Named unicode episode.userId contents)
    (extracted : ExtractedEntity) :
    Does allowed (fun outcome final =>
        (∀ id isNew, outcome = .ok (id, isNew) → Named unicode episode.userId final ∧
          Grown episode.userId contents final ∧
          nameEntry final episode.userId (unicode.toLowercase extracted.name) = some id) ∧
        (Calm allowed → ∃ result, outcome = .ok result))
      (resolveEntity unicode episode extracted) contents := by
  have stops (error : MnemoError) (storm : ¬ Calm allowed) (final : MemoryContents) :
      (∀ id isNew, (.error error : Except MnemoError (Uuid × Bool)) = .ok (id, isNew) →
        Named unicode episode.userId final ∧ Grown episode.userId contents final ∧
          nameEntry final episode.userId (unicode.toLowercase extracted.name) = some id) ∧
      (Calm allowed → ∃ result, (.error error : Except MnemoError (Uuid × Bool)) = .ok result) :=
    ⟨(fun _ _ impossible => nomatch impossible), fun calm => absurd calm storm⟩
  rcases reads_findEntityByName named extracted.name with
    ⟨entity, reads, entry, found, lower⟩ | ⟨reads, absent⟩
  · refine reads.bind ?_ fun error faulty => stops error (fun calm => calm.sound faulty) _
    refine Database.bind_clock trivial fun now => ?_
    refine (does_withSummary _ _).bind ?_ ?_
    · rintro updated middle ⟨rfl, _, same, sameId, sameName⟩
      obtain rfl := Except.ok.inj same
      have kept := named.putEntity found sameId sameName
      have entries (name : String) :
          nameEntry (middle.put (.entity updated.id) updated) episode.userId name =
            nameEntry middle episode.userId name :=
        Database.Contents.docs_put_of_ne _ (by simp) _
      refine Database.bind_set trivial ?_
        fun error faulty => stops error (fun calm => calm.sound faulty) _
      refine .done ⟨fun id isNew outcome => ⟨kept, ?_, ?_⟩, fun _ => ⟨_, rfl⟩⟩
      · exact fun name id held => (entries name).trans held
      · obtain ⟨rfl, _⟩ := Prod.mk.inj (Except.ok.inj outcome)
        rw [entries, entry, sameId]
        rfl
    · rintro error middle ⟨_, _, impossible, _⟩
      cases impossible
  · refine reads.bind ?_ fun error faulty => stops error (fun calm => calm.sound faulty) _
    refine Database.bind_clock trivial fun now => ?_
    refine Database.bind_freshId trivial fun id fresh => ?_
    refine Ensures.bind (does_createEntity_any
      (Entity.fromExtraction extracted episode.userId id now)) ?_ ?_
    · rintro created middle ⟨described, _⟩
      obtain ⟨rfl, rfl⟩ := described created rfl
      refine bind_service_calm (fun _ => ?_) fun error storm => stops error storm _
      refine bind_service_calm (fun _ => ?_) fun error storm => stops error storm _
      refine .done ⟨fun other isNew outcome => ?_, fun _ => ⟨_, rfl⟩⟩
      obtain ⟨rfl, _⟩ := Prod.mk.inj (Except.ok.inj outcome)
      exact ⟨named.withEntity fresh rfl, grown_withEntity rfl absent,
        nameEntry_withEntity_self _⟩
    · rintro error middle ⟨_, ends⟩
      refine stops error (fun calm => ?_) _
      obtain ⟨created, impossible⟩ := ends calm
      exact nomatch impossible

/-- The names that are resolved are those of the extracted entities, as the name index has them. -/
theorem does_resolveEntities_any (named : Named unicode episode.userId contents)
    (extracted : List ExtractedEntity) {names : NameMap}
    (agrees : Agrees contents episode.userId names) (newIds : List Uuid) :
    Does allowed (fun outcome final =>
        (∀ result, outcome = .ok result → Named unicode episode.userId final ∧
          Agrees final episode.userId result.1 ∧
          ∀ name, (result.1.lookup name).isSome ↔ (names.lookup name).isSome ∨
            ∃ entity ∈ extracted, unicode.toLowercase entity.name = name) ∧
        (Calm allowed → ∃ result, outcome = .ok result))
      (resolveEntities unicode episode extracted names newIds) contents := by
  induction extracted generalizing contents names newIds with
  | nil =>
    refine .done ⟨fun result same => ?_, fun _ => ⟨_, rfl⟩⟩
    obtain rfl := Except.ok.inj same
    exact ⟨named, agrees, by simp⟩
  | cons head rest ih =>
    refine (does_resolveEntity_any named head).bind ?_ ?_
    · rintro ⟨id, isNew⟩ middle ⟨resolved, _⟩
      obtain ⟨kept, grown, entry⟩ := resolved id isNew rfl
      have extended : Agrees middle episode.userId
          ((unicode.toLowercase head.name, id) :: names) := by
        intro name other held
        rw [List.lookup_cons] at held
        split at held
        · rename_i same
          rw [beq_iff_eq] at same
          rw [same, entry, held]
        · exact grown name other (agrees name other held)
      refine (ih kept extended _).mono ?_
      rintro outcome final ⟨results, ends⟩
      refine ⟨fun result same => ?_, ends⟩
      obtain ⟨final_named, final_agrees, covers⟩ := results result same
      refine ⟨final_named, final_agrees, fun name => (covers name).trans ?_⟩
      rcases eq_or_ne name (unicode.toLowercase head.name) with rfl | different
      · simp
      · have apart : (name == unicode.toLowercase head.name) = false := by
          simpa using different
        rw [List.lookup_cons, apart]
        simp [different.symm]
    · rintro error middle ⟨_, ends⟩
      refine ⟨(fun _ impossible => nomatch impossible), fun calm => ?_⟩
      obtain ⟨result, impossible⟩ := ends calm
      exact nomatch impossible

theorem Agrees.separates (named : Named unicode userId contents) {names : NameMap}
    (agrees : Agrees contents userId names) : Separates names := by
  intro first second id one two
  exact named.injective (agrees first id one) (agrees second id two)

end Names

/-! ## The whole episode -/

section Episodes

variable {start : MemoryContents} {episode : Episode}
variable {fallback : String → Option ExtractionResult}

/-- What is processed for a reply of the language model. -/
def extractionOf (fallback : String → Option ExtractionResult)
    (episode : Episode) (reply : ExtractionResult) : ExtractionResult :=
  if reply.entities.isEmpty && reply.relationships.isEmpty then
    (fallback episode.content).getD reply
  else reply

/-- Whether both names of a relationship are those of extracted entities. -/
def mentioned (unicode : Unicode) (extraction : ExtractionResult) (rel : ExtractedRelationship) :
    Bool :=
  extraction.entities.any (fun entity =>
      unicode.toLowercase entity.name == unicode.toLowercase rel.sourceName) &&
    extraction.entities.any fun entity =>
      unicode.toLowercase entity.name == unicode.toLowercase rel.targetName

/-- No two relationships that are stored for an extraction state facts about one source under one
label. -/
def FactsApart (unicode : Unicode) (extraction : ExtractionResult) : Prop :=
  Apart unicode (mentioned unicode extraction) extraction.relationships

/-- Every outgoing edge will still be read when those of an extraction have been added. -/
def Room (unicode : Unicode) (extraction : ExtractionResult) (contents : MemoryContents) : Prop :=
  ∀ entityId, (contents.sets (.adjOut entityId)).members.length +
    (storable unicode (mentioned unicode extraction) extraction.relationships).length ≤
      adjacencyLimit

/-- Edges and names are stored as the program stores them: under their own identifiers, which were
drawn, and listed by source and by name. -/
structure WellKept (unicode : Unicode) (userId : Uuid) (contents : MemoryContents) : Prop where
  filed : Filed contents
  named : Named unicode userId contents
  listed : Listed contents

/-- The language model gives no other reply for a content. -/
def Replies (content : String) (reply : ExtractionResult) (allowed : MemoryInput → Prop) : Prop :=
  ∀ input, allowed input → ∀ hints extraction,
    input.answer (.extract content hints) = .ok extraction → extraction = reply

theorem exists_reads_listEntities (userId : Uuid) (limit : Nat) :
    ∃ entities, Reads allowed entities (listEntities userId limit none) contents := by
  have items : ∀ ids : List Uuid,
      ∃ entities, Reads allowed entities (getAll readEntity ids) contents := by
    intro ids
    induction ids with
    | nil => exact ⟨[], .done []⟩
    | cons id ids ih =>
      obtain ⟨entities, reads⟩ := ih
      exact ⟨_, (Database.readsAs_get (MemoryKey.entity id) trivial).andThen
        (reads.andThen (.done _))⟩
  have ids : Reads allowed ((contents.sets (.userEntities userId)).revRange 0 ((limit : Int) - 1))
      (pageIds (.userEntities userId) limit none) contents :=
    Database.readsAs_zrevrange (MemoryIndex.userEntities userId) 0 _ trivial
  obtain ⟨entities, reads⟩ := items ((contents.sets (.userEntities userId)).revRange 0
    ((limit : Int) - 1))
  exact ⟨entities, ids.andThen reads⟩

theorem does_extract_any {reply : ExtractionResult} (replies : Replies episode.content reply allowed) :
    Does allowed (fun outcome final => final = contents ∧
        (∀ extraction, outcome = .ok extraction →
          extraction = extractionOf fallback episode reply) ∧
        (Calm allowed → ∃ extraction, outcome = .ok extraction))
      (extract fallback episode) contents := by
  obtain ⟨existing, reads⟩ := @exists_reads_listEntities allowed contents episode.userId 100
  refine reads.bind ?_ fun error faulty =>
    ⟨rfl, (fun _ impossible => by cases impossible), fun calm => absurd faulty calm.sound⟩
  refine Database.bind_fallible (Database.Command.service (.extract episode.content
    (existing.map hint)) : MemoryCommand) rfl trivial (fun input admissible => ?_)
    fun error faulty =>
      ⟨rfl, (fun _ impossible => by cases impossible), fun calm => absurd faulty calm.sound⟩
  cases answered : input.answer (.extract episode.content (existing.map hint)) with
  | error error =>
    simp only [Database.perform, answered]
    refine .fail ⟨rfl, (fun _ impossible => by cases impossible), fun calm => ?_⟩
    obtain ⟨answer, impossible⟩ := calm.answers input admissible _
    rw [answered] at impossible
    cases impossible
  | ok extraction =>
    simp only [Database.perform, answered]
    obtain rfl := replies input admissible _ extraction answered
    change Does allowed _ (if extraction.entities.isEmpty && extraction.relationships.isEmpty
      then _ else _) contents
    by_cases nothing : (extraction.entities.isEmpty && extraction.relationships.isEmpty) = true
    · rw [if_pos nothing]
      refine .done ⟨rfl, (fun result same => ?_), fun _ => ⟨_, rfl⟩⟩
      exact (Except.ok.inj same).symm.trans (if_pos nothing).symm
    · rw [if_neg nothing]
      refine .done ⟨rfl, (fun result same => ?_), fun _ => ⟨_, rfl⟩⟩
      exact (Except.ok.inj same).symm.trans (if_neg nothing).symm

theorem bothResolved_eq_mentioned {extraction : ExtractionResult} {names : NameMap}
    (covers : ∀ name, (names.lookup name).isSome ↔ (([] : NameMap).lookup name).isSome ∨
      ∃ entity ∈ extraction.entities, unicode.toLowercase entity.name = name) :
    bothResolved unicode names = mentioned unicode extraction := by
  have known : ∀ name, (names.lookup name).isSome = extraction.entities.any fun entity =>
      unicode.toLowercase entity.name == name := by
    intro name
    rw [Bool.eq_iff_iff, covers, List.any_eq_true]
    simp
  funext rel
  simp only [bothResolved, mentioned, known]

theorem WellKept.coexist {names : NameMap} {second : MemoryContents}
    (wellKept : WellKept unicode episode.userId start) (same : SameEdges start second) :
    Coexist unicode start names [] second where
  filed := same.filed wellKept.filed
  listed entityId id member := by
    rw [same.sets] at member
    obtain ⟨drawn, own⟩ := wellKept.listed entityId id member
    refine ⟨same.issued drawn, fun edge found => own edge ?_⟩
    rw [← same.docs]
    exact found
  created id edge absent found := by
    rw [same.docs, absent] at found
    exact nomatch found

theorem CreatedOpen.congr {before after : MemoryContents} (same : SameEdges before after) :
    CreatedOpen start after ↔ CreatedOpen start before := by
  unfold CreatedOpen
  simp only [same.docs]

theorem does_finish (newEntityIds newEdgeIds : List Uuid) :
    Does allowed (fun _ final => SameEdges contents final)
      (do
        let _ ← Redis.ask (.embed episode.content)
        let _ ← Redis.ask (.upsertEpisodeEmbedding episode.id episode.userId)
        updateEpisode (episode.markCompleted newEntityIds newEdgeIds)) contents := by
  refine Database.bind_service trivial (fun _ => ?_) fun _ => .refl _
  refine Database.bind_service trivial (fun _ => ?_) fun _ => .refl _
  refine (does_of_away ?_ contents).mono fun _ final same => same
  exact Program.Performs.call (Database.Command.set (.episode _) _ : MemoryCommand) trivial

theorem WellKept.progress {extraction : ExtractionResult} {names : NameMap}
    {second : MemoryContents} (wellKept : WellKept unicode episode.userId start)
    (room : Room unicode extraction start) (same : SameEdges start second)
    (named : Named unicode episode.userId second) (agrees : Agrees second episode.userId names)
    (known : bothResolved unicode names = mentioned unicode extraction) :
    Progress unicode start names episode []
      (storable unicode (bothResolved unicode names) extraction.relationships).length second where
  filed := same.filed wellKept.filed
  named := named
  agrees := agrees
  grown id absent := by
    rw [same.docs] at absent
    exact absent
  room entityId := by
    rw [same.sets, known]
    exact room entityId
  present rel member := nomatch member

theorem does_processEpisode_any {reply : ExtractionResult}
    {post : Except MnemoError Unit → MemoryContents → Prop} (replies : Replies episode.content reply allowed)
    (named : Named unicode episode.userId start)
    (rest : ∀ second names, SameEdges start second → Named unicode episode.userId second →
      Agrees second episode.userId names →
      bothResolved unicode names =
        mentioned unicode (extractionOf fallback episode reply) →
      ∀ newIds, Does allowed (fun outcome third => (∀ final, SameEdges third final →
          ∀ result, post result final) ∧ ∀ error, outcome = .error error → post (.error error) third)
        (processRelationships unicode episode names
          (extractionOf fallback episode reply).relationships newIds) second)
    (fails : ¬ Calm allowed → ∀ second, SameEdges start second →
      ∀ error, post (.error error) second) :
    Does allowed post (processEpisode unicode fallback episode) start := by
  have unresolved : Agrees start episode.userId [] := fun _ _ impossible => nomatch impossible
  refine Ensures.bind (does_extract_any replies) ?_ ?_
  · rintro extraction first ⟨rfl, same, _⟩
    obtain rfl := same extraction rfl
    refine Ensures.bind ((does_of_away (away_resolveEntities unicode episode _ [] []) first).and
      (does_resolveEntities_any named _ unresolved [])) ?_ ?_
    · rintro ⟨names, newEntityIds⟩ second ⟨same, results, _⟩
      obtain ⟨kept, agrees, covers⟩ := results _ rfl
      refine Ensures.bind (rest second names same kept agrees
        (bothResolved_eq_mentioned covers) []) ?_ ?_
      · rintro newEdgeIds third ⟨described, _⟩
        refine (does_finish newEntityIds newEdgeIds).mono ?_
        exact fun outcome final edges => described final edges outcome
      · rintro error third ⟨_, described⟩
        exact described error rfl
    · rintro error second ⟨same, _, ends⟩
      refine fails (fun calm => ?_) second same error
      obtain ⟨result, impossible⟩ := ends calm
      exact nomatch impossible
  · rintro error first ⟨rfl, _, ends⟩
    refine fails (fun calm => ?_) first (.refl first) error
    obtain ⟨result, impossible⟩ := ends calm
    exact nomatch impossible

theorem does_processEpisode_open {reply : ExtractionResult} (replies : Replies episode.content reply allowed)
    (wellKept : WellKept unicode episode.userId start)
    (apart : FactsApart unicode (extractionOf fallback episode reply)) :
    Does allowed (fun _ final => CreatedOpen start final)
      (processEpisode unicode fallback episode) start := by
  apply does_processEpisode_any replies wellKept.named
  · intro second names same named agrees known newIds
    refine (does_processRelationships_open (agrees.separates named) _ newIds
      (wellKept.coexist same) (fun _ member => nomatch member) ?_).mono ?_
    · rw [known, List.nil_append]
      exact apart
    · intro outcome third created
      exact ⟨fun final edges _ => (CreatedOpen.congr edges).mpr created, fun _ _ => created⟩
  · intro _ second same _
    have unchanged : Coexist unicode start [] [] second := wellKept.coexist same
    exact unchanged.createdOpen

theorem does_processEpisode_closed {reply : ExtractionResult} (calm : Calm allowed)
    (replies : Replies episode.content reply allowed) (wellKept : WellKept unicode episode.userId start)
    (room : Room unicode (extractionOf fallback episode reply) start)
    (clash : ¬ FactsApart unicode (extractionOf fallback episode reply)) :
    Does allowed (fun _ final => ¬ CreatedOpen start final)
      (processEpisode unicode fallback episode) start := by
  apply does_processEpisode_any replies wellKept.named
  · intro second names same named agrees known newIds
    refine (does_processRelationships_closed calm _ newIds
      (wellKept.progress room same named agrees known) (.inl .nil) ?_).mono ?_
    · rw [known, List.nil_append]
      exact clash
    · intro outcome third broken
      exact ⟨fun final edges _ created => broken ((CreatedOpen.congr edges).mp created),
        fun _ _ => broken⟩
  · exact fun storm => absurd calm storm

end Episodes

theorem wellKept_emptyMemory (unicode : Unicode) (userId : Uuid) :
    WellKept unicode userId emptyMemory where
  filed _ _ found := absurd found.symm (Option.some_ne_none _)
  named _ _ found := absurd found.symm (Option.some_ne_none _)
  listed _ _ member := by cases member

/-- What the extraction without a language model makes of a person who speaks two languages. -/
def spokenLanguages (person first second : String) : ExtractionResult :=
  { entities :=
      { name := person, entityType := .person, summary := none, classification := .internal } ::
        [first, second].map fun language =>
          { name := language, entityType := .concept, summary := some "language spoken"
            classification := .internal }
    relationships := [first, second].map fun language =>
      { sourceName := person, targetName := language, label := "speaks"
        fact := person ++ " speaks " ++ language, confidence := 3 / 4, validAt := none
        classification := .internal, temporalScope := none } }

/-- Services among which the language model finds nothing. -/
def silentAnswer : (call : MemoryService) → Except MnemoError (MemoryAnswer call)
  | .extract _ _ => .ok { entities := [], relationships := [] }
  | .embed _ | .upsertEntityEmbedding _ _ | .upsertEdgeEmbedding _ _
  | .upsertEpisodeEmbedding _ _ => .ok ()
  | .summarize content _ => .ok content

end Ingest
end Mnemo
