import Mnemo.Graph.Editors

/-!
# Every editor keeps to the protocol

Whatever it is told of the store, an editor writes only what it makes of its latest copies, and new
records under identifiers that it has drawn.
-/

namespace Mnemo
namespace Graph

open Memory
open Auth (CallerContext)
open Database (Command)
open Program (Performs)
open Program.Protocol (Follows)

/-! ## Requests on edges -/

/-- The program of an editor follows the protocol, however it ends. -/
abbrev Edits {α : Type} (knowledge : Knowledge) (program : MemoryProgram α) : Prop :=
  editing.Follows (fun _ _ => True) knowledge program

theorem follows_setEdge {knowledge : Knowledge} {id : Uuid} {edge : Edge}
    (writes : knowledge.WritesEdge id edge) :
    Sparing knowledge (Redis.set (.edge id) edge) := by
  have allows : knowledge.Allows (.set (.edge id) edge) := writes
  refine .perform allows fun reply _ => ?_
  cases reply with
  | ok value => exact .done ⟨rfl, rfl⟩
  | error error => exact .fail (.refl knowledge)

theorem follows_setEntity {knowledge : Knowledge} {id : Uuid} {entity : Entity}
    (writes : knowledge.WritesEntity id entity) :
    Sparing knowledge (Redis.set (.entity id) entity) := by
  have allows : knowledge.Allows (.set (.entity id) entity) := writes
  refine .perform allows fun reply _ => ?_
  cases reply with
  | ok value => exact .done ⟨rfl, rfl⟩
  | error error => exact .fail (.refl knowledge)

theorem edits_of_follows {α : Type} {knowledge : Knowledge} {program : MemoryProgram α}
    {post : Knowledge → Except MnemoError α → Prop}
    (follows : editing.Follows post knowledge program) : Edits knowledge program :=
  follows.mono fun _ _ _ => trivial

theorem edits_recordEdgeAccess (edgeId : Uuid) :
    Edits (.initial (.recordEdgeAccess edgeId)) (recordEdgeAccess edgeId) := by
  apply bind_readEdge edgeId
  · intro copy expected
    cases copy with
    | none => exact .done trivial
    | some edge =>
      apply bind_now
      · intro accessedAt
        apply bind_now
        · intro updatedAt
          have own : edge.id = edgeId := expected edge rfl
          exact edits_of_follows
            (follows_setEdge (.revised (Function.update_self _ _ _) .accessed own))
        · exact fun _ => trivial
      · exact fun _ => trivial
  · exact fun _ => trivial

theorem follows_withEvidence (knowledge : Knowledge) (edge : Edge) (evidence : Option Uuid) :
    editing.Follows (fun last outcome => SameCopies knowledge last ∧
        knowledge.times ⊆ last.times ∧
        ∀ found, outcome = .ok found → found = edge ∨ ∃ now, found = edge.corroborate now)
      knowledge (withEvidence edge evidence) := by
  cases evidence with
  | none =>
    refine .done ⟨.refl knowledge, fun _ known => known, fun found same => .inl ?_⟩
    exact (Except.ok.inj same).symm
  | some episodeId =>
    apply bind_now
    · intro now
      refine .done ⟨⟨rfl, rfl⟩, List.subset_cons_self _ _, fun found same => .inr ⟨now, ?_⟩⟩
      exact (Except.ok.inj same).symm
    · exact fun error => ⟨.refl knowledge, fun _ known => known, fun _ same => nomatch same⟩

theorem edits_revalidateFact (userId : Uuid) (request : RevalidateFactRequest) :
    Edits (.initial (.revalidateFact userId request)) (revalidateFact userId request) := by
  unfold revalidateFact
  split
  · exact .fail trivial
  · apply (follows_getEdge _ request.edgeId).bind
    · rintro first edge ⟨editor, read⟩
      obtain ⟨own, copied⟩ := read edge rfl
      split
      · exact .fail trivial
      · split
        · exact .fail trivial
        · rename_i accepted
          have isOpen : edge.invalidAt = none := by
            rw [← Edge.isValid_iff]
            simpa using accepted
          rw [← own] at copied
          apply bind_now
          · intro validAt
            apply bind_now
            · intro updatedAt
              apply (follows_withEvidence _ _ request.evidenceEpisodeId).bind
              · rintro last revalidated ⟨same, times, found⟩
                have read : validAt ∈ last.times :=
                  times (List.mem_cons_of_mem _ List.mem_cons_self)
                have lastEditor : last.editor = .revalidateFact userId request :=
                  same.editor.trans editor
                have lastCopied : last.edges edge.id = some edge := by
                  rw [same.edges]
                  exact copied
                have writes : last.WritesEdge revalidated.id revalidated := by
                  rcases found revalidated rfl with rfl | ⟨now, rfl⟩
                  · refine .revised lastCopied ?_ rfl
                    rw [lastEditor]
                    exact .revalidated isOpen read
                  · refine .revised lastCopied ?_ rfl
                    rw [lastEditor]
                    exact .corroborated isOpen read
                exact bind_updateEdge writes (.done trivial) fun _ => trivial
              · exact fun _ _ _ => trivial
            · exact fun _ => trivial
          · exact fun _ => trivial
    · exact fun _ _ _ => trivial

theorem follows_closeLoser {knowledge : Knowledge} {userId clarificationId : Uuid}
    {request : ResolveClarificationRequest}
    (editor : knowledge.editor = .resolveClarification userId clarificationId request)
    (edgeId : Uuid) :
    editing.Follows (fun last _ => last.editor = knowledge.editor) knowledge
      (closeLoser edgeId) := by
  apply (follows_getEdge knowledge edgeId).bind_attempt
  rintro first outcome ⟨same, read⟩
  cases outcome with
  | error error => exact .done same
  | ok loser =>
    obtain ⟨own, copied⟩ := read loser rfl
    dsimp only
    split
    · rename_i valid
      rw [← own] at copied
      apply bind_now
      · intro now
        have writes : (first.tick now).WritesEdge (loser.invalidate 0 now).id
            (loser.invalidate 0 now) := by
          refine .revised copied ?_ rfl
          show RevisesEdge _ loser first.editor _
          rw [same, editor]
          exact .lost ((Edge.isValid_iff loser).mp valid) List.mem_cons_self
        apply (follows_setEdge writes).bind_attempt
        exact fun last _ kept => .done (kept.editor.trans same)
      · exact fun _ => same
    · exact .done same

theorem follows_closeLosers {knowledge : Knowledge} {userId clarificationId : Uuid}
    {request : ResolveClarificationRequest}
    (editor : knowledge.editor = .resolveClarification userId clarificationId request)
    (winnerId : Uuid) (edgeIds : List Uuid) :
    editing.Follows (fun last _ => last.editor = knowledge.editor) knowledge
      (closeLosers winnerId edgeIds) := by
  induction edgeIds generalizing knowledge with
  | nil => exact .done rfl
  | cons edgeId edgeIds ih =>
    unfold closeLosers
    split
    · apply (follows_closeLoser editor edgeId).bind
      · intro middle _ same
        apply (ih (same.trans editor)).mono
        exact fun last _ kept => kept.trans same
      · exact fun _ _ same => same
    · exact ih editor

theorem sparing_saveClarification (knowledge : Knowledge) (clarification : ClarificationRequest) :
    Sparing knowledge (saveClarification clarification) := by
  have stores : Performs Spares
      (Redis.set (.clarification clarification.id) clarification) :=
    Performs.call (Command.set (.clarification _) _ : MemoryCommand) trivial
  have ranks : Performs Spares (Redis.zadd (.userClarifications clarification.userId)
      clarification.id ⌊clarification.severity * 1000⌋) :=
    Performs.call (Command.zadd _ _ _ : MemoryCommand) trivial
  exact sparing_of_performs (stores.bind fun _ => ranks) knowledge

theorem edits_resolveClarification (userId clarificationId : Uuid)
    (request : ResolveClarificationRequest) :
    Edits (.initial (.resolveClarification userId clarificationId request))
      (resolveClarification userId clarificationId request) := by
  unfold resolveClarification
  split
  · exact .fail trivial
  · have reads : Performs Spares (Redis.getRequired (.clarification clarificationId)
        (.notFound "clarification" clarificationId.toText)) := by
      have get : Performs Spares (Redis.get (.clarification clarificationId)) :=
        Performs.call (Command.get (.clarification _) : MemoryCommand) trivial
      apply get.bind
      intro stored
      cases stored with
      | none => exact .fail
      | some doc => exact .done
    apply (sparing_of_performs reads _).bind
    · intro first clarification same
      split
      · exact .fail trivial
      · split
        · exact .fail trivial
        · have settles : editing.Follows (fun _ _ => True) first
              (settleConflict clarification request.winningEdgeId) := by
            cases request.winningEdgeId with
            | none => exact .done trivial
            | some winnerId =>
              exact (follows_closeLosers same.editor winnerId _).mono fun _ _ _ => trivial
          apply settles.bind
          · intro second _ _
            apply bind_now
            · intro now
              apply (sparing_saveClarification _ _).bind
              · exact fun _ _ _ => .done trivial
              · exact fun _ _ _ => trivial
            · exact fun _ => trivial
          · exact fun _ _ _ => trivial
    · exact fun _ _ _ => trivial

/-! ## Requests on classifications -/

section Classifications

variable {Item : Type} {records : Records Item}
  {patch grpcPatch : CallerContext → Uuid → Classification → Editor}

/-- How editors treat the records of a kind: what is read is copied, and what is classified is
what an editor may write. -/
structure Edited (records : Records Item)
    (patch grpcPatch : CallerContext → Uuid → Classification → Editor) where
  copied : Knowledge → Uuid → Item → Prop
  reads : ∀ knowledge id,
    editing.Follows (fun last outcome => last.editor = knowledge.editor ∧
      ∀ item, outcome = .ok item → copied last id item) knowledge (records.get id)
  patches : ∀ knowledge caller id item classification now,
    knowledge.editor = patch caller id classification → copied knowledge id item →
      (classification < records.classification item → caller.role = .admin) →
        Edits (knowledge.tick now) (records.update (records.classify item classification now))
  grpcPatches : ∀ knowledge caller id item classification now,
    knowledge.editor = grpcPatch caller id classification → copied knowledge id item →
      editing.Follows (fun last _ => last.editor = knowledge.editor) (knowledge.tick now)
        (records.update (records.classify item classification now))

theorem admin_of_mayReclassify {caller : CallerContext} {old new : Classification}
    (permitted : mayReclassify caller old new = .ok ()) (lower : new < old) :
    caller.role = .admin := by
  unfold mayReclassify at permitted
  rw [if_pos lower] at permitted
  cases required : caller.requireRole .admin with
  | ok _ => exact Auth.CallerContext.requireRole_admin_ok.mp required
  | error error =>
    rw [required] at permitted
    cases permitted

theorem edits_patchClassification (edited : Edited records patch grpcPatch)
    (caller : CallerContext) (id : Uuid) (classification : Classification) :
    Edits (.initial (patch caller id classification))
      (patchClassification records caller id classification) := by
  apply Follows.bind_ofExcept
  · intro _ _
    apply (edited.reads _ id).bind
    · rintro first item ⟨editor, copied⟩
      apply Follows.bind_ofExcept
      · intro _ _
        apply Follows.bind_ofExcept
        · intro _ permitted
          apply bind_now
          · intro now
            have writes := edited.patches first caller id item classification now editor
              (copied item rfl) (admin_of_mayReclassify permitted)
            exact writes.bind (fun _ _ _ => .done trivial) fun _ _ _ => trivial
          · exact fun _ => trivial
        · exact fun _ => trivial
      · exact fun _ => trivial
    · exact fun _ _ _ => trivial
  · exact fun _ => trivial

theorem edits_classifyAndVerify (edited : Edited records patch grpcPatch)
    {caller : CallerContext} {id : Uuid} {classification : Classification} (attempts : Nat)
    {knowledge : Knowledge} (editor : knowledge.editor = grpcPatch caller id classification) :
    Edits knowledge (classifyAndVerify records id classification attempts) := by
  induction attempts generalizing knowledge with
  | zero => exact .done trivial
  | succ attempts ih =>
    apply (edited.reads _ id).bind
    · rintro first item ⟨same, copied⟩
      have editorFirst : first.editor = grpcPatch caller id classification := same.trans editor
      apply bind_now
      · intro now
        have writes := edited.grpcPatches first caller id item classification now editorFirst
          (copied item rfl)
        apply writes.bind
        · intro second _ kept
          apply (edited.reads _ id).bind
          · rintro third written ⟨last, _⟩
            split
            · exact .done trivial
            · exact ih ((last.trans kept).trans editorFirst)
          · exact fun _ _ _ => trivial
        · exact fun _ _ _ => trivial
      · exact fun _ => trivial
    · exact fun _ _ _ => trivial

theorem edits_grpcPatchClassification (edited : Edited records patch grpcPatch)
    (caller : CallerContext) (id : Uuid) (classification : Classification) :
    Edits (.initial (grpcPatch caller id classification))
      (grpcPatchClassification records caller id classification) := by
  unfold grpcPatchClassification
  split
  · exact .done trivial
  · refine Follows.bind_attempt (?_ : Edits _ _) ?_
    · apply (edited.reads _ id).bind
      · rintro first item ⟨editor, _⟩
        split
        · exact .done trivial
        · exact edits_classifyAndVerify edited 3 editor
      · exact fun _ _ _ => trivial
    · intro _ outcome _
      cases outcome with
      | ok answer => exact .done trivial
      | error error => exact .done trivial

end Classifications

/-- Classified edges are read and written as editors do. -/
def editedEdges :
    Edited edgeRecords Editor.patchEdgeClassification Editor.grpcPatchEdgeClassification where
  copied knowledge id edge := edge.id = id ∧ knowledge.edges id = some edge
  reads := follows_getEdge
  patches := by
    rintro knowledge caller id edge classification now editor ⟨rfl, copied⟩ mayLower
    refine edits_of_follows (follows_setEdge (.revised copied ?_ rfl))
    show RevisesEdge _ edge knowledge.editor _
    rw [editor]
    exact .patched mayLower
  grpcPatches := by
    rintro knowledge caller id edge classification now editor ⟨rfl, copied⟩
    have writes : (knowledge.tick now).WritesEdge edge.id (edge.classify classification now) := by
      refine .revised copied ?_ rfl
      show RevisesEdge _ edge knowledge.editor _
      rw [editor]
      exact .grpcPatched
    exact (follows_setEdge writes).mono fun last _ kept => kept.editor

/-- Classified entities are read and written as editors do. -/
def editedEntities :
    Edited entityRecords Editor.patchEntityClassification
      Editor.grpcPatchEntityClassification where
  copied knowledge id entity := entity.id = id ∧ knowledge.entities id = some entity
  reads knowledge id := by
    apply (follows_getEntity knowledge id).mono
    rintro last outcome ⟨same, copied⟩
    exact ⟨same.editor, copied⟩
  patches := by
    rintro knowledge caller id entity classification now editor ⟨rfl, copied⟩ mayLower
    have writes : (knowledge.tick now).WritesEntity entity.id
        (entity.classify classification now) := by
      refine .revised copied ?_ rfl
      show RevisesEntity entity knowledge.editor _
      rw [editor]
      exact .patched mayLower
    exact edits_of_follows (follows_setEntity writes)
  grpcPatches := by
    rintro knowledge caller id entity classification now editor ⟨rfl, copied⟩
    have writes : (knowledge.tick now).WritesEntity entity.id
        (entity.classify classification now) := by
      refine .revised copied ?_ rfl
      show RevisesEntity entity knowledge.editor _
      rw [editor]
      exact .grpcPatched
    exact (follows_setEntity writes).mono fun last _ kept => kept.editor

/-! ## Processing of episodes -/

section Processing

variable (unicode : Unicode) (fallback : String → Option ExtractionResult)
  {episode : Episode} {knowledge : Knowledge}

theorem spares_getAll_readEntity (ids : List Uuid) : Performs Spares (getAll readEntity ids) := by
  induction ids with
  | nil => exact .done
  | cons id ids ih =>
    have read : Performs Spares (readEntity id) :=
      Performs.call (Command.get (.entity id) : MemoryCommand) trivial
    exact read.bind fun _ => ih.bind fun _ => .done

theorem spares_ask (service : MemoryService) : Performs Spares (Redis.ask service) :=
  Performs.call (Command.service service : MemoryCommand) trivial

theorem spares_extract (episode : Episode) :
    Performs Spares (Ingest.extract fallback episode) := by
  have page : Performs Spares (pageIds (.userEntities episode.userId) 100 none) :=
    Performs.call (Command.zrevrange _ _ _ : MemoryCommand) trivial
  apply (page.bind spares_getAll_readEntity).bind
  intro existing
  apply (spares_ask _).bind
  intro extraction
  split
  · exact .done
  · exact .done

theorem follows_findEntityByName (knowledge : Knowledge) (userId : Uuid) (name : String) :
    editing.Follows (fun last outcome => SameCopies knowledge last ∧
        ∀ entity, outcome = .ok (some entity) → last.entities entity.id = some entity)
      knowledge (findEntityByName unicode userId name) := by
  have looks : Spares (.get (.entityName userId (unicode.toLowercase name))) := trivial
  apply (sparing_call looks knowledge).bind
  · intro first found same
    cases found with
    | none => exact .done ⟨same, fun _ given => nomatch given⟩
    | some id =>
      apply (follows_getEntity first id).bind
      · rintro second entity ⟨kept, read⟩
        obtain ⟨own, copied⟩ := read entity rfl
        refine .done ⟨same.trans kept, fun other given => ?_⟩
        obtain rfl := Option.some.inj (Except.ok.inj given)
        rw [own]
        exact copied
      · rintro second error ⟨kept, _⟩
        exact ⟨same.trans kept, fun _ given => nomatch given⟩
  · exact fun last error same => ⟨same, fun _ given => nomatch given⟩

theorem follows_createEntity {entity : Entity} (fresh : entity.id ∈ knowledge.drawn) :
    Sparing knowledge (createEntity unicode entity) := by
  apply (follows_setEntity (.new fresh rfl)).bind
  · intro first _ same
    have indexes : Performs Spares (Redis.zadd (.userEntities entity.userId) entity.id
        (timestampMillis entity.createdAt)) :=
      Performs.call (Command.zadd _ _ _ : MemoryCommand) trivial
    have enters : Performs Spares
        (Redis.set (.entityName entity.userId (unicode.toLowercase entity.name)) entity.id) :=
      Performs.call (Command.set (.entityName _ _) _ : MemoryCommand) trivial
    apply (sparing_of_performs (indexes.bind fun _ => enters.bind fun _ => .done) first).mono
    exact fun last _ kept => same.trans kept
  · exact fun _ _ same => same

theorem follows_withSummary (knowledge : Knowledge) (episode : Episode) (entity : Entity)
    (now : DateTime) (summary : Option String) :
    editing.Follows (fun last outcome => SameCopies knowledge last ∧
        last.entities = knowledge.entities ∧ ∀ updated, outcome = .ok updated →
          RevisesEntity entity (.processEpisode episode) updated)
      knowledge (Ingest.withSummary (entity.recordMention now) summary) := by
  cases summary with
  | none =>
    refine .done ⟨.refl knowledge, rfl, fun updated given => ?_⟩
    obtain rfl := Except.ok.inj given
    exact .mentioned
  | some summary =>
    apply bind_now
    · intro later
      refine .done ⟨⟨rfl, rfl⟩, rfl, fun updated given => ?_⟩
      obtain rfl := Except.ok.inj given
      exact .summarized
    · exact fun error => ⟨.refl knowledge, rfl, fun _ given => nomatch given⟩

theorem follows_resolveEntity (editor : knowledge.editor = .processEpisode episode)
    (extracted : ExtractedEntity) :
    Sparing knowledge (Ingest.resolveEntity unicode episode extracted) := by
  apply (follows_findEntityByName unicode knowledge episode.userId extracted.name).bind
  · rintro first existing ⟨same, copied⟩
    cases existing with
    | some entity =>
      have known : first.entities entity.id = some entity := copied entity rfl
      apply bind_now
      · intro now
        apply (follows_withSummary _ episode entity now extracted.summary).bind
        · rintro last updated ⟨kept, still, revised⟩
          have revises := revised updated rfl
          have through : SameCopies knowledge last :=
            same.trans ⟨kept.editor, kept.edges⟩
          have writes : last.WritesEntity updated.id updated := by
            have copied : last.entities updated.id = some entity := by
              rw [still, revises.id_eq]
              exact known
            refine .revised copied ?_ rfl
            rw [through.editor, editor]
            exact revises
          exact bind_updateEntity writes (.done ⟨through.editor, through.edges⟩) fun _ => through
        · rintro last error ⟨kept, _⟩
          exact same.trans ⟨kept.editor, kept.edges⟩
      · exact fun _ => same
    | none =>
      apply bind_now
      · intro now
        apply bind_newId
        · intro id
          apply (follows_createEntity unicode _).bind
          · intro last created kept
            have rest : Performs Spares (do
                let _ ← Redis.ask (.embed (created.name ++ " (" ++
                  created.entityType.asStr ++ ")"))
                let _ ← Redis.ask (.upsertEntityEmbedding created.id created.userId)
                return (created.id, true)) :=
              (spares_ask _).bind fun _ => (spares_ask _).bind fun _ => .done
            apply (sparing_of_performs rest last).mono
            intro final _ still
            exact same.trans (SameCopies.trans ⟨kept.editor, kept.edges⟩ still)
          · intro last error kept
            exact same.trans ⟨kept.editor, kept.edges⟩
          · exact List.mem_cons_self
        · exact fun _ => ⟨same.editor, same.edges⟩
      · exact fun _ => same
  · exact fun last error described => described.1

theorem follows_resolveEntities (editor : knowledge.editor = .processEpisode episode)
    (extracted : List ExtractedEntity) (names : Ingest.NameMap) (newIds : List Uuid) :
    Sparing knowledge (Ingest.resolveEntities unicode episode extracted names newIds) := by
  induction extracted generalizing knowledge names newIds with
  | nil => exact .done (.refl knowledge)
  | cons extracted rest ih =>
    apply (follows_resolveEntity unicode editor extracted).bind
    · rintro first ⟨id, isNew⟩ same
      exact (ih (same.editor.trans editor) _ _).mono fun last _ kept => same.trans kept
    · exact fun _ _ same => same

theorem follows_invalidateEdges (editor : knowledge.editor = .processEpisode episode)
    {edges : List Edge} (copied : Copied knowledge edges)
    (allOpen : ∀ edge ∈ edges, edge.invalidAt = none) :
    Sparing knowledge (Ingest.invalidateEdges episode edges) := by
  induction edges generalizing knowledge with
  | nil => exact .done (.refl knowledge)
  | cons edge edges ih =>
    apply bind_now
    · intro now
      have writes : (knowledge.tick now).WritesEdge (edge.invalidate episode.id now).id
          (edge.invalidate episode.id now) := by
        refine .revised (copied edge List.mem_cons_self) ?_ rfl
        show RevisesEdge _ edge knowledge.editor _
        rw [editor]
        exact .superseded (allOpen edge List.mem_cons_self) List.mem_cons_self
      apply bind_updateEdge writes
      · apply (ih _ _ _).mono
        · exact fun last _ kept => ⟨kept.editor, kept.edges⟩
        · exact editor
        · exact fun other member => copied other (List.mem_cons_of_mem _ member)
        · exact fun other member => allOpen other (List.mem_cons_of_mem _ member)
      · exact fun _ => ⟨rfl, rfl⟩
    · exact fun _ => .refl knowledge

theorem spares_entityNameOrEmpty (id : Uuid) :
    Performs Spares (Ingest.entityNameOrEmpty id) := by
  have read : Performs Spares (Redis.get (.entity id)) :=
    Performs.call (Command.get (.entity id) : MemoryCommand) trivial
  have required : Performs Spares (getEntity id) := by
    apply read.bind
    intro stored
    cases stored with
    | none => exact .fail
    | some entity => exact .done
  apply required.attempt.bind
  intro outcome
  cases outcome with
  | ok entity => exact .done
  | error error => exact .done

theorem follows_supersedeOthers (editor : knowledge.editor = .processEpisode episode)
    (rel : ExtractedRelationship) {edges : List Edge} (copied : Copied knowledge edges)
    (allOpen : ∀ edge ∈ edges, edge.invalidAt = none) :
    Sparing knowledge (Ingest.supersedeOthers unicode episode rel edges) := by
  induction edges generalizing knowledge with
  | nil => exact .done (.refl knowledge)
  | cons edge edges ih =>
    have rest {last : Knowledge} (same : SameCopies knowledge last) :
        editing.Follows (fun final _ => SameCopies knowledge final) last
          (Ingest.supersedeOthers unicode episode rel edges) := by
      apply (ih (same.editor.trans editor) _ _).mono
      · exact fun final _ kept => same.trans kept
      · exact Copied.of_sameCopies
          (fun other member => copied other (List.mem_cons_of_mem _ member)) same
      · exact fun other member => allOpen other (List.mem_cons_of_mem _ member)
    apply (sparing_of_performs (spares_entityNameOrEmpty edge.targetEntityId) knowledge).bind
    · intro first oldTarget same
      split
      · apply bind_now
        · intro now
          have writes : (first.tick now).WritesEdge (edge.invalidate episode.id now).id
              (edge.invalidate episode.id now) := by
            refine .revised (copied.of_sameCopies same edge List.mem_cons_self) ?_ rfl
            show RevisesEdge _ edge first.editor _
            rw [same.editor, editor]
            exact .superseded (allOpen edge List.mem_cons_self) List.mem_cons_self
          apply (follows_setEdge writes).bind_attempt
          exact fun last _ kept => rest (same.trans ⟨kept.editor, kept.edges⟩)
        · exact fun _ => same
      · exact rest same
    · exact fun _ _ same => same

/-- The editor stays the same. -/
abbrev KeepsEditor {α : Type} (knowledge : Knowledge) (program : MemoryProgram α) : Prop :=
  editing.Follows (fun last _ => last.editor = knowledge.editor) knowledge program

theorem follows_createEdge {edge : Edge} (fresh : edge.id ∈ knowledge.drawn)
    (isOpen : edge.invalidAt = none) : Sparing knowledge (createEdge unicode edge) := by
  apply Follows.bind_ofExcept
  · intro _ _
    apply (follows_setEdge (.new fresh isOpen rfl)).bind
    · intro first _ same
      have enters (index : MemoryIndex) : Performs Spares
          (Redis.zadd index edge.id (timestampMillis edge.validAt)) :=
        Performs.call (Command.zadd _ _ _ : MemoryCommand) trivial
      have rest : Performs Spares (do
          Redis.zadd (.adjOut edge.sourceEntityId) edge.id (timestampMillis edge.validAt)
          Redis.zadd (.adjIn edge.targetEntityId) edge.id (timestampMillis edge.validAt)
          Redis.zadd (.userEdges edge.userId) edge.id (timestampMillis edge.validAt)
          return edge) :=
        (enters _).bind fun _ => (enters _).bind fun _ => (enters _).bind fun _ => .done
      exact (sparing_of_performs rest first).mono fun last _ kept => same.trans kept
    · exact fun _ _ same => same
  · exact fun _ => .refl knowledge

theorem follows_storeFact (knowledge : Knowledge) (episode : Episode)
    (rel : ExtractedRelationship) (sourceId targetId : Uuid) :
    KeepsEditor knowledge (Ingest.storeFact unicode episode rel sourceId targetId) := by
  apply bind_now
  · intro now
    apply bind_newId
    · intro id
      apply (follows_createEdge unicode _ _).bind
      · intro first created same
        have rest : Performs Spares (do
            let _ ← Redis.ask (.embed created.fact)
            let _ ← Redis.ask (.upsertEdgeEmbedding created.id created.userId)
            return created.id) :=
          (spares_ask _).bind fun _ => (spares_ask _).bind fun _ => .done
        exact (sparing_of_performs rest first).mono fun last _ kept =>
          kept.editor.trans same.editor
      · exact fun _ _ same => same.editor
      · exact List.mem_cons_self
      · rfl
    · exact fun _ => rfl
  · exact fun _ => rfl

theorem follows_outgoingOrNone (knowledge : Knowledge) (entityId : Uuid) :
    editing.Follows (fun last outcome => last.editor = knowledge.editor ∧
        ∀ edges, outcome = .ok edges → Copied last edges)
      knowledge (Ingest.outgoingOrNone entityId) := by
  apply (follows_getOutgoingEdges knowledge entityId).bind_attempt
  rintro last outcome ⟨editor, copied⟩
  cases outcome with
  | ok edges =>
    refine .done ⟨editor, fun found given => ?_⟩
    exact copied found given
  | error error =>
    refine .done ⟨editor, fun found given => ?_⟩
    obtain rfl := Except.ok.inj given
    exact fun edge member => nomatch member

theorem follows_processFact (editor : knowledge.editor = .processEpisode episode)
    (rel : ExtractedRelationship) (sourceId targetId : Uuid) :
    KeepsEditor knowledge (Ingest.processFact unicode episode rel sourceId targetId) := by
  have finds : editing.Follows (fun last outcome => last.editor = knowledge.editor ∧
        ∀ edges, outcome = .ok edges → Copied last edges ∧ ∀ edge ∈ edges, edge.invalidAt = none)
      knowledge (findConflictingEdges episode.userId sourceId targetId rel.label) := by
    apply (follows_getOutgoingEdges knowledge sourceId).bind
    · rintro last edges ⟨same, copied⟩
      refine .done ⟨same, fun found given => ?_⟩
      obtain rfl := Except.ok.inj given
      refine ⟨(copied edges rfl).filter _, fun edge member => ?_⟩
      have passes := (List.mem_filter.mp member).2
      exact (Edge.isValid_iff edge).mp (by simp_all)
    · exact fun last error described => ⟨described.1, fun _ given => nomatch given⟩
  apply finds.bind
  · rintro first conflicts ⟨sameFirst, found⟩
    obtain ⟨copied, isOpen⟩ := found conflicts rfl
    apply (follows_invalidateEdges (sameFirst.trans editor) copied isOpen).bind
    · intro second _ kept
      have sameSecond : second.editor = knowledge.editor := kept.editor.trans sameFirst
      apply (follows_outgoingOrNone second sourceId).bind
      · rintro third outgoing ⟨sameThird, read⟩
        have editorThird : third.editor = .processEpisode episode :=
          sameThird.trans (sameSecond.trans editor)
        have copies := (read outgoing rfl).filter (Ingest.isBeliefChange episode rel targetId)
        apply (follows_supersedeOthers unicode editorThird rel copies _).bind
        · intro fourth _ still
          apply (follows_storeFact unicode fourth episode rel sourceId targetId).mono
          intro last _ finish
          exact finish.trans (still.editor.trans (sameThird.trans sameSecond))
        · exact fun last error still => still.editor.trans (sameThird.trans sameSecond)
        · intro edge member
          have passes := (List.mem_filter.mp member).2
          unfold Ingest.isBeliefChange at passes
          exact (Edge.isValid_iff edge).mp (by simp_all)
      · exact fun last error described => described.1.trans sameSecond
    · exact fun last error still => still.editor.trans sameFirst
  · exact fun last error described => described.1

theorem follows_processRelationships (editor : knowledge.editor = .processEpisode episode)
    (names : Ingest.NameMap) (rels : List ExtractedRelationship) (newIds : List Uuid) :
    KeepsEditor knowledge
      (Ingest.processRelationships unicode episode names rels newIds) := by
  induction rels generalizing knowledge newIds with
  | nil => exact .done rfl
  | cons rel rels ih =>
    unfold Ingest.processRelationships
    split
    · rename_i sourceId targetId _ _
      apply (follows_processFact unicode editor rel sourceId targetId).bind
      · intro middle _ same
        exact (ih (same.trans editor) _).mono fun last _ kept => kept.trans same
      · exact fun _ _ same => same
    · exact ih editor newIds

theorem edits_processEpisode (episode : Episode) :
    Edits (.initial (.processEpisode episode))
      (Ingest.processEpisode unicode fallback episode) := by
  apply (sparing_of_performs (spares_extract fallback episode) _).bind
  · intro first extraction same
    apply (follows_resolveEntities unicode same.editor extraction.entities [] []).bind
    · rintro second ⟨names, newEntityIds⟩ kept
      apply (follows_processRelationships unicode (kept.editor.trans same.editor) names
        extraction.relationships []).bind
      · intro third newEdgeIds _
        have stores : Performs Spares
            (updateEpisode (episode.markCompleted newEntityIds newEdgeIds)) :=
          Performs.call (Command.set (.episode _) _ : MemoryCommand) trivial
        exact edits_of_follows (sparing_of_performs
          ((spares_ask _).bind fun _ => (spares_ask _).bind fun _ => stores) third)
      · exact fun _ _ _ => trivial
    · exact fun _ _ _ => trivial
  · exact fun _ _ _ => trivial

theorem edits_program (editor : Editor) :
    Edits (.initial editor) (editor.program unicode fallback) := by
  have ends {α : Type} {knowledge : Knowledge} {program : MemoryProgram α}
      (edits : Edits knowledge program) : Edits knowledge (program >>= fun _ => pure ()) :=
    edits.bind (fun _ _ _ => .done trivial) fun _ _ _ => trivial
  cases editor with
  | processEpisode episode =>
    exact edits_processEpisode unicode fallback episode
  | recordEdgeAccess edgeId => exact edits_recordEdgeAccess edgeId
  | revalidateFact userId request => exact ends (edits_revalidateFact userId request)
  | resolveClarification userId clarificationId request =>
    exact ends (edits_resolveClarification userId clarificationId request)
  | patchEntityClassification caller id classification =>
    exact ends (edits_patchClassification editedEntities caller id classification)
  | patchEdgeClassification caller id classification =>
    exact ends (edits_patchClassification editedEdges caller id classification)
  | grpcPatchEntityClassification caller id classification =>
    exact ends (edits_grpcPatchClassification editedEntities caller id classification)
  | grpcPatchEdgeClassification caller id classification =>
    exact ends (edits_grpcPatchClassification editedEdges caller id classification)

end Processing
end Graph
end Mnemo
