import Mnemo.Graph.Routes
import Mnemo.Ingest.Stages

/-!
# Editors of the graph

Every request that changes stored edges or entities reads a record and writes back what it has made
of its copy.  What an editor knows are its latest copies, the readings of the clock, and the
identifiers that it has drawn and not yet used.
-/

namespace Mnemo
namespace Graph

open Memory
open Auth (ApiKeyRole CallerContext)
open Database (Command)
open Program (Performs Protocol)
open Program.Protocol (Follows)

/-- A request that changes edges or entities. -/
inductive Editor where
  | processEpisode (episode : Episode)
  | recordEdgeAccess (edgeId : Uuid)
  | revalidateFact (userId : Uuid) (request : RevalidateFactRequest)
  | resolveClarification (userId clarificationId : Uuid) (request : ResolveClarificationRequest)
  | patchEntityClassification (caller : CallerContext) (id : Uuid)
      (classification : Classification)
  | patchEdgeClassification (caller : CallerContext) (id : Uuid) (classification : Classification)
  | grpcPatchEntityClassification (caller : CallerContext) (id : Uuid)
      (classification : Classification)
  | grpcPatchEdgeClassification (caller : CallerContext) (id : Uuid)
      (classification : Classification)
  deriving DecidableEq

section Programs

variable (unicode : Unicode) (fallback : String → Option ExtractionResult)

/-- What an editor does. -/
def Editor.program : Editor → MemoryProgram Unit
  | .processEpisode episode =>
      Ingest.processEpisode unicode fallback episode
  | .recordEdgeAccess edgeId => Graph.recordEdgeAccess edgeId
  | .revalidateFact userId request => do
      let _ ← Graph.revalidateFact userId request
      return ()
  | .resolveClarification userId clarificationId request => do
      let _ ← Graph.resolveClarification userId clarificationId request
      return ()
  | .patchEntityClassification caller id classification => do
      let _ ← Graph.patchEntityClassification caller id classification
      return ()
  | .patchEdgeClassification caller id classification => do
      let _ ← Graph.patchEdgeClassification caller id classification
      return ()
  | .grpcPatchEntityClassification caller id classification => do
      let _ ← Graph.grpcPatchEntityClassification caller id classification
      return ()
  | .grpcPatchEdgeClassification caller id classification => do
      let _ ← Graph.grpcPatchEdgeClassification caller id classification
      return ()

end Programs

/-! ## What an editor knows -/

/-- The knowledge of an editor. -/
structure Knowledge where
  editor : Editor
  /-- The latest copies of edges. -/
  edges : Uuid → Option Edge
  /-- The latest copies of entities. -/
  entities : Uuid → Option Entity
  /-- The readings of the clock. -/
  times : List DateTime
  /-- The identifiers that were drawn, and under which nothing was stored yet. -/
  drawn : List Uuid

namespace Knowledge

/-- An editor that has read nothing. -/
def initial (editor : Editor) : Knowledge :=
  { editor
    edges := fun _ => none
    entities := fun _ => none
    times := []
    drawn := [] }

/-- A copy of an edge is read. -/
def copyEdge (knowledge : Knowledge) (id : Uuid) (copy : Option Edge) : Knowledge :=
  { knowledge with edges := Function.update knowledge.edges id copy }

/-- A copy of an entity is read. -/
def copyEntity (knowledge : Knowledge) (id : Uuid) (copy : Option Entity) : Knowledge :=
  { knowledge with entities := Function.update knowledge.entities id copy }

/-- The clock is read. -/
def tick (knowledge : Knowledge) (now : DateTime) : Knowledge :=
  { knowledge with times := now :: knowledge.times }

/-- An identifier is drawn. -/
def draw (knowledge : Knowledge) (id : Uuid) : Knowledge :=
  { knowledge with drawn := id :: knowledge.drawn }

/-- Something is stored under a drawn identifier. -/
def use (knowledge : Knowledge) (id : Uuid) : Knowledge :=
  { knowledge with drawn := knowledge.drawn.filter (· != id) }

@[simp]
theorem edges_copyEdge_self (knowledge : Knowledge) (id : Uuid) (copy : Option Edge) :
    (knowledge.copyEdge id copy).edges id = copy := Function.update_self _ _ _

theorem edges_copyEdge_of_ne (knowledge : Knowledge) {id other : Uuid} (different : other ≠ id)
    (copy : Option Edge) : (knowledge.copyEdge id copy).edges other = knowledge.edges other :=
  Function.update_of_ne different _ _

@[simp]
theorem entities_copyEntity_self (knowledge : Knowledge) (id : Uuid) (copy : Option Entity) :
    (knowledge.copyEntity id copy).entities id = copy := Function.update_self _ _ _

theorem entities_copyEntity_of_ne (knowledge : Knowledge) {id other : Uuid}
    (different : other ≠ id) (copy : Option Entity) :
    (knowledge.copyEntity id copy).entities other = knowledge.entities other :=
  Function.update_of_ne different _ _

/-- What the reply to a command adds. -/
def learn (knowledge : Knowledge) : (command : MemoryCommand) →
    Except MnemoError (command.Reply MemoryAnswer) → Knowledge
  | .get (.edge id), .ok copy => knowledge.copyEdge id copy
  | .get (.entity id), .ok copy => knowledge.copyEntity id copy
  | .set (.edge id) _, .ok _ => knowledge.use id
  | .set (.entity id) _, .ok _ => knowledge.use id
  | .clock, .ok now => knowledge.tick now
  | .freshId, .ok id => knowledge.draw id
  | _, _ => knowledge

end Knowledge

theorem editor_learn (knowledge : Knowledge) (command : MemoryCommand)
    (reply : Except MnemoError (command.Reply MemoryAnswer)) :
    (knowledge.learn command reply).editor = knowledge.editor := by
  cases reply with
  | error error =>
    cases command with
    | get key => cases key <;> rfl
    | set key doc => cases key <;> rfl
    | _ => rfl
  | ok value =>
    cases command with
    | get key => cases key <;> rfl
    | set key doc => cases key <;> rfl
    | _ => rfl

/-- What an editor makes of its copy of an edge. -/
inductive RevisesEdge (times : List DateTime) (copy : Edge) : Editor → Edge → Prop
  | superseded {episode : Episode} {now : DateTime} (isOpen : copy.invalidAt = none)
      (read : now ∈ times) :
      RevisesEdge times copy (.processEpisode episode) (copy.invalidate episode.id now)
  | lost {userId clarificationId : Uuid} {request : ResolveClarificationRequest} {now : DateTime}
      (isOpen : copy.invalidAt = none) (read : now ∈ times) :
      RevisesEdge times copy (.resolveClarification userId clarificationId request)
        (copy.invalidate 0 now)
  | accessed {edgeId : Uuid} {accessedAt updatedAt : DateTime} :
      RevisesEdge times copy (.recordEdgeAccess edgeId) (copy.recordAccess accessedAt updatedAt)
  | revalidated {userId : Uuid} {request : RevalidateFactRequest} {validAt updatedAt : DateTime}
      (isOpen : copy.invalidAt = none) (read : validAt ∈ times) :
      RevisesEdge times copy (.revalidateFact userId request)
        (copy.revalidate request.newConfidence validAt updatedAt)
  | corroborated {userId : Uuid} {request : RevalidateFactRequest}
      {validAt updatedAt now : DateTime} (isOpen : copy.invalidAt = none)
      (read : validAt ∈ times) :
      RevisesEdge times copy (.revalidateFact userId request)
        ((copy.revalidate request.newConfidence validAt updatedAt).corroborate now)
  | patched {caller : CallerContext} {id : Uuid} {classification : Classification}
      {now : DateTime} (mayLower : classification < copy.classification → caller.role = .admin) :
      RevisesEdge times copy (.patchEdgeClassification caller id classification)
        (copy.classify classification now)
  | grpcPatched {caller : CallerContext} {id : Uuid} {classification : Classification}
      {now : DateTime} :
      RevisesEdge times copy (.grpcPatchEdgeClassification caller id classification)
        (copy.classify classification now)

/-- What an editor makes of its copy of an entity. -/
inductive RevisesEntity (copy : Entity) : Editor → Entity → Prop
  | mentioned {episode : Episode} {now : DateTime} :
      RevisesEntity copy (.processEpisode episode) (copy.recordMention now)
  | summarized {episode : Episode} {now later : DateTime} {summary : String} :
      RevisesEntity copy (.processEpisode episode)
        ((copy.recordMention now).updateSummary summary later)
  | patched {caller : CallerContext} {id : Uuid} {classification : Classification}
      {now : DateTime} (mayLower : classification < copy.classification → caller.role = .admin) :
      RevisesEntity copy (.patchEntityClassification caller id classification)
        (copy.classify classification now)
  | grpcPatched {caller : CallerContext} {id : Uuid} {classification : Classification}
      {now : DateTime} :
      RevisesEntity copy (.grpcPatchEntityClassification caller id classification)
        (copy.classify classification now)

theorem RevisesEntity.id_eq {copy entity : Entity} {editor : Editor}
    (revises : RevisesEntity copy editor entity) : entity.id = copy.id := by
  cases revises <;> rfl

namespace Knowledge

/-- The editor stores what it has made of its copy of the edge, or a new edge which is open. -/
inductive WritesEdge (knowledge : Knowledge) (id : Uuid) (edge : Edge) : Prop
  | revised {copy : Edge} (copied : knowledge.edges id = some copy)
      (revises : RevisesEdge knowledge.times copy knowledge.editor edge) (own : edge.id = id)
  | new (fresh : id ∈ knowledge.drawn) (isOpen : edge.invalidAt = none) (own : edge.id = id)

/-- The editor stores what it has made of its copy of the entity, or a new entity. -/
inductive WritesEntity (knowledge : Knowledge) (id : Uuid) (entity : Entity) : Prop
  | revised {copy : Entity} (copied : knowledge.entities id = some copy)
      (revises : RevisesEntity copy knowledge.editor entity) (own : entity.id = id)
  | new (fresh : id ∈ knowledge.drawn) (own : entity.id = id)

/-- What an editor may do. -/
def Allows (knowledge : Knowledge) : MemoryCommand → Prop
  | .set (.edge id) edge => knowledge.WritesEdge id edge
  | .set (.entity id) entity => knowledge.WritesEntity id entity
  | .del (.edge _) | .del (.entity _) => False
  | _ => True

end Knowledge

/-- Edges and entities are read under their own identifiers, and sets have no member twice. -/
def Expects : (command : MemoryCommand) → Except MnemoError (command.Reply MemoryAnswer) → Prop
  | .get (.edge id), .ok copy => ∀ edge, copy = some edge → Edge.id edge = id
  | .get (.entity id), .ok copy => ∀ entity, copy = some entity → Entity.id entity = id
  | .zrevrange _ _ _, .ok ids => List.Nodup ids
  | _, _ => True

/-- The protocol of editors. -/
def editing : Protocol MemoryCommand (·.Reply MemoryAnswer) MnemoError Knowledge where
  start := .initial (.recordEdgeAccess 0)
  allowed := Knowledge.Allows
  expected _ := Expects
  next := Knowledge.learn

/-! ## Commands that concern no edge -/

/-- A command that neither reads an edge nor writes an edge or an entity. -/
def Spares : MemoryCommand → Prop
  | .get (.edge _) => False
  | .set (.edge _) _ | .set (.entity _) _ => False
  | .del (.edge _) | .del (.entity _) => False
  | _ => True

/-- The editor and its copies of edges are the same. -/
structure SameCopies (before after : Knowledge) : Prop where
  editor : after.editor = before.editor
  edges : after.edges = before.edges

namespace SameCopies

theorem refl (knowledge : Knowledge) : SameCopies knowledge knowledge := ⟨rfl, rfl⟩

theorem trans {first second third : Knowledge} (one : SameCopies first second)
    (two : SameCopies second third) : SameCopies first third :=
  ⟨two.editor.trans one.editor, two.edges.trans one.edges⟩

end SameCopies

theorem Spares.allows {command : MemoryCommand} (spares : Spares command)
    (knowledge : Knowledge) : knowledge.Allows command := by
  cases command with
  | set key doc =>
    cases key with
    | edge id => exact spares.elim
    | entity id => exact spares.elim
    | _ => trivial
  | del key =>
    cases key with
    | edge id => exact spares.elim
    | entity id => exact spares.elim
    | _ => trivial
  | _ => trivial

theorem Spares.sameCopies {command : MemoryCommand} (spares : Spares command)
    (knowledge : Knowledge) (reply : Except MnemoError (command.Reply MemoryAnswer)) :
    SameCopies knowledge (knowledge.learn command reply) := by
  cases reply with
  | error error =>
    cases command with
    | get key => cases key <;> exact .refl _
    | set key doc => cases key <;> exact .refl _
    | _ => exact .refl _
  | ok value =>
    cases command with
    | get key =>
      cases key with
      | edge id => exact spares.elim
      | _ => exact ⟨rfl, rfl⟩
    | set key doc =>
      cases key with
      | edge id => exact spares.elim
      | entity id => exact spares.elim
      | _ => exact ⟨rfl, rfl⟩
    | _ => exact ⟨rfl, rfl⟩

/-- Where a program leaves an editor, whose copies it does not touch. -/
abbrev Sparing {α : Type} (knowledge : Knowledge) (program : MemoryProgram α) : Prop :=
  editing.Follows (fun last _ => SameCopies knowledge last) knowledge program

theorem sparing_of_performs {α : Type} {program : MemoryProgram α}
    (performs : Performs Spares program) (knowledge : Knowledge) : Sparing knowledge program := by
  suffices general : ∀ current, SameCopies knowledge current →
      editing.Follows (fun last _ => SameCopies knowledge last) current program from
    general knowledge (.refl knowledge)
  induction performs with
  | done => exact fun current same => .done same
  | fail => exact fun current same => .fail same
  | perform belongs _ ih =>
    intro current same
    exact .perform (belongs.allows current) fun reply _ =>
      ih reply _ (same.trans (belongs.sameCopies current reply))

theorem sparing_call {command : MemoryCommand} (spares : Spares command)
    (knowledge : Knowledge) : Sparing knowledge (Program.call command) :=
  sparing_of_performs (Performs.call command spares) knowledge

/-! ## Single commands -/

section Steps

variable {β : Type} {post : Knowledge → Except MnemoError β → Prop} {knowledge : Knowledge}

theorem bind_readEdge {next : Option Edge → MemoryProgram β} (id : Uuid)
    (rest : ∀ copy, (∀ edge, copy = some edge → edge.id = id) →
      editing.Follows post (knowledge.copyEdge id copy) (next copy))
    (fails : ∀ error, post knowledge (.error error)) :
    editing.Follows post knowledge (Redis.get (.edge id) >>= next) := by
  have allows : knowledge.Allows (.get (.edge id)) := trivial
  exact Follows.bind_call allows (fun copy expected => rest copy expected) fun error _ =>
    fails error

theorem bind_readEntity {next : Option Entity → MemoryProgram β} (id : Uuid)
    (rest : ∀ copy, (∀ entity, copy = some entity → entity.id = id) →
      editing.Follows post (knowledge.copyEntity id copy) (next copy))
    (fails : ∀ error, post knowledge (.error error)) :
    editing.Follows post knowledge (Redis.get (.entity id) >>= next) := by
  have allows : knowledge.Allows (.get (.entity id)) := trivial
  exact Follows.bind_call allows (fun copy expected => rest copy expected) fun error _ =>
    fails error

theorem bind_now {next : DateTime → MemoryProgram β}
    (rest : ∀ now, editing.Follows post (knowledge.tick now) (next now))
    (fails : ∀ error, post knowledge (.error error)) :
    editing.Follows post knowledge (Redis.now >>= next) := by
  have allows : knowledge.Allows .clock := trivial
  exact Follows.bind_call allows (fun now _ => rest now) fun error _ => fails error

theorem bind_newId {next : Uuid → MemoryProgram β}
    (rest : ∀ id, editing.Follows post (knowledge.draw id) (next id))
    (fails : ∀ error, post knowledge (.error error)) :
    editing.Follows post knowledge (Redis.newId >>= next) := by
  have allows : knowledge.Allows .freshId := trivial
  exact Follows.bind_call allows (fun id _ => rest id) fun error _ => fails error

theorem bind_updateEdge {next : Unit → MemoryProgram β} {edge : Edge}
    (writes : knowledge.WritesEdge edge.id edge)
    (rest : editing.Follows post (knowledge.use edge.id) (next ()))
    (fails : ∀ error, post knowledge (.error error)) :
    editing.Follows post knowledge (updateEdge edge >>= next) := by
  have allows : knowledge.Allows (.set (.edge edge.id) edge) := writes
  exact Follows.bind_call allows (fun _ _ => rest) fun error _ => fails error

theorem bind_updateEntity {next : Unit → MemoryProgram β} {entity : Entity}
    (writes : knowledge.WritesEntity entity.id entity)
    (rest : editing.Follows post (knowledge.use entity.id) (next ()))
    (fails : ∀ error, post knowledge (.error error)) :
    editing.Follows post knowledge (updateEntity entity >>= next) := by
  have allows : knowledge.Allows (.set (.entity entity.id) entity) := writes
  exact Follows.bind_call allows (fun _ _ => rest) fun error _ => fails error

end Steps

/-! ## Reading edges and entities -/

theorem follows_getEdge (knowledge : Knowledge) (id : Uuid) :
    editing.Follows (fun last outcome => last.editor = knowledge.editor ∧
        ∀ edge, outcome = .ok edge → edge.id = id ∧ last.edges id = some edge)
      knowledge (getEdge id) := by
  apply bind_readEdge id
  · intro copy expected
    cases copy with
    | none => exact .fail ⟨rfl, fun _ same => nomatch same⟩
    | some edge =>
      refine .done ⟨rfl, fun found same => ?_⟩
      obtain rfl := Except.ok.inj same
      exact ⟨expected _ rfl, by simp⟩
  · exact fun error => ⟨rfl, fun _ same => nomatch same⟩

theorem follows_getEntity (knowledge : Knowledge) (id : Uuid) :
    editing.Follows (fun last outcome => SameCopies knowledge last ∧
        ∀ entity, outcome = .ok entity → entity.id = id ∧ last.entities id = some entity)
      knowledge (getEntity id) := by
  apply bind_readEntity id
  · intro copy expected
    cases copy with
    | none => exact .fail ⟨⟨rfl, rfl⟩, fun _ same => nomatch same⟩
    | some entity =>
      refine .done ⟨⟨rfl, rfl⟩, fun found same => ?_⟩
      obtain rfl := Except.ok.inj same
      exact ⟨expected _ rfl, by simp⟩
  · exact fun error => ⟨.refl knowledge, fun _ same => nomatch same⟩

theorem follows_getAll_readEdge (knowledge : Knowledge) {ids : List Uuid} (nodup : ids.Nodup) :
    editing.Follows (fun last outcome => last.editor = knowledge.editor ∧
        (∀ id, id ∉ ids → last.edges id = knowledge.edges id) ∧
        ∀ edges, outcome = .ok edges → ∀ edge ∈ edges,
          edge.id ∈ ids ∧ last.edges edge.id = some edge)
      knowledge (getAll readEdge ids) := by
  induction ids generalizing knowledge with
  | nil =>
    refine .done ⟨rfl, fun _ _ => rfl, ?_⟩
    rintro edges same edge member
    rw [← Except.ok.inj same] at member
    cases member
  | cons id ids ih =>
    obtain ⟨unlisted, nodup⟩ := List.nodup_cons.mp nodup
    apply bind_readEdge id
    · intro copy expected
      have kept {last : Knowledge} (others : ∀ other, other ∉ ids →
          last.edges other = (knowledge.copyEdge id copy).edges other) (other : Uuid)
          (outside : other ∉ id :: ids) : last.edges other = knowledge.edges other := by
        obtain ⟨different, unread⟩ := not_or.mp (mt List.mem_cons.mpr outside)
        rw [others other unread]
        exact knowledge.edges_copyEdge_of_ne different copy
      apply (ih _ nodup).bind
      · rintro last edges ⟨editor, others, copies⟩
        refine .done ⟨editor, kept others, ?_⟩
        rintro all same edge member
        rw [← Except.ok.inj same] at member
        rcases List.mem_append.mp member with first | rest
        · have read : copy = some edge := Option.mem_toList.mp first
          have own : edge.id = id := expected edge read
          rw [own, others id unlisted]
          exact ⟨List.mem_cons_self, (knowledge.edges_copyEdge_self id copy).trans read⟩
        · obtain ⟨listed, copied⟩ := copies edges rfl edge rest
          exact ⟨List.mem_cons_of_mem _ listed, copied⟩
      · rintro last error ⟨editor, others, _⟩
        exact ⟨editor, kept others, fun _ same => nomatch same⟩
    · exact fun error => ⟨rfl, fun _ _ => rfl, fun _ same => nomatch same⟩

/-- The edges are the latest copies. -/
def Copied (knowledge : Knowledge) (edges : List Edge) : Prop :=
  ∀ edge ∈ edges, knowledge.edges edge.id = some edge

theorem Copied.of_sameCopies {before after : Knowledge} {edges : List Edge}
    (copied : Copied before edges) (same : SameCopies before after) : Copied after edges := by
  intro edge member
  rw [same.edges]
  exact copied edge member

theorem Copied.filter {knowledge : Knowledge} {edges : List Edge}
    (copied : Copied knowledge edges) (keep : Edge → Bool) :
    Copied knowledge (edges.filter keep) :=
  fun edge member => copied edge (List.mem_of_mem_filter member)

theorem follows_getOutgoingEdges (knowledge : Knowledge) (entityId : Uuid) :
    editing.Follows (fun last outcome => last.editor = knowledge.editor ∧
        ∀ edges, outcome = .ok edges → Copied last edges)
      knowledge (getOutgoingEdges entityId) := by
  have allows : knowledge.Allows
      (.zrevrange (.adjOut entityId) 0 ((adjacencyLimit : Int) - 1)) := trivial
  apply Follows.bind_call allows
  · intro ids nodup
    apply (follows_getAll_readEdge knowledge nodup).mono
    rintro last outcome ⟨editor, _, copies⟩
    exact ⟨editor, fun edges same edge member => (copies edges same edge member).2⟩
  · exact fun error _ => ⟨rfl, fun _ same => nomatch same⟩

end Graph
end Mnemo
