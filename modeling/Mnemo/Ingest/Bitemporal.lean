import Mnemo.Ingest.Effects

/-!
# Bi-temporal consistency of the knowledge graph

Whether two edges of one user, source and label are ever valid at one instant, in every run of a
worker who processes episodes one after another.
-/

namespace Mnemo
namespace Ingest

open Memory
open Program (Ensures Performs)
open Database (Command)

section Runs

variable (unicode : Unicode) (fallback : String → Option ExtractionResult)
  {contents : MemoryContents}

/-- Any input may occur. -/
abbrev AnyInput : MemoryInput → Prop := fun _ => True

theorem does_processRelationships (episode : Episode) (names : NameMap)
    (rels : List ExtractedRelationship) (newIds : List Uuid) (filed : Filed contents) :
    Does AnyInput (fun _ final => Filed final)
      (processRelationships unicode episode names rels newIds) contents := by
  induction rels generalizing contents newIds with
  | nil => exact .done filed
  | cons rel rels ih =>
    unfold processRelationships
    split
    · rename_i sourceId targetId _ _
      exact (does_processFact unicode episode rel sourceId targetId filed).bind
        (fun id middle described => ih _ described.1) fun error middle described => described.1
    · exact ih newIds filed

theorem does_processEpisode (episode : Episode) (filed : Filed contents) :
    Does AnyInput (fun _ final => Filed final)
      (processEpisode unicode fallback episode) contents := by
  refine (does_of_onlyReads (onlyReads_extract fallback episode)
    contents).bind ?_ fun _ middle same => same ▸ filed
  rintro extraction first rfl
  refine (does_of_away (away_resolveEntities unicode episode extraction.entities [] [])
    first).bind ?_ fun _ middle same => same.filed filed
  rintro ⟨names, newEntityIds⟩ second two
  have secondFiled := two.filed filed
  refine (does_processRelationships unicode episode names extraction.relationships []
    secondFiled).bind ?_ fun _ middle kept => kept
  intro newEdgeIds third thirdFiled
  refine Database.bind_service trivial (fun _ => ?_) fun _ => thirdFiled
  refine Database.bind_service trivial (fun _ => ?_) fun _ => thirdFiled
  refine (does_of_away ?_ third).mono fun _ final same => same.filed thirdFiled
  exact Performs.call (Command.set (.episode _) _ : MemoryCommand) trivial

/-! ## Consistency -/

/-- The edges state facts of one user about one source under one label. -/
def Rivals (first second : Edge) : Prop :=
  first.userId = second.userId ∧ first.sourceEntityId = second.sourceEntityId ∧
    first.label = second.label

/-- No two stored edges of one user, source and label are valid at one instant. -/
def Consistent (contents : MemoryContents) : Prop :=
  ∀ firstId secondId (first second : Edge) (time : DateTime),
    contents.docs (.edge firstId) = some first → contents.docs (.edge secondId) = some second →
      Rivals first second → first.isValidAt time = true → second.isValidAt time = true →
        firstId = secondId

theorem consistent_iff (contents : MemoryContents) :
    Consistent contents ↔ ∀ firstId secondId (first second : Edge), firstId ≠ secondId →
      contents.docs (.edge firstId) = some first → contents.docs (.edge secondId) = some second →
        Rivals first second → first.span.Apart second.span := by
  constructor
  · intro consistent firstId secondId first second different foundFirst foundSecond rivals time
      covers
    exact different (consistent firstId secondId first second time foundFirst foundSecond rivals
      ((Edge.isValidAt_iff first time).mpr covers.1)
      ((Edge.isValidAt_iff second time).mpr covers.2))
  · intro apart firstId secondId first second time foundFirst foundSecond rivals valid also
    by_contra different
    exact apart firstId secondId first second different foundFirst foundSecond rivals time
      ⟨(Edge.isValidAt_iff first time).mp valid, (Edge.isValidAt_iff second time).mp also⟩

/-- When a command stores a new edge, every edge of the same user, source and label has been
closed, no later than the new edge becomes valid, or else than it became valid itself. -/
def ClosedInTime : MemoryCommand → MemoryInput → MemoryContents → Prop
  | .set (.edge id) edge, input, contents =>
      input.failure = none → contents.docs (.edge id) = none →
        ∀ otherId (other : Edge), contents.docs (.edge otherId) = some other →
          Rivals other edge → other.span.EndsBy (Edge.validAt edge)
  | _, _, _ => True

theorem Rivals.symm {first second : Edge} (rivals : Rivals first second) :
    Rivals second first :=
  ⟨rivals.1.symm, rivals.2.1.symm, rivals.2.2.symm⟩

theorem consistent_congr {before after : MemoryContents}
    (same : ∀ id, after.docs (.edge id) = before.docs (.edge id)) :
    Consistent after ↔ Consistent before := by
  unfold Consistent
  simp only [same]

/-- A new edge keeps the graph consistent exactly if the rivals have been closed in time. -/
theorem consistent_put_new {id : Uuid} {edge : Edge}
    (fresh : contents.docs (.edge id) = none) (opened : edge.invalidAt = none)
    (consistent : Consistent contents) :
    Consistent (contents.put (.edge id) edge) ↔
      ∀ otherId (other : Edge), contents.docs (.edge otherId) = some other →
        Rivals other edge → other.span.EndsBy edge.validAt := by
  have newSpan : edge.span = ⟨edge.validAt, none⟩ := by
    unfold Edge.span
    rw [opened]
  have known {otherId : Uuid} {other : Edge} (found : contents.docs (.edge otherId) = some other) :
      otherId ≠ id := by
    rintro rfl
    rw [fresh] at found
    cases found
  have kept {otherId : Uuid} (different : otherId ≠ id) :
      (contents.put (.edge id) edge).docs (.edge otherId) = contents.docs (.edge otherId) :=
    Database.Contents.docs_put_of_ne _ (by simpa using different) _
  rw [Ingest.consistent_iff, ]
  constructor
  · intro apart otherId other found rivals
    have different := known found
    have split := apart otherId id other edge different ((kept different).trans found)
      (Database.Contents.docs_put_self _ _ _) rivals
    rw [newSpan] at split
    exact (Span.apart_open_iff _ _).mp split
  · intro ends firstId secondId first second different foundFirst foundSecond rivals
    have apartNew {otherId : Uuid} {other : Edge} (otherNew : otherId ≠ id)
        (found : (contents.put (.edge id) edge).docs (.edge otherId) = some other)
        (rivals : Rivals other edge) : other.span.Apart edge.span := by
      rw [kept otherNew] at found
      rw [newSpan]
      exact (Span.apart_open_iff _ _).mpr (ends otherId other found rivals)
    rcases eq_or_ne firstId id with rfl | firstOld
    · rw [Database.Contents.docs_put_self] at foundFirst
      obtain rfl := Option.some.inj foundFirst
      exact (apartNew different.symm foundSecond rivals.symm).symm
    · rcases eq_or_ne secondId id with rfl | secondOld
      · rw [Database.Contents.docs_put_self] at foundSecond
        obtain rfl := Option.some.inj foundSecond
        exact apartNew firstOld foundFirst rivals
      · rw [kept firstOld] at foundFirst
        rw [kept secondOld] at foundSecond
        exact (Ingest.consistent_iff contents).mp consistent firstId secondId first second
          different foundFirst foundSecond rivals

theorem consistent_put_closed {id : Uuid} {old : Edge} (found : contents.docs (.edge id) = some old)
    (opened : old.invalidAt = none) (episodeId : Uuid) (now : DateTime)
    (consistent : Consistent contents) :
    Consistent (contents.put (.edge id) (old.invalidate episodeId now)) := by
  have apart := (Ingest.consistent_iff contents).mp consistent
  have shrinks {other : Span DateTime} (before : old.span.Apart other) :
      (old.invalidate episodeId now).span.Apart other := by
    unfold Edge.span at before
    rw [opened] at before
    exact before.close (some now)
  have kept {otherId : Uuid} (different : otherId ≠ id) :
      (contents.put (.edge id) (old.invalidate episodeId now)).docs (.edge otherId) =
        contents.docs (.edge otherId) :=
    Database.Contents.docs_put_of_ne _ (by simpa using different) _
  rw [Ingest.consistent_iff]
  intro firstId secondId first second different foundFirst foundSecond rivals
  rcases eq_or_ne firstId id with rfl | firstOther
  · rw [Database.Contents.docs_put_self] at foundFirst
    obtain rfl := Option.some.inj foundFirst
    rw [kept different.symm] at foundSecond
    exact shrinks (apart firstId secondId old second different found foundSecond rivals)
  · rw [kept firstOther] at foundFirst
    rcases eq_or_ne secondId id with rfl | secondOther
    · rw [Database.Contents.docs_put_self] at foundSecond
      obtain rfl := Option.some.inj foundSecond
      exact (shrinks (apart firstId secondId first old different foundFirst found
        rivals).symm).symm
    · rw [kept secondOther] at foundSecond
      exact apart firstId secondId first second different foundFirst foundSecond rivals

theorem docs_edge_perform {command : MemoryCommand} (input : MemoryInput)
    (unwritten : ∀ id edge, command ≠ .set (.edge id) edge) (undeleted : ∀ id, command ≠ .del (.edge id))
    (id : Uuid) :
    (Database.perform input contents command).2.docs (.edge id) = contents.docs (.edge id) := by
  cases command with
  | set key doc =>
    cases key with
    | edge other => exact absurd rfl (unwritten other doc)
    | _ => exact Database.Contents.docs_put_of_ne _ (by simp) _
  | del key =>
    cases key with
    | edge other => exact absurd rfl (undeleted other)
    | _ => exact Database.Contents.docs_remove_of_ne _ (by simp)
  | _ => rfl

theorem HandlesEdges.consistent_exec_iff {command : MemoryCommand} {input : MemoryInput}
    (handles : HandlesEdges command contents) (consistent : Consistent contents) :
    Consistent (Database.exec command input contents).2 ↔ ClosedInTime command input contents := by
  have otherwise (unwritten : ∀ id edge, command ≠ .set (.edge id) edge)
      (undeleted : ∀ id, command ≠ .del (.edge id)) :
      Consistent (Database.exec command input contents).2 := by
    refine (consistent_congr fun id => ?_).mpr consistent
    unfold Database.exec
    split
    · rfl
    · exact docs_edge_perform input unwritten undeleted id
  cases command with
  | set key edge =>
    cases key with
    | edge id =>
      cases failing : input.failure with
      | some error =>
        rw [Database.exec_of_failure rfl failing]
        refine iff_of_true consistent fun succeeds => ?_
        rw [failing] at succeeds
        cases succeeds
      | none =>
        rw [Database.exec_of_failure_none failing]
        rcases handles with ⟨_, fresh, opened⟩ | ⟨old, episodeId, now, found, opened, rfl⟩
        · refine (consistent_put_new fresh opened consistent).trans ?_
          exact ⟨fun ends _ _ => ends, fun checked => checked failing fresh⟩
        · refine iff_of_true
            (consistent_put_closed found opened episodeId now consistent) fun _ fresh => ?_
          rw [fresh] at found
          cases found
    | _ => exact iff_of_true (otherwise (fun _ _ => by simp) fun _ => by simp) trivial
  | del key =>
    cases key with
    | edge id => exact handles.elim
    | _ => exact iff_of_true (otherwise (fun _ _ => by simp) fun _ => by simp) trivial
  | _ => exact iff_of_true (otherwise (fun _ _ => by simp) fun _ => by simp) trivial

/-! ## Runs of the worker -/

/-- A worker who processes episodes one after another. -/
abbrev IngestWorker :=
  Program.Worker MemoryCommand (·.Reply MemoryAnswer) MnemoError MemoryContents Unit

/-- An episode is taken up, or the next command is performed. -/
abbrev IngestEvent := Program.Worker.Event MemoryInput Episode

/-- One step of the worker. -/
abbrev IngestWorker.step : IngestWorker → IngestEvent → IngestWorker :=
  Program.Worker.step Database.exec (processEpisode unicode fallback)

/-- The worker before the first episode, with an empty graph. -/
def IngestWorker.fresh : IngestWorker := { shared := emptyMemory, current := .done () }

/-- The graph is consistent throughout a run exactly if, whenever an edge is stored, its rivals have
been closed in time. -/
theorem consistent_iff_closedInTime (events : List IngestEvent) :
    StateMachine.Always (IngestWorker.step unicode fallback)
        (fun worker => Consistent worker.shared) .fresh events ↔
      StateMachine.Guarded (IngestWorker.step unicode fallback)
        (Program.Worker.Checked ClosedInTime) .fresh events := by
  refine Program.Worker.always_iff_checked
    (fun episode contents filed =>
      does_processEpisode unicode fallback episode filed)
    (fun command input contents handles consistent => handles.consistent_exec_iff consistent)
    ?_ ?_ events
  · exact .done fun id edge found => by cases found
  · exact fun firstId secondId first second time found => by cases found

end Runs

/-! ## A superseded fact that overlaps its successor -/

/-- An extraction that takes the content of an episode for a product which Kendra loves. -/
def lovesExtraction (product : String) : ExtractionResult :=
  { entities :=
      [{ name := "Kendra", entityType := .person, summary := none, classification := .internal },
        { name := product, entityType := .product, summary := none, classification := .internal }]
    relationships :=
      [{ sourceName := "Kendra", targetName := product, label := "loves"
         fact := "Kendra loves " ++ product, confidence := 1, validAt := none
         classification := .internal, temporalScope := none }] }

/-- Services which always answer. -/
def lovesAnswer : (call : MemoryService) → Except MnemoError (MemoryAnswer call)
  | .extract content _ => .ok (lovesExtraction content)
  | .embed _ | .upsertEntityEmbedding _ _ | .upsertEdgeEmbedding _ _
  | .upsertEpisodeEmbedding _ _ => .ok ()
  | .summarize content _ => .ok content

/-- An environment without failures at an instant. -/
def calmAt (now : DateTime) : MemoryInput :=
  { failure := none, now, id := 1, answer := lovesAnswer }

/-- A message about a product. -/
def productEpisode (id : Uuid) (product : String) (createdAt : DateTime) : Episode :=
  { id, sessionId := 0, userId := 7, agentId := none, content := product, role := some .user
    createdAt, processingStatus := .pending, processingError := none, entityIds := []
    edgeIds := [], retryCount := 0 }

/-- Two messages of the instants 10 and 20 are processed at the instants 100 and 200. -/
def supersessionRun : List IngestEvent :=
  .begin (productEpisode 1 "Adidas" 10) :: List.replicate 31 (.advance (calmAt 100)) ++
  .begin (productEpisode 2 "Nike" 20) :: List.replicate 40 (.advance (calmAt 200))

set_option maxRecDepth 10000 in
/-- The old fact is closed when the new one is processed, not when the new one becomes valid. -/
theorem superseded_fact_overlaps :
    ¬ ∀ (unicode : Unicode) (fallback : String → Option ExtractionResult)
      (events : List IngestEvent),
      StateMachine.Always (IngestWorker.step unicode fallback)
        (fun worker => Consistent worker.shared) .fresh events := by
  intro always
  have final := (always ⟨id, Char.isAlphanum⟩ (fun _ => none) supersessionRun).finish
  have same := final 3 5 _ _ 50 rfl rfl ⟨rfl, rfl, rfl⟩ rfl rfl
  cases same

end Ingest
end Mnemo
