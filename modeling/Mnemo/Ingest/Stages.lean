import Mnemo.Ingest.Effects
import Mnemo.Ingest.Worker

/-!
# The stages of the work on an episode

How far a task of the workers has come is what the commands on the pending queue and on stored
episodes make of it.  Whoever has removed an identifier from the queue holds the episode until the
identifier is back in the queue.
-/

namespace Mnemo
namespace Ingest

open Memory
open Database (Command)
open Program (Crew Performs Protocol Task)
open Program.Protocol (Follows)

/-- How far a task has come. -/
inductive Stage where
  /-- A poll, with the episodes that it has read and the identifiers that it has claimed. -/
  | polling (seen : List Episode) (claimed : List Uuid)
  /-- A poll which has removed an identifier from the queue. -/
  | taking (seen : List Episode) (claimed : List Uuid) (id : Uuid)
  /-- A poll which has read the episode that it is going to mark. -/
  | taken (seen : List Episode) (claimed : List Uuid) (episode : Episode)
  /-- A claimed episode is processed, or its processing has ended. -/
  | working (episode : Episode)
  /-- An episode is stored for a retry, and is not back in the queue. -/
  | requeueing (episode : Episode)
  /-- An episode is back in the queue. -/
  | released
  /-- An episode is being deleted. -/
  | deleting (id : Uuid)
  /-- An episode is deleted. -/
  | deleted (id : Uuid)

/-- A command that changes neither stored episodes nor the pending queue. -/
def OffQueue : MemoryCommand → Prop
  | .set (.episode _) _ | .del (.episode _) => False
  | .zadd .pendingEpisodes _ _ | .zrem .pendingEpisodes _ | .zdel .pendingEpisodes => False
  | _ => True

namespace Stage

/-- The stage after the reply to a command. -/
def next : Stage → (command : MemoryCommand) →
    Except MnemoError (command.Reply MemoryAnswer) → Stage
  | .polling seen claimed, .get (.episode _), .ok (some episode) =>
      .polling (episode :: seen) claimed
  | .polling seen claimed, .zrem .pendingEpisodes id, .ok removed =>
      if Nat.blt 0 removed then .taking seen claimed id else .polling seen claimed
  | .taking seen claimed id, .get (.episode other), .ok (some episode) =>
      if other = id then .taken seen claimed episode else .taking seen claimed id
  | .taken seen claimed episode, .set (.episode _) _, .ok _ =>
      .polling seen (claimed ++ [episode.id])
  | .working episode, .set (.episode _) doc, .ok _ =>
      if Episode.retryCount doc = episode.retryCount then .working episode
      else .requeueing episode
  | .requeueing _, .zadd .pendingEpisodes _ _, .ok _ => .released
  | .deleting id, .del (.episode _), .ok _ => .deleted id
  | stage, _, _ => stage

/-- Only whoever holds an episode stores it or puts it back into the queue; the stored count of
retries is that of the copy, or the next one when retries are left. -/
def Allows (maxRetries : Nat) : Stage → MemoryCommand → Prop
  | .polling _ _, .zrem .pendingEpisodes _ => True
  | .taken _ _ episode, .set (.episode id) doc =>
      id = episode.id ∧ Episode.id doc = id ∧ Episode.retryCount doc = episode.retryCount
  | .working episode, .set (.episode id) doc =>
      id = episode.id ∧ Episode.id doc = id ∧ (Episode.retryCount doc = episode.retryCount ∨
        episode.retryCount < maxRetries ∧ Episode.retryCount doc = episode.retryCount + 1)
  | .requeueing episode, .zadd .pendingEpisodes id _ => id = episode.id
  | .deleting _, .zrem .pendingEpisodes _ => True
  | .deleting id, .del (.episode other) => other = id
  | _, command => OffQueue command

/-- Episodes are read under their own identifiers. -/
def Expects : (command : MemoryCommand) → Except MnemoError (command.Reply MemoryAnswer) → Prop
  | .get (.episode id), .ok (some episode) => Episode.id episode = id
  | _, _ => True

/-- How the programs of tasks end: a poll with the claimed episodes, each as it was read, and a
deletion only after the episode is gone. -/
def Ends : Stage → Except MnemoError (List IngestJob) → Prop
  | _, .error _ => True
  | .polling seen claimed, .ok jobs =>
      ∃ polled : List Episode, polled ⊆ seen ∧ jobs = polled.map .process ∧
        claimed = polled.map (·.id)
  | .taking _ _ _, .ok _ | .taken _ _ _, .ok _ | .deleting _, .ok _ => False
  | _, .ok jobs => jobs = []

/-- The stage in which a job begins. -/
def begins : IngestJob → Stage
  | .poll => .polling [] []
  | .process episode => .working episode
  | .delete id => .deleting id

/-- The stage of a poll after it has handed on its first claimed episode. -/
def handsOn : Stage → Stage
  | .polling seen claimed => .polling seen claimed.tail
  | stage => stage

end Stage

/-- The stages in which the program of a claimed episode may end. -/
def Stage.Processed : Stage → Prop
  | .working _ | .requeueing _ | .released => True
  | _ => False

/-- The protocol of the tasks. -/
def ingestProtocol (maxRetries : Nat) :
    Protocol MemoryCommand (·.Reply MemoryAnswer) MnemoError Stage where
  start := .released
  allowed := Stage.Allows maxRetries
  expected _ := Stage.Expects
  next := Stage.next

/-! ## Commands off the queue -/

theorem OffQueue.of_readOnly {command : MemoryCommand} (reads : command.readOnly = true) :
    OffQueue command := by
  cases command with
  | set key doc => cases reads
  | del key => cases reads
  | zadd index member score => cases reads
  | zrem index member => cases reads
  | zdel index => cases reads
  | _ => trivial

theorem OffQueue.of_writesEntities {command : MemoryCommand} (writes : WritesEntities command) :
    OffQueue command := by
  unfold WritesEntities at writes
  split at writes
  · trivial
  · trivial
  · trivial
  · trivial
  · exact OffQueue.of_readOnly writes

/-- The stored episodes and the pending queue are the same. -/
structure SameQueue (before after : MemoryContents) : Prop where
  docs : ∀ id, after.docs (.episode id) = before.docs (.episode id)
  pending : after.sets .pendingEpisodes = before.sets .pendingEpisodes

theorem SameQueue.refl (contents : MemoryContents) : SameQueue contents contents :=
  ⟨fun _ => rfl, rfl⟩

theorem OffQueue.sameQueue {command : MemoryCommand} (off : OffQueue command)
    (input : MemoryInput) (contents : MemoryContents) :
    SameQueue contents (Database.exec command input contents).2 := by
  unfold Database.exec
  split
  · exact .refl contents
  · cases command with
    | set key doc =>
      cases key with
      | episode id => exact off.elim
      | _ => exact ⟨fun id => Database.Contents.docs_put_of_ne _ (by simp) _, rfl⟩
    | del key =>
      cases key with
      | episode id => exact off.elim
      | _ => exact ⟨fun id => Database.Contents.docs_remove_of_ne _ (by simp), rfl⟩
    | zadd index member score =>
      cases index with
      | pendingEpisodes => exact off.elim
      | _ => exact ⟨fun _ => rfl, Database.Contents.sets_withSet_of_ne _ (by simp) _⟩
    | zrem index member =>
      cases index with
      | pendingEpisodes => exact off.elim
      | _ => exact ⟨fun _ => rfl, Database.Contents.sets_withSet_of_ne _ (by simp) _⟩
    | zdel index =>
      cases index with
      | pendingEpisodes => exact off.elim
      | _ => exact ⟨fun _ => rfl, Database.Contents.sets_withSet_of_ne _ (by simp) _⟩
    | freshId => exact ⟨fun _ => rfl, rfl⟩
    | _ => exact .refl contents

section Programs

variable (unicode : Unicode) (fallback : String → Option ExtractionResult)
  (config : IngestConfig)

/-- The program stays off the queue. -/
abbrev StaysOff {α : Type} (program : MemoryProgram α) : Prop := Performs OffQueue program

theorem staysOff_of_onlyReads {α : Type} {program : MemoryProgram α} (reads : OnlyReads program) :
    StaysOff program :=
  reads.mono fun _ => OffQueue.of_readOnly

theorem onlyReads_firstPage {Item : Type} (index : MemoryIndex)
    {read : Uuid → MemoryProgram (Option Item)} (reads : ∀ id, OnlyReads (read id)) (limit : Nat) :
    OnlyReads (listFromZset index read limit none) := by
  have page : OnlyReads (pageIds index limit none) :=
    Performs.call (Command.zrevrange index 0 _ : MemoryCommand) rfl
  exact page.bind (onlyReads_getAll reads)

theorem onlyReads_getOutgoingEdges (entityId : Uuid) : OnlyReads (getOutgoingEdges entityId) :=
  onlyReads_firstPage _ (fun id => onlyReads_get (.edge id)) _

theorem onlyReads_listEpisodes (sessionId : Uuid) : OnlyReads (listEpisodes sessionId 1 none) :=
  onlyReads_firstPage _ (fun id => onlyReads_get (.episode id)) _

theorem onlyReads_getRequired (key : MemoryKey) (notFound : MnemoError) :
    OnlyReads (Redis.getRequired key notFound) := by
  apply (onlyReads_get key).bind
  intro stored
  cases stored with
  | none => exact .fail
  | some doc => exact .done

theorem staysOff_updateEdge (edge : Edge) : StaysOff (updateEdge edge) :=
  Performs.call (Command.set (.edge _) _ : MemoryCommand) trivial

theorem staysOff_invalidateEdges (episode : Episode) (edges : List Edge) :
    StaysOff (invalidateEdges episode edges) := by
  induction edges with
  | nil => exact .done
  | cons edge edges ih =>
    apply (staysOff_of_onlyReads onlyReads_now).bind
    exact fun _ => (staysOff_updateEdge _).bind fun _ => ih

theorem staysOff_entityNameOrEmpty (id : Uuid) : StaysOff (entityNameOrEmpty id) := by
  apply (staysOff_of_onlyReads (onlyReads_getRequired _ _).attempt).bind
  intro outcome
  cases outcome with
  | ok entity => exact .done
  | error error => exact .done

theorem staysOff_supersedeOthers (episode : Episode) (rel : ExtractedRelationship)
    (edges : List Edge) : StaysOff (supersedeOthers unicode episode rel edges) := by
  induction edges with
  | nil => exact .done
  | cons edge edges ih =>
    apply (staysOff_entityNameOrEmpty _).bind
    intro oldTarget
    split
    · apply (staysOff_of_onlyReads onlyReads_now).bind
      exact fun _ => (staysOff_updateEdge _).attempt.bind fun _ => ih
    · exact ih

theorem staysOff_outgoingOrNone (entityId : Uuid) : StaysOff (outgoingOrNone entityId) := by
  apply (staysOff_of_onlyReads (onlyReads_getOutgoingEdges entityId).attempt).bind
  intro outcome
  cases outcome with
  | ok edges => exact .done
  | error error => exact .done

theorem staysOff_createEdge (edge : Edge) : StaysOff (createEdge unicode edge) := by
  have entry (index : MemoryIndex) (known : index ≠ .pendingEpisodes) (score : Int) :
      StaysOff (Redis.zadd index edge.id score) := by
    apply Performs.call (Command.zadd index edge.id score : MemoryCommand)
    cases index with
    | pendingEpisodes => exact absurd rfl known
    | _ => trivial
  apply (Performs.ofExcept _).bind
  intro _
  apply (staysOff_updateEdge edge).bind
  intro _
  apply (entry _ (by simp) _).bind
  intro _
  apply (entry _ (by simp) _).bind
  intro _
  exact (entry _ (by simp) _).bind fun _ => .done

theorem staysOff_storeFact (episode : Episode) (rel : ExtractedRelationship)
    (sourceId targetId : Uuid) :
    StaysOff (storeFact unicode episode rel sourceId targetId) := by
  apply (staysOff_of_onlyReads onlyReads_now).bind
  intro now
  have draws : StaysOff Redis.newId := Performs.call (Command.freshId : MemoryCommand) trivial
  apply draws.bind
  intro id
  apply (staysOff_createEdge unicode _).bind
  intro created
  apply (staysOff_of_onlyReads (onlyReads_ask _)).bind
  exact fun _ => (staysOff_of_onlyReads (onlyReads_ask _)).bind fun _ => .done

theorem staysOff_processFact (episode : Episode) (rel : ExtractedRelationship)
    (sourceId targetId : Uuid) :
    StaysOff (processFact unicode episode rel sourceId targetId) := by
  have conflicts : OnlyReads (findConflictingEdges episode.userId sourceId targetId rel.label) :=
    (onlyReads_getOutgoingEdges sourceId).bind fun _ => .done
  apply (staysOff_of_onlyReads conflicts).bind
  intro edges
  apply (staysOff_invalidateEdges episode edges).bind
  intro _
  apply (staysOff_outgoingOrNone sourceId).bind
  intro outgoing
  apply (staysOff_supersedeOthers unicode episode rel _).bind
  exact fun _ => staysOff_storeFact unicode episode rel sourceId targetId

theorem staysOff_processRelationships (episode : Episode) (names : NameMap)
    (rels : List ExtractedRelationship) (newIds : List Uuid) :
    StaysOff (processRelationships unicode episode names rels newIds) := by
  induction rels generalizing newIds with
  | nil => exact .done
  | cons rel rels ih =>
    unfold processRelationships
    split
    · exact (staysOff_processFact unicode episode rel _ _).bind fun _ => ih _
    · exact ih newIds

theorem staysOff_summarizeSession (episode : Episode) :
    StaysOff (summarizeSession config.sessionSummaryThreshold episode) := by
  have updates (summary : String) (tokens : Nat) :
      StaysOff (updateSession episode.sessionId summary tokens) := by
    apply (staysOff_of_onlyReads (onlyReads_getRequired _ _)).bind
    intro session
    apply (staysOff_of_onlyReads onlyReads_now).bind
    intro now
    have stores : StaysOff (Redis.set (.session episode.sessionId)
        (session.withSummary summary tokens now)) :=
      Performs.call (Command.set (.session _) _ : MemoryCommand) trivial
    exact stores.bind fun _ => .done
  have stores : StaysOff (storeSummary episode) := by
    apply (staysOff_of_onlyReads (onlyReads_ask _).attempt).bind
    intro outcome
    cases outcome with
    | ok summary => exact (updates _ _).attempt.bind fun _ => .done
    | error error => exact .done
  have looks : StaysOff (sessionHasInflightEpisodes episode.sessionId) := by
    apply (staysOff_of_onlyReads (onlyReads_listEpisodes _)).bind
    intro pending
    split
    · exact (staysOff_of_onlyReads (onlyReads_listEpisodes _)).bind fun _ => .done
    · exact .done
  unfold summarizeSession
  split
  · apply (staysOff_of_onlyReads (onlyReads_getRequired _ _).attempt).bind
    intro outcome
    cases outcome with
    | error error => exact .done
    | ok session =>
      dsimp only
      split
      · apply looks.bind
        intro busy
        split
        · exact .done
        · exact stores
      · exact .done
  · exact .done

end Programs

/-! ## The programs of tasks -/

/-- The stages of programs which do not take note of the episodes that they read. -/
def Stage.Heedless : Stage → Prop
  | .polling _ _ | .taking _ _ _ => False
  | _ => True

theorem OffQueue.allowed {command : MemoryCommand} (off : OffQueue command) (maxRetries : Nat)
    (stage : Stage) : stage.Allows maxRetries command := by
  unfold Stage.Allows
  split
  · exact off.elim
  · exact off.elim
  · exact off.elim
  · exact off.elim
  · exact off.elim
  · exact off.elim
  · exact off

theorem Stage.next_error (stage : Stage) (command : MemoryCommand) (error : MnemoError) :
    stage.next command (.error error) = stage := by
  unfold Stage.next
  split <;> first | rfl | (rename_i impossible; cases impossible)

theorem OffQueue.next {command : MemoryCommand} (off : OffQueue command) {stage : Stage}
    (heedless : stage.Heedless) (reply : Except MnemoError (command.Reply MemoryAnswer)) :
    stage.next command reply = stage := by
  unfold Stage.next
  split
  · exact heedless.elim
  · exact heedless.elim
  · exact heedless.elim
  · exact off.elim
  · exact off.elim
  · exact off.elim
  · exact off.elim
  · rfl

theorem OffQueue.next_of_not_read {command : MemoryCommand} {stage : Stage}
    (off : OffQueue command)
    (unread : ∀ id, command ≠ .get (.episode id))
    (reply : Except MnemoError (command.Reply MemoryAnswer)) :
    stage.next command reply = stage := by
  unfold Stage.next
  split
  · exact absurd rfl (unread _)
  · exact off.elim
  · exact absurd rfl (unread _)
  · exact off.elim
  · exact off.elim
  · exact off.elim
  · exact off.elim
  · rfl

section Follows

variable {maxRetries : Nat} {seen : List Episode} {claimed : List Uuid} {episode : Episode}

theorem follows_of_staysOff {α : Type} {program : MemoryProgram α} {stage : Stage}
    (heedless : stage.Heedless) (off : StaysOff program) :
    (ingestProtocol maxRetries).Follows (fun last _ => last = stage) stage program :=
  .of_performs off (fun _ stays => stays.allowed maxRetries stage)
    fun _ reply stays => stays.next heedless reply

/-- The stage of a task that works on an episode after it has stored a copy. -/
def Stage.afterStoring (episode doc : Episode) : Stage :=
  if doc.retryCount = episode.retryCount then .working episode else .requeueing episode

theorem follows_updateEpisode (episode doc : Episode) (same : doc.id = episode.id)
    (counts : doc.retryCount = episode.retryCount ∨
      episode.retryCount < maxRetries ∧ doc.retryCount = episode.retryCount + 1) :
    (ingestProtocol maxRetries).Follows (fun last outcome =>
        last = .working episode ∧ (∃ error, outcome = .error error) ∨
          last = .afterStoring episode doc ∧ outcome = .ok ()) (.working episode)
      (updateEpisode doc) := by
  have allows : (Stage.working episode).Allows maxRetries (.set (.episode doc.id) doc) :=
    ⟨same, rfl, counts⟩
  apply Follows.perform allows
  intro reply _
  cases reply with
  | ok value => exact .done (.inr ⟨rfl, rfl⟩)
  | error error => exact .fail (.inl ⟨rfl, error, rfl⟩)

theorem follows_requeueEpisode (delay : Nat) :
    (ingestProtocol maxRetries).Follows (fun last _ => last.Processed) (.requeueing episode)
      (requeueEpisode episode.id delay) := by
  have reads : OffQueue (.clock : MemoryCommand) := trivial
  apply Follows.bind_moving (reads.allowed maxRetries (.requeueing episode))
  · exact fun _ => rfl
  · intro now _
    have queues : (Stage.requeueing episode).Allows maxRetries
        (.zadd .pendingEpisodes episode.id ((timestampMillis now + delay).bmod (2 ^ 64))) := rfl
    apply Follows.perform queues
    intro reply _
    cases reply with
    | ok value => exact .done trivial
    | error error => exact .fail trivial
  · exact fun _ _ => trivial

theorem follows_processEpisode (unicode : Unicode)
    (fallback : String → Option ExtractionResult) :
    (ingestProtocol maxRetries).Follows (fun last _ => last = .working episode) (.working episode)
      (processEpisode unicode fallback episode) := by
  have heedless : (Stage.working episode).Heedless := trivial
  have after {α β : Type} {first : MemoryProgram α} {rest : α → MemoryProgram β}
      (off : StaysOff first) (follows : ∀ value, (ingestProtocol maxRetries).Follows
        (fun last _ => last = .working episode) (.working episode) (rest value)) :
      (ingestProtocol maxRetries).Follows (fun last _ => last = .working episode)
        (.working episode) (first >>= rest) := by
    apply (follows_of_staysOff heedless off).bind
    · rintro last value rfl
      exact follows value
    · exact fun last error same => same
  apply after (staysOff_of_onlyReads (onlyReads_extract _ episode))
  intro extraction
  apply after ((performs_resolveEntities unicode episode extraction.entities [] []).mono
    fun _ => OffQueue.of_writesEntities)
  rintro ⟨names, newEntityIds⟩
  apply after (staysOff_processRelationships unicode episode names extraction.relationships [])
  intro newEdgeIds
  apply after (staysOff_of_onlyReads (onlyReads_ask _))
  intro _
  apply after (staysOff_of_onlyReads (onlyReads_ask _))
  intro _
  apply (follows_updateEpisode episode (episode.markCompleted _ _) rfl (.inl rfl)).mono
  rintro last outcome (⟨same, _⟩ | ⟨same, _⟩)
  · exact same
  · exact same.trans (if_pos rfl)

theorem follows_handleFailure (error : MnemoError) :
    (ingestProtocol maxRetries).Follows (fun last _ => last.Processed) (.working episode)
      (handleFailure maxRetries episode error) := by
  rcases Nat.lt_or_ge episode.retryCount maxRetries with left | spent
  · have prepared : episode.requeueForRetry error.message maxRetries =
        (episode.requeued (episode.retryCount + 1) (some error.message),
          some (backoffDelay (episode.retryCount + 1))) := if_neg (by omega)
    unfold handleFailure
    rw [prepared]
    dsimp only
    apply (follows_updateEpisode episode (episode.requeued _ _) rfl (.inr ⟨left, rfl⟩)).bind_attempt
    rintro middle outcome (⟨rfl, error, rfl⟩ | ⟨rfl, rfl⟩)
    · exact .done trivial
    · have moves : Stage.afterStoring episode
          (episode.requeued (episode.retryCount + 1) (some error.message)) =
          .requeueing episode := if_neg (Nat.succ_ne_self episode.retryCount)
      rw [moves]
      apply (follows_requeueEpisode _).bind_attempt
      exact fun last outcome processed => .done processed
  · have prepared : episode.requeueForRetry error.message maxRetries =
        (episode.markFailed error.message, none) := if_pos spent
    unfold handleFailure
    rw [prepared]
    dsimp only
    apply (follows_updateEpisode episode (episode.markFailed _) rfl (.inl rfl)).bind_attempt
    rintro middle outcome (⟨rfl, _⟩ | ⟨rfl, _⟩)
    · exact .done trivial
    · have stays : Stage.afterStoring episode (episode.markFailed error.message) =
          .working episode := if_pos rfl
      rw [stays]
      exact .done trivial

theorem follows_workOn (unicode : Unicode)
    (fallback : String → Option ExtractionResult) (config : IngestConfig) :
    (ingestProtocol config.maxRetries).Follows (fun last _ => last.Processed) (.working episode)
      (workOn unicode fallback config episode) := by
  have heedless : (Stage.working episode).Heedless := trivial
  have processes : (ingestProtocol config.maxRetries).Follows
      (fun last _ => last = .working episode) (.working episode)
      (processAndSummarize unicode fallback config episode) := by
    apply (follows_processEpisode unicode fallback).bind
    · rintro last value rfl
      exact follows_of_staysOff heedless (staysOff_summarizeSession config episode)
    · exact fun last error same => same
  apply processes.bind_attempt
  rintro last outcome rfl
  cases outcome with
  | ok value => exact .done trivial
  | error error => exact follows_handleFailure error

/-! ## Polls and deletions -/

theorem follows_getEpisode (id : Uuid) :
    (ingestProtocol maxRetries).Follows (fun last outcome =>
        (∃ episode, outcome = .ok episode ∧ last = .polling (episode :: seen) claimed) ∨
          (∃ error, outcome = .error error) ∧ last = .polling seen claimed)
      (.polling seen claimed) (getEpisode id) := by
  have reads : OffQueue (.get (.episode id) : MemoryCommand) := trivial
  apply Follows.perform (reads.allowed maxRetries (.polling seen claimed))
  intro reply _
  cases reply with
  | error error => exact .fail (.inr ⟨⟨error, rfl⟩, rfl⟩)
  | ok stored =>
    cases stored with
    | none => exact .fail (.inr ⟨⟨_, rfl⟩, rfl⟩)
    | some episode => exact .done (.inl ⟨episode, rfl, rfl⟩)

theorem follows_readPending (ids : List Uuid) :
    (ingestProtocol maxRetries).Follows (fun last outcome =>
        ∃ wider, seen ⊆ wider ∧ last = .polling wider claimed ∧
          ∀ pending, outcome = .ok pending → pending ⊆ wider)
      (.polling seen claimed) (readPending ids) := by
  induction ids generalizing seen with
  | nil =>
    refine .done ⟨seen, fun _ member => member, rfl, fun pending same => ?_⟩
    rw [← Except.ok.inj same]
    exact List.nil_subset seen
  | cons id ids ih =>
    apply (follows_getEpisode id).bind_attempt
    rintro middle outcome (⟨episode, rfl, rfl⟩ | ⟨⟨error, rfl⟩, rfl⟩)
    · apply ih.bind
      · rintro last episodes ⟨wider, grown, rfl, within⟩
        refine .done ⟨wider, fun _ member => grown (List.mem_cons_of_mem _ member), rfl, ?_⟩
        intro pending same
        obtain rfl := Except.ok.inj same
        split
        · exact List.cons_subset.mpr ⟨grown List.mem_cons_self, within episodes rfl⟩
        · exact within episodes rfl
      · rintro last error ⟨wider, grown, rfl, _⟩
        exact ⟨wider, fun _ member => grown (List.mem_cons_of_mem _ member), rfl,
          fun _ impossible => nomatch impossible⟩
    · exact ih

theorem follows_getPendingEpisodes (limit : Nat) :
    (ingestProtocol maxRetries).Follows (fun last outcome =>
        ∃ wider, last = .polling wider claimed ∧
          ∀ pending, outcome = .ok pending → pending ⊆ wider)
      (.polling seen claimed) (getPendingEpisodes limit) := by
  have reads : OffQueue (.zrange .pendingEpisodes 0 ((limit : Int) - 1) : MemoryCommand) := trivial
  apply Follows.perform (reads.allowed maxRetries (.polling seen claimed))
  intro reply _
  cases reply with
  | error error => exact .fail ⟨seen, rfl, fun _ impossible => nomatch impossible⟩
  | ok ids =>
    apply (follows_readPending ids).mono
    rintro last outcome ⟨wider, _, reached⟩
    exact ⟨wider, reached⟩

theorem follows_markProcessing (episode : Episode) :
    (ingestProtocol maxRetries).Follows (fun last outcome => outcome = .ok () →
        last = .polling seen (claimed ++ [episode.id])) (.taken seen claimed episode)
      (updateEpisode episode.markProcessing) := by
  have marks : (Stage.taken seen claimed episode).Allows maxRetries
      (.set (.episode episode.id) episode.markProcessing) := ⟨rfl, rfl, rfl⟩
  apply Follows.perform marks
  intro reply _
  cases reply with
  | ok value => exact .done fun _ => rfl
  | error error => exact .fail (fun impossible => nomatch impossible)

theorem follows_mark (id : Uuid) :
    (ingestProtocol maxRetries).Follows (fun last outcome => outcome ≠ .ok false ∧
        (outcome = .ok true → last = .polling seen (claimed ++ [id]))) (.taking seen claimed id)
      (do
        let episode ← getEpisode id
        updateEpisode episode.markProcessing
        return true) := by
  have failed {last : Stage} {error : MnemoError} :
      (Except.error error : Except MnemoError Bool) ≠ .ok false ∧
        ((Except.error error : Except MnemoError Bool) = .ok true →
          last = .polling seen (claimed ++ [id])) := by
    simp
  have reads : OffQueue (.get (.episode id) : MemoryCommand) := trivial
  apply Follows.perform (reads.allowed maxRetries (.taking seen claimed id))
  intro reply expected
  cases reply with
  | error error => exact .fail failed
  | ok stored =>
    cases stored with
    | none => exact .fail failed
    | some episode =>
      have named : Episode.id episode = id := expected
      have moves : (Stage.taking seen claimed id).next (.get (.episode id))
          (.ok (some episode)) = .taken seen claimed episode := if_pos rfl
      rw [show (ingestProtocol maxRetries).next = Stage.next from rfl, moves]
      apply (follows_markProcessing episode).bind
      · intro last value marked
        refine .done ⟨by simp, fun _ => ?_⟩
        rw [← named]
        exact marked rfl
      · exact fun last error _ => failed

theorem follows_claimEpisode (id : Uuid) :
    (ingestProtocol maxRetries).Follows (fun last outcome =>
        (outcome = .ok true → last = .polling seen (claimed ++ [id])) ∧
          (outcome = .ok false → last = .polling seen claimed))
      (.polling seen claimed) (claimEpisode id) := by
  have removes : (Stage.polling seen claimed).Allows maxRetries (.zrem .pendingEpisodes id) :=
    trivial
  apply Follows.perform removes
  intro reply _
  cases reply with
  | error error => exact .fail (by simp)
  | ok removed =>
    cases removed with
    | zero => exact .done ⟨by simp, fun _ => rfl⟩
    | succ more =>
      apply (follows_mark id).mono
      rintro last outcome ⟨won, marked⟩
      exact ⟨marked, fun lost => absurd lost won⟩

theorem follows_claimEpisodes (episodes : List Episode) :
    (ingestProtocol maxRetries).Follows (fun last outcome =>
        ∀ result, outcome = .ok result → result ⊆ episodes ∧
          last = .polling seen (claimed ++ result.map (·.id)))
      (.polling seen claimed) (claimEpisodes episodes) := by
  induction episodes generalizing claimed with
  | nil =>
    refine .done fun result same => ?_
    rw [← Except.ok.inj same]
    exact ⟨List.nil_subset _, by simp⟩
  | cons episode episodes ih =>
    apply (follows_claimEpisode episode.id).bind
    · rintro middle won ⟨whenTrue, whenFalse⟩
      cases won with
      | true =>
        rw [whenTrue rfl]
        apply ih.bind
        · intro last result described
          obtain ⟨within, same⟩ := described result rfl
          refine .done fun all equal => ?_
          rw [← Except.ok.inj equal]
          exact ⟨List.cons_subset_cons episode within, by simpa using same⟩
        · exact fun last error _ result impossible => nomatch impossible
      | false =>
        rw [whenFalse rfl]
        apply ih.mono
        intro last outcome described result same
        obtain ⟨within, reached⟩ := described result same
        exact ⟨fun _ member => List.mem_cons_of_mem _ (within member), reached⟩
    · exact fun last error _ result impossible => nomatch impossible

/-! ## Selected episodes were polled -/

theorem mem_of_takeRound (room : Nat) (queues : List (List Episode)) :
    (∀ found ∈ (takeRound room queues).1, found ∈ queues.flatten) ∧
      ∀ left ∈ (takeRound room queues).2.flatten, left ∈ queues.flatten := by
  induction room, queues using takeRound.induct with
  | case1 queues => simp [takeRound]
  | case2 room nonzero => simp [takeRound]
  | case3 room queues nonzero taken left same ih => simpa [takeRound, same] using ih
  | case4 room episode queue queues taken left same ih =>
    obtain ⟨found, rest⟩ := ih
    simp only [takeRound, List.flatten_cons, List.mem_cons, List.mem_append]
    refine ⟨?_, ?_⟩
    · rintro other (rfl | member)
      · exact .inl (.inl rfl)
      · exact .inr (found other member)
    · rintro other (member | member)
      · exact .inl (.inr member)
      · exact .inr (rest other member)

theorem takeRounds_subset {rounds room : Nat} {queues : List (List Episode)} :
    takeRounds rounds room queues ⊆ queues.flatten := by
  induction rounds generalizing room queues with
  | zero => exact List.nil_subset _
  | succ rounds ih =>
    obtain ⟨found, rest⟩ := mem_of_takeRound room queues
    unfold takeRounds
    split
    · exact List.nil_subset _
    · rename_i taken left _ same
      rw [same] at found rest
      apply List.append_subset.mpr
      exact ⟨found, fun episode member => rest episode (ih member)⟩

theorem selectEpisodes_subset (unicode : Unicode) (batchSize : Nat) (pending : List Episode) :
    selectEpisodes unicode batchSize pending ⊆ pending := by
  intro episode member
  have queued := takeRounds_subset member
  simp only [userQueues, List.mem_flatten, List.mem_map] at queued
  obtain ⟨queue, ⟨userId, _, rfl⟩, found⟩ := queued
  rw [userQueue, List.mem_insertionSort] at found
  exact (List.mem_filter.mp found).1

/-! ## The programs of all jobs -/

theorem Stage.ends_error (last : Stage) (error : MnemoError) : last.Ends (.error error) := by
  cases last <;> trivial

theorem follows_poll (unicode : Unicode) (config : IngestConfig) :
    (ingestProtocol maxRetries).Follows Stage.Ends (.polling [] [])
      (do
        let claimed ← pollAndClaim unicode config
        return claimed.map .process) := by
  have claims : (ingestProtocol maxRetries).Follows (fun last outcome =>
      ∀ claimed, outcome = .ok claimed → last.Ends (.ok (claimed.map .process)))
      (.polling [] []) (pollAndClaim unicode config) := by
    apply (follows_getPendingEpisodes config.fetchLimit).bind
    · rintro middle pending ⟨wider, rfl, within⟩
      apply (follows_claimEpisodes _).mono
      intro last outcome described claimed same
      obtain ⟨selected, reached⟩ := described claimed same
      rw [reached]
      refine ⟨claimed, fun episode member => ?_, rfl, List.nil_append _⟩
      exact within pending rfl (selectEpisodes_subset unicode config.batchSize pending
        (selected member))
    · exact fun last error _ claimed impossible => nomatch impossible
  apply claims.bind
  · exact fun last claimed described => .done (described claimed rfl)
  · exact fun last error _ => last.ends_error error

theorem follows_process (unicode : Unicode)
    (fallback : String → Option ExtractionResult) (config : IngestConfig) :
    (ingestProtocol config.maxRetries).Follows Stage.Ends (.working episode)
      (do
        workOn unicode fallback config episode
        return []) := by
  apply (follows_workOn unicode fallback config).bind
  · intro last value processed
    cases last with
    | working episode => exact .done rfl
    | requeueing episode => exact .done rfl
    | released => exact .done rfl
    | _ => exact processed.elim
  · exact fun last error _ => last.ends_error error

theorem follows_delete (id : Uuid) :
    (ingestProtocol maxRetries).Follows Stage.Ends (.deleting id)
      (do
        deleteEpisode id
        return []) := by
  have heedless : (Stage.deleting id).Heedless := trivial
  have deletes : (ingestProtocol maxRetries).Follows (fun last outcome =>
      outcome = .ok () → last = .deleted id) (.deleting id) (deleteEpisode id) := by
    apply (follows_of_staysOff heedless
      (staysOff_of_onlyReads (onlyReads_getRequired _ _))).bind
    · rintro last episode rfl
      have leaves : StaysOff (Redis.zrem (.sessionEpisodes (Episode.sessionId episode)) id) :=
        (Performs.call (Command.zrem (.sessionEpisodes _) id : MemoryCommand) trivial).bind
          fun _ => .done
      apply (follows_of_staysOff heedless leaves).bind
      · rintro last value rfl
        have dequeues : (Stage.deleting id).Allows maxRetries (.zrem .pendingEpisodes id) := trivial
        apply Follows.perform dequeues
        intro reply _
        cases reply with
        | error error => exact .fail (fun impossible => nomatch impossible)
        | ok removed =>
          have removes : (Stage.deleting id).Allows maxRetries (.del (.episode id)) := rfl
          apply Follows.perform removes
          intro reply _
          cases reply with
          | error error => exact .fail (fun impossible => nomatch impossible)
          | ok value => exact .done fun _ => rfl
      · exact fun last error _ impossible => nomatch impossible
    · exact fun last error _ impossible => nomatch impossible
  apply deletes.bind
  · intro last value gone
    rw [gone rfl]
    exact .done rfl
  · exact fun last error _ => last.ends_error error

theorem follows_ingestHandler (unicode : Unicode)
    (fallback : String → Option ExtractionResult) (config : IngestConfig)
    (job : IngestJob) :
    (ingestProtocol config.maxRetries).Follows Stage.Ends (Stage.begins job)
      (ingestHandler unicode fallback config job) := by
  cases job with
  | poll => exact follows_poll unicode config
  | process episode => exact follows_process unicode fallback config
  | delete id => exact follows_delete id

theorem Stage.ends_handsOn {stage : Stage} {next : IngestJob} {rest : List IngestJob}
    (ends : stage.Ends (.ok (next :: rest))) : stage.handsOn.Ends (.ok rest) := by
  cases stage with
  | polling seen claimed =>
    obtain ⟨polled, within, same, rfl⟩ := ends
    cases polled with
    | nil => cases same
    | cons first polled =>
      refine ⟨polled, fun episode member => within (List.mem_cons_of_mem _ member), ?_, rfl⟩
      exact (List.cons.inj same).2
  | _ => first | exact ends.elim | cases ends

theorem Stage.exists_of_ends {stage : Stage} {next : IngestJob} {rest : List IngestJob}
    (ends : stage.Ends (.ok (next :: rest))) : ∃ seen claimed episode,
      stage = .polling seen (episode.id :: claimed) ∧ next = .process episode ∧
        episode ∈ seen := by
  cases stage with
  | polling seen claimed =>
    obtain ⟨polled, within, same, rfl⟩ := ends
    cases polled with
    | nil => cases same
    | cons first polled =>
      exact ⟨seen, _, first, rfl, (List.cons.inj same).1, within List.mem_cons_self⟩
  | _ => first | exact ends.elim | cases ends

end Follows

/-! ## The crew -/

/-- A task of the workers or of a client. -/
abbrev IngestTask := Task MemoryCommand (·.Reply MemoryAnswer) MnemoError IngestJob Stage

/-- The database, with the tasks of all workers and clients. -/
abbrev IngestCrew :=
  Crew MemoryCommand (·.Reply MemoryAnswer) MnemoError MemoryContents IngestJob Stage

/-- A step of some task. -/
abbrev IngestStep := Crew.Event MemoryInput IngestJob

/-- What the tasks do, with the jobs that come from outside. -/
def ingestOrders (unicode : Unicode)
    (fallback : String → Option ExtractionResult) (config : IngestConfig)
    (outside : IngestJob → Bool) :
    Crew.Orders MemoryCommand (·.Reply MemoryAnswer) MnemoError IngestJob Stage where
  outside
  handler := ingestHandler unicode fallback config
  protocol := ingestProtocol config.maxRetries
  begins := Stage.begins
  handsOn := Stage.handsOn

/-- One step of the workers and clients. -/
abbrev ingestStep (unicode : Unicode)
    (fallback : String → Option ExtractionResult) (config : IngestConfig)
    (outside : IngestJob → Bool) : IngestCrew → IngestStep → IngestCrew :=
  Crew.step Database.exec (ingestOrders unicode fallback config outside)

/-- The episode that is stored under an identifier. -/
def storedEpisode (contents : MemoryContents) (id : Uuid) : Option Episode :=
  contents.docs (.episode id)

/-- The identifiers that wait in the queue. -/
def pending (contents : MemoryContents) : List Uuid := (contents.sets .pendingEpisodes).members

theorem read_episode {contents : MemoryContents} {input : MemoryInput} {id : Uuid}
    {episode : Episode}
    (replied : (Database.exec (.get (.episode id) : MemoryCommand) input contents).1 =
      .ok (some episode)) : contents.docs (.episode id) = some episode := by
  rw [Database.exec_of_ok replied] at replied
  exact Except.ok.inj replied

theorem docs_put_episode {contents : MemoryContents} (id other : Uuid) (different : other ≠ id)
    (doc : Episode) :
    (contents.put (.episode id) doc).docs (.episode other) = contents.docs (.episode other) :=
  Database.Contents.docs_put_of_ne _ (by simpa using different) _

/-- Every stored episode lies under its own identifier. -/
def EpisodesFiled (contents : MemoryContents) : Prop :=
  ∀ id (episode : Episode), contents.docs (.episode id) = some episode → episode.id = id

namespace EpisodesFiled

variable {contents after : MemoryContents}

theorem sameQueue (filed : EpisodesFiled contents) (same : SameQueue contents after) :
    EpisodesFiled after := by
  intro id episode found
  rw [same.docs] at found
  exact filed id episode found

theorem put (filed : EpisodesFiled contents) (id : Uuid) (episode : Episode)
    (named : episode.id = id) : EpisodesFiled (contents.put (.episode id) episode) := by
  intro other stored found
  rcases eq_or_ne other id with rfl | different
  · have here := Database.Contents.docs_put_self contents (.episode other) episode
    rw [← Option.some.inj (here.symm.trans found)]
    exact named
  · have there := Database.Contents.docs_put_of_ne contents
      (show MemoryKey.episode other ≠ .episode id by simpa using different) episode
    exact filed other stored (there.symm.trans found)

theorem expects (filed : EpisodesFiled contents) (command : MemoryCommand)
    (input : MemoryInput) : Stage.Expects command (Database.exec command input contents).1 := by
  cases replied : (Database.exec command input contents).1 with
  | error error =>
    cases command with
    | get key => cases key <;> trivial
    | _ => trivial
  | ok value =>
    cases command with
    | get key =>
      cases key with
      | episode id =>
        cases value with
        | none => trivial
        | some episode =>
          have found : contents.docs (.episode id) = some episode := by
            rw [Database.exec_of_ok replied] at replied
            exact Except.ok.inj replied
          exact filed id episode found
      | _ => trivial
    | _ => trivial

end EpisodesFiled

/-! ## A queue with one episode -/

/-- An episode that waits in the queue. -/
def waitingEpisode : Episode :=
  { id := 4, sessionId := 8, userId := 7, agentId := none, content := "hello", role := some .user
    createdAt := 10, processingStatus := .pending, processingError := none, entityIds := []
    edgeIds := [], retryCount := 0 }

/-- The database with one episode, which waits in the queue. -/
def waitingStore : MemoryContents :=
  (emptyMemory.put (.episode 4) waitingEpisode).withSet .pendingEpisodes
    (SortedSet.empty.insert 4 10)

theorem filed_waitingStore : EpisodesFiled waitingStore := by
  have empty : EpisodesFiled emptyMemory := by
    intro id episode found
    cases found
  exact empty.put 4 waitingEpisode rfl

/-- An environment without failures, in which nothing is extracted. -/
def calmInput : MemoryInput :=
  { failure := none, now := 20, id := 1
    answer := fun
      | .extract _ _ => .ok ⟨[], []⟩
      | .embed _ | .upsertEntityEmbedding _ _ | .upsertEdgeEmbedding _ _
      | .upsertEpisodeEmbedding _ _ => .ok ()
      | .summarize content _ => .ok content }

/-- An environment in which a command fails. -/
def failingInput : MemoryInput := { calmInput with failure := some (.redis "timeout") }

end Ingest
end Mnemo
