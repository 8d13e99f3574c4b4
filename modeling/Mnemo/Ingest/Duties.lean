import Mnemo.Ingest.Retries

/-!
# Work that nobody does any more

An episode that is out of the queue is the duty of a task: of the poll that has taken it, of the
worker that processes it, or of the worker that puts it back.  A command that fails at the wrong
moment leaves the duty behind.
-/

namespace Mnemo
namespace Ingest

open Memory
open Program (Crew Performs Protocol Task)
open Program.Protocol (Follows)
open Retries (onlyPolls plainLetters)
open StateMachine (Always Guarded)

/-- What a task still has to do. -/
inductive Duty where
  /-- A poll, with the identifiers of the episodes that it has read and of those it has marked. -/
  | polling (seen claimed : List Uuid)
  /-- A poll which has taken an identifier from the queue, and has not marked the episode. -/
  | taking (seen claimed : List Uuid) (id : Uuid)
  /-- An episode is processed, and its outcome is not stored. -/
  | working (id : Uuid)
  /-- An outcome of the processing is stored. -/
  | finished (id : Uuid)
  /-- An episode is stored for a retry, and is not back in the queue. -/
  | requeueing (id : Uuid)
  /-- An episode is back in the queue. -/
  | released
  /-- The task has given up before its duty was done. -/
  | stranded
  /-- A task that is no worker. -/
  | client

namespace Duty

/-- The duty after the reply to a command. -/
def next : Duty → (command : MemoryCommand) →
    Except MnemoError (command.Reply MemoryAnswer) → Duty
  | .polling seen claimed, .get (.episode id), .ok (some _) => .polling (id :: seen) claimed
  | .polling seen claimed, .zrem .pendingEpisodes id, .ok removed =>
      if Nat.blt 0 removed then .taking seen claimed id else .polling seen claimed
  | .polling _ (_ :: _), .zrem .pendingEpisodes _, .error _ => .stranded
  | .taking _ _ _, .get (.episode _), .error _ => .stranded
  | .taking seen claimed id, .set (.episode _) _, .ok _ => .polling seen (claimed ++ [id])
  | .taking _ _ _, .set (.episode _) _, .error _ => .stranded
  | .working id, .set (.episode _) doc, .ok _ =>
      if Episode.processingStatus doc = .pending then .requeueing id else .finished id
  | .working id, .set (.episode _) doc, .error _ =>
      if Episode.processingStatus doc = .completed then .working id else .stranded
  | .finished id, .set (.episode _) doc, .ok _ =>
      if Episode.processingStatus doc = .pending then .requeueing id else .finished id
  | .requeueing _, .zadd .pendingEpisodes _ _, .ok _ => .released
  | .requeueing _, .zadd .pendingEpisodes _ _, .error _ => .stranded
  | duty, _, _ => duty

/-- Polls take what they have read, and mark it; workers store outcomes. -/
def Allows : Duty → MemoryCommand → Prop
  | .polling seen _, .zrem .pendingEpisodes id => id ∈ seen
  | .taking _ _ id, .set (.episode other) doc =>
      other = id ∧ Episode.id doc = id ∧ Episode.processingStatus doc = .processing
  | .working id, .set (.episode other) doc | .finished id, .set (.episode other) doc =>
      other = id ∧ Episode.id doc = id ∧ Episode.processingStatus doc ≠ .processing
  | .requeueing id, .zadd .pendingEpisodes other _ => other = id
  | .client, _ => True
  | _, command => OffQueue command

/-- Episodes are read under their own identifiers, what was taken from the queue is found, and the
clock can be read. -/
def Expects : Duty → (command : MemoryCommand) →
    Except MnemoError (command.Reply MemoryAnswer) → Prop
  | _, .clock, .error _ => False
  | _, .get (.episode id), .ok (some episode) => Episode.id episode = id
  | .taking _ _ id, .get (.episode other), .ok none => other ≠ id
  | _, _, _ => True

/-- How the programs of tasks end: nothing is left to do but to hand on what was claimed, unless the
task has given up. -/
def Ends : Duty → Except MnemoError (List IngestJob) → Prop
  | .polling _ claimed, .error _ => claimed = []
  | .polling _ claimed, .ok jobs =>
      ∃ polled : List Episode, jobs = polled.map .process ∧ claimed = polled.map (·.id)
  | .finished _, .ok jobs | .released, .ok jobs | .stranded, .ok jobs => jobs = []
  | .finished _, .error _ | .released, .error _ | .stranded, .error _ | .client, _ => True
  | _, _ => False

/-- The duty of a job that begins. -/
def begins : IngestJob → Duty
  | .poll => .polling [] []
  | .process episode => .working episode.id
  | .delete _ => .client

/-- The duty of a poll after it has handed on its first claimed episode. -/
def handsOn : Duty → Duty
  | .polling seen claimed => .polling seen claimed.tail
  | duty => duty

/-- The episode is marked, and its outcome is a duty of the task. -/
def Processes : Duty → Uuid → Prop
  | .polling _ claimed, id | .taking _ claimed _, id => id ∈ claimed
  | .working other, id => id = other
  | _, _ => False

/-- The task has to mark the pending episode, or to put it back into the queue. -/
def Queues : Duty → Uuid → Prop
  | .taking _ _ other, id | .requeueing other, id => id = other
  | _, _ => False

/-- The episodes that a poll has found. -/
def seen : Duty → List Uuid
  | .polling seen _ => seen
  | .taking seen _ id => id :: seen
  | _ => []

/-- The task is a worker that has not given up. -/
def Faithful : Duty → Prop
  | .stranded | .client => False
  | _ => True

/-- The duties of programs which do not take note of what they read. -/
def Heedless : Duty → Prop
  | .polling _ _ | .taking _ _ _ => False
  | _ => True

end Duty

/-- The protocol of duties. -/
def dutyProtocol : Protocol MemoryCommand (·.Reply MemoryAnswer) MnemoError Duty where
  start := .released
  allowed := Duty.Allows
  expected := Duty.Expects
  next := Duty.next

/-! ## Programs do their duty -/

theorem OffQueue.duty_allows {command : MemoryCommand} (off : OffQueue command) (duty : Duty) :
    duty.Allows command := by
  unfold Duty.Allows
  split <;> first | exact off | exact off.elim | trivial

theorem OffQueue.duty_next {command : MemoryCommand} (off : OffQueue command) {duty : Duty}
    (heedless : duty.Heedless) (reply : Except MnemoError (command.Reply MemoryAnswer)) :
    duty.next command reply = duty := by
  unfold Duty.next
  split <;> first | rfl | exact off.elim | exact heedless.elim

section Follows

theorem duty_of_staysOff {α : Type} {program : MemoryProgram α} {duty : Duty}
    (heedless : duty.Heedless) (off : StaysOff program) :
    dutyProtocol.Follows (fun last _ => last = duty) duty program :=
  .of_performs off (fun _ stays => stays.duty_allows duty)
    fun _ reply stays => stays.duty_next heedless reply

/-- An outcome is stored, and what is left is to put the episode back if it is tried again. -/
def Duty.afterOutcome (id : Uuid) (doc : Episode) : Duty :=
  if doc.processingStatus = .pending then .requeueing id else .finished id

/-- What is left when an outcome could not be stored; a failure to complete an episode is an outcome
by itself. -/
def Duty.afterFailure (doc : Episode) : Duty → Duty
  | .working id => if doc.processingStatus = .completed then .working id else .stranded
  | duty => duty

/-- The outcome of an episode is a duty, or one was stored before. -/
def Duty.OnOutcome (id : Uuid) (duty : Duty) : Prop := duty = .working id ∨ duty = .finished id

/-- Nothing is left to do, or the task has given up. -/
def Duty.Closed : Duty → Prop
  | .finished _ | .released | .stranded => True
  | _ => False

variable {id : Uuid} {duty : Duty}

theorem duty_updateEpisode (onOutcome : duty.OnOutcome id) (doc : Episode) (named : doc.id = id)
    (status : doc.processingStatus ≠ .processing) :
    dutyProtocol.Follows (fun last reply =>
        reply = .ok () ∧ last = .afterOutcome id doc ∨
          (∃ error, reply = .error error) ∧ last = duty.afterFailure doc)
      duty (updateEpisode doc) := by
  have allows : duty.Allows (.set (.episode doc.id) doc) := by
    rcases onOutcome with rfl | rfl <;> exact ⟨named, named, status⟩
  apply Follows.perform allows
  intro reply _
  cases reply with
  | ok value =>
    refine .done (.inl ⟨rfl, ?_⟩)
    rcases onOutcome with rfl | rfl <;> rfl
  | error error =>
    refine .fail (.inr ⟨⟨error, rfl⟩, ?_⟩)
    rcases onOutcome with rfl | rfl <;> rfl

theorem duty_requeueEpisode (delay : Nat) :
    dutyProtocol.Follows (fun last _ => last.Closed) (.requeueing id)
      (requeueEpisode id delay) := by
  have reads : OffQueue (.clock : MemoryCommand) := trivial
  apply Follows.bind_moving (reads.duty_allows (.requeueing id))
  · exact fun _ => rfl
  · intro now _
    have queues : (Duty.requeueing id).Allows
        (.zadd .pendingEpisodes id ((timestampMillis now + delay).bmod (2 ^ 64))) := rfl
    apply Follows.perform queues
    intro reply _
    cases reply with
    | ok value => exact .done trivial
    | error error => exact .fail trivial
  · exact fun _ impossible => impossible.elim

theorem duty_processEpisode (unicode : Unicode)
    (fallback : String → Option ExtractionResult) (episode : Episode) :
    dutyProtocol.Follows (fun last reply => last = .finished episode.id ∨
        last = .working episode.id ∧ ∃ error, reply = .error error) (.working episode.id)
      (processEpisode unicode fallback episode) := by
  have heedless : (Duty.working episode.id).Heedless := trivial
  have after {α : Type} {first : MemoryProgram α} {rest : α → MemoryProgram Unit}
      (off : StaysOff first) (follows : ∀ value, dutyProtocol.Follows
        (fun last reply => last = .finished episode.id ∨
          last = .working episode.id ∧ ∃ error, reply = .error error) (.working episode.id)
            (rest value)) :
      dutyProtocol.Follows (fun last reply => last = .finished episode.id ∨
        last = .working episode.id ∧ ∃ error, reply = .error error) (.working episode.id)
          (first >>= rest) := by
    apply (duty_of_staysOff heedless off).bind
    · rintro last value rfl
      exact follows value
    · exact fun last error same => .inr ⟨same, error, rfl⟩
  apply after (staysOff_of_onlyReads (onlyReads_extract _ episode))
  intro extraction
  apply after ((performs_resolveEntities unicode episode extraction.entities [] []).mono
    fun _ => OffQueue.of_writesEntities)
  rintro ⟨names, newEntityIds⟩
  apply after (staysOff_processRelationships unicode episode names extraction.relationships [])
  intro newEdgeIds
  apply after (staysOff_of_onlyReads (onlyReads_ask _))
  intro _
  apply after (staysOff_of_onlyReads (onlyReads_ask _))
  intro _
  apply (duty_updateEpisode (.inl rfl) (episode.markCompleted _ _) rfl nofun).mono
  rintro last reply (⟨_, same⟩ | ⟨failed, same⟩)
  · left
    rw [same]
    exact if_neg nofun
  · have stays : Duty.afterFailure (episode.markCompleted newEntityIds newEdgeIds)
        (.working episode.id) = .working episode.id := by
      simp [Duty.afterFailure, Episode.markCompleted]
    right
    rw [same]
    exact ⟨stays, failed⟩

theorem duty_handleFailure (maxRetries : Nat) (episode : Episode) (error : MnemoError)
    (onOutcome : duty.OnOutcome episode.id) :
    dutyProtocol.Follows (fun last _ => last.Closed) duty
      (handleFailure maxRetries episode error) := by
  have gives_up {doc : Episode} (other : doc.processingStatus ≠ .completed) :
      (duty.afterFailure doc).Closed := by
    rcases onOutcome with rfl | rfl
    · rw [Duty.afterFailure, if_neg other]
      trivial
    · trivial
  rcases Nat.lt_or_ge episode.retryCount maxRetries with left | spent
  · have prepared : episode.requeueForRetry error.message maxRetries =
        (episode.requeued (episode.retryCount + 1) (some error.message),
          some (backoffDelay (episode.retryCount + 1))) := if_neg (by omega)
    unfold handleFailure
    rw [prepared]
    dsimp only
    apply (duty_updateEpisode onOutcome (episode.requeued _ _) rfl nofun).bind_attempt
    rintro middle outcome (⟨rfl, rfl⟩ | ⟨⟨error, rfl⟩, rfl⟩)
    · have moves : Duty.afterOutcome episode.id
          (episode.requeued (episode.retryCount + 1) (some error.message)) =
          .requeueing episode.id := if_pos rfl
      rw [moves]
      apply (duty_requeueEpisode _).bind_attempt
      exact fun last outcome closed => .done closed
    · exact .done (gives_up nofun)
  · have prepared : episode.requeueForRetry error.message maxRetries =
        (episode.markFailed error.message, none) := if_pos spent
    unfold handleFailure
    rw [prepared]
    dsimp only
    apply (duty_updateEpisode onOutcome (episode.markFailed _) rfl nofun).bind_attempt
    rintro middle outcome (⟨rfl, rfl⟩ | ⟨⟨error, rfl⟩, rfl⟩)
    · have stays : Duty.afterOutcome episode.id (episode.markFailed error.message) =
          .finished episode.id := if_neg nofun
      rw [stays]
      exact .done trivial
    · exact .done (gives_up nofun)

theorem duty_workOn (unicode : Unicode)
    (fallback : String → Option ExtractionResult) (config : IngestConfig)
    (episode : Episode) :
    dutyProtocol.Follows (fun last _ => last.Closed) (.working episode.id)
      (workOn unicode fallback config episode) := by
  have heedless : (Duty.finished episode.id).Heedless := trivial
  have processes : dutyProtocol.Follows (fun last reply => last = .finished episode.id ∨
      last = .working episode.id ∧ ∃ error, reply = .error error) (.working episode.id)
      (processAndSummarize unicode fallback config episode) := by
    apply (duty_processEpisode unicode fallback episode).bind
    · rintro last value (rfl | ⟨_, error, impossible⟩)
      · apply (duty_of_staysOff heedless (staysOff_summarizeSession config episode)).mono
        exact fun last reply same => .inl same
      · cases impossible
    · rintro last error (rfl | ⟨rfl, _⟩)
      · exact .inl rfl
      · exact .inr ⟨rfl, error, rfl⟩
  apply processes.bind_attempt
  rintro last reply (rfl | ⟨rfl, error, rfl⟩)
  · cases reply with
    | ok value => exact .done trivial
    | error error => exact duty_handleFailure _ episode error (.inr rfl)
  · exact duty_handleFailure _ episode error (.inl rfl)

/-! ## Polls -/

section Polls

variable {seen claimed : List Uuid}

/-- A poll returns episodes that it has found. -/
theorem duty_readPending (ids : List Uuid) :
    dutyProtocol.Follows (fun last reply => ∃ wider, last = .polling wider claimed ∧
        seen ⊆ wider ∧ ∀ polled, reply = .ok polled → polled.map (·.id) ⊆ wider)
      (.polling seen claimed) (readPending ids) := by
  induction ids generalizing seen with
  | nil =>
    refine .done ⟨seen, rfl, fun _ member => member, fun polled same => ?_⟩
    rw [← Except.ok.inj same]
    exact List.nil_subset seen
  | cons id ids ih =>
    have found : dutyProtocol.Follows (fun last reply =>
        (∃ episode : Episode, reply = .ok episode ∧ last = .polling (episode.id :: seen) claimed) ∨
          (∃ error, reply = .error error) ∧ last = .polling seen claimed)
        (.polling seen claimed) (getEpisode id) := by
      have reads : OffQueue (.get (.episode id) : MemoryCommand) := trivial
      apply Follows.perform (reads.duty_allows (.polling seen claimed))
      intro reply expected
      cases reply with
      | error error => exact .fail (.inr ⟨⟨error, rfl⟩, rfl⟩)
      | ok stored =>
        cases stored with
        | none => exact .fail (.inr ⟨⟨_, rfl⟩, rfl⟩)
        | some episode =>
          have named : Episode.id episode = id := expected
          refine .done (.inl ⟨episode, rfl, ?_⟩)
          rw [named]
          rfl
    apply found.bind_attempt
    rintro middle reply (⟨episode, rfl, rfl⟩ | ⟨⟨error, rfl⟩, rfl⟩)
    · apply ih.bind
      · rintro last episodes ⟨wider, rfl, grown, within⟩
        refine .done ⟨wider, rfl, fun _ member => grown (List.mem_cons_of_mem _ member), ?_⟩
        intro polled same
        obtain rfl := Except.ok.inj same
        split
        · exact List.cons_subset.mpr ⟨grown List.mem_cons_self, within episodes rfl⟩
        · exact within episodes rfl
      · rintro last error ⟨wider, rfl, grown, _⟩
        exact ⟨wider, rfl, fun _ member => grown (List.mem_cons_of_mem _ member),
          fun _ impossible => nomatch impossible⟩
    · exact ih

theorem duty_getPendingEpisodes (limit : Nat) :
    dutyProtocol.Follows (fun last reply => ∃ wider, last = .polling wider claimed ∧
        ∀ polled, reply = .ok polled → polled.map (·.id) ⊆ wider)
      (.polling seen claimed) (getPendingEpisodes limit) := by
  have reads : OffQueue (.zrange .pendingEpisodes 0 ((limit : Int) - 1) : MemoryCommand) := trivial
  apply Follows.perform (reads.duty_allows (.polling seen claimed))
  intro reply _
  cases reply with
  | error error => exact .fail ⟨seen, rfl, fun _ impossible => nomatch impossible⟩
  | ok ids =>
    apply (duty_readPending ids).mono
    rintro last reply ⟨wider, reached, _, within⟩
    exact ⟨wider, reached, within⟩

theorem duty_mark (id : Uuid) :
    dutyProtocol.Follows (fun last reply =>
        reply = .ok true ∧ last = .polling seen (claimed ++ [id]) ∨
          (∃ error, reply = .error error) ∧ last = .stranded) (.taking seen claimed id)
      (do
        let episode ← getEpisode id
        updateEpisode episode.markProcessing
        return true) := by
  have reads : OffQueue (.get (.episode id) : MemoryCommand) := trivial
  apply Follows.perform (reads.duty_allows (.taking seen claimed id))
  intro reply expected
  cases reply with
  | error error => exact .fail (.inr ⟨⟨error, rfl⟩, rfl⟩)
  | ok stored =>
    cases stored with
    | none => exact absurd rfl expected
    | some episode =>
      have named : Episode.id episode = id := expected
      have marks : (Duty.taking seen claimed id).Allows
          (.set (.episode episode.id) episode.markProcessing) := ⟨named, named, rfl⟩
      apply Follows.bind_call marks
      · exact fun _ _ => .done (.inl ⟨rfl, rfl⟩)
      · exact fun error _ => .inr ⟨⟨error, rfl⟩, rfl⟩

/-- Where a poll stands when it fails: it has given up, or has claimed nothing. -/
def Duty.Unclaimed (seen : List Uuid) (duty : Duty) : Prop :=
  duty = .stranded ∨ duty = .polling seen []

theorem duty_claimEpisode (id : Uuid) (found : id ∈ seen) :
    dutyProtocol.Follows (fun last reply =>
        (reply = .ok true → last = .polling seen (claimed ++ [id])) ∧
          (reply = .ok false → last = .polling seen claimed) ∧
          ((∃ error, reply = .error error) → last.Unclaimed seen))
      (.polling seen claimed) (claimEpisode id) := by
  have removes : (Duty.polling seen claimed).Allows (.zrem .pendingEpisodes id) := found
  apply Follows.perform removes
  intro reply _
  cases reply with
  | error error =>
    refine .fail ⟨nofun, nofun, fun _ => ?_⟩
    cases claimed with
    | nil => exact .inr rfl
    | cons first rest => exact .inl rfl
  | ok removed =>
    cases removed with
    | zero => exact .done ⟨by simp, fun _ => rfl, fun ⟨_, impossible⟩ => nomatch impossible⟩
    | succ more =>
      apply (duty_mark id).mono
      rintro last reply (⟨rfl, rfl⟩ | ⟨⟨error, rfl⟩, rfl⟩)
      · exact ⟨fun _ => rfl, by simp, fun ⟨_, impossible⟩ => nomatch impossible⟩
      · exact ⟨nofun, nofun, fun _ => .inl rfl⟩

theorem duty_claimEpisodes (episodes : List Episode) (within : episodes.map (·.id) ⊆ seen) :
    dutyProtocol.Follows (fun last reply =>
        (∀ polled, reply = .ok polled → last = .polling seen (claimed ++ polled.map (·.id))) ∧
          ((∃ error, reply = .error error) → last.Unclaimed seen))
      (.polling seen claimed) (claimEpisodes episodes) := by
  induction episodes generalizing claimed with
  | nil =>
    refine .done ⟨fun polled same => ?_, fun ⟨_, impossible⟩ => nomatch impossible⟩
    rw [← Except.ok.inj same]
    simp
  | cons episode episodes ih =>
    obtain ⟨first, rest⟩ := List.cons_subset.mp within
    apply (duty_claimEpisode episode.id first).bind
    · rintro middle won ⟨whenTrue, whenFalse, _⟩
      cases won with
      | true =>
        rw [whenTrue rfl]
        apply (ih rest).bind
        · rintro last polled ⟨reached, _⟩
          refine .done ⟨fun all same => ?_, fun ⟨_, impossible⟩ => nomatch impossible⟩
          rw [← Except.ok.inj same]
          simpa using reached polled rfl
        · rintro last error ⟨_, gives⟩
          exact ⟨nofun, fun _ => gives ⟨error, rfl⟩⟩
      | false =>
        rw [whenFalse rfl]
        exact ih rest
    · rintro last error ⟨_, _, gives⟩
      exact ⟨nofun, fun _ => gives ⟨error, rfl⟩⟩

theorem duty_poll (unicode : Unicode) (config : IngestConfig) :
    dutyProtocol.Follows Duty.Ends (.polling [] [])
      (do
        let claimed ← pollAndClaim unicode config
        return claimed.map .process) := by
  have claims : dutyProtocol.Follows (fun last reply =>
      (∀ polled, reply = .ok polled →
        ∃ wider, last = .polling wider (polled.map (·.id))) ∧
        ((∃ error, reply = .error error) → last = .stranded ∨ ∃ wider, last = .polling wider []))
      (.polling [] []) (pollAndClaim unicode config) := by
    apply (duty_getPendingEpisodes config.fetchLimit).bind
    · rintro middle waiting ⟨wider, rfl, within⟩
      have selected : (selectEpisodes unicode config.batchSize waiting).map (·.id) ⊆ wider := by
        intro id member
        obtain ⟨episode, chosen, rfl⟩ := List.mem_map.mp member
        have waits := selectEpisodes_subset unicode config.batchSize waiting chosen
        exact within waiting rfl (List.mem_map.mpr ⟨episode, waits, rfl⟩)
      apply (duty_claimEpisodes _ selected).mono
      rintro last reply ⟨reached, gives⟩
      exact ⟨fun polled same => ⟨wider, reached polled same⟩,
        fun failed => (gives failed).imp_right fun same => ⟨wider, same⟩⟩
    · rintro last error ⟨wider, same, _⟩
      exact ⟨nofun, fun _ => .inr ⟨wider, same⟩⟩
  apply claims.bind
  · rintro last polled ⟨reached, _⟩
    obtain ⟨wider, rfl⟩ := reached polled rfl
    exact .done ⟨polled, rfl, rfl⟩
  · rintro last error ⟨_, gives⟩
    rcases gives ⟨error, rfl⟩ with rfl | ⟨wider, rfl⟩
    · trivial
    · rfl

end Polls

/-! ## All jobs -/

theorem duty_client {α : Type} {post : Duty → Except MnemoError α → Prop}
    (described : ∀ reply, post .client reply) (program : MemoryProgram α) :
    dutyProtocol.Follows post .client program := by
  induction program with
  | done value => exact .done (described _)
  | fail error => exact .fail (described _)
  | perform command continuation ih =>
    have anything : Duty.client.Allows command := trivial
    refine .perform anything fun reply _ => ?_
    have stays : Duty.client.next command reply = .client := rfl
    rw [show dutyProtocol.next = Duty.next from rfl, stays]
    exact ih reply

theorem duty_ingestHandler (unicode : Unicode)
    (fallback : String → Option ExtractionResult) (config : IngestConfig)
    (job : IngestJob) :
    dutyProtocol.Follows Duty.Ends (Duty.begins job)
      (ingestHandler unicode fallback config job) := by
  cases job with
  | poll => exact duty_poll unicode config
  | delete id => exact duty_client (fun reply => by cases reply <;> trivial) _
  | process episode =>
    apply (duty_workOn unicode fallback config episode).bind
    · intro last value closed
      cases last with
      | finished id => exact .done rfl
      | released => exact .done rfl
      | stranded => exact .done rfl
      | _ => exact closed.elim
    · intro last error closed
      cases last with
      | finished id => trivial
      | released => trivial
      | stranded => trivial
      | _ => exact closed.elim

theorem Duty.ends_handsOn {duty : Duty} {next : IngestJob} {rest : List IngestJob}
    (ends : duty.Ends (.ok (next :: rest))) : duty.handsOn.Ends (.ok rest) := by
  cases duty with
  | polling seen claimed =>
    obtain ⟨polled, same, rfl⟩ := ends
    cases polled with
    | nil => cases same
    | cons first polled => exact ⟨polled, (List.cons.inj same).2, rfl⟩
  | client => trivial
  | _ => first | exact ends.elim | cases ends

end Follows
end Ingest
end Mnemo
