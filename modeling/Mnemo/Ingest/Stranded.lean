import Mnemo.Ingest.Duties

/-!
# Stranded episodes

As long as no command fails at a crucial moment, every episode that waits or is being processed is
in the queue or the duty of a task; when all tasks have ended, none is left.
-/

namespace Mnemo
namespace Ingest
namespace Stranded

open Memory
open Program (Crew Task)
open Retries (onlyPolls plainLetters)
open StateMachine (Always Guarded)

/-- A task of the workers. -/
abbrev DutyTask := Task MemoryCommand (·.Reply MemoryAnswer) MnemoError IngestJob Duty

/-- The database, with the tasks of all workers. -/
abbrev DutyCrew := Crew MemoryCommand (·.Reply MemoryAnswer) MnemoError MemoryContents IngestJob Duty

/-- No episode is being processed, and those that are pending wait in the queue. -/
def NoneStranded (contents : MemoryContents) : Prop :=
  ∀ id, ∀ episode ∈ storedEpisode contents id, episode.processingStatus ≠ .processing ∧
    (episode.processingStatus = .pending → id ∈ pending contents)

/-- Every open episode is in the queue, or the duty of a task. -/
structure Tended (contents : MemoryContents) (tasks : List DutyTask) : Prop where
  filed : EpisodesFiled contents
  found : ∀ task ∈ tasks, ∀ id ∈ task.state.seen, storedEpisode contents id ≠ none
  processed : ∀ id, ∀ episode ∈ storedEpisode contents id,
    episode.processingStatus = .processing → ∃ task ∈ tasks, task.state.Processes id
  queued : ∀ id, ∀ episode ∈ storedEpisode contents id,
    episode.processingStatus = .pending →
      id ∈ pending contents ∨ ∃ task ∈ tasks, task.state.Queues id
  faithful : ∀ task ∈ tasks, task.state.Faithful

section Steps

variable {before after : MemoryContents} {tasks : List DutyTask} {position : Nat}
  {task new : DutyTask}

namespace Tended

theorem move (tended : Tended before tasks) (found : tasks[position]? = some task)
    (filed : EpisodesFiled after)
    (kept : ∀ id, storedEpisode before id ≠ none → storedEpisode after id ≠ none)
    (knows : ∀ id ∈ new.state.seen, storedEpisode after id ≠ none)
    (faithful : new.state.Faithful)
    (processed : ∀ id, ∀ episode ∈ storedEpisode after id,
      episode.processingStatus = .processing → new.state.Processes id ∨
        episode ∈ storedEpisode before id ∧ (task.state.Processes id → new.state.Processes id))
    (queued : ∀ id, ∀ episode ∈ storedEpisode after id,
      episode.processingStatus = .pending → id ∈ pending after ∨ new.state.Queues id ∨
        episode ∈ storedEpisode before id ∧ (id ∈ pending before → id ∈ pending after) ∧
          (task.state.Queues id → new.state.Queues id)) :
    Tended after (tasks.set position new) := by
  refine ⟨filed, fun other member id seen => ?_, fun id episode stored status => ?_,
    fun id episode stored status => ?_, fun other member => ?_⟩
  · rcases List.mem_or_eq_of_mem_set member with old | rfl
    · exact kept id (tended.found other old id seen)
    · exact knows id seen
  · rcases processed id episode stored status with mine | ⟨was, carries⟩
    · exact ⟨new, Crew.mem_set_self found new, mine⟩
    · exact Crew.exists_mem_set new found carries
        (tended.processed id episode was status)
  · rcases queued id episode stored status with waits | mine | ⟨was, waits, carries⟩
    · exact .inl waits
    · exact .inr ⟨new, Crew.mem_set_self found new, mine⟩
    · rcases tended.queued id episode was status with waited | theirs
      · exact .inl (waits waited)
      · exact .inr (Crew.exists_mem_set new found carries theirs)
  · rcases List.mem_or_eq_of_mem_set member with old | rfl
    · exact tended.faithful other old
    · exact faithful

theorem stay (tended : Tended before tasks) (found : tasks[position]? = some task)
    (same : SameQueue before after)
    (knows : ∀ id ∈ new.state.seen, id ∈ task.state.seen ∨ storedEpisode before id ≠ none)
    (faithful : new.state.Faithful)
    (processes : ∀ id, task.state.Processes id → new.state.Processes id)
    (queues : ∀ id, task.state.Queues id → new.state.Queues id) :
    Tended after (tasks.set position new) := by
  have docs (id : Uuid) : storedEpisode after id = storedEpisode before id := same.docs id
  apply tended.move found (tended.filed.sameQueue same)
  · intro id stored
    rwa [docs]
  · intro id seen
    rw [docs]
    rcases knows id seen with already | stored
    · exact tended.found task (List.mem_of_getElem? found) id already
    · exact stored
  · exact faithful
  · intro id episode stored _
    rw [docs] at stored
    exact .inr ⟨stored, processes id⟩
  · intro id episode stored _
    rw [docs] at stored
    refine .inr (.inr ⟨stored, fun waits => ?_, queues id⟩)
    unfold pending
    rwa [same.pending]

theorem keep (tended : Tended before tasks) (found : tasks[position]? = some task)
    (same : SameQueue before after) (stays : new.state = task.state) :
    Tended after (tasks.set position new) := by
  apply tended.stay found same
  · rw [stays]
    exact fun _ member => .inl member
  · rw [stays]
    exact tended.faithful task (List.mem_of_getElem? found)
  · rw [stays]
    exact fun _ holds => holds
  · rw [stays]
    exact fun _ holds => holds

end Tended
end Steps

/-! ## The commands of tasks -/

/-- If the command fails, the task gives up. -/
def Crucial : Duty → MemoryCommand → Prop
  | .polling _ (_ :: _), .zrem .pendingEpisodes _ => True
  | .taking _ _ _, .get (.episode _) | .taking _ _ _, .set (.episode _) _ => True
  | .working _, .set (.episode _) doc => Episode.processingStatus doc ≠ .completed
  | .requeueing _, .zadd .pendingEpisodes _ _ => True
  | _, _ => False

theorem next_error {duty : Duty} {command : MemoryCommand} (other : ¬ Crucial duty command)
    (error : MnemoError) : duty.next command (.error error) = duty := by
  unfold Duty.next
  split <;> first
    | rfl
    | exact absurd trivial other
    | exact if_pos (not_not.mp other)
    | (rename_i impossible; cases impossible)

theorem exists_ok_of_crucial {duty : Duty} {command : MemoryCommand}
    (crucial : Crucial duty command) (input : MemoryInput) (contents : MemoryContents) :
    ∃ value, (Database.perform input contents command).1 = .ok value := by
  unfold Crucial at crucial
  split at crucial <;> first | exact ⟨_, rfl⟩ | exact crucial.elim

section Commands

variable {contents : MemoryContents} {tasks : List DutyTask} {position : Nat}
  {task new : DutyTask} {command : MemoryCommand} {input : MemoryInput}

namespace Tended

/-- A poll takes an identifier from the queue, if it is there. -/
theorem take (tended : Tended contents tasks) (found : tasks[position]? = some task)
    {seen claimed : List Uuid} {id : Uuid} (state : task.state = .polling seen claimed)
    (read : id ∈ seen) (newState : new.state = (Duty.polling seen claimed).next
      (.zrem .pendingEpisodes id) (.ok ((contents.sets .pendingEpisodes).removed id))) :
    Tended (contents.withSet .pendingEpisodes ((contents.sets .pendingEpisodes).erase id))
      (tasks.set position new) := by
  have known (other : Uuid) (member : other ∈ seen) : storedEpisode contents other ≠ none := by
    apply tended.found task (List.mem_of_getElem? found)
    rw [state]
    exact member
  have filed : EpisodesFiled (contents.withSet .pendingEpisodes
      ((contents.sets .pendingEpisodes).erase id)) := tended.filed
  by_cases waits : id ∈ (contents.sets .pendingEpisodes).members
  · have taking : new.state = .taking seen claimed id := by
      rw [newState, SortedSet.removed, if_pos waits]
      rfl
    apply tended.move found filed
    · exact fun _ stored => stored
    · intro other member
      rw [taking] at member
      rcases List.mem_cons.mp member with rfl | earlier
      · exact known other read
      · exact known other earlier
    · rw [taking]
      trivial
    · intro other episode stored _
      right
      rw [state, taking]
      exact ⟨stored, fun member => member⟩
    · intro other episode stored _
      rw [state, taking]
      rcases eq_or_ne other id with rfl | different
      · exact .inr (.inl rfl)
      · refine .inr (.inr ⟨stored, fun before => ?_, fun impossible => impossible.elim⟩)
        unfold pending
        rw [Database.Contents.sets_withSet_self, SortedSet.mem_members_erase]
        exact ⟨different, before⟩
  · have stays : new.state = .polling seen claimed := by
      rw [newState, SortedSet.removed, if_neg waits]
      rfl
    apply tended.move found filed
    · exact fun _ stored => stored
    · rw [stays]
      exact known
    · rw [stays]
      trivial
    · intro other episode stored _
      right
      rw [state, stays]
      exact ⟨stored, fun member => member⟩
    · intro other episode stored _
      rw [state, stays]
      refine .inr (.inr ⟨stored, fun before => ?_, fun impossible => impossible⟩)
      unfold pending
      rw [Database.Contents.sets_withSet_self, SortedSet.mem_members_erase]
      exact ⟨fun same => waits (same ▸ before), before⟩

theorem store (tended : Tended contents tasks) (found : tasks[position]? = some task)
    {id : Uuid} {doc : Episode} (named : doc.id = id)
    (knows : ∀ other ∈ new.state.seen, other ∈ task.state.seen) (faithful : new.state.Faithful)
    (processing : doc.processingStatus = .processing → new.state.Processes id)
    (waiting : doc.processingStatus = .pending → new.state.Queues id)
    (processes : ∀ other, other ≠ id → task.state.Processes other → new.state.Processes other)
    (queues : ∀ other, other ≠ id → task.state.Queues other → new.state.Queues other) :
    Tended (contents.put (.episode id) doc) (tasks.set position new) := by
  have here : storedEpisode (contents.put (.episode id) doc) id = some doc :=
    Database.Contents.docs_put_self ..
  have there {other : Uuid} (different : other ≠ id) :
      storedEpisode (contents.put (.episode id) doc) other = storedEpisode contents other :=
    docs_put_episode id other different doc
  have kept (other : Uuid) (stored : storedEpisode contents other ≠ none) :
      storedEpisode (contents.put (.episode id) doc) other ≠ none := by
    rcases eq_or_ne other id with rfl | different
    · rw [here]
      exact Option.some_ne_none doc
    · rwa [there different]
  apply tended.move found (tended.filed.put id doc named) kept
  · intro other member
    exact kept other (tended.found task (List.mem_of_getElem? found) other (knows other member))
  · exact faithful
  · intro other episode stored status
    rcases eq_or_ne other id with rfl | different
    · rw [here] at stored
      obtain rfl := Option.some.inj stored
      exact .inl (processing status)
    · rw [there different] at stored
      exact .inr ⟨stored, processes other different⟩
  · intro other episode stored status
    rcases eq_or_ne other id with rfl | different
    · rw [here] at stored
      obtain rfl := Option.some.inj stored
      exact .inr (.inl (waiting status))
    · rw [there different] at stored
      exact .inr (.inr ⟨stored, fun before => before, queues other different⟩)

theorem storeOutcome (tended : Tended contents tasks) (found : tasks[position]? = some task)
    {id : Uuid} {doc : Episode} (onOutcome : task.state.OnOutcome id) (named : doc.id = id)
    (status : doc.processingStatus ≠ .processing) (newState : new.state = .afterOutcome id doc) :
    Tended (contents.put (.episode id) doc) (tasks.set position new) := by
  have nothing (other : Uuid) (different : other ≠ id) :
      ¬ task.state.Processes other ∧ ¬ task.state.Queues other := by
    rcases onOutcome with same | same
    · rw [same]
      exact ⟨different, fun impossible => impossible⟩
    · rw [same]
      exact ⟨fun impossible => impossible, fun impossible => impossible⟩
  apply tended.store found named
  · rw [newState, Duty.afterOutcome]
    split <;> exact nofun
  · rw [newState, Duty.afterOutcome]
    split <;> trivial
  · exact fun processing => absurd processing status
  · intro waiting
    rw [newState, Duty.afterOutcome, if_pos waiting]
    rfl
  · exact fun other different processes => absurd processes (nothing other different).1
  · exact fun other different queues => absurd queues (nothing other different).2

theorem requeue (tended : Tended contents tasks) (found : tasks[position]? = some task)
    {id : Uuid} (state : task.state = .requeueing id) (score : Int)
    (newState : new.state = .released) :
    Tended (contents.withSet .pendingEpisodes
      ((contents.sets .pendingEpisodes).insert id score)) (tasks.set position new) := by
  have filed : EpisodesFiled (contents.withSet .pendingEpisodes
      ((contents.sets .pendingEpisodes).insert id score)) := tended.filed
  apply tended.move found filed
  · exact fun _ stored => stored
  · rw [newState]
    exact nofun
  · rw [newState]
    trivial
  · intro other episode stored _
    rw [state]
    exact .inr ⟨stored, fun impossible => impossible.elim⟩
  · intro other episode stored _
    have waits (before : other = id ∨ other ∈ pending contents) :
        other ∈ pending (contents.withSet .pendingEpisodes
          ((contents.sets .pendingEpisodes).insert id score)) := by
      unfold pending
      rw [Database.Contents.sets_withSet_self, SortedSet.mem_members_insert]
      exact before
    rcases eq_or_ne other id with rfl | different
    · exact .inl (waits (.inl rfl))
    · rw [state]
      exact .inr (.inr ⟨stored, fun before => waits (.inr before),
        fun same => absurd same different⟩)

/-- A command off the queue leaves the episodes tended. -/
theorem offQueue (tended : Tended contents tasks) (found : tasks[position]? = some task)
    (off : OffQueue command) {value : command.Reply MemoryAnswer}
    (replied : (Database.exec command input contents).1 = .ok value)
    (faithful : task.state.Faithful) (newState : new.state = task.state.next command (.ok value)) :
    Tended (Database.exec command input contents).2 (tasks.set position new) := by
  have same := off.sameQueue input contents
  by_cases reads : ∃ id, command = .get (.episode id)
  · obtain ⟨id, rfl⟩ := reads
    cases value with
    | none =>
      have stays : new.state = task.state := by
        rw [newState]
        cases task.state <;> rfl
      exact tended.keep found same stays
    | some episode =>
      have stored := read_episode replied
      generalize here : task.state = duty at newState faithful
      cases duty with
      | polling seen claimed =>
        have reads : new.state = .polling (id :: seen) claimed := newState
        apply tended.stay found same
        · rw [reads, here]
          intro other member
          rcases List.mem_cons.mp member with rfl | earlier
          · right
            rw [storedEpisode, stored]
            exact Option.some_ne_none episode
          · exact .inl earlier
        · rw [reads]
          trivial
        · rw [reads, here]
          exact fun _ holds => holds
        · rw [reads, here]
          exact fun _ holds => holds
      | _ => exact tended.keep found same (newState.trans here.symm)
  · have stays : new.state = task.state := by
      rw [newState]
      unfold Duty.next
      split <;> first
        | rfl
        | exact off.elim
        | exact absurd ⟨_, rfl⟩ reads
    exact tended.keep found same stays

/-- Every allowed command leaves the episodes tended, unless it fails at a crucial moment. -/
theorem perform (tended : Tended contents tasks) (found : tasks[position]? = some task)
    (allows : task.state.Allows command)
    (calm : Crucial task.state command → input.failure = none)
    (newState : new.state = task.state.next command (Database.exec command input contents).1) :
    Tended (Database.exec command input contents).2 (tasks.set position new) := by
  have faithful := tended.faithful task (List.mem_of_getElem? found)
  cases replied : (Database.exec command input contents).1 with
  | error error =>
    have other : ¬ Crucial task.state command := by
      intro crucial
      obtain ⟨value, succeeds⟩ := exists_ok_of_crucial crucial input contents
      rw [Database.exec_of_failure_none (calm crucial), succeeds] at replied
      cases replied
    rw [replied, next_error other] at newState
    rw [Database.exec_of_error replied]
    exact tended.keep found (.refl contents) newState
  | ok value =>
    have effect := Database.exec_of_ok replied
    have reply := replied
    rw [replied] at newState
    rw [effect] at reply
    generalize here : task.state = duty at allows newState faithful
    unfold Duty.Allows at allows
    split at allows
    · rename_i seen claimed id
      obtain rfl := Except.ok.inj reply
      rw [effect]
      exact tended.take found here allows newState
    · rename_i seen claimed id other doc
      obtain ⟨rfl, named, status⟩ := allows
      have marked : new.state = .polling seen (claimed ++ [other]) := newState
      rw [effect]
      apply tended.store found named
      · rw [marked, here]
        exact fun _ member => List.mem_cons_of_mem _ member
      · rw [marked]
        trivial
      · rw [marked]
        exact fun _ => List.mem_append_right _ (List.mem_singleton.mpr rfl)
      · rw [status]
        exact nofun
      · rw [marked, here]
        exact fun _ _ member => List.mem_append_left _ member
      · rw [here]
        exact fun _ different same => absurd same different
    · rename_i id other doc
      obtain ⟨rfl, named, status⟩ := allows
      rw [effect]
      exact tended.storeOutcome found (.inl here) named status newState
    · rename_i id other doc
      obtain ⟨rfl, named, status⟩ := allows
      rw [effect]
      exact tended.storeOutcome found (.inr here) named status newState
    · rename_i id other score
      obtain rfl := allows
      rw [effect]
      exact tended.requeue found here score newState
    · exact faithful.elim
    · subst here
      exact tended.offQueue found allows replied faithful newState

end Tended
end Commands

/-! ## Runs of the workers -/

section Runs

/-- No task has a command left, or a claimed episode to hand on. -/
def AtRest (crew : DutyCrew) : Prop := ∀ task ∈ crew.tasks, task.ended = true

/-- No command fails whose failure makes its task give up. -/
def NoCrucialFailure (crew : DutyCrew) : IngestStep → Prop
  | .advance position input => ∀ task ∈ crew.tasks[position]?, ∀ command ∈ task.upcoming,
      Crucial task.state command → input.failure = none
  | _ => True

variable (unicode : Unicode) (fallback : String → Option ExtractionResult)
  (config : IngestConfig)

/-- What the workers do; only polls come from outside. -/
def dutyOrders : Crew.Orders MemoryCommand (·.Reply MemoryAnswer) MnemoError IngestJob Duty where
  outside := onlyPolls
  handler := ingestHandler unicode fallback config
  protocol := dutyProtocol
  begins := Duty.begins
  handsOn := Duty.handsOn

/-- One step of the workers. -/
abbrev workerStep : DutyCrew → IngestStep → DutyCrew :=
  Crew.step Database.exec (dutyOrders unicode fallback config)

/-- Every open episode is tended, and every task follows the protocol. -/
abbrev TendedCrew : DutyCrew → Prop :=
  Crew.Sound (dutyOrders unicode fallback config) Duty.Ends Tended

variable {unicode fallback config}

theorem Tended.expects {contents : MemoryContents} {tasks : List DutyTask} {task : DutyTask}
    (tended : Tended contents tasks) (member : task ∈ tasks) (command : MemoryCommand)
    (input : MemoryInput) :
    task.state.Expects command (Database.exec command input contents).1 := by
  generalize replied : (Database.exec command input contents).1 = reply
  unfold Duty.Expects
  split
  · unfold Database.exec at replied
    cases failing : input.failure <;>
      simp [failing, Database.perform, Database.Command.fallible] at replied
  · exact tended.filed _ _ (read_episode replied)
  · rename_i state _ _ seen claimed id other same
    rintro rfl
    have known := tended.found task member other (by
      rw [same]
      exact List.mem_cons_self)
    rw [Database.exec_of_ok replied] at replied
    exact known (Except.ok.inj replied)
  · trivial

theorem Tended.recruit {contents : MemoryContents} {tasks : List DutyTask}
    (tended : Tended contents tasks) {new : DutyTask} (state : new.state = .polling [] []) :
    Tended contents (tasks ++ [new]) := by
  have old (holds : Duty → Prop) (some_task : ∃ task ∈ tasks, holds task.state) :
      ∃ task ∈ tasks ++ [new], holds task.state := by
    obtain ⟨task, member, held⟩ := some_task
    exact ⟨task, List.mem_append_left _ member, held⟩
  refine ⟨tended.filed, fun task member => ?_, fun id episode stored status => ?_,
    fun id episode stored status => ?_, fun task member => ?_⟩
  · rcases List.mem_append.mp member with earlier | last
    · exact tended.found task earlier
    · rw [List.mem_singleton.mp last, state]
      exact nofun
  · exact old (·.Processes id) (tended.processed id episode stored status)
  · exact (tended.queued id episode stored status).imp_right (old (·.Queues id))
  · rcases List.mem_append.mp member with earlier | last
    · exact tended.faithful task earlier
    · rw [List.mem_singleton.mp last, state]
      trivial

/-- A poll hands on a duty. -/
theorem Tended.handOn {contents : MemoryContents} {tasks : List DutyTask} {position : Nat}
    {task left new : DutyTask} (tended : Tended contents tasks)
    (found : tasks[position]? = some task) {seen claimed : List Uuid} {id : Uuid}
    (state : task.state = .polling seen (id :: claimed))
    (leftState : left.state = .polling seen claimed) (newState : new.state = .working id) :
    Tended contents (tasks.set position left ++ [new]) := by
  have last : new ∈ tasks.set position left ++ [new] :=
    List.mem_append_right _ (List.mem_singleton.mpr rfl)
  have mine := List.mem_of_getElem? found
  refine ⟨tended.filed, fun other member other_id seen_id => ?_,
    fun other episode stored status => ?_, fun other episode stored status => ?_,
    fun other member => ?_⟩
  · rcases List.mem_append.mp member with earlier | newest
    · rcases List.mem_or_eq_of_mem_set earlier with old | rfl
      · exact tended.found other old other_id seen_id
      · rw [leftState] at seen_id
        apply tended.found task mine
        rw [state]
        exact seen_id
    · rw [List.mem_singleton.mp newest, newState] at seen_id
      cases seen_id
  · have before := tended.processed other episode stored status
    rcases eq_or_ne other id with rfl | different
    · refine ⟨new, last, ?_⟩
      rw [newState]
      rfl
    · have carries : task.state.Processes other → left.state.Processes other := by
        rw [state, leftState]
        exact fun holds => (List.mem_cons.mp holds).resolve_left different
      obtain ⟨holder, member, holds⟩ := Crew.exists_mem_set left found carries before
      exact ⟨holder, List.mem_append_left _ member, holds⟩
  · rcases tended.queued other episode stored status with waits | before
    · exact .inl waits
    · have carries : task.state.Queues other → left.state.Queues other := by
        rw [state]
        exact fun impossible => impossible.elim
      obtain ⟨holder, member, holds⟩ := Crew.exists_mem_set left found carries before
      exact .inr ⟨holder, List.mem_append_left _ member, holds⟩
  · rcases List.mem_append.mp member with earlier | newest
    · rcases List.mem_or_eq_of_mem_set earlier with old | rfl
      · exact tended.faithful other old
      · rw [leftState]
        trivial
    · rw [List.mem_singleton.mp newest, newState]
      trivial

theorem tendedCrew_step {crew : DutyCrew}
    (tended : TendedCrew unicode fallback config crew) {event : IngestStep}
    (calm : NoCrucialFailure crew event) :
    TendedCrew unicode fallback config
      (workerStep unicode fallback config crew event) := by
  refine Crew.Sound.step ?_ ?_ ?_ ?_ ?_ tended calm
  · exact duty_ingestHandler unicode fallback config
  · exact fun duty next rest ends => Duty.ends_handsOn ends
  · intro crew job outside _ holds
    cases job with
    | poll => exact holds.recruit rfl
    | process episode => cases outside
    | delete id => cases outside
  · intro crew position job command continuation duty input found allows calm holds
    refine ⟨holds.expects (List.mem_of_getElem? found) command input, ?_⟩
    exact holds.perform found allows (calm _ found command rfl) rfl
  · intro crew position job next rest duty found ends holds
    have faithful := holds.faithful _ (List.mem_of_getElem? found)
    cases duty with
    | polling seen claimed =>
      obtain ⟨polled, same, rfl⟩ := ends
      cases polled with
      | nil => cases same
      | cons first polled =>
        obtain ⟨rfl, rfl⟩ := List.cons.inj same
        exact holds.handOn found rfl rfl rfl
    | client => exact faithful.elim
    | _ => first | exact ends.elim | cases ends

theorem free_of_ends {duty : Duty} {reply : Except MnemoError (List IngestJob)}
    (ends : duty.Ends reply) (faithful : duty.Faithful) (last : ∀ jobs, reply = .ok jobs → jobs = [])
    (id : Uuid) : ¬ duty.Processes id ∧ ¬ duty.Queues id := by
  cases duty with
  | polling seen claimed =>
    have none : claimed = [] := by
      cases reply with
      | error error => exact ends
      | ok jobs =>
        obtain ⟨polled, same, rfl⟩ := ends
        rw [last jobs rfl] at same
        rw [List.map_eq_nil_iff.mp same.symm]
        rfl
    subst none
    exact ⟨List.not_mem_nil, fun impossible => impossible⟩
  | finished other => exact ⟨fun impossible => impossible, fun impossible => impossible⟩
  | released => exact ⟨fun impossible => impossible, fun impossible => impossible⟩
  | stranded => exact faithful.elim
  | client => exact faithful.elim
  | _ => cases reply <;> exact ends.elim

theorem noneStranded_of_atRest {crew : DutyCrew}
    (tended : TendedCrew unicode fallback config crew)
    (rest : AtRest crew) : NoneStranded crew.shared := by
  have free (task : DutyTask) (member : task ∈ crew.tasks) (id : Uuid) :
      ¬ task.state.Processes id ∧ ¬ task.state.Queues id := by
    have faithful := tended.holds.faithful task member
    have follows := tended.follows task member
    have ended := rest task member
    obtain ⟨job, program, duty⟩ := task
    cases follows with
    | done ends =>
      rename_i jobs
      cases jobs with
      | nil => exact free_of_ends ends faithful (fun _ same => (Except.ok.inj same).symm) id
      | cons first others => cases ended
    | fail ends => exact free_of_ends ends faithful nofun id
    | perform allows continues => cases ended
  intro id episode stored
  constructor
  · intro processing
    obtain ⟨task, member, holds⟩ := tended.holds.processed id episode stored processing
    exact (free task member id).1 holds
  · intro waits
    rcases tended.holds.queued id episode stored waits with queued | ⟨task, member, holds⟩
    · exact queued
    · exact absurd holds (free task member id).2

theorem tendedCrew_idle {contents : MemoryContents} (filed : EpisodesFiled contents)
    (clean : NoneStranded contents) :
    TendedCrew unicode fallback config (Crew.idle contents) := by
  apply Crew.Sound.idle
  refine ⟨filed, nofun, fun id episode stored status => ?_, fun id episode stored status => ?_,
    nofun⟩
  · exact absurd status (clean id episode stored).1
  · exact .inl ((clean id episode stored).2 status)

variable (unicode fallback config)

end Runs

/-! ## A claim that fails -/

/-- A worker polls and cannot read the queue; then it polls again, and claims the episode. -/
def secondPoll : List IngestStep :=
  [.begin .poll, .advance 0 failingInput, .begin .poll, .advance 1 calmInput, .advance 1 calmInput,
    .advance 1 calmInput, .advance 1 calmInput, .advance 1 calmInput]

theorem noneStranded_waitingStore : NoneStranded waitingStore := by
  intro id episode stored
  rcases eq_or_ne id 4 with rfl | different
  · obtain rfl : waitingEpisode = episode := Option.some.inj stored
    exact ⟨nofun, fun _ => by decide⟩
  · have absent : storedEpisode waitingStore id = none := docs_put_episode 4 id different _
    exact nomatch absent.symm.trans stored

/-- A worker takes the episode from the queue, and cannot read it. -/
def failedClaim : List IngestStep :=
  [.begin .poll, .advance 0 calmInput, .advance 0 calmInput, .advance 0 calmInput,
    .advance 0 failingInput]

end Stranded
end Ingest
end Mnemo
