import Mnemo.Ingest.Stages

/-!
# Deletion of episodes that are being processed

A worker holds a copy of an episode while it works on it, and stores the copy several times.  A
deletion is final if nobody holds the episode any more when its data are removed.
-/

namespace Mnemo
namespace Ingest
namespace Deletion

open Memory
open Program (Crew Task)
open StateMachine (Guarded)

/-- The episodes that a task, unless it has ended, is going to store. -/
def mayWrite : Stage → List Uuid
  | .polling _ claimed | .taking _ claimed _ => claimed
  | .taken _ claimed episode => claimed ++ [episode.id]
  | .working episode | .requeueing episode => [episode.id]
  | .released | .deleting _ | .deleted _ => []

/-- Some task has deleted an episode. -/
def IsDeleted (tasks : List IngestTask) (id : Uuid) : Prop :=
  ∃ task ∈ tasks, task.state = .deleted id

/-- No task that goes on is going to store an episode. -/
def Unheld (tasks : List IngestTask) (id : Uuid) : Prop :=
  ∀ task ∈ tasks, task.ended = false → id ∉ mayWrite task.state

/-- A deleted episode is not stored, and nobody is going to store it. -/
structure Settled (contents : MemoryContents) (tasks : List IngestTask) : Prop where
  filed : EpisodesFiled contents
  gone : ∀ id, IsDeleted tasks id → storedEpisode contents id = none
  unheld : ∀ id, IsDeleted tasks id → Unheld tasks id
  jobs : ∀ task ∈ tasks, ∀ id, task.job = .delete id →
    task.state = .deleting id ∨ task.state = .deleted id

section Steps

variable {maxRetries : Nat} {before after : MemoryContents} {tasks : List IngestTask}
  {position : Nat} {task new : IngestTask}

theorem IsDeleted.of_set {id : Uuid} (deleted : IsDeleted (tasks.set position new) id) :
    IsDeleted tasks id ∨ new.state = .deleted id := by
  obtain ⟨other, member, state⟩ := deleted
  rcases List.mem_or_eq_of_mem_set member with old | rfl
  · exact .inl ⟨other, old, state⟩
  · exact .inr state

theorem IsDeleted.set {id : Uuid} (deleted : IsDeleted tasks id)
    (found : tasks[position]? = some task)
    (stays : task.state = .deleted id → new.state = .deleted id) :
    IsDeleted (tasks.set position new) id := by
  obtain ⟨other, member, state⟩ := deleted
  obtain ⟨index, at_index⟩ := List.mem_iff_getElem?.mp member
  rcases eq_or_ne position index with rfl | different
  · obtain rfl := Option.some.inj (at_index.symm.trans found)
    have inside := (List.getElem?_eq_some_iff.mp found).1
    exact ⟨new, List.mem_of_getElem? (List.getElem?_set_self inside), stays state⟩
  · exact ⟨other, List.mem_of_getElem? ((List.getElem?_set_ne different).trans at_index), state⟩

namespace Settled

theorem move (settled : Settled before tasks) (found : tasks[position]? = some task)
    (running : task.ended = false) (job : new.job = task.job) (filed : EpisodesFiled after)
    (kept : ∀ id, IsDeleted tasks id → storedEpisode after id = none)
    (writes : ∀ id ∈ mayWrite new.state, id ∈ mayWrite task.state ∨
      storedEpisode before id ≠ none)
    (deletes : ∀ id, new.state = .deleted id → task.state = .deleted id ∨
      storedEpisode after id = none ∧ Unheld tasks id)
    (deleting : ∀ id, task.state = .deleting id ∨ task.state = .deleted id →
      new.state = .deleting id ∨ new.state = .deleted id) :
    Settled after (tasks.set position new) := by
  have member := List.mem_of_getElem? found
  have decided {id : Uuid} (deleted : IsDeleted (tasks.set position new) id) :
      IsDeleted tasks id ∨ new.state = .deleted id ∧ storedEpisode after id = none ∧
        Unheld tasks id := by
    rcases deleted.of_set with old | state
    · exact .inl old
    · rcases deletes id state with earlier | now
      · exact .inl ⟨task, member, earlier⟩
      · exact .inr ⟨state, now⟩
  refine ⟨filed, fun id deleted => ?_, fun id deleted => ?_, fun other changed id asked => ?_⟩
  · rcases decided deleted with old | ⟨_, absent, _⟩
    · exact kept id old
    · exact absent
  · intro other changed goes
    rcases decided deleted with old | ⟨state, _, unheld⟩
    · rcases List.mem_or_eq_of_mem_set changed with same | rfl
      · exact settled.unheld id old other same goes
      · intro mine
        rcases writes id mine with held | stored
        · exact settled.unheld id old task member running held
        · exact stored (settled.gone id old)
    · rcases List.mem_or_eq_of_mem_set changed with same | rfl
      · exact unheld other same goes
      · rw [state, mayWrite]
        exact List.not_mem_nil
  · rcases List.mem_or_eq_of_mem_set changed with same | rfl
    · exact settled.jobs other same id asked
    · exact deleting id (settled.jobs task member id (job.symm.trans asked))

theorem recruit (settled : Settled before tasks) (idle : mayWrite new.state = [])
    (undone : ∀ id, new.state ≠ .deleted id)
    (job : ∀ id, new.job = .delete id → new.state = .deleting id) :
    Settled before (tasks ++ [new]) := by
  have old {id : Uuid} (deleted : IsDeleted (tasks ++ [new]) id) : IsDeleted tasks id := by
    obtain ⟨other, member, state⟩ := deleted
    rcases List.mem_append.mp member with earlier | last
    · exact ⟨other, earlier, state⟩
    · obtain rfl := List.mem_singleton.mp last
      exact absurd state (undone id)
  refine ⟨settled.filed, fun id deleted => settled.gone id (old deleted), ?_, ?_⟩
  · intro id deleted other member goes
    rcases List.mem_append.mp member with earlier | last
    · exact settled.unheld id (old deleted) other earlier goes
    · obtain rfl := List.mem_singleton.mp last
      rw [idle]
      exact List.not_mem_nil
  · intro other member id asked
    rcases List.mem_append.mp member with earlier | last
    · exact settled.jobs other earlier id asked
    · obtain rfl := List.mem_singleton.mp last
      exact .inl (job id asked)

theorem handOn (settled : Settled before tasks) (found : tasks[position]? = some task)
    (running : task.ended = false) {seen : List Episode} {claimed : List Uuid} {episode : Episode}
    (state : task.state = .polling seen (episode.id :: claimed)) {left : IngestTask}
    (leftJob : left.job = task.job) (leftState : left.state = .polling seen claimed)
    (newJob : new.job = .process episode) (newState : new.state = .working episode) :
    Settled before (tasks.set position left ++ [new]) := by
  have member := List.mem_of_getElem? found
  have old {id : Uuid} (deleted : IsDeleted (tasks.set position left ++ [new]) id) :
      IsDeleted tasks id := by
    obtain ⟨other, listed, gone⟩ := deleted
    rcases List.mem_append.mp listed with earlier | last
    · rcases List.mem_or_eq_of_mem_set earlier with same | rfl
      · exact ⟨other, same, gone⟩
      · rw [leftState] at gone
        cases gone
    · rw [List.mem_singleton.mp last, newState] at gone
      cases gone
  refine ⟨settled.filed, fun id deleted => settled.gone id (old deleted), ?_, ?_⟩
  · intro id deleted other listed goes mine
    have mineNot := settled.unheld id (old deleted) task member running
    rw [state, mayWrite] at mineNot
    rcases List.mem_append.mp listed with earlier | last
    · rcases List.mem_or_eq_of_mem_set earlier with same | rfl
      · exact settled.unheld id (old deleted) other same goes mine
      · rw [leftState, mayWrite] at mine
        exact mineNot (List.mem_cons_of_mem _ mine)
    · rw [List.mem_singleton.mp last, newState, mayWrite] at mine
      exact mineNot (List.mem_singleton.mp mine ▸ List.mem_cons_self)
  · intro other listed id asked
    rcases List.mem_append.mp listed with earlier | last
    · rcases List.mem_or_eq_of_mem_set earlier with same | rfl
      · exact settled.jobs other same id asked
      · have mine := settled.jobs task member id (leftJob.symm.trans asked)
        rw [state] at mine
        rcases mine with impossible | impossible <;> cases impossible
    · rw [List.mem_singleton.mp last, newJob] at asked
      cases asked

end Settled
end Steps

/-! ## The commands of tasks -/

section Commands

variable {maxRetries : Nat} {contents : MemoryContents} {tasks : List IngestTask}
  {position : Nat} {task new : IngestTask} {command : MemoryCommand} {input : MemoryInput}

theorem mayWrite_read {stage : Stage} {id other : Uuid} {stored : Option Episode}
    (filed : EpisodesFiled contents)
    (replied : (Database.exec (.get (.episode id) : MemoryCommand) input contents).1 = .ok stored)
    (writes : other ∈ mayWrite (stage.next (.get (.episode id)) (.ok stored))) :
    other ∈ mayWrite stage ∨ storedEpisode contents other ≠ none := by
  cases stored with
  | none => cases stage <;> exact .inl writes
  | some episode =>
    have found := read_episode replied
    have named := filed id episode found
    cases stage with
    | taking seen claimed taken =>
      rcases eq_or_ne id taken with rfl | different
      · have moves : (Stage.taking seen claimed id).next (.get (.episode id))
            (.ok (some episode)) = .taken seen claimed episode := if_pos rfl
        rw [moves, mayWrite, named] at writes
        rcases List.mem_append.mp writes with earlier | last
        · exact .inl earlier
        · right
          rw [List.mem_singleton.mp last, storedEpisode, found]
          exact Option.some_ne_none _
      · have stays : (Stage.taking seen claimed taken).next (.get (.episode id))
            (.ok (some episode)) = .taking seen claimed taken := if_neg different
        rw [stays] at writes
        exact .inl writes
    | _ => exact .inl writes

theorem next_read_deleted {stage : Stage} {id deleted : Uuid}
    {reply : Except MnemoError ((.get (.episode id) : MemoryCommand).Reply MemoryAnswer)} :
    (stage.next (.get (.episode id)) reply = .deleted deleted ↔ stage = .deleted deleted) ∧
      (stage.next (.get (.episode id)) reply = .deleting deleted ↔
        stage = .deleting deleted) := by
  cases reply with
  | error error =>
    rw [Stage.next_error]
    exact ⟨Iff.rfl, Iff.rfl⟩
  | ok stored =>
    cases stored with
    | none => cases stage <;> exact ⟨Iff.rfl, Iff.rfl⟩
    | some episode =>
      cases stage with
      | taking seen claimed taken =>
        simp only [Stage.next]
        split <;> simp
      | polling seen claimed => simp [Stage.next]
      | _ => exact ⟨Iff.rfl, Iff.rfl⟩

/-- Every allowed command leaves deletions settled, as long as nobody holds what is deleted. -/
theorem Settled.perform (settled : Settled contents tasks)
    (found : tasks[position]? = some task) (running : task.ended = false)
    (job : new.job = task.job) (allows : task.state.Allows maxRetries command)
    (unheld : ∀ id, command = .del (.episode id) → input.failure = none → Unheld tasks id)
    (state : new.state = task.state.next command (Database.exec command input contents).1) :
    Settled (Database.exec command input contents).2 (tasks.set position new) := by
  have member := List.mem_of_getElem? found
  have apart {id : Uuid} (mine : id ∈ mayWrite task.state) {other : Uuid}
      (deleted : IsDeleted tasks other) : other ≠ id :=
    fun same => settled.unheld other deleted task member running (same ▸ mine)
  cases replied : (Database.exec command input contents).1 with
  | error error =>
    rw [replied, Stage.next_error] at state
    rw [Database.exec_of_error replied]
    apply settled.move found running job settled.filed settled.gone
    · rw [state]
      exact fun id writes => .inl writes
    · rw [state]
      exact fun id deleted => .inl deleted
    · rw [state]
      exact fun id deletes => deletes
  | ok value =>
    have effect := Database.exec_of_ok replied
    have sound (fallible : command.fallible = true) : input.failure = none := by
      cases failing : input.failure with
      | none => rfl
      | some error =>
        rw [Database.exec_of_failure fallible failing] at replied
        cases replied
    generalize here : task.state = stage at allows state
    unfold Stage.Allows at allows
    split at allows
    · rename_i seen claimed id
      rw [effect] at state ⊢
      have moved : new.state =
          if Nat.blt 0 ((contents.sets .pendingEpisodes).removed id) then
            .taking seen claimed id
          else .polling seen claimed := state
      have same : mayWrite new.state = claimed ∧ ∀ id, new.state ≠ .deleted id := by
        rw [moved]
        split <;> simp [mayWrite]
      refine settled.move found running job ?_ ?_ ?_ ?_ ?_
      · exact settled.filed
      · exact settled.gone
      · rw [same.1, here]
        exact fun id writes => .inl writes
      · exact fun id deleted => absurd deleted (same.2 id)
      · rw [here]
        exact fun id deletes => by simp at deletes
    · rename_i seen claimed episode id doc
      obtain ⟨rfl, named, _⟩ := allows
      rw [effect] at state ⊢
      have moved : new.state = .polling seen (claimed ++ [episode.id]) := state
      have mine : episode.id ∈ mayWrite task.state := by simp [here, mayWrite]
      apply settled.move found running job (settled.filed.put episode.id doc named)
      · intro id deleted
        exact (docs_put_episode _ _ (apart mine deleted) doc).trans (settled.gone id deleted)
      · rw [moved, here]
        exact fun id writes => .inl writes
      · rw [moved]
        exact fun id deleted => by simp at deleted
      · rw [here]
        exact fun id deletes => by simp at deletes
    · rename_i episode id doc
      obtain ⟨rfl, named, _⟩ := allows
      rw [effect] at state ⊢
      have moved : new.state = .afterStoring episode doc := state
      have same : mayWrite new.state = [episode.id] ∧ ∀ id, new.state ≠ .deleted id := by
        rw [moved, Stage.afterStoring]
        split <;> simp [mayWrite]
      have mine : episode.id ∈ mayWrite task.state := by simp [here, mayWrite]
      apply settled.move found running job (settled.filed.put episode.id doc named)
      · intro id deleted
        exact (docs_put_episode _ _ (apart mine deleted) doc).trans (settled.gone id deleted)
      · rw [same.1, here]
        exact fun id writes => .inl writes
      · exact fun id deleted => absurd deleted (same.2 id)
      · rw [here]
        exact fun id deletes => by simp at deletes
    · rename_i episode id score
      rw [effect] at state ⊢
      have moved : new.state = .released := state
      refine settled.move found running job ?_ ?_ ?_ ?_ ?_
      · exact settled.filed
      · exact settled.gone
      · rw [moved]
        exact fun id writes => nomatch writes
      · rw [moved]
        exact fun id deleted => by simp at deleted
      · rw [here]
        exact fun id deletes => by simp at deletes
    · rename_i id other
      rw [effect] at state ⊢
      have stays : new.state = .deleting id := state
      refine settled.move found running job ?_ ?_ ?_ ?_ ?_
      · exact settled.filed
      · exact settled.gone
      · rw [stays]
        exact fun id writes => nomatch writes
      · rw [stays]
        exact fun id deleted => by simp at deleted
      · rw [stays, here]
        exact fun id deletes => deletes
    · rename_i id other
      obtain rfl := allows
      rw [effect] at state ⊢
      have moved : new.state = .deleted other := state
      have removed : (contents.remove (.episode other)).docs (.episode other) = none :=
        Database.Contents.docs_remove_self ..
      have others (id : Uuid) (different : id ≠ other) :
          (contents.remove (.episode other)).docs (.episode id) = contents.docs (.episode id) :=
        Database.Contents.docs_remove_of_ne _ (by simpa using different)
      apply settled.move found running job
      · intro id episode at_id
        rcases eq_or_ne id other with rfl | different
        · exact absurd (at_id.symm.trans removed) (by simp)
        · exact settled.filed id episode ((others id different).symm.trans at_id)
      · intro id deleted
        rcases eq_or_ne id other with rfl | different
        · exact removed
        · exact (others id different).trans (settled.gone id deleted)
      · rw [moved]
        exact fun id writes => nomatch writes
      · rw [moved]
        intro id deleted
        obtain rfl : other = id := by simpa using deleted
        exact .inr ⟨removed, unheld other rfl (sound rfl)⟩
      · rw [moved, here]
        rintro id (deletes | deletes)
        · obtain rfl : other = id := by simpa using deletes
          exact .inr rfl
        · simp at deletes
    · have same := OffQueue.sameQueue allows input contents
      have gone (id : Uuid) (deleted : IsDeleted tasks id) :
          storedEpisode (Database.exec command input contents).2 id = none :=
        (same.docs id).trans (settled.gone id deleted)
      have filed := settled.filed.sameQueue same
      by_cases reads : ∃ id, command = .get (.episode id)
      · obtain ⟨read, rfl⟩ := reads
        rw [replied] at state
        apply settled.move found running job filed gone
        · rw [state, here]
          exact fun id writes => mayWrite_read settled.filed replied writes
        · rw [state, here]
          exact fun id deleted => .inl (next_read_deleted.1.mp deleted)
        · rw [state, here]
          intro id deletes
          exact deletes.imp next_read_deleted.2.mpr next_read_deleted.1.mpr
      · have unread (id : Uuid) : command ≠ .get (.episode id) := fun same => reads ⟨id, same⟩
        rw [OffQueue.next_of_not_read allows unread] at state
        apply settled.move found running job filed gone
        · rw [state, here]
          exact fun id writes => .inl writes
        · rw [state, here]
          exact fun id deleted => .inl deleted
        · rw [state, here]
          exact fun id deletes => deletes

theorem Settled.mem_pending (settled : Settled contents tasks)
    (found : tasks[position]? = some task) (running : task.ended = false)
    (allows : task.state.Allows maxRetries command) {id : Uuid} (deleted : IsDeleted tasks id)
    (waits : id ∈ pending (Database.exec command input contents).2) : id ∈ pending contents := by
  have member := List.mem_of_getElem? found
  cases replied : (Database.exec command input contents).1 with
  | error error => rwa [Database.exec_of_error replied] at waits
  | ok value =>
    have effect := Database.exec_of_ok replied
    have erased (other : Uuid) (kept : id ∈ pending (contents.withSet .pendingEpisodes
        ((contents.sets .pendingEpisodes).erase other))) : id ∈ pending contents := by
      rw [pending, Database.Contents.sets_withSet_self, SortedSet.mem_members_erase] at kept
      exact kept.2
    generalize here : task.state = stage at allows
    unfold Stage.Allows at allows
    split at allows
    · rw [effect] at waits
      exact erased _ waits
    · rw [effect] at waits
      exact waits
    · rw [effect] at waits
      exact waits
    · rename_i episode other score
      obtain rfl := allows
      rw [effect] at waits
      have mine : id ∈ ((contents.sets .pendingEpisodes).insert episode.id score).members := by
        rwa [pending, Database.perform, Database.Contents.sets_withSet_self] at waits
      rcases (SortedSet.mem_members_insert _ _ _ _).mp mine with rfl | before
      · refine absurd ?_ (settled.unheld episode.id deleted task member running)
        rw [here, mayWrite]
        exact List.mem_singleton_self _
      · exact before
    · rw [effect] at waits
      exact erased _ waits
    · rw [effect] at waits
      exact waits
    · rwa [pending, (OffQueue.sameQueue allows input contents).pending] at waits

end Commands

/-! ## Runs of workers and clients -/

section Runs

/-- Polls and deletions come from outside. -/
def pollsAndDeletions : IngestJob → Bool
  | .poll | .delete _ => true
  | .process _ => false

/-- The episode whose data a command removes. -/
def deletionOf : MemoryCommand → Option Uuid
  | .del (.episode id) => some id
  | _ => none

/-- When the data of an episode are removed, no task that goes on is going to store it. -/
def DeletesUnheld (crew : IngestCrew) : IngestStep → Prop
  | .advance position input => ∀ task ∈ crew.tasks[position]?, ∀ command ∈ task.upcoming,
      ∀ id ∈ deletionOf command, input.failure = none → Unheld crew.tasks id
  | _ => True

instance (tasks : List IngestTask) (id : Uuid) : Decidable (Unheld tasks id) :=
  inferInstanceAs (Decidable (∀ task ∈ tasks, task.ended = false → id ∉ mayWrite task.state))

instance (crew : IngestCrew) : (event : IngestStep) → Decidable (DeletesUnheld crew event)
  | .advance position input => inferInstanceAs (Decidable (∀ task ∈ crew.tasks[position]?,
      ∀ command ∈ task.upcoming, ∀ id ∈ deletionOf command, input.failure = none →
        Unheld crew.tasks id))
  | .begin _ => .isTrue trivial
  | .handOn _ => .isTrue trivial

/-- A request to delete an episode has succeeded. -/
def HasDeleted (crew : IngestCrew) (id : Uuid) : Prop :=
  ∃ task ∈ crew.tasks, task.job = .delete id ∧ task.program = .done []

variable (unicode : Unicode) (fallback : String → Option ExtractionResult)
  (config : IngestConfig)

/-- Deletions are settled, and every task follows the protocol. -/
abbrev SettledCrew : IngestCrew → Prop :=
  Crew.Sound (ingestOrders unicode fallback config pollsAndDeletions) Stage.Ends
    Settled

/-- What was deleted stays so, and does not come back into the queue. -/
def Forgets (before after : IngestCrew) : Prop :=
  ∀ id, IsDeleted before.tasks id → IsDeleted after.tasks id ∧
    (id ∈ pending after.shared → id ∈ pending before.shared)

theorem Forgets.refl (crew : IngestCrew) : Forgets crew crew :=
  fun _ deleted => ⟨deleted, fun waits => waits⟩

theorem Forgets.trans {first second third : IngestCrew} (one : Forgets first second)
    (two : Forgets second third) : Forgets first third := by
  intro id deleted
  obtain ⟨still, back⟩ := one id deleted
  obtain ⟨last, again⟩ := two id still
  exact ⟨last, fun waits => back (again waits)⟩

variable {unicode fallback config} {crew : IngestCrew}

theorem SettledCrew.isDeleted
    (settled : SettledCrew unicode fallback config crew) {id : Uuid}
    (deleted : HasDeleted crew id) : IsDeleted crew.tasks id := by
  obtain ⟨task, member, job, program⟩ := deleted
  refine ⟨task, member, ?_⟩
  rcases settled.holds.jobs task member id job with deleting | deleted
  · have follows := settled.follows task member
    rw [program, deleting] at follows
    cases follows with
    | done described => exact described.elim
  · exact deleted

theorem SettledCrew.step (settled : SettledCrew unicode fallback config crew)
    {event : IngestStep} (unheld : DeletesUnheld crew event) :
    SettledCrew unicode fallback config
      (ingestStep unicode fallback config pollsAndDeletions crew event) := by
  refine Crew.Sound.step ?_ ?_ ?_ ?_ ?_ settled unheld
  · exact follows_ingestHandler unicode fallback config
  · exact fun state next rest ends => Stage.ends_handsOn ends
  · intro crew job outside _ holds
    cases job with
    | poll =>
      apply holds.recruit rfl
      · exact fun id impossible => nomatch impossible
      · exact fun id impossible => nomatch impossible
    | process episode => cases outside
    | delete id =>
      apply holds.recruit rfl
      · exact fun id impossible => nomatch impossible
      · intro other same
        exact congrArg Stage.deleting (IngestJob.delete.inj same)
  · intro crew position job command continuation state input found allows unheld holds
    refine ⟨holds.filed.expects command input, ?_⟩
    refine holds.perform found rfl rfl allows ?_ rfl
    rintro id rfl sound
    exact unheld _ found _ rfl id rfl sound
  · intro crew position job next rest state found ends holds
    obtain ⟨seen, claimed, episode, rfl, rfl, read⟩ := Stage.exists_of_ends ends
    exact holds.handOn found rfl rfl rfl rfl rfl rfl

/-- A step brings back nothing that was deleted, neither its data nor its place in the queue. -/
theorem SettledCrew.forgets
    (settled : SettledCrew unicode fallback config crew) (event : IngestStep) :
    Forgets crew
      (ingestStep unicode fallback config pollsAndDeletions crew event) := by
  obtain ⟨holds, follows⟩ := settled
  have grown (task : IngestTask) {tasks : List IngestTask} {id : Uuid}
      (deleted : IsDeleted tasks id) : IsDeleted (tasks ++ [task]) id := by
    obtain ⟨other, member, state⟩ := deleted
    exact ⟨other, List.mem_append_left _ member, state⟩
  cases event with
  | begin job =>
    unfold ingestStep Crew.step
    dsimp only
    split
    · exact fun id deleted => ⟨grown _ deleted, fun waits => waits⟩
    · exact .refl crew
  | advance position input =>
    unfold ingestStep Crew.step
    dsimp only
    split
    · rename_i job command continuation state found
      have mine := follows _ (List.mem_of_getElem? found)
      cases mine with
      | perform allows continues =>
        intro id deleted
        refine ⟨deleted.set found ?_, holds.mem_pending found rfl allows deleted⟩
        rintro rfl
        have heedless : (Stage.deleted id).Heedless := trivial
        exact OffQueue.next allows heedless (Database.exec command input crew.shared).1
    · exact .refl crew
  | handOn position =>
    unfold ingestStep Crew.step
    dsimp only
    split
    · rename_i job next rest state found
      intro id deleted
      refine ⟨grown _ (deleted.set found ?_), fun waits => waits⟩
      rintro rfl
      rfl
    · exact .refl crew

theorem SettledCrew.idle {contents : MemoryContents} (filed : EpisodesFiled contents) :
    SettledCrew unicode fallback config (Crew.idle contents) := by
  apply Crew.Sound.idle
  refine ⟨filed, ?_, ?_, ?_⟩
  · rintro id ⟨task, member, _⟩
    cases member
  · rintro id ⟨task, member, _⟩
    cases member
  · exact fun task member => nomatch member

variable (unicode fallback config)

/-- As long as no task is going to store an episode when its data are removed, nothing that happens
after the deletion stores the episode again or puts it back into the queue. -/
theorem deletion_final {contents : MemoryContents} (filed : EpisodesFiled contents)
    {first second : List IngestStep} {id : Uuid}
    (unheld : Guarded
      (ingestStep unicode fallback config pollsAndDeletions) DeletesUnheld
      (Crew.idle contents) (first ++ second))
    (deleted : HasDeleted (StateMachine.finish
      (ingestStep unicode fallback config pollsAndDeletions)
      (Crew.idle contents) first) id) :
    storedEpisode (StateMachine.finish
        (ingestStep unicode fallback config pollsAndDeletions)
        (Crew.idle contents) (first ++ second)).shared id = none ∧
      (id ∈ pending (StateMachine.finish
          (ingestStep unicode fallback config pollsAndDeletions)
          (Crew.idle contents) (first ++ second)).shared →
        id ∈ pending (StateMachine.finish
          (ingestStep unicode fallback config pollsAndDeletions)
          (Crew.idle contents) first).shared) := by
  have initially : SettledCrew unicode fallback config (Crew.idle contents) :=
    .idle filed
  obtain ⟨early, late⟩ := StateMachine.guarded_append.mp unheld
  have reached := (early.always (fun _ _ settled guarded => settled.step guarded)
    initially).finish
  have last := (late.always (fun _ _ settled guarded => settled.step guarded) reached).finish
  have forgets := late.related Forgets.refl (fun _ _ _ => Forgets.trans)
    (fun _ _ settled guarded => settled.step guarded)
    (fun _ event settled _ => settled.forgets event) reached
  obtain ⟨still, back⟩ := forgets id (reached.isDeleted deleted)
  rw [StateMachine.finish_append]
  exact ⟨last.holds.gone id still, back⟩

end Runs

/-! ## A deletion while the episode is processed -/

/-- A client deletes the episode. -/
def plainDeletion : List IngestStep :=
  [.begin (.delete 4), .advance 0 calmInput, .advance 0 calmInput, .advance 0 calmInput,
    .advance 0 calmInput]

/-- A worker polls the queue. -/
def laterPoll : List IngestStep := [.begin .poll, .advance 1 calmInput]

/-- A worker claims the episode, and a client deletes it. -/
def overtakingDeletion : List IngestStep :=
  [.begin .poll, .advance 0 calmInput, .advance 0 calmInput, .advance 0 calmInput,
    .advance 0 calmInput, .advance 0 calmInput, .handOn 0, .begin (.delete 4),
    .advance 2 calmInput, .advance 2 calmInput, .advance 2 calmInput, .advance 2 calmInput]

/-- The worker processes the episode. -/
def processing : List IngestStep :=
  [.advance 1 calmInput, .advance 1 calmInput, .advance 1 calmInput, .advance 1 calmInput,
    .advance 1 calmInput]

/-- Letters are not changed. -/
def plainLetters : Unicode := ⟨id, Char.isAlphanum⟩

set_option maxRecDepth 10000 in
theorem deletion_final_laterPoll :
    storedEpisode (StateMachine.finish
      (ingestStep plainLetters (fun _ => none) {} pollsAndDeletions) (Crew.idle waitingStore)
      (plainDeletion ++ laterPoll)).shared 4 = none :=
  (deletion_final plainLetters (fun _ => none) {} filed_waitingStore
    (show Guarded _ DeletesUnheld (Crew.idle waitingStore) (plainDeletion ++ laterPoll) by decide)
    (show HasDeleted _ 4 from ⟨_, List.mem_cons_self, rfl, rfl⟩)).1

set_option maxRecDepth 10000 in
/-- A worker that completes an episode which was deleted meanwhile stores it again. -/
theorem deleted_episode_comes_back :
    ¬ ∀ (unicode : Unicode) (fallback : String → Option ExtractionResult)
      (config : IngestConfig) (contents : MemoryContents) (first second : List IngestStep)
      (id : Uuid), EpisodesFiled contents →
        HasDeleted (StateMachine.finish
          (ingestStep unicode fallback config pollsAndDeletions)
          (Crew.idle contents) first) id →
          storedEpisode (StateMachine.finish
              (ingestStep unicode fallback config pollsAndDeletions)
              (Crew.idle contents) (first ++ second)).shared id = none ∧
            (id ∈ pending (StateMachine.finish
                (ingestStep unicode fallback config pollsAndDeletions)
                (Crew.idle contents) (first ++ second)).shared →
              id ∈ pending (StateMachine.finish
                (ingestStep unicode fallback config pollsAndDeletions)
                (Crew.idle contents) first).shared) := by
  intro final
  obtain ⟨gone, _⟩ := final plainLetters (fun _ => none) {} waitingStore overtakingDeletion
    processing 4 filed_waitingStore
    ⟨_, List.mem_cons_of_mem _ (List.mem_cons_of_mem _ List.mem_cons_self), rfl, rfl⟩
  exact absurd gone (by decide)

end Deletion
end Ingest
end Mnemo
