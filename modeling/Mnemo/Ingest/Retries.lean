import Mnemo.Ingest.Stages

/-!
# How often an episode is tried

Every claim of an episode starts one attempt at processing it.  As long as the copies which the
polls claim are up to date, the stored count of retries grows with the attempts, and their number
stays bounded.
-/

namespace Mnemo
namespace Ingest
namespace Retries

open Memory
open Program (Crew Task)
open Program.Crew (tally)
open StateMachine (Always Guarded)

/-! ## Holding an episode -/

/-- The identifiers which a task has removed from the queue and not put back. -/
def held : Stage → List Uuid
  | .polling _ claimed => claimed
  | .taking _ claimed id => claimed ++ [id]
  | .taken _ claimed episode => claimed ++ [episode.id]
  | .working episode | .requeueing episode => [episode.id]
  | .released | .deleting _ | .deleted _ => []

/-- How often a task holds an identifier. -/
def holds (id : Uuid) (task : IngestTask) : Nat := (held task.state).count id

/-- Whether a job is an attempt at processing an episode. -/
def isAttempt (id : Uuid) : IngestJob → Nat
  | .process episode => if episode.id = id then 1 else 0
  | _ => 0

/-- How often the processing of an episode was begun. -/
def attempts (id : Uuid) (tasks : List IngestTask) : Nat :=
  tally (fun task => isAttempt id task.job) tasks

section Invariant

variable (maxRetries : Nat) (contents : MemoryContents) (tried : Uuid → Nat)

/-- Another attempt is due: every earlier one is counted, and there were not too many. -/
def Spare (id : Uuid) (retryCount : Nat) : Prop :=
  tried id ≤ retryCount ∧ tried id ≤ maxRetries

/-- What a poll has read of an episode is as it is stored, and another attempt is due. -/
def Matches (seen : List Episode) (id : Uuid) (stored : Episode) : Prop :=
  Spare maxRetries tried id stored.retryCount ∧
    ∀ snapshot ∈ seen, snapshot.id = id → snapshot.retryCount = stored.retryCount

/-- The episode that was claimed is stored, and the copy of the poll is up to date. -/
def Claimed (seen : List Episode) (id : Uuid) : Prop :=
  ∃ stored : Episode, contents.docs (.episode id) = some stored ∧
    Matches maxRetries tried seen id stored

/-- What is known of the episodes that a task holds. -/
def Fits : Stage → Prop
  | .polling seen claimed => ∀ id ∈ claimed, Claimed maxRetries contents tried seen id
  | .taking seen claimed id =>
      (∀ other ∈ claimed, Claimed maxRetries contents tried seen other) ∧
        ∀ stored : Episode, contents.docs (.episode id) = some stored →
          Matches maxRetries tried seen id stored
  | .taken seen claimed episode =>
      (∀ other ∈ claimed, Claimed maxRetries contents tried seen other) ∧
        contents.docs (.episode episode.id) = some episode ∧
          Matches maxRetries tried seen episode.id episode
  | .working episode =>
      (∃ stored : Episode, contents.docs (.episode episode.id) = some stored ∧
        stored.retryCount = episode.retryCount) ∧
          tried episode.id ≤ episode.retryCount + 1 ∧ tried episode.id ≤ maxRetries + 1
  | .requeueing episode =>
      ∃ stored : Episode, contents.docs (.episode episode.id) = some stored ∧
        stored.retryCount = episode.retryCount + 1 ∧
          Spare maxRetries tried episode.id stored.retryCount
  | .released => True
  | .deleting _ | .deleted _ => False

end Invariant

/-- Everybody who holds an episode holds it alone, and knows its count of retries. -/
structure Orderly (maxRetries : Nat) (contents : MemoryContents) (tasks : List IngestTask) :
    Prop where
  filed : EpisodesFiled contents
  exclusive : ∀ id, tally (holds id) tasks ≤ 1
  free : ∀ id ∈ (contents.sets .pendingEpisodes).members, tally (holds id) tasks = 0
  waiting : ∀ id ∈ (contents.sets .pendingEpisodes).members, ∀ stored : Episode,
    contents.docs (.episode id) = some stored →
      Spare maxRetries (fun id => attempts id tasks) id stored.retryCount
  fits : ∀ (position : Nat) (task : IngestTask), tasks[position]? = some task →
    Fits maxRetries contents (fun id => attempts id tasks) task.state
  bounded : ∀ id, attempts id tasks ≤ maxRetries + 1

section Frame

variable {maxRetries : Nat} {before after : MemoryContents} {tried others : Uuid → Nat}

theorem Claimed.frame {seen : List Episode} {id : Uuid}
    (claimed : Claimed maxRetries before tried seen id)
    (docs : after.docs (.episode id) = before.docs (.episode id)) (same : others id = tried id) :
    Claimed maxRetries after others seen id := by
  obtain ⟨stored, found, ⟨spare, few⟩, copies⟩ := claimed
  refine ⟨stored, docs.trans found, ⟨?_, ?_⟩, copies⟩
  · omega
  · omega

/-- What is known of held episodes depends on these episodes only. -/
theorem Fits.frame {stage : Stage} (fits : Fits maxRetries before tried stage)
    (same : ∀ id ∈ held stage, after.docs (.episode id) = before.docs (.episode id) ∧
      others id = tried id) : Fits maxRetries after others stage := by
  cases stage with
  | polling seen claimed =>
    intro id member
    exact (fits id member).frame (same id member).1 (same id member).2
  | taking seen claimed id =>
    have mine := same id (by simp [held])
    refine ⟨fun other member => ?_, fun stored found => ?_⟩
    · have theirs := same other (by simp [held, member])
      exact (fits.1 other member).frame theirs.1 theirs.2
    · obtain ⟨⟨spare, few⟩, copies⟩ := fits.2 stored (mine.1.symm.trans found)
      refine ⟨⟨?_, ?_⟩, copies⟩
      · omega
      · omega
  | taken seen claimed episode =>
    have mine := same episode.id (by simp [held])
    obtain ⟨earlier, found, ⟨spare, few⟩, copies⟩ := fits
    refine ⟨fun other member => ?_, mine.1.trans found, ⟨?_, ?_⟩, copies⟩
    · have theirs := same other (by simp [held, member])
      exact (earlier other member).frame theirs.1 theirs.2
    · omega
    · omega
  | working episode =>
    have mine := same episode.id (by simp [held])
    obtain ⟨⟨stored, found, counts⟩, spare, few⟩ := fits
    refine ⟨⟨stored, mine.1.trans found, counts⟩, ?_, ?_⟩
    · omega
    · omega
  | requeueing episode =>
    have mine := same episode.id (by simp [held])
    obtain ⟨stored, found, counts, spare, few⟩ := fits
    refine ⟨stored, mine.1.trans found, counts, ?_, ?_⟩
    · omega
    · omega
  | released => trivial
  | deleting id => exact fits.elim
  | deleted id => exact fits.elim

end Frame

section Steps

variable {maxRetries : Nat} {before after : MemoryContents} {tasks : List IngestTask}
  {position : Nat} {task new : IngestTask}

theorem attempts_set (found : tasks[position]? = some task) (job : new.job = task.job)
    (id : Uuid) : attempts id (tasks.set position new) = attempts id tasks := by
  have sum : attempts id (tasks.set position new) + isAttempt id task.job =
      attempts id tasks + isAttempt id new.job := Crew.tally_set found new
  rw [job] at sum
  omega

theorem tally_holds_set (found : tasks[position]? = some task) (new : IngestTask) (id : Uuid) :
    tally (holds id) (tasks.set position new) + holds id task =
      tally (holds id) tasks + holds id new := Crew.tally_set found new

theorem one_le_holds {id : Uuid} : 1 ≤ holds id task ↔ id ∈ held task.state :=
  List.one_le_count_iff

theorem holds_le_tally (found : tasks[position]? = some task) (id : Uuid) :
    holds id task ≤ tally (holds id) tasks := Crew.le_tally found

namespace Orderly

theorem notMem_held (orderly : Orderly maxRetries before tasks)
    (found : tasks[position]? = some task) {other : Nat} {rival : IngestTask}
    (different : position ≠ other) (foundOther : tasks[other]? = some rival) {id : Uuid}
    (member : id ∈ held rival.state) : id ∉ held task.state := by
  intro mine
  have both : holds id task + holds id rival ≤ tally (holds id) tasks :=
    Crew.add_le_tally different found foundOther
  have once := orderly.exclusive id
  have one := one_le_holds.mpr mine
  have two := one_le_holds.mpr member
  omega

theorem notMem_of_pending (orderly : Orderly maxRetries before tasks)
    (found : tasks[position]? = some task) {id : Uuid}
    (pending : id ∈ (before.sets .pendingEpisodes).members) : id ∉ held task.state := by
  intro mine
  have none := orderly.free id pending
  have most := holds_le_tally found id
  have one := one_le_holds.mpr mine
  omega

/-- The crew stays orderly when a task takes from the queue what it holds from then on, puts into
the queue what it held, and changes no other episodes than those which it held. -/
theorem move (orderly : Orderly maxRetries before tasks)
    (found : tasks[position]? = some task) (job : new.job = task.job)
    (filed : EpisodesFiled after)
    (docs : ∀ id, id ∉ held task.state → after.docs (.episode id) = before.docs (.episode id))
    (takes : ∀ id, holds id new ≤ holds id task ∨
      holds id new ≤ 1 ∧ id ∈ (before.sets .pendingEpisodes).members)
    (puts : ∀ id ∈ (after.sets .pendingEpisodes).members, id ∉ held new.state ∧
      (id ∈ (before.sets .pendingEpisodes).members ∨ id ∈ held task.state ∧
        ∀ stored : Episode, after.docs (.episode id) = some stored →
          Spare maxRetries (fun id => attempts id tasks) id stored.retryCount))
    (fits : Fits maxRetries after (fun id => attempts id tasks) new.state) :
    Orderly maxRetries after (tasks.set position new) := by
  have sameAttempts : (fun id => attempts id (tasks.set position new)) =
      fun id => attempts id tasks := funext fun id => attempts_set found job id
  refine ⟨filed, fun id => ?_, fun id member => ?_, fun id member stored at_id => ?_,
    fun other rival foundOther => ?_, fun id => ?_⟩
  · have sum := tally_holds_set found new id
    have once := orderly.exclusive id
    have most := holds_le_tally found id
    rcases takes id with fewer | ⟨one, pending⟩
    · omega
    · have none := orderly.free id pending
      omega
  · have sum := tally_holds_set found new id
    have most := holds_le_tally found id
    obtain ⟨unheld, origin⟩ := puts id member
    have nothing : holds id new = 0 := List.count_eq_zero.mpr unheld
    rcases origin with pending | ⟨mine, _⟩
    · have none := orderly.free id pending
      omega
    · have once := orderly.exclusive id
      have one := one_le_holds.mpr mine
      omega
  · rw [sameAttempts]
    rcases (puts id member).2 with pending | ⟨_, spare⟩
    · have unheld := orderly.notMem_of_pending found pending
      exact orderly.waiting id pending stored ((docs id unheld).symm.trans at_id)
    · exact spare stored at_id
  · rw [sameAttempts]
    rcases eq_or_ne position other with rfl | different
    · rw [List.getElem?_set_self (List.getElem?_eq_some_iff.mp found).1] at foundOther
      rw [← Option.some.inj foundOther]
      exact fits
    · rw [List.getElem?_set_ne different] at foundOther
      apply (orderly.fits other rival foundOther).frame
      exact fun id member => ⟨docs id (orderly.notMem_held found different foundOther member), rfl⟩
  · rw [attempts_set found job]
    exact orderly.bounded id

theorem stay (orderly : Orderly maxRetries before tasks)
    (found : tasks[position]? = some task) (job : new.job = task.job)
    (keeps : held new.state = held task.state) (filed : EpisodesFiled after)
    (docs : ∀ id, id ∉ held task.state → after.docs (.episode id) = before.docs (.episode id))
    (pending : (after.sets .pendingEpisodes).members ⊆ (before.sets .pendingEpisodes).members)
    (fits : Fits maxRetries after (fun id => attempts id tasks) new.state) :
    Orderly maxRetries after (tasks.set position new) := by
  apply orderly.move found job filed docs
  · intro id
    left
    rw [holds, holds, keeps]
  · intro id member
    rw [keeps]
    exact ⟨orderly.notMem_of_pending found (pending member), .inl (pending member)⟩
  · exact fits

theorem recruit (orderly : Orderly maxRetries before tasks)
    (idle : held new.state = []) (fits : ∀ contents tried, Fits maxRetries contents tried new.state)
    (waits : ∀ id, isAttempt id new.job = 0) : Orderly maxRetries before (tasks ++ [new]) := by
  have sameAttempts (id : Uuid) : attempts id (tasks ++ [new]) = attempts id tasks := by
    simp [attempts, waits]
  have sameHolds (id : Uuid) : tally (holds id) (tasks ++ [new]) = tally (holds id) tasks := by
    simp [holds, idle]
  refine ⟨orderly.filed, fun id => ?_, fun id member => ?_, ?_, fun other rival foundOther => ?_,
    fun id => ?_⟩
  · rw [sameHolds]
    exact orderly.exclusive id
  · rw [sameHolds]
    exact orderly.free id member
  · simp only [sameAttempts]
    exact orderly.waiting
  · simp only [sameAttempts]
    rcases lt_or_ge other tasks.length with inside | outside
    · rw [List.getElem?_append_left inside] at foundOther
      exact orderly.fits other rival foundOther
    · rw [List.getElem?_append_right outside] at foundOther
      have last : rival = new := by
        have member := List.mem_of_getElem? foundOther
        simpa using member
      rw [last]
      exact fits _ _
  · rw [sameAttempts]
    exact orderly.bounded id

/-- A poll hands on the first episode that it has claimed, and the next attempt begins. -/
theorem handOn (orderly : Orderly maxRetries before tasks)
    (found : tasks[position]? = some task) {seen : List Episode} {claimed : List Uuid}
    {episode : Episode} (state : task.state = .polling seen (episode.id :: claimed))
    (read : episode ∈ seen) {left : IngestTask} (leftJob : left.job = task.job)
    (leftState : left.state = .polling seen claimed) (newJob : new.job = .process episode)
    (newState : new.state = .working episode) :
    Orderly maxRetries before (tasks.set position left ++ [new]) := by
  have mine : holds episode.id task = (episode.id :: claimed).count episode.id := by
    rw [holds, state, held]
  have most := holds_le_tally found episode.id
  have once := orderly.exclusive episode.id
  rw [mine, List.count_cons_self] at most
  have apart : episode.id ∉ claimed := List.count_eq_zero.mp (by omega)
  have sameHolds (id : Uuid) : tally (holds id) (tasks.set position left ++ [new]) =
      tally (holds id) tasks := by
    have sum := tally_holds_set found left id
    rw [Crew.tally_append, Crew.tally_singleton]
    simp only [holds, state, leftState, newState, held, List.count_cons, List.count_nil] at sum ⊢
    omega
  have nextAttempts (id : Uuid) : attempts id (tasks.set position left ++ [new]) =
      attempts id tasks + if episode.id = id then 1 else 0 := by
    rw [attempts, Crew.tally_append, Crew.tally_singleton, newJob, isAttempt]
    exact congrArg (· + _) (attempts_set found leftJob id)
  have otherwise {id : Uuid} (different : episode.id ≠ id) :
      attempts id (tasks.set position left ++ [new]) = attempts id tasks := by
    rw [nextAttempts, if_neg different, Nat.add_zero]
  have known := orderly.fits position task found
  rw [state] at known
  obtain ⟨stored, at_id, ⟨spare, few⟩, copies⟩ := known episode.id List.mem_cons_self
  have upToDate := copies episode read rfl
  refine ⟨orderly.filed, fun id => ?_, fun id member => ?_, fun id member other foundOther => ?_,
    fun other rival foundOther => ?_, fun id => ?_⟩
  · rw [sameHolds]
    exact orderly.exclusive id
  · rw [sameHolds]
    exact orderly.free id member
  · have unheld := orderly.notMem_of_pending found member
    rw [state, held] at unheld
    have different : episode.id ≠ id := fun same => unheld (same ▸ List.mem_cons_self)
    have waits := orderly.waiting id member other foundOther
    simpa only [Spare, otherwise different] using waits
  · rcases lt_or_ge other (tasks.set position left).length with inside | outside
    · rw [List.getElem?_append_left inside] at foundOther
      rcases eq_or_ne position other with rfl | different
      · rw [List.getElem?_set_self (List.getElem?_eq_some_iff.mp found).1] at foundOther
        rw [← Option.some.inj foundOther, leftState]
        intro id member
        have different : episode.id ≠ id := fun same => apart (same ▸ member)
        exact (known id (List.mem_cons_of_mem _ member)).frame rfl (otherwise different)
      · rw [List.getElem?_set_ne different] at foundOther
        apply (orderly.fits other rival foundOther).frame
        intro id member
        refine ⟨rfl, otherwise fun same => ?_⟩
        have unheld := orderly.notMem_held found different foundOther member
        rw [state, held] at unheld
        exact unheld (same ▸ List.mem_cons_self)
    · rw [List.getElem?_append_right outside] at foundOther
      have last : rival = new := by simpa using List.mem_of_getElem? foundOther
      rw [last, newState]
      have one := nextAttempts episode.id
      rw [if_pos rfl] at one
      refine ⟨⟨stored, at_id, upToDate.symm⟩, ?_, ?_⟩
      · dsimp only at spare ⊢
        omega
      · dsimp only at few ⊢
        omega
  · rcases eq_or_ne episode.id id with rfl | different
    · rw [nextAttempts, if_pos rfl]
      exact Nat.succ_le_succ few
    · rw [otherwise different]
      exact orderly.bounded id

end Orderly
end Steps

/-! ## The commands of tasks -/

section Commands

variable {maxRetries : Nat} {contents : MemoryContents} {tasks : List IngestTask}
  {position : Nat} {task new : IngestTask} {command : MemoryCommand} {input : MemoryInput}

/-- What a poll has read, and the identifier that it takes from the queue next. -/
def claimOf : Stage → MemoryCommand → Option (List Episode × Uuid)
  | .polling seen _, .zrem .pendingEpisodes id => some (seen, id)
  | _, _ => none

/-- A poll that takes an identifier from the queue has read the episode with the count of retries
with which it is stored. -/
def CopyUpToDate (contents : MemoryContents) (stage : Stage) (command : MemoryCommand)
    (input : MemoryInput) : Prop :=
  ∀ claim ∈ claimOf stage command, input.failure = none →
    claim.2 ∈ (contents.sets .pendingEpisodes).members →
      ∀ snapshot ∈ claim.1, snapshot.id = claim.2 →
        ∀ stored ∈ storedEpisode contents claim.2, snapshot.retryCount = stored.retryCount

theorem Fits.read {tried : Uuid → Nat} {stage : Stage} {id : Uuid} {stored : Option Episode}
    (fits : Fits maxRetries contents tried stage) (filed : EpisodesFiled contents)
    (replied : (Database.exec (.get (.episode id) : MemoryCommand) input contents).1 =
      .ok stored) :
    Fits maxRetries contents tried (stage.next (.get (.episode id)) (.ok stored)) ∧
      held (stage.next (.get (.episode id)) (.ok stored)) = held stage := by
  cases stored with
  | none => cases stage <;> exact ⟨fits, rfl⟩
  | some episode =>
    have found := read_episode replied
    have named := filed id episode found
    cases stage with
    | polling seen claimed =>
      refine ⟨fun other member => ?_, rfl⟩
      obtain ⟨stored, at_other, spare, copies⟩ := fits other member
      refine ⟨stored, at_other, spare, fun snapshot listed same => ?_⟩
      rcases List.mem_cons.mp listed with rfl | earlier
      · rw [named] at same
        rw [same, at_other] at found
        rw [Option.some.inj found]
      · exact copies snapshot earlier same
    | taking seen claimed taken =>
      rcases eq_or_ne id taken with rfl | different
      · have moves : (Stage.taking seen claimed id).next (.get (.episode id))
            (.ok (some episode)) = .taken seen claimed episode := if_pos rfl
        rw [moves]
        refine ⟨⟨fits.1, ?_, ?_⟩, ?_⟩
        · rw [named]
          exact found
        · rw [named]
          exact fits.2 episode found
        · rw [held, held, named]
      · have stays : (Stage.taking seen claimed taken).next (.get (.episode id))
            (.ok (some episode)) = .taking seen claimed taken := if_neg different
        rw [stays]
        exact ⟨fits, rfl⟩
    | _ => exact ⟨fits, rfl⟩

theorem Orderly.offQueue (orderly : Orderly maxRetries contents tasks)
    (found : tasks[position]? = some task) (job : new.job = task.job) (off : OffQueue command)
    (state : new.state = task.state.next command (Database.exec command input contents).1) :
    Orderly maxRetries (Database.exec command input contents).2 (tasks.set position new) := by
  have same := off.sameQueue input contents
  have fits := orderly.fits position task found
  have moved : Fits maxRetries contents (fun id => attempts id tasks) new.state ∧
      held new.state = held task.state := by
    rw [state]
    by_cases reads : ∃ id, command = .get (.episode id)
    · obtain ⟨id, rfl⟩ := reads
      cases replied : (Database.exec (.get (.episode id) : MemoryCommand) input contents).1 with
      | error error =>
        rw [Stage.next_error]
        exact ⟨fits, rfl⟩
      | ok stored => exact fits.read orderly.filed replied
    · have unread (id : Uuid) : command ≠ .get (.episode id) := fun same => reads ⟨id, same⟩
      rw [OffQueue.next_of_not_read off unread]
      exact ⟨fits, rfl⟩
  apply orderly.stay found job moved.2 (orderly.filed.sameQueue same)
  · exact fun id _ => same.docs id
  · rw [same.pending]
    exact fun _ member => member
  · exact moved.1.frame fun id _ => ⟨same.docs id, rfl⟩

/-- A poll takes an identifier from the queue, if it is there. -/
theorem Orderly.take (orderly : Orderly maxRetries contents tasks)
    (found : tasks[position]? = some task) (job : new.job = task.job) {seen : List Episode}
    {claimed : List Uuid} {id : Uuid} (state : task.state = .polling seen claimed)
    (upToDate : id ∈ (contents.sets .pendingEpisodes).members →
      ∀ snapshot ∈ seen, snapshot.id = id → ∀ stored : Episode,
        contents.docs (.episode id) = some stored → snapshot.retryCount = stored.retryCount)
    (newState : new.state = (Stage.polling seen claimed).next (.zrem .pendingEpisodes id)
      (.ok ((contents.sets .pendingEpisodes).removed id))) :
    Orderly maxRetries
      (contents.withSet .pendingEpisodes ((contents.sets .pendingEpisodes).erase id))
      (tasks.set position new) := by
  have fits := orderly.fits position task found
  rw [state] at fits
  have smaller : ((contents.withSet .pendingEpisodes
      ((contents.sets .pendingEpisodes).erase id)).sets .pendingEpisodes).members =
      ((contents.sets .pendingEpisodes).erase id).members := by
    rw [Database.Contents.sets_withSet_self]
  have filed : EpisodesFiled (contents.withSet .pendingEpisodes
      ((contents.sets .pendingEpisodes).erase id)) := orderly.filed
  by_cases pending : id ∈ (contents.sets .pendingEpisodes).members
  · have taking : new.state = .taking seen claimed id := by
      rw [newState, SortedSet.removed, if_pos pending]
      rfl
    have unheld := orderly.notMem_of_pending found pending
    rw [state, held] at unheld
    apply orderly.move found job filed
    · exact fun _ _ => rfl
    · intro other
      rw [holds, holds, state, taking, held, held, List.count_append]
      rcases eq_or_ne other id with rfl | different
      · right
        rw [List.count_eq_zero.mpr unheld, List.count_singleton_self]
        exact ⟨le_rfl, pending⟩
      · left
        have apart : [id].count other = 0 := List.count_eq_zero.mpr (by simpa using different)
        omega
    · intro other member
      rw [smaller, SortedSet.mem_members_erase] at member
      obtain ⟨different, before⟩ := member
      have free := orderly.notMem_of_pending found before
      rw [state, held] at free
      rw [taking, held]
      exact ⟨by simp [free, different], .inl before⟩
    · rw [taking]
      refine ⟨fits, fun stored at_id => ⟨orderly.waiting id pending stored at_id, ?_⟩⟩
      exact fun snapshot read same => upToDate pending snapshot read same stored at_id
  · have stays : new.state = .polling seen claimed := by
      rw [newState, SortedSet.removed, if_neg pending]
      rfl
    apply orderly.stay found job (by rw [stays, state]) filed
    · exact fun _ _ => rfl
    · rw [smaller]
      exact fun other member => ((SortedSet.mem_members_erase _ _ _).mp member).2
    · rw [stays]
      exact fits

theorem Orderly.mark (orderly : Orderly maxRetries contents tasks)
    (found : tasks[position]? = some task) (job : new.job = task.job) {seen : List Episode}
    {claimed : List Uuid} {episode doc : Episode} (state : task.state = .taken seen claimed episode)
    (named : doc.id = episode.id) (counts : doc.retryCount = episode.retryCount)
    (newState : new.state = .polling seen (claimed ++ [episode.id])) :
    Orderly maxRetries (contents.put (.episode episode.id) doc) (tasks.set position new) := by
  have fits := orderly.fits position task found
  rw [state] at fits
  obtain ⟨earlier, _, spare, copies⟩ := fits
  rw [← counts] at spare copies
  apply orderly.stay found job
  · rw [newState, state, held, held]
  · exact orderly.filed.put episode.id doc named
  · intro other unheld
    rw [state, held] at unheld
    exact docs_put_episode _ _ (fun same => unheld (by simp [same])) doc
  · exact fun _ member => member
  · rw [newState]
    intro other member
    rcases eq_or_ne other episode.id with rfl | different
    · exact ⟨doc, Database.Contents.docs_put_self .., spare, copies⟩
    · have claimed_other : other ∈ claimed := by simpa [different] using member
      exact (earlier other claimed_other).frame (docs_put_episode _ _ different doc) rfl

theorem Orderly.store (orderly : Orderly maxRetries contents tasks)
    (found : tasks[position]? = some task) (job : new.job = task.job) {episode doc : Episode}
    (state : task.state = .working episode) (named : doc.id = episode.id)
    (counts : doc.retryCount = episode.retryCount ∨
      episode.retryCount < maxRetries ∧ doc.retryCount = episode.retryCount + 1)
    (newState : new.state = .afterStoring episode doc) :
    Orderly maxRetries (contents.put (.episode episode.id) doc) (tasks.set position new) := by
  have fits := orderly.fits position task found
  rw [state] at fits
  obtain ⟨_, spare, few⟩ := fits
  have stored : (contents.put (.episode episode.id) doc).docs (.episode episode.id) = some doc :=
    Database.Contents.docs_put_self ..
  apply orderly.stay found job
  · rw [newState, state, Stage.afterStoring]
    split <;> rfl
  · exact orderly.filed.put episode.id doc named
  · intro other unheld
    rw [state, held] at unheld
    exact docs_put_episode _ _ (by simpa using unheld) doc
  · exact fun _ member => member
  · rw [newState, Stage.afterStoring]
    split
    · rename_i same
      exact ⟨⟨doc, stored, same⟩, spare, few⟩
    · rename_i differs
      obtain same | ⟨left, next⟩ := counts
      · exact absurd same differs
      · refine ⟨doc, stored, next, ?_, ?_⟩
        · omega
        · omega

theorem Orderly.requeue (orderly : Orderly maxRetries contents tasks)
    (found : tasks[position]? = some task) (job : new.job = task.job) {episode : Episode}
    (state : task.state = .requeueing episode) (score : Int) (newState : new.state = .released) :
    Orderly maxRetries (contents.withSet .pendingEpisodes
      ((contents.sets .pendingEpisodes).insert episode.id score)) (tasks.set position new) := by
  have fits := orderly.fits position task found
  rw [state] at fits
  obtain ⟨stored, at_id, _, spare⟩ := fits
  have filed : EpisodesFiled (contents.withSet .pendingEpisodes
      ((contents.sets .pendingEpisodes).insert episode.id score)) := orderly.filed
  apply orderly.move found job filed
  · exact fun _ _ => rfl
  · intro other
    left
    simp [holds, newState, held]
  · intro other member
    rw [Database.Contents.sets_withSet_self, SortedSet.mem_members_insert] at member
    rw [newState, state, held, held]
    refine ⟨List.not_mem_nil, ?_⟩
    rcases member with rfl | before
    · right
      refine ⟨List.mem_singleton.mpr rfl, fun other at_other => ?_⟩
      rw [← Option.some.inj (at_id.symm.trans at_other)]
      exact spare
    · exact .inl before
  · rw [newState]
    trivial

/-- Every allowed command leaves the crew orderly, as long as the copies are up to date. -/
theorem Orderly.perform (orderly : Orderly maxRetries contents tasks)
    (found : tasks[position]? = some task) (job : new.job = task.job)
    (allows : task.state.Allows maxRetries command)
    (upToDate : CopyUpToDate contents task.state command input)
    (state : new.state = task.state.next command (Database.exec command input contents).1) :
    Orderly maxRetries (Database.exec command input contents).2 (tasks.set position new) := by
  cases replied : (Database.exec command input contents).1 with
  | error error =>
    rw [replied, Stage.next_error] at state
    rw [Database.exec_of_error replied]
    apply orderly.stay found job (by rw [state]) orderly.filed (fun _ _ => rfl)
      (fun _ member => member)
    rw [state]
    exact orderly.fits position task found
  | ok value =>
    have effect := Database.exec_of_ok replied
    have sound (fallible : command.fallible = true) : input.failure = none := by
      cases failing : input.failure with
      | none => rfl
      | some error =>
        rw [Database.exec_of_failure fallible failing] at replied
        cases replied
    generalize here : task.state = stage at allows upToDate state
    unfold Stage.Allows at allows
    split at allows
    · rename_i seen claimed id
      rw [effect] at state ⊢
      exact orderly.take found job here (upToDate _ rfl (sound rfl)) state
    · rename_i seen claimed episode id doc
      obtain ⟨rfl, named, counts⟩ := allows
      rw [effect] at state ⊢
      exact orderly.mark found job here named counts state
    · rename_i episode id doc
      obtain ⟨rfl, named, counts⟩ := allows
      rw [effect] at state ⊢
      exact orderly.store found job here named counts state
    · rename_i episode id score
      obtain rfl := allows
      rw [effect] at state ⊢
      exact orderly.requeue found job here score state
    · have fits := orderly.fits position task found
      rw [here] at fits
      exact fits.elim
    · have fits := orderly.fits position task found
      rw [here] at fits
      exact fits.elim
    · rw [← here] at state
      exact orderly.offQueue found job allows state

/-- Every stored episode stays, and its count of retries does not decrease. -/
def Grows (before after : MemoryContents) : Prop :=
  ∀ id, ∀ stored ∈ storedEpisode before id, ∃ later ∈ storedEpisode after id,
    stored.retryCount ≤ later.retryCount

theorem Grows.refl (contents : MemoryContents) : Grows contents contents :=
  fun _ stored found => ⟨stored, found, le_rfl⟩

theorem Grows.trans {first second third : MemoryContents} (one : Grows first second)
    (two : Grows second third) : Grows first third := by
  intro id stored found
  obtain ⟨middle, foundMiddle, more⟩ := one id stored found
  obtain ⟨last, foundLast, most⟩ := two id middle foundMiddle
  exact ⟨last, foundLast, more.trans most⟩

theorem Grows.of_docs {after : MemoryContents}
    (docs : ∀ id, after.docs (.episode id) = contents.docs (.episode id)) :
    Grows contents after :=
  fun id stored found => ⟨stored, (docs id).trans found, le_rfl⟩

theorem Grows.put {id : Uuid} {doc : Episode}
    (more : ∀ stored ∈ storedEpisode contents id, stored.retryCount ≤ doc.retryCount) :
    Grows contents (contents.put (.episode id) doc) := by
  intro other stored found
  rcases eq_or_ne other id with rfl | different
  · exact ⟨doc, Database.Contents.docs_put_self .., more stored found⟩
  · exact ⟨stored, (docs_put_episode id other different doc).trans found, le_rfl⟩

theorem Orderly.grows (orderly : Orderly maxRetries contents tasks)
    (found : tasks[position]? = some task) (allows : task.state.Allows maxRetries command) :
    Grows contents (Database.exec command input contents).2 := by
  have fits := orderly.fits position task found
  cases replied : (Database.exec command input contents).1 with
  | error error =>
    rw [Database.exec_of_error replied]
    exact .refl contents
  | ok value =>
    have effect := Database.exec_of_ok replied
    generalize task.state = stage at allows fits
    unfold Stage.Allows at allows
    split at allows
    · rw [effect]
      exact .of_docs fun _ => rfl
    · rename_i seen claimed episode id doc
      obtain ⟨rfl, named, counts⟩ := allows
      obtain ⟨_, at_id, _⟩ := fits
      rw [effect]
      apply Grows.put
      intro stored found
      rw [Option.some.inj (found.symm.trans at_id), counts]
    · rename_i episode id doc
      obtain ⟨rfl, named, counts⟩ := allows
      obtain ⟨⟨known, at_id, same⟩, _⟩ := fits
      rw [effect]
      apply Grows.put
      intro stored found
      rw [Option.some.inj (found.symm.trans at_id)]
      omega
    · rw [effect]
      exact .of_docs fun _ => rfl
    · exact fits.elim
    · exact fits.elim
    · exact .of_docs (OffQueue.sameQueue allows input contents).docs

end Commands

/-! ## Runs of the workers -/

section Runs

/-- Only polls come from outside: what is processed was claimed by a poll. -/
def onlyPolls : IngestJob → Bool
  | .poll => true
  | _ => false

/-- Whenever a poll takes an identifier from the queue, it has read the episode with the count of
retries with which it is stored. -/
def CopiesUpToDate (crew : IngestCrew) : IngestStep → Prop
  | .advance position input => ∀ task ∈ crew.tasks[position]?, ∀ command ∈ task.upcoming,
      CopyUpToDate crew.shared task.state command input
  | _ => True

instance (crew : IngestCrew) : (event : IngestStep) → Decidable (CopiesUpToDate crew event)
  | .advance position input => inferInstanceAs (Decidable (∀ task ∈ crew.tasks[position]?,
      ∀ command ∈ task.upcoming, ∀ claim ∈ claimOf task.state command, input.failure = none →
        claim.2 ∈ (crew.shared.sets .pendingEpisodes).members →
          ∀ snapshot ∈ claim.1, snapshot.id = claim.2 →
            ∀ stored ∈ storedEpisode crew.shared claim.2,
              snapshot.retryCount = stored.retryCount))
  | .begin _ => .isTrue trivial
  | .handOn _ => .isTrue trivial

variable (unicode : Unicode) (fallback : String → Option ExtractionResult)
  (config : IngestConfig)

/-- The crew is orderly, and every task follows the protocol. -/
abbrev OrderlyCrew : IngestCrew → Prop :=
  Crew.Sound (ingestOrders unicode fallback config onlyPolls) Stage.Ends
    (Orderly config.maxRetries)

variable {unicode fallback config} {crew : IngestCrew}

theorem OrderlyCrew.step (orderly : OrderlyCrew unicode fallback config crew)
    {event : IngestStep} (upToDate : CopiesUpToDate crew event) :
    OrderlyCrew unicode fallback config
      (ingestStep unicode fallback config onlyPolls crew event) := by
  refine Crew.Sound.step ?_ ?_ ?_ ?_ ?_ orderly upToDate
  · exact follows_ingestHandler unicode fallback config
  · exact fun state next rest ends => Stage.ends_handsOn ends
  · intro crew job outside _ holds
    cases job with
    | poll =>
      apply holds.recruit
      · rfl
      · exact fun contents tried id impossible => nomatch impossible
      · exact fun _ => rfl
    | process episode => cases outside
    | delete id => cases outside
  · intro crew position job command continuation state input found allows upToDate holds
    refine ⟨holds.filed.expects command input, ?_⟩
    exact holds.perform found rfl allows (upToDate _ found command rfl) rfl
  · intro crew position job next rest state found ends holds
    obtain ⟨seen, claimed, episode, rfl, rfl, read⟩ := Stage.exists_of_ends ends
    exact holds.handOn found rfl read rfl rfl rfl rfl

theorem OrderlyCrew.grows (orderly : OrderlyCrew unicode fallback config crew)
    (event : IngestStep) :
    Grows crew.shared
      (ingestStep unicode fallback config onlyPolls crew event).shared := by
  obtain ⟨holds, follows⟩ := orderly
  cases event with
  | begin job =>
    unfold ingestStep Crew.step
    dsimp only
    split <;> exact .refl _
  | advance position input =>
    unfold ingestStep Crew.step
    dsimp only
    split
    · rename_i job command continuation state found
      have mine := follows _ (List.mem_of_getElem? found)
      cases mine with
      | perform allows continues => exact holds.grows found allows
    · exact .refl _
  | handOn position =>
    unfold ingestStep Crew.step
    dsimp only
    split <;> exact .refl _

theorem OrderlyCrew.idle {contents : MemoryContents} (filed : EpisodesFiled contents) :
    OrderlyCrew unicode fallback config (Crew.idle contents) := by
  apply Crew.Sound.idle
  refine ⟨filed, fun id => ?_, fun id _ => ?_, fun id _ stored _ => ⟨?_, ?_⟩,
    fun position task found => ?_, fun id => ?_⟩
  · simp
  · simp
  · simp [attempts]
  · simp [attempts]
  · cases found
  · simp [attempts]

variable (unicode fallback config)

/-- As long as polls take up to date copies from the queue, no episode is tried more often than
once and its retries, and no stored count of retries ever decreases. -/
theorem retries_bounded {contents : MemoryContents} (filed : EpisodesFiled contents)
    {events : List IngestStep}
    (upToDate : Guarded (ingestStep unicode fallback config onlyPolls)
      CopiesUpToDate (Crew.idle contents) events) :
    Always (ingestStep unicode fallback config onlyPolls)
        (fun crew => ∀ id, attempts id crew.tasks ≤ config.maxRetries + 1) (Crew.idle contents)
        events ∧
      ∀ first second third, events = first ++ second ++ third →
        Grows
          (StateMachine.finish (ingestStep unicode fallback config onlyPolls)
            (Crew.idle contents) first).shared
          (StateMachine.finish (ingestStep unicode fallback config onlyPolls)
            (Crew.idle contents) (first ++ second)).shared := by
  have initially : OrderlyCrew unicode fallback config (Crew.idle contents) :=
    .idle filed
  have always : Always (ingestStep unicode fallback config onlyPolls)
      (OrderlyCrew unicode fallback config) (Crew.idle contents) events :=
    upToDate.always (fun _ _ orderly guarded => orderly.step guarded) initially
  refine ⟨always.mono fun crew orderly => orderly.holds.bounded, ?_⟩
  rintro first second third rfl
  obtain ⟨early, _⟩ := StateMachine.guarded_append.mp upToDate
  obtain ⟨_, middle⟩ := StateMachine.guarded_append.mp early
  have reached := StateMachine.always_iff_splits.mp always first (second ++ third) (by simp)
  rw [StateMachine.finish_append]
  let related (one two : IngestCrew) : Prop := Grows one.shared two.shared
  have reflexive (crew : IngestCrew) : related crew crew := .refl crew.shared
  have transitive (one two three : IngestCrew) (left : related one two)
      (right : related two three) : related one three := Grows.trans left right
  exact middle.related reflexive transitive (fun _ _ orderly guarded => orderly.step guarded)
    (fun _ event orderly _ => orderly.grows event) reached

end Runs

/-- Two workers poll the same episode; the first one claims it, fails and puts it back. -/
def firstRetry : List IngestStep :=
  [.begin .poll, .begin .poll, .advance 0 calmInput, .advance 0 calmInput, .advance 1 calmInput,
    .advance 1 calmInput, .advance 0 calmInput, .advance 0 calmInput, .advance 0 calmInput,
    .handOn 0, .advance 2 failingInput, .advance 2 calmInput, .advance 2 calmInput,
    .advance 2 calmInput]

/-- The second worker claims the episode with the copy from before the retry, and completes it. -/
def staleClaim : List IngestStep :=
  [.advance 1 calmInput, .advance 1 calmInput, .advance 1 calmInput, .handOn 1,
    .advance 3 calmInput, .advance 3 calmInput, .advance 3 calmInput, .advance 3 calmInput,
    .advance 3 calmInput]

/-- Letters are not changed. -/
def plainLetters : Unicode := ⟨id, Char.isAlphanum⟩

set_option maxRecDepth 10000 in
theorem retries_bounded_firstRetry :
    attempts 4 (StateMachine.finish (ingestStep plainLetters (fun _ => none) {} onlyPolls)
      (Crew.idle waitingStore) firstRetry).tasks ≤ 4 :=
  (retries_bounded plainLetters (fun _ => none) {} filed_waitingStore
    (show Guarded _ CopiesUpToDate (Crew.idle waitingStore) firstRetry by decide)).1.finish 4

set_option maxRecDepth 10000 in
/-- A worker that claims an episode with an old copy stores the old count of retries. -/
theorem stale_claim_forgets_retry :
    ¬ ∀ (unicode : Unicode) (fallback : String → Option ExtractionResult)
      (config : IngestConfig) (contents : MemoryContents) (events : List IngestStep),
      EpisodesFiled contents →
        Always (ingestStep unicode fallback config onlyPolls)
            (fun crew => ∀ id, attempts id crew.tasks ≤ config.maxRetries + 1)
            (Crew.idle contents) events ∧
          ∀ first second third, events = first ++ second ++ third →
            Grows
              (StateMachine.finish
                (ingestStep unicode fallback config onlyPolls)
                (Crew.idle contents) first).shared
              (StateMachine.finish
                (ingestStep unicode fallback config onlyPolls)
                (Crew.idle contents) (first ++ second)).shared := by
  intro claimed
  obtain ⟨_, grows⟩ := claimed plainLetters (fun _ => none) {} waitingStore
    (firstRetry ++ staleClaim) filed_waitingStore
  obtain ⟨later, found, more⟩ := grows firstRetry staleClaim [] (by simp) 4 _ rfl
  obtain rfl := Option.some.inj found
  exact absurd more (by decide)

end Retries
end Ingest
end Mnemo
