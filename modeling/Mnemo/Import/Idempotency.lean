import Mnemo.Import.Stages

/-!
# Idempotency keys of imports

Looking a key up and registering a job under it are two critical sections, the key is joined with the
user into one text, and a job that is refused stays registered.  As long as no two requests with one
text are between the two sections, no text stands for two pairs, and no request meets a refused job,
every pair has at most one job that runs.
-/

namespace Mnemo
namespace Import

open Program (Crew Task)
open Program.Crew (tally tally_nil tally_append tally_singleton tally_eq_zero tally_set le_tally
  add_le_tally)

/-! ## What is promised -/

/-- The job is run by one of the tasks. -/
def Runs (tasks : List ImportThread) (jobId : Uuid) : Prop :=
  ∃ task ∈ tasks, task.job.runs = some jobId

instance (tasks : List ImportThread) (jobId : Uuid) : Decidable (Runs tasks jobId) :=
  inferInstanceAs (Decidable (∃ task ∈ tasks, task.job.runs = some jobId))

/-- The answer names a job that has to be running, or to have run: it accepts the request, or the job
has failed. -/
def ImportChatHistoryResponse.Started (response : ImportChatHistoryResponse) : Prop :=
  response.code = 202 ∨ response.status = .failed

/-- What the idempotency of imports promises. -/
structure Idempotent (crew : ImportCrew) : Prop where
  /-- Two jobs that are run do not belong to one pair. -/
  once : ∀ (first second : Nat) (one two : ImportThread)
    (firstReq secondReq : ImportChatHistoryRequest),
    crew.tasks[first]? = some one → crew.tasks[second]? = some two → first ≠ second →
    (∃ jobId, one.job = .run jobId firstReq) → (∃ jobId, two.job = .run jobId secondReq) →
    firstReq.pair = secondReq.pair → firstReq.pair = none
  /-- Requests that are answered with one job have the same pair. -/
  apart : ∀ one ∈ crew.tasks, ∀ two ∈ crew.tasks,
    ∀ (firstReq secondReq : ImportChatHistoryRequest)
      (first second : ImportChatHistoryResponse),
    one.job = .answer firstReq (.ok first) → two.job = .answer secondReq (.ok second) →
    first.jobId = second.jobId → firstReq.pair = secondReq.pair
  /-- A request that is accepted starts its import, and none is answered with a job that failed
  without having been run. -/
  started : ∀ task ∈ crew.tasks, ∀ (req : ImportChatHistoryRequest)
    (response : ImportChatHistoryResponse), task.job = .answer req (.ok response) →
    response.Started → Runs crew.tasks response.jobId

/-- The task has found no job under the key, and has not yet registered its own. -/
def Registering (scopedKey : String) (task : ImportThread) : Prop :=
  task.state.req.scopedKey = some scopedKey ∧
    match task.state.stage with
    | .absent | .drawn _ | .stored _ => True
    | _ => False

instance (scopedKey : String) (task : ImportThread) : Decidable (Registering scopedKey task) := by
  unfold Registering
  cases task.state.stage <;> exact inferInstance

/-- The condition on a command. -/
def CarefulCommand (crew : ImportCrew) : ImportCommand → Prop
  | .lookupKey scopedKey => ∀ task ∈ crew.tasks, ¬ Registering scopedKey task
  | .readStatus jobId =>
      (crew.shared.importJobs jobId).map (·.status) = some .failed → Runs crew.tasks jobId
  | _ => True

/-- A request comes whose text stands for no other pair; a key is looked up while nobody is
registering it; and a registered job that has failed has been run. -/
def Careful (crew : ImportCrew) : ImportStep → Prop
  | .begin (.request req) =>
      ∀ task ∈ crew.tasks, task.job.req.scopedKey = req.scopedKey → task.job.req.pair = req.pair
  | .advance position _ =>
      ∀ task ∈ crew.tasks[position]?, ∀ command ∈ task.upcoming, CarefulCommand crew command
  | _ => True

/-! ## The invariant -/

section Invariant

variable (state : ImportState) (tasks : List ImportThread)

/-- The job is registered under the key of the request, or under none when the request has none. -/
def Owns (req : ImportChatHistoryRequest) (jobId : Uuid) : Prop :=
  match req.scopedKey with
  | some scopedKey => state.importIdempotency scopedKey = some jobId
  | none => ∀ scopedKey, state.importIdempotency scopedKey ≠ some jobId

/-- The job is registered under no key. -/
def Unregistered (jobId : Uuid) : Prop :=
  ∀ scopedKey, state.importIdempotency scopedKey ≠ some jobId

/-- What holds of a request at its stage. -/
def Consistent (req : ImportChatHistoryRequest) : ImportStage → Prop
  | .found jobId => req.scopedKey.isSome ∧ Owns state req jobId
  | .drawn jobId => Unregistered state jobId
  | .stored jobId => Unregistered state jobId ∧ (state.importJobs jobId).isSome
  | .settled jobId | .admitted jobId | .running jobId => Owns state req jobId ∧
      (state.importJobs jobId).isSome
  | .replying response => Owns state req response.jobId ∧
      (response.Started ∨ req.scopedKey = none → Runs tasks response.jobId)
  | .ready | .absent | .refused _ | .finished => True

/-- The job that a task holds. -/
def ImportStage.holds : ImportStage → Option Uuid
  | .drawn jobId | .stored jobId | .settled jobId | .admitted jobId | .running jobId => some jobId
  | _ => none

/-- A task counts while it is registering a key. -/
def registering (scopedKey : String) (task : ImportThread) : Nat :=
  if Registering scopedKey task then 1 else 0

/-- A task counts while it holds a job. -/
def holding (jobId : Uuid) (task : ImportThread) : Nat :=
  if task.state.stage.holds = some jobId then 1 else 0

/-- A key counts once a job is registered under it. -/
def registered (scopedKey : String) : Nat :=
  if (state.importIdempotency scopedKey).isSome then 1 else 0

/-- The stage of a task belongs to its job. -/
structure Fits (task : ImportThread) : Prop where
  req : task.state.req = task.job.req
  runs : ∀ jobId, task.job.runs = some jobId → task.state.stage = .running jobId
  answers : ∀ req response, task.job = .answer req (.ok response) →
    task.state.stage = .replying response

/-- Every job is held by one task, and every key is registered by one request. -/
structure Orderly : Prop where
  fits : ∀ task ∈ tasks, Fits task
  unambiguous : ∀ one ∈ tasks, ∀ two ∈ tasks, one.job.req.scopedKey = two.job.req.scopedKey →
    one.job.req.pair = two.job.req.pair
  consistent : ∀ task ∈ tasks, Consistent state tasks task.state.req task.state.stage
  kept : ∀ scopedKey jobId, state.importIdempotency scopedKey = some jobId →
    (state.importJobs jobId).isSome ∧ jobId ∈ state.issued
  injective : ∀ first second jobId, state.importIdempotency first = some jobId →
    state.importIdempotency second = some jobId → first = second
  alone : ∀ scopedKey, tally (registering scopedKey) tasks + registered state scopedKey ≤ 1
  held : ∀ jobId, tally (holding jobId) tasks ≤ 1
  drawn : ∀ jobId, jobId ∉ state.issued → tally (holding jobId) tasks = 0

end Invariant

section Consequences

variable {state : ImportState} {tasks : List ImportThread}

theorem Orderly.running {task : ImportThread} (orderly : Orderly state tasks)
    (member : task ∈ tasks) {jobId : Uuid} {req : ImportChatHistoryRequest}
    (job : task.job = .run jobId req) : Owns state req jobId ∧ holding jobId task = 1 := by
  have fits := orderly.fits task member
  have stage := fits.runs jobId (by rw [job]; rfl)
  have consistent := orderly.consistent task member
  rw [stage, fits.req, job] at consistent
  exact ⟨consistent.1, by simp [holding, stage, ImportStage.holds]⟩

theorem Orderly.answered {task : ImportThread} (orderly : Orderly state tasks)
    (member : task ∈ tasks) {req : ImportChatHistoryRequest}
    {response : ImportChatHistoryResponse} (job : task.job = .answer req (.ok response)) :
    Owns state req response.jobId ∧ (response.Started → Runs tasks response.jobId) := by
  have fits := orderly.fits task member
  have consistent := orderly.consistent task member
  rw [fits.answers req response job, fits.req, job] at consistent
  exact ⟨consistent.1, fun started => consistent.2 (.inl started)⟩

/-- Where the invariant holds, imports are idempotent. -/
theorem Orderly.idempotent (orderly : Orderly state tasks) : Idempotent ⟨state, tasks⟩ where
  once first second one two firstReq secondReq foundOne foundTwo different runsOne runsTwo same := by
    obtain ⟨firstJob, jobOne⟩ := runsOne
    obtain ⟨secondJob, jobTwo⟩ := runsTwo
    obtain ⟨ownsOne, holdsOne⟩ := orderly.running (List.mem_of_getElem? foundOne) jobOne
    obtain ⟨ownsTwo, holdsTwo⟩ := orderly.running (List.mem_of_getElem? foundTwo) jobTwo
    have keys := ImportChatHistoryRequest.scopedKey_of_pair same
    rw [firstReq.pair_eq_none_iff]
    cases keyed : firstReq.scopedKey with
    | none => rfl
    | some scopedKey =>
      rw [keyed] at keys
      simp only [Owns, keyed] at ownsOne
      simp only [Owns, ← keys] at ownsTwo
      obtain rfl := Option.some.inj (ownsOne.symm.trans ownsTwo)
      have both : holding firstJob one + holding firstJob two ≤ tally (holding firstJob) tasks :=
        add_le_tally different foundOne foundTwo
      have once := orderly.held firstJob
      omega
  apart one memberOne two memberTwo firstReq secondReq first second jobOne jobTwo same := by
    have ownsOne := (orderly.answered memberOne jobOne).1
    have ownsTwo := (orderly.answered memberTwo jobTwo).1
    have pairs := orderly.unambiguous one memberOne two memberTwo
    rw [jobOne, jobTwo] at pairs
    apply pairs
    rw [← same] at ownsTwo
    unfold Owns at ownsOne ownsTwo
    dsimp only [ImportTask.req]
    split at ownsOne
    · rename_i firstKey keyOne
      split at ownsTwo
      · rename_i secondKey keyTwo
        rw [keyOne, keyTwo, orderly.injective firstKey secondKey _ ownsOne ownsTwo]
      · exact absurd ownsOne (ownsTwo firstKey)
    · rename_i keyOne
      split at ownsTwo
      · rename_i secondKey keyTwo
        exact absurd ownsTwo (ownsOne secondKey)
      · rename_i keyTwo
        rw [keyOne, keyTwo]
  started task member req response job := (orderly.answered member job).2

end Consequences

/-! ## Steps -/

section Steps

variable {state after : ImportState} {tasks : List ImportThread} {position : Nat}
  {old new : ImportThread} {extra : List ImportThread}

theorem holding_le_one (jobId : Uuid) (task : ImportThread) : holding jobId task ≤ 1 := by
  unfold holding
  split <;> omega

theorem registering_le_one (scopedKey : String) (task : ImportThread) :
    registering scopedKey task ≤ 1 := by
  unfold registering
  split <;> omega

theorem mem_replaced {task : ImportThread} (member : task ∈ tasks.set position new ++ extra) :
    (∃ place, place ≠ position ∧ tasks[place]? = some task) ∨ task = new ∨ task ∈ extra := by
  rcases List.mem_append.mp member with replaced | added
  · obtain ⟨place, found⟩ := List.mem_iff_getElem?.mp replaced
    rcases eq_or_ne place position with rfl | different
    · obtain ⟨inside, same⟩ := List.getElem?_eq_some_iff.mp found
      rw [List.getElem_set_self] at same
      exact .inr (.inl same.symm)
    · rw [List.getElem?_set_ne (Ne.symm different)] at found
      exact .inl ⟨place, different, found⟩
  · exact .inr (.inr added)

theorem Runs.replaced {jobId : Uuid} (runs : Runs tasks jobId)
    (found : tasks[position]? = some old) (job : new.job = old.job) :
    Runs (tasks.set position new ++ extra) jobId := by
  obtain ⟨task, member, running⟩ := runs
  obtain ⟨place, foundTask⟩ := List.mem_iff_getElem?.mp member
  rcases eq_or_ne place position with rfl | different
  · obtain rfl := Option.some.inj (foundTask.symm.trans found)
    refine ⟨new, List.mem_append_left _ ?_, by rw [job]; exact running⟩
    have inside : place < tasks.length := (List.getElem?_eq_some_iff.mp found).1
    exact List.mem_set inside new
  · have kept : (tasks.set position new)[place]? = some task := by
      rw [List.getElem?_set_ne (Ne.symm different)]
      exact foundTask
    exact ⟨task, List.mem_append_left _ (List.mem_of_getElem? kept), running⟩

theorem tally_replaced (weight : ImportThread → Nat) (found : tasks[position]? = some old)
    (new : ImportThread) (extra : List ImportThread) :
    tally weight (tasks.set position new ++ extra) + weight old =
      tally weight tasks + weight new + tally weight extra := by
  have exchanged : tally weight (tasks.set position new) + weight old =
      tally weight tasks + weight new := tally_set found new
  rw [tally_append]
  omega

/-- What a step changes: one task moves on, and may hand on another one, in a memory in which nothing
has been taken back. -/
structure Moves (state after : ImportState) (tasks : List ImportThread) (old new : ImportThread)
    (extra : List ImportThread) : Prop where
  job : new.job = old.job
  fits : ∀ task, task = new ∨ task ∈ extra → Fits task
  belongs : ∀ task ∈ extra, task.job.req = old.job.req
  jobs : ∀ jobId, (state.importJobs jobId).isSome → (after.importJobs jobId).isSome
  issued : state.issued ⊆ after.issued
  held : ∀ jobId, holding jobId new + tally (holding jobId) extra ≤ holding jobId old ∨
    tally (holding jobId) tasks = 0 ∧ holding jobId new + tally (holding jobId) extra ≤ 1
  drawn : ∀ jobId, jobId ∉ after.issued → holding jobId new + tally (holding jobId) extra = 0

theorem Orderly.moves_common (orderly : Orderly state tasks)
    (found : tasks[position]? = some old) (moves : Moves state after tasks old new extra) :
    (∀ task ∈ tasks.set position new ++ extra, Fits task) ∧
    (∀ one ∈ tasks.set position new ++ extra, ∀ two ∈ tasks.set position new ++ extra,
      one.job.req.scopedKey = two.job.req.scopedKey → one.job.req.pair = two.job.req.pair) ∧
    (∀ jobId, tally (holding jobId) (tasks.set position new ++ extra) ≤ 1) ∧
    (∀ jobId, jobId ∉ after.issued →
      tally (holding jobId) (tasks.set position new ++ extra) = 0) := by
  have was : old ∈ tasks := List.mem_of_getElem? found
  have source {task : ImportThread} (member : task ∈ tasks.set position new ++ extra) :
      ∃ earlier ∈ tasks, earlier.job.req = task.job.req := by
    rcases mem_replaced member with ⟨place, _, before⟩ | rfl | added
    · exact ⟨task, List.mem_of_getElem? before, rfl⟩
    · exact ⟨old, was, by rw [moves.job]⟩
    · exact ⟨old, was, (moves.belongs task added).symm⟩
  refine ⟨fun task member => ?_, fun one memberOne two memberTwo same => ?_, fun jobId => ?_,
    fun jobId fresh => ?_⟩
  · rcases mem_replaced member with ⟨place, _, before⟩ | fresh
    · exact orderly.fits task (List.mem_of_getElem? before)
    · exact moves.fits task fresh
  · obtain ⟨first, wasOne, reqOne⟩ := source memberOne
    obtain ⟨second, wasTwo, reqTwo⟩ := source memberTwo
    rw [← reqOne, ← reqTwo] at same ⊢
    exact orderly.unambiguous first wasOne second wasTwo same
  · have sum := tally_replaced (holding jobId) found new extra
    have before := orderly.held jobId
    rcases moves.held jobId with less | ⟨none_held, one⟩
    · omega
    · omega
  · have sum := tally_replaced (holding jobId) found new extra
    have before := orderly.drawn jobId fun issued => fresh (moves.issued issued)
    have none_new := moves.drawn jobId fresh
    omega

theorem Consistent.grows {req : ImportChatHistoryRequest} {stage : ImportStage}
    {more : List ImportThread} (consistent : Consistent state tasks req stage)
    (keys : after.importIdempotency = state.importIdempotency)
    (jobs : ∀ jobId, (state.importJobs jobId).isSome → (after.importJobs jobId).isSome)
    (runs : ∀ jobId, Runs tasks jobId → Runs more jobId) : Consistent after more req stage := by
  have owns {jobId : Uuid} (owned : Owns state req jobId) : Owns after req jobId := by
    unfold Owns at owned ⊢
    rwa [keys]
  have unregistered {jobId : Uuid} (free : Unregistered state jobId) : Unregistered after jobId := by
    unfold Unregistered at free ⊢
    rwa [keys]
  cases stage with
  | found jobId => exact ⟨consistent.1, owns consistent.2⟩
  | drawn jobId => exact unregistered consistent
  | stored jobId => exact ⟨unregistered consistent.1, jobs jobId consistent.2⟩
  | settled jobId => exact ⟨owns consistent.1, jobs jobId consistent.2⟩
  | admitted jobId => exact ⟨owns consistent.1, jobs jobId consistent.2⟩
  | running jobId => exact ⟨owns consistent.1, jobs jobId consistent.2⟩
  | replying response =>
    exact ⟨owns consistent.1, fun started => runs response.jobId (consistent.2 started)⟩
  | ready => exact trivial
  | absent => exact trivial
  | refused jobId => exact trivial
  | finished => exact trivial

theorem Orderly.moves (orderly : Orderly state tasks) (found : tasks[position]? = some old)
    (moves : Moves state after tasks old new extra)
    (keys : after.importIdempotency = state.importIdempotency)
    (alone : ∀ scopedKey,
      registering scopedKey new + tally (registering scopedKey) extra ≤
        registering scopedKey old ∨
      tally (registering scopedKey) tasks + registered state scopedKey = 0 ∧
        registering scopedKey new + tally (registering scopedKey) extra ≤ 1)
    (consistent : ∀ task, task = new ∨ task ∈ extra →
      Consistent after (tasks.set position new ++ extra) task.state.req task.state.stage) :
    Orderly after (tasks.set position new ++ extra) := by
  obtain ⟨fits, unambiguous, held, drawn⟩ := orderly.moves_common found moves
  refine ⟨fits, unambiguous, fun task member => ?_, fun scopedKey jobId registered => ?_,
    fun first second jobId one two => ?_, fun scopedKey => ?_, held, drawn⟩
  · rcases mem_replaced member with ⟨place, _, before⟩ | fresh
    · have was := orderly.consistent task (List.mem_of_getElem? before)
      exact was.grows keys moves.jobs fun jobId runs => runs.replaced found moves.job
    · exact consistent task fresh
  · rw [keys] at registered
    obtain ⟨kept, issued⟩ := orderly.kept scopedKey jobId registered
    exact ⟨moves.jobs jobId kept, moves.issued issued⟩
  · rw [keys] at one two
    exact orderly.injective first second jobId one two
  · have sum := tally_replaced (registering scopedKey) found new extra
    have before := orderly.alone scopedKey
    have same : registered after scopedKey = registered state scopedKey := by
      rw [registered, registered, keys]
    rcases alone scopedKey with less | ⟨nobody, one⟩
    · omega
    · omega

theorem Orderly.alone_holds (orderly : Orderly state tasks) (found : tasks[position]? = some old)
    {jobId : Uuid} (holds : old.state.stage.holds = some jobId) {place : Nat}
    (different : place ≠ position) {task : ImportThread} (foundTask : tasks[place]? = some task) :
    task.state.stage.holds ≠ some jobId := by
  intro also
  have both : holding jobId task + holding jobId old ≤ tally (holding jobId) tasks :=
    add_le_tally different foundTask found
  have once := orderly.held jobId
  simp only [holding, holds, also, if_true] at both
  omega

theorem Orderly.not_runs (orderly : Orderly state tasks) (found : tasks[position]? = some old)
    {jobId : Uuid} (holds : old.state.stage.holds = some jobId)
    (resting : old.state.stage ≠ .running jobId) : ¬ Runs tasks jobId := by
  rintro ⟨task, member, runs⟩
  have stage := (orderly.fits task member).runs jobId runs
  obtain ⟨place, foundTask⟩ := List.mem_iff_getElem?.mp member
  rcases eq_or_ne place position with rfl | different
  · obtain rfl := Option.some.inj (foundTask.symm.trans found)
    exact resting stage
  · apply orderly.alone_holds found holds different foundTask
    rw [stage]
    rfl

/-- What is consistent stays so when a job is registered under a free key, unless it is about that
job. -/
theorem Consistent.registers {req : ImportChatHistoryRequest} {stage : ImportStage}
    {more : List ImportThread} {scopedKey : String} {jobId : Uuid}
    (consistent : Consistent state tasks req stage)
    (vacant : state.importIdempotency scopedKey = none)
    (runs : ∀ other, Runs tasks other → Runs more other) (resting : ¬ Runs tasks jobId)
    (other : stage.holds ≠ some jobId) :
    Consistent (state.register scopedKey jobId) more req stage := by
  have unregistered {id : Uuid} (free : Unregistered state id) (different : id ≠ jobId) :
      Unregistered (state.register scopedKey jobId) id := by
    intro key
    rcases eq_or_ne key scopedKey with rfl | elsewhere
    · rw [ImportState.register_self]
      exact fun same => different (Option.some.inj same).symm
    · rw [state.register_of_ne elsewhere]
      exact free key
  have owns {id : Uuid} (owned : Owns state req id)
      (different : req.scopedKey = none → id ≠ jobId) :
      Owns (state.register scopedKey jobId) req id := by
    unfold Owns at owned ⊢
    cases keyed : req.scopedKey with
    | none =>
      rw [keyed] at owned
      exact unregistered owned (different keyed)
    | some key =>
      rw [keyed] at owned
      dsimp only at owned ⊢
      rcases eq_or_ne key scopedKey with rfl | elsewhere
      · rw [vacant] at owned
        cases owned
      · rw [state.register_of_ne elsewhere]
        exact owned
  have apart {id : Uuid} (holds : stage.holds = some id) : id ≠ jobId := by
    rintro rfl
    exact other holds
  cases stage with
  | found id =>
    obtain ⟨keyed, owned⟩ := consistent
    refine ⟨keyed, owns owned fun unkeyed => ?_⟩
    rw [unkeyed] at keyed
    cases keyed
  | drawn id => exact unregistered consistent (apart rfl)
  | stored id => exact ⟨unregistered consistent.1 (apart rfl), consistent.2⟩
  | settled id => exact ⟨owns consistent.1 fun _ => apart rfl, consistent.2⟩
  | admitted id => exact ⟨owns consistent.1 fun _ => apart rfl, consistent.2⟩
  | running id => exact ⟨owns consistent.1 fun _ => apart rfl, consistent.2⟩
  | replying response =>
    refine ⟨owns consistent.1 fun unkeyed => ?_, fun started =>
      runs response.jobId (consistent.2 started)⟩
    rintro rfl
    exact resting (consistent.2 (.inr unkeyed))
  | ready => exact trivial
  | absent => exact trivial
  | refused id => exact trivial
  | finished => exact trivial

/-- Registering a job under the key of its request keeps the invariant. -/
theorem Orderly.registers (orderly : Orderly state tasks) {req : ImportChatHistoryRequest}
    {jobId : Uuid} {scopedKey : String} {job : ImportTask}
    {program later : ImportProgram (List ImportTask)}
    (found : tasks[position]? = some ⟨job, program, ⟨req, .stored jobId⟩⟩)
    (keyed : req.scopedKey = some scopedKey) :
    Orderly (state.register scopedKey jobId)
      (tasks.set position ⟨job, later, ⟨req, .settled jobId⟩⟩ ++ []) := by
  have member : (⟨job, program, ⟨req, .stored jobId⟩⟩ : ImportThread) ∈ tasks :=
    List.mem_of_getElem? found
  obtain ⟨free, kept⟩ := orderly.consistent _ member
  have fits := orderly.fits _ member
  have held : holding jobId ⟨job, program, ⟨req, .stored jobId⟩⟩ = 1 := if_pos rfl
  have active : registering scopedKey ⟨job, program, ⟨req, .stored jobId⟩⟩ = 1 :=
    if_pos ⟨keyed, trivial⟩
  have vacant : state.importIdempotency scopedKey = none := by
    have counted : registering scopedKey ⟨job, program, ⟨req, .stored jobId⟩⟩ ≤
        tally (registering scopedKey) tasks := le_tally found
    have alone := orderly.alone scopedKey
    cases registered_as : state.importIdempotency scopedKey with
    | none => rfl
    | some other =>
      simp only [registered, registered_as, Option.isSome_some, if_true] at alone
      omega
  have issued : jobId ∈ state.issued := by
    by_contra fresh
    have counted : holding jobId ⟨job, program, ⟨req, .stored jobId⟩⟩ ≤
        tally (holding jobId) tasks := le_tally found
    have none_held := orderly.drawn jobId fresh
    omega
  have moves : Moves state (state.register scopedKey jobId) tasks
      ⟨job, program, ⟨req, .stored jobId⟩⟩ ⟨job, later, ⟨req, .settled jobId⟩⟩ [] := by
    refine ⟨rfl, fun task fresh => ?_, (fun _ none => nomatch none), fun _ same => same,
      fun _ same => same, fun _ => .inl (le_refl _), fun other fresh => ?_⟩
    · rcases fresh with rfl | impossible
      · refine ⟨fits.req, fun other runs => ?_, fun request response answers => ?_⟩
        · cases fits.runs other runs
        · cases fits.answers request response answers
      · cases impossible
    · have different : jobId ≠ other := fun same => fresh (same ▸ issued)
      simp [holding, ImportStage.holds, different]
  obtain ⟨fit, unambiguous, once, drawn⟩ := orderly.moves_common found moves
  have resting : ¬ Runs tasks jobId :=
    orderly.not_runs found rfl fun impossible => ImportStage.noConfusion impossible
  refine ⟨fit, unambiguous, fun task among => ?_, fun key id registered_as => ?_,
    fun first second id one two => ?_, fun key => ?_, once, drawn⟩
  · rcases mem_replaced among with ⟨place, different, before⟩ | rfl | impossible
    · have was := orderly.consistent task (List.mem_of_getElem? before)
      exact was.registers vacant (fun other runs => runs.replaced found rfl) resting
        (orderly.alone_holds found rfl different before)
    · refine ⟨?_, kept⟩
      unfold Owns
      rw [keyed]
      exact state.register_self scopedKey jobId
    · cases impossible
  · rcases ImportState.cases_register registered_as with ⟨rfl, rfl⟩ | ⟨_, before⟩
    · exact ⟨kept, issued⟩
    · exact orderly.kept key id before
  · rcases ImportState.cases_register one with ⟨rfl, rfl⟩ | ⟨_, before⟩
    · rcases ImportState.cases_register two with ⟨rfl, _⟩ | ⟨_, also⟩
      · rfl
      · exact absurd also (free second)
    · rcases ImportState.cases_register two with ⟨rfl, rfl⟩ | ⟨_, also⟩
      · exact absurd before (free first)
      · exact orderly.injective first second id before also
  · have sum := tally_replaced (registering key) found
      (⟨job, later, ⟨req, .settled jobId⟩⟩ : ImportThread) []
    have before := orderly.alone key
    have idle : registering key ⟨job, later, ⟨req, .settled jobId⟩⟩ = 0 :=
      if_neg fun registering => registering.2
    rw [idle, Program.Crew.tally_nil] at sum
    rcases eq_or_ne key scopedKey with rfl | elsewhere
    · have now_registered : registered (state.register key jobId) key ≤ 1 := by
        unfold registered
        split <;> omega
      omega
    · have same : registered (state.register scopedKey jobId) key = registered state key := by
        rw [registered, registered, state.register_of_ne elsewhere]
      omega

theorem Fits.advances {job : ImportTask} {program later : ImportProgram (List ImportTask)}
    {req : ImportChatHistoryRequest} {stage further : ImportStage}
    (fits : Fits ⟨job, program, ⟨req, stage⟩⟩)
    (free : further = stage ∨
      (∀ jobId, stage ≠ .running jobId) ∧ ∀ response, stage ≠ .replying response) :
    Fits ⟨job, later, ⟨req, further⟩⟩ := by
  rcases free with rfl | ⟨resting, silent⟩
  · exact ⟨fits.req, fits.runs, fits.answers⟩
  · refine ⟨fits.req, fun jobId runs => ?_, fun request response answers => ?_⟩
    · exact absurd (fits.runs jobId runs) (resting jobId)
    · exact absurd (fits.answers request response answers) (silent response)

theorem Orderly.issued_of_holds (orderly : Orderly state tasks)
    (found : tasks[position]? = some old) {jobId : Uuid}
    (holds : old.state.stage.holds = some jobId) : jobId ∈ state.issued := by
  by_contra fresh
  have held : holding jobId old = 1 := if_pos holds
  have counted : holding jobId old ≤ tally (holding jobId) tasks := le_tally found
  have none_held := orderly.drawn jobId fresh
  omega

/-- A command that registers nothing and draws no identifier keeps the invariant. -/
theorem Orderly.advances (orderly : Orderly state tasks) {job : ImportTask}
    {program later : ImportProgram (List ImportTask)} {req : ImportChatHistoryRequest}
    {stage further : ImportStage}
    (found : tasks[position]? = some ⟨job, program, ⟨req, stage⟩⟩)
    (free : further = stage ∨
      (∀ jobId, stage ≠ .running jobId) ∧ ∀ response, stage ≠ .replying response)
    (keys : after.importIdempotency = state.importIdempotency)
    (jobs : ∀ jobId, (state.importJobs jobId).isSome → (after.importJobs jobId).isSome)
    (issued : after.issued = state.issued)
    (holds : further.holds = stage.holds ∨ further.holds = none)
    (alone : ∀ scopedKey,
      registering scopedKey ⟨job, later, ⟨req, further⟩⟩ ≤
        registering scopedKey ⟨job, program, ⟨req, stage⟩⟩ ∨
      tally (registering scopedKey) tasks + registered state scopedKey = 0)
    (consistent : Consistent after (tasks.set position ⟨job, later, ⟨req, further⟩⟩) req further) :
    Orderly after (tasks.set position ⟨job, later, ⟨req, further⟩⟩) := by
  have fits : Fits ⟨job, later, ⟨req, further⟩⟩ :=
    (orderly.fits _ (List.mem_of_getElem? found)).advances free
  have less (jobId : Uuid) : holding jobId ⟨job, later, ⟨req, further⟩⟩ ≤
      holding jobId ⟨job, program, ⟨req, stage⟩⟩ := by
    rcases holds with same | nothing
    · simp [holding, same]
    · simp [holding, nothing]
  have moves : Moves state after tasks ⟨job, program, ⟨req, stage⟩⟩
      ⟨job, later, ⟨req, further⟩⟩ [] := by
    refine ⟨rfl, fun task fresh => ?_, (fun _ none => nomatch none), jobs, ?_, fun jobId => ?_,
      fun jobId fresh => ?_⟩
    · rcases fresh with rfl | impossible
      · exact fits
      · cases impossible
    · rw [issued]
      exact fun _ same => same
    · exact .inl (less jobId)
    · have nothing := orderly.drawn jobId (issued ▸ fresh)
      have counted : holding jobId ⟨job, program, ⟨req, stage⟩⟩ ≤ tally (holding jobId) tasks :=
        le_tally found
      have lesser := less jobId
      rw [tally_nil]
      omega
  have moved := orderly.moves found moves keys (fun scopedKey => ?_) fun task fresh => ?_
  · rwa [List.append_nil] at moved
  · rcases alone scopedKey with lesser | nobody
    · exact .inl lesser
    · exact .inr ⟨nobody, registering_le_one scopedKey _⟩
  · rcases fresh with rfl | impossible
    · rwa [List.append_nil]
    · cases impossible

/-- A request that comes keeps the invariant when its text stands for no other pair. -/
theorem Orderly.begins (orderly : Orderly state tasks) (req : ImportChatHistoryRequest)
    (clear : ∀ task ∈ tasks, task.job.req.scopedKey = req.scopedKey → task.job.req.pair = req.pair) :
    Orderly state (tasks ++ [importOrders.task (.request req)]) := by
  have old {task : ImportThread}
      (member : task ∈ tasks ++ [importOrders.task (.request req)]) :
      task ∈ tasks ∨ task = importOrders.task (.request req) := by simpa using member
  have idle : (importOrders.task (.request req)).state.stage.holds = none := by
    change (ImportLocal.begins (.request req)).stage.holds = none
    rw [begins_request]
    cases req.scopedKey <;> rfl
  refine ⟨fun task member => ?_, fun one memberOne two memberTwo same => ?_,
    fun task member => ?_, orderly.kept, orderly.injective, fun scopedKey => ?_, fun jobId => ?_,
    fun jobId fresh => ?_⟩
  · rcases old member with before | rfl
    · exact orderly.fits task before
    · exact ⟨rfl, (fun _ runs => nomatch runs), (fun _ _ answers => nomatch answers)⟩
  · rcases old memberOne with beforeOne | rfl
    · rcases old memberTwo with beforeTwo | rfl
      · exact orderly.unambiguous one beforeOne two beforeTwo same
      · exact clear one beforeOne same
    · rcases old memberTwo with beforeTwo | rfl
      · exact (clear two beforeTwo same.symm).symm
      · rfl
  · rcases old member with before | rfl
    · refine (orderly.consistent task before).grows rfl (fun _ kept => kept) fun jobId runs => ?_
      obtain ⟨runner, among, running⟩ := runs
      exact ⟨runner, List.mem_append_left _ among, running⟩
    · change Consistent _ _ _ (ImportLocal.begins (.request req)).stage
      rw [begins_request]
      cases req.scopedKey <;> exact trivial
  · have inactive : registering scopedKey (importOrders.task (.request req)) = 0 := by
      refine if_neg ?_
      rintro ⟨keyed, active⟩
      change req.scopedKey = some scopedKey at keyed
      change match (ImportLocal.begins (.request req)).stage with
        | .absent | .drawn _ | .stored _ => True
        | _ => False at active
      rw [begins_request, keyed] at active
      exact active
    have before := orderly.alone scopedKey
    rw [tally_append, tally_singleton, inactive]
    omega
  · have none_held : holding jobId (importOrders.task (.request req)) = 0 := by
      simp [holding, idle]
    have before := orderly.held jobId
    rw [tally_append, tally_singleton, none_held]
    omega
  · have none_held : holding jobId (importOrders.task (.request req)) = 0 := by
      simp [holding, idle]
    have before := orderly.drawn jobId fresh
    rw [tally_append, tally_singleton, none_held]
    omega

/-- Handing on a task that holds no job keeps the invariant. -/
theorem Orderly.answers (orderly : Orderly state tasks) {job next : ImportTask}
    {rest : List ImportTask} {req : ImportChatHistoryRequest} {stage : ImportStage}
    (found : tasks[position]? = some ⟨job, .done (next :: rest), ⟨req, stage⟩⟩)
    (same : next.req = req)
    (fits : Fits (importOrders.task next))
    (holds : (ImportLocal.begins next).stage.holds = none)
    (inactive : ∀ scopedKey, ¬ Registering scopedKey (importOrders.task next))
    (consistent : ∀ more, (∀ jobId, Runs tasks jobId → Runs more jobId) →
      Consistent state more req (ImportLocal.begins next).stage) :
    Orderly state (tasks.set position ⟨job, .done rest, ⟨req, stage⟩⟩ ++
      [importOrders.task next]) := by
  have member := List.mem_of_getElem? found
  have mine : Fits ⟨job, .done rest, ⟨req, stage⟩⟩ := (orderly.fits _ member).advances (.inl rfl)
  have begun : (importOrders.task next).state.req = req := fits.req.trans same
  have none_held (jobId : Uuid) : holding jobId (importOrders.task next) = 0 :=
    if_neg (by rw [show (importOrders.task next).state.stage.holds = none from holds]; simp)
  have nobody (scopedKey : String) : registering scopedKey (importOrders.task next) = 0 :=
    if_neg (inactive scopedKey)
  have runs (jobId : Uuid) (running : Runs tasks jobId) :
      Runs (tasks.set position ⟨job, .done rest, ⟨req, stage⟩⟩ ++ [importOrders.task next]) jobId :=
    running.replaced found rfl
  have moves : Moves state state tasks ⟨job, .done (next :: rest), ⟨req, stage⟩⟩
      ⟨job, .done rest, ⟨req, stage⟩⟩ [importOrders.task next] := by
    refine ⟨rfl, fun task fresh => ?_, fun task added => ?_, fun _ kept => kept, fun _ kept => kept,
      fun jobId => ?_, fun jobId fresh => ?_⟩
    · rcases fresh with rfl | added
      · exact mine
      · rw [List.mem_singleton.mp added]
        exact fits
    · rw [List.mem_singleton.mp added]
      exact same.trans mine.req
    · rw [tally_singleton, none_held]
      exact .inl (le_refl _)
    · have counted : holding jobId ⟨job, .done (next :: rest), ⟨req, stage⟩⟩ ≤
          tally (holding jobId) tasks := le_tally found
      have nothing := orderly.drawn jobId fresh
      rw [tally_singleton, none_held]
      exact Nat.le_zero.mp (counted.trans_eq nothing)
  refine orderly.moves found moves rfl (fun scopedKey => ?_) fun task fresh => ?_
  · rw [tally_singleton, nobody]
    exact .inl (le_refl _)
  · rcases fresh with rfl | added
    · exact (orderly.consistent _ member).grows rfl (fun _ kept => kept) runs
    · rw [List.mem_singleton.mp added, begun]
      exact consistent _ runs

/-- A request that is admitted hands on the task that runs its job. -/
theorem Orderly.admits (orderly : Orderly state tasks) {job : ImportTask}
    {rest : List ImportTask} {req : ImportChatHistoryRequest} {jobId : Uuid}
    (found : tasks[position]? =
      some ⟨job, .done (.run jobId req :: rest), ⟨req, .admitted jobId⟩⟩) :
    Orderly state (tasks.set position
      ⟨job, .done rest, ⟨req, .replying (acceptance jobId)⟩⟩ ++
      [importOrders.task (.run jobId req)]) := by
  have member := List.mem_of_getElem? found
  obtain ⟨owns, kept⟩ := orderly.consistent _ member
  have mine : Fits ⟨job, .done rest, ⟨req, .replying (acceptance jobId)⟩⟩ :=
    (orderly.fits _ member).advances
      (.inr ⟨fun _ => ImportStage.noConfusion, fun _ => ImportStage.noConfusion⟩)
  have runner : Fits (importOrders.task (.run jobId req)) := by
    refine ⟨rfl, fun other runs => ?_, fun _ _ answers => nomatch answers⟩
    obtain rfl := Option.some.inj runs
    rfl
  have issued := orderly.issued_of_holds found rfl
  have held_old (other : Uuid) :
      holding other ⟨job, .done (.run jobId req :: rest), ⟨req, .admitted jobId⟩⟩ =
        holding other (importOrders.task (.run jobId req)) := rfl
  have held_new (other : Uuid) :
      holding other ⟨job, .done rest, ⟨req, .replying (acceptance jobId)⟩⟩ = 0 := by
    simp [holding, ImportStage.holds]
  have moves : Moves state state tasks
      ⟨job, .done (.run jobId req :: rest), ⟨req, .admitted jobId⟩⟩
      ⟨job, .done rest, ⟨req, .replying (acceptance jobId)⟩⟩
      [importOrders.task (.run jobId req)] := by
    refine ⟨rfl, fun task fresh => ?_, fun task added => ?_, fun _ same => same, fun _ same => same,
      fun other => ?_, fun other fresh => ?_⟩
    · rcases fresh with rfl | added
      · exact mine
      · rw [List.mem_singleton.mp added]
        exact runner
    · rw [List.mem_singleton.mp added]
      exact mine.req
    · rw [tally_singleton, held_new, held_old, Nat.zero_add]
      exact .inl (le_refl _)
    · have different : jobId ≠ other := fun same => fresh (same ▸ issued)
      rw [tally_singleton, held_new, Nat.zero_add]
      exact if_neg fun holds => different (Option.some.inj holds)
  have runs : Runs (tasks.set position
      ⟨job, .done rest, ⟨req, .replying (acceptance jobId)⟩⟩ ++
      [importOrders.task (.run jobId req)]) jobId :=
    ⟨_, List.mem_append_right _ (List.mem_singleton_self _), rfl⟩
  refine orderly.moves found moves rfl (fun scopedKey => ?_) fun task fresh => ?_
  · have inactive : registering scopedKey (importOrders.task (.run jobId req)) = 0 :=
      if_neg fun registering => registering.2
    have idle :
        registering scopedKey ⟨job, .done rest, ⟨req, .replying (acceptance jobId)⟩⟩ = 0 :=
      if_neg fun registering => registering.2
    rw [tally_singleton, inactive, idle]
    exact .inl (Nat.zero_le _)
  · rcases fresh with rfl | added
    · exact ⟨owns, fun _ => runs⟩
    · rw [List.mem_singleton.mp added]
      exact ⟨owns, kept⟩

theorem Orderly.handsOn (orderly : Orderly state tasks) {job next : ImportTask}
    {rest : List ImportTask} {current : ImportLocal}
    (found : tasks[position]? = some ⟨job, .done (next :: rest), current⟩)
    (ends : current.Ends (.ok (next :: rest))) :
    Orderly state (tasks.set position ⟨job, .done rest, current.handsOn⟩ ++
      [importOrders.task next]) := by
  obtain ⟨req, stage⟩ := current
  rcases ends with impossible | ⟨idle, error, same⟩ | ⟨response, rfl, same⟩ | ⟨jobId, rfl, same⟩
  · cases impossible
  · obtain ⟨rfl, rfl⟩ := List.cons.inj same
    have stays : ImportLocal.handsOn ⟨req, stage⟩ = ⟨req, stage⟩ := by
      cases stage <;> first | rfl | exact idle.elim
    rw [stays]
    exact orderly.answers found rfl
      ⟨rfl, (fun _ runs => nomatch runs), (fun _ _ answers => nomatch answers)⟩ rfl
      (fun _ registering => registering.2) fun _ _ => trivial
  · obtain ⟨rfl, rfl⟩ := List.cons.inj same
    obtain ⟨owns, runs⟩ := orderly.consistent _ (List.mem_of_getElem? found)
    refine orderly.answers found rfl ⟨rfl, (fun _ runs => nomatch runs), ?_⟩ rfl
      (fun _ registering => registering.2) fun more grows =>
        ⟨owns, fun started => grows _ (runs started)⟩
    rintro _ _ ⟨⟩
    rfl
  · obtain ⟨rfl, rfl⟩ := List.cons.inj same
    exact orderly.admits found

theorem Orderly.stays (orderly : Orderly state tasks) {job : ImportTask}
    {program later : ImportProgram (List ImportTask)} {current : ImportLocal}
    (found : tasks[position]? = some ⟨job, program, current⟩)
    (keys : after.importIdempotency = state.importIdempotency)
    (jobs : ∀ jobId, (state.importJobs jobId).isSome → (after.importJobs jobId).isSome)
    (issued : after.issued = state.issued) :
    Orderly after (tasks.set position ⟨job, later, current⟩) := by
  have runs (jobId : Uuid) (running : Runs tasks jobId) :
      Runs (tasks.set position ⟨job, later, current⟩) jobId := by
    have replaced : Runs (tasks.set position ⟨job, later, current⟩ ++ []) jobId :=
      running.replaced found rfl
    rwa [List.append_nil] at replaced
  exact orderly.advances found (.inl rfl) keys jobs issued (.inl rfl)
    (fun _ => .inl (le_refl _))
    ((orderly.consistent _ (List.mem_of_getElem? found)).grows keys jobs runs)

theorem Orderly.draws (orderly : Orderly state tasks) {job : ImportTask}
    {program later : ImportProgram (List ImportTask)} {req : ImportChatHistoryRequest}
    (found : tasks[position]? = some ⟨job, program, ⟨req, .absent⟩⟩) {jobId : Uuid}
    (fresh : jobId ∉ state.issued) :
    Orderly { state with issued := jobId :: state.issued }
      (tasks.set position ⟨job, later, ⟨req, .drawn jobId⟩⟩) := by
  have member := List.mem_of_getElem? found
  have mine : Fits ⟨job, later, ⟨req, .drawn jobId⟩⟩ :=
    (orderly.fits _ member).advances
      (.inr ⟨fun _ => ImportStage.noConfusion, fun _ => ImportStage.noConfusion⟩)
  have moves : Moves state { state with issued := jobId :: state.issued } tasks
      ⟨job, program, ⟨req, .absent⟩⟩ ⟨job, later, ⟨req, .drawn jobId⟩⟩ [] := by
    refine ⟨rfl, fun task new => ?_, (fun _ none => nomatch none), fun _ kept => kept,
      List.subset_cons_self _ _, fun other => ?_, fun other unissued => ?_⟩
    · rcases new with rfl | impossible
      · exact mine
      · cases impossible
    · rcases eq_or_ne jobId other with rfl | different
      · refine .inr ⟨orderly.drawn jobId fresh, ?_⟩
        rw [tally_nil]
        exact holding_le_one jobId _
      · refine .inl ?_
        simp [holding, ImportStage.holds, different]
    · have different : jobId ≠ other := fun same => unissued (same ▸ List.mem_cons_self)
      simp [holding, ImportStage.holds, different]
  have unregistered : Unregistered state jobId := fun scopedKey registered =>
    fresh (orderly.kept scopedKey jobId registered).2
  have moved := orderly.moves found moves rfl (fun scopedKey => ?_) fun task new => ?_
  · rwa [List.append_nil] at moved
  · have same : registering scopedKey ⟨job, later, ⟨req, .drawn jobId⟩⟩ =
        registering scopedKey ⟨job, program, ⟨req, .absent⟩⟩ := rfl
    rw [same, tally_nil]
    exact .inl (le_refl _)
  · rcases new with rfl | impossible
    · exact unregistered
    · cases impossible

/-- A key is looked up that nobody is registering. -/
theorem Orderly.looksUp (orderly : Orderly state tasks) {job : ImportTask}
    {program later : ImportProgram (List ImportTask)} {req : ImportChatHistoryRequest}
    {scopedKey : String} (found : tasks[position]? = some ⟨job, program, ⟨req, .ready⟩⟩)
    (keyed : req.scopedKey = some scopedKey)
    (alone : ∀ task ∈ tasks, ¬ Registering scopedKey task) :
    Orderly state (tasks.set position ⟨job, later,
      importProtocol.next ⟨req, .ready⟩ (.lookupKey scopedKey)
        (.ok (state.importIdempotency scopedKey))⟩) := by
  cases present : state.importIdempotency scopedKey with
  | some jobId =>
    have owns : Owns state req jobId := by
      unfold Owns
      rw [keyed]
      exact present
    have further : importProtocol.next ⟨req, .ready⟩ (.lookupKey scopedKey) (.ok (some jobId)) =
        ⟨req, .found jobId⟩ := rfl
    rw [further]
    refine orderly.advances found
      (.inr ⟨fun _ => ImportStage.noConfusion, fun _ => ImportStage.noConfusion⟩) rfl
      (fun _ kept => kept) rfl (.inr rfl) (fun other => .inl ?_) ⟨by rw [keyed]; rfl, owns⟩
    have idle : registering other ⟨job, later, ⟨req, .found jobId⟩⟩ = 0 :=
      if_neg fun registering => registering.2
    rw [idle]
    exact Nat.zero_le _
  | none =>
    have further : importProtocol.next ⟨req, .ready⟩ (.lookupKey scopedKey) (.ok none) =
        ⟨req, .absent⟩ := rfl
    rw [further]
    refine orderly.advances found
      (.inr ⟨fun _ => ImportStage.noConfusion, fun _ => ImportStage.noConfusion⟩) rfl
      (fun _ kept => kept) rfl (.inr rfl) (fun other => ?_) trivial
    rcases eq_or_ne other scopedKey with rfl | different
    · refine .inr ?_
      have nobody : tally (registering other) tasks = 0 :=
        tally_eq_zero fun task member => if_neg (alone task member)
      simp [nobody, registered, present]
    · refine .inl ?_
      have idle : registering other ⟨job, later, ⟨req, .absent⟩⟩ = 0 := by
        refine if_neg fun registering => different ?_
        exact Option.some.inj (registering.1.symm.trans keyed)
      rw [idle]
      exact Nat.zero_le _

/-- A registered job is kept, and is reported to be failed only when it has been run. -/
theorem Orderly.reads (orderly : Orderly state tasks) {job : ImportTask}
    {program later : ImportProgram (List ImportTask)} {req : ImportChatHistoryRequest}
    {jobId : Uuid} (found : tasks[position]? = some ⟨job, program, ⟨req, .found jobId⟩⟩)
    (ran : (state.importJobs jobId).map (·.status) = some .failed → Runs tasks jobId) :
    (state.importJobs jobId).map (·.status) ≠ none ∧
      Orderly state (tasks.set position ⟨job, later,
        importProtocol.next ⟨req, .found jobId⟩ (.readStatus jobId)
          (.ok ((state.importJobs jobId).map (·.status)))⟩) := by
  obtain ⟨keyed, owns⟩ := orderly.consistent _ (List.mem_of_getElem? found)
  obtain ⟨scopedKey, key⟩ := Option.isSome_iff_exists.mp keyed
  have registered : state.importIdempotency scopedKey = some jobId := by
    unfold Owns at owns
    rwa [key] at owns
  have kept := (orderly.kept scopedKey jobId registered).1
  obtain ⟨record, stored⟩ := Option.isSome_iff_exists.mp kept
  rw [stored] at ran ⊢
  refine ⟨nofun, ?_⟩
  have further : importProtocol.next ⟨req, .found jobId⟩ (.readStatus jobId)
      (.ok ((some record).map (·.status))) =
        ⟨req, .replying { code := 200, jobId, status := record.status }⟩ := rfl
  rw [further]
  refine orderly.advances found
    (.inr ⟨fun _ => ImportStage.noConfusion, fun _ => ImportStage.noConfusion⟩) rfl
    (fun _ kept => kept) rfl (.inr rfl) (fun other => .inl ?_) ⟨owns, fun started => ?_⟩
  · have idle : registering other ⟨job, later,
        ⟨req, .replying { code := 200, jobId, status := record.status }⟩⟩ = 0 :=
      if_neg fun registering => registering.2
    rw [idle]
    exact Nat.zero_le _
  · have running : Runs tasks jobId := by
      rcases started with (accepted | failed) | unkeyed
      · cases accepted
      · exact ran (congrArg some failed)
      · rw [key] at unkeyed
        cases unkeyed
    have replaced : Runs (tasks.set position ⟨job, later,
        ⟨req, .replying { code := 200, jobId, status := record.status }⟩⟩ ++ []) jobId :=
      running.replaced found rfl
    rwa [List.append_nil] at replaced

theorem Orderly.inserts (orderly : Orderly state tasks) {job : ImportTask}
    {program later : ImportProgram (List ImportTask)} {req : ImportChatHistoryRequest}
    {jobId : Uuid} (found : tasks[position]? = some ⟨job, program, ⟨req, .drawn jobId⟩⟩)
    {record : ImportJobRecord} (same : record.id = jobId) :
    Orderly
      { state with importJobs := Function.update state.importJobs record.id (some record) }
      (tasks.set position ⟨job, later,
        ⟨req, if req.scopedKey.isSome then .stored jobId else .settled jobId⟩⟩) := by
  have unregistered := orderly.consistent _ (List.mem_of_getElem? found)
  have present :
      (Function.update state.importJobs record.id (some record) jobId).isSome = true := by
    rw [same, Function.update_self]
    rfl
  have jobs (other : Uuid) (kept : (state.importJobs other).isSome) :
      (Function.update state.importJobs record.id (some record) other).isSome = true := by
    rcases eq_or_ne other record.id with rfl | different
    · rw [Function.update_self]
      rfl
    · rwa [Function.update_of_ne different]
  cases keyed : req.scopedKey with
  | none =>
    refine orderly.advances found
      (.inr ⟨fun _ => ImportStage.noConfusion, fun _ => ImportStage.noConfusion⟩) rfl
      jobs rfl (.inl rfl) (fun other => .inl ?_) ⟨?_, present⟩
    · have idle : registering other ⟨job, later, ⟨req, .settled jobId⟩⟩ = 0 :=
        if_neg fun registering => registering.2
      exact idle.trans_le (Nat.zero_le _)
    · unfold Owns
      rw [keyed]
      exact unregistered
  | some scopedKey =>
    exact orderly.advances found
      (.inr ⟨fun _ => ImportStage.noConfusion, fun _ => ImportStage.noConfusion⟩) rfl
      jobs rfl (.inl rfl) (fun other => .inl (le_refl _)) ⟨unregistered, present⟩

theorem Orderly.admitted (orderly : Orderly state tasks) {job : ImportTask}
    {program later : ImportProgram (List ImportTask)} {req : ImportChatHistoryRequest}
    {jobId : Uuid} (found : tasks[position]? = some ⟨job, program, ⟨req, .settled jobId⟩⟩)
    (permitted : Bool) (left : Nat) :
    Orderly { state with importSemaphore := left }
      (tasks.set position ⟨job, later,
        ⟨req, if permitted then .admitted jobId else .refused jobId⟩⟩) := by
  have settled := orderly.consistent _ (List.mem_of_getElem? found)
  cases permitted with
  | true =>
    exact orderly.advances found
      (.inr ⟨fun _ => ImportStage.noConfusion, fun _ => ImportStage.noConfusion⟩) rfl
      (fun _ kept => kept) rfl (.inl rfl) (fun other => .inl (le_refl _)) settled
  | false =>
    exact orderly.advances found
      (.inr ⟨fun _ => ImportStage.noConfusion, fun _ => ImportStage.noConfusion⟩) rfl
      (fun _ kept => kept) rfl (.inr rfl) (fun other => .inl (le_refl _)) trivial

/-- A command that the protocol allows keeps the invariant. -/
theorem Orderly.performs (orderly : Orderly state tasks) {job : ImportTask}
    {program later : ImportProgram (List ImportTask)} {current : ImportLocal}
    {command : ImportCommand} {input : ImportInput}
    (found : tasks[position]? = some ⟨job, program, current⟩)
    (allowed : current.Allows command) (careful : CarefulCommand ⟨state, tasks⟩ command) :
    ImportLocal.Expects command (importExec command input state).1 ∧
      Orderly (importExec command input state).2 (tasks.set position ⟨job, later,
        current.next command (importExec command input state).1⟩) := by
  obtain ⟨req, stage⟩ := current
  have updated {jobId : Uuid} (update : ImportJobRecord → ImportJobRecord) (other : Uuid)
      (kept : (state.importJobs other).isSome) :
      (Function.update state.importJobs jobId ((state.importJobs jobId).map update)
        other).isSome = true := by
    rcases eq_or_ne other jobId with rfl | different
    · rw [Function.update_self, Option.isSome_map]
      exact kept
    · rwa [Function.update_of_ne different]
  unfold ImportLocal.Allows at allowed
  dsimp only at allowed
  split at allowed
  · exact ⟨trivial, orderly.looksUp found allowed careful⟩
  · subst allowed
    exact orderly.reads found careful
  · exact ⟨trivial, orderly.draws found (Database.unused_notMem state.issued input.id)⟩
  · exact ⟨trivial, orderly.stays found rfl (fun _ kept => kept) rfl⟩
  · exact ⟨trivial, orderly.inserts found allowed⟩
  · obtain ⟨keyed, rfl⟩ := allowed
    have registered : Orderly _ (tasks.set position ⟨job, later, ⟨req, .settled _⟩⟩ ++ []) :=
      orderly.registers found keyed
    rw [List.append_nil] at registered
    exact ⟨trivial, registered⟩
  · rename_i jobId
    by_cases exhausted : state.importSemaphore = 0
    · have refused : importExec .tryAcquire input state = (.ok false, state) := if_pos exhausted
      rw [refused]
      exact ⟨trivial, orderly.admitted found false state.importSemaphore⟩
    · have permitted : importExec .tryAcquire input state =
          (.ok true, { state with importSemaphore := state.importSemaphore - 1 }) :=
        if_neg exhausted
      rw [permitted]
      exact ⟨trivial, orderly.admitted found true (state.importSemaphore - 1)⟩
  all_goals first
    | exact ⟨trivial, orderly.stays found rfl (fun _ kept => kept) rfl⟩
    | exact ⟨trivial, orderly.stays found rfl (updated _) rfl⟩
    | exact allowed.elim

end Steps

/-! ## Runs -/

/-- The invariant holds, and every task follows its protocol. -/
abbrev OrderlyCrew : ImportCrew → Prop := Crew.Sound importOrders ImportLocal.Ends Orderly

theorem orderly_idle : OrderlyCrew (Crew.idle noImports) := by
  apply Crew.Sound.idle
  refine ⟨(fun _ none => nomatch none), (fun _ none => nomatch none), (fun _ none => nomatch none),
    (fun _ _ registered => nomatch registered), (fun _ _ _ registered => nomatch registered),
    fun _ => Nat.zero_le _, fun _ => Nat.zero_le _, fun _ _ => rfl⟩

theorem OrderlyCrew.step {crew : ImportCrew} (orderly : OrderlyCrew crew) {event : ImportStep}
    (careful : Careful crew event) : OrderlyCrew (importStep crew event) := by
  refine Crew.Sound.step follows_importHandler (fun _ _ _ ends => ends_handsOn ends) ?_ ?_ ?_
    orderly careful
  · intro crew job outside clear holds
    cases job with
    | request req => exact holds.begins req clear
    | run jobId req => cases outside
    | answer req outcome => cases outside
  · intro crew position job command continuation state input found allowed careful holds
    exact holds.performs found allowed (careful _ found _ rfl)
  · intro crew position job next rest state found ends holds
    exact holds.handsOn found ends

/-- In every run whose steps are careful, imports are idempotent. -/
theorem import_idempotent (run : List ImportStep)
    (careful : StateMachine.Guarded importStep Careful (Crew.idle noImports) run) :
    StateMachine.Always importStep Idempotent (Crew.idle noImports) run := by
  have orderly : StateMachine.Always importStep OrderlyCrew (Crew.idle noImports) run :=
    careful.always (fun crew _ (orderly : OrderlyCrew crew) careful => orderly.step careful)
      orderly_idle
  exact orderly.mono fun crew sound => sound.holds.idempotent

/-- A request of a user under a key. -/
def keyedRequest (user key : String) : ImportChatHistoryRequest :=
  { user
    source := .ndjson
    payload := .null
    defaultSession := none
    dryRun := false
    idempotencyKey := some key }

/-- Nothing is imported, and no identifier has been used before. -/
def quietInput : ImportInput := { now := 0, id := 0, messages := .error [], report := .error [] }

/-- A request is served, and then repeated. -/
def repeatedImport : List ImportStep :=
  [.begin (.request (keyedRequest "a" "k")), .advance 0 quietInput, .advance 0 quietInput,
    .advance 0 quietInput, .advance 0 quietInput, .advance 0 quietInput, .advance 0 quietInput,
    .handOn 0, .handOn 0, .begin (.request (keyedRequest "a" "k")), .advance 3 quietInput,
    .advance 3 quietInput, .handOn 3]

/-- Two requests under one key, each of which looks the key up before the other registers its job. -/
def racingImports : List ImportStep :=
  [.begin (.request (keyedRequest "a" "k")), .begin (.request (keyedRequest "a" "k")),
    .advance 0 quietInput, .advance 1 quietInput, .advance 0 quietInput, .advance 0 quietInput,
    .advance 0 quietInput, .advance 0 quietInput, .advance 0 quietInput, .handOn 0,
    .advance 1 quietInput, .advance 1 quietInput, .advance 1 quietInput, .advance 1 quietInput,
    .advance 1 quietInput, .handOn 1]

/-- A user and a key, and another user and another key with the same text, one after the other. -/
def joinedImports : List ImportStep :=
  [.begin (.request (keyedRequest "a:b" "c")), .advance 0 quietInput, .advance 0 quietInput,
    .advance 0 quietInput, .advance 0 quietInput, .advance 0 quietInput, .advance 0 quietInput,
    .handOn 0, .handOn 0, .begin (.request (keyedRequest "a" "b:c")), .advance 3 quietInput,
    .advance 3 quietInput, .handOn 3]

instance (crew : ImportCrew) : (command : ImportCommand) → Decidable (CarefulCommand crew command)
  | .lookupKey scopedKey =>
      inferInstanceAs (Decidable (∀ task ∈ crew.tasks, ¬ Registering scopedKey task))
  | .readStatus jobId => inferInstanceAs (Decidable
      ((crew.shared.importJobs jobId).map (·.status) = some .failed → Runs crew.tasks jobId))
  | .newId | .now | .insertJob _ | .insertKey _ _ | .tryAcquire | .updateJob _ _
  | .readMessages _ | .writeMessages _ | .release => .isTrue trivial

instance (crew : ImportCrew) : (event : ImportStep) → Decidable (Careful crew event)
  | .begin (.request req) => inferInstanceAs (Decidable (∀ task ∈ crew.tasks,
      task.job.req.scopedKey = req.scopedKey → task.job.req.pair = req.pair))
  | .begin (.run _ _) | .begin (.answer _ _) | .handOn _ => .isTrue trivial
  | .advance position _ => inferInstanceAs (Decidable (∀ task ∈ crew.tasks[position]?,
      ∀ command ∈ task.upcoming, CarefulCommand crew command))

theorem import_idempotent_repeated :
    StateMachine.Always importStep Idempotent (Crew.idle noImports) repeatedImport :=
  import_idempotent repeatedImport
    (show StateMachine.Guarded importStep Careful (Crew.idle noImports) repeatedImport by decide)

theorem race_runs_two_jobs :
    ¬ ∀ run, StateMachine.Always importStep Idempotent (Crew.idle noImports) run := by
  intro always
  have idempotent := (always racingImports).finish
  have pairless := idempotent.once 2 3 _ _ (keyedRequest "a" "k") (keyedRequest "a" "k") rfl rfl
    (by decide) ⟨0, rfl⟩ ⟨1, rfl⟩ rfl
  exact absurd pairless (by decide)

end Import
end Mnemo
