import Mnemo.Import.Jobs

/-!
# The stages of an import request

How far the task of a request has come is what its commands make of it: it looks for a job, makes one,
registers it, and is admitted or refused.
-/

namespace Mnemo
namespace Import

open Program (Crew Protocol Task)
open Program.Protocol (Follows)

/-- How far a task has come. -/
inductive ImportStage where
  /-- The key of the request has not been looked up. -/
  | ready
  /-- A job is registered under the key. -/
  | found (jobId : Uuid)
  /-- No job was registered under the key, or there is no key. -/
  | absent
  /-- The job of the request has an identifier. -/
  | drawn (jobId : Uuid)
  /-- The job is kept, but not registered under the key of the request. -/
  | stored (jobId : Uuid)
  /-- The job is kept, and registered under the key if there is one. -/
  | settled (jobId : Uuid)
  | admitted (jobId : Uuid)
  | refused (jobId : Uuid)
  /-- The request is answered with a job. -/
  | replying (response : ImportChatHistoryResponse)
  | running (jobId : Uuid)
  | finished
  deriving DecidableEq

/-- The request of a task, and how far the task has come. -/
structure ImportLocal where
  req : ImportChatHistoryRequest
  stage : ImportStage

/-- The answer to a request which is admitted. -/
def acceptance (jobId : Uuid) : ImportChatHistoryResponse :=
  { code := 202, jobId, status := .queued }

namespace ImportLocal

/-- The same request at another stage. -/
def at_ (state : ImportLocal) (stage : ImportStage) : ImportLocal := { state with stage }

@[simp]
theorem req_at (state : ImportLocal) (stage : ImportStage) : (state.at_ stage).req = state.req :=
  rfl

@[simp]
theorem stage_at (state : ImportLocal) (stage : ImportStage) :
    (state.at_ stage).stage = stage := rfl

/-- Each critical section has its place. -/
def Allows (state : ImportLocal) (command : ImportCommand) : Prop :=
  match state.stage, command with
  | .ready, .lookupKey scopedKey => state.req.scopedKey = some scopedKey
  | .found jobId, .readStatus other => other = jobId
  | .absent, .newId => True
  | .drawn _, .now => True
  | .drawn jobId, .insertJob record => record.id = jobId
  | .stored jobId, .insertKey scopedKey other =>
      state.req.scopedKey = some scopedKey ∧ other = jobId
  | .settled _, .tryAcquire => True
  | .refused _, .now | .refused _, .updateJob _ _ => True
  | .running _, .now | .running _, .updateJob _ _ | .running _, .readMessages _
  | .running _, .writeMessages _ | .running _, .release => True
  | _, _ => False

/-- Commands do not fail, and a registered job is kept. -/
def Expects : (command : ImportCommand) → Except MnemoError command.Reply → Prop
  | _, .error _ => False
  | .readStatus _, .ok status => status ≠ none
  | _, .ok _ => True

/-- The stage after the reply to a command. -/
def next (state : ImportLocal) (command : ImportCommand)
    (reply : Except MnemoError command.Reply) : ImportLocal :=
  match state.stage, command, reply with
  | .ready, .lookupKey _, .ok (some jobId) => state.at_ (.found jobId)
  | .ready, .lookupKey _, .ok none => state.at_ .absent
  | .found jobId, .readStatus _, .ok (some status) =>
      state.at_ (.replying { code := 200, jobId, status })
  | .absent, .newId, .ok jobId => state.at_ (.drawn jobId)
  | .drawn jobId, .insertJob _, .ok _ =>
      state.at_ (if state.req.scopedKey.isSome then .stored jobId else .settled jobId)
  | .stored jobId, .insertKey _ _, .ok _ => state.at_ (.settled jobId)
  | .settled jobId, .tryAcquire, .ok true => state.at_ (.admitted jobId)
  | .settled jobId, .tryAcquire, .ok false => state.at_ (.refused jobId)
  | _, _, _ => state

/-- No job has been made for the request, or it was refused. -/
def Idle (state : ImportLocal) : Prop :=
  match state.stage with
  | .ready | .absent | .refused _ => True
  | _ => False

/-- How the programs of tasks end. -/
def Ends (state : ImportLocal) : Except MnemoError (List ImportTask) → Prop
  | .error _ => False
  | .ok tasks =>
      tasks = [] ∨
      (state.Idle ∧ ∃ error, tasks = [.answer state.req (.error error)]) ∨
      (∃ response, state.stage = .replying response ∧
        tasks = [.answer state.req (.ok response)]) ∨
      ∃ jobId, state.stage = .admitted jobId ∧
        tasks = [.run jobId state.req, .answer state.req (.ok (acceptance jobId))]

/-- The stage in which a task begins. -/
def begins : ImportTask → ImportLocal
  | .request req => { req, stage := if req.scopedKey.isSome then .ready else .absent }
  | .run jobId req => { req, stage := .running jobId }
  | .answer req (.ok response) => { req, stage := .replying response }
  | .answer req (.error _) => { req, stage := .finished }

/-- The stage of a request that has handed on its first task. -/
def handsOn (state : ImportLocal) : ImportLocal :=
  match state.stage with
  | .admitted jobId => state.at_ (.replying (acceptance jobId))
  | _ => state

end ImportLocal

/-- The protocol of the tasks. -/
def importProtocol : Protocol ImportCommand ImportCommand.Reply MnemoError ImportLocal where
  start := { req := ⟨"", .ndjson, .null, none, false, none⟩, stage := .finished }
  allowed := ImportLocal.Allows
  expected _ := ImportLocal.Expects
  next := ImportLocal.next

/-- The tasks of the server. -/
def importOrders :
    Crew.Orders ImportCommand ImportCommand.Reply MnemoError ImportTask ImportLocal where
  outside
    | .request _ => true
    | _ => false
  handler := importHandler
  protocol := importProtocol
  begins := ImportLocal.begins
  handsOn := ImportLocal.handsOn

/-- A task with its stage. -/
abbrev ImportThread := Task ImportCommand ImportCommand.Reply MnemoError ImportTask ImportLocal

/-- The memory and the tasks of the server. -/
abbrev ImportCrew :=
  Crew ImportCommand ImportCommand.Reply MnemoError ImportState ImportTask ImportLocal

/-- A step of the server. -/
abbrev ImportStep := Crew.Event ImportInput ImportTask

/-- One step of the server. -/
abbrev importStep : ImportCrew → ImportStep → ImportCrew := Crew.step importExec importOrders

/-! ## The programs follow the protocol -/

section Follows

variable (req : ImportChatHistoryRequest) (jobId : Uuid)

theorem follows_startWithPermit :
    importProtocol.Follows ImportLocal.Ends ⟨req, .settled jobId⟩ (startWithPermit req jobId) := by
  have takes : ImportLocal.Allows ⟨req, .settled jobId⟩ .tryAcquire := trivial
  refine Follows.bind_call takes (fun permitted _ => ?_) fun _ impossible => impossible.elim
  cases permitted with
  | true => exact .done (.inr (.inr (.inr ⟨jobId, rfl, rfl⟩)))
  | false =>
    have reads : ImportLocal.Allows ⟨req, .refused jobId⟩ .now := trivial
    refine Follows.bind_moving reads (fun _ => rfl) (fun now _ => ?_)
      fun _ impossible => impossible.elim
    have updates : ImportLocal.Allows ⟨req, .refused jobId⟩
        (.updateJob jobId fun job => job.refused now) := trivial
    refine Follows.bind_moving updates (fun _ => rfl) (fun _ _ => ?_)
      fun _ impossible => impossible.elim
    exact .done (.inr (.inl ⟨trivial, .validation tooManyImports, rfl⟩))

theorem follows_createJob :
    importProtocol.Follows ImportLocal.Ends ⟨req, .absent⟩ (createJob req) := by
  have draws : ImportLocal.Allows ⟨req, .absent⟩ .newId := trivial
  refine Follows.bind_call draws (fun jobId _ => ?_) fun _ impossible => impossible.elim
  have reads : ImportLocal.Allows ⟨req, .drawn jobId⟩ .now := trivial
  refine Follows.bind_moving reads (fun _ => rfl) (fun now _ => ?_)
    fun _ impossible => impossible.elim
  have inserts : ImportLocal.Allows ⟨req, .drawn jobId⟩ (.insertJob (newJob req jobId now)) := rfl
  refine Follows.bind_call inserts (fun _ _ => ?_) fun _ impossible => impossible.elim
  unfold registerKey
  have moved : importProtocol.next ⟨req, .drawn jobId⟩ (.insertJob (newJob req jobId now))
      (.ok ()) = ⟨req, if req.scopedKey.isSome then .stored jobId else .settled jobId⟩ := rfl
  rw [moved]
  cases keyed : req.scopedKey with
  | none => exact follows_startWithPermit req jobId
  | some scopedKey =>
    have registers : ImportLocal.Allows ⟨req, .stored jobId⟩ (.insertKey scopedKey jobId) :=
      ⟨keyed, rfl⟩
    exact Follows.bind_moving registers (fun _ => rfl)
      (fun _ _ => follows_startWithPermit req jobId) fun _ impossible => impossible.elim

theorem follows_importUnderKey {scopedKey : String} (keyed : req.scopedKey = some scopedKey) :
    importProtocol.Follows ImportLocal.Ends ⟨req, .ready⟩ (importUnderKey req scopedKey) := by
  have looks : ImportLocal.Allows ⟨req, .ready⟩ (.lookupKey scopedKey) := keyed
  refine Follows.bind_call looks (fun registered _ => ?_) fun _ impossible => impossible.elim
  cases registered with
  | none => exact follows_createJob req
  | some existing =>
    have reads : ImportLocal.Allows ⟨req, .found existing⟩ (.readStatus existing) := rfl
    refine Follows.bind_call reads (fun status expected => ?_) fun _ impossible => impossible.elim
    cases status with
    | none => exact absurd rfl expected
    | some status => exact .done (.inr (.inr (.inl ⟨_, rfl, rfl⟩)))

theorem bind_running {command : ImportCommand} {β : Type}
    {next : command.Reply → ImportProgram β}
    {post : ImportLocal → Except MnemoError β → Prop}
    (allows : ImportLocal.Allows ⟨req, .running jobId⟩ command)
    (stays : ∀ value, ImportLocal.next ⟨req, .running jobId⟩ command (.ok value) =
      ⟨req, .running jobId⟩)
    (rest : ∀ value, importProtocol.Follows post ⟨req, .running jobId⟩ (next value)) :
    importProtocol.Follows post ⟨req, .running jobId⟩ (Program.call command >>= next) :=
  Follows.bind_moving allows stays (fun value _ => rest value) fun error impossible => by
    cases command <;> exact impossible.elim

theorem follows_runImportJob :
    importProtocol.Follows (fun last outcome => last = ⟨req, .running jobId⟩ ∧ outcome = .ok ())
      ⟨req, .running jobId⟩ (runImportJob jobId req) := by
  have updates (update : ImportJobRecord → ImportJobRecord) :
      ImportLocal.Allows ⟨req, .running jobId⟩ (.updateJob jobId update) := trivial
  have reads : ImportLocal.Allows ⟨req, .running jobId⟩ .now := trivial
  have ends (update : DateTime → ImportJobRecord → ImportJobRecord) :
      importProtocol.Follows (fun last outcome => last = ⟨req, .running jobId⟩ ∧ outcome = .ok ())
        ⟨req, .running jobId⟩ (Memory.now >>= fun now => Memory.updateJob jobId (update now)) := by
    refine bind_running req jobId reads (fun _ => rfl) fun now => ?_
    refine Follows.perform (updates (update now)) fun reply expected => ?_
    cases reply with
    | ok value => exact .done ⟨rfl, rfl⟩
    | error error => exact expected.elim
  refine bind_running req jobId reads (fun _ => rfl) fun startedAt => ?_
  refine bind_running req jobId (updates _) (fun _ => rfl) fun _ => ?_
  have parses : ImportLocal.Allows ⟨req, .running jobId⟩ (.readMessages req) := trivial
  refine bind_running req jobId parses (fun _ => rfl) fun messages => ?_
  cases messages with
  | error errors => exact ends fun now job => job.abandoned errors now
  | ok total =>
    refine bind_running req jobId (updates _) (fun _ => rfl) fun _ => ?_
    have writes : ImportLocal.Allows ⟨req, .running jobId⟩ (.writeMessages req) := trivial
    refine bind_running req jobId writes (fun _ => rfl) fun report => ?_
    cases report with
    | error errors => exact ends fun now job => job.abandoned errors now
    | ok report => exact ends fun now job => job.reported report now

theorem begins_request :
    ImportLocal.begins (.request req) =
      ⟨req, if req.scopedKey.isSome then .ready else .absent⟩ := rfl

theorem idle_begins : (ImportLocal.begins (.request req)).Idle := by
  rw [begins_request]
  cases req.scopedKey with
  | none => exact trivial
  | some scopedKey => exact trivial

theorem follows_importChatHistory :
    importProtocol.Follows ImportLocal.Ends (ImportLocal.begins (.request req))
      (importChatHistory req) := by
  unfold importChatHistory
  by_cases blank : (Text.trim req.user).isEmpty = true
  · rw [if_pos blank]
    have ends : ImportLocal.Ends (ImportLocal.begins (.request req))
        (.ok [.answer req (.error (.validation "user is required"))]) :=
      .inr (.inl ⟨idle_begins req, _, rfl⟩)
    exact .done ends
  · rw [if_neg blank, begins_request]
    cases keyed : req.scopedKey with
    | none => exact follows_createJob req
    | some scopedKey => exact follows_importUnderKey req keyed

theorem follows_importHandler (task : ImportTask) :
    importProtocol.Follows ImportLocal.Ends (ImportLocal.begins task) (importHandler task) := by
  cases task with
  | request req => exact follows_importChatHistory req
  | run jobId req =>
    refine Follows.bind (follows_runImportJob req jobId) ?_ ?_
    · rintro _ _ ⟨rfl, _⟩
      have releases : ImportLocal.Allows ⟨req, .running jobId⟩ .release := trivial
      exact bind_running req jobId releases (fun _ => rfl) fun _ => .done (.inl rfl)
    · rintro _ _ ⟨_, impossible⟩
      cases impossible
  | answer req outcome => exact .done (.inl rfl)

theorem ends_handsOn {state : ImportLocal} {next : ImportTask} {rest : List ImportTask}
    (ends : state.Ends (.ok (next :: rest))) : state.handsOn.Ends (.ok rest) := by
  rcases ends with impossible | ⟨_, error, same⟩ | ⟨response, _, same⟩ | ⟨jobId, admitted, same⟩
  · cases impossible
  · obtain ⟨rfl, rfl⟩ := List.cons.inj same
    exact .inl rfl
  · obtain ⟨rfl, rfl⟩ := List.cons.inj same
    exact .inl rfl
  · obtain ⟨rfl, rfl⟩ := List.cons.inj same
    refine .inr (.inr (.inl ⟨acceptance jobId, ?_, ?_⟩)) <;>
      simp [ImportLocal.handsOn, admitted]

end Follows

end Import
end Mnemo
