import Mnemo.Core.Basic
import Mnemo.Core.Json
import Mnemo.Core.Text
import Mnemo.Lib.Crew
import Mnemo.Lib.Database

/-!
# Import jobs

A request to import a chat history registers a job under its idempotency key, asks for a permit and
starts a task that imports the messages.  The jobs, the keys and the permits are kept in memory, each
behind a lock of its own; between two critical sections every other request may move.
-/

namespace Mnemo
namespace Import

open Program

/-- The progress of a job. -/
inductive ImportJobStatus where
  | queued
  | running
  | completed
  | failed
  deriving DecidableEq, Repr

/-- A job as it is kept in memory. -/
structure ImportJobRecord where
  id : Uuid
  source : String
  user : String
  dryRun : Bool
  status : ImportJobStatus
  totalMessages : Nat
  importedMessages : Nat
  failedMessages : Nat
  sessionsTouched : Nat
  errors : List String
  createdAt : DateTime
  startedAt : Option DateTime
  finishedAt : Option DateTime

/-- The formats of chat histories. -/
inductive ChatHistorySource where
  | ndjson
  | chatgptExport
  | geminiExport
  deriving DecidableEq, Repr

def ChatHistorySource.asStr : ChatHistorySource → String
  | .ndjson => "ndjson"
  | .chatgptExport => "chatgpt_export"
  | .geminiExport => "gemini_export"

/-- Body of a request to import a chat history. -/
structure ImportChatHistoryRequest where
  user : String
  source : ChatHistorySource
  payload : Json
  defaultSession : Option String
  dryRun : Bool
  idempotencyKey : Option String

namespace ImportChatHistoryRequest

/-- The idempotency key without white space around it, unless it is blank. -/
def key (req : ImportChatHistoryRequest) : Option String :=
  (req.idempotencyKey.map Text.trim).filter fun key => !key.isEmpty

/-- The user and the idempotency key. -/
def pair (req : ImportChatHistoryRequest) : Option (String × String) :=
  req.key.map fun key => (Text.trim req.user, key)

/-- The text under which the job of the request is registered. -/
def scopedKey (req : ImportChatHistoryRequest) : Option String :=
  req.key.map fun key => Text.trim req.user ++ ":" ++ key

theorem scopedKey_of_pair {first second : ImportChatHistoryRequest}
    (same : first.pair = second.pair) : first.scopedKey = second.scopedKey := by
  unfold pair at same
  unfold scopedKey
  cases one : first.key with
  | none =>
    cases two : second.key with
    | none => rfl
    | some other => simp [one, two] at same
  | some key =>
    cases two : second.key with
    | none => simp [one, two] at same
    | some other =>
      simp only [one, two, Option.map_some, Option.some.injEq, Prod.mk.injEq] at same
      simp [same.1, same.2]

theorem pair_eq_none_iff (req : ImportChatHistoryRequest) :
    req.pair = none ↔ req.scopedKey = none := by
  simp [pair, scopedKey]

end ImportChatHistoryRequest

/-- What the server answers, with the status code of the answer. -/
structure ImportChatHistoryResponse where
  code : Nat
  jobId : Uuid
  status : ImportJobStatus
  deriving DecidableEq, Repr

/-- What the server has to do. -/
inductive ImportTask where
  /-- Serve a request. -/
  | request (req : ImportChatHistoryRequest)
  /-- Import the messages of a request. -/
  | run (jobId : Uuid) (req : ImportChatHistoryRequest)
  /-- Answer a request. -/
  | answer (req : ImportChatHistoryRequest)
      (outcome : Except MnemoError ImportChatHistoryResponse)

/-- The request to which a task belongs. -/
def ImportTask.req : ImportTask → ImportChatHistoryRequest
  | .request req | .run _ req | .answer req _ => req

/-- The job that a task runs. -/
def ImportTask.runs : ImportTask → Option Uuid
  | .run jobId _ => some jobId
  | _ => none

/-! ## The memory of the server -/

/-- What is kept in memory of imports. -/
structure ImportState where
  importJobs : Uuid → Option ImportJobRecord
  importIdempotency : String → Option Uuid
  /-- The permits that are left. -/
  importSemaphore : Nat
  issued : List Uuid

/-- How many imports may run at once. -/
def maxConcurrentImports : Nat := 10

/-- The memory of a server that has just been started. -/
def noImports : ImportState :=
  { importJobs := fun _ => none
    importIdempotency := fun _ => none
    importSemaphore := maxConcurrentImports
    issued := [] }

/-- What an import that ends reports. -/
structure ImportReport where
  importedMessages : Nat
  failedMessages : Nat
  sessionsTouched : Nat
  errors : List String

/-- The critical sections, and what is asked of the outside. -/
inductive ImportCommand where
  | lookupKey (scopedKey : String)
  | readStatus (jobId : Uuid)
  | newId
  | now
  | insertJob (record : ImportJobRecord)
  | insertKey (scopedKey : String) (jobId : Uuid)
  | tryAcquire
  | updateJob (jobId : Uuid) (update : ImportJobRecord → ImportJobRecord)
  /-- Parse the payload. -/
  | readMessages (req : ImportChatHistoryRequest)
  /-- Check the time stamps of the messages, and write them to the store or only count them. -/
  | writeMessages (req : ImportChatHistoryRequest)
  | release

/-- The type of the reply to a command. -/
abbrev ImportCommand.Reply : ImportCommand → Type
  | .lookupKey _ => Option Uuid
  | .readStatus _ => Option ImportJobStatus
  | .newId => Uuid
  | .now => DateTime
  | .insertJob _ | .insertKey _ _ | .updateJob _ _ | .release => Unit
  | .tryAcquire => Bool
  | .readMessages _ => Except (List String) Nat
  | .writeMessages _ => Except (List String) ImportReport

/-- What the environment decides at a command. -/
structure ImportInput where
  /-- The reading of the clock. -/
  now : DateTime
  /-- A proposal for a fresh identifier. -/
  id : Nat
  messages : Except (List String) Nat
  report : Except (List String) ImportReport

/-- Register a job under a text. -/
def ImportState.register (state : ImportState) (scopedKey : String) (jobId : Uuid) : ImportState :=
  { state with
    importIdempotency := Function.update state.importIdempotency scopedKey (some jobId) }

@[simp]
theorem ImportState.register_self (state : ImportState) (scopedKey : String) (jobId : Uuid) :
    (state.register scopedKey jobId).importIdempotency scopedKey = some jobId :=
  Function.update_self ..

theorem ImportState.register_of_ne (state : ImportState) {scopedKey other : String}
    (different : other ≠ scopedKey) (jobId : Uuid) :
    (state.register scopedKey jobId).importIdempotency other = state.importIdempotency other :=
  Function.update_of_ne different ..

theorem ImportState.cases_register {state : ImportState} {scopedKey other : String}
    {jobId found : Uuid}
    (registered : (state.register scopedKey jobId).importIdempotency other = some found) :
    other = scopedKey ∧ found = jobId ∨
      other ≠ scopedKey ∧ state.importIdempotency other = some found := by
  rcases eq_or_ne other scopedKey with rfl | different
  · rw [register_self] at registered
    exact .inl ⟨rfl, (Option.some.inj registered).symm⟩
  · rw [register_of_ne state different] at registered
    exact .inr ⟨different, registered⟩

/-- Perform one command. -/
def importExec (command : ImportCommand) (input : ImportInput) (state : ImportState) :
    Except MnemoError command.Reply × ImportState :=
  match command with
  | .lookupKey scopedKey => (.ok (state.importIdempotency scopedKey), state)
  | .readStatus jobId => (.ok ((state.importJobs jobId).map (·.status)), state)
  | .newId =>
      let id := Database.unused state.issued input.id
      (.ok id, { state with issued := id :: state.issued })
  | .now => (.ok input.now, state)
  | .insertJob record =>
      (.ok (), { state with
        importJobs := Function.update state.importJobs record.id (some record) })
  | .insertKey scopedKey jobId => (.ok (), state.register scopedKey jobId)
  | .tryAcquire =>
      if state.importSemaphore = 0 then (.ok false, state)
      else (.ok true, { state with importSemaphore := state.importSemaphore - 1 })
  | .updateJob jobId update =>
      (.ok (), { state with
        importJobs := Function.update state.importJobs jobId
          ((state.importJobs jobId).map update) })
  | .readMessages _ => (.ok input.messages, state)
  | .writeMessages _ => (.ok input.report, state)
  | .release => (.ok (), { state with importSemaphore := state.importSemaphore + 1 })

/-- A program over the memory of imports. -/
abbrev ImportProgram := Program ImportCommand ImportCommand.Reply MnemoError

namespace Memory

def lookupKey (scopedKey : String) : ImportProgram (Option Uuid) :=
  Program.call (ImportCommand.lookupKey scopedKey)

def readStatus (jobId : Uuid) : ImportProgram (Option ImportJobStatus) :=
  Program.call (ImportCommand.readStatus jobId)

/-- A new identifier. -/
def newId : ImportProgram Uuid := Program.call ImportCommand.newId

/-- The current time. -/
def now : ImportProgram DateTime := Program.call ImportCommand.now

def insertJob (record : ImportJobRecord) : ImportProgram Unit :=
  Program.call (ImportCommand.insertJob record)

def insertKey (scopedKey : String) (jobId : Uuid) : ImportProgram Unit :=
  Program.call (ImportCommand.insertKey scopedKey jobId)

/-- Take a permit, if there is one. -/
def tryAcquire : ImportProgram Bool := Program.call ImportCommand.tryAcquire

/-- Change a job, if it is kept. -/
def updateJob (jobId : Uuid) (update : ImportJobRecord → ImportJobRecord) : ImportProgram Unit :=
  Program.call (ImportCommand.updateJob jobId update)

def readMessages (req : ImportChatHistoryRequest) : ImportProgram (Except (List String) Nat) :=
  Program.call (ImportCommand.readMessages req)

def writeMessages (req : ImportChatHistoryRequest) :
    ImportProgram (Except (List String) ImportReport) :=
  Program.call (ImportCommand.writeMessages req)

/-- Give the permit back. -/
def release : ImportProgram Unit := Program.call ImportCommand.release

end Memory

/-! ## Requests -/

/-- The message to a request that finds no permit. -/
def tooManyImports : String := "Too many concurrent import jobs. Please try again later."

/-- The record of a new job. -/
def newJob (req : ImportChatHistoryRequest) (jobId : Uuid) (now : DateTime) : ImportJobRecord :=
  { id := jobId
    source := req.source.asStr
    user := Text.trim req.user
    dryRun := req.dryRun
    status := .queued
    totalMessages := 0
    importedMessages := 0
    failedMessages := 0
    sessionsTouched := 0
    errors := []
    createdAt := now
    startedAt := none
    finishedAt := none }

/-- A job that found no permit. -/
def ImportJobRecord.refused (job : ImportJobRecord) (now : DateTime) : ImportJobRecord :=
  { job with status := .failed, errors := [tooManyImports], finishedAt := some now }

/-- Register the job under the key of the request, unless it has none. -/
def registerKey (req : ImportChatHistoryRequest) (jobId : Uuid) : ImportProgram Unit :=
  match req.scopedKey with
  | some scopedKey => Memory.insertKey scopedKey jobId
  | none => .done ()

/-- Start the import if there is a permit, and record the refusal otherwise. -/
def startWithPermit (req : ImportChatHistoryRequest) (jobId : Uuid) : ImportProgram (List ImportTask) := do
  if ← Memory.tryAcquire then
    return [.run jobId req, .answer req (.ok { code := 202, jobId, status := .queued })]
  else
    let now ← Memory.now
    Memory.updateJob jobId fun job => job.refused now
    return [.answer req (.error (.validation tooManyImports))]

/-- Make a job for the request. -/
def createJob (req : ImportChatHistoryRequest) : ImportProgram (List ImportTask) := do
  let jobId ← Memory.newId
  let now ← Memory.now
  Memory.insertJob (newJob req jobId now)
  registerKey req jobId
  startWithPermit req jobId

/-- Answer with the job that is registered under the key, if there is one, or else make a job. -/
def importUnderKey (req : ImportChatHistoryRequest) (scopedKey : String) :
    ImportProgram (List ImportTask) := do
  match ← Memory.lookupKey scopedKey with
  | some existingJobId =>
      match ← Memory.readStatus existingJobId with
      | some status => return [.answer req (.ok { code := 200, jobId := existingJobId, status })]
      | none => createJob req
  | none => createJob req

/-- Serve a request; what is left to do is to run the job and to answer. -/
def importChatHistory (req : ImportChatHistoryRequest) : ImportProgram (List ImportTask) :=
  if (Text.trim req.user).isEmpty then
    .done [.answer req (.error (.validation "user is required"))]
  else
    match req.scopedKey with
    | some scopedKey => importUnderKey req scopedKey
    | none => createJob req

/-! ## Jobs -/

/-- A job that is being run. -/
def ImportJobRecord.started (job : ImportJobRecord) (now : DateTime) : ImportJobRecord :=
  { job with status := .running, startedAt := some now }

/-- A job that ended with errors. -/
def ImportJobRecord.abandoned (job : ImportJobRecord) (errors : List String) (now : DateTime) :
    ImportJobRecord :=
  { job with status := .failed, finishedAt := some now, errors }

/-- A job that wrote its messages. -/
def ImportJobRecord.reported (job : ImportJobRecord) (report : ImportReport) (now : DateTime) :
    ImportJobRecord :=
  { job with
    status := if 0 < report.failedMessages then .failed else .completed
    importedMessages := report.importedMessages
    failedMessages := report.failedMessages
    sessionsTouched := report.sessionsTouched
    errors := report.errors
    finishedAt := some now }

/-- Import the messages and note how that went. -/
def runImportJob (jobId : Uuid) (req : ImportChatHistoryRequest) : ImportProgram Unit := do
  let startedAt ← Memory.now
  Memory.updateJob jobId fun job => job.started startedAt
  match ← Memory.readMessages req with
  | .error errors =>
      let now ← Memory.now
      Memory.updateJob jobId fun job => job.abandoned errors now
  | .ok total =>
      Memory.updateJob jobId fun job => { job with totalMessages := total }
      match ← Memory.writeMessages req with
      | .error errors =>
          let now ← Memory.now
          Memory.updateJob jobId fun job => job.abandoned errors now
      | .ok report =>
          let now ← Memory.now
          Memory.updateJob jobId fun job => job.reported report now

/-- The program of a task; a job holds its permit until it ends. -/
def importHandler : ImportTask → ImportProgram (List ImportTask)
  | .request req => importChatHistory req
  | .run jobId req => do
      runImportJob jobId req
      Memory.release
      return []
  | .answer _ _ => .done []

end Import
end Mnemo
