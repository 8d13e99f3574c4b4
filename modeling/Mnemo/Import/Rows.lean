import Mnemo.Core.Text
import Mnemo.Episode.Model
import Mnemo.Import.Jobs
import Mnemo.Memory.Users

/-!
# Rows of imports

An import checks the instants of its rows and writes an episode for each, in the session of the row.
The store finds users and sessions by their names, and creates those that are missing.
-/

namespace Mnemo
namespace Rows

open Episodes (CreateEpisodeRequest Episode EpisodeType Session)
open Import (ChatHistorySource ImportReport)
open Memory (MessageRole)
open Users (User)

/-! ## The store -/

/-- What an import finds and leaves. -/
structure Store where
  /-- The users by the texts that identify them. -/
  users : String → Option User
  /-- The identifiers which have been drawn. -/
  issued : List Nat
  /-- The episodes that were created since the import began. -/
  created : List Episode

/-- The commands of an import. -/
inductive RowCommand where
  | clock
  | findOrCreateUser (identifier : String)
  | findOrCreateSession (userId : Uuid) (name : String)
  | createEpisode (sessionId userId : Uuid) (req : CreateEpisodeRequest)

/-- The type of the reply to a command. -/
abbrev RowCommand.Reply : RowCommand → Type
  | .clock => DateTime
  | .findOrCreateUser _ => User
  | .findOrCreateSession _ _ => Session
  | .createEpisode _ _ _ => Episode

/-- What the environment decides when a command is performed. -/
structure RowInput where
  failure : Option MnemoError
  now : DateTime
  /-- A proposal for a fresh identifier. -/
  id : Nat
  /-- The session of a name. -/
  session : Session

/-- The user that is created for an identifier. -/
def newUser (identifier : String) (id : Uuid) (now : DateTime) : User :=
  User.fromRequest
    { id := none, externalId := some identifier, name := identifier, email := none
      metadata := .object [] } id now

/-- Perform one command. -/
def exec (command : RowCommand) (input : RowInput) (store : Store) :
    Except MnemoError command.Reply × Store :=
  match command, input.failure with
  | .clock, _ => (.ok input.now, store)
  | .findOrCreateUser _, some error | .findOrCreateSession _ _, some error
  | .createEpisode _ _ _, some error => (.error error, store)
  | .findOrCreateUser identifier, none =>
      match store.users identifier with
      | some user => (.ok user, store)
      | none =>
          let id := Database.unused store.issued input.id
          let user := newUser identifier id input.now
          (.ok user,
            { store with
              issued := id :: store.issued
              users := Function.update store.users identifier (some user) })
  | .findOrCreateSession _ _, none => (.ok input.session, store)
  | .createEpisode sessionId userId req, none =>
      let id := Database.unused store.issued input.id
      let episode := Episode.fromRequest req sessionId userId none id input.now
      (.ok episode,
        { store with issued := id :: store.issued, created := episode :: store.created })

/-- A program over the store. -/
abbrev RowProgram := Program RowCommand RowCommand.Reply MnemoError

section Commands

/-- The current time. -/
def now : RowProgram DateTime := Program.call RowCommand.clock

/-- The user whom an identifier names, who is created when there is none. -/
def findOrCreateUser (identifier : String) : RowProgram User :=
  Program.call (RowCommand.findOrCreateUser identifier)

/-- The session of a user with a name, which is created when there is none. -/
def findOrCreateSession (userId : Uuid) (name : String) : RowProgram Session :=
  Program.call (RowCommand.findOrCreateSession userId name)

def createEpisode (sessionId userId : Uuid) (req : CreateEpisodeRequest) : RowProgram Episode :=
  Program.call (RowCommand.createEpisode sessionId userId req)

end Commands

section Imports

/-- Nanoseconds of a day. -/
def day : Int := 86400000000000

/-- A trimmed text, unless it is blank. -/
def trimmed (text : Option String) : Option String :=
  (text.map Text.trim).filter fun name => !name.isEmpty

/-- A row of an imported history. -/
structure ImportMessage where
  session : Option String
  role : MessageRole
  content : String
  createdAt : DateTime

/-- Rows may be a little in the future. -/
def maxFutureDrift : Int := 5 * 60000000000

/-- Rows may be ten years old. -/
def maxAge : Int := 365 * 10 * day

variable (showTime : DateTime → String)

/-- What is wrong with the instant of a row. -/
def timestampError (now : DateTime) (index : Nat) (message : ImportMessage) : Option String :=
  if now + maxFutureDrift < message.createdAt then
    some ("row " ++ toString (index + 1) ++ ": timestamp " ++ showTime message.createdAt ++
      " is in the future (max drift: 5 minutes)")
  else if message.createdAt < now - maxAge then
    some ("row " ++ toString (index + 1) ++ ": timestamp " ++ showTime message.createdAt ++
      " is too old (max age: 10 years)")
  else none

/-- What is wrong with the instants of the rows, up to ten of them. -/
def timestampErrors (now : DateTime) : Nat → List ImportMessage → List String → List String
  | _, [], errors => errors
  | index, message :: messages, errors =>
      let errors := errors ++ (timestampError showTime now index message).toList
      if 10 ≤ errors.length then errors ++ ["...additional timestamp errors omitted"]
      else timestampErrors now (index + 1) messages errors

theorem timestampError_eq_none {showTime : DateTime → String} {instant : DateTime} {index : Nat}
    {message : ImportMessage} : timestampError showTime instant index message = none ↔
      message.createdAt ≤ instant + maxFutureDrift ∧ instant - maxAge ≤ message.createdAt := by
  unfold timestampError
  by_cases future : instant + maxFutureDrift < message.createdAt
  · rw [if_pos future]
    exact ⟨nofun, fun ⟨inTime, _⟩ => absurd future (not_lt.mpr inTime)⟩
  · rw [if_neg future]
    by_cases old : message.createdAt < instant - maxAge
    · rw [if_pos old]
      exact ⟨nofun, fun ⟨_, young⟩ => absurd old (not_lt.mpr young)⟩
    · rw [if_neg old]
      exact ⟨fun _ => ⟨not_lt.mp future, not_lt.mp old⟩, fun _ => rfl⟩

theorem timestampErrors_eq_nil {showTime : DateTime → String} {instant : DateTime} {index : Nat}
    {messages : List ImportMessage} {errors : List String} :
    timestampErrors showTime instant index messages errors = [] ↔ errors = [] ∧
      ∀ message ∈ messages,
        message.createdAt ≤ instant + maxFutureDrift ∧ instant - maxAge ≤ message.createdAt := by
  induction messages generalizing index errors with
  | nil => simp [timestampErrors]
  | cons message messages ih =>
    rw [timestampErrors, List.forall_mem_cons,
      ← @timestampError_eq_none showTime instant index message]
    split
    · rename_i many
      constructor
      · intro empty
        simp at empty
      · rintro ⟨rfl, valid, _⟩
        rw [valid] at many
        simp at many
    · rw [ih, List.append_eq_nil_iff, and_assoc]
      simp

/-- A job that imports a history. -/
structure ImportJob where
  source : ChatHistorySource
  userIdentifier : String
  messages : List ImportMessage
  defaultSession : Option String
  dryRun : Bool

/-- The session of a row. -/
def ImportJob.sessionName (job : ImportJob) (message : ImportMessage) : String :=
  (message.session.or (trimmed job.defaultSession)).getD "imported"

/-- The episode of a row. -/
def ImportJob.episode (job : ImportJob) (userName : String) (message : ImportMessage) :
    CreateEpisodeRequest :=
  { id := none
    episodeType := .message
    content := message.content
    role := some message.role
    name := some userName
    agentId := none
    metadata := .object [("import_source", .string job.source.asStr)]
    createdAt := some message.createdAt
    modality := .text }

/-- The state of an import between two rows. -/
structure ImportProgress where
  importedMessages : Nat
  failedMessages : Nat
  sessions : List (String × Session)
  errors : List String

/-- Nothing has been imported. -/
def ImportProgress.start : ImportProgress :=
  { importedMessages := 0, failedMessages := 0, sessions := [], errors := [] }

/-- A row could not be imported; twenty errors are kept. -/
def ImportProgress.failed (progress : ImportProgress) (error : String) : ImportProgress :=
  { progress with
    failedMessages := progress.failedMessages + 1
    errors := if progress.errors.length < 20 then progress.errors ++ [error] else progress.errors }

/-- The session of a name is known from now on. -/
def ImportProgress.remember (progress : ImportProgress) (name : String) (session : Session) :
    ImportProgress :=
  { progress with
    sessions := if (progress.sessions.lookup name).isSome then progress.sessions
      else (name, session) :: progress.sessions }

/-- The session of a row, which is looked up when it was not met before. -/
def importSession (user : User) (progress : ImportProgress) (name : String) :
    RowProgram (Except MnemoError Session) :=
  match progress.sessions.lookup name with
  | some session => return .ok session
  | none => (findOrCreateSession user.id name).attempt

/-- Import one row. -/
def importMessage (job : ImportJob) (user : User) (index : Nat) (message : ImportMessage)
    (progress : ImportProgress) : RowProgram ImportProgress := do
  let name := job.sessionName message
  match ← importSession user progress name with
  | .error error =>
      return progress.failed ("row " ++ toString (index + 1) ++ " session '" ++ name ++
        "' failed: " ++ error.message)
  | .ok session =>
      let progress := progress.remember name session
      match ← (createEpisode session.id user.id (job.episode user.name message)).attempt with
      | .ok _ => return { progress with importedMessages := progress.importedMessages + 1 }
      | .error error =>
          return progress.failed ("row " ++ toString (index + 1) ++ " import failed: " ++
            error.message)

/-- Import the rows one after another. -/
def importRows (job : ImportJob) (user : User) :
    Nat → List ImportMessage → ImportProgress → RowProgram ImportProgress
  | _, [], progress => return progress
  | index, message :: messages, progress => do
      let progress ← importMessage job user index message progress
      importRows job user (index + 1) messages progress

/-- The sessions that a dry run would touch. -/
def ImportJob.sessionNames (job : ImportJob) : List String :=
  let named := (job.messages.filterMap ImportMessage.session).dedup
  if named.isEmpty then [(trimmed job.defaultSession).getD "imported"] else named

/-- Check the rows of an import and write them; the errors are those that end the job. -/
def runImportJob (job : ImportJob) : RowProgram (Except (List String) ImportReport) := do
  let checkedAt ← now
  let invalid := timestampErrors showTime checkedAt 0 job.messages []
  if !invalid.isEmpty then return .error invalid
  else if job.dryRun then
    return .ok
      { importedMessages := job.messages.length
        failedMessages := 0
        sessionsTouched := job.sessionNames.length
        errors := [] }
  else
    match ← (findOrCreateUser job.userIdentifier).attempt with
    | .error error => return .error [error.message]
    | .ok user =>
        let progress ← importRows job user 0 job.messages .start
        return .ok
          { importedMessages := progress.importedMessages
            failedMessages := progress.failedMessages
            sessionsTouched := progress.sessions.length
            errors := progress.errors }

end Imports
end Rows
end Mnemo
