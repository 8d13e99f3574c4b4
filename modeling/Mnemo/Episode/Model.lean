import Mathlib.Data.List.Lex
import Mnemo.Core.Json
import Mnemo.Lib.FaultPlan
import Mnemo.Memory.Model

/-!
# Creating episodes

Creating an episode stores it, enters it into the index of its session and into the queue of the
workers, and then counts it in the session, which has to exist.  A batch creates one after another.
-/

namespace Mnemo
namespace Episodes

open Memory (MessageRole)

/-- What kind of data an episode has. -/
inductive EpisodeType where
  | message
  | json
  | text
  deriving DecidableEq, Repr

/-- The primary modality of the content of an episode. -/
inductive Modality where
  | text
  | image
  | audio
  | video
  | document
  deriving DecidableEq, Repr

/-- A request to create an episode. -/
structure CreateEpisodeRequest where
  id : Option Uuid
  episodeType : EpisodeType
  content : String
  role : Option MessageRole
  name : Option String
  agentId : Option String
  metadata : Json
  createdAt : Option DateTime
  modality : Modality

/-- An episode as it is stored. -/
structure Episode extends Memory.Episode where
  episodeType : EpisodeType
  name : Option String
  metadata : Json
  /-- When the episode was received. -/
  ingestedAt : DateTime
  modality : Modality
  attachmentIds : List Uuid
  parentDocumentId : Option Uuid
  documentLocation : Option String

/-- A session as it is stored. -/
structure Session extends Memory.Session where
  name : Option String
  metadata : Json
  /-- The latest episode. -/
  headEpisodeId : Option Uuid
  headUpdatedAt : Option DateTime
  headVersion : Nat

namespace Episode

/-- A new episode. -/
def fromRequest (req : CreateEpisodeRequest) (sessionId userId : Uuid) (agentId : Option String)
    (id : Uuid) (now : DateTime) : Episode where
  id := id
  sessionId := sessionId
  userId := userId
  agentId := req.agentId.or agentId
  content := req.content
  role := req.role
  createdAt := req.createdAt.getD now
  processingStatus := .pending
  processingError := none
  entityIds := []
  edgeIds := []
  retryCount := 0
  episodeType := req.episodeType
  name := req.name
  metadata := req.metadata
  ingestedAt := now
  modality := req.modality
  attachmentIds := []
  parentDocumentId := none
  documentLocation := none

/-- Whether entities are to be extracted from the episode. -/
def shouldProcess (episode : Episode) : Bool :=
  if (Text.trim episode.content).isEmpty then false
  else if episode.role = some .system then false
  else true

/-- The request under which the episode can be traced, if its metadata name one. -/
def requestId (episode : Episode) : Option String :=
  match episode.metadata with
  | .object fields =>
      match fields.lookup "request_id" with
      | some (.string text) =>
          if (Text.trim text).isEmpty then none else some (Text.trim text)
      | _ => none
  | _ => none

end Episode

/-- Count an episode, which becomes the head of the session. -/
def Session.recordEpisode (session : Session) (episodeId : Uuid) (eventTime : DateTime)
    (lastActivityAt updatedAt : DateTime) : Session :=
  { session with
    episodeCount := session.episodeCount + 1
    lastActivityAt := some lastActivityAt
    headEpisodeId := some episodeId
    headUpdatedAt := some eventTime
    headVersion := session.headVersion + 1
    updatedAt := updatedAt }

/-! ## The database -/

/-- The documents. -/
inductive EpisodeKey where
  | episode (id : Uuid)
  | session (id : Uuid)
  deriving DecidableEq, Repr

/-- What is stored under a key. -/
def EpisodeDoc : EpisodeKey → Type
  | .episode _ => Episode
  | .session _ => Session

/-- The sorted sets. -/
inductive EpisodeIndex where
  | sessionEpisodes (sessionId : Uuid)
  /-- The episodes that wait for a worker. -/
  | pendingEpisodes
  | ridEpisodes (requestId : String)
  | agentEpisodes (agentId : String)
  deriving DecidableEq, Repr

/-- A member: an identifier, or those of an episode, its user and its session. -/
abbrev EpisodeMember : Type := List Uuid

/-- A command on the database of episodes. -/
abbrev EpisodeCommand := Database.Command EpisodeKey EpisodeDoc EpisodeIndex EpisodeMember Empty

/-- The contents of the database of episodes. -/
abbrev EpisodeContents := Database.Contents EpisodeKey EpisodeDoc EpisodeIndex EpisodeMember

/-- What the environment decides at a command. -/
abbrev EpisodeInput := Database.Input (fun _ : Empty => Empty) MnemoError

/-- A program over the database of episodes. -/
abbrev EpisodeProgram :=
  Program EpisodeCommand (·.Reply fun _ : Empty => Empty) MnemoError

namespace Redis

def get (key : EpisodeKey) : EpisodeProgram (Option (EpisodeDoc key)) :=
  Program.call (Database.Command.get key : EpisodeCommand)

def set (key : EpisodeKey) (doc : EpisodeDoc key) : EpisodeProgram Unit :=
  Program.call (Database.Command.set key doc : EpisodeCommand)

def zadd (index : EpisodeIndex) (member : EpisodeMember) (score : Int) : EpisodeProgram Unit :=
  Program.call (Database.Command.zadd index member score : EpisodeCommand)

/-- The current time. -/
def now : EpisodeProgram DateTime := Program.call (Database.Command.clock : EpisodeCommand)

/-- A new identifier. -/
def newId : EpisodeProgram Uuid := Program.call (Database.Command.freshId : EpisodeCommand)

end Redis

/-! ## Calls -/

/-- The session under an identifier. -/
def getSession (id : Uuid) : EpisodeProgram Session := do
  match ← Redis.get (.session id) with
  | some session => return session
  | none => .fail (.sessionNotFound id)

/-- Store an episode, in the index of its session and, if it is to be processed, in the queue. -/
def fileEpisode (episode : Episode) : EpisodeProgram Unit := do
  Redis.set (.episode episode.id) episode
  Redis.zadd (.sessionEpisodes episode.sessionId) [episode.id] (timestampMillis episode.createdAt)
  if episode.shouldProcess then
    Redis.zadd .pendingEpisodes [episode.id] (timestampMillis episode.ingestedAt)

/-- Count an episode in its session. -/
def countEpisode (episode : Episode) : EpisodeProgram Unit := do
  let session ← getSession episode.sessionId
  let lastActivityAt ← Redis.now
  let updatedAt ← Redis.now
  Redis.set (.session episode.sessionId)
    (session.recordEpisode episode.id episode.createdAt lastActivityAt updatedAt)

/-- Enter something into an index, if the index is known. -/
def enter {α : Type} (choice : Option α) (index : α → EpisodeIndex) (member : EpisodeMember)
    (score : Int) : EpisodeProgram Unit :=
  match choice with
  | some value => Redis.zadd (index value) member score
  | none => pure ()

/-- Enter an episode into the index of its request and into that of its agent. -/
def traceEpisode (episode : Episode) : EpisodeProgram Unit := do
  enter episode.requestId .ridEpisodes [episode.id, episode.userId, episode.sessionId]
    (timestampMillis episode.createdAt)
  enter episode.agentId .agentEpisodes [episode.id] (timestampMillis episode.createdAt)

/-- Store an episode, count it and make it traceable. -/
def storeEpisode (episode : Episode) : EpisodeProgram Episode := do
  fileEpisode episode
  countEpisode episode
  traceEpisode episode
  return episode

/-- The identifier that is asked for, or a new one. -/
def chooseId (req : CreateEpisodeRequest) : EpisodeProgram Uuid :=
  match req.id with
  | some id => pure id
  | none => Redis.newId

/-- Create one episode. -/
def createEpisode (sessionId userId : Uuid) (agentId : Option String)
    (req : CreateEpisodeRequest) : EpisodeProgram Episode := do
  let now ← Redis.now
  let id ← chooseId req
  storeEpisode (Episode.fromRequest req sessionId userId agentId id now)

/-- Create episodes one after another. -/
def createEpisodesBatch (sessionId userId : Uuid) (agentId : Option String) :
    List CreateEpisodeRequest → EpisodeProgram (List Episode)
  | [] => return []
  | req :: requests => do
      let episode ← createEpisode sessionId userId agentId req
      let episodes ← createEpisodesBatch sessionId userId agentId requests
      return episode :: episodes

end Episodes
end Mnemo
