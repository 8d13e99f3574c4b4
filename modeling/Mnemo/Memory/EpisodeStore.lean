import Mnemo.Memory.GraphStore

/-!
# The store operations on sessions and on the queue of episodes

An episode waits in the pending queue until a worker claims it.  The queue is a sorted set of
identifiers; the episodes themselves are documents.
-/

namespace Mnemo
namespace Memory

/-! ## Sessions -/

def getSession (id : Uuid) : MemoryProgram Session :=
  Redis.getRequired (.session id) (.sessionNotFound id)

/-- Replace the summary of a stored session. -/
def updateSession (id : Uuid) (summary : String) (tokens : Nat) : MemoryProgram Session := do
  let session ← getSession id
  let now ← Redis.now
  let updated := session.withSummary summary tokens now
  Redis.set (.session id) updated
  return updated

/-- The session under an identifier, if there is one. -/
def readSession (id : Uuid) : MemoryProgram (Option Session) := Redis.get (.session id)

/-- Parameters of a listing of sessions. -/
structure ListSessionsParams where
  limit : Nat
  after : Option Uuid
  since : Option DateTime

/-- A page of the sessions of a user; the beginning of the window is not looked at. -/
def listSessions (userId : Uuid) (params : ListSessionsParams) : MemoryProgram (List Session) :=
  listFromZset (.userSessions userId) readSession params.limit params.after

/-! ## Episodes -/

/-- The episode under an identifier, if there is one. -/
def readEpisode (id : Uuid) : MemoryProgram (Option Episode) := Redis.get (.episode id)

def getEpisode (id : Uuid) : MemoryProgram Episode :=
  Redis.getRequired (.episode id) (.episodeNotFound id)

/-- A page of the episodes of a session; a requested status is not looked at. -/
def listEpisodes (sessionId : Uuid) (limit : Nat) (after : Option Uuid) :
    MemoryProgram (List Episode) :=
  listFromZset (.sessionEpisodes sessionId) readEpisode limit after

/-- Parameters of a listing of episodes. -/
structure ListEpisodesParams where
  limit : Nat
  after : Option Uuid
  status : Option ProcessingStatus

/-- A page of the episodes of a session, as it is asked for through the interface of the store. -/
def listEpisodesWith (sessionId : Uuid) (params : ListEpisodesParams) :
    MemoryProgram (List Episode) :=
  listEpisodes sessionId params.limit params.after

/-- The pending ones among the episodes under identifiers; those that cannot be read are left
out. -/
def readPending : List Uuid → MemoryProgram (List Episode)
  | [] => return []
  | id :: ids => do
      match ← (getEpisode id).attempt with
      | .ok episode => do
          let episodes ← readPending ids
          return if episode.processingStatus = .pending then episode :: episodes else episodes
      | .error _ => readPending ids

/-- The episodes at the front of the pending queue. -/
def getPendingEpisodes (limit : Nat) : MemoryProgram (List Episode) := do
  let ids ← Redis.zrange .pendingEpisodes 0 ((limit : Int) - 1)
  readPending ids

/-- Take an episode out of the pending queue; tells whether it was there. -/
def claimEpisode (id : Uuid) : MemoryProgram Bool := do
  let removed ← Redis.zremCount .pendingEpisodes id
  if 0 < removed then
    let episode ← getEpisode id
    updateEpisode episode.markProcessing
    return true
  else
    return false

/-- Put an episode back into the pending queue, after a delay in milliseconds. -/
def requeueEpisode (id : Uuid) (delay : Nat) : MemoryProgram Unit := do
  let now ← Redis.now
  Redis.zadd .pendingEpisodes id ((timestampMillis now + delay).bmod (2 ^ 64))

/-- Delete an episode, and take it out of its session and of the pending queue. -/
def deleteEpisode (id : Uuid) : MemoryProgram Unit := do
  let episode ← getEpisode id
  Redis.zrem (.sessionEpisodes episode.sessionId) id
  Redis.zrem .pendingEpisodes id
  Redis.del (.episode id)

end Memory
end Mnemo
