import Mnemo.Ingest.Process
import Mnemo.Lib.Crew
import Mnemo.Memory.EpisodeStore

/-!
# The ingest workers

A worker polls the pending queue, selects episodes fairly among the users, claims the selected ones
one after the other, and processes the claimed ones concurrently.  An episode whose processing fails
goes back to the queue until its retries are used up.
-/

namespace Mnemo
namespace Ingest

open Memory
open Program (Crew)

/-- Configuration of a worker. -/
structure IngestConfig where
  batchSize : Nat := 10
  concurrency : Nat := 4
  maxRetries : Nat := 3
  sessionSummaryThreshold : Nat := 10

namespace IngestConfig

/-- How many episodes a poll looks at. -/
def fetchLimit (config : IngestConfig) : Nat :=
  max (min (config.batchSize * (max config.concurrency 1 % 2 ^ 32)) (2 ^ 32 - 1)) config.batchSize

end IngestConfig

/-! ## Selection -/

section Selection

variable (unicode : Unicode)

/-- Episodes that seem to say more are processed earlier. -/
def episodePriority (content : String) : Nat :=
  let lower := unicode.toLowercase content
  let contains (part : String) : Bool := Text.occursIn part lower
  (if contains " named " then 4 else 0) +
    (if contains "most viewed" || (contains "instagram" && contains "views") then 4 else 0) +
    (if contains "works as" || contains " is a " || contains " is an " then 3 else 0) +
    (if contains "allergic" || contains "birthday" || contains "studied " then 2 else 0) +
    (if contains "favourite" || contains "favorite" || contains "prefers " then 1 else 0)

/-- The episodes of a user by descending priority; those of equal priority stay in order. -/
def userQueue (pending : List Episode) (userId : Uuid) : List Episode :=
  (pending.filter fun episode => episode.userId == userId).insertionSort fun first second =>
    episodePriority unicode second.content ≤ episodePriority unicode first.content

/-- The queues of the users, in the order in which they first occur. -/
def userQueues (pending : List Episode) : List (List Episode) :=
  (pending.map (·.userId)).eraseDups.map (userQueue unicode pending)

end Selection

/-- Take the first episode of every queue, as long as there is room. -/
def takeRound : Nat → List (List Episode) → List Episode × List (List Episode)
  | 0, queues => ([], queues)
  | _, [] => ([], [])
  | room, [] :: queues =>
      let (taken, left) := takeRound room queues
      (taken, [] :: left)
  | room + 1, (episode :: queue) :: queues =>
      let (taken, left) := takeRound room queues
      (episode :: taken, queue :: left)

/-- Take rounds until the room is filled or nothing is left; no more rounds are needed than there
is room. -/
def takeRounds : Nat → Nat → List (List Episode) → List Episode
  | 0, _, _ => []
  | rounds + 1, room, queues =>
      match takeRound room queues with
      | ([], _) => []
      | (taken, left) => taken ++ takeRounds rounds (room - taken.length) left

/-- A fair selection of pending episodes. -/
def selectEpisodes (unicode : Unicode) (batchSize : Nat) (pending : List Episode) :
    List Episode :=
  takeRounds batchSize batchSize (userQueues unicode pending)

/-! ## Polling -/

/-- Claim episodes in turn; those that another worker has claimed are left out. -/
def claimEpisodes : List Episode → MemoryProgram (List Episode)
  | [] => return []
  | episode :: episodes => do
      if ← claimEpisode episode.id then
        let claimed ← claimEpisodes episodes
        return episode :: claimed
      else
        claimEpisodes episodes

/-- Poll for pending episodes and claim a selection of them. -/
def pollAndClaim (unicode : Unicode) (config : IngestConfig) : MemoryProgram (List Episode) := do
  let pending ← getPendingEpisodes config.fetchLimit
  claimEpisodes (selectEpisodes unicode config.batchSize pending)

/-! ## Processing -/

/-- Whether a session has episodes that wait or are being processed. -/
def sessionHasInflightEpisodes (sessionId : Uuid) : MemoryProgram Bool := do
  let pending ← listEpisodes sessionId 1 none
  if pending.isEmpty then
    let processing ← listEpisodes sessionId 1 none
    return !processing.isEmpty
  else
    return true

/-- Store the summary of a session; a failure to do so is ignored. -/
def storeSummary (episode : Episode) : MemoryProgram Unit := do
  match ← (Redis.ask (.summarize episode.content 256)).attempt with
  | .ok summary =>
      let tokens := max (Text.byteLength summary / 4) 1 % 2 ^ 32
      let _ ← (updateSession episode.sessionId summary tokens).attempt
      return ()
  | .error _ => return ()

/-- Summarize the session of an episode each time a number of episodes was added to it. -/
def summarizeSession (threshold : Nat) (episode : Episode) : MemoryProgram Unit := do
  if 0 < threshold then
    match ← (getSession episode.sessionId).attempt with
    | .ok session =>
        if 0 < session.episodeCount ∧ session.episodeCount % threshold = 0 then
          let busy ← sessionHasInflightEpisodes episode.sessionId
          if busy then return () else storeSummary episode
        else
          return ()
    | .error _ => return ()
  else
    return ()

/-- Handle a processing failure: the episode is queued again, or has failed for good. -/
def handleFailure (maxRetries : Nat) (episode : Episode) (error : MnemoError) :
    MemoryProgram Unit := do
  match episode.requeueForRetry error.message maxRetries with
  | (retried, some delay) =>
      match ← (updateEpisode retried).attempt with
      | .ok _ =>
          let _ ← (requeueEpisode retried.id delay).attempt
          return ()
      | .error _ => return ()
  | (failed, none) =>
      let _ ← (updateEpisode failed).attempt
      return ()

section Crew

variable (unicode : Unicode) (fallback : String → Option ExtractionResult)
  (config : IngestConfig)

/-- Process an episode and summarize its session. -/
def processAndSummarize (episode : Episode) : MemoryProgram Unit := do
  processEpisode unicode fallback episode
  summarizeSession config.sessionSummaryThreshold episode

/-- Process a claimed episode, as it was polled, and handle a failure. -/
def workOn (episode : Episode) : MemoryProgram Unit := do
  match ← (processAndSummarize unicode fallback config episode).attempt with
  | .ok _ => return ()
  | .error error => handleFailure config.maxRetries episode error

/-- What the tasks of the workers and of the clients are for. -/
inductive IngestJob where
  /-- A worker polls and claims. -/
  | poll
  /-- A worker processes a claimed episode. -/
  | process (episode : Episode)
  /-- A client deletes an episode. -/
  | delete (id : Uuid)
  deriving DecidableEq

/-- The program of a job; a poll hands on the claimed episodes. -/
def ingestHandler : IngestJob → MemoryProgram (List IngestJob)
  | .poll => do
      let claimed ← pollAndClaim unicode config
      return claimed.map .process
  | .process episode => do
      workOn unicode fallback config episode
      return []
  | .delete id => do
      deleteEpisode id
      return []

end Crew
end Ingest
end Mnemo
