import Mathlib
import Mnemo.Ingest.Worker
import Mnemo.Memory.Pagination

/-!
# Filters of listings, and the backlog of a session

The worker asks for one pending and then for one processing episode of a session, to see whether
its backlog is empty; the store does not look at the status that is asked for, nor at the beginning
of the window in a listing of sessions.
-/

namespace Mnemo
namespace Ingest

open Memory
open Database (exec)
open Program (Ensures Performs Reaches)

/-! ## What a listing returns -/

/-- The identifiers on a page. -/
def pageMembers (contents : MemoryContents) (index : MemoryIndex) (limit : Nat) :
    Option Uuid → List Uuid
  | none => (contents.sets index).revRange 0 ((limit : Int) - 1)
  | some cursor =>
      match (contents.sets index).score cursor with
      | some score => (contents.sets index).revRangeBelow score limit
      | none => []

/-- Episodes are listed by session. -/
def episodes : Listing Episode where
  read := readEpisode
  stored contents id := contents.docs (.episode id)
  idOf := Episode.id
  reads _ id := Database.readsAs_get (MemoryKey.episode id) trivial

/-- Sessions are listed by user. -/
def sessions : Listing Session where
  read := readSession
  stored contents id := contents.docs (.session id)
  idOf := Session.id
  reads _ id := Database.readsAs_get (MemoryKey.session id) trivial

/-- The stored items of a page. -/
def pageItems {Item : Type} (listing : Listing Item) (contents : MemoryContents)
    (index : MemoryIndex) (limit : Nat) (after : Option Uuid) : List Item :=
  (pageMembers contents index limit after).filterMap (listing.stored contents)

theorem reads_page {Item : Type} (listing : Listing Item) (contents : MemoryContents)
    (index : MemoryIndex) (limit : Nat) (after : Option Uuid) :
    QuietlyReads (pageItems listing contents index limit after)
      (listFromZset index listing.read limit after) contents := by
  have ids : QuietlyReads (pageMembers contents index limit after) (pageIds index limit after)
      contents := by
    cases after with
    | none =>
      have first : QuietlyReads ((contents.sets index).revRange 0 ((limit : Int) - 1))
          (Redis.zrevrange index 0 ((limit : Int) - 1)) contents :=
        Database.readsAs_zrevrange index 0 _ trivial
      exact first
    | some cursor =>
      have score : QuietlyReads ((contents.sets index).score cursor)
          (Redis.zscore index cursor) contents := Database.readsAs_zscore index cursor trivial
      refine score.andThen ?_
      cases found : (contents.sets index).score cursor with
      | none =>
        simp only [pageMembers, found]
        exact .done []
      | some bound =>
        have below : QuietlyReads ((contents.sets index).revRangeBelow bound limit)
            (Redis.zrevrangeBelow index bound limit) contents :=
          Database.readsAs_zrevrangeBelow index bound limit trivial
        simp only [pageMembers, found]
        exact below
  exact ids.andThen (listing.reads_getAll contents _)

/-! ## The backlog of a session -/

/-- An episode waits or is being processed. -/
def InFlight (episode : Episode) : Prop :=
  episode.processingStatus = .pending ∨ episode.processingStatus = .processing

/-- Some episode of the session waits or is being processed. -/
def HasBacklog (contents : MemoryContents) (sessionId : Uuid) : Prop :=
  ∃ (id : Uuid) (episode : Episode), contents.docs (.episode id) = some episode ∧
    episode.sessionId = sessionId ∧ InFlight episode

/-- The newest episode in the listing of the session is stored. -/
def NewestStored (contents : MemoryContents) (sessionId : Uuid) : Prop :=
  ∃ id ∈ (contents.sets (.sessionEpisodes sessionId)).members.getLast?,
    (contents.docs (.episode id) : Option Episode).isSome = true

/-- What the worker sees of the backlog. -/
def seesBacklog (contents : MemoryContents) (sessionId : Uuid) : Bool :=
  !(pageItems episodes contents (.sessionEpisodes sessionId) 1 none).isEmpty

theorem seesBacklog_iff (contents : MemoryContents) (sessionId : Uuid) :
    seesBacklog contents sessionId = true ↔ NewestStored contents sessionId := by
  have members : pageMembers contents (.sessionEpisodes sessionId) 1 none =
      (contents.sets (.sessionEpisodes sessionId)).members.getLast?.toList :=
    SortedSet.revRange_zero _
  rw [seesBacklog, NewestStored, pageItems, members]
  cases newest : (contents.sets (.sessionEpisodes sessionId)).members.getLast? with
  | none => simp
  | some id => cases stored : episodes.stored contents id <;> simp_all [episodes]

theorem reads_sessionHasInflightEpisodes (contents : MemoryContents) (sessionId : Uuid) :
    QuietlyReads (seesBacklog contents sessionId) (sessionHasInflightEpisodes sessionId)
      contents := by
  have page := reads_page episodes contents (.sessionEpisodes sessionId) 1 none
  refine page.andThen ?_
  cases seen : (pageItems episodes contents (.sessionEpisodes sessionId) 1 none).isEmpty with
  | false =>
    have sees : seesBacklog contents sessionId = true := by simp [seesBacklog, seen]
    rw [sees]
    exact .done true
  | true => exact page.andThen (.done _)

/-! ## The summary of a session -/

/-- The command asks for a summary of an episode. -/
def AsksSummary (episode : Episode) (command : MemoryCommand) : Prop :=
  command = .service (.summarize episode.content 256)

/-- The session of the episode is stored, and has a multiple of the threshold of episodes. -/
def Due (contents : MemoryContents) (threshold : Nat) (episode : Episode) : Prop :=
  0 < threshold ∧ ∃ session : Session, contents.docs (.session episode.sessionId) = some session ∧
    0 < session.episodeCount ∧ session.episodeCount % threshold = 0

/-- The worker asks for a summary, whatever the environment answers. -/
def Summarizes (contents : MemoryContents) (threshold : Nat) (episode : Episode) : Prop :=
  Reaches exec Quiet (AsksSummary episode) (summarizeSession threshold episode) contents

/-- The worker does not ask for a summary, whatever the environment answers. -/
def KeepsSilent (contents : MemoryContents) (threshold : Nat) (episode : Episode) : Prop :=
  Ensures exec Quiet (fun command _ => ¬ AsksSummary episode command) (fun _ _ => True)
    (summarizeSession threshold episode) contents

section Timing

variable {contents : MemoryContents} {threshold : Nat} {episode : Episode}

/-- The program does not ask for a summary of the episode. -/
abbrev Unasking {α : Type} (episode : Episode) (program : MemoryProgram α) : Prop :=
  Performs (fun command => ¬ AsksSummary episode command) program

theorem unasking_readEpisodes (ids : List Uuid) :
    Unasking episode (getAll readEpisode ids) := by
  induction ids with
  | nil => exact .done
  | cons id ids ih =>
    have head : Unasking episode (readEpisode id) :=
      Performs.call (Database.Command.get (.episode id) : MemoryCommand) nofun
    exact head.bind fun _ => ih.bind fun _ => .done

theorem unasking_listEpisodes (sessionId : Uuid) :
    Unasking episode (listEpisodes sessionId 1 none) := by
  have page : Unasking episode (pageIds (.sessionEpisodes sessionId) 1 none) :=
    Performs.call (Database.Command.zrevrange _ _ _ : MemoryCommand) nofun
  exact page.bind fun ids => unasking_readEpisodes ids

theorem unasking_sessionHasInflightEpisodes (episode : Episode) (sessionId : Uuid) :
    Unasking episode (sessionHasInflightEpisodes sessionId) := by
  refine (unasking_listEpisodes sessionId).bind fun pending => ?_
  split
  · exact (unasking_listEpisodes sessionId).bind fun _ => .done
  · exact .done

theorem gives_of_quiet {α : Type} {value : α} {program : MemoryProgram α}
    (reads : QuietlyReads value program contents) (unasking : Unasking episode program) :
    Ensures exec Quiet (fun command _ => ¬ AsksSummary episode command)
      (fun outcome final => final = contents ∧ outcome = .ok value) program contents := by
  refine (reads.restrict unasking).mono fun outcome final described => ⟨described.1, ?_⟩
  rcases described.2 with given | ⟨faulty, _⟩
  · exact given
  · exact absurd faulty not_faulty_quiet

/-- What reading a session gives. -/
def sessionOutcome (contents : MemoryContents) (id : Uuid) : Except MnemoError Session :=
  match (contents.docs (.session id) : Option Session) with
  | some session => .ok session
  | none => .error (.sessionNotFound id)

theorem gives_getSession (episode : Episode) (id : Uuid) :
    Ensures exec Quiet (fun command _ => ¬ AsksSummary episode command)
      (fun outcome final => final = contents ∧ outcome = sessionOutcome contents id)
      (getSession id) contents := by
  have unasking : Unasking episode (Redis.get (.session id)) :=
    Performs.call (Database.Command.get (.session id) : MemoryCommand) nofun
  have read : QuietlyReads (contents.docs (.session id) : Option Session)
      (Redis.get (.session id)) contents :=
    Database.readsAs_get (MemoryKey.session id) trivial
  refine (gives_of_quiet read unasking).bind ?_ fun _ _ given => nomatch given.2
  rintro _ middle ⟨rfl, given⟩
  obtain rfl := Except.ok.inj given
  unfold sessionOutcome
  cases (middle.docs (.session id) : Option Session) with
  | none => exact .fail ⟨rfl, rfl⟩
  | some session => exact .done ⟨rfl, rfl⟩

/-- How the summary goes on when the session has been read. -/
def summarizeRead (threshold : Nat) (episode : Episode) (session : Session) :
    MemoryProgram Unit := do
  if 0 < session.episodeCount ∧ session.episodeCount % threshold = 0 then
    let busy ← sessionHasInflightEpisodes episode.sessionId
    if busy then return () else storeSummary episode
  else
    return ()

theorem summarizeSession_eq (positive : 0 < threshold) :
    summarizeSession threshold episode = (do
      match ← (getSession episode.sessionId).attempt with
      | .ok session => summarizeRead threshold episode session
      | .error _ => return ()) := by
  simp only [summarizeSession, positive, if_true]
  rfl

theorem reaches_storeSummary (contents : MemoryContents) :
    Reaches exec Quiet (AsksSummary episode) (storeSummary episode) contents :=
  .here rfl

theorem summarizes (due : Due contents threshold episode)
    (gone : ¬ NewestStored contents episode.sessionId) :
    Summarizes contents threshold episode := by
  obtain ⟨positive, session, stored, counted, multiple⟩ := due
  unfold Summarizes
  rw [summarizeSession_eq positive]
  have outcome : sessionOutcome contents episode.sessionId = .ok session := by
    simp [sessionOutcome, stored]
  refine (gives_getSession episode episode.sessionId).reaches_attempt ?_
  rintro _ middle ⟨rfl, rfl⟩
  rw [outcome]
  simp only [summarizeRead, counted, multiple, and_self, if_true]
  have sees : seesBacklog middle episode.sessionId = false := by
    rw [← Bool.not_eq_true, seesBacklog_iff]
    exact gone
  have looks := gives_of_quiet (reads_sessionHasInflightEpisodes middle episode.sessionId)
    (unasking_sessionHasInflightEpisodes episode episode.sessionId)
  rw [sees] at looks
  refine looks.reaches ?_ fun _ _ given => nomatch given.2
  rintro _ _ ⟨rfl, given⟩
  obtain rfl := Except.ok.inj given
  exact reaches_storeSummary _

theorem keepsSilent (idle : Due contents threshold episode →
    NewestStored contents episode.sessionId) : KeepsSilent contents threshold episode := by
  unfold KeepsSilent
  by_cases positive : 0 < threshold
  · rw [summarizeSession_eq positive]
    refine (gives_getSession episode episode.sessionId).bind_attempt ?_
    rintro _ middle ⟨rfl, rfl⟩
    cases outcome : sessionOutcome middle episode.sessionId with
    | error error => exact .done trivial
    | ok session =>
      have stored : (middle.docs (.session episode.sessionId) : Option Session) =
          some session := by
        unfold sessionOutcome at outcome
        split at outcome
        · rename_i found
          rw [found, Except.ok.inj outcome]
        · cases outcome
      dsimp only
      unfold summarizeRead
      split
      · rename_i multiple
        have sees : seesBacklog middle episode.sessionId = true :=
          (seesBacklog_iff _ _).mpr
            (idle ⟨positive, session, stored, multiple.1, multiple.2⟩)
        have looks := gives_of_quiet
          (reads_sessionHasInflightEpisodes middle episode.sessionId)
          (unasking_sessionHasInflightEpisodes episode episode.sessionId)
        rw [sees] at looks
        refine looks.bind ?_ fun _ _ given => nomatch given.2
        rintro _ _ ⟨rfl, given⟩
        obtain rfl := Except.ok.inj given
        exact .done trivial
      · exact .done trivial
  · simp only [summarizeSession, positive, if_false]
    exact .done trivial

end Timing

/-! ## When the filters hold -/

/-- The worker sees a backlog exactly if there is one. -/
def BacklogSeen (contents : MemoryContents) (sessionId : Uuid) : Prop :=
  ∃ answer, (∀ inputs, (∀ position, Quiet (inputs position)) →
      (Program.eval exec (sessionHasInflightEpisodes sessionId) inputs contents).1 = .ok answer) ∧
    (answer = true ↔ HasBacklog contents sessionId)

/-- After an episode of the session was processed, the worker asks for a summary exactly if the
session is due and has no backlog. -/
def SummaryTimed (contents : MemoryContents) (threshold : Nat) (episode : Episode) : Prop :=
  (Due contents threshold episode ∧ ¬ HasBacklog contents episode.sessionId →
      Summarizes contents threshold episode) ∧
    (¬ (Due contents threshold episode ∧ ¬ HasBacklog contents episode.sessionId) →
      KeepsSilent contents threshold episode)

/-- An episode has the status that is asked for. -/
def EpisodePasses (params : ListEpisodesParams) (episode : Episode) : Prop :=
  ∀ status, params.status = some status → episode.processingStatus = status

/-- A session has been active in the window that is asked for. -/
def SessionPasses (params : ListSessionsParams) (session : Session) : Prop :=
  ∀ since, params.since = some since → ∃ last, session.lastActivityAt = some last ∧ since ≤ last

/-- A listing returns items of a kind only. -/
def ReturnsOnly {Item : Type} (passes : Item → Prop) (program : MemoryProgram (List Item))
    (contents : MemoryContents) : Prop :=
  ∃ items, (∀ inputs, (∀ position, Quiet (inputs position)) →
      (Program.eval exec program inputs contents).1 = .ok items) ∧ ∀ item ∈ items, passes item

theorem eval_of_reads {α : Type} {value : α} {program : MemoryProgram α}
    {contents : MemoryContents} (reads : QuietlyReads value program contents)
    {inputs : Nat → MemoryInput} (calm : ∀ position, Quiet (inputs position)) :
    (Program.eval exec program inputs contents).1 = .ok value := by
  rcases (reads.eval calm).2 with given | ⟨faulty, _⟩
  · exact given
  · exact absurd faulty not_faulty_quiet

theorem returnsOnly_iff {Item : Type} (listing : Listing Item) (passes : Item → Prop)
    (contents : MemoryContents) (index : MemoryIndex) (limit : Nat) (after : Option Uuid) :
    ReturnsOnly passes (listFromZset index listing.read limit after) contents ↔
      ∀ id ∈ pageMembers contents index limit after, ∀ item,
        listing.stored contents id = some item → passes item := by
  have reads := reads_page listing contents index limit after
  constructor
  · rintro ⟨items, gives, all⟩ id member item stored
    have given := gives (fun _ => Listing.quiet) fun _ => rfl
    have same : items = pageItems listing contents index limit after :=
      Except.ok.inj (given.symm.trans (eval_of_reads reads fun _ => rfl))
    apply all
    rw [same]
    exact List.mem_filterMap.mpr ⟨id, member, stored⟩
  · intro all
    refine ⟨_, fun inputs calm => eval_of_reads reads calm, fun item member => ?_⟩
    obtain ⟨id, listed, stored⟩ := List.mem_filterMap.mp member
    exact all id listed item stored

theorem backlogSeen_iff (contents : MemoryContents) (sessionId : Uuid) :
    BacklogSeen contents sessionId ↔
      (NewestStored contents sessionId ↔ HasBacklog contents sessionId) := by
  have reads := reads_sessionHasInflightEpisodes contents sessionId
  rw [← seesBacklog_iff]
  constructor
  · rintro ⟨answer, gives, right⟩
    have given := gives (fun _ => Listing.quiet) fun _ => rfl
    have same : answer = seesBacklog contents sessionId :=
      Except.ok.inj (given.symm.trans (eval_of_reads reads fun _ => rfl))
    rw [← same]
    exact right
  · intro right
    exact ⟨_, fun inputs calm => eval_of_reads reads calm, right⟩

theorem summaryTimed_iff (contents : MemoryContents) (threshold : Nat) (episode : Episode) :
    SummaryTimed contents threshold episode ↔
      (Due contents threshold episode → (NewestStored contents episode.sessionId ↔
        HasBacklog contents episode.sessionId)) := by
  have exclusive (silent : KeepsSilent contents threshold episode) :
      ¬ Summarizes contents threshold episode :=
    silent.not_reaches (show Quiet Listing.quiet from rfl)
  constructor
  · rintro ⟨asks, silent⟩ due
    constructor
    · intro newest
      by_contra none
      exact exclusive (keepsSilent fun _ => newest) (asks ⟨due, none⟩)
    · intro backlog
      by_contra gone
      exact exclusive (silent fun both => both.2 backlog) (summarizes due gone)
  · intro right
    constructor
    · rintro ⟨due, none⟩
      exact summarizes due fun newest => none ((right due).mp newest)
    · intro rest
      refine keepsSilent fun due => (right due).mpr ?_
      by_contra none
      exact rest ⟨due, none⟩

/-- For every store: the worker sees the backlog of a session exactly as it is, and times the
summary by it, if the newest listed episode is stored exactly when there is a backlog; a listing
returns what passes the filter only if everything on the page passes it. -/
theorem filters_hold_iff (contents : MemoryContents) :
    (∀ sessionId, BacklogSeen contents sessionId ↔
      (NewestStored contents sessionId ↔ HasBacklog contents sessionId)) ∧
    (∀ threshold episode, SummaryTimed contents threshold episode ↔
      (Due contents threshold episode → (NewestStored contents episode.sessionId ↔
        HasBacklog contents episode.sessionId))) ∧
    (∀ sessionId params,
      ReturnsOnly (EpisodePasses params) (listEpisodesWith sessionId params) contents ↔
      ∀ id ∈ pageMembers contents (.sessionEpisodes sessionId) params.limit params.after,
        ∀ episode : Episode, contents.docs (.episode id) = some episode →
          EpisodePasses params episode) ∧
    ∀ userId params, ReturnsOnly (SessionPasses params) (listSessions userId params) contents ↔
      ∀ id ∈ pageMembers contents (.userSessions userId) params.limit params.after,
        ∀ session : Session, contents.docs (.session id) = some session →
          SessionPasses params session := by
  refine ⟨backlogSeen_iff contents, summaryTimed_iff contents, ?_, ?_⟩
  · intro sessionId params
    exact returnsOnly_iff episodes (EpisodePasses params) contents _ _ _
  · intro userId params
    exact returnsOnly_iff sessions (SessionPasses params) contents _ _ _

/-- An episode that has been processed. -/
def processedEpisode : Episode :=
  { id := 1, sessionId := 2, userId := 3, agentId := none, content := "Hello", role := none
    createdAt := 0, processingStatus := .completed, processingError := none, entityIds := []
    edgeIds := [], retryCount := 0 }

/-- A session whose only episode has been processed. -/
def drainedSession : MemoryContents :=
  (emptyMemory.put (.episode 1) processedEpisode).withSet (.sessionEpisodes 2)
    (SortedSet.empty.insert 1 0)

/-- The worker sees a backlog where there is none. -/
theorem drained_session_looks_busy :
    ¬ ∀ (contents : MemoryContents) (sessionId : Uuid), BacklogSeen contents sessionId := by
  intro seen
  have right := (backlogSeen_iff drainedSession 2).mp (seen drainedSession 2)
  have newest : NewestStored drainedSession 2 := ⟨1, rfl, rfl⟩
  obtain ⟨id, episode, stored, _, waits⟩ := right.mp newest
  by_cases first : id = 1
  · subst first
    obtain rfl : processedEpisode = episode := Option.some.inj stored
    rcases waits with waits | waits <;> cases waits
  · have absent : drainedSession.docs (.episode id) = none :=
      Database.Contents.docs_put_of_ne _ (by simpa using first) _
    exact nomatch absent.symm.trans stored

end Ingest
end Mnemo
