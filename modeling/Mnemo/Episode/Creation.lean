import Mathlib.Logic.Function.Basic
import Mnemo.Episode.Model

/-!
# Episodes that could not be created

A creation that ends with an error may already have written.  What it leaves behind depends on the
stage at which it stops, and on whether the same was stored before.
-/

namespace Mnemo
namespace Episodes

open Database (exec later skip skip_zero skip_later skip_skip Fails firstFault firstFault_append
  firstFault_append_none firstFault_append_some firstFault_mem eval_of_failure
  eval_of_passes eval_of_infallible)

/-! ## Plans -/

/-- The commands of a creation that may fail. -/
inductive Stage where
  | document
  | sessionEntry
  | queueEntry
  | sessionRead
  | sessionWrite
  | requestEntry
  | agentEntry
  deriving DecidableEq, Repr

/-- The commands that store an episode. -/
def filePlan (episode : Episode) : List (Option Stage) :=
  [some .document, some .sessionEntry] ++ if episode.shouldProcess then [some .queueEntry] else []

/-- The commands that count an episode. -/
def countPlan : List (Option Stage) := [some .sessionRead, none, none, some .sessionWrite]

/-- The commands that make an episode traceable. -/
def tracePlan (episode : Episode) : List (Option Stage) :=
  (if episode.requestId.isSome then [some .requestEntry] else []) ++
    if episode.agentId.isSome then [some .agentEntry] else []

/-- The commands after an episode was made of a request. -/
def storePlan (episode : Episode) : List (Option Stage) :=
  filePlan episode ++ (countPlan ++ tracePlan episode)

/-- The commands that make an episode of a request. -/
def beginPlan (req : CreateEpisodeRequest) : List (Option Stage) :=
  if req.id.isSome then [none] else [none, none]

/-! ## Traces -/

/-- No document, no index of a session and nothing in the queue is different. -/
structure Unchanged (before after : EpisodeContents) : Prop where
  docs : after.docs = before.docs
  sessionEpisodes : ∀ sessionId,
    after.sets (.sessionEpisodes sessionId) = before.sets (.sessionEpisodes sessionId)
  pendingEpisodes : after.sets .pendingEpisodes = before.sets .pendingEpisodes

/-- The document of an episode is stored as it is. -/
def StoredAlready (contents : EpisodeContents) (episode : Episode) : Prop :=
  contents.docs (.episode episode.id) = some episode

/-- The index of the session has the episode with the same score. -/
def ListedAlready (contents : EpisodeContents) (episode : Episode) : Prop :=
  (contents.sets (.sessionEpisodes episode.sessionId)).score [episode.id] =
    some (timestampMillis episode.createdAt)

/-- The queue has the episode with the same score, if the episode is to be processed. -/
def QueuedAlready (contents : EpisodeContents) (episode : Episode) : Prop :=
  episode.shouldProcess = true →
    (contents.sets .pendingEpisodes).score [episode.id] = some (timestampMillis episode.ingestedAt)

/-- All that precedes the look at the session is there already. -/
def FiledAlready (contents : EpisodeContents) (episode : Episode) : Prop :=
  StoredAlready contents episode ∧ ListedAlready contents episode ∧ QueuedAlready contents episode

/-- Nothing is different after a creation that stops at a stage, or because there is no session. -/
def TracelessStop (contents : EpisodeContents) (episode : Episode) : Option Stage → Prop
  | some .document => True
  | some .sessionEntry => StoredAlready contents episode
  | some .queueEntry => StoredAlready contents episode ∧ ListedAlready contents episode
  | some .sessionRead | some .sessionWrite => FiledAlready contents episode
  | some .requestEntry | some .agentEntry | none =>
      contents.docs (.session episode.sessionId) = none ∧ FiledAlready contents episode

/-! ## Storing -/

section File

variable {contents : EpisodeContents} {episode : Episode}

/-- The contents with the document of an episode and its entry in the index of the session. -/
def listed (contents : EpisodeContents) (episode : Episode) : EpisodeContents :=
  let stored := contents.put (.episode episode.id) episode
  stored.withSet (.sessionEpisodes episode.sessionId)
    ((stored.sets (.sessionEpisodes episode.sessionId)).insert [episode.id]
      (timestampMillis episode.createdAt))

/-- The contents after an episode was stored. -/
def filed (contents : EpisodeContents) (episode : Episode) : EpisodeContents :=
  if episode.shouldProcess then
    (listed contents episode).withSet .pendingEpisodes
      (((listed contents episode).sets .pendingEpisodes).insert [episode.id]
        (timestampMillis episode.ingestedAt))
  else listed contents episode

theorem put_docs_eq_iff {key : EpisodeKey} {doc : EpisodeDoc key} :
    (contents.put key doc).docs = contents.docs ↔ contents.docs key = some doc := by
  constructor
  · intro same
    rw [← same, Database.Contents.docs_put_self]
  · intro stored
    funext other
    by_cases equal : other = key
    · subst equal
      rw [Database.Contents.docs_put_self, stored]
    · rw [Database.Contents.docs_put_of_ne _ equal]

theorem unchanged_put_iff :
    Unchanged contents (contents.put (.episode episode.id) episode) ↔
      StoredAlready contents episode :=
  ⟨fun unchanged => put_docs_eq_iff.mp unchanged.docs,
    fun stored => ⟨put_docs_eq_iff.mpr stored, fun _ => rfl, rfl⟩⟩

theorem unchanged_listed_iff :
    Unchanged contents (listed contents episode) ↔
      StoredAlready contents episode ∧ ListedAlready contents episode := by
  constructor
  · intro unchanged
    have same := unchanged.sessionEpisodes episode.sessionId
    rw [listed, Database.Contents.sets_withSet_self] at same
    exact ⟨put_docs_eq_iff.mp unchanged.docs, SortedSet.insert_eq_self_iff.mp same⟩
  · rintro ⟨stored, entered⟩
    refine ⟨put_docs_eq_iff.mpr stored, fun sessionId => ?_, ?_⟩
    · by_cases same : sessionId = episode.sessionId
      · subst same
        rw [listed, Database.Contents.sets_withSet_self]
        exact SortedSet.insert_eq_self_iff.mpr entered
      · rw [listed, Database.Contents.sets_withSet_of_ne _ (by simpa using same)]
        rfl
    · rw [listed, Database.Contents.sets_withSet_of_ne _ (by simp)]
      rfl

theorem unchanged_filed_iff :
    Unchanged contents (filed contents episode) ↔ FiledAlready contents episode := by
  rw [FiledAlready, QueuedAlready, ← and_assoc, ← unchanged_listed_iff, filed]
  split
  next processed =>
    have queue : (listed contents episode).sets .pendingEpisodes =
        contents.sets .pendingEpisodes := by
      rw [listed, Database.Contents.sets_withSet_of_ne _ (by simp)]
      rfl
    rw [queue]
    constructor
    · rintro ⟨docs, sessions, pending⟩
      rw [Database.Contents.sets_withSet_self] at pending
      refine ⟨⟨docs, fun sessionId => ?_, queue⟩, fun _ => SortedSet.insert_eq_self_iff.mp pending⟩
      rw [← sessions sessionId, Database.Contents.sets_withSet_of_ne _ (by simp)]
    · rintro ⟨⟨docs, sessions, -⟩, queued⟩
      refine ⟨docs, fun sessionId => ?_, ?_⟩
      · rw [Database.Contents.sets_withSet_of_ne _ (by simp), sessions sessionId]
      · rw [Database.Contents.sets_withSet_self]
        exact SortedSet.insert_eq_self_iff.mpr (queued processed)
  next left => exact (and_iff_left fun processed => absurd processed left).symm

theorem session_filed (id : Uuid) :
    (filed contents episode).docs (.session id) = contents.docs (.session id) := by
  have put : (contents.put (.episode episode.id) episode).docs (.session id) =
      contents.docs (.session id) :=
    Database.Contents.docs_put_of_ne _ (by simp) _
  rw [filed]
  split <;> exact put

end File

/-! ## Stages -/

section Stages

variable {β : Type} {inputs : Nat → EpisodeInput} {contents : EpisodeContents} {episode : Episode}

theorem eval_fileEpisode_passes {next : Unit → EpisodeProgram β}
    (passes : firstFault inputs (filePlan episode) = none) :
    Program.eval exec (fileEpisode episode >>= next) inputs contents =
      Program.eval exec (next ()) (skip inputs (filePlan episode).length)
        (filed contents episode) := by
  by_cases first : Fails inputs 0 = true
  · simp [filePlan, firstFault, first] at passes
  by_cases second : Fails (later inputs) 0 = true
  · simp [filePlan, firstFault, first, second] at passes
  by_cases processed : episode.shouldProcess = true
  · by_cases third : Fails (later (later inputs)) 0 = true
    · simp [filePlan, firstFault, first, second, third, processed] at passes
    rw [filed, filePlan, fileEpisode, if_pos processed, if_pos processed, if_pos processed]
    refine (eval_of_passes first).trans ((eval_of_passes second).trans ?_)
    exact (eval_of_passes third).trans rfl
  · rw [filed, filePlan, fileEpisode, if_neg processed, if_neg processed, if_neg processed]
    exact (eval_of_passes first).trans ((eval_of_passes second).trans rfl)

theorem eval_fileEpisode_stops {next : Unit → EpisodeProgram β} {stage : Stage}
    (stops : firstFault inputs (filePlan episode) = some stage) :
    ∃ error final,
      Program.eval exec (fileEpisode episode >>= next) inputs contents = (.error error, final) ∧
        (Unchanged contents final ↔ TracelessStop contents episode (some stage)) ∧
          ∀ id, final.docs (.session id) = contents.docs (.session id) := by
  have kept : ∀ id, (contents.put (.episode episode.id) episode).docs (.session id) =
      contents.docs (.session id) :=
    fun id => Database.Contents.docs_put_of_ne _ (by simp) _
  by_cases first : Fails inputs 0 = true
  · obtain rfl : Stage.document = stage := by
      simpa [filePlan, firstFault, first] using stops
    obtain ⟨error, failing⟩ := Option.isSome_iff_exists.mp first
    exact ⟨error, contents, (eval_of_failure _ _ rfl failing).trans rfl, iff_of_true ⟨rfl, fun _ => rfl, rfl⟩ trivial,
      fun _ => rfl⟩
  by_cases second : Fails (later inputs) 0 = true
  · obtain rfl : Stage.sessionEntry = stage := by
      simpa [filePlan, firstFault, first, second] using stops
    obtain ⟨error, failing⟩ := Option.isSome_iff_exists.mp second
    exact ⟨error, _, (eval_of_passes first).trans ((eval_of_failure _ _ rfl failing).trans rfl), unchanged_put_iff, kept⟩
  by_cases processed : episode.shouldProcess = true
  · by_cases third : Fails (later (later inputs)) 0 = true
    · obtain rfl : Stage.queueEntry = stage := by
        simpa [filePlan, firstFault, first, second, third, processed] using stops
      obtain ⟨error, failing⟩ := Option.isSome_iff_exists.mp third
      rw [fileEpisode, if_pos processed]
      exact ⟨error, _, (eval_of_passes first).trans ((eval_of_passes second).trans
        ((eval_of_failure _ _ rfl failing).trans rfl)), unchanged_listed_iff, kept⟩
    · simp [filePlan, firstFault, first, second, third, processed] at stops
  · simp [filePlan, firstFault, first, second, processed] at stops

/-- The contents after an episode was counted. -/
def counted (inputs : Nat → EpisodeInput) (contents : EpisodeContents) (episode : Episode)
    (session : Session) : EpisodeContents :=
  contents.put (.session episode.sessionId)
    (session.recordEpisode episode.id episode.createdAt (inputs 1).now (inputs 2).now)

theorem exists_session_counted (inputs : Nat → EpisodeInput) (contents : EpisodeContents)
    (episode : Episode) (session : Session) :
    ∃ more : Session, (counted inputs contents episode session).docs
      (.session episode.sessionId) = some more ∧ more.episodeCount = session.episodeCount + 1 :=
  ⟨_, Database.Contents.docs_put_self _ _ _, rfl⟩

theorem eval_countEpisode_passes {next : Unit → EpisodeProgram β} {session : Session}
    (passes : firstFault inputs countPlan = none)
    (stored : contents.docs (.session episode.sessionId) = some session) :
    Program.eval exec (countEpisode episode >>= next) inputs contents =
      Program.eval exec (next ()) (skip inputs countPlan.length)
        (counted inputs contents episode session) := by
  by_cases first : Fails inputs 0 = true
  · simp [countPlan, firstFault, first] at passes
  by_cases fourth : Fails (later (later (later inputs))) 0 = true
  · simp [countPlan, firstFault, first, fourth] at passes
  refine (eval_of_passes first).trans ?_
  dsimp only [Database.perform]
  rw [stored]
  refine (eval_of_infallible (later inputs) contents rfl).trans ?_
  refine (eval_of_infallible (later (later inputs)) contents rfl).trans ?_
  exact (eval_of_passes fourth).trans rfl

theorem eval_countEpisode_stops {next : Unit → EpisodeProgram β}
    (stops : firstFault inputs countPlan ≠ none ∨
      contents.docs (.session episode.sessionId) = none) :
    ∃ error, Program.eval exec (countEpisode episode >>= next) inputs contents =
      (.error error, contents) := by
  by_cases first : Fails inputs 0 = true
  · obtain ⟨error, failing⟩ := Option.isSome_iff_exists.mp first
    exact ⟨error, (eval_of_failure _ _ rfl failing).trans rfl⟩
  cases stored : contents.docs (.session episode.sessionId) with
  | none =>
    refine ⟨.sessionNotFound episode.sessionId, (eval_of_passes first).trans ?_⟩
    dsimp only [Database.perform]
    rw [stored]
    rfl
  | some session =>
    have fault := stops.resolve_right (by rw [stored]; exact Option.some_ne_none session)
    by_cases fourth : Fails (later (later (later inputs))) 0 = true
    · obtain ⟨error, failing⟩ := Option.isSome_iff_exists.mp fourth
      refine ⟨error, (eval_of_passes first).trans ?_⟩
      dsimp only [Database.perform]
      rw [stored]
      refine (eval_of_infallible (later inputs) contents rfl).trans ?_
      exact (eval_of_infallible (later (later inputs)) contents rfl).trans ((eval_of_failure _ _ rfl failing).trans rfl)
    · simp [countPlan, firstFault, first, fourth] at fault

theorem eval_enter {α : Type} (choice : Option α) (index : α → EpisodeIndex)
    (member : EpisodeMember) (score : Int) (stage : Stage) (next : Unit → EpisodeProgram β)
    (inputs : Nat → EpisodeInput) (contents : EpisodeContents) :
    (firstFault inputs (if choice.isSome then [some stage] else []) = none ∧
      ∃ final, final.docs = contents.docs ∧
        Program.eval exec (enter choice index member score >>= next) inputs contents =
          Program.eval exec (next ())
            (skip inputs (if choice.isSome then [some stage] else []).length) final) ∨
      firstFault inputs (if choice.isSome then [some stage] else []) = some stage ∧
        ∃ error, Program.eval exec (enter choice index member score >>= next) inputs contents =
          (.error error, contents) := by
  cases choice with
  | none => exact .inl ⟨rfl, contents, rfl, rfl⟩
  | some value =>
    by_cases fails : Fails inputs 0 = true
    · obtain ⟨error, failing⟩ := Option.isSome_iff_exists.mp fails
      exact .inr ⟨if_pos fails, error, (eval_of_failure _ _ rfl failing).trans rfl⟩
    · refine .inl ⟨if_neg fails, contents.withSet (index value)
        ((contents.sets (index value)).insert member score), rfl, ?_⟩
      exact (eval_of_passes fails).trans rfl

theorem eval_traceEpisode {next : Unit → EpisodeProgram β} :
    (firstFault inputs (tracePlan episode) = none ∧ ∃ final, final.docs = contents.docs ∧
        Program.eval exec (traceEpisode episode >>= next) inputs contents =
          Program.eval exec (next ()) (skip inputs (tracePlan episode).length) final) ∨
      (firstFault inputs (tracePlan episode) = some .requestEntry ∨
        firstFault inputs (tracePlan episode) = some .agentEntry) ∧
      ∃ error final, final.docs = contents.docs ∧
        Program.eval exec (traceEpisode episode >>= next) inputs contents =
          (.error error, final) := by
  rw [tracePlan, traceEpisode, Program.bind_bind]
  rcases eval_enter episode.requestId .ridEpisodes [episode.id, episode.userId, episode.sessionId]
    (timestampMillis episode.createdAt) .requestEntry
    (fun _ => enter episode.agentId .agentEpisodes [episode.id]
      (timestampMillis episode.createdAt) >>= next) inputs contents with
    ⟨passes, middle, same, reached⟩ | ⟨stops, error, reached⟩
  · rw [firstFault_append_none inputs passes, reached, List.length_append, ← skip_skip, ← same]
    rcases eval_enter episode.agentId .agentEpisodes [episode.id]
      (timestampMillis episode.createdAt) .agentEntry next
      (skip inputs (if episode.requestId.isSome then [some Stage.requestEntry] else []).length)
      middle with ⟨passes, final, kept, reached⟩ | ⟨stops, error, reached⟩
    · exact .inl ⟨passes, final, kept, reached⟩
    · exact .inr ⟨.inr stops, error, middle, rfl, reached⟩
  · exact .inr ⟨.inl (firstFault_append_some inputs stops), error, contents, rfl, reached⟩

theorem storeEpisode_bind (next : Episode → EpisodeProgram β) :
    (storeEpisode episode >>= next) = fileEpisode episode >>= fun _ =>
      countEpisode episode >>= fun _ => traceEpisode episode >>= fun _ => next episode := by
  rw [storeEpisode]
  simp only [Program.bind_bind, Program.pure_eq, Program.done_bind]

/-- The session is there afterwards if it was before, and has not lost episodes. -/
def Counts (sessionId : Uuid) (before after : EpisodeContents) : Prop :=
  ∀ session : Session, before.docs (.session sessionId) = some session →
    ∃ counted : Session, after.docs (.session sessionId) = some counted ∧
      session.episodeCount ≤ counted.episodeCount

theorem Counts.of_same {sessionId : Uuid} {before after : EpisodeContents}
    (same : after.docs (.session sessionId) = before.docs (.session sessionId)) :
    Counts sessionId before after :=
  fun session stored => ⟨session, same.trans stored, le_rfl⟩

theorem not_unchanged_of_counted {sessionId : Uuid} {before after : EpisodeContents}
    {session counted : Session} (stored : before.docs (.session sessionId) = some session)
    (later : after.docs (.session sessionId) = some counted)
    (more : session.episodeCount < counted.episodeCount) : ¬ Unchanged before after := by
  intro unchanged
  rw [unchanged.docs, stored] at later
  obtain rfl := Option.some.inj later
  exact lt_irrefl _ more

theorem eval_storeEpisode_passes {next : Episode → EpisodeProgram β} {session : Session}
    (passes : firstFault inputs (storePlan episode) = none)
    (stored : contents.docs (.session episode.sessionId) = some session) :
    ∃ (final : EpisodeContents) (more : Session),
      Program.eval exec (storeEpisode episode >>= next) inputs contents =
        Program.eval exec (next episode) (skip inputs (storePlan episode).length) final ∧
      final.docs (.session episode.sessionId) = some more ∧
      more.episodeCount = session.episodeCount + 1 := by
  rw [storePlan, firstFault_append, Option.or_eq_none_iff, firstFault_append,
    Option.or_eq_none_iff] at passes
  obtain ⟨files, counts, traces⟩ := passes
  rw [← session_filed] at stored
  rw [storeEpisode_bind, eval_fileEpisode_passes files, eval_countEpisode_passes counts stored]
  obtain ⟨more, found, count⟩ := exists_session_counted
    (skip inputs (filePlan episode).length) (filed contents episode) episode session
  obtain ⟨-, final, same, reached⟩ | ⟨stops, -⟩ := @eval_traceEpisode β
    (skip (skip inputs (filePlan episode).length) countPlan.length)
    (counted (skip inputs (filePlan episode).length) (filed contents episode) episode session)
    episode fun _ => next episode
  · refine ⟨final, more, ?_, (congrFun same _).trans found, count⟩
    rw [reached, skip_skip, skip_skip, storePlan, List.length_append, List.length_append]
  · rw [traces] at stops
    exact absurd stops (by simp)

/-- The stages before the look at the session. -/
def Stage.early : Stage → Bool
  | .document | .sessionEntry | .queueEntry => true
  | _ => false

theorem not_early_of_fault {stage : Stage}
    (fault : firstFault inputs (countPlan ++ tracePlan episode) = some stage) :
    stage.early = false := by
  have member := firstFault_mem inputs fault
  cases stage with
  | document => simp [countPlan, tracePlan] at member
  | sessionEntry => simp [countPlan, tracePlan] at member
  | queueEntry => simp [countPlan, tracePlan] at member
  | _ => rfl

theorem tracelessStop_of_absent {stage : Option Stage}
    (absent : contents.docs (.session episode.sessionId) = none)
    (late : ∀ known, stage = some known → known.early = false) :
    TracelessStop contents episode stage ↔ FiledAlready contents episode := by
  cases stage with
  | none => exact and_iff_right absent
  | some stage =>
    cases stage with
    | document => cases late _ rfl
    | sessionEntry => cases late _ rfl
    | queueEntry => cases late _ rfl
    | sessionRead => rfl
    | sessionWrite => rfl
    | requestEntry => exact and_iff_right absent
    | agentEntry => exact and_iff_right absent

/-- Counting and tracing stop either before anything is written or after the session is. -/
theorem eval_count_stops {next : Unit → EpisodeProgram β}
    (stops : firstFault inputs (countPlan ++ tracePlan episode) ≠ none ∨
      contents.docs (.session episode.sessionId) = none) :
    ∃ error final,
      Program.eval exec (countEpisode episode >>= fun _ => traceEpisode episode >>= next) inputs
        contents = (.error error, final) ∧
      (final = contents ∧ (contents.docs (.session episode.sessionId) = none ∨
          firstFault inputs (countPlan ++ tracePlan episode) = some .sessionRead ∨
          firstFault inputs (countPlan ++ tracePlan episode) = some .sessionWrite) ∨
        ∃ session more : Session, contents.docs (.session episode.sessionId) = some session ∧
          final.docs (.session episode.sessionId) = some more ∧
          session.episodeCount < more.episodeCount ∧
          (firstFault inputs (countPlan ++ tracePlan episode) = some .requestEntry ∨
            firstFault inputs (countPlan ++ tracePlan episode) = some .agentEntry)) := by
  cases stored : contents.docs (.session episode.sessionId) with
  | none =>
    obtain ⟨error, reached⟩ := @eval_countEpisode_stops β inputs contents episode
      (fun _ => traceEpisode episode >>= next) (.inr stored)
    exact ⟨error, contents, reached, .inl ⟨rfl, .inl rfl⟩⟩
  | some session =>
    have fault := stops.resolve_right (by rw [stored]; exact Option.some_ne_none session)
    cases counting : firstFault inputs countPlan with
    | some stage =>
      obtain ⟨error, reached⟩ := @eval_countEpisode_stops β inputs contents episode
        (fun _ => traceEpisode episode >>= next)
        (.inl (by rw [counting]; exact Option.some_ne_none stage))
      refine ⟨error, contents, reached, .inl ⟨rfl, .inr ?_⟩⟩
      rw [firstFault_append_some inputs counting]
      have member := firstFault_mem inputs counting
      simpa [countPlan] using member
    | none =>
      rw [firstFault_append_none inputs counting] at fault ⊢
      rw [eval_countEpisode_passes counting stored]
      obtain ⟨more, found, count⟩ := exists_session_counted inputs contents episode session
      obtain ⟨traces, -⟩ | ⟨stage, error, final, same, reached⟩ := @eval_traceEpisode β
        (skip inputs countPlan.length) (counted inputs contents episode session) episode next
      · exact absurd traces fault
      · exact ⟨error, final, reached, .inr ⟨session, more, rfl,
          (congrFun same _).trans found, by omega, stage⟩⟩

/-- What there is when the storing of an episode stops. -/
theorem eval_storeEpisode_stops {next : Episode → EpisodeProgram β}
    (stops : firstFault inputs (storePlan episode) ≠ none ∨
      contents.docs (.session episode.sessionId) = none) :
    ∃ error final,
      Program.eval exec (storeEpisode episode >>= next) inputs contents = (.error error, final) ∧
      (Unchanged contents final ↔
        TracelessStop contents episode (firstFault inputs (storePlan episode))) ∧
      Counts episode.sessionId contents final := by
  rw [storeEpisode_bind]
  cases filing : firstFault inputs (filePlan episode) with
  | some stage =>
    rw [storePlan, firstFault_append_some inputs filing]
    obtain ⟨error, final, reached, unchanged, same⟩ := eval_fileEpisode_stops filing
    exact ⟨error, final, reached, unchanged, .of_same (same _)⟩
  | none =>
    have kept : (filed contents episode).docs (.session episode.sessionId) =
        contents.docs (.session episode.sessionId) := session_filed _
    rw [storePlan, firstFault_append_none inputs filing, ← kept] at stops
    rw [storePlan, firstFault_append_none inputs filing, eval_fileEpisode_passes filing]
    obtain ⟨error, final, reached, ⟨rfl, before⟩ | ⟨session, more, stored, found, less, after⟩⟩ :=
      @eval_count_stops β (skip inputs (filePlan episode).length) (filed contents episode) episode
        (fun _ => next episode) stops
    · refine ⟨error, _, reached, unchanged_filed_iff.trans ?_, .of_same kept⟩
      rcases before with absent | read | write
      · exact (tracelessStop_of_absent (kept.symm.trans absent)
          fun _ fault => not_early_of_fault fault).symm
      · rw [read]
        rfl
      · rw [write]
        rfl
    · rw [kept] at stored
      refine ⟨error, final, reached, ?_, ?_⟩
      · refine iff_of_false (not_unchanged_of_counted stored found less) fun traceless => ?_
        rcases after with request | agent
        · rw [request] at traceless
          exact Option.some_ne_none _ (stored.symm.trans traceless.1)
        · rw [agent] at traceless
          exact Option.some_ne_none _ (stored.symm.trans traceless.1)
      · intro other also
        obtain rfl := Option.some.inj (stored.symm.trans also)
        exact ⟨more, found, less.le⟩

end Stages

end Episodes
end Mnemo
