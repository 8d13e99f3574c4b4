import Mnemo.Episode.Creation

/-!
# Creations that end with an error

For one creation and for a batch of them it is told, by the stage of the first fault and by what was
stored before, when a call that ends with an error leaves no trace.
-/

namespace Mnemo
namespace Episodes

open Database (exec skip skip_skip firstFault firstFault_append firstFault_append_none
  firstFault_append_some eval_of_infallible)

section Requests

variable (sessionId userId : Uuid) (agentId : Option String)

/-- The commands of one creation; which identifier and time the episode gets does not matter. -/
def creationPlan (req : CreateEpisodeRequest) : List (Option Stage) :=
  beginPlan req ++ storePlan (.fromRequest req sessionId userId agentId 0 0)

/-- The commands of a batch. -/
def batchPlan (requests : List CreateEpisodeRequest) : List (Option Stage) :=
  requests.flatMap (creationPlan sessionId userId agentId)

/-- The episode that is made of a request. -/
def episodeOf (inputs : Nat → EpisodeInput) (contents : EpisodeContents)
    (req : CreateEpisodeRequest) : Episode :=
  .fromRequest req sessionId userId agentId
    (req.id.getD (Database.unused contents.issued (inputs 1).id)) (inputs 0).now

/-- When a batch of creations that ends with an error leaves no trace. -/
def Traceless (inputs : Nat → EpisodeInput) (contents : EpisodeContents) :
    List CreateEpisodeRequest → Prop
  | [] => True
  | req :: requests =>
      (∃ session : Session, contents.docs (.session sessionId) = some session) ∧
          firstFault inputs (batchPlan sessionId userId agentId (req :: requests)) = none ∨
        TracelessStop contents (episodeOf sessionId userId agentId inputs contents req)
          (firstFault inputs (creationPlan sessionId userId agentId req))

/-! ## One creation -/

variable {sessionId userId agentId} {β : Type} {inputs : Nat → EpisodeInput}
  {contents : EpisodeContents} {req : CreateEpisodeRequest}

theorem firstFault_creationPlan :
    firstFault inputs (creationPlan sessionId userId agentId req) =
      firstFault (skip inputs (beginPlan req).length)
        (storePlan (episodeOf sessionId userId agentId inputs contents req)) := by
  have passes : firstFault inputs (beginPlan req) = none := by
    rw [beginPlan]
    split <;> rfl
  exact firstFault_append_none inputs passes

/-- The contents after the episode was made. -/
def begun (inputs : Nat → EpisodeInput) (contents : EpisodeContents)
    (req : CreateEpisodeRequest) : EpisodeContents :=
  if req.id.isSome then contents
  else contents.draw (Database.unused contents.issued (inputs 1).id)

theorem docs_begun : (begun inputs contents req).docs = contents.docs := by
  rw [begun]
  split <;> rfl

theorem sets_begun : (begun inputs contents req).sets = contents.sets := by
  rw [begun]
  split <;> rfl

theorem unchanged_begun_iff {final : EpisodeContents} :
    Unchanged (begun inputs contents req) final ↔ Unchanged contents final := by
  constructor
  · rintro ⟨docs, sessions, pending⟩
    rw [docs_begun] at docs
    rw [sets_begun] at sessions pending
    exact ⟨docs, sessions, pending⟩
  · rintro ⟨docs, sessions, pending⟩
    refine ⟨?_, ?_, ?_⟩
    · rw [docs_begun, docs]
    · rw [sets_begun]
      exact sessions
    · rw [sets_begun, pending]

theorem tracelessStop_begun_iff {episode : Episode} {stage : Option Stage} :
    TracelessStop (begun inputs contents req) episode stage ↔
      TracelessStop contents episode stage := by
  have filing : FiledAlready (begun inputs contents req) episode ↔
      FiledAlready contents episode := by
    rw [FiledAlready, FiledAlready, StoredAlready, ListedAlready, QueuedAlready, docs_begun,
      sets_begun]
    rfl
  cases stage with
  | none => simp only [TracelessStop, docs_begun, filing]
  | some stage =>
    cases stage <;>
      simp only [TracelessStop, StoredAlready, ListedAlready, docs_begun, sets_begun, filing]

theorem eval_createEpisode (next : Episode → EpisodeProgram β) :
    Program.eval exec (createEpisode sessionId userId agentId req >>= next) inputs contents =
      Program.eval exec
        (storeEpisode (episodeOf sessionId userId agentId inputs contents req) >>= next)
        (skip inputs (beginPlan req).length) (begun inputs contents req) := by
  rw [createEpisode, episodeOf, begun, beginPlan]
  refine (eval_of_infallible inputs contents rfl).trans ?_
  cases asked : req.id with
  | some id =>
    dsimp only [chooseId]
    rw [asked]
    rfl
  | none =>
    dsimp only [chooseId]
    rw [asked]
    exact (eval_of_infallible (Database.later inputs) contents rfl).trans rfl

theorem eval_createEpisode_passes {next : Episode → EpisodeProgram β} {session : Session}
    (passes : firstFault inputs (creationPlan sessionId userId agentId req) = none)
    (stored : contents.docs (.session sessionId) = some session) :
    ∃ (episode : Episode) (final : EpisodeContents) (more : Session),
      Program.eval exec (createEpisode sessionId userId agentId req >>= next) inputs contents =
        Program.eval exec (next episode)
          (skip inputs (creationPlan sessionId userId agentId req).length) final ∧
      final.docs (.session sessionId) = some more ∧
      more.episodeCount = session.episodeCount + 1 := by
  rw [@firstFault_creationPlan _ _ _ _ contents] at passes
  rw [← @docs_begun inputs contents req] at stored
  obtain ⟨final, more, reached, found, count⟩ := @eval_storeEpisode_passes β _ _
    (episodeOf sessionId userId agentId inputs contents req) next _ passes stored
  refine ⟨episodeOf sessionId userId agentId inputs contents req, final, more, ?_, found, count⟩
  rw [eval_createEpisode, reached, skip_skip, creationPlan, List.length_append]
  rfl

theorem eval_createEpisode_stops {next : Episode → EpisodeProgram β}
    (stops : firstFault inputs (creationPlan sessionId userId agentId req) ≠ none ∨
      contents.docs (.session sessionId) = none) :
    ∃ error final,
      Program.eval exec (createEpisode sessionId userId agentId req >>= next) inputs contents =
        (.error error, final) ∧
      (Unchanged contents final ↔
        TracelessStop contents (episodeOf sessionId userId agentId inputs contents req)
          (firstFault inputs (creationPlan sessionId userId agentId req))) ∧
      Counts sessionId contents final := by
  rw [@firstFault_creationPlan _ _ _ _ contents] at stops ⊢
  rw [← @docs_begun inputs contents req] at stops
  obtain ⟨error, final, reached, unchanged, counts⟩ := @eval_storeEpisode_stops β _ _
    (episodeOf sessionId userId agentId inputs contents req) next stops
  refine ⟨error, final, (eval_createEpisode next).trans reached, ?_, ?_⟩
  · rw [← @unchanged_begun_iff inputs contents req, unchanged, tracelessStop_begun_iff]
  · intro session stored
    rw [← @docs_begun inputs contents req] at stored
    exact counts session stored

/-! ## Batches -/

theorem createEpisodesBatch_cons (requests : List CreateEpisodeRequest) :
    createEpisodesBatch sessionId userId agentId (req :: requests) =
      createEpisode sessionId userId agentId req >>= fun episode =>
        createEpisodesBatch sessionId userId agentId requests >>= fun episodes =>
          .done (episode :: episodes) := rfl

theorem exists_map_error_iff {α : Type} {finish : α → β} {outcome : Except MnemoError α} :
    (∃ error, outcome.map finish = .error error) ↔ ∃ error, outcome = .error error := by
  cases outcome with
  | ok value =>
    constructor
    · rintro ⟨error, same⟩
      cases same
    · rintro ⟨error, same⟩
      cases same
  | error error => exact iff_of_true ⟨error, rfl⟩ ⟨error, rfl⟩

theorem eval_createEpisodesBatch (requests : List CreateEpisodeRequest) {session : Session}
    (stored : contents.docs (.session sessionId) = some session) :
    ((∃ error, (Program.eval exec (createEpisodesBatch sessionId userId agentId requests) inputs
        contents).1 = .error error) ↔
      firstFault inputs (batchPlan sessionId userId agentId requests) ≠ none) ∧
    Counts sessionId contents (Program.eval exec
      (createEpisodesBatch sessionId userId agentId requests) inputs contents).2 := by
  induction requests generalizing inputs contents session with
  | nil =>
    refine ⟨iff_of_false ?_ fun fault => fault rfl, .of_same rfl⟩
    rintro ⟨error, failed⟩
    cases failed
  | cons req requests ih =>
    rw [createEpisodesBatch_cons, batchPlan, List.flatMap_cons]
    cases creating : firstFault inputs (creationPlan sessionId userId agentId req) with
    | some stage =>
      have stops : firstFault inputs (creationPlan sessionId userId agentId req) ≠ none := by
        rw [creating]
        exact Option.some_ne_none stage
      obtain ⟨error, final, reached, -, counts⟩ := @eval_createEpisode_stops sessionId userId
        agentId _ inputs contents req (fun episode =>
          createEpisodesBatch sessionId userId agentId requests >>= fun episodes =>
            .done (episode :: episodes)) (.inl stops)
      rw [reached, firstFault_append_some inputs creating]
      exact ⟨iff_of_true ⟨error, rfl⟩ (Option.some_ne_none stage), counts⟩
    | none =>
      obtain ⟨episode, middle, more, reached, found, count⟩ := @eval_createEpisode_passes
        sessionId userId agentId _ inputs contents req (fun episode =>
          createEpisodesBatch sessionId userId agentId requests >>= fun episodes =>
            .done (episode :: episodes)) session creating stored
      obtain ⟨failing, counts⟩ := @ih
        (skip inputs (creationPlan sessionId userId agentId req).length) middle more found
      rw [reached, firstFault_append_none inputs creating, Program.eval_bind_done]
      refine ⟨exists_map_error_iff.trans failing, ?_⟩
      intro before also
      obtain rfl := Option.some.inj (stored.symm.trans also)
      obtain ⟨last, known, less⟩ := counts more found
      exact ⟨last, known, by omega⟩

/-! ## Traces of failed calls -/

/-- A call that ends with an error has changed nothing. -/
def LeavesNoTrace {α : Type} (program : EpisodeProgram α) (inputs : Nat → EpisodeInput)
    (contents : EpisodeContents) : Prop :=
  ∀ error, (Program.eval exec program inputs contents).1 = .error error →
    Unchanged contents (Program.eval exec program inputs contents).2

theorem batchPlan_singleton :
    batchPlan sessionId userId agentId [req] = creationPlan sessionId userId agentId req := by
  rw [batchPlan, List.flatMap_cons, List.flatMap_nil, List.append_nil]

theorem createEpisode_bind_done :
    (createEpisode sessionId userId agentId req >>= fun episode => .done episode) =
      createEpisode sessionId userId agentId req := by
  rw [createEpisode]
  simp only [Program.bind_bind]
  have ends : ∀ episode : Episode,
      (storeEpisode episode >>= fun episode => .done episode) = storeEpisode episode := by
    intro episode
    rw [storeEpisode_bind, storeEpisode]
    rfl
  simp only [ends]

theorem createEpisode_leavesNoTrace_iff :
    LeavesNoTrace (createEpisode sessionId userId agentId req) inputs contents ↔
      Traceless sessionId userId agentId inputs contents [req] := by
  rw [Traceless, batchPlan_singleton, LeavesNoTrace, ← createEpisode_bind_done]
  by_cases stops : firstFault inputs (creationPlan sessionId userId agentId req) ≠ none ∨
      contents.docs (.session sessionId) = none
  · obtain ⟨error, final, reached, unchanged, -⟩ := @eval_createEpisode_stops sessionId userId
      agentId _ inputs contents req (fun episode => .done episode) stops
    rw [reached, ← unchanged]
    refine ⟨fun kept => .inr (kept error rfl), fun traceless _ _ => traceless.resolve_left ?_⟩
    rintro ⟨⟨session, stored⟩, passes⟩
    rcases stops with fault | absent
    · exact fault passes
    · exact Option.some_ne_none session (stored.symm.trans absent)
  · rw [not_or, not_not] at stops
    obtain ⟨passes, present⟩ := stops
    obtain ⟨session, stored⟩ := Option.ne_none_iff_exists'.mp present
    obtain ⟨episode, final, more, reached, -, -⟩ := @eval_createEpisode_passes sessionId userId
      agentId _ inputs contents req (fun episode => .done episode) session passes stored
    rw [reached]
    exact iff_of_true (fun _ same => nomatch same) (.inl ⟨⟨session, stored⟩, passes⟩)

theorem createEpisodesBatch_leavesNoTrace_iff (requests : List CreateEpisodeRequest) :
    LeavesNoTrace (createEpisodesBatch sessionId userId agentId requests) inputs contents ↔
      Traceless sessionId userId agentId inputs contents requests := by
  cases requests with
  | nil => exact iff_of_true (fun _ same => nomatch same) trivial
  | cons req requests =>
    rw [Traceless, LeavesNoTrace]
    by_cases stops : firstFault inputs (creationPlan sessionId userId agentId req) ≠ none ∨
        contents.docs (.session sessionId) = none
    · obtain ⟨error, final, reached, unchanged, -⟩ := @eval_createEpisode_stops sessionId userId
        agentId _ inputs contents req (fun episode =>
          createEpisodesBatch sessionId userId agentId requests >>= fun episodes =>
            .done (episode :: episodes)) stops
      rw [createEpisodesBatch_cons, reached, ← unchanged]
      refine ⟨fun kept => .inr (kept error rfl), fun traceless _ _ => traceless.resolve_left ?_⟩
      rintro ⟨⟨session, stored⟩, passes⟩
      rw [batchPlan, List.flatMap_cons, firstFault_append, Option.or_eq_none_iff] at passes
      rcases stops with fault | absent
      · exact fault passes.1
      · exact Option.some_ne_none session (stored.symm.trans absent)
    · rw [not_or, not_not] at stops
      obtain ⟨passes, present⟩ := stops
      obtain ⟨session, stored⟩ := Option.ne_none_iff_exists'.mp present
      obtain ⟨failing, -⟩ := @eval_createEpisodesBatch sessionId userId agentId inputs contents
        (req :: requests) session stored
      have noTrace : ¬ TracelessStop contents
          (episodeOf sessionId userId agentId inputs contents req) none :=
        fun traceless => present traceless.1
      rw [passes, or_iff_left noTrace, and_iff_right ⟨session, stored⟩]
      refine ⟨fun kept => ?_, fun whole error failed => absurd whole (failing.mp ⟨error, failed⟩)⟩
      by_contra fault
      obtain ⟨error, failed⟩ := failing.mpr fault
      refine absurd (kept error failed) ?_
      obtain ⟨episode, middle, more, reached, found, count⟩ := @eval_createEpisode_passes
        sessionId userId agentId _ inputs contents req (fun episode =>
          createEpisodesBatch sessionId userId agentId requests >>= fun episodes =>
            .done (episode :: episodes)) session passes stored
      obtain ⟨-, counts⟩ := @eval_createEpisodesBatch sessionId userId agentId
        (skip inputs (creationPlan sessionId userId agentId req).length) middle requests more found
      rw [createEpisodesBatch_cons, reached, Program.eval_bind_done]
      obtain ⟨last, known, less⟩ := counts more found
      exact not_unchanged_of_counted stored known (by omega)

end Requests

/-- A message for a session that was deleted. -/
def lateMessage : CreateEpisodeRequest where
  id := some 5
  episodeType := .message
  content := "I moved to Paris"
  role := some .user
  name := none
  agentId := none
  metadata := .null
  createdAt := none
  modality := .text

/-- An environment in which no command fails. -/
def calm (_ : Nat) : EpisodeInput where
  failure := none
  now := 1000000000
  id := 0
  answer := fun call => nomatch call

/-- A database without sessions. -/
def noSessions : EpisodeContents where
  docs := fun _ => none
  sets := fun _ => .empty
  issued := []

end Episodes
end Mnemo
