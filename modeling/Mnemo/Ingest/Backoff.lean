import Mnemo.Ingest.Stages

/-!
# Delays before another attempt

An episode that is put back into the queue gets its due time as its score.  The polls take the
members of lowest score, whatever the clock says, so the delay is only kept while enough others
come first.
-/

namespace Mnemo
namespace Ingest
namespace Backoff

open Memory
open Database (exec later eval_of_success eval_of_failure)
open Program (Performs)
open StateMachine (finish)

/-! ## Calls -/

/-- A command that stores episodes under their own identifiers only. -/
def Files : MemoryCommand → Prop
  | .set (.episode id) doc => Episode.id doc = id
  | _ => True

/-- A call of the store: an episode is put back, the queue is polled, or anything else happens. -/
inductive QueueCall where
  | requeue (id : Uuid) (delay : Nat)
  | poll (limit : Nat)
  | other (program : MemoryProgram Unit) (files : Performs Files program)

/-- What a call runs. -/
def QueueCall.program : QueueCall → MemoryProgram Unit
  | .requeue id delay => requeueEpisode id delay
  | .poll limit => do
      let _ ← getPendingEpisodes limit
      return ()
  | .other program _ => program

/-- A call, with what the environment decides at its commands. -/
abbrev QueueEvent : Type := QueueCall × (Nat → MemoryInput)

/-- When a call is made, in milliseconds. -/
def calledAt (inputs : Nat → MemoryInput) : Int := timestampMillis (inputs 0).now

/-- One call. -/
def queueStep (contents : MemoryContents) (event : QueueEvent) : MemoryContents :=
  (Program.eval exec event.1.program event.2 contents).2

/-- A poll returns the episode of an identifier. -/
def Returns (contents : MemoryContents) (limit : Nat) (inputs : Nat → MemoryInput) (id : Uuid) :
    Prop :=
  ∃ episodes, (Program.eval exec (getPendingEpisodes limit) inputs contents).1 = .ok episodes ∧
    ∃ episode ∈ episodes, episode.id = id

/-- A poll that comes, after some calls, before the due time of an episode which was put back. -/
structure EarlyPoll (events : List QueueEvent) (before : List QueueEvent) (limit : Nat)
    (inputs : Nat → MemoryInput) (id : Uuid) : Prop where
  polls : ∃ back, events = before ++ (.poll limit, inputs) :: back
  /-- The episode was put back, and the poll is called earlier than the delay after that. -/
  early : ∃ (front : List QueueEvent) (delay : Nat) (requeued : Nat → MemoryInput)
      (middle : List QueueEvent),
    before = front ++ (.requeue id delay, requeued) :: middle ∧
      (requeued 1).failure = none ∧ calledAt inputs < calledAt requeued + delay

/-- No poll returns an episode before it is due. -/
def Honoured (contents : MemoryContents) (events : List QueueEvent) : Prop :=
  ∀ before limit inputs id, EarlyPoll events before limit inputs id →
    ¬ Returns (finish queueStep contents before) limit inputs id

/-! ## What a poll returns -/

/-- The identifiers at the front of the queue; a limit of 0 takes all of them. -/
def frontIds (contents : MemoryContents) (limit : Nat) : List Uuid :=
  if limit = 0 then (contents.sets .pendingEpisodes).members
  else (contents.sets .pendingEpisodes).members.take limit

theorem range_front (contents : MemoryContents) (limit : Nat) :
    (contents.sets .pendingEpisodes).range 0 ((limit : Int) - 1) = frontIds contents limit := by
  rw [frontIds]
  split
  next zero =>
    subst zero
    exact SortedSet.range_all _
  next positive =>
    have notNegative : ¬ (limit : Int) - 1 < 0 := by omega
    simp [SortedSet.range, SortedSet.slice, notNegative]

/-- The pending ones among the episodes that can be read. -/
def pendingAmong (contents : MemoryContents) : (Nat → MemoryInput) → List Uuid → List Episode
  | _, [] => []
  | inputs, id :: ids =>
      let others := pendingAmong contents (later inputs) ids
      match (inputs 0).failure, contents.docs (.episode id) with
      | none, some episode =>
          if Episode.processingStatus episode = .pending then episode :: others else others
      | _, _ => others

theorem eval_readPending (contents : MemoryContents) (inputs : Nat → MemoryInput)
    (ids : List Uuid) :
    Program.eval exec (readPending ids) inputs contents =
      (.ok (pendingAmong contents inputs ids), contents) := by
  induction ids generalizing inputs with
  | nil => rfl
  | cons id ids ih =>
    cases failing : (inputs 0).failure with
    | some error =>
      refine (eval_of_failure inputs contents rfl failing).trans ?_
      rw [pendingAmong, failing]
      exact ih (later inputs)
    | none =>
      refine (eval_of_success inputs contents failing).trans ?_
      simp only [Database.perform]
      rw [pendingAmong, failing]
      cases stored : contents.docs (.episode id) with
      | none => exact ih (later inputs)
      | some episode =>
        refine (Program.eval_bind_done (readPending ids) (fun episodes =>
          if Episode.processingStatus episode = .pending then episode :: episodes
          else episodes) (later inputs) contents).trans ?_
        rw [ih]
        rfl

theorem mem_pendingAmong {contents : MemoryContents} {inputs : Nat → MemoryInput}
    {ids : List Uuid} {episode : Episode} :
    episode ∈ pendingAmong contents inputs ids ↔
      ∃ position id, ids[position]? = some id ∧ (inputs position).failure = none ∧
        contents.docs (.episode id) = some episode ∧ episode.processingStatus = .pending := by
  induction ids generalizing inputs with
  | nil => simp [pendingAmong]
  | cons id ids ih =>
    have split : (∃ position other, (id :: ids)[position]? = some other ∧
        (inputs position).failure = none ∧ contents.docs (.episode other) = some episode ∧
          episode.processingStatus = .pending) ↔
        ((inputs 0).failure = none ∧ contents.docs (.episode id) = some episode ∧
          episode.processingStatus = .pending) ∨
        episode ∈ pendingAmong contents (later inputs) ids := by
      rw [ih]
      constructor
      · rintro ⟨position, other, listed, rest⟩
        cases position with
        | zero =>
          obtain rfl := Option.some.inj listed
          exact .inl rest
        | succ position => exact .inr ⟨position, other, listed, rest⟩
      · rintro (first | ⟨position, other, listed, rest⟩)
        · exact ⟨0, id, rfl, first⟩
        · exact ⟨position + 1, other, listed, rest⟩
    rw [split, pendingAmong]
    cases failing : (inputs 0).failure with
    | some error => simp
    | none =>
      cases stored : contents.docs (.episode id) with
      | none => simp
      | some first =>
        by_cases pending : Episode.processingStatus first = .pending
        · simp only [pending, if_true, List.mem_cons, true_and, Option.some.injEq]
          constructor
          · rintro (rfl | later)
            · exact .inl ⟨rfl, pending⟩
            · exact .inr later
          · rintro (⟨rfl, -⟩ | later)
            · exact .inl rfl
            · exact .inr later
        · simp only [pending, if_false, true_and, Option.some.injEq]
          refine ⟨.inr, fun either => either.resolve_left ?_⟩
          rintro ⟨rfl, now⟩
          exact pending now

/-! ## When the delay is kept -/

/-- A poll comes to an episode: it is at the front of the queue, and what is stored of it can be
read and is pending. -/
def Served (contents : MemoryContents) (limit : Nat) (inputs : Nat → MemoryInput) (id : Uuid) :
    Prop :=
  (inputs 0).failure = none ∧ ∃ position, (frontIds contents limit)[position]? = some id ∧
    (inputs (position + 1)).failure = none ∧ ∃ episode : Episode,
      contents.docs (.episode id) = some episode ∧ episode.processingStatus = .pending

theorem returns_iff_served {contents : MemoryContents} (filed : EpisodesFiled contents)
    {limit : Nat} {inputs : Nat → MemoryInput} {id : Uuid} :
    Returns contents limit inputs id ↔ Served contents limit inputs id := by
  rw [Returns, Served]
  cases failing : (inputs 0).failure with
  | some error =>
    have fails : (Program.eval exec (getPendingEpisodes limit) inputs contents).1 =
        .error error := congrArg Prod.fst (eval_of_failure inputs contents rfl failing)
    simp [fails]
  | none =>
    have answers : (Program.eval exec (getPendingEpisodes limit) inputs contents).1 =
        .ok (pendingAmong contents (later inputs) (frontIds contents limit)) := by
      refine (congrArg Prod.fst (eval_of_success inputs contents failing)).trans ?_
      simp only [Database.perform, range_front]
      exact congrArg Prod.fst (eval_readPending contents (later inputs) _)
    rw [answers]
    simp only [Except.ok.injEq, exists_eq_left', mem_pendingAmong, true_and]
    constructor
    · rintro ⟨episode, ⟨position, other, listed, reads, stored, pending⟩, rfl⟩
      obtain rfl := filed other episode stored
      exact ⟨position, listed, reads, episode, stored, pending⟩
    · rintro ⟨position, listed, reads, episode, stored, pending⟩
      exact ⟨episode, ⟨position, id, listed, reads, stored, pending⟩, filed id episode stored⟩

/-! ## Runs -/

theorem filed_exec {contents : MemoryContents} (filed : EpisodesFiled contents)
    {command : MemoryCommand} (files : Files command) (input : MemoryInput) :
    EpisodesFiled (exec command input contents).2 := by
  have kept (after : MemoryContents) (same : after.docs = contents.docs) : EpisodesFiled after := by
    intro id episode found
    rw [same] at found
    exact filed id episode found
  cases replied : (exec command input contents).1 with
  | error error =>
    rw [Database.exec_of_error replied]
    exact filed
  | ok value =>
    rw [Database.exec_of_ok replied]
    cases command with
    | set key doc =>
      intro id episode found
      by_cases same : MemoryKey.episode id = key
      · subst same
        have here := Database.Contents.docs_put_self contents (.episode id) doc
        rw [← Option.some.inj (here.symm.trans found)]
        exact files
      · exact filed id episode
          (found.symm.trans (Database.Contents.docs_put_of_ne contents same doc)).symm
    | del key =>
      intro id episode found
      by_cases same : (MemoryKey.episode id) = key
      · subst same
        exact nomatch found.symm.trans (Database.Contents.docs_remove_self contents _)
      · exact filed id episode
          (found.symm.trans (Database.Contents.docs_remove_of_ne contents same)).symm
    | _ => exact kept _ rfl

theorem files_requeueEpisode (id : Uuid) (delay : Nat) :
    Performs Files (requeueEpisode id delay) :=
  (Performs.call _ trivial).bind fun _ => Performs.call _ trivial

theorem files_readPending (ids : List Uuid) : Performs Files (readPending ids) := by
  induction ids with
  | nil => exact .done
  | cons id ids ih =>
    have reads : Performs Files (getEpisode id) := by
      refine (Performs.call _ trivial).bind fun found => ?_
      cases found with
      | none => exact .fail
      | some episode => exact .done
    refine reads.attempt.bind fun outcome => ?_
    cases outcome with
    | ok episode => exact ih.bind fun _ => .done
    | error error => exact ih

theorem files_program : ∀ call : QueueCall, Performs Files call.program
  | .requeue id delay => files_requeueEpisode id delay
  | .poll _ => ((Performs.call _ trivial).bind files_readPending).bind fun _ => .done
  | .other _ files => files

/-- Where episodes are filed, they are filed later on. -/
def FiledAfter (first last : MemoryContents) : Prop := EpisodesFiled first → EpisodesFiled last

theorem filed_queueStep (contents : MemoryContents) (event : QueueEvent)
    (filed : EpisodesFiled contents) : EpisodesFiled (queueStep contents event) := by
  have always : Program.Ensures exec (fun _ => True) (fun _ _ => True)
      (fun _ final => FiledAfter contents final) event.1.program contents :=
    (files_program event.1).ensures (fun _ before => before) (fun _ _ _ => trivial)
      (fun _ input _ _ files grows before => filed_exec (grows before) files input) contents
  have allowed (position : Nat) : (fun _ : MemoryInput => True) (event.2 position) := trivial
  exact always.eval allowed filed

/-- Delays are kept in a run exactly if every poll that comes before the due time of an episode
finds it further back in the queue, or not to be read or pending. -/
theorem honoured_iff (contents : MemoryContents) (filed : EpisodesFiled contents)
    (events : List QueueEvent) :
    Honoured contents events ↔ ∀ before limit inputs id, EarlyPoll events before limit inputs id →
      ¬ Served (finish queueStep contents before) limit inputs id := by
  have same (before : List QueueEvent) (limit : Nat) (inputs : Nat → MemoryInput) (id : Uuid) :
      Returns (finish queueStep contents before) limit inputs id ↔
        Served (finish queueStep contents before) limit inputs id :=
    returns_iff_served (StateMachine.finish_induction filed_queueStep filed before)
  simp only [Honoured, same]

/-! ## An early poll -/

/-- An environment without failures at a time. -/
def tickInput (now : DateTime) : MemoryInput :=
  { failure := none, now, id := 0, answer := fun _ => .error .unauthorized }

/-- The waiting episode is put back for half a second, and the queue is polled at once. -/
def hastyRun : List QueueEvent :=
  [(.requeue 4 500, fun _ => tickInput 0), (.poll 10, fun _ => tickInput 0)]

theorem waitingStore_filed : EpisodesFiled waitingStore := by
  have empty : EpisodesFiled emptyMemory := fun _ _ found => nomatch found
  intro id episode found
  exact (empty.put 4 waitingEpisode rfl) id episode found

theorem hasty_poll_returns : ¬ Honoured waitingStore hastyRun := by
  intro honoured
  refine honoured [(.requeue 4 500, fun _ => tickInput 0)] 10 (fun _ => tickInput 0) 4
    ⟨⟨[], rfl⟩, [], 500, fun _ => tickInput 0, [], rfl, rfl, by decide⟩ ?_
  exact ⟨[waitingEpisode], by rfl, waitingEpisode, List.mem_singleton_self _, rfl⟩

theorem honoured_iff_waiting :
    Honoured waitingStore hastyRun ↔ ∀ before limit inputs id,
      EarlyPoll hastyRun before limit inputs id →
        ¬ Served (finish queueStep waitingStore before) limit inputs id :=
  honoured_iff waitingStore waitingStore_filed hastyRun

end Backoff
end Ingest
end Mnemo
