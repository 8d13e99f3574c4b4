import Mnemo.Agent.Routes
import Mnemo.Lib.Sequential

/-!
# The evidence behind promotion proposals

A proposal names the experiences that it rests on.  The route counts the names and looks each of
them up; neither repetitions nor the agents of the experiences matter to it.  Beside the database
stands a list of the proposals that were created, each with the database at that moment.
-/

namespace Mnemo
namespace Agent
namespace Evidence

open Database (Command)
open Program (Performs)
open StateMachine (Always Guarded)

/-- Store an experience over its earlier state. -/
def updateExperienceEvent (event : ExperienceEvent) : AgentProgram Unit :=
  Redis.set (.experience event.id.toText) event

/-- A call that touches experiences or creates proposals. -/
inductive EvidenceCall where
  | experience (caller : Auth.CallerContext) (agentId : String) (body : CreateExperienceRequest)
  | decay (event : ExperienceEvent)
  | propose (agentId : String) (body : CreatePromotionProposalRequest)

section Calls

variable (computeFisherImportance : ExperienceEvent → List ExperienceEvent → ℚ)

/-- The program of a call. -/
def EvidenceCall.handle : EvidenceCall → AgentProgram Unit
  | .experience caller agentId body => do
      let _ ← Routes.addAgentExperience computeFisherImportance caller agentId body
      return ()
  | .decay event => updateExperienceEvent event
  | .propose agentId body => do
      let _ ← Routes.createPromotionProposal agentId body
      return ()

end Calls

/-! ## Backed proposals -/

/-- The experiences of an agent among those that are named, each once. -/
def ownEvidence (contents : AgentContents) (agentId : String) (eventIds : List Uuid) :
    List String :=
  ((eventIds.map Uuid.toText).filter fun eventId =>
    (contents.docs (.experience eventId) : Option ExperienceEvent).any fun event =>
      event.agentId == agentId).dedup

/-- A proposal names at least three experiences of its agent. -/
def Backed (contents : AgentContents) (proposal : PromotionProposal) : Prop :=
  3 ≤ (ownEvidence contents proposal.agentId proposal.sourceEventIds).length

/-- The database, and the proposals that were created, each with the database at that moment. -/
structure Ledger where
  contents : AgentContents
  created : List (PromotionProposal × AgentContents)

/-- The proposals that were created after a command. -/
def Ledger.createdAfter (ledger : Ledger) : (command : AgentCommand) →
    Except MnemoError (command.Reply AgentAnswer) → List (PromotionProposal × AgentContents)
  | .set (.proposal _) proposal, .ok _ => (proposal, ledger.contents) :: ledger.created
  | _, _ => ledger.created

/-- Perform a command, and note the proposal that it stores. -/
def exec (command : AgentCommand) (input : Database.Input AgentAnswer MnemoError)
    (ledger : Ledger) : Except MnemoError (command.Reply AgentAnswer) × Ledger :=
  let (reply, contents) := Database.exec command input ledger.contents
  (reply, { contents, created := ledger.createdAfter command reply })

/-- Every proposal was backed when it was created. -/
def AllBacked (ledger : Ledger) : Prop :=
  ∀ creation ∈ ledger.created, Backed creation.2 creation.1

/-- A call, and what the environment decides while it runs. -/
abbrev EvidenceStep := EvidenceCall × (Nat → Database.Input AgentAnswer MnemoError)

/-- One call after the other. -/
def step (computeFisherImportance : ExperienceEvent → List ExperienceEvent → ℚ)
    (ledger : Ledger) : EvidenceStep → Ledger
  | (call, inputs) => ((call.handle computeFisherImportance).eval exec inputs ledger).2

/-! ## What a proposal has to pass -/

/-- What is checked of a proposal before any experience is looked up. -/
def checkProposal (agentId : String) (body : CreatePromotionProposalRequest) :
    Except MnemoError String := do
  let agentId ← normalizeAgentId agentId
  Routes.requireText body.proposal "proposal is required"
  Routes.requireText body.reason "reason is required"
  validateIdentityCore body.candidateCore
  if body.sourceEventIds.length < 3 then
    .error (.validation "promotion requires at least 3 source_event_ids")
  return agentId

/-- Every experience that is named is found. -/
def AllFound (contents : AgentContents) (eventIds : List Uuid)
    (inputs : Nat → Database.Input AgentAnswer MnemoError) : Prop :=
  (∀ eventId ∈ eventIds, contents.docs (.experience eventId.toText) ≠ none) ∧
    ∀ position < eventIds.length, (inputs position).failure = none

/-- The place of the storing command among the commands of the store. -/
def storePosition (body : CreatePromotionProposalRequest) : Nat :=
  if body.id.isSome then 1 else 2

/-- A proposal for an agent passes every check and is stored. -/
structure Accepted (contents : AgentContents) (agentId : String)
    (body : CreatePromotionProposalRequest)
    (inputs : Nat → Database.Input AgentAnswer MnemoError) (agent : String) : Prop where
  checked : checkProposal agentId body = .ok agent
  found : AllFound contents body.sourceEventIds inputs
  stored : (inputs (storePosition body + body.sourceEventIds.length)).failure = none

/-- A proposal that passes the checks of the route names three experiences of its agent. -/
def NamesEnough (ledger : Ledger) : EvidenceStep → Prop
  | (.propose agentId body, inputs) =>
      ∀ agent, Accepted ledger.contents agentId body inputs agent →
        3 ≤ (ownEvidence ledger.contents agent body.sourceEventIds).length
  | _ => True

section Calls

variable (inputs : Nat → Database.Input AgentAnswer MnemoError) (ledger : Ledger)

theorem createPromotionProposal_eq (agentId : String) (body : CreatePromotionProposalRequest) :
    Routes.createPromotionProposal agentId body =
      (Program.ofExcept (checkProposal agentId body) >>= fun agent =>
        Routes.requireSourceEvents body.sourceEventIds >>= fun _ =>
          createPromotionProposal agent body >>= fun proposal =>
            pure (AgentResponse.proposal proposal)) := by
  unfold Routes.createPromotionProposal checkProposal
  cases normalizeAgentId agentId with
  | error error => rfl
  | ok agent =>
    cases Routes.requireText body.proposal "proposal is required" with
    | error error => rfl
    | ok value =>
      cases Routes.requireText body.reason "reason is required" with
      | error error => rfl
      | ok value =>
        cases validateIdentityCore body.candidateCore with
        | error error => rfl
        | ok value =>
          by_cases few : body.sourceEventIds.length < 3
          · simp only [if_pos few]
            rfl
          · simp only [if_neg few]
            rfl

variable {inputs ledger}

theorem exec_of_failure_none {command : AgentCommand}
    {input : Database.Input AgentAnswer MnemoError} (succeeds : input.failure = none) :
    exec command input ledger =
      ((Database.perform input ledger.contents command).1,
        { contents := (Database.perform input ledger.contents command).2
          created := ledger.createdAfter command
            (Database.perform input ledger.contents command).1 }) := by
  unfold exec
  rw [Database.exec_of_failure_none succeeds]

theorem exec_of_failure {command : AgentCommand} (fallible : command.fallible = true)
    {input : Database.Input AgentAnswer MnemoError} {error : MnemoError}
    (fails : input.failure = some error) :
    exec command input ledger = (.error error, ledger) := by
  have unnoted : ledger.createdAfter command (.error error) = ledger.created := by
    unfold Ledger.createdAfter
    split <;> first | rfl | contradiction
  unfold exec
  rw [Database.exec_of_failure fallible fails]
  dsimp only
  rw [unnoted]

theorem eval_agentCall_bind {Result : Type} (command : AgentCommand)
    (next : command.Reply AgentAnswer → AgentProgram Result)
    (inputs : Nat → Database.Input AgentAnswer MnemoError) (ledger : Ledger) :
    Program.eval exec (Program.call command >>= next) inputs ledger =
      match (exec command (inputs 0) ledger).1 with
      | .ok value => Program.eval exec (next value) (fun position => inputs (position + 1))
          (exec command (inputs 0) ledger).2
      | .error error => (.error error, (exec command (inputs 0) ledger).2) := by
  apply (Program.eval_call_bind exec command next inputs ledger).trans
  cases (exec command (inputs 0) ledger).1 <;> rfl

theorem eval_requireSourceEvents_cons {Result : Type} (next : Unit → AgentProgram Result)
    (eventId : Uuid) (eventIds : List Uuid)
    (inputs : Nat → Database.Input AgentAnswer MnemoError) (ledger : Ledger) :
    (Routes.requireSourceEvents (eventId :: eventIds) >>= next).eval exec inputs ledger =
      match (inputs 0).failure with
      | some error => (.error error, ledger)
      | none =>
        match (ledger.contents.docs (.experience eventId.toText) : Option ExperienceEvent) with
        | some _ => (Routes.requireSourceEvents eventIds >>= next).eval exec
            (fun position => inputs (position + 1)) ledger
        | none => (.error (.validation ("source_event_id " ++ eventId.toText ++
            " does not reference an existing experience event")), ledger) := by
  apply (congrArg (fun program => Program.eval exec program inputs ledger)
    (Program.bind_bind _ _ next)).trans
  apply (eval_agentCall_bind (.get (.experience eventId.toText)) _ inputs ledger).trans
  cases failing : (inputs 0).failure with
  | some error => rw [exec_of_failure rfl failing]
  | none =>
    rw [exec_of_failure_none failing]
    cases stored : (ledger.contents.docs (.experience eventId.toText) :
        Option ExperienceEvent) with
    | none =>
      simp only [Database.perform]
      rw [stored]
      rfl
    | some event =>
      simp only [Database.perform]
      rw [stored]
      rfl

theorem eval_requireSourceEvents {Result : Type} (next : Unit → AgentProgram Result)
    {eventIds : List Uuid} (found : AllFound ledger.contents eventIds inputs) :
    (Routes.requireSourceEvents eventIds >>= next).eval exec inputs ledger =
      (next ()).eval exec (fun position => inputs (position + eventIds.length)) ledger := by
  induction eventIds generalizing inputs with
  | nil => rfl
  | cons eventId eventIds ih =>
    obtain ⟨exist, undisturbed⟩ := found
    have rest : AllFound ledger.contents eventIds (fun position => inputs (position + 1)) :=
      ⟨fun other member => exist other (List.mem_cons_of_mem _ member),
        fun position inside => undisturbed (position + 1) (Nat.succ_lt_succ inside)⟩
    have here := exist eventId List.mem_cons_self
    have first := undisturbed 0 (Nat.succ_pos _)
    rw [eval_requireSourceEvents_cons, first]
    cases stored : (ledger.contents.docs (.experience eventId.toText) :
        Option ExperienceEvent) with
    | none => exact absurd stored here
    | some event => exact ih rest

theorem eval_requireSourceEvents_missing {Result : Type} (next : Unit → AgentProgram Result)
    {eventIds : List Uuid} (missing : ¬ AllFound ledger.contents eventIds inputs) :
    ((Routes.requireSourceEvents eventIds >>= next).eval exec inputs ledger).2 = ledger := by
  induction eventIds generalizing inputs with
  | nil => exact absurd ⟨nofun, nofun⟩ missing
  | cons eventId eventIds ih =>
    rw [eval_requireSourceEvents_cons]
    cases failing : (inputs 0).failure with
    | some error => rfl
    | none =>
      cases stored : (ledger.contents.docs (.experience eventId.toText) :
          Option ExperienceEvent) with
      | none => rfl
      | some event =>
        have later : ¬ AllFound ledger.contents eventIds
            (fun position => inputs (position + 1)) := by
          rintro ⟨exist, undisturbed⟩
          apply missing
          refine ⟨fun other member => ?_, fun position inside => ?_⟩
          · rcases List.mem_cons.mp member with rfl | tail
            · exact fun absent => nomatch stored.symm.trans absent
            · exact exist other tail
          · cases position with
            | zero => exact failing
            | succ position => exact undisturbed position (Nat.lt_of_succ_lt_succ inside)
        exact ih later

/-! ## What is created -/

/-- The commands that store no proposal. -/
def OffProposals : AgentCommand → Prop
  | .set (.proposal _) _ => False
  | _ => True

theorem createdAfter_of_offProposals {command : AgentCommand} (off : OffProposals command)
    (reply : Except MnemoError (command.Reply AgentAnswer)) :
    ledger.createdAfter command reply = ledger.created := by
  unfold Ledger.createdAfter
  split
  · exact off.elim
  · rfl

theorem created_of_performs {Result : Type} {program : AgentProgram Result}
    (performs : Performs OffProposals program)
    (inputs : Nat → Database.Input AgentAnswer MnemoError) (ledger : Ledger) :
    (program.eval exec inputs ledger).2.created = ledger.created := by
  induction performs generalizing inputs ledger with
  | done => rfl
  | fail => rfl
  | perform off _ ih =>
    apply (ih _ _ _).trans
    exact createdAfter_of_offProposals off _

theorem created_map {First Second : Type} (program : AgentProgram First) (shape : First → Second)
    (inputs : Nat → Database.Input AgentAnswer MnemoError) (ledger : Ledger) :
    ((program >>= fun value => pure (shape value)).eval exec inputs ledger).2.created =
      (program.eval exec inputs ledger).2.created := by
  induction program generalizing inputs ledger with
  | done value => rfl
  | fail error => rfl
  | perform command continuation ih => exact ih _ _ _

theorem performs_getExperiences (ids : List String) :
    Performs OffProposals (getExperiences ids) := by
  induction ids with
  | nil => exact .done
  | cons id ids ih =>
    apply Performs.bind (.call _ trivial)
    intro event
    apply ih.bind
    exact fun _ => .done

theorem performs_addExperienceEvent (agentId : String) (body : CreateExperienceRequest) :
    Performs OffProposals (addExperienceEvent agentId body) := by
  have identified : Performs OffProposals (orNewId body.id) := by
    cases body.id with
    | none => exact .call _ trivial
    | some id => exact .done
  have dated : Performs OffProposals (orNow body.createdAt) := by
    cases body.createdAt with
    | none => exact .call _ trivial
    | some instant => exact .done
  apply identified.bind
  intro id
  apply dated.bind
  intro createdAt
  apply Performs.bind (.call _ trivial)
  intro _
  apply Performs.bind (.call _ trivial)
  exact fun _ => .done

theorem performs_addAgentExperience
    (computeFisherImportance : ExperienceEvent → List ExperienceEvent → ℚ)
    (caller : Auth.CallerContext) (agentId : String) (body : CreateExperienceRequest) :
    Performs OffProposals
      (Routes.addAgentExperience computeFisherImportance caller agentId body) := by
  apply (Performs.ofExcept _).bind
  intro _
  apply (Performs.ofExcept _).bind
  intro agent
  apply (Performs.ofExcept _).bind
  intro _
  apply (Performs.ofExcept _).bind
  intro _
  apply (performs_addExperienceEvent agent body).bind
  intro event
  have listed : Performs OffProposals (listExperienceEvents agent 500) :=
    Performs.bind (.call _ trivial) performs_getExperiences
  apply listed.bind
  intro others
  apply Performs.bind (.call _ trivial)
  exact fun _ => .done

/-- The proposal of a request. -/
def proposed (agent : String) (body : CreatePromotionProposalRequest) (id : Uuid)
    (createdAt : DateTime) : PromotionProposal where
  id
  agentId := agent
  proposal := body.proposal
  candidateCore := body.candidateCore
  reason := body.reason
  riskLevel := body.riskLevel
  status := .pending
  sourceEventIds := body.sourceEventIds
  approvers := []
  approvedAt := none
  rejectedAt := none
  expiredAt := none
  createdAt

/-- What is left of the creation of a proposal when its identifier is there. -/
def storeProposal (agent : String) (body : CreatePromotionProposalRequest) (id : Uuid) :
    AgentProgram PromotionProposal := do
  let createdAt ← Redis.now
  Redis.set (.proposal id) (proposed agent body id createdAt)
  Redis.zadd (.proposals agent) id.toText (timestampMillis createdAt)
  return proposed agent body id createdAt

theorem created_storeProposal (agent : String) (body : CreatePromotionProposalRequest) (id : Uuid)
    (inputs : Nat → Database.Input AgentAnswer MnemoError) (ledger : Ledger) :
    ((storeProposal agent body id).eval exec inputs ledger).2.created =
      if (inputs 1).failure = none then
        (proposed agent body id (inputs 0).now, ledger.contents) :: ledger.created
      else ledger.created := by
  have reading : exec (.clock : AgentCommand) (inputs 0) ledger = (.ok (inputs 0).now, ledger) := by
    unfold exec
    rw [Database.exec_clock]
    rfl
  have filed (createdAt : DateTime) : Performs OffProposals
      (Redis.zadd (.proposals agent) id.toText (timestampMillis createdAt) >>= fun _ =>
        pure (proposed agent body id createdAt)) := by
    apply Performs.bind (.call _ trivial)
    exact fun _ => .done
  let created (run : Except MnemoError PromotionProposal × Ledger) := run.2.created
  apply (congrArg created (eval_agentCall_bind .clock _ inputs ledger)).trans
  rw [reading]
  apply (congrArg created
    (eval_agentCall_bind (.set (.proposal id) (proposed agent body id (inputs 0).now)) _
      (fun position => inputs (position + 1)) ledger)).trans
  cases failing : (inputs (0 + 1)).failure with
  | none =>
    rw [exec_of_failure_none failing, if_pos rfl]
    exact created_of_performs (filed _) _ _
  | some error =>
    rw [exec_of_failure rfl failing, if_neg (Option.some_ne_none error)]

/-- A proposal is stored, unless the command fails. -/
theorem created_createPromotionProposal (agent : String) (body : CreatePromotionProposalRequest)
    (inputs : Nat → Database.Input AgentAnswer MnemoError) (ledger : Ledger) :
    ∃ proposal contents, proposal.agentId = agent ∧
      proposal.sourceEventIds = body.sourceEventIds ∧ contents.docs = ledger.contents.docs ∧
      ((createPromotionProposal agent body >>= fun proposal =>
        pure (AgentResponse.proposal proposal)).eval exec inputs ledger).2.created =
          if (inputs (storePosition body)).failure = none then
            (proposal, contents) :: ledger.created
          else ledger.created := by
  suffices stored : ∃ proposal contents, proposal.agentId = agent ∧
      proposal.sourceEventIds = body.sourceEventIds ∧ contents.docs = ledger.contents.docs ∧
      ((createPromotionProposal agent body).eval exec inputs ledger).2.created =
        if (inputs (storePosition body)).failure = none then
          (proposal, contents) :: ledger.created
        else ledger.created by
    obtain ⟨proposal, contents, named, sources, docs, after⟩ := stored
    exact ⟨proposal, contents, named, sources, docs, (created_map _ _ inputs ledger).trans after⟩
  cases given : body.id with
  | some id =>
    have position : storePosition body = 1 := by simp [storePosition, given]
    have program : createPromotionProposal agent body = storeProposal agent body id := by
      unfold createPromotionProposal
      rw [given]
      rfl
    refine ⟨proposed agent body id (inputs 0).now, ledger.contents, rfl, rfl, rfl, ?_⟩
    rw [program, position]
    exact created_storeProposal agent body id inputs ledger
  | none =>
    have position : storePosition body = 2 := by simp [storePosition, given]
    have program : createPromotionProposal agent body =
        (Program.call (.freshId : AgentCommand) >>= fun id => storeProposal agent body id) := by
      unfold createPromotionProposal
      rw [given]
      rfl
    let id := Database.unused ledger.contents.issued (inputs 0).id
    have drawn : exec (.freshId : AgentCommand) (inputs 0) ledger =
        (.ok id, ⟨ledger.contents.draw id, ledger.created⟩) := by
      unfold exec
      rw [Database.exec_freshId]
      rfl
    refine ⟨proposed agent body id (inputs 1).now, ledger.contents.draw id, rfl, rfl, rfl, ?_⟩
    rw [program, position]
    let created (run : Except MnemoError PromotionProposal × Ledger) := run.2.created
    apply (congrArg created (eval_agentCall_bind .freshId _ inputs ledger)).trans
    rw [drawn]
    exact created_storeProposal agent body id _ _

/-! ## Sequences of calls -/

variable (computeFisherImportance : ExperienceEvent → List ExperienceEvent → ℚ)

theorem created_step_of_performs {call : EvidenceCall}
    (performs : Performs OffProposals (call.handle computeFisherImportance))
    (inputs : Nat → Database.Input AgentAnswer MnemoError) (ledger : Ledger) :
    (step computeFisherImportance ledger (call, inputs)).created = ledger.created :=
  created_of_performs performs inputs ledger

theorem created_propose (agentId : String) (body : CreatePromotionProposalRequest)
    (inputs : Nat → Database.Input AgentAnswer MnemoError) (ledger : Ledger) :
    (∀ agent, ¬ Accepted ledger.contents agentId body inputs agent) ∧
        (step computeFisherImportance ledger (.propose agentId body, inputs)).created =
          ledger.created ∨
      ∃ proposal contents, Accepted ledger.contents agentId body inputs proposal.agentId ∧
        proposal.sourceEventIds = body.sourceEventIds ∧ contents.docs = ledger.contents.docs ∧
          (step computeFisherImportance ledger (.propose agentId body, inputs)).created =
            (proposal, contents) :: ledger.created := by
  have discarded : (step computeFisherImportance ledger (.propose agentId body, inputs)).created =
      ((Routes.createPromotionProposal agentId body).eval exec inputs ledger).2.created :=
    congrArg Ledger.created (Program.state_bind_pure _ () inputs ledger)
  rw [discarded, createPromotionProposal_eq]
  cases checked : checkProposal agentId body with
  | error error =>
    left
    exact ⟨fun agent accepted => (nomatch checked.symm.trans accepted.checked), rfl⟩
  | ok agent =>
    by_cases found : AllFound ledger.contents body.sourceEventIds inputs
    · obtain ⟨proposal, contents, named, sources, docs, created⟩ :=
        created_createPromotionProposal agent body
          (fun position => inputs (position + body.sourceEventIds.length)) ledger
      have run := congrArg (fun run => Ledger.created run.2)
        (eval_requireSourceEvents (fun _ => createPromotionProposal agent body >>= fun proposal =>
          pure (AgentResponse.proposal proposal)) found)
      have after := run.trans created
      by_cases stored : (inputs (storePosition body + body.sourceEventIds.length)).failure = none
      · right
        rw [if_pos stored] at after
        exact ⟨proposal, contents, ⟨checked.trans (congrArg Except.ok named.symm), found, stored⟩,
          sources, docs, after⟩
      · left
        rw [if_neg stored] at after
        exact ⟨fun other accepted => stored accepted.stored, after⟩
    · left
      refine ⟨fun other accepted => found accepted.found, ?_⟩
      exact congrArg Ledger.created (eval_requireSourceEvents_missing _ found)

theorem ownEvidence_congr {first second : AgentContents} (same : first.docs = second.docs)
    (agentId : String) (eventIds : List Uuid) :
    ownEvidence first agentId eventIds = ownEvidence second agentId eventIds := by
  unfold ownEvidence
  rw [same]

/-- One call keeps every proposal backed exactly when it names enough experiences. -/
theorem allBacked_step_iff (ledger : Ledger) (call : EvidenceStep) (backed : AllBacked ledger) :
    AllBacked (step computeFisherImportance ledger call) ↔ NamesEnough ledger call := by
  obtain ⟨call, inputs⟩ := call
  have unchanged (same : (step computeFisherImportance ledger (call, inputs)).created =
      ledger.created) : AllBacked (step computeFisherImportance ledger (call, inputs)) := by
    unfold AllBacked
    rw [same]
    exact backed
  cases call with
  | experience caller agentId body =>
    have performs : Performs OffProposals
        (EvidenceCall.handle computeFisherImportance (.experience caller agentId body)) := by
      apply (performs_addAgentExperience computeFisherImportance caller agentId body).bind
      exact fun _ => .done
    exact iff_of_true (unchanged (created_step_of_performs _ performs inputs ledger)) trivial
  | decay event =>
    have performs : Performs OffProposals
        (EvidenceCall.handle computeFisherImportance (.decay event)) := .call _ trivial
    exact iff_of_true (unchanged (created_step_of_performs _ performs inputs ledger)) trivial
  | propose agentId body =>
    rcases created_propose computeFisherImportance agentId body inputs ledger with
      ⟨refused, same⟩ | ⟨proposal, contents, accepted, sources, docs, created⟩
    · exact iff_of_true (unchanged same) fun agent accepted => absurd accepted (refused agent)
    · have evidence : Backed contents proposal ↔
          3 ≤ (ownEvidence ledger.contents proposal.agentId body.sourceEventIds).length := by
        unfold Backed
        rw [sources, ownEvidence_congr docs]
      constructor
      · intro all agent other
        have named : proposal.agentId = agent :=
          Except.ok.inj (accepted.checked.symm.trans other.checked)
        have mine := all (proposal, contents) (created ▸ List.mem_cons_self)
        rw [← named]
        exact evidence.mp mine
      · intro enough creation member
        rw [created] at member
        rcases List.mem_cons.mp member with rfl | earlier
        · exact evidence.mpr (enough proposal.agentId accepted)
        · exact backed creation earlier

/-- Every proposal was backed by three experiences of its agent when it was created, exactly when
every request that passed the checks of the route named that many. -/
theorem allBacked_iff_namesEnough (contents : AgentContents) (calls : List EvidenceStep) :
    Always (step computeFisherImportance) AllBacked ⟨contents, []⟩ calls ↔
      Guarded (step computeFisherImportance) NamesEnough ⟨contents, []⟩ calls := by
  apply StateMachine.always_iff_guarded (fun _ => True)
  · exact fun _ _ _ _ => trivial
  · exact fun ledger call _ backed =>
      allBacked_step_iff computeFisherImportance ledger call backed
  · exact trivial
  · exact fun creation none => nomatch none

end Calls

/-! ## One experience of another agent -/

/-- An experience is recorded for one agent, and a proposal for another one names it three times. -/
def borrowedEvidence : List EvidenceStep :=
  [(.experience .adminBootstrap "bob"
      { id := some 5, userId := none, sessionId := none, category := "tone", signal := "brief"
        confidence := 1, weight := 1, decayHalfLifeDays := 30, evidenceEpisodeIds := []
        createdAt := none },
      fun _ => untroubled 1 0),
    (.propose "ada"
      { id := some 6, proposal := "be brief", candidateCore := .object [], reason := "asked for"
        riskLevel := "low", sourceEventIds := [5, 5, 5] },
      fun _ => untroubled 1 0)]

/-- The proposal is created although none of its evidence is an experience of its agent. -/
theorem borrowed_evidence_accepted :
    ¬ Always (step fun _ _ => 0) AllBacked ⟨noAgents, []⟩ borrowedEvidence := by
  intro always
  have backed := always.finish
  have unbacked : ((StateMachine.finish (step fun _ _ => 0) ⟨noAgents, []⟩
      borrowedEvidence).created.map fun creation =>
        (ownEvidence creation.2 creation.1.agentId creation.1.sourceEventIds).length) = [0] := by
    rfl
  obtain ⟨creation, rest⟩ := List.map_eq_singleton_iff.mp unbacked
  have enough : Backed creation.2 creation.1 := by
    apply backed
    rw [rest.1]
    exact List.mem_cons_self
  unfold Backed at enough
  omega

end Evidence
end Agent
end Mnemo
