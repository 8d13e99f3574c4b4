import Mnemo.Policy.Model

/-!
# Contracts that become less strict

A request checks the contract that it asks for against the policy at one time, and changes the
policy at another; in between other requests may change it.
-/

namespace Mnemo
namespace Policy

open Auth (CallerContext)
open Program (Crew Protocol Task)
open Program.Protocol (Follows)

/-- A request that concerns the policy of a user. -/
inductive PolicyJob where
  | upsert (caller : CallerContext) (userId : Uuid) (userIdentifier : String)
      (req : UpsertUserPolicyRequest)
  | read (userId : Uuid) (userIdentifier : String)
  deriving DecidableEq

/-- What a request does. -/
def PolicyJob.program : PolicyJob → PolicyProgram UserPolicyRecord
  | .upsert caller userId userIdentifier req => upsertUserPolicy caller userId userIdentifier req
  | .read userId userIdentifier => getOrCreateUserPolicy userId userIdentifier

/-- The request comes from an administrator. -/
def PolicyJob.ByAdmin : PolicyJob → Prop
  | .upsert caller _ _ _ => caller.role = .admin
  | .read _ _ => False

/-- A request, and the policy that it has read. -/
structure PolicyKnowledge where
  job : PolicyJob
  seen : Option UserPolicyRecord

namespace PolicyKnowledge

/-- What the reply to a command adds. -/
def learn (knowledge : PolicyKnowledge) :
    PolicyCommand → Except MnemoError UserPolicyRecord → PolicyKnowledge
  | .getOrCreate _ _, .ok policy => { knowledge with seen := some policy }
  | _, _ => knowledge

/-- A contract that is asked for was checked against the policy that was read. -/
def Checked (knowledge : PolicyKnowledge) (caller : CallerContext)
    (req : UpsertUserPolicyRequest) : Prop :=
  ∀ asked, requestedStrictness req = some asked → ∃ policy, knowledge.seen = some policy ∧
    (asked < strictness policy.defaultMemoryContract → caller.role = .admin)

/-- Policies are changed on request only, after the check. -/
def Allows (knowledge : PolicyKnowledge) : PolicyCommand → Prop
  | .getOrCreate _ _ => True
  | .patch userId userIdentifier req => ∃ caller,
      knowledge.job = .upsert caller userId userIdentifier req ∧ knowledge.Checked caller req

end PolicyKnowledge

/-- The protocol of requests that concern policies. -/
def policyProtocol :
    Protocol PolicyCommand (fun _ => UserPolicyRecord) MnemoError PolicyKnowledge where
  start := ⟨.read 0 "", none⟩
  allowed := PolicyKnowledge.Allows
  expected _ _ _ := True
  next := PolicyKnowledge.learn

theorem admin_of_mayChangeContract {caller : CallerContext} {current new : MemoryContract}
    (permitted : mayChangeContract caller current new = .ok ())
    (lower : contractStrictness new < contractStrictness current) : caller.role = .admin := by
  have downgrade : isContractDowngrade current new = true := decide_eq_true lower
  unfold mayChangeContract at permitted
  rw [if_pos downgrade] at permitted
  cases required : caller.requireRole .admin with
  | ok _ => exact CallerContext.requireRole_admin_ok.mp required
  | error error =>
    rw [required] at permitted
    cases permitted

theorem follows_checkContract (caller : CallerContext) (userId : Uuid) (userIdentifier : String)
    (req : UpsertUserPolicyRequest) :
    policyProtocol.Follows (fun last outcome => outcome = .ok () →
        last.job = .upsert caller userId userIdentifier req ∧ last.Checked caller req)
      ⟨.upsert caller userId userIdentifier req, none⟩
      (checkContract caller userId userIdentifier req.defaultMemoryContract) := by
  cases asks : req.defaultMemoryContract with
  | none =>
    refine .done fun _ => ⟨rfl, fun asked requested => ?_⟩
    rw [requestedStrictness, asks] at requested
    cases requested
  | some text =>
    have allows : PolicyKnowledge.Allows ⟨.upsert caller userId userIdentifier req, none⟩
      (.getOrCreate userId userIdentifier) := trivial
    apply Follows.bind_call allows
    · intro policy _
      cases permitted : mayChangeContract caller
          (parseMemoryContractDefault policy.defaultMemoryContract)
          (parseMemoryContractDefault text) with
      | error error => exact .fail fun ends => nomatch ends
      | ok _ =>
        refine .done fun _ => ⟨rfl, fun asked requested => ⟨policy, rfl, fun lower => ?_⟩⟩
        have same : asked = strictness text := by
          rw [requestedStrictness, asks] at requested
          dsimp only at requested
          split at requested
          · cases requested
          · exact (Option.some.inj requested).symm
        rw [same] at lower
        exact admin_of_mayChangeContract permitted lower
    · exact fun _ _ ends => nomatch ends

theorem follows_program (job : PolicyJob) :
    policyProtocol.Follows (fun _ _ => True) ⟨job, none⟩ job.program := by
  cases job with
  | read userId userIdentifier =>
    have allows : PolicyKnowledge.Allows ⟨.read userId userIdentifier, none⟩
      (.getOrCreate userId userIdentifier) := trivial
    refine .perform allows fun reply _ => ?_
    cases reply with
    | ok policy => exact .done trivial
    | error error => exact .fail trivial
  | upsert caller userId userIdentifier req =>
    apply (follows_checkContract caller userId userIdentifier req).bind
    · intro middle _ described
      obtain ⟨same, checked⟩ := described rfl
      have allows : middle.Allows (.patch userId userIdentifier req) :=
        ⟨caller, same, checked⟩
      refine .perform allows fun reply _ => ?_
      cases reply with
      | ok policy => exact .done trivial
      | error error => exact .fail trivial
    · exact fun _ _ _ => trivial

/-! ## Requests that overlap -/

/-- A request with what is left of its program. -/
abbrev PolicyTask := Task PolicyCommand (fun _ => UserPolicyRecord) MnemoError PolicyJob
  PolicyKnowledge

/-- The table of policies and the requests at work on it. -/
abbrev PolicyCrew := Crew PolicyCommand (fun _ => UserPolicyRecord) MnemoError Policies PolicyJob
  PolicyKnowledge

/-- A request arrives, or takes the lock for its next command. -/
abbrev PolicyEvent := Crew.Event PolicyInput PolicyJob

/-- Requests hand on nothing. -/
def policyOrders :
    Crew.Orders PolicyCommand (fun _ => UserPolicyRecord) MnemoError PolicyJob PolicyKnowledge where
  outside _ := true
  handler job := do
    let _ ← job.program
    return []
  protocol := policyProtocol
  begins job := ⟨job, none⟩
  handsOn := id

/-- One step of the requests. -/
abbrev policyStep : PolicyCrew → PolicyEvent → PolicyCrew := Crew.step execPolicy policyOrders

/-- Requests end without handing on anything. -/
def HandsOnNothing (_ : PolicyKnowledge) : Except MnemoError (List PolicyJob) → Prop
  | .ok jobs => jobs = []
  | .error _ => True

/-- What every request knows of itself is right. -/
def KnowThemselves (_ : Policies) (tasks : List PolicyTask) : Prop :=
  ∀ task ∈ tasks, task.state.job = task.job

/-- Every request follows the protocol. -/
abbrev SoundPolicies (crew : PolicyCrew) : Prop :=
  Crew.Sound policyOrders HandsOnNothing KnowThemselves crew

/-- Any request may arrive, and any may go on. -/
def AnyPolicyEvent (_ : PolicyCrew) (_ : PolicyEvent) : Prop := True

theorem soundPolicies_step {crew : PolicyCrew} (sound : SoundPolicies crew)
    (event : PolicyEvent) : SoundPolicies (policyStep crew event) := by
  have admissible : AnyPolicyEvent crew event := trivial
  refine sound.step ?_ ?_ ?_ ?_ ?_ admissible
  · intro job
    apply (follows_program job).bind
    · exact fun _ _ _ => .done rfl
    · exact fun _ _ _ => trivial
  · exact fun state next rest handed => nomatch handed
  · intro crew job _ _ known task member
    rcases List.mem_append.mp member with old | new
    · exact known task old
    · rw [List.mem_singleton.mp new]
      rfl
  · intro crew position job command continuation state input found _ _ known
    refine ⟨trivial, fun task member => ?_⟩
    rcases List.mem_or_eq_of_mem_set member with old | rfl
    · exact known task old
    · have same : state.job = job := known _ (List.mem_of_getElem? found)
      cases command <;> exact same
  · exact fun crew position job next rest state found handed => nomatch handed

theorem soundPolicies_idle (policies : Policies) : SoundPolicies (Crew.idle policies) :=
  Crew.Sound.idle fun _ member => nomatch member

/-! ## Downgrades -/

/-- Where the event makes the default contract of a user less strict, it belongs to a request of an
administrator. -/
def ContractByAdmin (crew : PolicyCrew) (event : PolicyEvent) : Prop :=
  ∀ userId, strictnessOf (policyStep crew event).shared userId < strictnessOf crew.shared userId →
    ∃ position input task, event = .advance position input ∧ crew.tasks[position]? = some task ∧
      task.job.ByAdmin

/-- A request about to change a policy finds a contract no stricter than the one it asks for, unless
it comes from an administrator. -/
def ContractRespected (crew : PolicyCrew) : PolicyEvent → Prop
  | .advance position _ =>
      match crew.tasks[position]? with
      | some task =>
          match task.upcoming with
          | some (.patch userId _ req) => task.job.ByAdmin ∨
              ∀ asked, requestedStrictness req = some asked → strictnessOf crew.shared userId ≤ asked
          | _ => True
      | none => True
  | _ => True

/-- A request about to change a policy finds a contract no stricter than the one it has read. -/
def ContractFresh (crew : PolicyCrew) : PolicyEvent → Prop
  | .advance position _ =>
      match crew.tasks[position]? with
      | some task =>
          match task.upcoming, task.state.seen with
          | some (.patch userId _ _), some policy =>
              strictnessOf crew.shared userId ≤ strictness policy.defaultMemoryContract
          | _, _ => True
      | none => True
  | _ => True

theorem strictnessOf_exec (command : PolicyCommand) (input : PolicyInput) (policies : Policies)
    (userId : Uuid) : strictnessOf (execPolicy command input policies).2 userId =
      match command with
      | .getOrCreate _ _ => strictnessOf policies userId
      | .patch owner _ req => if userId = owner then
          (requestedStrictness req).getD (strictnessOf policies userId)
        else strictnessOf policies userId := by
  have updated (owner : Uuid) (policy : UserPolicyRecord) :
      strictnessOf (Function.update policies owner (some policy)) userId =
        if userId = owner then strictness policy.defaultMemoryContract
        else strictnessOf policies userId := by
    unfold strictnessOf
    by_cases same : userId = owner
    · subst same
      simp
    · simp [same]
  cases command with
  | getOrCreate owner userIdentifier =>
    refine (updated owner _).trans ?_
    by_cases same : userId = owner
    · subst same
      rw [if_pos rfl]
      exact strictness_policyOf policies userId userIdentifier input.createdAt
    · exact if_neg same
  | patch owner userIdentifier req =>
    refine (updated owner _).trans ?_
    by_cases same : userId = owner
    · subst same
      dsimp only
      rw [if_pos rfl, if_pos rfl]
      refine (strictness_patch _ req input.now).trans ?_
      rw [strictness_policyOf]
    · dsimp only
      rw [if_neg same, if_neg same]

theorem contractByAdmin_of_same {crew : PolicyCrew} {event : PolicyEvent}
    (same : (policyStep crew event).shared = crew.shared) : ContractByAdmin crew event := by
  intro userId lower
  rw [same] at lower
  exact absurd lower (lt_irrefl _)

theorem contractByAdmin_patch_iff {crew : PolicyCrew} {position : Nat} {input : PolicyInput}
    {task : PolicyTask} {owner : Uuid} {userIdentifier : String} {req : UpsertUserPolicyRequest}
    (found : crew.tasks[position]? = some task)
    (stored : (policyStep crew (.advance position input)).shared =
      (execPolicy (.patch owner userIdentifier req) input crew.shared).2) :
    ContractByAdmin crew (.advance position input) ↔ task.job.ByAdmin ∨
      ∀ asked, requestedStrictness req = some asked → strictnessOf crew.shared owner ≤ asked := by
  constructor
  · intro byAdmin
    by_contra neither
    obtain ⟨other, notAll⟩ := not_or.mp neither
    simp only [not_forall, not_le] at notAll
    obtain ⟨asked, requested, lower⟩ := notAll
    have lowered : strictnessOf (policyStep crew (.advance position input)).shared owner <
        strictnessOf crew.shared owner := by
      rw [stored, strictnessOf_exec]
      simpa [requested] using lower
    obtain ⟨place, reading, found', same, there, admin⟩ := byAdmin owner lowered
    obtain ⟨rfl, rfl⟩ := Crew.Event.advance.inj same
    obtain rfl : task = found' := Option.some.inj (found.symm.trans there)
    exact other admin
  · intro respected userId lower
    rw [stored, strictnessOf_exec] at lower
    dsimp only at lower
    split at lower
    · rename_i same
      subst same
      cases requested : requestedStrictness req with
      | none =>
        rw [requested] at lower
        exact absurd lower (lt_irrefl _)
      | some asked =>
        rw [requested] at lower
        rcases respected with admin | within
        · exact ⟨position, input, task, rfl, found, admin⟩
        · exact absurd lower (not_lt.mpr (within asked requested))
    · exact absurd lower (lt_irrefl _)

theorem contractByAdmin_iff (crew : PolicyCrew) (event : PolicyEvent) :
    ContractByAdmin crew event ↔ ContractRespected crew event := by
  cases event with
  | begin job => exact iff_of_true (contractByAdmin_of_same rfl) trivial
  | handOn position =>
    refine iff_of_true (contractByAdmin_of_same ?_) trivial
    unfold policyStep Crew.step
    dsimp only
    split <;> rfl
  | advance position input =>
    cases found : crew.tasks[position]? with
    | none =>
      refine iff_of_true (contractByAdmin_of_same ?_) (by simp [ContractRespected, found])
      simp [policyStep, Crew.step, found]
    | some task =>
      obtain ⟨job, program, state⟩ := task
      cases program with
      | done jobs =>
        refine iff_of_true (contractByAdmin_of_same ?_)
          (by simp [ContractRespected, found, Task.upcoming])
        simp [policyStep, Crew.step, found]
      | fail error =>
        refine iff_of_true (contractByAdmin_of_same ?_)
          (by simp [ContractRespected, found, Task.upcoming])
        simp [policyStep, Crew.step, found]
      | perform command continuation =>
        have stored : (policyStep crew (.advance position input)).shared =
            (execPolicy command input crew.shared).2 := by
          simp [policyStep, Crew.step, found]
        cases command with
        | getOrCreate owner userIdentifier =>
          refine iff_of_true (fun userId lower => ?_)
            (by simp [ContractRespected, found, Task.upcoming])
          rw [stored, strictnessOf_exec] at lower
          exact absurd lower (lt_irrefl _)
        | patch owner userIdentifier req =>
          rw [contractByAdmin_patch_iff found stored]
          simp [ContractRespected, found, Task.upcoming]

theorem respected_of_fresh {crew : PolicyCrew} (sound : SoundPolicies crew) {event : PolicyEvent}
    (fresh : ContractFresh crew event) : ContractRespected crew event := by
  cases event with
  | begin job => trivial
  | handOn position => trivial
  | advance position input =>
    cases found : crew.tasks[position]? with
    | none => simp [ContractRespected, found]
    | some task =>
      obtain ⟨job, program, state⟩ := task
      cases program with
      | done jobs => simp [ContractRespected, found, Task.upcoming]
      | fail error => simp [ContractRespected, found, Task.upcoming]
      | perform command continuation =>
        cases command with
        | getOrCreate owner userIdentifier =>
          simp [ContractRespected, found, Task.upcoming]
        | patch owner userIdentifier req =>
          have member := List.mem_of_getElem? found
          have own : state.job = job := sound.holds _ member
          cases sound.follows _ member with
          | perform allows _ =>
            obtain ⟨caller, same, checked⟩ := allows
            simp only [ContractFresh, found, Task.upcoming] at fresh
            simp only [ContractRespected, found, Task.upcoming]
            by_cases admin : caller.role = .admin
            · left
              rw [← own, same]
              exact admin
            · right
              intro asked requested
              obtain ⟨policy, seen, mayLower⟩ := checked asked requested
              rw [seen] at fresh
              exact le_trans fresh (not_lt.mp (mt mayLower admin))

end Policy
end Mnemo
