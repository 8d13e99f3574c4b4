import Mnemo.Agent.Footprint
import Mnemo.Lib.Protocol

/-!
# The history of an identity

Operations follow each other.  Those which store an identity store a snapshot of its version behind
it, from which the identity can be restored later; a branch that is created and an agent that is
registered again are stored without one.
-/

namespace Mnemo
namespace Agent
namespace History

open Database (Command)
open Program (Attended Completes Ensures Performs)
open Program.Protocol (Follows)

/-- An operation on identities. -/
inductive IdentityOperation where
  | getIdentity (agentId : String)
  | register (agentId : String) (description : Option String)
  | update (agentId : String) (core : Json)
  | rollback (agentId : String) (targetVersion : Nat) (reason : Option String)
  | delete (agentId : String)
  | createBranch (agentId : String) (request : CreateBranchRequest)
  | getBranch (agentId branchName : String)
  | updateBranch (agentId branchName : String) (core : Json)
  | mergeBranch (agentId branchName : String)
  | deleteBranch (agentId branchName : String)
  | fork (agentId : String) (request : ForkAgentRequest)

/-- The program of an operation. -/
def IdentityOperation.handle (sha256Hex : String → String) : IdentityOperation → AgentProgram Unit
  | .getIdentity agentId => do let _ ← getAgentIdentity sha256Hex agentId
  | .register agentId description => do let _ ← registerAgent sha256Hex agentId description
  | .update agentId core => do let _ ← updateAgentIdentity sha256Hex agentId core
  | .rollback agentId targetVersion reason => do
      let _ ← rollbackAgentIdentity sha256Hex agentId targetVersion reason
  | .delete agentId => deleteAgent agentId
  | .createBranch agentId request => do let _ ← createAgentBranch sha256Hex agentId request
  | .getBranch agentId branchName => do let _ ← getAgentBranch sha256Hex agentId branchName
  | .updateBranch agentId branchName core => do
      let _ ← updateAgentBranch sha256Hex agentId branchName core
  | .mergeBranch agentId branchName => do let _ ← mergeAgentBranch sha256Hex agentId branchName
  | .deleteBranch agentId branchName => deleteAgentBranch sha256Hex agentId branchName
  | .fork agentId request => do let _ ← forkAgent sha256Hex agentId request

/-! ## The protocol of operations, for the identity of one agent -/

/-- What an operation knows of the identity. -/
inductive HistoryState where
  /-- The version of the identity, when there is one. -/
  | knows (version : Option Nat)
  /-- The identity was stored, and its snapshot was not. -/
  | pending (identity : AgentIdentityProfile)

/-- The version of the stored identity. -/
def storedVersion (agentId : String) (contents : AgentContents) : Option Nat :=
  Option.map AgentIdentityProfile.version (contents.docs (.identity agentId))

section Protocol

variable (agentId : String)

/-- The state of an operation after the reply to a command. -/
def HistoryState.after : HistoryState → (command : AgentCommand) →
    Except MnemoError (command.Reply AgentAnswer) → HistoryState
  | .knows version, .set (.identity other) identity, .ok _ =>
      if other = agentId then .pending identity else .knows version
  | .knows version, .del (.identity other), .ok _ =>
      if other = agentId then .knows none else .knows version
  | .pending identity, .set (.version _ _) _, .ok _ => .knows (some identity.version)
  | state, _, _ => state

/-- The commands that leave the identity and its snapshots as they are. -/
def Leaves : AgentCommand → Prop
  | .set (.identity other) _ | .del (.identity other)
  | .set (.version other _) _ | .del (.version other _) => other ≠ agentId
  | _ => True

/-- An identity is stored with its first version or with the one that comes next, and its snapshot
behind it. -/
def HistoryState.Allows : HistoryState → AgentCommand → Prop
  | .knows version, command => Leaves agentId command ∨ command = .del (.identity agentId) ∨
      ∃ identity : AgentIdentityProfile, command = .set (.identity agentId) identity ∧
        (identity.version = 1 ∨ ∃ before, version = some before ∧ identity.version = before + 1)
  | .pending identity, command => command = .set (.identity agentId) identity ∨
      command = .set (.version agentId identity.version) identity

/-- What is read is what is known, and nothing fails before a snapshot. -/
def HistoryState.Expects : HistoryState → (command : AgentCommand) →
    Except MnemoError (command.Reply AgentAnswer) → Prop
  | .knows version, .get (.identity other), .ok stored =>
      other = agentId → Option.map AgentIdentityProfile.version stored = version
  | .pending _, _, reply => ∃ value, reply = .ok value
  | _, _, _ => True

/-- The protocol of operations. -/
def historyProtocol :
    Program.Protocol AgentCommand (·.Reply AgentAnswer) MnemoError HistoryState where
  start := .knows none
  allowed := HistoryState.Allows agentId
  expected := HistoryState.Expects agentId
  next := HistoryState.after agentId

/-- No snapshot is missing. -/
def HistoryState.Rests {α : Type} (last : HistoryState) (_ : Except MnemoError α) : Prop :=
  ∃ version, last = .knows version

/-- No snapshot is missing, and the version of an identity that is returned is known. -/
def HistoryState.Returns (owner : String) (last : HistoryState)
    (outcome : Except MnemoError AgentIdentityProfile) : Prop :=
  last.Rests outcome ∧ ∀ identity, outcome = .ok identity → owner = agentId →
    last = .knows (some identity.version)

end Protocol

section Follows

variable {sha256Hex : String → String} {agentId owner : String} {version : Option Nat}
  {command : AgentCommand}

theorem after_of_leaves (leaves : Leaves agentId command)
    (reply : Except MnemoError (command.Reply AgentAnswer)) :
    HistoryState.after agentId (.knows version) command reply = .knows version := by
  cases reply with
  | error error =>
    unfold HistoryState.after
    split <;> first | rfl | (rename_i impossible; cases impossible)
  | ok value =>
    cases command with
    | set key doc =>
      cases key with
      | identity other => exact if_neg leaves
      | _ => rfl
    | del key =>
      cases key with
      | identity other => exact if_neg leaves
      | _ => rfl
    | _ => rfl

theorem follows_of_leaves {α : Type} {program : AgentProgram α}
    (performs : Performs (Leaves agentId) program) :
    (historyProtocol agentId).Follows (fun last _ => last = .knows version) (.knows version)
      program :=
  .of_performs performs (fun _ leaves => Or.inl leaves)
    fun _ reply leaves => after_of_leaves leaves reply

theorem follows_bind_leaves {α : Type} {next : command.Reply AgentAnswer → AgentProgram α}
    {post : HistoryState → Except MnemoError α → Prop} (leaves : Leaves agentId command)
    (rest : ∀ value, HistoryState.Expects agentId (.knows version) command (.ok value) →
      (historyProtocol agentId).Follows post (.knows version) (next value))
    (fails : ∀ error, post (.knows version) (.error error)) :
    (historyProtocol agentId).Follows post (.knows version) (Program.call command >>= next) := by
  have stays (reply : Except MnemoError (command.Reply AgentAnswer)) :
      (historyProtocol agentId).next (.knows version) command reply = .knows version :=
    after_of_leaves leaves reply
  have allows : HistoryState.Allows agentId (.knows version) command := .inl leaves
  apply Follows.bind_call allows
  · intro value expected
    rw [stays]
    exact rest value expected
  · intro error _
    rw [stays]
    exact fails error

theorem leaves_of_auditCommand (command : AgentCommand) (audit : AuditCommand owner command) :
    Leaves agentId command := by
  unfold AuditCommand at audit
  split at audit <;> first | exact trivial | exact audit.elim

theorem performs_appendIdentityAudit (action : AgentIdentityAuditAction)
    (fromVersion : Option Nat) (toVersion : Nat) (rollbackToVersion : Option Nat)
    (reason : Option String) :
    Performs (Leaves agentId)
      (appendIdentityAudit sha256Hex owner action fromVersion toVersion rollbackToVersion
        reason) :=
  (completes_appendIdentityAudit _ _ _ _ _).performs.mono leaves_of_auditCommand

theorem follows_bind_performs {α β : Type} {program : AgentProgram α} {next : α → AgentProgram β}
    {post : HistoryState → Except MnemoError β → Prop}
    (performs : Performs (Leaves agentId) program)
    (rest : ∀ value, (historyProtocol agentId).Follows post (.knows version) (next value))
    (fails : ∀ error, post (.knows version) (.error error)) :
    (historyProtocol agentId).Follows post (.knows version) (program >>= next) := by
  apply (follows_of_leaves performs).bind
  · rintro last value rfl
    exact rest value
  · rintro last error rfl
    exact fails error

theorem follows_snapshot (identity : AgentIdentityProfile) :
    (historyProtocol agentId).Follows
      (fun last (_ : Except MnemoError Unit) => last = .knows (some identity.version))
      (.pending identity)
      (do
        Redis.set (.version agentId identity.version) identity
        Redis.zadd (.versions agentId) (toString identity.version) identity.version) := by
  apply Follows.bind_call
  · exact Or.inr rfl
  · exact fun _ _ => follows_of_leaves (.call _ trivial)
  · rintro error ⟨value, impossible⟩
    cases impossible

theorem follows_persistIdentitySnapshot_pending (identity : AgentIdentityProfile) :
    (historyProtocol agentId).Follows (fun last _ => last = .knows (some identity.version))
      (.pending identity) (persistIdentitySnapshot agentId identity) := by
  apply Follows.bind_call
  · exact Or.inl rfl
  · exact fun _ _ => follows_snapshot identity
  · rintro error ⟨value, impossible⟩
    cases impossible

theorem performs_persistIdentitySnapshot (different : owner ≠ agentId)
    (identity : AgentIdentityProfile) :
    Performs (Leaves agentId) (persistIdentitySnapshot owner identity) := by
  apply (completes_persistIdentitySnapshot identity).performs.mono
  intro command stores
  unfold SnapshotCommand at stores
  split at stores
  · rw [← stores] at different
    exact different
  · rw [← stores] at different
    exact different
  · exact trivial
  · exact stores.elim

theorem follows_persistIdentitySnapshot {identity : AgentIdentityProfile}
    (comes : owner = agentId → identity.version = 1 ∨
      ∃ before, version = some before ∧ identity.version = before + 1) :
    (historyProtocol agentId).Follows
      (fun last outcome => last.Rests outcome ∧ ∀ value, outcome = .ok value →
        owner = agentId → last = .knows (some identity.version))
      (.knows version) (persistIdentitySnapshot owner identity) := by
  rcases eq_or_ne owner agentId with rfl | different
  · apply Follows.bind_moving
    · exact Or.inr (Or.inr ⟨identity, rfl, comes rfl⟩)
    · exact fun _ => if_pos rfl
    · intro _ _
      apply (follows_snapshot identity).mono
      rintro last outcome rfl
      exact ⟨⟨_, rfl⟩, fun _ _ _ => rfl⟩
    · exact fun error _ => ⟨⟨version, rfl⟩, fun _ impossible => nomatch impossible⟩
  · apply (follows_of_leaves (performs_persistIdentitySnapshot different identity)).mono
    rintro last outcome rfl
    exact ⟨⟨version, rfl⟩, fun _ _ same => absurd same different⟩

theorem HistoryState.rests {α : Type} (version : Option Nat) (outcome : Except MnemoError α) :
    (HistoryState.knows version).Rests outcome := ⟨version, rfl⟩

theorem HistoryState.returns_error (version : Option Nat) (error : MnemoError) :
    HistoryState.Returns agentId owner (.knows version) (.error error) :=
  ⟨⟨version, rfl⟩, fun _ impossible => nomatch impossible⟩

theorem follows_getAgentIdentity :
    (historyProtocol agentId).Follows (HistoryState.Returns agentId owner) (.knows version)
      (getAgentIdentity sha256Hex owner) := by
  apply follows_bind_leaves
  · trivial
  · intro stored known
    cases stored with
    | some identity =>
      refine .done ⟨⟨version, rfl⟩, ?_⟩
      rintro _ ⟨⟩ same
      rw [← known same]
      rfl
    | none =>
      apply follows_bind_leaves
      · trivial
      · intro now _
        apply (follows_persistIdentitySnapshot fun _ => .inl rfl).bind
        · rintro last _ ⟨⟨reached, rfl⟩, stored⟩
          apply follows_bind_performs (performs_appendIdentityAudit _ _ _ _ _)
          · intro _
            apply follows_bind_leaves
            · trivial
            · intro _ _
              refine .done ⟨⟨reached, rfl⟩, ?_⟩
              rintro _ ⟨⟩ same
              exact stored () rfl same
            · exact HistoryState.returns_error reached
          · exact HistoryState.returns_error reached
        · rintro last error ⟨⟨reached, rfl⟩, _⟩
          exact HistoryState.returns_error reached error
      · exact HistoryState.returns_error version
  · exact HistoryState.returns_error version

theorem follows_write {identity : AgentIdentityProfile} {before : Nat}
    (known : owner = agentId → version = some before) (next : identity.version = before + 1)
    (action : AgentIdentityAuditAction) (fromVersion rollbackToVersion : Option Nat)
    (reason : Option String) :
    (historyProtocol agentId).Follows (HistoryState.Returns agentId owner) (.knows version)
      (do
        persistIdentitySnapshot owner identity
        appendIdentityAudit sha256Hex owner action fromVersion identity.version
          rollbackToVersion reason
        return identity) := by
  apply (follows_persistIdentitySnapshot fun same => .inr ⟨before, known same, next⟩).bind
  · rintro last _ ⟨⟨reached, rfl⟩, stored⟩
    apply follows_bind_performs (performs_appendIdentityAudit _ _ _ _ _)
    · intro _
      refine .done ⟨⟨reached, rfl⟩, ?_⟩
      rintro _ ⟨⟩ same
      exact stored () rfl same
    · exact HistoryState.returns_error reached
  · rintro last error ⟨⟨reached, rfl⟩, _⟩
    exact HistoryState.returns_error reached error

theorem knows_of_returns {identity : AgentIdentityProfile} {reached : Option Nat}
    (returns : HistoryState.Returns agentId owner (.knows reached) (.ok identity))
    (same : owner = agentId) : reached = some identity.version :=
  HistoryState.knows.inj (returns.2 identity rfl same)

theorem follows_updateAgentIdentity (core : Json) :
    (historyProtocol agentId).Follows (HistoryState.Returns agentId owner) (.knows version)
      (updateAgentIdentity sha256Hex owner core) := by
  apply follows_getAgentIdentity.bind
  · intro last identity returns
    obtain ⟨reached, rfl⟩ := returns.1
    apply follows_bind_leaves
    · trivial
    · intro now _
      exact follows_write (knows_of_returns returns) rfl _ _ _ _
    · exact HistoryState.returns_error reached
  · rintro last error ⟨⟨reached, rfl⟩, _⟩
    exact HistoryState.returns_error reached error

theorem performs_getRequired (key : AgentKey) (notFound : MnemoError) :
    Performs (Leaves agentId) (Redis.getRequired key notFound) := by
  apply Performs.bind (.call _ trivial)
  intro stored
  cases stored with
  | none => exact .fail
  | some doc => exact .done

theorem follows_rollbackAgentIdentity (targetVersion : Nat) (reason : Option String) :
    (historyProtocol agentId).Follows (HistoryState.Returns agentId owner) (.knows version)
      (rollbackAgentIdentity sha256Hex owner targetVersion reason) := by
  apply follows_bind_performs (performs_getRequired _ _)
  · intro target
    apply follows_getAgentIdentity.bind
    · intro last identity returns
      obtain ⟨reached, rfl⟩ := returns.1
      apply follows_bind_leaves
      · trivial
      · intro now _
        exact follows_write (knows_of_returns returns) rfl _ _ _ _
      · exact HistoryState.returns_error reached
    · rintro last error ⟨⟨reached, rfl⟩, _⟩
      exact HistoryState.returns_error reached error
  · exact HistoryState.returns_error version

theorem follows_of_leaves_rests {α : Type} {program : AgentProgram α}
    (performs : Performs (Leaves agentId) program) :
    (historyProtocol agentId).Follows HistoryState.Rests (.knows version) program := by
  apply (follows_of_leaves performs).mono
  rintro last outcome rfl
  exact HistoryState.rests version outcome

theorem performs_setIdentity (different : owner ≠ agentId) (identity : AgentIdentityProfile) :
    Performs (Leaves agentId) (Redis.set (.identity owner) identity) :=
  .call _ different

/-! ### Registrations and branches -/

theorem follows_registerAgent (description : Option String)
    (unregistered : owner = agentId → description.isSome → version = none) :
    (historyProtocol agentId).Follows HistoryState.Rests (.knows version)
      (registerAgent sha256Hex owner description) := by
  apply follows_bind_leaves
  · trivial
  · intro stored known
    cases stored with
    | some existing =>
      cases description with
      | none =>
        apply follows_of_leaves_rests
        apply Performs.bind (.call _ trivial)
        exact fun _ => .done
      | some text =>
        have different : owner ≠ agentId := by
          intro same
          have missing := (known same).trans (unregistered same rfl)
          cases missing
        apply follows_of_leaves_rests
        apply Performs.bind (.call _ trivial)
        intro now
        apply (performs_setIdentity different _).bind
        intro _
        apply Performs.bind (.call _ trivial)
        exact fun _ => .done
    | none =>
      apply follows_bind_leaves
      · trivial
      · intro now _
        apply (follows_persistIdentitySnapshot fun _ => .inl rfl).bind
        · rintro last _ ⟨⟨reached, rfl⟩, _⟩
          apply follows_of_leaves_rests
          apply (performs_appendIdentityAudit _ _ _ _ _).bind
          intro _
          apply Performs.bind (.call _ trivial)
          exact fun _ => .done
        · exact fun last error rests => rests.1
      · exact fun error => HistoryState.rests version (.error error)
  · exact fun error => HistoryState.rests version (.error error)

theorem follows_createAgentBranch (request : CreateBranchRequest)
    (other : validateBranchName request.branchName = .ok () →
      branchAgentId owner request.branchName ≠ agentId) :
    (historyProtocol agentId).Follows HistoryState.Rests (.knows version)
      (createAgentBranch sha256Hex owner request) := by
  unfold createAgentBranch
  cases valid : validateBranchName request.branchName with
  | error error => exact .fail (HistoryState.rests version (.error error))
  | ok value =>
    apply follows_bind_leaves
    · trivial
    · intro existing _
      cases existing with
      | some metadata => exact .fail (HistoryState.rests version _)
      | none =>
        apply follows_getAgentIdentity.bind
        · rintro last parent ⟨⟨reached, rfl⟩, _⟩
          apply follows_of_leaves_rests
          apply Performs.bind (.call _ trivial)
          intro updatedAt
          apply (performs_setIdentity (other valid) _).bind
          intro _
          apply Performs.bind (.call _ trivial)
          intro createdAt
          apply Performs.bind (.call _ trivial)
          intro _
          apply Performs.bind (.call _ trivial)
          intro _
          apply (performs_appendIdentityAudit _ _ _ _ _).bind
          exact fun _ => .done
        · exact fun last error returns => returns.1
    · exact fun error => HistoryState.rests version (.error error)

theorem performs_getBranchMetadata (branchName : String) :
    Performs (Leaves agentId) (getBranchMetadata owner branchName) :=
  performs_getRequired _ _

theorem performs_requireUnmerged (metadata : BranchMetadata) (branchName : String) :
    Performs (Leaves agentId) (requireUnmerged metadata branchName) := by
  unfold requireUnmerged
  split
  · exact .fail
  · exact .done

theorem follows_getAgentBranch (branchName : String) :
    (historyProtocol agentId).Follows HistoryState.Rests (.knows version)
      (getAgentBranch sha256Hex owner branchName) := by
  apply follows_bind_performs (performs_getBranchMetadata _)
  · intro metadata
    apply follows_getAgentIdentity.bind
    · rintro last identity ⟨⟨reached, rfl⟩, _⟩
      exact .done (HistoryState.rests reached _)
    · exact fun last error returns => returns.1
  · exact fun error => HistoryState.rests version (.error error)

theorem follows_updateAgentBranch (branchName : String) (core : Json) :
    (historyProtocol agentId).Follows HistoryState.Rests (.knows version)
      (updateAgentBranch sha256Hex owner branchName core) := by
  apply follows_bind_performs (performs_getBranchMetadata _)
  · intro metadata
    apply follows_bind_performs (performs_requireUnmerged _ _)
    · intro _
      apply (follows_updateAgentIdentity core).mono
      exact fun last outcome returns => returns.1
    · exact fun error => HistoryState.rests version (.error error)
  · exact fun error => HistoryState.rests version (.error error)

theorem follows_mergeAgentBranch (branchName : String) :
    (historyProtocol agentId).Follows HistoryState.Rests (.knows version)
      (mergeAgentBranch sha256Hex owner branchName) := by
  apply follows_bind_performs (performs_getBranchMetadata _)
  · intro metadata
    apply follows_bind_performs (performs_requireUnmerged _ _)
    · intro _
      apply follows_getAgentIdentity.bind
      · rintro last branch ⟨⟨reached, rfl⟩, _⟩
        apply follows_getAgentIdentity.bind
        · rintro last parent ⟨⟨reached, rfl⟩, _⟩
          apply (follows_updateAgentIdentity branch.core).bind
          · rintro last merged ⟨⟨reached, rfl⟩, _⟩
            apply follows_of_leaves_rests
            apply Performs.bind (.call _ trivial)
            intro _
            apply (performs_appendIdentityAudit _ _ _ _ _).bind
            exact fun _ => .done
          · exact fun last error returns => returns.1
        · exact fun last error returns => returns.1
      · exact fun last error returns => returns.1
    · exact fun error => HistoryState.rests version (.error error)
  · exact fun error => HistoryState.rests version (.error error)

theorem performs_zrem (index : AgentIndex) (member : String) :
    Performs (Leaves agentId) (Redis.zrem index member) :=
  (Performs.call _ trivial).bind fun _ => .done

theorem follows_bind_del {α : Type} {next : Unit → AgentProgram α}
    {post : HistoryState → Except MnemoError α → Prop}
    (rest : ∀ reached, (historyProtocol agentId).Follows post (.knows reached) (next ()))
    (fails : ∀ error, post (.knows version) (.error error)) :
    (historyProtocol agentId).Follows post (.knows version)
      (Redis.del (.identity owner) >>= next) := by
  rcases eq_or_ne owner agentId with rfl | different
  · apply Follows.bind_moving
    · exact Or.inr (Or.inl rfl)
    · exact fun _ => if_pos rfl
    · exact fun _ _ => rest none
    · exact fun error _ => fails error
  · apply follows_bind_leaves
    · exact different
    · exact fun _ _ => rest version
    · exact fails

theorem follows_deleteAgentBranch (branchName : String) :
    (historyProtocol agentId).Follows HistoryState.Rests (.knows version)
      (deleteAgentBranch sha256Hex owner branchName) := by
  apply follows_bind_performs (performs_getBranchMetadata _)
  · intro metadata
    apply follows_bind_del
    · intro reached
      apply follows_bind_leaves
      · trivial
      · intro _ _
        apply follows_bind_performs (performs_zrem _ _)
        · intro _
          apply follows_getAgentIdentity.bind
          · rintro last parent ⟨⟨reached, rfl⟩, _⟩
            exact follows_of_leaves_rests (performs_appendIdentityAudit _ _ _ _ _)
          · exact fun last error returns => returns.1
        · exact fun error => HistoryState.rests reached (.error error)
      · exact fun error => HistoryState.rests reached (.error error)
    · exact fun error => HistoryState.rests version (.error error)
  · exact fun error => HistoryState.rests version (.error error)

theorem follows_deleteAgent :
    (historyProtocol agentId).Follows HistoryState.Rests (.knows version) (deleteAgent owner) := by
  apply follows_bind_performs (performs_getRequired _ _)
  · intro _
    apply follows_bind_del
    · intro reached
      apply follows_of_leaves_rests
      apply (performs_zrem _ _).bind
      intro _
      apply (Performs.attempt (.call _ trivial)).bind
      intro _
      apply (Performs.attempt (.call _ trivial)).bind
      exact fun _ => .done
    · exact fun error => HistoryState.rests version (.error error)
  · exact fun error => HistoryState.rests version (.error error)

/-! ### Forks -/

theorem performs_getExperiences (ids : List String) :
    Performs (Leaves agentId) (getExperiences ids) := by
  induction ids with
  | nil => exact .done
  | cons id ids ih =>
    apply Performs.bind (.call _ trivial)
    intro event
    apply ih.bind
    exact fun _ => .done

theorem performs_listExperienceEvents (limit : Nat) :
    Performs (Leaves agentId) (listExperienceEvents owner limit) := by
  apply Performs.bind (.call _ trivial)
  exact fun ids => performs_getExperiences ids

theorem performs_transferExperiences (events : List ExperienceEvent) :
    Performs (Leaves agentId) (transferExperiences owner events) := by
  induction events with
  | nil => exact .done
  | cons event events ih =>
    apply Performs.bind (.call _ trivial)
    intro id
    apply Performs.bind (.call _ trivial)
    intro _
    apply Performs.bind (.call _ trivial)
    intro _
    apply ih.bind
    exact fun _ => .done

theorem performs_appendForkAudit (description : Option String) :
    Performs (Leaves agentId) (appendForkAudit sha256Hex owner description) := by
  apply Performs.bind (.call _ trivial)
  intro id
  apply Performs.bind (.call _ trivial)
  intro createdAt
  apply Performs.bind (.call _ trivial)
  exact fun _ => .call _ trivial

theorem follows_forkAgent (request : ForkAgentRequest) :
    (historyProtocol agentId).Follows HistoryState.Rests (.knows version)
      (forkAgent sha256Hex owner request) := by
  have transferred (choose : List ExperienceEvent → List ExperienceEvent)
      (reached : Option Nat) (source : AgentIdentityProfile) (identity : AgentIdentityProfile) :
      (historyProtocol agentId).Follows HistoryState.Rests (.knows reached)
        (do
          let sourceEvents ← listExperienceEvents owner 10000
          let transferred ← transferExperiences request.newAgentId (choose sourceEvents)
          let forkedAt ← Redis.now
          let lineage : ForkLineage :=
            { parentAgentId := owner
              parentVersion := source.version
              forkedAt
              description := request.description
              experienceEventsTransferred := transferred
              experienceFilter := request.experienceFilter }
          Redis.set (.lineage request.newAgentId) lineage
          appendForkAudit sha256Hex request.newAgentId request.description
          appendIdentityAudit sha256Hex owner .forked (some source.version) source.version none
            (some ("forked_to:" ++ request.newAgentId))
          return ({ newAgent := identity, lineage } : ForkResult)) := by
    apply follows_of_leaves_rests
    apply (performs_listExperienceEvents _).bind
    intro sourceEvents
    apply (performs_transferExperiences _).bind
    intro transferred
    apply Performs.bind (.call _ trivial)
    intro forkedAt
    apply Performs.bind (.call _ trivial)
    intro _
    apply (performs_appendForkAudit _).bind
    intro _
    apply (performs_appendIdentityAudit _ _ _ _ _).bind
    exact fun _ => .done
  unfold forkAgent
  cases valid : validateForkAgentId request.newAgentId with
  | error error => exact .fail (HistoryState.rests version (.error error))
  | ok value =>
    apply follows_bind_leaves
    · trivial
    · intro existing _
      cases existing with
      | some identity => exact .fail (HistoryState.rests version _)
      | none =>
        apply follows_getAgentIdentity.bind
        · rintro last source ⟨⟨reached, rfl⟩, _⟩
          apply follows_bind_leaves
          · trivial
          · intro updatedAt _
            rcases eq_or_ne request.newAgentId agentId with same | different
            · subst same
              apply Follows.bind_moving
              · exact Or.inr (Or.inr ⟨_, rfl, .inl rfl⟩)
              · exact fun _ => if_pos rfl
              · intro _ _
                apply (follows_persistIdentitySnapshot_pending _).bind
                · rintro last value rfl
                  exact transferred _ _ source _
                · rintro last error rfl
                  exact HistoryState.rests _ (.error error)
              · exact fun error _ => HistoryState.rests reached (.error error)
            · apply follows_bind_performs (performs_setIdentity different _)
              · intro _
                apply follows_bind_performs (performs_persistIdentitySnapshot different _)
                · exact fun _ => transferred _ reached source _
                · exact fun error => HistoryState.rests reached (.error error)
              · exact fun error => HistoryState.rests reached (.error error)
          · exact fun error => HistoryState.rests reached (.error error)
        · exact fun last error returns => returns.1
    · exact fun error => HistoryState.rests version (.error error)

end Follows

/-! ## Runs -/

/-- Note the identities of an agent by their versions. -/
def recordHistory (agentId : String) (history : Nat → Option AgentIdentityProfile)
    (_ : HistoryState) : (command : AgentCommand) →
      Except MnemoError (command.Reply AgentAnswer) → Nat → Option AgentIdentityProfile
  | .set (.identity other) (identity : AgentIdentityProfile), .ok _ =>
      if other = agentId then Function.update history identity.version (some identity) else history
  | _, _ => history

/-- A worker who performs operations. -/
abbrev OperationWorker :=
  Program.Worker AgentCommand (·.Reply AgentAnswer) MnemoError AgentContents Unit

/-- The worker under observation, with the identities that one agent has had. -/
abbrev AttendedOperations :=
  Attended AgentCommand (·.Reply AgentAnswer) MnemoError AgentContents Unit HistoryState
    (Nat → Option AgentIdentityProfile)

/-- An event of a run of operations. -/
abbrev OperationEvent :=
  Program.Worker.Event (Database.Input AgentAnswer MnemoError) IdentityOperation

section Runs

variable (sha256Hex : String → String) (agentId : String)

/-- One step of the observed worker. -/
def historyStep : AttendedOperations → OperationEvent → AttendedOperations :=
  Attended.step Database.exec (IdentityOperation.handle sha256Hex) (historyProtocol agentId)
    (fun contents => .knows (storedVersion agentId contents)) (recordHistory agentId)

/-- Before the first operation. -/
def freshWorker : AttendedOperations :=
  { worker := { shared := noAgents, current := .done () }, state := .knows none
    account := fun _ => none }

/-- The operation stores the identity of the agent without a snapshot: it creates the branch which
the identifier denotes, or registers the agent again with a description. -/
def StoresBare (contents : AgentContents) : IdentityOperation → Prop
  | .createBranch owner request =>
      validateBranchName request.branchName = .ok () ∧
        branchAgentId owner request.branchName = agentId
  | .register owner description =>
      owner = agentId ∧ description.isSome ∧ (storedVersion agentId contents).isSome
  | _ => False

/-- No operation stores the identity without a snapshot, and nothing fails between the two. -/
def SnapshotsKept (attended : AttendedOperations) : OperationEvent → Prop
  | .begin operation =>
      attended.AtRest → ¬ StoresBare agentId attended.worker.shared operation
  | .advance input =>
      match attended.state with
      | .pending _ => input.failure = none
      | .knows _ => True

/-- The history of the agent is complete: there are snapshots of all versions up to the current one,
which is the current identity, and a rollback restores what the agent was at a version. -/
structure HistoryComplete (contents : AgentContents)
    (history : Nat → Option AgentIdentityProfile) : Prop where
  covered : ∀ identity : AgentIdentityProfile, contents.docs (.identity agentId) = some identity →
    ∀ version, 1 ≤ version → version ≤ identity.version →
      ∃ snapshot : AgentIdentityProfile, contents.docs (.version agentId version) = some snapshot
  current : ∀ identity : AgentIdentityProfile, contents.docs (.identity agentId) = some identity →
    contents.docs (.version agentId identity.version) = some identity
  restores : ∀ version past, history version = some past → ∀ reason inputs,
    (∀ position, (inputs position).failure = none) → ∃ rolled : AgentIdentityProfile,
      ((rollbackAgentIdentity sha256Hex agentId version reason).eval Database.exec inputs
        contents).1 = .ok rolled ∧
      ((rollbackAgentIdentity sha256Hex agentId version reason).eval Database.exec inputs
        contents).2.docs (.identity agentId) = some rolled ∧
      rolled.core = past.core

/-! ### What is kept -/

/-- The version up to which there are snapshots. -/
def HistoryState.reach : HistoryState → Nat
  | .knows version => version.getD 0
  | .pending identity => identity.version - 1

/-- What operations know is so, and the identities that the agent has had are their snapshots,
unless the latest snapshot is missing. -/
structure HistoryKept (contents : AgentContents) (state : HistoryState)
    (history : Nat → Option AgentIdentityProfile) : Prop where
  known : ∀ version, state = .knows version → storedVersion agentId contents = version ∧
    ∀ identity : AgentIdentityProfile, contents.docs (.identity agentId) = some identity →
      history identity.version = some identity
  stored : ∀ identity, state = .pending identity →
    contents.docs (.identity agentId) = some identity ∧
      history identity.version = some identity ∧ 1 ≤ identity.version
  covered : ∀ version, 1 ≤ version → version ≤ state.reach →
    ∃ snapshot : AgentIdentityProfile, contents.docs (.version agentId version) = some snapshot
  kept : ∀ version past, history version = some past → past.version = version ∧
    (contents.docs (.version agentId version) = some past ∨ state = .pending past)

variable {sha256Hex agentId} {contents after : AgentContents} {state : HistoryState}
  {history : Nat → Option AgentIdentityProfile} {version : Option Nat}

theorem HistoryKept.congr (keeps : HistoryKept agentId contents state history)
    (identity : after.docs (.identity agentId) = contents.docs (.identity agentId))
    (snapshots : ∀ version,
      after.docs (.version agentId version) = contents.docs (.version agentId version)) :
    HistoryKept agentId after state history := by
  obtain ⟨known, stored, covered, kept⟩ := keeps
  constructor
  · unfold storedVersion
    rw [identity]
    exact known
  · rw [identity]
    exact stored
  · intro version positive reached
    rw [snapshots]
    exact covered version positive reached
  · intro version past had
    rw [snapshots]
    exact kept version past had

theorem HistoryKept.leave (keeps : HistoryKept agentId contents state history)
    {command : AgentCommand} (leaves : Leaves agentId command)
    (input : Database.Input AgentAnswer MnemoError) :
    HistoryKept agentId (Database.exec command input contents).2 state history := by
  unfold Database.exec
  split
  · exact keeps
  · cases command with
    | set key doc =>
      apply keeps.congr
      · apply Database.Contents.docs_put_of_ne
        rintro rfl
        exact leaves rfl
      · intro version
        apply Database.Contents.docs_put_of_ne
        rintro rfl
        exact leaves rfl
    | del key =>
      apply keeps.congr
      · apply Database.Contents.docs_remove_of_ne
        rintro rfl
        exact leaves rfl
      · intro version
        apply Database.Contents.docs_remove_of_ne
        rintro rfl
        exact leaves rfl
    | _ => exact keeps.congr rfl fun _ => rfl

theorem recordHistory_of_leaves {command : AgentCommand} (leaves : Leaves agentId command)
    (reply : Except MnemoError (command.Reply AgentAnswer)) :
    recordHistory agentId history state command reply = history := by
  unfold recordHistory
  split
  · exact if_neg leaves
  · rfl

theorem recordHistory_error (command : AgentCommand) (error : MnemoError) :
    recordHistory agentId history state command (.error error) = history := by
  unfold recordHistory
  split
  · rename_i impossible
    cases impossible
  · rfl

theorem after_error (command : AgentCommand) (error : MnemoError) :
    HistoryState.after agentId state command (.error error) = state := by
  unfold HistoryState.after
  split <;> first | rfl | (rename_i impossible; cases impossible)

theorem HistoryKept.delete (keeps : HistoryKept agentId contents (.knows version) history) :
    HistoryKept agentId (contents.remove (.identity agentId)) (.knows none) history := by
  constructor
  · rintro _ ⟨⟩
    have gone := Database.Contents.docs_remove_self contents (.identity agentId)
    refine ⟨?_, fun identity found => ?_⟩
    · unfold storedVersion
      rw [gone]
      rfl
    · rw [gone] at found
      cases found
  · rintro _ ⟨⟩
  · intro version positive reached
    exact absurd (positive.trans reached) (by decide)
  · intro version past had
    obtain ⟨same, found | impossible⟩ := keeps.kept version past had
    · refine ⟨same, .inl ?_⟩
      rw [Database.Contents.docs_remove_of_ne _ (by simp)]
      exact found
    · cases impossible

theorem HistoryKept.store (keeps : HistoryKept agentId contents state history)
    {identity : AgentIdentityProfile} (positive : 1 ≤ identity.version)
    (next : identity.version - 1 ≤ state.reach)
    (again : ∀ other, state = .pending other → identity = other) :
    HistoryKept agentId (contents.put (.identity agentId) identity) (.pending identity)
      (Function.update history identity.version (some identity)) := by
  have snapshots (version : Nat) :
      (contents.put (.identity agentId) identity).docs (.version agentId version) =
        contents.docs (.version agentId version) :=
    Database.Contents.docs_put_of_ne _ (by simp) _
  constructor
  · rintro _ ⟨⟩
  · rintro _ ⟨⟩
    refine ⟨Database.Contents.docs_put_self _ _ _, ?_, positive⟩
    rw [Function.update_self]
  · intro version first reached
    rw [snapshots]
    exact keeps.covered version first (reached.trans next)
  · intro version past had
    rw [snapshots]
    rcases eq_or_ne version identity.version with rfl | different
    · rw [Function.update_self] at had
      obtain rfl := Option.some.inj had
      exact ⟨rfl, .inr rfl⟩
    · rw [Function.update_of_ne different] at had
      obtain ⟨same, found | pending⟩ := keeps.kept version past had
      · exact ⟨same, .inl found⟩
      · obtain rfl := again past pending
        exact absurd same.symm different

/-- The snapshot of the stored identity is stored. -/
theorem HistoryKept.snapshot {identity : AgentIdentityProfile}
    (keeps : HistoryKept agentId contents (.pending identity) history) :
    HistoryKept agentId (contents.put (.version agentId identity.version) identity)
      (.knows (some identity.version)) history := by
  obtain ⟨found, had, positive⟩ := keeps.stored identity rfl
  have current : (contents.put (.version agentId identity.version) identity).docs
      (.identity agentId) = some identity :=
    (Database.Contents.docs_put_of_ne _ (by simp) _).trans found
  have mine : (contents.put (.version agentId identity.version) identity).docs
      (.version agentId identity.version) = some identity :=
    Database.Contents.docs_put_self _ _ _
  have others (version : Nat) (different : version ≠ identity.version) :
      (contents.put (.version agentId identity.version) identity).docs
        (.version agentId version) = contents.docs (.version agentId version) :=
    Database.Contents.docs_put_of_ne _ (by simpa using different) _
  constructor
  · rintro _ ⟨⟩
    refine ⟨?_, fun other same => ?_⟩
    · unfold storedVersion
      rw [current]
      rfl
    · obtain rfl := Option.some.inj (current.symm.trans same)
      exact had
  · rintro _ ⟨⟩
  · intro version first reached
    rcases eq_or_ne version identity.version with rfl | different
    · exact ⟨identity, mine⟩
    · rw [others version different]
      apply keeps.covered version first
      have below : version ≤ identity.version := reached
      exact Nat.le_sub_one_of_lt (lt_of_le_of_ne below different)
  · intro version past before
    obtain ⟨same, snapshot | pending⟩ := keeps.kept version past before
    · refine ⟨same, .inl ?_⟩
      rcases eq_or_ne version identity.version with rfl | different
      · rw [had] at before
        obtain rfl := Option.some.inj before
        exact mine
      · rw [others version different]
        exact snapshot
    · obtain rfl := HistoryState.pending.inj pending
      subst same
      exact ⟨rfl, .inl mine⟩

theorem HistoryKept.of_eq (keeps : HistoryKept agentId contents state history)
    {other : HistoryState} {noted : Nat → Option AgentIdentityProfile} (sameState : other = state)
    (sameHistory : noted = history) : HistoryKept agentId contents other noted := by
  subst sameState sameHistory
  exact keeps

theorem HistoryKept.expects (keeps : HistoryKept agentId contents (.knows version) history)
    (command : AgentCommand) (input : Database.Input AgentAnswer MnemoError) :
    (HistoryState.knows version).Expects agentId command
      (Database.exec command input contents).1 := by
  cases command with
  | get key =>
    cases key with
    | identity other =>
      cases failing : input.failure with
      | some error =>
        rw [Database.exec_of_failure rfl failing]
        trivial
      | none =>
        rw [Database.exec_of_failure_none failing]
        rintro rfl
        exact (keeps.known version rfl).1
    | _ => trivial
  | _ => trivial

/-- Every command of an operation keeps the history, if nothing fails before a snapshot. -/
theorem HistoryKept.perform {attended : AttendedOperations} {command : AgentCommand}
    {input : Database.Input AgentAnswer MnemoError}
    (keeps : HistoryKept agentId attended.worker.shared attended.state attended.account)
    (allows : attended.state.Allows agentId command)
    (calm : SnapshotsKept agentId attended (.advance input)) :
    attended.state.Expects agentId command
        (Database.exec command input attended.worker.shared).1 ∧
      HistoryKept agentId (Database.exec command input attended.worker.shared).2
        (attended.state.after agentId command
          (Database.exec command input attended.worker.shared).1)
        (recordHistory agentId attended.account attended.state command
          (Database.exec command input attended.worker.shared).1) := by
  obtain ⟨⟨contents, current⟩, state, history⟩ := attended
  dsimp only at keeps allows calm ⊢
  cases state with
  | knows version =>
    rcases allows with leaves | rfl | ⟨identity, rfl, comes⟩
    · rw [after_of_leaves leaves, recordHistory_of_leaves leaves]
      exact ⟨keeps.expects command input, keeps.leave leaves input⟩
    · refine ⟨trivial, ?_⟩
      cases failing : input.failure with
      | some error =>
        rw [Database.exec_of_failure rfl failing, after_error, recordHistory_error]
        exact keeps
      | none =>
        rw [Database.exec_of_failure_none failing]
        exact keeps.delete.of_eq (if_pos rfl) rfl
    · refine ⟨trivial, ?_⟩
      cases failing : input.failure with
      | some error =>
        rw [Database.exec_of_failure rfl failing, after_error, recordHistory_error]
        exact keeps
      | none =>
        rw [Database.exec_of_failure_none failing]
        apply (keeps.store _ _ _).of_eq (if_pos rfl) (if_pos rfl)
        · rcases comes with first | ⟨before, _, next⟩ <;> omega
        · rcases comes with first | ⟨before, rfl, next⟩
          · rw [first]
            exact Nat.zero_le _
          · rw [next]
            exact le_rfl
        · exact fun other impossible => nomatch impossible
  | pending identity =>
    simp only [SnapshotsKept] at calm
    rcases allows with rfl | rfl
    · rw [Database.exec_of_failure_none calm]
      refine ⟨⟨_, rfl⟩, ?_⟩
      obtain ⟨_, _, positive⟩ := keeps.stored identity rfl
      apply (keeps.store positive le_rfl _).of_eq rfl (if_pos rfl)
      exact fun other same => HistoryState.pending.inj same
    · rw [Database.exec_of_failure_none calm]
      exact ⟨⟨_, rfl⟩, keeps.snapshot⟩

/-! ### Rollbacks -/

theorem completes_getAgentIdentity :
    Completes (fun _ => True) (getAgentIdentity sha256Hex agentId) := by
  apply Completes.bind (.call _ trivial)
  intro stored
  cases stored with
  | some identity => exact .done
  | none =>
    apply Completes.bind (.call _ trivial)
    intro now
    apply ((completes_persistIdentitySnapshot _).mono fun _ _ => trivial).bind
    intro _
    apply ((completes_appendIdentityAudit _ _ _ _ _).mono fun _ _ => trivial).bind
    intro _
    apply Completes.bind (.call _ trivial)
    exact fun _ => .done

theorem ensures_value {α : Type} {program : AgentProgram α}
    (completes : Completes (fun _ => True) program) :
    Ensures Database.exec (·.failure = none) (fun _ _ => True)
      (fun outcome _ => ∃ value, outcome = .ok value) program contents := by
  let related (_ _ : AgentContents) : Prop := True
  have reflexive (state : AgentContents) : related state state := trivial
  have ends : Ensures Database.exec (·.failure = none) (fun _ _ => True)
      (fun outcome final => (∃ value, outcome = .ok value) ∧ related contents final) program
      contents := by
    apply completes.ensures reflexive (fun _ _ _ => trivial)
    · exact fun _ _ state _ calm => exec_ok (fun _ => calm) state
    · exact fun _ _ _ _ _ _ => trivial
  apply ends.mono
  exact fun _ _ described => described.1

theorem ensures_apart {α : Type} {program : AgentProgram α}
    (completes : Completes (fun command => AgentCommand.onIdentity command = false) program) :
    Ensures Database.exec (·.failure = none) (fun _ _ => True)
      (fun outcome final => (∃ value, outcome = .ok value) ∧
        final.docs (.identity agentId) = contents.docs (.identity agentId))
      program contents := by
  let related (first last : AgentContents) : Prop :=
    last.docs (.identity agentId) = first.docs (.identity agentId)
  have reflexive (state : AgentContents) : related state state := rfl
  apply completes.ensures reflexive (fun _ _ _ => trivial)
  · exact fun _ _ state _ calm => exec_ok (fun _ => calm) state
  · exact fun _ input _ last apart same =>
      (docs_exec_of_not_onIdentity apart input last).trans same

theorem not_faulty_calm :
    ¬ Database.Faulty fun input : Database.Input AgentAnswer MnemoError =>
      input.failure = none := by
  rintro ⟨input, calm, fails⟩
  simp [calm] at fails

theorem ensures_persistIdentitySnapshot (identity : AgentIdentityProfile) :
    Ensures Database.exec (·.failure = none) (fun _ _ => True)
      (fun outcome final => (∃ value, outcome = .ok value) ∧
        final.docs (.identity agentId) = some identity)
      (persistIdentitySnapshot agentId identity) contents := by
  have snapshot : Completes (fun command => AgentCommand.onIdentity command = false)
      (do
        Redis.set (.version agentId identity.version) identity
        Redis.zadd (.versions agentId) (toString identity.version) identity.version) := by
    have stores (command : AgentCommand) (apart : AgentCommand.onIdentity command = false) :
        Completes (fun command => AgentCommand.onIdentity command = false)
          (Program.call command : AgentProgram (command.Reply AgentAnswer)) := .call _ apart
    apply (stores (.set (.version agentId identity.version) identity) rfl).bind
    exact fun _ => stores (.zadd (.versions agentId) _ _) rfl
  apply Database.bind_set trivial
  · apply (ensures_apart snapshot).mono
    rintro outcome final ⟨ends, same⟩
    exact ⟨ends, same.trans (Database.Contents.docs_put_self _ _ _)⟩
  · exact fun error faulty => absurd faulty not_faulty_calm

theorem rollback_restores {target : AgentIdentityProfile} {targetVersion : Nat}
    (found : contents.docs (.version agentId targetVersion) = some target)
    (reason : Option String) :
    Ensures Database.exec (·.failure = none) (fun _ _ => True)
      (fun outcome final => ∃ rolled : AgentIdentityProfile, outcome = .ok rolled ∧
        final.docs (.identity agentId) = some rolled ∧ rolled.core = target.core)
      (rollbackAgentIdentity sha256Hex agentId targetVersion reason) contents := by
  have reads : Database.ReadsAs (·.failure = none) (fun _ _ => True) target
      (Redis.getRequired (.version agentId targetVersion)
        (.notFound "AgentIdentityVersion" (agentId ++ ":" ++ toString targetVersion)))
      contents := by
    have read : Database.ReadsAs (·.failure = none) (fun _ _ => True)
        (contents.docs (.version agentId targetVersion))
        (Redis.get (.version agentId targetVersion)) contents :=
      Database.readsAs_get (AgentKey.version agentId targetVersion) trivial
    apply read.andThen
    rw [found]
    exact .done target
  apply reads.bind
  · apply (ensures_value completes_getAgentIdentity).bind
    · intro current middle _
      apply Database.bind_clock trivial
      intro now
      apply (ensures_persistIdentitySnapshot _).bind
      · rintro _ stored ⟨_, holds⟩
        apply (ensures_apart
          ((completes_appendIdentityAudit _ _ _ _ _).mono auditCommand_apart)).bind
        · rintro _ final ⟨_, same⟩
          exact .done ⟨_, rfl, same.trans holds, rfl⟩
        · rintro error final ⟨⟨value, impossible⟩, _⟩
          cases impossible
      · rintro error final ⟨⟨value, impossible⟩, _⟩
        cases impossible
    · rintro error final ⟨value, impossible⟩
      cases impossible
  · exact fun error faulty => absurd faulty not_faulty_calm

/-! ### Every run -/

theorem IdentityOperation.follows {operation : IdentityOperation}
    (snapshots : ¬ StoresBare agentId contents operation) :
    (historyProtocol agentId).Follows HistoryState.Rests
      (.knows (storedVersion agentId contents)) (operation.handle sha256Hex) := by
  have dropped {α : Type} {program : AgentProgram α}
      (follows : (historyProtocol agentId).Follows HistoryState.Rests
        (.knows (storedVersion agentId contents)) program) :
      (historyProtocol agentId).Follows HistoryState.Rests
        (.knows (storedVersion agentId contents)) (program >>= fun _ => pure ()) := by
    apply follows.bind
    · exact fun last value rests => .done rests
    · exact fun last error rests => rests
  have returned {owner : String} {program : AgentProgram AgentIdentityProfile}
      (follows : (historyProtocol agentId).Follows (HistoryState.Returns agentId owner)
        (.knows (storedVersion agentId contents)) program) :
      (historyProtocol agentId).Follows HistoryState.Rests
        (.knows (storedVersion agentId contents)) (program >>= fun _ => pure ()) :=
    dropped (follows.mono fun last outcome returns => returns.1)
  cases operation with
  | getIdentity owner => exact returned follows_getAgentIdentity
  | register owner description =>
    apply dropped (follows_registerAgent description _)
    intro same described
    by_contra existing
    exact snapshots ⟨same, described, Option.isSome_iff_ne_none.mpr existing⟩
  | update owner core => exact returned (follows_updateAgentIdentity core)
  | rollback owner targetVersion reason =>
    exact returned (follows_rollbackAgentIdentity targetVersion reason)
  | delete owner => exact follows_deleteAgent
  | createBranch owner request =>
    apply dropped (follows_createAgentBranch request _)
    exact fun valid same => snapshots ⟨valid, same⟩
  | getBranch owner branchName => exact dropped (follows_getAgentBranch branchName)
  | updateBranch owner branchName core => exact dropped (follows_updateAgentBranch branchName core)
  | mergeBranch owner branchName => exact dropped (follows_mergeAgentBranch branchName)
  | deleteBranch owner branchName => exact follows_deleteAgentBranch branchName
  | fork owner request => exact dropped (follows_forkAgent request)

theorem HistoryKept.begins {last : Option Nat}
    (keeps : HistoryKept agentId contents (.knows last) history) :
    HistoryKept agentId contents (.knows (storedVersion agentId contents)) history := by
  rw [(keeps.known last rfl).1]
  exact keeps

theorem HistoryKept.complete (keeps : HistoryKept agentId contents (.knows version) history) :
    HistoryComplete sha256Hex agentId contents history := by
  obtain ⟨stored, had⟩ := keeps.known version rfl
  have snapshot {version : Nat} {past : AgentIdentityProfile} (was : history version = some past) :
      contents.docs (.version agentId version) = some past := by
    obtain ⟨_, found | impossible⟩ := keeps.kept version past was
    · exact found
    · cases impossible
  constructor
  · intro identity found version first reached
    apply keeps.covered version first
    rw [← stored, HistoryState.reach, storedVersion, found]
    exact reached
  · intro identity found
    exact snapshot (had identity found)
  · intro version past was reason inputs calm
    exact (rollback_restores (snapshot was) reason).eval calm

theorem historyKept_noAgents :
    HistoryKept agentId noAgents (.knows none) fun _ => none := by
  constructor
  · rintro _ ⟨⟩
    exact ⟨rfl, fun _ impossible => nomatch impossible⟩
  · exact fun _ impossible => nomatch impossible
  · intro version first reached
    exact absurd (first.trans reached) (by decide)
  · exact fun _ _ impossible => nomatch impossible

theorem knows_of_atRest {attended : AttendedOperations}
    (sound : Attended.Sound (historyProtocol agentId) (HistoryKept agentId) HistoryState.Rests
      attended) (rest : attended.AtRest) : ∃ version, attended.state = .knows version := by
  obtain ⟨⟨contents, current⟩, state, history⟩ := attended
  have follows := sound.follows
  dsimp only at follows ⊢
  cases follows with
  | done rests => exact rests
  | fail rests => exact rests
  | perform allows continues => exact absurd rfl (rest _ _)

/-- Between the operations of every run in which snapshots are kept, the history of the agent is
complete. -/
theorem history_complete {events : List OperationEvent}
    (keeps : StateMachine.Guarded (historyStep sha256Hex agentId) (SnapshotsKept agentId)
      freshWorker events) :
    StateMachine.Always (historyStep sha256Hex agentId)
      (fun attended => attended.AtRest →
        HistoryComplete sha256Hex agentId attended.worker.shared attended.account)
      freshWorker events := by
  have sound : StateMachine.Always (historyStep sha256Hex agentId)
      (Attended.Sound (historyProtocol agentId) (HistoryKept agentId) HistoryState.Rests)
      freshWorker events := by
    apply Attended.always_sound _ _ ⟨historyKept_noAgents, .done ⟨none, rfl⟩⟩ keeps
    · intro attended operation sound rest snapshots
      obtain ⟨version, knows⟩ := knows_of_atRest sound rest
      have holds := sound.holds
      rw [knows] at holds
      exact ⟨holds.begins, IdentityOperation.follows (snapshots rest)⟩
    · exact fun attended command continuation input sound running allows calm =>
        sound.holds.perform allows calm
  apply sound.mono
  intro attended sound rest
  obtain ⟨version, knows⟩ := knows_of_atRest sound rest
  have holds := sound.holds
  rw [knows] at holds
  exact holds.complete

end Runs

/-- An agent is registered, updated and rolled back. -/
def registeredAgent : List OperationEvent :=
  .begin (.register "helper" (some "first")) :: List.replicate 11 (.advance (untroubled 1 0)) ++
    .begin (.update "helper" (.object [])) :: List.replicate 11 (.advance (untroubled 2 0)) ++
    .begin (.rollback "helper" 1 none) :: List.replicate 12 (.advance (untroubled 3 0))

theorem history_complete_registeredAgent :
    StateMachine.Always (historyStep id "helper")
      (fun attended => attended.AtRest →
        HistoryComplete id "helper" attended.worker.shared attended.account)
      freshWorker registeredAgent := by
  apply history_complete
  repeat' apply And.intro
  all_goals
    first
    | exact trivial
    | exact rfl
    | exact fun _ stored => stored
    | exact fun _ stored => nomatch stored.2.2

/-- A branch is created. -/
def createdBranch : List OperationEvent :=
  .begin (.createBranch "helper"
      { branchName := "warmer", description := none, coreOverride := none }) ::
    List.replicate 24 (.advance (untroubled 1 0))

/-- A branch that was created has no snapshots. -/
theorem created_branch_has_no_history :
    ¬ ∀ (sha256Hex : String → String) (agentId : String) (events : List OperationEvent),
      (∀ input, .advance input ∈ events → input.failure = none) →
      StateMachine.Always (historyStep sha256Hex agentId)
        (fun attended => attended.AtRest →
          HistoryComplete sha256Hex agentId attended.worker.shared attended.account)
        freshWorker events := by
  intro complete
  have always := complete id "helper:branch:warmer" createdBranch ?_
  · have final := always.finish fun _ _ impossible => nomatch impossible
    obtain ⟨snapshot, found⟩ := final.covered _ rfl 1 le_rfl le_rfl
    cases found
  · intro input performed
    simp only [createdBranch, List.mem_cons, List.mem_replicate, reduceCtorEq, false_or,
      Program.Worker.Event.advance.injEq] at performed
    obtain ⟨-, rfl⟩ := performed
    rfl

end History
end Agent
end Mnemo
