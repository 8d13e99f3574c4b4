import Mnemo.Agent.Store
import Mnemo.Lib.Sequential

/-!
# What the operations touch

The commands that an operation on an agent can perform, whatever the replies are.
-/

namespace Mnemo
namespace Agent

open Database (Command)
open Program (Completes)

/-- The commands that append to the witness chain of an agent. -/
def AuditCommand (agentId : String) : AgentCommand → Prop
  | .zrevrange _ _ _ | .get (.auditEvent _) | .set (.auditEvent _) _ | .freshId | .clock => True
  | .zadd (.audit other) _ _ => other = agentId
  | _ => False

/-- The commands that store an identity and its snapshot. -/
def SnapshotCommand (agentId : String) : AgentCommand → Prop
  | .set (.identity other) _ | .set (.version other _) _ | .zadd (.versions other) _ _ =>
      other = agentId
  | _ => False

/-- The commands on identities. -/
def AgentCommand.onIdentity : AgentCommand → Bool
  | .get (.identity _) | .set (.identity _) _ | .del (.identity _) => true
  | _ => false

section Completes

variable {sha256Hex : String → String} {agentId : String}

theorem completes_latestAuditHash :
    Completes (AuditCommand agentId) (latestAuditHash agentId) := by
  apply Completes.bind (.call _ trivial)
  intro ids
  cases ids with
  | nil => exact .done
  | cons latestId others =>
    apply Completes.bind (.call _ trivial)
    exact fun _ => .done

theorem completes_appendIdentityAudit (action : AgentIdentityAuditAction)
    (fromVersion : Option Nat) (toVersion : Nat) (rollbackToVersion : Option Nat)
    (reason : Option String) :
    Completes (AuditCommand agentId)
      (appendIdentityAudit sha256Hex agentId action fromVersion toVersion rollbackToVersion
        reason) := by
  apply completes_latestAuditHash.bind
  intro prevHash
  apply Completes.bind (.call _ trivial)
  intro id
  apply Completes.bind (.call _ trivial)
  intro createdAt
  apply Completes.bind (.call _ trivial)
  intro _
  exact .call _ rfl

theorem completes_persistIdentitySnapshot (identity : AgentIdentityProfile) :
    Completes (SnapshotCommand agentId) (persistIdentitySnapshot agentId identity) := by
  have stores (command : AgentCommand) (kind : SnapshotCommand agentId command) :
      Completes (SnapshotCommand agentId)
        (Program.call command : AgentProgram (command.Reply AgentAnswer)) := .call _ kind
  apply (stores (.set (.identity agentId) identity) rfl).bind
  intro _
  apply (stores (.set (.version agentId identity.version) identity) rfl).bind
  intro _
  exact stores (.zadd (.versions agentId) _ _) rfl

theorem auditCommand_apart (command : AgentCommand) (audit : AuditCommand agentId command) :
    AgentCommand.onIdentity command = false := by
  unfold AuditCommand at audit
  split at audit <;> first | rfl | exact audit.elim

theorem docs_exec_of_not_onIdentity {command : AgentCommand}
    (apart : AgentCommand.onIdentity command = false)
    (input : Database.Input AgentAnswer MnemoError) (contents : AgentContents) :
    (Database.exec command input contents).2.docs (.identity agentId) =
      contents.docs (.identity agentId) := by
  unfold Database.exec
  split
  · rfl
  · cases command with
    | set key doc =>
      apply Database.Contents.docs_put_of_ne
      rintro rfl
      cases apart
    | del key =>
      apply Database.Contents.docs_remove_of_ne
      rintro rfl
      cases apart
    | _ => rfl

theorem exec_ok {command : AgentCommand} {input : Database.Input AgentAnswer MnemoError}
    (succeeds : command.fallible = true → input.failure = none) (contents : AgentContents) :
    ∃ value, (Database.exec command input contents).1 = .ok value := by
  cases command with
  | service call => exact call.elim
  | clock => exact ⟨_, congrArg Prod.fst (Database.exec_clock input)⟩
  | freshId => exact ⟨_, congrArg Prod.fst (Database.exec_freshId input)⟩
  | _ =>
    rw [Database.exec_of_failure_none (succeeds rfl)]
    exact ⟨_, rfl⟩

end Completes
end Agent
end Mnemo
