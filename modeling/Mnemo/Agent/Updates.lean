import Mnemo.Agent.Footprint
import Mnemo.Lib.Protocol

/-!
# Concurrent updates of one identity

An update reads the identity, and later writes it with the next version; a rollback does the same
with the core of a snapshot.  Versions count the successful calls as long as no call writes over an
identity that it has not read.
-/

namespace Mnemo
namespace Agent
namespace Updates

open Database (Command)
open Program (Completes Observed Server)
open Program.Protocol (Follows)

/-- A call that gives an agent a new version of its identity. -/
inductive IdentityCall where
  | update (core : Json)
  | rollback (targetVersion : Nat) (reason : Option String)

/-- The program of a call. -/
def IdentityCall.handle (sha256Hex : String → String) (agentId : String) :
    IdentityCall → AgentProgram AgentIdentityProfile
  | .update core => updateAgentIdentity sha256Hex agentId core
  | .rollback targetVersion reason =>
      rollbackAgentIdentity sha256Hex agentId targetVersion reason

/-- The version of the stored identity; an agent without one is at its first version. -/
def currentVersion (agentId : String) (contents : AgentContents) : Nat :=
  (Option.map AgentIdentityProfile.version (contents.docs (.identity agentId))).getD 1

/-! ## The protocol of a call -/

/-- How far a call has come. -/
inductive UpdateState where
  | idle
  /-- The identity was read at a version; when it was missing the first version is created. -/
  | based (version : Nat) (missing : Bool)
  /-- The identity was written. -/
  | wrote (version : Nat)
  deriving DecidableEq

/-- The state of a call after the reply to a command. -/
def UpdateState.after : UpdateState → (command : AgentCommand) →
    Except MnemoError (command.Reply AgentAnswer) → UpdateState
  | .idle, .get (.identity _), .ok stored =>
      match (stored : Option AgentIdentityProfile) with
      | some identity => .based identity.version false
      | none => .based 1 true
  | .based version true, .set (.identity _) _, .ok _ => .based version false
  | .based version false, .set (.identity _) _, .ok _ => .wrote (version + 1)
  | state, _, _ => state

/-- The commands that store an identity. -/
def AgentCommand.storesIdentity : AgentCommand → Bool
  | .set (.identity _) _ => true
  | _ => false

/-- An identity is read once, and written with the version that comes next. -/
def UpdateState.Allows (agentId : String) : UpdateState → AgentCommand → Prop
  | .idle, command => AgentCommand.onIdentity command = true → command = .get (.identity agentId)
  | .based version missing, command => AgentCommand.onIdentity command = true →
      ∃ identity : AgentIdentityProfile, command = .set (.identity agentId) identity ∧
        identity.version = if missing then version else version + 1
  | .wrote _, command => AgentCommand.onIdentity command = false

/-- The protocol of calls on one agent; what follows the write does not fail. -/
def updateProtocol (agentId : String) :
    Program.Protocol AgentCommand (·.Reply AgentAnswer) MnemoError UpdateState where
  start := .idle
  allowed := UpdateState.Allows agentId
  expected state _ reply := (∃ version, state = .wrote version) → ∃ value, reply = .ok value
  next := UpdateState.after

/-- A call returns the version that it wrote, and no error once it has written. -/
def UpdateState.Ended (state : UpdateState) : Except MnemoError AgentIdentityProfile → Prop
  | .ok identity => state = .wrote identity.version
  | .error _ => ∀ version, state ≠ .wrote version

section Follows

variable {sha256Hex : String → String} {agentId : String}

theorem UpdateState.allows_of_not_onIdentity (state : UpdateState) {command : AgentCommand}
    (apart : AgentCommand.onIdentity command = false) : state.Allows agentId command := by
  cases state with
  | wrote version => exact apart
  | _ =>
    intro touches
    rw [apart] at touches
    cases touches

theorem UpdateState.after_of_not_onIdentity (state : UpdateState) {command : AgentCommand}
    (apart : AgentCommand.onIdentity command = false)
    (reply : Except MnemoError (command.Reply AgentAnswer)) :
    state.after command reply = state := by
  unfold UpdateState.after
  split <;> first | rfl | cases apart

/-- A part of a call ends in a state; when it fails, the call has not written. -/
def UpdateState.Reaches {α : Type} (state last : UpdateState) :
    Except MnemoError α → Prop
  | .ok _ => last = state
  | .error _ => ∀ version, last ≠ .wrote version

theorem follows_of_apart {α : Type} {program : AgentProgram α}
    (completes : Completes (fun command => AgentCommand.onIdentity command = false) program)
    (state : UpdateState) :
    (updateProtocol agentId).Follows state.Reaches state program := by
  apply Follows.of_completes completes
  · exact fun command apart => state.allows_of_not_onIdentity apart
  · exact fun command value apart => state.after_of_not_onIdentity apart (.ok value)
  · exact fun value => rfl
  · intro command error other apart expected version written
    have same := state.after_of_not_onIdentity apart (.error error)
    obtain ⟨value, impossible⟩ := expected ⟨version, same.symm.trans written⟩
    cases impossible

theorem follows_appendIdentityAudit (owner : String) (action : AgentIdentityAuditAction)
    (fromVersion : Option Nat) (toVersion : Nat) (rollbackToVersion : Option Nat)
    (reason : Option String) (state : UpdateState) :
    (updateProtocol agentId).Follows state.Reaches state
      (appendIdentityAudit sha256Hex owner action fromVersion toVersion rollbackToVersion
        reason) :=
  follows_of_apart ((completes_appendIdentityAudit _ _ _ _ _).mono auditCommand_apart) state

/-- The state in which a call has persisted an identity. -/
def UpdateState.persisted (version : Nat) (missing : Bool) : UpdateState :=
  if missing then .based version false else .wrote (version + 1)

theorem follows_persistIdentitySnapshot {version : Nat} {missing : Bool}
    {identity : AgentIdentityProfile}
    (next : identity.version = if missing then version else version + 1) :
    (updateProtocol agentId).Follows (UpdateState.persisted version missing).Reaches
      (.based version missing) (persistIdentitySnapshot agentId identity) := by
  apply Follows.bind_call
  · exact fun _ => ⟨identity, rfl, next⟩
  · intro reply _
    have snapshot : Completes (fun command => AgentCommand.onIdentity command = false)
        (do
          Redis.set (.version agentId identity.version) identity
          Redis.zadd (.versions agentId) (toString identity.version) identity.version) := by
      apply Completes.bind
      · exact .call _ rfl
      · exact fun _ => .call _ rfl
    have rest : (updateProtocol agentId).Follows (UpdateState.persisted version missing).Reaches
        (.persisted version missing) _ := follows_of_apart snapshot _
    cases missing with
    | true => exact rest
    | false => exact rest
  · intro error _
    cases missing <;> exact fun written impossible => nomatch impossible

theorem follows_getAgentIdentity :
    (updateProtocol agentId).Follows
      (fun last outcome => match outcome with
        | .ok identity => last = .based identity.version false
        | .error _ => ∀ written, last ≠ .wrote written)
      .idle (getAgentIdentity sha256Hex agentId) := by
  apply Follows.bind_call
  · exact fun _ => rfl
  · intro stored _
    cases stored with
    | some identity => exact .done rfl
    | none =>
      apply Follows.bind_call
      · exact UpdateState.allows_of_not_onIdentity (.based 1 true) rfl
      · intro now _
        apply (follows_persistIdentitySnapshot rfl).bind
        · rintro middle value rfl
          apply (follows_appendIdentityAudit _ _ _ _ _ _ _).bind
          · rintro last value rfl
            apply (follows_of_apart (.call _ rfl) (.based 1 false)).bind
            · rintro last value rfl
              exact .done rfl
            · exact fun last error unwritten => unwritten
          · exact fun last error unwritten => unwritten
        · exact fun last error unwritten => unwritten
      · exact fun error _ written impossible => nomatch impossible
  · exact fun error _ written impossible => nomatch impossible

theorem follows_write {version : Nat} {identity : AgentIdentityProfile}
    (next : identity.version = version + 1) (action : AgentIdentityAuditAction)
    (fromVersion rollbackToVersion : Option Nat) (reason : Option String) :
    (updateProtocol agentId).Follows UpdateState.Ended (.based version false)
      (do
        persistIdentitySnapshot agentId identity
        appendIdentityAudit sha256Hex agentId action fromVersion identity.version
          rollbackToVersion reason
        return identity) := by
  apply (follows_persistIdentitySnapshot next).bind
  · rintro middle value rfl
    apply (follows_appendIdentityAudit _ _ _ _ _ _ _).bind
    · rintro last value rfl
      refine .done ?_
      rw [UpdateState.Ended, next]
      rfl
    · exact fun last error unwritten => unwritten
  · exact fun last error unwritten => unwritten

theorem follows_getSnapshot (version : Nat) (notFound : MnemoError) :
    (updateProtocol agentId).Follows (fun last _ => last = .idle) .idle
      (Redis.getRequired (.version agentId version) notFound) := by
  apply Follows.bind_call
  · exact UpdateState.allows_of_not_onIdentity .idle rfl
  · intro snapshot _
    cases snapshot with
    | some identity => exact .done rfl
    | none => exact .fail rfl
  · exact fun _ _ => rfl

theorem IdentityCall.follows (call : IdentityCall) :
    (updateProtocol agentId).Follows UpdateState.Ended .idle (call.handle sha256Hex agentId) := by
  cases call with
  | update core =>
    apply follows_getAgentIdentity.bind
    · rintro middle identity rfl
      apply Follows.bind_call
      · exact UpdateState.allows_of_not_onIdentity (.based identity.version false) rfl
      · intro now _
        exact follows_write rfl _ _ _ _
      · exact fun error _ written impossible => nomatch impossible
    · exact fun last error unwritten => unwritten
  | rollback targetVersion reason =>
    apply (follows_getSnapshot _ _).bind
    · rintro middle target rfl
      apply follows_getAgentIdentity.bind
      · rintro middle identity rfl
        apply Follows.bind_call
        · exact UpdateState.allows_of_not_onIdentity (.based identity.version false) rfl
        · intro now _
          exact follows_write rfl _ _ _ _
        · exact fun error _ written impossible => nomatch impossible
      · exact fun last error unwritten => unwritten
    · rintro last error rfl written impossible
      cases impossible

end Follows

/-! ## Calls in turn -/

/-- Note which calls another one has overtaken since they read the identity. -/
def watchOvertaken (overtaken : Nat → Bool) (thread : Nat) (_ : UpdateState) :
    (command : AgentCommand) → Database.Input AgentAnswer MnemoError →
      Except MnemoError (command.Reply AgentAnswer) → Nat → Bool
  | .get (.identity _), _, .ok _ => Program.Overtaken.look overtaken thread
  | .set (.identity _) _, _, .ok _ => Program.Overtaken.change overtaken thread
  | _, _, _ => overtaken

/-- A server of calls on one agent. -/
abbrev IdentityServer :=
  Server AgentCommand (·.Reply AgentAnswer) MnemoError AgentContents IdentityCall
    AgentIdentityProfile

/-- A server of calls under observation. -/
abbrev ObservedUpdates :=
  Observed AgentCommand (·.Reply AgentAnswer) MnemoError AgentContents IdentityCall
    AgentIdentityProfile UpdateState (Nat → Bool)

/-- An event of a run of calls. -/
abbrev UpdateEvent := Program.Event (Database.Input AgentAnswer MnemoError) IdentityCall

section Runs

variable (sha256Hex : String → String) (agentId : String)

/-- One step of the observed server. -/
def updateStep : ObservedUpdates → UpdateEvent → ObservedUpdates :=
  Observed.step Database.exec (IdentityCall.handle sha256Hex agentId) (updateProtocol agentId)
    watchOvertaken

/-- An identity is written only if no other call has written it since it was read, and a call that
has written it is not cut off by a failure. -/
def WritesInTurn (observed : ObservedUpdates) : UpdateEvent → Prop
  | .arrive _ _ => True
  | .advance thread input =>
      match observed.server.threads thread with
      | some (_, .perform command _) =>
          (AgentCommand.storesIdentity command = true → input.failure = none →
            observed.account thread = false) ∧
          ((∃ version, observed.locals thread = .wrote version) → command.fallible = true →
            input.failure = none)
      | _ => True

/-- The call on a thread has returned an identity of this version. -/
def Returned (server : IdentityServer) (thread version : Nat) : Prop :=
  ∃ call identity, server.threads thread = some (call, .done identity) ∧
    identity.version = version

/-- No call is under way. -/
def AllEnded (server : IdentityServer) : Prop :=
  ∀ thread call command continuation,
    server.threads thread ≠ some (call, .perform command continuation)

/-- Successful calls return distinct versions, and when all calls have ended the version of the
identity counts them. -/
structure Linearized (initial : Nat) (server : IdentityServer) : Prop where
  distinct : ∀ thread other version, Returned server thread version →
    Returned server other version → thread = other
  counted : AllEnded server → currentVersion agentId server.shared =
    initial + Set.ncard {thread | ∃ version, Returned server thread version}

/-- Calls know the current version unless they were overtaken, and the version counts the calls that
have written. -/
structure CountsWrites (initial : Nat) (contents : AgentContents) (locals : Nat → UpdateState)
    (overtaken : Nat → Bool) : Prop where
  reads : ∀ thread version missing, locals thread = .based version missing →
    overtaken thread = false → version = currentVersion agentId contents ∧
      (missing = true → contents.docs (.identity agentId) = none)
  counts : ∃ writers : List Nat, writers.Nodup ∧
    (∀ thread, thread ∈ writers ↔ ∃ version, locals thread = .wrote version) ∧
    currentVersion agentId contents = initial + writers.length
  below : ∀ thread version, locals thread = .wrote version →
    version ≤ currentVersion agentId contents
  distinct : ∀ thread other version, locals thread = .wrote version →
    locals other = .wrote version → thread = other

variable {sha256Hex agentId} {initial : Nat} {contents after : AgentContents}
  {locals : Nat → UpdateState} {overtaken : Nat → Bool} {thread : Nat}

theorem CountsWrites.congr (sound : CountsWrites agentId initial contents locals overtaken)
    (same : after.docs (.identity agentId) = contents.docs (.identity agentId)) :
    CountsWrites agentId initial after locals overtaken := by
  obtain ⟨reads, counts, below, distinct⟩ := sound
  have version : currentVersion agentId after = currentVersion agentId contents := by
    unfold currentVersion
    rw [same]
  constructor
  · rw [version, same]
    exact reads
  · rw [version]
    exact counts
  · rw [version]
    exact below
  · exact distinct

theorem CountsWrites.move (sound : CountsWrites agentId initial contents locals overtaken)
    {state : UpdateState} {next : Nat → Bool}
    (unwritten : ∀ version, locals thread ≠ .wrote version)
    (still : ∀ version, state ≠ .wrote version)
    (same : currentVersion agentId after = currentVersion agentId contents)
    (docs : ∀ other, other ≠ thread → next other = false →
      overtaken other = false ∧
        after.docs (.identity agentId) = contents.docs (.identity agentId))
    (reads : ∀ version missing, state = .based version missing → next thread = false →
      version = currentVersion agentId contents ∧
        (missing = true → after.docs (.identity agentId) = none)) :
    CountsWrites agentId initial after (Function.update locals thread state) next := by
  have writes (other version : Nat) : Function.update locals thread state other = .wrote version ↔
      locals other = .wrote version := by
    rcases eq_or_ne other thread with rfl | different
    · rw [Function.update_self]
      exact iff_of_false (still version) (unwritten version)
    · rw [Function.update_of_ne different]
  constructor
  · intro other version missing based current
    rcases eq_or_ne other thread with rfl | different
    · rw [Function.update_self] at based
      rw [same]
      exact reads version missing based current
    · rw [Function.update_of_ne different] at based
      obtain ⟨before, docs_same⟩ := docs other different current
      rw [same, docs_same]
      exact sound.reads other version missing based before
  · obtain ⟨writers, nodup, members, total⟩ := sound.counts
    exact ⟨writers, nodup, by simpa only [writes] using members, same.trans total⟩
  · intro other version wrote
    rw [same]
    exact sound.below other version ((writes other version).mp wrote)
  · intro first second version one two
    exact sound.distinct first second version ((writes _ _).mp one) ((writes _ _).mp two)

/-- A call that was not overtaken writes the next version. -/
theorem CountsWrites.write (sound : CountsWrites agentId initial contents locals overtaken)
    {version : Nat} (based : locals thread = .based version false)
    (current : overtaken thread = false)
    (written : currentVersion agentId after = version + 1) :
    CountsWrites agentId initial after
      (Function.update locals thread (.wrote (version + 1)))
      (Program.Overtaken.change overtaken thread) := by
  obtain ⟨rfl, _⟩ := sound.reads thread version false based current
  constructor
  · intro other version missing read now
    rcases eq_or_ne other thread with rfl | different
    · rw [Function.update_self] at read
      cases read
    · rw [Program.Overtaken.change_of_ne different] at now
      cases now
  · obtain ⟨writers, nodup, members, total⟩ := sound.counts
    refine ⟨thread :: writers, List.nodup_cons.mpr ⟨?_, nodup⟩, fun other => ?_, ?_⟩
    · rw [members, based]
      rintro ⟨version, impossible⟩
      cases impossible
    · rcases eq_or_ne other thread with rfl | different
      · simp
      · rw [Function.update_of_ne different, List.mem_cons, members]
        exact or_iff_right different
    · rw [written, total, List.length_cons, Nat.add_assoc]
  · intro other version wrote
    rw [written]
    rcases eq_or_ne other thread with rfl | different
    · rw [Function.update_self] at wrote
      obtain rfl := UpdateState.wrote.inj wrote
      exact le_rfl
    · rw [Function.update_of_ne different] at wrote
      exact Nat.le_succ_of_le (sound.below other version wrote)
  · -- what was written before is below the new version
    have fresh (other : Nat) (earlier : locals other = .wrote (currentVersion agentId contents + 1)) :
        False := by
      have low := sound.below other _ earlier
      omega
    intro first second version one two
    rcases eq_or_ne first thread with rfl | first_other
    · rcases eq_or_ne second first with rfl | second_other
      · rfl
      · rw [Function.update_self] at one
        obtain rfl := UpdateState.wrote.inj one
        rw [Function.update_of_ne second_other] at two
        exact (fresh second two).elim
    · rw [Function.update_of_ne first_other] at one
      rcases eq_or_ne second thread with rfl | second_other
      · rw [Function.update_self] at two
        obtain rfl := UpdateState.wrote.inj two
        exact (fresh first one).elim
      · rw [Function.update_of_ne second_other] at two
        exact sound.distinct first second version one two

theorem watchOvertaken_of_not_onIdentity {state : UpdateState} {command : AgentCommand}
    (apart : AgentCommand.onIdentity command = false)
    {input : Database.Input AgentAnswer MnemoError}
    (reply : Except MnemoError (command.Reply AgentAnswer)) :
    watchOvertaken overtaken thread state command input reply = overtaken := by
  unfold watchOvertaken
  split <;> first | rfl | cases apart

theorem UpdateState.after_error (state : UpdateState) (command : AgentCommand)
    (error : MnemoError) : state.after command (.error error) = state := by
  unfold UpdateState.after
  split <;> first | rfl | rename_i impossible; cases impossible

theorem watchOvertaken_error (state : UpdateState) (command : AgentCommand)
    (input : Database.Input AgentAnswer MnemoError) (error : MnemoError) :
    watchOvertaken overtaken thread state command input (.error error) = overtaken := by
  unfold watchOvertaken
  split <;> first | rfl | rename_i impossible; cases impossible

theorem fallible_of_onIdentity {command : AgentCommand}
    (touches : AgentCommand.onIdentity command = true) : command.fallible = true := by
  cases command <;> first | rfl | cases touches

theorem currentVersion_put (identity : AgentIdentityProfile) :
    currentVersion agentId (contents.put (.identity agentId) identity) = identity.version :=
  congrArg
    (fun stored : Option AgentIdentityProfile =>
      (stored.map AgentIdentityProfile.version).getD 1)
    (Database.Contents.docs_put_self contents (.identity agentId) identity)

/-- Every command of a call keeps the count, if identities are written in turn. -/
theorem CountsWrites.perform {observed : ObservedUpdates}
    (sound : CountsWrites agentId initial observed.server.shared observed.locals observed.account)
    {call : IdentityCall} {command : AgentCommand}
    {continuation : Except MnemoError (command.Reply AgentAnswer) →
      AgentProgram AgentIdentityProfile}
    {input : Database.Input AgentAnswer MnemoError}
    (running : observed.server.threads thread = some (call, .perform command continuation))
    (allows : (observed.locals thread).Allows agentId command)
    (turn : WritesInTurn observed (.advance thread input)) :
    CountsWrites agentId initial (Database.exec command input observed.server.shared).2
      (Function.update observed.locals thread ((observed.locals thread).after command
        (Database.exec command input observed.server.shared).1))
      (watchOvertaken observed.account thread (observed.locals thread) command input
        (Database.exec command input observed.server.shared).1) := by
  obtain ⟨⟨contents, threads⟩, locals, overtaken⟩ := observed
  simp only [WritesInTurn] at running turn
  rw [running] at turn
  dsimp only at sound allows turn ⊢
  cases touches : AgentCommand.onIdentity command with
  | false =>
    rw [UpdateState.after_of_not_onIdentity _ touches, Function.update_eq_self,
      watchOvertaken_of_not_onIdentity touches]
    exact sound.congr (docs_exec_of_not_onIdentity touches input contents)
  | true =>
    cases failing : input.failure with
    | some error =>
      rw [Database.exec_of_failure (fallible_of_onIdentity touches) failing,
        UpdateState.after_error, Function.update_eq_self, watchOvertaken_error]
      exact sound
    | none =>
      rw [Database.exec_of_failure_none failing]
      cases state : locals thread with
      | idle =>
        rw [state] at allows
        obtain rfl : command = .get (.identity agentId) := allows touches
        refine sound.move (fun version wrote => ?_) (fun version => ?_) rfl ?_ ?_
        · rw [state] at wrote
          cases wrote
        · dsimp only [Database.perform, UpdateState.after]
          split <;> exact fun impossible => by cases impossible
        · intro other different current
          have looked := Program.Overtaken.look_of_ne different overtaken
          exact ⟨looked.symm.trans current, rfl⟩
        · intro version missing based _
          dsimp only [Database.perform, UpdateState.after] at based ⊢
          unfold currentVersion
          split at based
          · rename_i identity found
            obtain ⟨rfl, rfl⟩ := UpdateState.based.inj based
            rw [found]
            exact ⟨rfl, fun impossible => by cases impossible⟩
          · rename_i found
            obtain ⟨rfl, rfl⟩ := UpdateState.based.inj based
            rw [found]
            exact ⟨rfl, fun _ => rfl⟩
      | based version missing =>
        rw [state] at allows
        obtain ⟨identity, rfl, next⟩ := allows touches
        have current := turn.1 rfl failing
        have stored : currentVersion agentId
            (contents.put (.identity agentId) identity) = identity.version :=
          currentVersion_put identity
        cases missing with
        | false => exact sound.write state current (stored.trans next)
        | true =>
          obtain ⟨first, _⟩ := sound.reads thread version true state current
          refine sound.move (fun version wrote => ?_) (fun version => ?_)
            ((stored.trans next).trans first) ?_ ?_
          · rw [state] at wrote
            cases wrote
          · exact fun impossible => by cases impossible
          · intro other different impossible
            have changed := Program.Overtaken.change_of_ne different overtaken
            cases changed.symm.trans impossible
          · intro again missing based _
            obtain ⟨rfl, rfl⟩ := UpdateState.based.inj based
            exact ⟨first, fun impossible => by cases impossible⟩
      | wrote version =>
        rw [state] at allows
        cases touches.symm.trans allows

theorem linearized_of_sound {observed : ObservedUpdates}
    (sound : Observed.Sound (updateProtocol agentId) (CountsWrites agentId initial)
      UpdateState.Ended observed) :
    Linearized agentId initial observed.server := by
  have wrote {thread version : Nat} (returned : Returned observed.server thread version) :
      observed.locals thread = .wrote version := by
    obtain ⟨call, identity, ended, rfl⟩ := returned
    cases sound.follows thread call _ ended with
    | done described => exact described
  constructor
  · intro thread other version one two
    exact sound.holds.distinct thread other version (wrote one) (wrote two)
  · intro ended
    obtain ⟨writers, nodup, members, total⟩ := sound.holds.counts
    have successes : {thread | ∃ version, Returned observed.server thread version} =
        ↑writers.toFinset := by
      ext thread
      rw [Set.mem_setOf_eq, List.coe_toFinset, Set.mem_setOf_eq, members]
      constructor
      · rintro ⟨version, returned⟩
        exact ⟨version, wrote returned⟩
      · rintro ⟨version, written⟩
        cases served : observed.server.threads thread with
        | none =>
          have idle := sound.vacant thread served
          cases written.symm.trans idle
        | some running =>
          obtain ⟨call, program⟩ := running
          have follows := sound.follows thread call program served
          cases follows with
          | done described => exact ⟨_, call, _, served, rfl⟩
          | fail described => exact absurd written (described version)
          | perform allows continues => exact absurd served (ended thread call _ _)
    rw [successes, Set.ncard_coe_finset, List.toFinset_card_of_nodup nodup]
    exact total

/-- However updates and rollbacks of one agent interleave, they are linearized as long as identities
are written in turn. -/
theorem updates_linearized {events : List UpdateEvent}
    (turn : StateMachine.Guarded (updateStep sha256Hex agentId) WritesInTurn
      (Observed.idle (updateProtocol agentId) contents fun _ => false) events) :
    StateMachine.Always (Server.step Database.exec (IdentityCall.handle sha256Hex agentId))
      (Linearized agentId (currentVersion agentId contents)) (Server.idle contents) events := by
  have initially : CountsWrites agentId (currentVersion agentId contents) contents
      (fun _ => .idle) fun _ => false :=
    ⟨(fun _ _ _ impossible => nomatch impossible), ⟨[], List.nodup_nil, by simp, rfl⟩,
      (fun _ _ impossible => nomatch impossible), fun _ _ _ impossible => nomatch impossible⟩
  have sound := Observed.always_sound IdentityCall.follows
    (fun observed thread call command continuation input sound running allows admissible => by
      refine ⟨?_, sound.holds.perform running allows admissible⟩
      intro written
      simp only [WritesInTurn, running] at admissible
      exact exec_ok (admissible.2 written) _)
    (Observed.Sound.idle initially) turn
  exact Observed.always_server (Linearized agentId (currentVersion agentId contents))
    (sound.mono fun observed all => linearized_of_sound all)

end Runs

/-- One agent at its first version. -/
def oneAgent : AgentContents :=
  noAgents.put (.identity "helper") (AgentIdentityProfile.new "helper" 0)

/-- An update and a rollback to its version, one after the other. -/
def updatesInTurn : List UpdateEvent :=
  .arrive 0 (.update (.object [])) :: List.replicate 10 (.advance 0 (untroubled 1 0)) ++
    .arrive 1 (.rollback 2 none) :: List.replicate 12 (.advance 1 (untroubled 2 0))

theorem updates_linearized_updatesInTurn :
    StateMachine.Always
      (Server.step Database.exec (IdentityCall.handle id "helper"))
      (Linearized "helper" (currentVersion "helper" oneAgent)) (Server.idle oneAgent)
      updatesInTurn := by
  apply updates_linearized
  repeat' apply And.intro
  all_goals
    first
    | exact trivial
    | exact fun _ _ => rfl
    | exact fun impossible => nomatch impossible

/-- Two updates read the identity before one of them writes it. -/
def overlappingUpdates : List UpdateEvent :=
  .arrive 0 (.update (.object [("mission", .string "first")])) ::
    .arrive 1 (.update (.object [("mission", .string "second")])) ::
    .advance 0 (untroubled 1 0) :: .advance 1 (untroubled 2 0) ::
    (List.replicate 9 (.advance 0 (untroubled 1 0)) ++
      List.replicate 10 (.advance 1 (untroubled 2 0)))

/-- Two updates that overlap return the same version. -/
theorem overlapping_updates_return_one_version :
    ¬ ∀ (sha256Hex : String → String) (agentId : String) (contents : AgentContents)
      (events : List UpdateEvent),
      (∀ thread input, .advance thread input ∈ events → input.failure = none) →
      Linearized agentId (currentVersion agentId contents)
        (StateMachine.finish (Server.step Database.exec (IdentityCall.handle sha256Hex agentId))
          (Server.idle contents) events) := by
  intro linearized
  have final := linearized id "helper" oneAgent overlappingUpdates ?_
  · have same := final.distinct 0 1 2 ⟨_, _, rfl, rfl⟩ ⟨_, _, rfl, rfl⟩
    cases same
  · intro thread input performed
    simp only [overlappingUpdates, List.mem_cons, List.mem_append, List.mem_replicate,
      reduceCtorEq, false_or, Program.Event.advance.injEq] at performed
    rcases performed with ⟨-, rfl⟩ | ⟨-, rfl⟩ | ⟨-, -, rfl⟩ | ⟨-, -, rfl⟩ <;> rfl

end Updates
end Agent
end Mnemo
