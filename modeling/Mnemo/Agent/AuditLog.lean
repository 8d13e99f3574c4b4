import Mnemo.Agent.AuditChain
import Mnemo.Agent.Store
import Mnemo.Core.Uuid
import Mnemo.Lib.Protocol
import Mnemo.Lib.Sequential

/-!
# The witness chain under concurrent appends

An append looks up the latest event, and later enters its own event under the milliseconds of a
clock reading.  The chain that is read back is in the order of these scores, which is the order in
which the events name each other only as long as no append overtakes another one.
-/

namespace Mnemo
namespace Agent

open Database (Command)
open Program (Observed)

/-- Members of a sorted set by ascending rank. -/
def Redis.zrange (index : AgentIndex) (start stop : Int) : AgentProgram (List String) :=
  Program.call (Command.zrange index start stop : AgentCommand)

/-- The documents of audit events which exist, in the order of their identifiers. -/
def getAuditEvents : List String → AgentProgram (List AgentIdentityAuditEvent)
  | [] => return []
  | id :: ids => do
      let event : Option AgentIdentityAuditEvent ← Redis.get (.auditEvent id)
      let events ← getAuditEvents ids
      return event.toList ++ events

/-- The newest audit events of an agent. -/
def listAgentIdentityAudit (agentId : String) (limit : Nat) :
    AgentProgram (List AgentIdentityAuditEvent) := do
  let ids ← Redis.zrevrange (.audit agentId) 0 ((limit : Int) - 1)
  getAuditEvents ids

/-- Walk the witness chain of an agent, oldest event first. -/
def verifyAgentAuditChain (sha256Hex : String → String) (agentId : String) :
    AgentProgram AuditChainVerification := do
  let ids ← Redis.zrange (.audit agentId) 0 (-1)
  let events ← getAuditEvents ids
  return verifyAuditChain sha256Hex events

/-- The stored event under an identifier. -/
def storedEvent (contents : AgentContents) (id : String) : Option AgentIdentityAuditEvent :=
  contents.docs (.auditEvent id)

/-- The stored events among some identifiers. -/
def storedEvents (contents : AgentContents) (ids : List String) : List AgentIdentityAuditEvent :=
  ids.filterMap (storedEvent contents)

/-- The events in the log of an agent, oldest first. -/
def auditLog (agentId : String) (contents : AgentContents) : List AgentIdentityAuditEvent :=
  storedEvents contents (contents.sets (.audit agentId)).members

/-! ## Reading the log back -/

section Reading

variable {sha256Hex : String → String} {agentId : String} {contents : AgentContents}
  {allowed : Database.Input AgentAnswer MnemoError → Prop}

theorem readsAs_getAuditEvents (ids : List String) :
    Database.ReadsAs allowed (fun _ _ => True) (storedEvents contents ids) (getAuditEvents ids)
      contents := by
  induction ids with
  | nil => exact Database.ReadsAs.done []
  | cons id ids ih =>
    have found : storedEvents contents (id :: ids) =
        (storedEvent contents id).toList ++ storedEvents contents ids := by
      unfold storedEvents
      rw [List.filterMap_cons]
      cases storedEvent contents id <;> rfl
    rw [found]
    exact (Database.readsAs_get _ trivial).andThen (ih.andThen (Database.ReadsAs.done _))

theorem readsAs_verifyAgentAuditChain :
    Database.ReadsAs allowed (fun _ _ => True)
      (verifyAuditChain sha256Hex (auditLog agentId contents))
      (verifyAgentAuditChain sha256Hex agentId) contents := by
  refine (Database.readsAs_zrange _ _ _ trivial).andThen ?_
  rw [SortedSet.range_all]
  exact (readsAs_getAuditEvents _).andThen (Database.ReadsAs.done _)

end Reading

/-! ## The protocol of an append -/

/-- What an append records. -/
structure AuditAppend where
  action : AgentIdentityAuditAction
  fromVersion : Option Nat
  toVersion : Nat
  rollbackToVersion : Option Nat
  reason : Option String

/-- The program of an append. -/
def AuditAppend.handle (sha256Hex : String → String) (agentId : String) (append : AuditAppend) :
    AgentProgram Unit :=
  appendIdentityAudit sha256Hex agentId append.action append.fromVersion append.toVersion
    append.rollbackToVersion append.reason

/-- How far an append has come. -/
inductive AppendState where
  | idle
  /-- The latest event is known by its identifier. -/
  | looking (latestId : String)
  /-- The hash of the latest event is known. -/
  | based (prevHash : Option String)
  /-- The new event has an identifier. -/
  | named (prevHash : Option String) (id : Uuid)
  /-- The new event has a time. -/
  | timed (prevHash : Option String) (id : Uuid) (createdAt : DateTime)
  /-- The new event is stored, and not yet in the log. -/
  | stored (event : AgentIdentityAuditEvent)
  | finished

/-- The identifier that was drawn for the new event, until the event is in the log. -/
def AppendState.drawn : AppendState → Option Uuid
  | .named _ id | .timed _ id _ => some id
  | .stored event => some event.id
  | _ => none

/-- The state of an append after the reply to a command; it ends at a failure. -/
def AppendState.after : AppendState → (command : AgentCommand) →
    Except MnemoError (command.Reply AgentAnswer) → AppendState
  | .idle, .zrevrange _ _ _, .ok [] => .based none
  | .idle, .zrevrange _ _ _, .ok (latestId :: _) => .looking latestId
  | .looking _, .get (.auditEvent _), .ok latest =>
      .based (Option.map AgentIdentityAuditEvent.eventHash latest)
  | .based prevHash, .freshId, .ok id => .named prevHash id
  | .named prevHash id, .clock, .ok createdAt => .timed prevHash id createdAt
  | .timed _ _ _, .set (.auditEvent _) event, .ok _ => .stored event
  | _, _, _ => .finished

section Protocol

variable (sha256Hex : String → String) (agentId : String)

/-- The one command that comes next. -/
def AppendState.Allows : AppendState → AgentCommand → Prop
  | .idle, command => command = .zrevrange (.audit agentId) 0 0
  | .looking latestId, command => command = .get (.auditEvent latestId)
  | .based _, command => command = .freshId
  | .named _ _, command => command = .clock
  | .timed prevHash id createdAt, command => ∃ event : AgentIdentityAuditEvent,
      command = .set (.auditEvent event.id.toText) event ∧ event.prevHash = prevHash ∧
        event.id = id ∧ event.createdAt = createdAt ∧ event.verifyHash sha256Hex = true
  | .stored event, command =>
      command = .zadd (.audit agentId) event.id.toText (timestampMillis event.createdAt)
  | .finished, _ => False

/-- The protocol of appends to one log. -/
def appendProtocol :
    Program.Protocol AgentCommand (·.Reply AgentAnswer) MnemoError AppendState where
  start := .idle
  allowed := AppendState.Allows sha256Hex agentId
  expected _ _ _ := True
  next := AppendState.after

variable {sha256Hex agentId}

theorem follows_latestAuditHash :
    (appendProtocol sha256Hex agentId).Follows
      (fun state outcome => ∀ prevHash, outcome = .ok prevHash → state = .based prevHash)
      .idle (latestAuditHash agentId) := by
  apply Program.Protocol.Follows.bind_call rfl
  · intro ids _
    cases ids with
    | nil =>
      refine .done fun prevHash same => ?_
      obtain rfl := Except.ok.inj same
      rfl
    | cons latestId others =>
      apply Program.Protocol.Follows.bind_call rfl
      · intro latest _
        refine .done fun prevHash same => ?_
        obtain rfl := Except.ok.inj same
        rfl
      · intro error _ prevHash same
        cases same
  · intro error _ prevHash same
    cases same

theorem AuditAppend.follows (append : AuditAppend) :
    (appendProtocol sha256Hex agentId).Follows (fun _ _ => True) .idle
      (append.handle sha256Hex agentId) := by
  apply follows_latestAuditHash.bind
  · intro state prevHash based
    obtain rfl := based prevHash rfl
    refine .bind_call rfl (fun id _ => ?_) fun _ _ => trivial
    refine .bind_call rfl (fun createdAt _ => ?_) fun _ _ => trivial
    refine .bind_call ⟨_, rfl, rfl, rfl, rfl, ?_⟩ (fun _ _ => ?_) fun _ _ => trivial
    · simp [AgentIdentityAuditEvent.verifyHash, AgentIdentityAuditEvent.computeHash]
    · refine .perform rfl fun reply _ => ?_
      cases reply with
      | ok value => exact .done trivial
      | error error => exact .fail trivial
  · intro _ _ _
    trivial

end Protocol

/-! ## Appends in turn -/

/-- What is noted of a run of appends. -/
structure AuditAccount where
  /-- The threads that looked up the latest event before another event entered the log. -/
  overtaken : Nat → Bool
  /-- The latest reading of the clock. -/
  latest : Option DateTime

/-- Nothing has been looked up, and the clock has not been read. -/
def AuditAccount.blank : AuditAccount := { overtaken := fun _ => false, latest := none }

/-- Note the look-up of the latest event, the entry of a new one, and readings of the clock. -/
def AuditAccount.watch (account : AuditAccount) (thread : Nat) (_ : AppendState) :
    (command : AgentCommand) → Database.Input AgentAnswer MnemoError →
      Except MnemoError (command.Reply AgentAnswer) → AuditAccount
  | .zrevrange _ _ _, _, .ok _ =>
      { account with overtaken := Program.Overtaken.look account.overtaken thread }
  | .zadd _ _ _, _, .ok _ =>
      { account with overtaken := Program.Overtaken.change account.overtaken thread }
  | .clock, _, .ok now => { account with latest := some now }
  | _, _, _ => account

/-- A server of appends under observation. -/
abbrev ObservedAppends :=
  Observed AgentCommand (·.Reply AgentAnswer) MnemoError AgentContents AuditAppend Unit
    AppendState AuditAccount

/-- An event of a run of appends. -/
abbrev AppendEvent := Program.Event (Database.Input AgentAnswer MnemoError) AuditAppend

section Runs

variable (sha256Hex : String → String) (agentId : String)

/-- One step of the observed server. -/
def appendStep : ObservedAppends → AppendEvent → ObservedAppends :=
  Observed.step Database.exec (AuditAppend.handle sha256Hex agentId)
    (appendProtocol sha256Hex agentId) AuditAccount.watch

/-- The clock does not go backwards, and identifiers have 128 bits. -/
def SoundSources (observed : ObservedAppends) : AppendEvent → Prop
  | .arrive _ _ => True
  | .advance thread input =>
      match observed.server.threads thread with
      | some (_, .perform .clock _) =>
          ∀ latest, observed.account.latest = some latest → latest ≤ input.now
      | some (_, .perform .freshId _) =>
          Database.unused observed.server.shared.issued input.id < Uuid.bound
      | _ => True

/-- An event enters the log only if none has entered since its append looked up the latest one, and
among events of one millisecond only behind those whose identifiers are smaller. -/
def EntersInTurn (observed : ObservedAppends) : AppendEvent → Prop
  | .arrive _ _ => True
  | .advance thread input =>
      match observed.server.threads thread with
      | some (_, .perform (.zadd _ id score) _) =>
          input.failure = none →
            observed.account.overtaken thread = false ∧
              ∀ entry ∈ (observed.server.shared.sets (.audit agentId)).entries,
                (ofLex entry).1 = score → (ofLex entry).2 < id
      | _ => True

/-- The log of the agent is reported valid when it is verified. -/
def ReportsValid (contents : AgentContents) : Prop :=
  ∀ inputs : Nat → Database.Input AgentAnswer MnemoError,
    (∀ position, (inputs position).failure = none) →
      ∃ verification, ((verifyAgentAuditChain sha256Hex agentId).eval Database.exec inputs
        contents).1 = .ok verification ∧ verification.valid = true

/-! ### What is kept -/

/-- All entries of the log are at most as late as an instant. -/
def Below (contents : AgentContents) (instant : DateTime) : Prop :=
  ∀ entry ∈ (contents.sets (.audit agentId)).entries, (ofLex entry).1 ≤ timestampMillis instant

/-- An identifier was drawn and is not in the log. -/
def Unentered (contents : AgentContents) (id : Uuid) : Prop :=
  id ∈ contents.issued ∧ id.toText ∉ (contents.sets (.audit agentId)).members

/-- What an append knows; what it knows of the end of the log is current unless it was
overtaken. -/
def AppendState.Knows (contents : AgentContents) (latest : Option DateTime) (current : Prop) :
    AppendState → Prop
  | .idle | .finished => True
  | .looking latestId =>
      latestId ∈ (contents.sets (.audit agentId)).members ∧
        (current → (contents.sets (.audit agentId)).members.getLast? = some latestId)
  | .based prevHash => current → prevHash = lastHash none (auditLog agentId contents)
  | .named prevHash id =>
      (current → prevHash = lastHash none (auditLog agentId contents)) ∧
        Unentered agentId contents id
  | .timed prevHash id createdAt =>
      (current → prevHash = lastHash none (auditLog agentId contents) ∧
          Below agentId contents createdAt) ∧
        Unentered agentId contents id ∧ ∃ reading, latest = some reading ∧ createdAt ≤ reading
  | .stored event =>
      (current → event.prevHash = lastHash none (auditLog agentId contents) ∧
          Below agentId contents event.createdAt) ∧
        Unentered agentId contents event.id ∧
        (∃ reading, latest = some reading ∧ event.createdAt ≤ reading) ∧
        event.verifyHash sha256Hex = true ∧
        storedEvent contents event.id.toText = some event

/-- The log is linked, and every append knows what it has to. -/
structure LogSound (contents : AgentContents) (locals : Nat → AppendState)
    (account : AuditAccount) : Prop where
  small : ∀ id ∈ contents.issued, id < Uuid.bound
  entered : ∀ text ∈ (contents.sets (.audit agentId)).members, ∃ event : AgentIdentityAuditEvent,
    storedEvent contents text = some event ∧ event.id.toText = text ∧ event.id ∈ contents.issued
  linked : Linked sha256Hex none (auditLog agentId contents)
  past : ∀ entry ∈ (contents.sets (.audit agentId)).entries, ∃ reading,
    account.latest = some reading ∧ (ofLex entry).1 ≤ timestampMillis reading
  knows : ∀ thread, (locals thread).Knows sha256Hex agentId contents account.latest
    (account.overtaken thread = false)
  distinct : ∀ thread other id, (locals thread).drawn = some id →
    (locals other).drawn = some id → thread = other

variable {sha256Hex agentId} {contents after : AgentContents} {locals : Nat → AppendState}
  {account later : AuditAccount}

theorem auditLog_congr
    (sets : after.sets (.audit agentId) = contents.sets (.audit agentId))
    (docs : ∀ text ∈ (contents.sets (.audit agentId)).members,
      storedEvent after text = storedEvent contents text) :
    auditLog agentId after = auditLog agentId contents := by
  unfold auditLog storedEvents
  rw [sets]
  exact List.filterMap_congr docs

/-- What an append knows stays true when the log stays, its event stays and time goes on. -/
theorem AppendState.Knows.move {state : AppendState} {latest next : Option DateTime}
    {current : Prop} (knows : state.Knows sha256Hex agentId contents latest current)
    (sets : after.sets (.audit agentId) = contents.sets (.audit agentId))
    (docs : ∀ text ∈ (contents.sets (.audit agentId)).members,
      storedEvent after text = storedEvent contents text)
    (own : ∀ event, state = .stored event →
      storedEvent after event.id.toText = storedEvent contents event.id.toText)
    (issued : ∀ id ∈ contents.issued, id ∈ after.issued)
    (time : ∀ reading, latest = some reading → ∃ other, next = some other ∧ reading ≤ other) :
    state.Knows sha256Hex agentId after next current := by
  have log := auditLog_congr sets docs
  have entered {id : Uuid} (unentered : Unentered agentId contents id) :
      Unentered agentId after id :=
    ⟨issued id unentered.1, by rw [sets]; exact unentered.2⟩
  have below {instant : DateTime} (early : Below agentId contents instant) :
      Below agentId after instant := by
    intro entry member
    rw [sets] at member
    exact early entry member
  have passed {instant : DateTime}
      (read : ∃ reading, latest = some reading ∧ instant ≤ reading) :
      ∃ reading, next = some reading ∧ instant ≤ reading := by
    obtain ⟨reading, found, before⟩ := read
    obtain ⟨other, now, grown⟩ := time reading found
    exact ⟨other, now, before.trans grown⟩
  cases state with
  | idle | finished => trivial
  | looking latestId =>
    unfold AppendState.Knows at knows ⊢
    rw [sets]
    exact knows
  | based prevHash =>
    unfold AppendState.Knows at knows ⊢
    rw [log]
    exact knows
  | named prevHash id =>
    unfold AppendState.Knows at knows ⊢
    rw [log]
    exact ⟨knows.1, entered knows.2⟩
  | timed prevHash id createdAt =>
    obtain ⟨fresh, unentered, read⟩ := knows
    refine ⟨fun current => ?_, entered unentered, passed read⟩
    rw [log]
    exact ⟨(fresh current).1, below (fresh current).2⟩
  | stored event =>
    obtain ⟨fresh, unentered, read, matching, found⟩ := knows
    refine ⟨fun current => ?_, entered unentered, passed read, matching, ?_⟩
    · rw [log]
      exact ⟨(fresh current).1, below (fresh current).2⟩
    · rw [own event rfl]
      exact found

theorem AppendState.Knows.issued {state : AppendState} {latest : Option DateTime} {current : Prop}
    (knows : state.Knows sha256Hex agentId contents latest current) {id : Uuid}
    (drawn : state.drawn = some id) : Unentered agentId contents id := by
  cases state with
  | named prevHash own =>
    obtain rfl := Option.some.inj drawn
    exact knows.2
  | timed prevHash own createdAt =>
    obtain rfl := Option.some.inj drawn
    exact knows.2.1
  | stored event =>
    obtain rfl := Option.some.inj drawn
    exact knows.2.1
  | _ => cases drawn

/-- A step of one append that leaves the log as it is. -/
theorem LogSound.move (sound : LogSound sha256Hex agentId contents locals account)
    {thread : Nat} {state : AppendState}
    (sets : after.sets (.audit agentId) = contents.sets (.audit agentId))
    (docs : ∀ text ∈ (contents.sets (.audit agentId)).members,
      storedEvent after text = storedEvent contents text)
    (others : ∀ other, other ≠ thread → ∀ event, locals other = .stored event →
      storedEvent after event.id.toText = storedEvent contents event.id.toText)
    (issued : ∀ id ∈ contents.issued, id ∈ after.issued)
    (small : ∀ id ∈ after.issued, id < Uuid.bound)
    (time : ∀ reading, account.latest = some reading →
      ∃ next, later.latest = some next ∧ reading ≤ next)
    (overtaken : ∀ other, other ≠ thread → later.overtaken other = account.overtaken other)
    (knows : state.Knows sha256Hex agentId after later.latest (later.overtaken thread = false))
    (drawn : ∀ id, state.drawn = some id →
      (locals thread).drawn = some id ∨ id ∉ contents.issued) :
    LogSound sha256Hex agentId after (Function.update locals thread state) later := by
  have apart (other : Nat) (different : other ≠ thread) (id : Uuid)
      (mine : state.drawn = some id) (theirs : (locals other).drawn = some id) : False := by
    rcases drawn id mine with already | new
    · exact different (sound.distinct other thread id theirs already)
    · exact new ((sound.knows other).issued theirs).1
  refine ⟨small, ?_, ?_, ?_, ?_, ?_⟩
  · intro text member
    rw [sets] at member
    obtain ⟨event, found, printed, drawn⟩ := sound.entered text member
    exact ⟨event, (docs text member).trans found, printed, issued _ drawn⟩
  · rw [auditLog_congr sets docs]
    exact sound.linked
  · intro entry member
    rw [sets] at member
    obtain ⟨reading, found, before⟩ := sound.past entry member
    obtain ⟨next, now, grown⟩ := time reading found
    exact ⟨next, now, before.trans (timestampMillis_mono grown)⟩
  · intro other
    rcases eq_or_ne other thread with rfl | different
    · rw [Function.update_self]
      exact knows
    · rw [Function.update_of_ne different, overtaken other different]
      exact (sound.knows other).move sets docs (others other different) issued time
  · intro first second id one two
    rcases eq_or_ne first thread with rfl | first_other
    · rcases eq_or_ne second first with rfl | second_other
      · rfl
      · rw [Function.update_self] at one
        rw [Function.update_of_ne second_other] at two
        exact (apart second second_other id one two).elim
    · rw [Function.update_of_ne first_other] at one
      rcases eq_or_ne second thread with rfl | second_other
      · rw [Function.update_self] at two
        exact (apart first first_other id two one).elim
      · rw [Function.update_of_ne second_other] at two
        exact sound.distinct first second id one two

/-- The contents after an event has entered the log. -/
def entering (agentId : String) (contents : AgentContents) (event : AgentIdentityAuditEvent) :
    AgentContents :=
  contents.withSet (.audit agentId)
    ((contents.sets (.audit agentId)).insert event.id.toText (timestampMillis event.createdAt))

theorem entries_entering {event : AgentIdentityAuditEvent}
    (unentered : Unentered agentId contents event.id)
    (below : Below agentId contents event.createdAt)
    (ties : ∀ entry ∈ (contents.sets (.audit agentId)).entries,
      (ofLex entry).1 = timestampMillis event.createdAt → (ofLex entry).2 < event.id.toText) :
    ((entering agentId contents event).sets (.audit agentId)).entries =
      (contents.sets (.audit agentId)).entries ++
        [toLex (timestampMillis event.createdAt, event.id.toText)] := by
  unfold entering
  rw [Database.Contents.sets_withSet_self]
  apply SortedSet.entries_insert_of_lt _ unentered.2
  intro entry member
  rw [Prod.Lex.lt_iff]
  rcases (below entry member).lt_or_eq with earlier | tied
  · exact .inl earlier
  · exact .inr ⟨tied, ties entry member tied⟩

theorem auditLog_entering {event : AgentIdentityAuditEvent}
    (found : storedEvent contents event.id.toText = some event)
    (members : ((entering agentId contents event).sets (.audit agentId)).members =
      (contents.sets (.audit agentId)).members ++ [event.id.toText]) :
    auditLog agentId (entering agentId contents event) = auditLog agentId contents ++ [event] := by
  have docs : storedEvent (entering agentId contents event) = storedEvent contents := rfl
  unfold auditLog storedEvents
  rw [members, docs, List.filterMap_append]
  simp [found]

/-- A step of an append that enters its event in turn. -/
theorem LogSound.enter (sound : LogSound sha256Hex agentId contents locals account)
    {thread : Nat} {event : AgentIdentityAuditEvent} (storing : locals thread = .stored event)
    (current : account.overtaken thread = false)
    (ties : ∀ entry ∈ (contents.sets (.audit agentId)).entries,
      (ofLex entry).1 = timestampMillis event.createdAt → (ofLex entry).2 < event.id.toText) :
    LogSound sha256Hex agentId (entering agentId contents event)
      (Function.update locals thread .finished)
      { account with overtaken := Program.Overtaken.change account.overtaken thread } := by
  have mine := sound.knows thread
  rw [storing] at mine
  obtain ⟨fresh, unentered, read, matching, found⟩ := mine
  obtain ⟨names, below⟩ := fresh current
  have entries := entries_entering unentered below ties
  have members : ((entering agentId contents event).sets (.audit agentId)).members =
      (contents.sets (.audit agentId)).members ++ [event.id.toText] := by
    unfold SortedSet.members
    rw [entries, List.map_append]
    rfl
  have log := auditLog_entering found members
  refine ⟨sound.small, ?_, ?_, ?_, ?_, ?_⟩
  · intro text member
    rw [members, List.mem_append, List.mem_singleton] at member
    rcases member with before | rfl
    · exact sound.entered text before
    · exact ⟨event, found, rfl, unentered.1⟩
  · rw [log]
    exact linked_concat.mpr ⟨sound.linked, names, matching⟩
  · intro entry member
    rw [entries, List.mem_append, List.mem_singleton] at member
    rcases member with before | rfl
    · exact sound.past entry before
    · obtain ⟨reading, latest, earlier⟩ := read
      exact ⟨reading, latest, timestampMillis_mono earlier⟩
  · intro other
    rcases eq_or_ne other thread with rfl | different
    · rw [Function.update_self]
      trivial
    · -- the other appends are overtaken, and what they drew differs from what has entered
      have overtaken : (Program.Overtaken.change account.overtaken thread other = false) → False := by
        rw [Program.Overtaken.change_of_ne different]
        exact Bool.noConfusion
      have theirs := sound.knows other
      have apart {id : Uuid} (drawn : (locals other).drawn = some id) :
          Unentered agentId (entering agentId contents event) id := by
        have own := theirs.issued drawn
        refine ⟨own.1, ?_⟩
        rw [members, List.mem_append, List.mem_singleton, not_or]
        refine ⟨own.2, fun same => ?_⟩
        have same_id := (Uuid.toText_inj (sound.small _ own.1)
          (sound.small _ unentered.1)).mp same
        apply different
        apply sound.distinct other thread id drawn
        rw [storing, same_id]
        rfl
      rw [Function.update_of_ne different]
      revert theirs apart
      cases locals other with
      | idle | finished => exact fun _ _ => trivial
      | looking latestId =>
        intro theirs _
        refine ⟨?_, fun now => (overtaken now).elim⟩
        rw [members]
        exact List.mem_append_left _ theirs.1
      | based prevHash => exact fun _ _ now => (overtaken now).elim
      | named prevHash id => exact fun _ apart => ⟨fun now => (overtaken now).elim, apart rfl⟩
      | timed prevHash id createdAt =>
        exact fun theirs apart =>
          ⟨fun now => (overtaken now).elim, apart rfl, theirs.2.2⟩
      | stored event =>
        exact fun theirs apart =>
          ⟨fun now => (overtaken now).elim, apart rfl, theirs.2.2⟩
  · intro first second id one two
    rcases eq_or_ne first thread with rfl | first_other
    · rw [Function.update_self] at one
      cases one
    · rcases eq_or_ne second thread with rfl | second_other
      · rw [Function.update_self] at two
        cases two
      · rw [Function.update_of_ne first_other] at one
        rw [Function.update_of_ne second_other] at two
        exact sound.distinct first second id one two

theorem LogSound.stay (sound : LogSound sha256Hex agentId contents locals account)
    {thread : Nat} {state : AppendState} (latest : later.latest = account.latest)
    (overtaken : ∀ other, other ≠ thread → later.overtaken other = account.overtaken other)
    (knows : state.Knows sha256Hex agentId contents account.latest
      (later.overtaken thread = false))
    (drawn : state.drawn = none) :
    LogSound sha256Hex agentId contents (Function.update locals thread state) later := by
  refine sound.move rfl (fun _ _ => rfl) (fun _ _ _ _ => rfl) (fun _ issued => issued) sound.small ?_
    overtaken ?_ ?_
  · intro reading found
    exact ⟨reading, latest.trans found, le_rfl⟩
  · rw [latest]
    exact knows
  · intro id impossible
    rw [drawn] at impossible
    cases impossible

theorem lastHash_auditLog {text : String} {event : AgentIdentityAuditEvent}
    (last : (contents.sets (.audit agentId)).members.getLast? = some text)
    (found : storedEvent contents text = some event) :
    lastHash none (auditLog agentId contents) = some event.eventHash := by
  obtain ⟨front, members⟩ := List.getLast?_eq_some_iff.mp last
  unfold auditLog storedEvents lastHash
  rw [members, List.filterMap_append]
  simp [found]

theorem lastHash_auditLog_nil
    (empty : (contents.sets (.audit agentId)).members.getLast? = none) :
    lastHash none (auditLog agentId contents) = none := by
  unfold auditLog storedEvents
  rw [List.getLast?_eq_none_iff.mp empty]
  rfl

/-- Every command of an append keeps the log sound, if events enter in turn. -/
theorem LogSound.perform {observed : ObservedAppends}
    (sound : LogSound sha256Hex agentId observed.server.shared observed.locals observed.account)
    {thread : Nat} {append : AuditAppend} {command : AgentCommand}
    {continuation : Except MnemoError (command.Reply AgentAnswer) → AgentProgram Unit}
    {input : Database.Input AgentAnswer MnemoError}
    (running : observed.server.threads thread = some (append, .perform command continuation))
    (allows : (observed.locals thread).Allows sha256Hex agentId command)
    (sources : SoundSources observed (.advance thread input))
    (turn : EntersInTurn agentId observed (.advance thread input)) :
    LogSound sha256Hex agentId (Database.exec command input observed.server.shared).2
      (Function.update observed.locals thread ((observed.locals thread).after command
        (Database.exec command input observed.server.shared).1))
      (observed.account.watch thread (observed.locals thread) command input
        (Database.exec command input observed.server.shared).1) := by
  obtain ⟨⟨contents, threads⟩, locals, account⟩ := observed
  dsimp only at sound running allows sources turn ⊢
  have mine := sound.knows thread
  cases state : locals thread with
  | idle =>
    rw [state] at allows
    obtain rfl : command = .zrevrange (.audit agentId) 0 0 := allows
    cases failing : input.failure with
    | some error =>
      rw [Database.exec_of_failure rfl failing]
      exact sound.stay rfl (fun _ _ => rfl) trivial rfl
    | none =>
      rw [Database.exec_of_failure_none failing]
      dsimp only [Database.perform]
      rw [SortedSet.revRange_zero]
      have others (other : Nat) (different : other ≠ thread) :=
        Program.Overtaken.look_of_ne different account.overtaken
      cases last : (contents.sets (.audit agentId)).members.getLast? with
      | none =>
        refine sound.stay rfl others ?_ rfl
        exact fun _ => (lastHash_auditLog_nil last).symm
      | some text =>
        refine sound.stay rfl others ?_ rfl
        exact ⟨List.mem_of_getLast? last, fun _ => last⟩
  | looking latestId =>
    rw [state] at allows mine
    obtain rfl : command = .get (.auditEvent latestId) := allows
    cases failing : input.failure with
    | some error =>
      rw [Database.exec_of_failure rfl failing]
      exact sound.stay rfl (fun _ _ => rfl) trivial rfl
    | none =>
      rw [Database.exec_of_failure_none failing]
      refine sound.stay rfl (fun _ _ => rfl) (fun current => ?_) rfl
      obtain ⟨event, found, _, _⟩ := sound.entered latestId mine.1
      rw [lastHash_auditLog (mine.2 current) found]
      exact congrArg (Option.map AgentIdentityAuditEvent.eventHash) found
  | based prevHash =>
    rw [state] at allows mine
    obtain rfl : command = .freshId := allows
    rw [Database.exec_freshId]
    have fresh := Database.unused_notMem contents.issued input.id
    simp only [SoundSources, running] at sources
    refine sound.move rfl (fun _ _ => rfl) (fun _ _ _ _ => rfl)
      (fun _ => List.mem_cons_of_mem _) ?_ (fun reading found => ⟨reading, found, le_rfl⟩)
      (fun _ _ => rfl) ⟨mine, List.mem_cons_self, ?_⟩ ?_
    · intro id member
      rcases List.mem_cons.mp member with rfl | earlier
      · exact sources
      · exact sound.small id earlier
    · intro member
      obtain ⟨event, _, printed, issued⟩ := sound.entered _ member
      rw [Uuid.toText_inj (sound.small _ issued) sources] at printed
      rw [printed] at issued
      exact fresh issued
    · intro id drawn
      obtain rfl := Option.some.inj drawn
      exact .inr fresh
  | named prevHash id =>
    rw [state] at allows mine
    obtain rfl : command = .clock := allows
    rw [Database.exec_clock]
    simp only [SoundSources, running] at sources
    refine sound.move rfl (fun _ _ => rfl) (fun _ _ _ _ => rfl) (fun _ issued => issued)
      sound.small (fun reading found => ⟨input.now, rfl, sources reading found⟩)
      (fun _ _ => rfl) ⟨fun current => ⟨mine.1 current, ?_⟩, mine.2, input.now, rfl, le_rfl⟩ ?_
    · intro entry member
      obtain ⟨reading, found, before⟩ := sound.past entry member
      exact before.trans (timestampMillis_mono (sources reading found))
    · intro other drawn
      rw [state]
      exact .inl drawn
  | timed prevHash id createdAt =>
    rw [state] at allows mine
    obtain ⟨event, rfl, rfl, rfl, rfl, matching⟩ := allows
    cases failing : input.failure with
    | some error =>
      rw [Database.exec_of_failure rfl failing]
      exact sound.stay rfl (fun _ _ => rfl) trivial rfl
    | none =>
      rw [Database.exec_of_failure_none failing]
      dsimp only [Database.perform]
      have other_docs (text : String) (different : text ≠ event.id.toText) :
          storedEvent (contents.put (.auditEvent event.id.toText) event) text =
            storedEvent contents text :=
        Database.Contents.docs_put_of_ne _ (by simpa using different) _
      have kept : ∀ text ∈ (contents.sets (.audit agentId)).members,
          storedEvent (contents.put (.auditEvent event.id.toText) event) text =
            storedEvent contents text := by
        intro text member
        apply other_docs
        rintro rfl
        exact mine.2.1.2 member
      have sets : (contents.put (.auditEvent event.id.toText) event).sets (.audit agentId) =
          contents.sets (.audit agentId) := rfl
      refine sound.move sets kept ?_ (fun _ issued => issued) sound.small
        (fun reading found => ⟨reading, found, le_rfl⟩) (fun _ _ => rfl) ?_ ?_
      · intro other different written storing
        apply other_docs
        intro same
        have drawn : (locals other).drawn = some written.id := by
          rw [storing]
          rfl
        have theirs := (sound.knows other).issued drawn
        have same_id := (Uuid.toText_inj (sound.small _ theirs.1)
          (sound.small _ mine.2.1.1)).mp same
        apply different
        apply sound.distinct other thread written.id drawn
        rw [state, same_id]
        rfl
      · refine ⟨fun current => ?_, mine.2.1, mine.2.2, matching, ?_⟩
        · rw [auditLog_congr sets kept]
          exact mine.1 current
        · exact Database.Contents.docs_put_self _ _ _
      · intro other drawn
        rw [state]
        exact .inl drawn
  | stored event =>
    rw [state] at allows mine
    obtain rfl : command = .zadd (.audit agentId) event.id.toText
      (timestampMillis event.createdAt) := allows
    cases failing : input.failure with
    | some error =>
      rw [Database.exec_of_failure rfl failing]
      exact sound.stay rfl (fun _ _ => rfl) trivial rfl
    | none =>
      rw [Database.exec_of_failure_none failing]
      simp only [EntersInTurn, running] at turn
      obtain ⟨current, ties⟩ := turn failing
      exact sound.enter state current ties
  | finished =>
    rw [state] at allows
    exact allows.elim

theorem valid_of_linked {events : List AgentIdentityAuditEvent}
    (linked : Linked sha256Hex none events) :
    (verifyAuditChain sha256Hex events).valid = true := by
  rcases legacy_or_append events with unhashed | ⟨legacy, event, chain, rfl, unhashed, hashed⟩
  · exact valid_of_legacy unhashed
  · obtain ⟨_, names, matching, behind⟩ := linked_append.mp linked
    refine (valid_append_iff unhashed hashed).mpr ⟨⟨matching, ?_⟩, behind⟩
    rintro rfl
    exact names

theorem reportsValid_iff :
    ReportsValid sha256Hex agentId contents ↔
      (verifyAuditChain sha256Hex (auditLog agentId contents)).valid = true := by
  have reads (inputs : Nat → Database.Input AgentAnswer MnemoError)
      (calm : ∀ position, (inputs position).failure = none) :
      ((verifyAgentAuditChain sha256Hex agentId).eval Database.exec inputs contents).1 =
        .ok (verifyAuditChain sha256Hex (auditLog agentId contents)) := by
    have described : Database.ReadsAs (fun input => input.failure = none) (fun _ _ => True)
        (verifyAuditChain sha256Hex (auditLog agentId contents))
        (verifyAgentAuditChain sha256Hex agentId) contents := readsAs_verifyAgentAuditChain
    rcases (described.eval calm).2 with value | ⟨⟨input, allowed, fails⟩, _⟩
    · exact value
    · rw [allowed] at fails
      cases fails
  constructor
  · intro valid
    obtain ⟨verification, ends, good⟩ := valid (fun _ => untroubled 0 0) fun _ => rfl
    rw [reads _ fun _ => rfl] at ends
    obtain rfl := Except.ok.inj ends
    exact good
  · intro valid inputs calm
    exact ⟨_, reads inputs calm, valid⟩

/-- However appends to the log of an agent interleave, the chain is reported valid as long as events
enter the log in turn. -/
theorem appended_chain_valid
    (empty : (contents.sets (.audit agentId)).members = [])
    (issued : ∀ id ∈ contents.issued, id < Uuid.bound) {events : List AppendEvent}
    (sources : StateMachine.Guarded (appendStep sha256Hex agentId) SoundSources
      (Observed.idle (appendProtocol sha256Hex agentId) contents .blank) events)
    (turn : StateMachine.Guarded (appendStep sha256Hex agentId) (EntersInTurn agentId)
      (Observed.idle (appendProtocol sha256Hex agentId) contents .blank) events) :
    StateMachine.Always
      (Program.Server.step Database.exec (AuditAppend.handle sha256Hex agentId))
      (fun server => ReportsValid sha256Hex agentId server.shared)
      (Program.Server.idle contents) events := by
  have initially : LogSound sha256Hex agentId contents (fun _ => .idle) .blank := by
    have entries : (contents.sets (.audit agentId)).entries = [] := List.map_eq_nil_iff.mp empty
    refine ⟨issued, ?_, ?_, ?_, fun _ => trivial, fun _ _ _ impossible => nomatch impossible⟩
    · intro text member
      rw [empty] at member
      cases member
    · unfold auditLog storedEvents
      rw [empty]
      trivial
    · intro entry member
      rw [entries] at member
      cases member
  have sound := Observed.always_sound AuditAppend.follows
    (fun observed thread append command continuation input sound running allows admissible =>
      ⟨trivial, sound.holds.perform running allows admissible.1 admissible.2⟩)
    (Observed.Sound.idle initially) (sources.and turn)
  have valid := sound.mono fun observed all =>
    reportsValid_iff.mpr (valid_of_linked all.holds.linked)
  exact Observed.always_server (fun server => ReportsValid sha256Hex agentId server.shared) valid

end Runs

/-- The append of the creation of an agent. -/
def creationAppend : AuditAppend :=
  { action := .created, fromVersion := none, toVersion := 1, rollbackToVersion := none
    reason := none }

/-- The append of the first update. -/
def updateAppend : AuditAppend :=
  { action := .updated, fromVersion := some 1, toVersion := 2, rollbackToVersion := none
    reason := none }

/-- One append after the other, in the same millisecond. -/
def appendsInTurn : List AppendEvent :=
  .arrive 0 creationAppend :: List.replicate 5 (.advance 0 (untroubled 1 0)) ++
    .arrive 1 updateAppend :: List.replicate 6 (.advance 1 (untroubled 2 0))

theorem appended_chain_valid_appendsInTurn :
    StateMachine.Always
      (Program.Server.step Database.exec (AuditAppend.handle markedText "helper"))
      (fun server => ReportsValid markedText "helper" server.shared)
      (Program.Server.idle noAgents) appendsInTurn := by
  refine appended_chain_valid rfl (fun _ drawn => absurd drawn List.not_mem_nil) ?_ ?_
  · refine ⟨trivial, trivial, ?_, ?_, trivial, trivial, trivial, trivial, trivial, ?_, ?_, trivial,
      trivial, trivial⟩
    · exact (by decide : 1 < Uuid.bound)
    · exact fun _ found => nomatch found
    · exact (by decide : 2 < Uuid.bound)
    · intro latest found
      obtain rfl := Option.some.inj found
      exact le_rfl
  · refine ⟨trivial, trivial, trivial, trivial, trivial, ?_, trivial, trivial, trivial, trivial,
      trivial, trivial, ?_, trivial⟩
    · exact fun _ => ⟨rfl, fun _ member => absurd member List.not_mem_nil⟩
    · exact fun _ => ⟨rfl, by decide⟩

/-- Two appends look up the latest event before one of them has entered its own. -/
def overlappingAppends : List AppendEvent :=
  .arrive 0 creationAppend :: .arrive 1 updateAppend ::
    .advance 0 (untroubled 1 0) :: .advance 1 (untroubled 2 0) ::
    (List.replicate 4 (.advance 0 (untroubled 1 0)) ++
      List.replicate 4 (.advance 1 (untroubled 2 1000000)))

/-- Two appends that overlap name the same event as the one before. -/
theorem overlapping_appends_break_chain :
    ¬ ∀ (sha256Hex : String → String) (agentId : String) (events : List AppendEvent),
      StateMachine.Guarded (appendStep sha256Hex agentId) SoundSources
        (Observed.idle (appendProtocol sha256Hex agentId) noAgents .blank) events →
      ReportsValid sha256Hex agentId
        (StateMachine.finish
          (Program.Server.step Database.exec (AuditAppend.handle sha256Hex agentId))
          (Program.Server.idle noAgents) events).shared := by
  intro valid
  have accepted := reportsValid_iff.mp (valid markedText "helper" overlappingAppends ?_)
  · revert accepted
    decide
  · refine ⟨trivial, trivial, trivial, trivial, ?_, ?_, trivial, trivial, ?_, ?_, trivial, trivial,
      trivial⟩
    · exact (by decide : 1 < Uuid.bound)
    · exact fun _ found => nomatch found
    · exact (by decide : 2 < Uuid.bound)
    · intro latest found
      obtain rfl := Option.some.inj found
      decide

end Agent
end Mnemo
