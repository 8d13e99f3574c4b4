import Mnemo.Agent.Footprint
import Mnemo.Agent.Routes
import Mnemo.Core.Uuid
import Mnemo.Lib.Protocol

/-!
# The separation of agents

What the operations on one agent leave alone of another one.  Every operation follows a protocol:
it writes under its own agents, and stores events only under identifiers that it has drawn.
-/

namespace Mnemo
namespace Agent

open Auth (CallerContext)
open Database (Command)
open Program.Protocol (Follows)

/-! ## What belongs to an agent -/

/-- The keys that an agent apart from another one may write, with the identifiers it has drawn. -/
def AgentKey.Apart (other : String) (drawn : List Uuid) : AgentKey → Prop
  | .identity owner | .version owner _ | .forkAudit owner _ | .forkExperience owner _ =>
      owner ≠ other
  | .auditEvent text | .experience text => ∃ id ∈ drawn, id.toText = text
  | _ => True

/-- The indexes that are not those of an agent. -/
def AgentIndex.Apart (other : String) : AgentIndex → Prop
  | .versions owner | .audit owner | .forkAudit owner | .experiences owner
  | .forkExperiences owner => owner ≠ other
  | _ => True

/-- The identity, the versions, the events and the audit log of an agent. -/
def AgentKey.BelongsTo (other : String) (contents : AgentContents) : AgentKey → Prop
  | .identity owner | .version owner _ | .forkAudit owner _ | .forkExperience owner _ =>
      owner = other
  | .auditEvent text => text ∈ (contents.sets (.audit other)).members ∨
      ∃ event, contents.docs (.auditEvent text) = some event ∧
        AgentIdentityAuditEvent.agentId event = other
  | .experience text => text ∈ (contents.sets (.experiences other)).members ∨
      ∃ event, contents.docs (.experience text) = some event ∧
        ExperienceEvent.agentId event = other
  | _ => False

/-- Nothing that belongs to an agent has changed. -/
structure Untouched (other : String) (before after : AgentContents) : Prop where
  docs : ∀ key : AgentKey, key.BelongsTo other before → after.docs key = before.docs key
  sets : ∀ index : AgentIndex, ¬ index.Apart other → after.sets index = before.sets index

/-- No identifier that was drawn since names an event of an agent. -/
def FreshDraws (other : String) (before after : AgentContents) : Prop :=
  ∀ id : Uuid, id ∈ after.issued → id ∉ before.issued →
    ¬ (AgentKey.auditEvent id.toText).BelongsTo other before ∧
      ¬ (AgentKey.experience id.toText).BelongsTo other before

/-! ## The protocol of operations that stay apart -/

/-- A command leaves what belongs to an agent alone. -/
def Spares (other : String) (drawn : List Uuid) : AgentCommand → Prop
  | .set key _ | .del key => key.Apart other drawn
  | .zadd index _ _ | .zrem index _ | .zdel index => index.Apart other
  | _ => True

/-- The identifiers that were drawn after a reply. -/
def drawnAfter (drawn : List Uuid) : (command : AgentCommand) →
    Except MnemoError (command.Reply AgentAnswer) → List Uuid
  | .freshId, .ok id => id :: drawn
  | _, _ => drawn

theorem subset_drawnAfter (drawn : List Uuid) (command : AgentCommand)
    (reply : Except MnemoError (command.Reply AgentAnswer)) :
    drawn ⊆ drawnAfter drawn command reply := by
  unfold drawnAfter
  split
  · exact fun _ member => List.mem_cons_of_mem _ member
  · exact List.Subset.refl _

/-- An operation remembers what it has drawn, and leaves the other agent alone. -/
def separation (other : String) :
    Program.Protocol AgentCommand (·.Reply AgentAnswer) MnemoError (List Uuid) where
  start := []
  allowed := Spares other
  expected _ _ _ := True
  next := drawnAfter

/-- An operation that has drawn some identifiers stays apart from an agent, and forgets none. -/
abbrev StaysApart {α : Type} (other : String) (drawn : List Uuid) (program : AgentProgram α) :
    Prop :=
  (separation other).Follows (fun last _ => drawn ⊆ last) drawn program

theorem AgentKey.Apart.mono {other : String} {drawn more : List Uuid} (grows : drawn ⊆ more)
    {key : AgentKey} (apart : key.Apart other drawn) : key.Apart other more := by
  cases key with
  | auditEvent text =>
    obtain ⟨id, member, printed⟩ := apart
    exact ⟨id, grows member, printed⟩
  | experience text =>
    obtain ⟨id, member, printed⟩ := apart
    exact ⟨id, grows member, printed⟩
  | _ => exact apart

/-- What the database has become since an operation began. -/
structure SeparatedFrom (other : String) (before : AgentContents) (drawn : List Uuid)
    (contents : AgentContents) : Prop where
  docs : ∀ key : AgentKey, ¬ key.Apart other drawn → contents.docs key = before.docs key
  sets : ∀ index : AgentIndex, ¬ index.Apart other → contents.sets index = before.sets index
  grows : before.issued ⊆ contents.issued
  issued : ∀ id ∈ drawn, id ∈ contents.issued ∧ id ∉ before.issued

section Steps

variable {other : String} {before contents : AgentContents} {drawn : List Uuid}

theorem SeparatedFrom.refl (other : String) (before : AgentContents) :
    SeparatedFrom other before [] before where
  docs _ _ := rfl
  sets _ _ := rfl
  grows := List.Subset.refl _
  issued _ member := nomatch member

theorem SeparatedFrom.put (separated : SeparatedFrom other before drawn contents)
    {key : AgentKey} (apart : key.Apart other drawn) (doc : AgentDoc key) :
    SeparatedFrom other before drawn (contents.put key doc) where
  docs place within := by
    have different : place ≠ key := by
      rintro rfl
      exact within apart
    rw [Database.Contents.docs_put_of_ne contents different]
    exact separated.docs place within
  sets := separated.sets
  grows := separated.grows
  issued := separated.issued

theorem SeparatedFrom.remove (separated : SeparatedFrom other before drawn contents)
    {key : AgentKey} (apart : key.Apart other drawn) :
    SeparatedFrom other before drawn (contents.remove key) where
  docs place within := by
    have different : place ≠ key := by
      rintro rfl
      exact within apart
    rw [Database.Contents.docs_remove_of_ne contents different]
    exact separated.docs place within
  sets := separated.sets
  grows := separated.grows
  issued := separated.issued

theorem SeparatedFrom.withSet (separated : SeparatedFrom other before drawn contents)
    {index : AgentIndex} (apart : index.Apart other) (set : SortedSet String) :
    SeparatedFrom other before drawn (contents.withSet index set) where
  docs := separated.docs
  sets place within := by
    have different : place ≠ index := by
      rintro rfl
      exact within apart
    rw [Database.Contents.sets_withSet_of_ne contents different]
    exact separated.sets place within
  grows := separated.grows
  issued := separated.issued

theorem SeparatedFrom.draw (separated : SeparatedFrom other before drawn contents) {id : Uuid}
    (fresh : id ∉ contents.issued) :
    SeparatedFrom other before (id :: drawn) (contents.draw id) where
  docs place within := by
    apply separated.docs place
    intro apart
    exact within (apart.mono fun _ member => List.mem_cons_of_mem _ member)
  sets := separated.sets
  grows _ member := List.mem_cons_of_mem _ (separated.grows member)
  issued recent member := by
    rcases List.mem_cons.mp member with rfl | earlier
    · exact ⟨List.mem_cons_self, fun old => fresh (separated.grows old)⟩
    · obtain ⟨known, new⟩ := separated.issued recent earlier
      exact ⟨List.mem_cons_of_mem _ known, new⟩

/-- Every command of the protocol keeps the database separated. -/
theorem SeparatedFrom.perform (separated : SeparatedFrom other before drawn contents)
    {command : AgentCommand} (spares : Spares other drawn command)
    (input : Database.Input AgentAnswer MnemoError) :
    SeparatedFrom other before
      (drawnAfter drawn command (Database.exec command input contents).1)
      (Database.exec command input contents).2 := by
  cases command with
  | freshId =>
    rw [Database.exec_freshId]
    exact separated.draw (Database.unused_notMem _ _)
  | clock =>
    rw [Database.exec_clock]
    exact separated
  | service call => exact call.elim
  | set key doc =>
    cases failing : input.failure with
    | some error =>
      rw [Database.exec_of_failure rfl failing]
      exact separated
    | none =>
      rw [Database.exec_of_failure_none failing]
      exact separated.put spares doc
  | del key =>
    cases failing : input.failure with
    | some error =>
      rw [Database.exec_of_failure rfl failing]
      exact separated
    | none =>
      rw [Database.exec_of_failure_none failing]
      exact separated.remove spares
  | zadd index member score =>
    cases failing : input.failure with
    | some error =>
      rw [Database.exec_of_failure rfl failing]
      exact separated
    | none =>
      rw [Database.exec_of_failure_none failing]
      exact separated.withSet spares _
  | zrem index member =>
    cases failing : input.failure with
    | some error =>
      rw [Database.exec_of_failure rfl failing]
      exact separated
    | none =>
      rw [Database.exec_of_failure_none failing]
      exact separated.withSet spares _
  | zdel index =>
    cases failing : input.failure with
    | some error =>
      rw [Database.exec_of_failure rfl failing]
      exact separated
    | none =>
      rw [Database.exec_of_failure_none failing]
      exact separated.withSet spares _
  | _ =>
    rw [Database.exec_readOnly rfl]
    exact separated

theorem SeparatedFrom.untouched (separated : SeparatedFrom other before drawn contents)
    (fresh : FreshDraws other before contents) : Untouched other before contents where
  docs key belongs := by
    apply separated.docs key
    intro apart
    cases key with
    | identity owner => exact apart belongs
    | version owner number => exact apart belongs
    | forkAudit owner id => exact apart belongs
    | forkExperience owner id => exact apart belongs
    | auditEvent text =>
      obtain ⟨id, member, rfl⟩ := apart
      obtain ⟨known, new⟩ := separated.issued id member
      exact (fresh id known new).1 belongs
    | experience text =>
      obtain ⟨id, member, rfl⟩ := apart
      obtain ⟨known, new⟩ := separated.issued id member
      exact (fresh id known new).2 belongs
    | _ => exact belongs
  sets := separated.sets

theorem StaysApart.untouched {α : Type} {program : AgentProgram α}
    (apart : StaysApart other [] program) (before : AgentContents)
    (inputs : Nat → Database.Input AgentAnswer MnemoError)
    (fresh : FreshDraws other before (program.eval Database.exec inputs before).2) :
    Untouched other before (program.eval Database.exec inputs before).2 := by
  have kept (drawn : List Uuid) (command : AgentCommand)
      (input : Database.Input AgentAnswer MnemoError) (contents : AgentContents)
      (spares : Spares other drawn command)
      (separated : SeparatedFrom other before drawn contents) (_ : True) :
      True ∧ SeparatedFrom other before
        (drawnAfter drawn command (Database.exec command input contents).1)
        (Database.exec command input contents).2 :=
    ⟨trivial, separated.perform spares input⟩
  have ensured : Program.Ensures Database.exec (fun _ => True) (fun _ _ => True)
      (fun _ final => ∃ last, [] ⊆ last ∧ SeparatedFrom other before last final) program before :=
    Follows.ensures kept (fun _ _ _ _ _ => trivial) apart (SeparatedFrom.refl other before)
  obtain ⟨last, _, separated⟩ := ensured.eval fun position => trivial
  exact separated.untouched fresh

end Steps

/-! ## Commands -/

namespace StaysApart

variable {α β : Type} {other : String} {drawn : List Uuid}

theorem bind {program : AgentProgram α} {next : α → AgentProgram β}
    (first : StaysApart other drawn program)
    (rest : ∀ more value, drawn ⊆ more → StaysApart other more (next value)) :
    StaysApart other drawn (program >>= next) := by
  apply Follows.bind first
  · intro more value grows
    apply (rest more value grows).mono
    exact fun last _ grown => List.Subset.trans grows grown
  · exact fun last error grows => grows

theorem attempt_bind {program : AgentProgram α} {next : Except MnemoError α → AgentProgram β}
    (first : StaysApart other drawn program)
    (rest : ∀ more outcome, drawn ⊆ more → StaysApart other more (next outcome)) :
    StaysApart other drawn (program.attempt >>= next) := by
  apply Follows.bind_attempt first
  intro more outcome grows
  apply (rest more outcome grows).mono
  exact fun last _ grown => List.Subset.trans grows grown

theorem done (value : α) : StaysApart other drawn (.done value : AgentProgram α) :=
  Follows.done (List.Subset.refl _)

theorem fail (error : MnemoError) : StaysApart other drawn (.fail error : AgentProgram α) :=
  Follows.fail (List.Subset.refl _)

theorem ofExcept_bind {outcome : Except MnemoError α} {next : α → AgentProgram β}
    (rest : ∀ value, outcome = .ok value → StaysApart other drawn (next value)) :
    StaysApart other drawn (Program.ofExcept outcome >>= next) :=
  Follows.bind_ofExcept rest fun _ => List.Subset.refl _

theorem call {command : AgentCommand} (spares : Spares other drawn command) :
    StaysApart other drawn (Program.call command : AgentProgram (command.Reply AgentAnswer)) := by
  refine Follows.perform spares fun reply _ => ?_
  have grows : drawn ⊆ drawnAfter drawn command reply := subset_drawnAfter drawn command reply
  cases reply with
  | ok value => exact Follows.done grows
  | error error => exact Follows.fail grows

end StaysApart

namespace Redis

variable {β : Type} {other : String} {drawn : List Uuid}

theorem apart_get (key : AgentKey) : StaysApart other drawn (get key) :=
  @StaysApart.call _ _ (.get key) trivial

theorem apart_set (key : AgentKey) (apart : key.Apart other drawn) (doc : AgentDoc key) :
    StaysApart other drawn (set key doc) :=
  @StaysApart.call _ _ (.set key doc) apart

theorem apart_del (key : AgentKey) (apart : key.Apart other drawn) :
    StaysApart other drawn (del key) :=
  @StaysApart.call _ _ (.del key) apart

theorem apart_zadd (index : AgentIndex) (apart : index.Apart other) (member : String)
    (score : Int) : StaysApart other drawn (zadd index member score) :=
  @StaysApart.call _ _ (.zadd index member score) apart

theorem apart_zrem (index : AgentIndex) (apart : index.Apart other) (member : String) :
    StaysApart other drawn (zrem index member) := by
  apply StaysApart.bind (@StaysApart.call _ _ (.zrem index member) apart)
  exact fun _ _ _ => StaysApart.done _

theorem apart_zdel (index : AgentIndex) (apart : index.Apart other) :
    StaysApart other drawn (zdel index) :=
  @StaysApart.call _ _ (.zdel index) apart

theorem apart_zrevrange (index : AgentIndex) (start stop : Int) :
    StaysApart other drawn (zrevrange index start stop) :=
  @StaysApart.call _ _ (.zrevrange index start stop) trivial

theorem apart_now : StaysApart other drawn now :=
  @StaysApart.call _ _ .clock trivial

theorem apart_newId_bind {next : Uuid → AgentProgram β}
    (rest : ∀ id, StaysApart other (id :: drawn) (next id)) :
    StaysApart other drawn (newId >>= next) := by
  apply Follows.bind_call trivial
  · intro id _
    apply (rest id).mono
    exact fun last _ grown => List.Subset.trans (List.subset_cons_self _ _) grown
  · exact fun error _ => List.Subset.refl _

theorem apart_getRequired (key : AgentKey) (notFound : MnemoError) :
    StaysApart other drawn (getRequired key notFound) := by
  apply (apart_get key).bind
  intro more reply _
  cases reply with
  | some doc => exact StaysApart.done _
  | none => exact StaysApart.fail _

end Redis

open Redis

/-! ## The operations of the store -/

section Store

variable {sha256Hex : String → String} {owner other : String} {drawn : List Uuid}

theorem apart_latestAuditHash : StaysApart other drawn (latestAuditHash owner) := by
  apply (apart_zrevrange _ _ _).bind
  intro drawn ids _
  cases ids with
  | nil => exact .done _
  | cons latestId older =>
    apply (apart_get _).bind
    exact fun _ _ _ => .done _

theorem apart_appendIdentityAudit (different : owner ≠ other) (action : AgentIdentityAuditAction)
    (fromVersion : Option Nat) (toVersion : Nat) (rollbackToVersion : Option Nat)
    (reason : Option String) :
    StaysApart other drawn (appendIdentityAudit sha256Hex owner action fromVersion toVersion
      rollbackToVersion reason) := by
  apply apart_latestAuditHash.bind
  intro drawn prevHash _
  apply apart_newId_bind
  intro id
  apply apart_now.bind
  intro drawn createdAt remembered
  apply StaysApart.bind
    (apart_set (.auditEvent id.toText) ⟨id, remembered List.mem_cons_self, rfl⟩ _)
  intro drawn _ _
  exact apart_zadd (.audit owner) different _ _

theorem apart_persistIdentitySnapshot (different : owner ≠ other)
    (identity : AgentIdentityProfile) :
    StaysApart other drawn (persistIdentitySnapshot owner identity) := by
  apply StaysApart.bind (apart_set (.identity owner) different _)
  intro drawn _ _
  apply StaysApart.bind (apart_set (.version owner identity.version) different _)
  intro drawn _ _
  exact apart_zadd (.versions owner) different _ _

theorem apart_indexAgent (identity : AgentIdentityProfile) :
    StaysApart other drawn (indexAgent owner identity) :=
  apart_zadd .agents trivial _ _

theorem apart_introduce {Result : Type} (different : owner ≠ other)
    (identity : AgentIdentityProfile) (result : Result) :
    StaysApart other drawn (do
      persistIdentitySnapshot owner identity
      appendIdentityAudit sha256Hex owner .created none identity.version none none
      indexAgent owner identity
      return result) := by
  apply (apart_persistIdentitySnapshot different _).bind
  intro drawn _ _
  apply (apart_appendIdentityAudit different _ _ _ _ _).bind
  intro drawn _ _
  apply (apart_indexAgent _).bind
  exact fun _ _ _ => .done _

theorem apart_registerAgent (different : owner ≠ other) (description : Option String) :
    StaysApart other drawn (registerAgent sha256Hex owner description) := by
  apply (apart_get _).bind
  intro drawn stored _
  cases stored with
  | some existing =>
    cases description with
    | some description =>
      apply apart_now.bind
      intro drawn updatedAt _
      apply StaysApart.bind (apart_set (.identity owner) different _)
      intro drawn _ _
      apply (apart_indexAgent _).bind
      exact fun _ _ _ => .done _
    | none =>
      apply (apart_indexAgent _).bind
      exact fun _ _ _ => .done _
  | none =>
    apply apart_now.bind
    intro drawn now _
    exact apart_introduce different _ _

theorem apart_getAgentIdentity (different : owner ≠ other) :
    StaysApart other drawn (getAgentIdentity sha256Hex owner) := by
  apply (apart_get _).bind
  intro drawn stored _
  cases stored with
  | some identity => exact .done _
  | none =>
    apply apart_now.bind
    intro drawn now _
    exact apart_introduce different _ _

theorem apart_advance (different : owner ≠ other) (identity : AgentIdentityProfile)
    (action : AgentIdentityAuditAction) (fromVersion rollbackToVersion : Option Nat)
    (reason : Option String) :
    StaysApart other drawn (do
      persistIdentitySnapshot owner identity
      appendIdentityAudit sha256Hex owner action fromVersion identity.version rollbackToVersion
        reason
      return identity) := by
  apply (apart_persistIdentitySnapshot different _).bind
  intro drawn _ _
  apply (apart_appendIdentityAudit different _ _ _ _ _).bind
  exact fun _ _ _ => .done _

theorem apart_updateAgentIdentity (different : owner ≠ other) (core : Json) :
    StaysApart other drawn (updateAgentIdentity sha256Hex owner core) := by
  apply (apart_getAgentIdentity different).bind
  intro drawn identity _
  apply apart_now.bind
  intro drawn now _
  exact apart_advance different _ _ _ _ _

theorem apart_rollbackAgentIdentity (different : owner ≠ other) (targetVersion : Nat)
    (reason : Option String) :
    StaysApart other drawn (rollbackAgentIdentity sha256Hex owner targetVersion reason) := by
  apply (apart_getRequired _ _).bind
  intro drawn target _
  apply (apart_getAgentIdentity different).bind
  intro drawn current _
  apply apart_now.bind
  intro drawn now _
  exact apart_advance different _ _ _ _ _

theorem apart_deleteAgent (different : owner ≠ other) :
    StaysApart other drawn (deleteAgent owner) := by
  apply (apart_getRequired _ _).bind
  intro drawn _ _
  apply (apart_del (.identity owner) different).bind
  intro drawn _ _
  apply (apart_zrem .agents trivial owner).bind
  intro drawn _ _
  apply (apart_zdel (.episodes owner) trivial).attempt_bind
  intro drawn _ _
  apply (apart_zdel (.sessions owner) trivial).attempt_bind
  exact fun _ _ _ => .done _

/-! ## Branches -/

theorem apart_getBranchMetadata (branchName : String) :
    StaysApart other drawn (getBranchMetadata owner branchName) :=
  apart_getRequired (branchKey owner branchName) _

theorem apart_requireUnmerged (metadata : BranchMetadata) (branchName : String) :
    StaysApart other drawn (requireUnmerged metadata branchName) := by
  unfold requireUnmerged
  split
  · exact .fail _
  · exact .done _

theorem apart_createAgentBranch (different : owner ≠ other) (request : CreateBranchRequest)
    (elsewhere : validateBranchName request.branchName = .ok () →
      branchAgentId owner request.branchName ≠ other) :
    StaysApart other drawn (createAgentBranch sha256Hex owner request) := by
  apply StaysApart.ofExcept_bind
  intro _ valid
  apply (apart_get _).bind
  intro drawn existing _
  dsimp only
  split
  · exact .fail _
  · apply (apart_getAgentIdentity different).bind
    intro drawn parent _
    apply apart_now.bind
    intro drawn updatedAt _
    apply StaysApart.bind
      (apart_set (.identity (branchAgentId owner request.branchName)) (elsewhere valid) _)
    intro drawn _ _
    apply apart_now.bind
    intro drawn createdAt _
    apply StaysApart.bind (apart_set (branchKey owner request.branchName) trivial _)
    intro drawn _ _
    apply (apart_zadd (.branches owner) trivial _ _).bind
    intro drawn _ _
    apply (apart_appendIdentityAudit different _ _ _ _ _).bind
    exact fun _ _ _ => .done _

theorem apart_getAgentBranch {branchName : String}
    (elsewhere : branchAgentId owner branchName ≠ other) :
    StaysApart other drawn (getAgentBranch sha256Hex owner branchName) := by
  apply (apart_getBranchMetadata branchName).bind
  intro drawn metadata _
  apply (apart_getAgentIdentity elsewhere).bind
  exact fun _ _ _ => .done _

theorem apart_updateAgentBranch {branchName : String}
    (elsewhere : branchAgentId owner branchName ≠ other) (core : Json) :
    StaysApart other drawn (updateAgentBranch sha256Hex owner branchName core) := by
  apply (apart_getBranchMetadata branchName).bind
  intro drawn metadata _
  apply (apart_requireUnmerged _ _).bind
  intro drawn _ _
  exact apart_updateAgentIdentity elsewhere core

theorem apart_mergeAgentBranch (different : owner ≠ other) {branchName : String}
    (elsewhere : branchAgentId owner branchName ≠ other) :
    StaysApart other drawn (mergeAgentBranch sha256Hex owner branchName) := by
  apply (apart_getBranchMetadata branchName).bind
  intro drawn metadata _
  apply (apart_requireUnmerged _ _).bind
  intro drawn _ _
  apply (apart_getAgentIdentity elsewhere).bind
  intro drawn branchIdentity _
  apply (apart_getAgentIdentity different).bind
  intro drawn parentBefore _
  apply (apart_updateAgentIdentity different _).bind
  intro drawn merged _
  apply StaysApart.bind (apart_set (branchKey owner branchName) trivial _)
  intro drawn _ _
  apply (apart_appendIdentityAudit different _ _ _ _ _).bind
  exact fun _ _ _ => .done _

theorem apart_deleteAgentBranch (different : owner ≠ other) {branchName : String}
    (elsewhere : branchAgentId owner branchName ≠ other) :
    StaysApart other drawn (deleteAgentBranch sha256Hex owner branchName) := by
  apply (apart_getBranchMetadata branchName).bind
  intro drawn metadata _
  apply (apart_del (.identity (branchAgentId owner branchName)) elsewhere).bind
  intro drawn _ _
  apply (apart_del (branchKey owner branchName) trivial).bind
  intro drawn _ _
  apply (apart_zrem (.branches owner) trivial branchName).bind
  intro drawn _ _
  apply (apart_getAgentIdentity different).bind
  intro drawn parent _
  exact apart_appendIdentityAudit different _ _ _ _ _

/-! ## Forks, experiences and proposals -/

theorem apart_getExperiences (ids : List String) : StaysApart other drawn (getExperiences ids) := by
  induction ids generalizing drawn with
  | nil => exact .done _
  | cons id ids ih =>
    apply (apart_get _).bind
    intro drawn event _
    apply ih.bind
    exact fun _ _ _ => .done _

theorem apart_listExperienceEvents (limit : Nat) :
    StaysApart other drawn (listExperienceEvents owner limit) := by
  apply (apart_zrevrange _ _ _).bind
  exact fun _ ids _ => apart_getExperiences ids

theorem apart_transferExperiences (different : owner ≠ other) (events : List ExperienceEvent) :
    StaysApart other drawn (transferExperiences owner events) := by
  induction events generalizing drawn with
  | nil => exact .done _
  | cons event events ih =>
    apply apart_newId_bind
    intro id
    apply StaysApart.bind (apart_set (.forkExperience owner id.toText) different _)
    intro drawn _ _
    apply (apart_zadd (.forkExperiences owner) different _ _).bind
    intro drawn _ _
    apply ih.bind
    exact fun _ _ _ => .done _

theorem apart_appendForkAudit (different : owner ≠ other) (description : Option String) :
    StaysApart other drawn (appendForkAudit sha256Hex owner description) := by
  apply apart_newId_bind
  intro id
  apply apart_now.bind
  intro drawn createdAt _
  apply StaysApart.bind (apart_set (.forkAudit owner id.toText) different _)
  intro drawn _ _
  exact apart_zadd (.forkAudit owner) different _ _

theorem apart_forkAgent (different : owner ≠ other) {request : ForkAgentRequest}
    (newDifferent : request.newAgentId ≠ other) :
    StaysApart other drawn (forkAgent sha256Hex owner request) := by
  apply StaysApart.ofExcept_bind
  intro _ _
  apply (apart_get _).bind
  intro drawn existing _
  dsimp only
  split
  · exact .fail _
  · apply (apart_getAgentIdentity different).bind
    intro drawn source _
    apply apart_now.bind
    intro drawn updatedAt _
    apply StaysApart.bind (apart_set (.identity request.newAgentId) newDifferent _)
    intro drawn _ _
    apply (apart_persistIdentitySnapshot newDifferent _).bind
    intro drawn _ _
    apply (apart_listExperienceEvents _).bind
    intro drawn sourceEvents _
    apply (apart_transferExperiences newDifferent _).bind
    intro drawn transferred _
    apply apart_now.bind
    intro drawn forkedAt _
    apply StaysApart.bind (apart_set (.lineage request.newAgentId) trivial _)
    intro drawn _ _
    apply (apart_appendForkAudit newDifferent _).bind
    intro drawn _ _
    apply (apart_appendIdentityAudit different _ _ _ _ _).bind
    exact fun _ _ _ => .done _

theorem apart_orNow (instant : Option DateTime) : StaysApart other drawn (orNow instant) := by
  cases instant with
  | some instant => exact .done _
  | none => exact apart_now

theorem apart_addExperienceEvent_bind {Result : Type} (different : owner ≠ other)
    {request : CreateExperienceRequest} (anonymous : request.id = none)
    {next : ExperienceEvent → AgentProgram Result}
    (rest : ∀ more event, ExperienceEvent.id event ∈ more → StaysApart other more (next event)) :
    StaysApart other drawn (addExperienceEvent owner request >>= next) := by
  unfold addExperienceEvent
  rw [anonymous]
  rw [Program.bind_bind]
  apply apart_newId_bind
  intro id
  rw [Program.bind_bind]
  apply (apart_orNow request.createdAt).bind
  intro drawn createdAt remembered
  have known : id ∈ drawn := remembered List.mem_cons_self
  dsimp only
  rw [Program.bind_bind]
  apply StaysApart.bind (apart_set (.experience (Uuid.toText id)) ⟨id, known, rfl⟩ _)
  intro drawn _ grows
  rw [Program.bind_bind]
  apply StaysApart.bind (apart_zadd (.experiences owner) different _ _)
  intro drawn _ grown
  apply rest
  exact grown (grows known)

theorem apart_createPromotionProposal (request : CreatePromotionProposalRequest) :
    StaysApart other drawn (createPromotionProposal owner request) := by
  have store (id : Uuid) (drawn : List Uuid) : StaysApart other drawn (do
      let createdAt ← Redis.now
      let proposal : PromotionProposal :=
        { id, agentId := owner, proposal := request.proposal, candidateCore := request.candidateCore
          reason := request.reason, riskLevel := request.riskLevel, status := .pending
          sourceEventIds := request.sourceEventIds, approvers := [], approvedAt := none
          rejectedAt := none, expiredAt := none, createdAt }
      Redis.set (.proposal proposal.id) proposal
      Redis.zadd (.proposals owner) proposal.id.toText (timestampMillis proposal.createdAt)
      return proposal) := by
    apply apart_now.bind
    intro drawn createdAt _
    apply StaysApart.bind (apart_set (.proposal id) trivial _)
    intro drawn _ _
    apply (apart_zadd (.proposals owner) trivial _ _).bind
    exact fun _ _ _ => .done _
  unfold createPromotionProposal
  cases request.id with
  | some id => exact store id drawn
  | none =>
    apply apart_newId_bind
    exact fun id => store id _

theorem apart_getPromotionProposal (proposalId : Uuid) :
    StaysApart other drawn (getPromotionProposal owner proposalId) := by
  apply (apart_getRequired _ _).bind
  intro drawn proposal _
  dsimp only
  split
  · exact .fail _
  · exact .done _

theorem apart_updatePromotionProposal (proposal : PromotionProposal) :
    StaysApart other drawn (updatePromotionProposal proposal) :=
  apart_set (.proposal proposal.id) trivial _

end Store

/-! ## The routes -/

namespace Routes

section Handlers

variable {sha256Hex : String → String} {toLowercase : String → String} {other : String}
  {drawn : List Uuid}

theorem apart_registerAgent {agentId : String} (description : Option String)
    (different : ∀ owner, normalizeAgentId agentId = .ok owner → owner ≠ other) :
    StaysApart other drawn (registerAgent sha256Hex agentId description) := by
  apply StaysApart.ofExcept_bind
  intro owner normalized
  apply (Agent.apart_registerAgent (different owner normalized) description).bind
  exact fun _ _ _ => .done _

theorem apart_getAgentIdentity {agentId : String}
    (different : ∀ owner, normalizeAgentId agentId = .ok owner → owner ≠ other) :
    StaysApart other drawn (getAgentIdentity sha256Hex agentId) := by
  apply StaysApart.ofExcept_bind
  intro owner normalized
  apply (Agent.apart_getAgentIdentity (different owner normalized)).bind
  exact fun _ _ _ => .done _

theorem apart_deleteAgent (caller : CallerContext) {agentId : String}
    (different : ∀ owner, normalizeAgentId agentId = .ok owner → owner ≠ other) :
    StaysApart other drawn (deleteAgent caller agentId) := by
  apply StaysApart.ofExcept_bind
  intro _ _
  apply StaysApart.ofExcept_bind
  intro owner normalized
  apply (Agent.apart_deleteAgent (different owner normalized)).bind
  exact fun _ _ _ => .done _

theorem apart_updateAgentIdentity (caller : CallerContext) {agentId : String} (core : Json)
    (different : ∀ owner, normalizeAgentId agentId = .ok owner → owner ≠ other) :
    StaysApart other drawn (updateAgentIdentity sha256Hex caller agentId core) := by
  apply StaysApart.ofExcept_bind
  intro _ _
  apply StaysApart.ofExcept_bind
  intro owner normalized
  apply StaysApart.ofExcept_bind
  intro _ _
  apply (Agent.apart_updateAgentIdentity (different owner normalized) core).bind
  exact fun _ _ _ => .done _

theorem apart_rollbackAgentIdentity (caller : CallerContext) {agentId : String}
    (targetVersion : Nat) (reason : Option String)
    (different : ∀ owner, normalizeAgentId agentId = .ok owner → owner ≠ other) :
    StaysApart other drawn
      (rollbackAgentIdentity sha256Hex caller agentId targetVersion reason) := by
  apply StaysApart.ofExcept_bind
  intro _ _
  apply StaysApart.ofExcept_bind
  intro owner normalized
  dsimp only
  split
  · exact .fail _
  · apply (Agent.apart_rollbackAgentIdentity (different owner normalized) _ _).bind
    exact fun _ _ _ => .done _

theorem apart_addAgentExperience
    (computeFisherImportance : ExperienceEvent → List ExperienceEvent → ℚ)
    (caller : CallerContext) {agentId : String} {request : CreateExperienceRequest}
    (different : ∀ owner, normalizeAgentId agentId = .ok owner → owner ≠ other)
    (anonymous : caller.requireRole .write = .ok () →
      (∃ owner, normalizeAgentId agentId = .ok owner) →
      requireText request.signal "signal is required" = .ok () →
      requireText request.category "category is required" = .ok () → request.id = none) :
    StaysApart other drawn
      (addAgentExperience computeFisherImportance caller agentId request) := by
  apply StaysApart.ofExcept_bind
  intro _ permitted
  apply StaysApart.ofExcept_bind
  intro owner normalized
  apply StaysApart.ofExcept_bind
  intro _ signalled
  apply StaysApart.ofExcept_bind
  intro _ categorized
  apply apart_addExperienceEvent_bind (different owner normalized)
    (anonymous permitted ⟨owner, normalized⟩ signalled categorized)
  intro drawn event known
  apply (apart_listExperienceEvents _).bind
  intro drawn allEvents grows
  apply StaysApart.bind (apart_set (.experience (Uuid.toText event.id))
    ⟨event.id, grows known, rfl⟩ _)
  exact fun _ _ _ => .done _

theorem apart_requireSourceEvents (eventIds : List Uuid) :
    StaysApart other drawn (requireSourceEvents eventIds) := by
  induction eventIds generalizing drawn with
  | nil => exact .done _
  | cons eventId eventIds ih =>
    apply (apart_get _).bind
    intro drawn event _
    dsimp only
    split
    · exact .fail _
    · exact ih

theorem apart_createPromotionProposal (agentId : String)
    (request : CreatePromotionProposalRequest) :
    StaysApart other drawn (createPromotionProposal agentId request) := by
  apply StaysApart.ofExcept_bind
  intro owner _
  apply StaysApart.ofExcept_bind
  intro _ _
  apply StaysApart.ofExcept_bind
  intro _ _
  apply StaysApart.ofExcept_bind
  intro _ _
  dsimp only
  split
  · exact .fail _
  · apply (apart_requireSourceEvents _).bind
    intro drawn _ _
    apply (Agent.apart_createPromotionProposal _).bind
    exact fun _ _ _ => .done _

theorem apart_approvalPolicy (owner : String) : StaysApart other drawn (approvalPolicy owner) := by
  apply (apart_get _).bind
  intro drawn stored _
  cases stored with
  | some policy => exact .done _
  | none =>
    apply apart_now.bind
    exact fun _ _ _ => .done _

theorem apart_applyPromotion {owner : String} (different : owner ≠ other)
    (proposal : PromotionProposal) :
    StaysApart other drawn (applyPromotion sha256Hex owner proposal) := by
  apply StaysApart.ofExcept_bind
  intro _ _
  apply (Agent.apart_updateAgentIdentity different _).bind
  intro drawn _ _
  apply apart_now.bind
  intro drawn approvedAt _
  apply (apart_updatePromotionProposal _).bind
  exact fun _ _ _ => .done _

theorem apart_approvePromotionProposal (caller : CallerContext) {agentId : String}
    (proposalId : Uuid)
    (different : ∀ owner, normalizeAgentId agentId = .ok owner → owner ≠ other) :
    StaysApart other drawn
      (approvePromotionProposal sha256Hex toLowercase caller agentId proposalId) := by
  apply StaysApart.ofExcept_bind
  intro owner normalized
  apply (apart_getPromotionProposal proposalId).bind
  intro drawn proposal _
  apply StaysApart.ofExcept_bind
  intro _ _
  apply (apart_approvalPolicy owner).bind
  intro drawn policy _
  apply apart_now.bind
  intro drawn checkedAt _
  dsimp only
  split
  · apply apart_now.bind
    intro drawn expiredAt _
    apply (apart_updatePromotionProposal _).bind
    exact fun _ _ _ => .fail _
  · apply apart_now.bind
    intro drawn cooledAt _
    split
    · exact .fail _
    · split
      · exact apart_applyPromotion (different owner normalized) _
      · apply (apart_updatePromotionProposal _).bind
        exact fun _ _ _ => .done _

theorem apart_rejectPromotionProposal (agentId : String) (proposalId : Uuid)
    (reason : Option String) :
    StaysApart other drawn (rejectPromotionProposal agentId proposalId reason) := by
  apply StaysApart.ofExcept_bind
  intro owner _
  apply (apart_getPromotionProposal proposalId).bind
  intro drawn proposal _
  apply StaysApart.ofExcept_bind
  intro _ _
  apply apart_now.bind
  intro drawn rejectedAt _
  apply (apart_updatePromotionProposal _).bind
  exact fun _ _ _ => .done _

theorem apart_setAgentApprovalPolicy (caller : CallerContext) (agentId : String)
    (request : SetApprovalPolicyRequest) :
    StaysApart other drawn (setAgentApprovalPolicy caller agentId request) := by
  apply StaysApart.ofExcept_bind
  intro owner _
  apply StaysApart.ofExcept_bind
  intro _ _
  apply apart_now.bind
  intro drawn updatedAt _
  apply StaysApart.bind (apart_set (.policy owner) trivial _)
  exact fun _ _ _ => .done _

theorem apart_createAgentBranch (caller : CallerContext) {agentId : String}
    {request : CreateBranchRequest}
    (different : ∀ owner, normalizeAgentId agentId = .ok owner → owner ≠ other)
    (elsewhere : ∀ owner, caller.requireRole .admin = .ok () →
      normalizeAgentId agentId = .ok owner → validateBranchName request.branchName = .ok () →
      branchAgentId owner request.branchName ≠ other) :
    StaysApart other drawn (createAgentBranch sha256Hex caller agentId request) := by
  apply StaysApart.ofExcept_bind
  intro _ permitted
  apply StaysApart.ofExcept_bind
  intro owner normalized
  apply (Agent.apart_createAgentBranch (different owner normalized) request
    (elsewhere owner permitted normalized)).bind
  exact fun _ _ _ => .done _

theorem apart_getAgentBranch {agentId branchName : String}
    (elsewhere : ∀ owner, normalizeAgentId agentId = .ok owner →
      branchAgentId owner branchName ≠ other) :
    StaysApart other drawn (getAgentBranch sha256Hex agentId branchName) := by
  apply StaysApart.ofExcept_bind
  intro owner normalized
  apply (Agent.apart_getAgentBranch (elsewhere owner normalized)).bind
  exact fun _ _ _ => .done _

theorem apart_updateAgentBranch (caller : CallerContext) {agentId branchName : String}
    (core : Json)
    (elsewhere : ∀ owner, caller.requireRole .write = .ok () →
      normalizeAgentId agentId = .ok owner → branchAgentId owner branchName ≠ other) :
    StaysApart other drawn (updateAgentBranch sha256Hex caller agentId branchName core) := by
  apply StaysApart.ofExcept_bind
  intro _ permitted
  apply StaysApart.ofExcept_bind
  intro owner normalized
  apply (Agent.apart_updateAgentBranch (elsewhere owner permitted normalized) core).bind
  exact fun _ _ _ => .done _

theorem apart_mergeAgentBranch (caller : CallerContext) {agentId branchName : String}
    (different : ∀ owner, normalizeAgentId agentId = .ok owner → owner ≠ other)
    (elsewhere : ∀ owner, caller.requireRole .admin = .ok () →
      normalizeAgentId agentId = .ok owner → branchAgentId owner branchName ≠ other) :
    StaysApart other drawn (mergeAgentBranch sha256Hex caller agentId branchName) := by
  apply StaysApart.ofExcept_bind
  intro _ permitted
  apply StaysApart.ofExcept_bind
  intro owner normalized
  apply (Agent.apart_mergeAgentBranch (different owner normalized)
    (elsewhere owner permitted normalized)).bind
  exact fun _ _ _ => .done _

theorem apart_deleteAgentBranch (caller : CallerContext) {agentId branchName : String}
    (different : ∀ owner, normalizeAgentId agentId = .ok owner → owner ≠ other)
    (elsewhere : ∀ owner, caller.requireRole .admin = .ok () →
      normalizeAgentId agentId = .ok owner → branchAgentId owner branchName ≠ other) :
    StaysApart other drawn (deleteAgentBranch sha256Hex caller agentId branchName) := by
  apply StaysApart.ofExcept_bind
  intro _ permitted
  apply StaysApart.ofExcept_bind
  intro owner normalized
  apply (Agent.apart_deleteAgentBranch (different owner normalized)
    (elsewhere owner permitted normalized)).bind
  exact fun _ _ _ => .done _

theorem apart_forkAgent (caller : CallerContext) {agentId : String} {request : ForkAgentRequest}
    (different : ∀ owner, normalizeAgentId agentId = .ok owner → owner ≠ other)
    (newDifferent : request.newAgentId ≠ other) :
    StaysApart other drawn (forkAgent sha256Hex caller agentId request) := by
  apply StaysApart.ofExcept_bind
  intro _ _
  apply StaysApart.ofExcept_bind
  intro owner normalized
  apply (Agent.apart_forkAgent (different owner normalized) newDifferent).bind
  exact fun _ _ _ => .done _

end Handlers
end Routes

end Agent
end Mnemo
