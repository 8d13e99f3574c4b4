import Mnemo.Agent.Separation
import Mnemo.Lib.SomeRun

/-!
# Agents and branches of one name

Which requests to one agent can change another one: those on a branch that is stored under the name
of the other agent, and those that bring the identifier of an experience.
-/

namespace Mnemo
namespace Agent

open Auth (CallerContext)
open Database (Command)

/-! ## Which requests stay apart -/

/-- The path of a request names an agent. -/
def AgentRequest.path : AgentRequest → String
  | .register agentId _ | .getIdentity agentId | .delete _ agentId | .update _ agentId _
  | .rollback _ agentId _ _ | .addExperience _ agentId _ | .propose agentId _
  | .approve _ agentId _ | .reject agentId _ _ | .setPolicy _ agentId _ | .createBranch _ agentId _
  | .getBranch agentId _ | .updateBranch _ agentId _ _ | .mergeBranch _ agentId _
  | .deleteBranch _ agentId _ | .fork _ agentId _ => agentId

/-- The agents that a request is addressed to: the one in its path, and the one a fork makes. -/
def AgentRequest.addressed (request : AgentRequest) : List String :=
  (normalizeAgentId request.path).toOption.toList ++
    match request with
    | .fork _ _ body => [body.newAgentId]
    | _ => []

/-- A request works on a branch which is stored as the agent, or brings the identifier of an
experience. -/
def AgentRequest.Collides (other : String) : AgentRequest → Prop
  | .createBranch caller agentId body => ∃ owner, normalizeAgentId agentId = .ok owner ∧
      caller.requireRole .admin = .ok () ∧ validateBranchName body.branchName = .ok () ∧
      branchAgentId owner body.branchName = other
  | .getBranch agentId branchName => ∃ owner, normalizeAgentId agentId = .ok owner ∧
      branchAgentId owner branchName = other
  | .updateBranch caller agentId branchName _ => ∃ owner, normalizeAgentId agentId = .ok owner ∧
      caller.requireRole .write = .ok () ∧ branchAgentId owner branchName = other
  | .mergeBranch caller agentId branchName | .deleteBranch caller agentId branchName =>
      ∃ owner, normalizeAgentId agentId = .ok owner ∧ caller.requireRole .admin = .ok () ∧
        branchAgentId owner branchName = other
  | .addExperience caller agentId body => ∃ owner, normalizeAgentId agentId = .ok owner ∧
      caller.requireRole .write = .ok () ∧
      Routes.requireText body.signal "signal is required" = .ok () ∧
      Routes.requireText body.category "category is required" = .ok () ∧ body.id.isSome
  | _ => False

section Requests

variable {sha256Hex : String → String} {toLowercase : String → String}
  {computeFisherImportance : ExperienceEvent → List ExperienceEvent → ℚ} {other : String}

theorem AgentRequest.apart {request : AgentRequest} (elsewhere : other ∉ request.addressed)
    (separate : ¬ request.Collides other) :
    StaysApart other []
      (request.handle sha256Hex toLowercase computeFisherImportance) := by
  have different (owner : String) (normalized : normalizeAgentId request.path = .ok owner) :
      owner ≠ other := by
    rintro rfl
    apply elsewhere
    simp [addressed, normalized, Except.toOption]
  cases request with
  | register agentId description => exact Routes.apart_registerAgent description different
  | getIdentity agentId => exact Routes.apart_getAgentIdentity different
  | delete caller agentId => exact Routes.apart_deleteAgent caller different
  | update caller agentId core => exact Routes.apart_updateAgentIdentity caller core different
  | rollback caller agentId targetVersion reason =>
    exact Routes.apart_rollbackAgentIdentity caller targetVersion reason different
  | addExperience caller agentId body =>
    apply Routes.apart_addAgentExperience _ _ different
    intro permitted normalized signalled categorized
    obtain ⟨owner, normalized⟩ := normalized
    cases given : body.id with
    | none => rfl
    | some id =>
      exact absurd ⟨owner, normalized, permitted, signalled, categorized, by rw [given]; rfl⟩
        separate
  | propose agentId body => exact Routes.apart_createPromotionProposal agentId body
  | approve caller agentId proposalId =>
    exact Routes.apart_approvePromotionProposal caller proposalId different
  | reject agentId proposalId reason =>
    exact Routes.apart_rejectPromotionProposal agentId proposalId reason
  | setPolicy caller agentId body => exact Routes.apart_setAgentApprovalPolicy caller agentId body
  | createBranch caller agentId body =>
    apply Routes.apart_createAgentBranch caller different
    exact fun owner permitted normalized valid same =>
      separate ⟨owner, normalized, permitted, valid, same⟩
  | getBranch agentId branchName =>
    apply Routes.apart_getAgentBranch
    exact fun owner normalized same => separate ⟨owner, normalized, same⟩
  | updateBranch caller agentId branchName core =>
    apply Routes.apart_updateAgentBranch
    exact fun owner permitted normalized same => separate ⟨owner, normalized, permitted, same⟩
  | mergeBranch caller agentId branchName =>
    apply Routes.apart_mergeAgentBranch caller different
    exact fun owner permitted normalized same => separate ⟨owner, normalized, permitted, same⟩
  | deleteBranch caller agentId branchName =>
    apply Routes.apart_deleteAgentBranch caller different
    exact fun owner permitted normalized same => separate ⟨owner, normalized, permitted, same⟩
  | fork caller agentId body =>
    apply Routes.apart_forkAgent caller different
    rintro rfl
    exact elsewhere (List.mem_append_right _ List.mem_cons_self)

end Requests

/-! ## Runs that stop halfway -/

/-- There is a run of the program which leaves the database as described. -/
abbrev Can {α : Type} (program : AgentProgram α) (before : AgentContents)
    (post : AgentContents → Prop) : Prop :=
  Program.Can Database.exec post program before

namespace Redis

variable {β : Type} {before : AgentContents} {post : AgentContents → Prop}

theorem can_get {key : AgentKey} {next : Option (AgentDoc key) → AgentProgram β}
    (rest : Can (next (before.docs key)) before post) : Can (get key >>= next) before post :=
  Program.Can.call (untroubled 0 0) rfl rest

theorem can_set {key : AgentKey} {doc : AgentDoc key} {next : Unit → AgentProgram β}
    (rest : Can (next ()) (before.put key doc) post) : Can (set key doc >>= next) before post :=
  Program.Can.call (untroubled 0 0) rfl rest

theorem can_del {key : AgentKey} {next : Unit → AgentProgram β}
    (rest : Can (next ()) (before.remove key) post) : Can (del key >>= next) before post :=
  Program.Can.call (untroubled 0 0) rfl rest

theorem can_now {next : DateTime → AgentProgram β} (rest : Can (next 0) before post) :
    Can (now >>= next) before post :=
  Program.Can.call (untroubled 0 0) rfl rest

theorem can_stop {command : AgentCommand} {next : command.Reply AgentAnswer → AgentProgram β}
    (fallible : command.fallible = true) (described : post before) :
    Can (Program.call command >>= next) before post :=
  Program.Can.stop { untroubled 0 0 with failure := some (.validation "unavailable") }
    (Database.exec_of_failure fallible rfl) described

end Redis

open Redis

section Disturb

variable {sha256Hex : String → String} {β : Type} {before : AgentContents}
  {post : AgentContents → Prop} {owner : String}

theorem can_getAgentIdentity {next : AgentIdentityProfile → AgentProgram β}
    (missing : before.docs (.identity owner) = none)
    (described : post (before.put (.identity owner) (AgentIdentityProfile.new owner 0))) :
    Can (getAgentIdentity sha256Hex owner >>= next) before post := by
  apply Program.Can.assoc
  apply can_get
  rw [missing]
  apply Program.Can.assoc
  apply can_now
  apply Program.Can.assoc
  apply Program.Can.assoc
  apply can_set
  apply Program.Can.assoc
  exact can_stop rfl described

theorem can_getBranchMetadata {branchName : String} {metadata : BranchMetadata}
    {next : BranchMetadata → AgentProgram β}
    (found : before.docs (branchKey owner branchName) = some metadata)
    (rest : Can (next metadata) before post) :
    Can (getBranchMetadata owner branchName >>= next) before post := by
  apply Program.Can.assoc
  apply can_get
  rw [found]
  exact rest

theorem can_requireUnmerged {branchName : String} {metadata : BranchMetadata}
    {next : Unit → AgentProgram β} (unmerged : metadata.merged = false)
    (rest : Can (next ()) before post) :
    Can (requireUnmerged metadata branchName >>= next) before post := by
  unfold requireUnmerged
  rw [unmerged]
  exact rest

theorem can_createAgentBranch {request : CreateBranchRequest} {parent : AgentIdentityProfile}
    {next : BranchInfo → AgentProgram β}
    (valid : validateBranchName request.branchName = .ok ())
    (missing : before.docs (branchKey owner request.branchName) = none)
    (found : before.docs (.identity owner) = some parent)
    (described : ∀ identity : AgentIdentityProfile,
      post (before.put (.identity (branchAgentId owner request.branchName)) identity)) :
    Can (createAgentBranch sha256Hex owner request >>= next) before post := by
  apply Program.Can.assoc
  apply Program.Can.ofExcept valid
  apply Program.Can.assoc
  apply can_get
  rw [missing]
  apply Program.Can.assoc
  apply Program.Can.assoc
  apply can_get
  rw [found]
  apply Program.Can.assoc
  apply can_now
  apply Program.Can.assoc
  apply can_set
  apply Program.Can.assoc
  apply can_now
  apply Program.Can.assoc
  exact can_stop rfl (described _)

theorem can_getAgentBranch {branchName : String} {metadata : BranchMetadata}
    {next : BranchInfo → AgentProgram β}
    (found : before.docs (branchKey owner branchName) = some metadata)
    (missing : before.docs (.identity (branchAgentId owner branchName)) = none)
    (described : ∀ identity : AgentIdentityProfile,
      post (before.put (.identity (branchAgentId owner branchName)) identity)) :
    Can (getAgentBranch sha256Hex owner branchName >>= next) before post := by
  apply Program.Can.assoc
  apply can_getBranchMetadata found
  apply Program.Can.assoc
  exact can_getAgentIdentity missing (described _)

theorem can_updateAgentBranch {branchName : String} {metadata : BranchMetadata} {core : Json}
    {next : AgentIdentityProfile → AgentProgram β}
    (found : before.docs (branchKey owner branchName) = some metadata)
    (unmerged : metadata.merged = false)
    (missing : before.docs (.identity (branchAgentId owner branchName)) = none)
    (described : ∀ identity : AgentIdentityProfile,
      post (before.put (.identity (branchAgentId owner branchName)) identity)) :
    Can (updateAgentBranch sha256Hex owner branchName core >>= next) before post := by
  apply Program.Can.assoc
  apply can_getBranchMetadata found
  apply Program.Can.assoc
  apply can_requireUnmerged unmerged
  apply Program.Can.assoc
  exact can_getAgentIdentity missing (described _)

theorem can_mergeAgentBranch {branchName : String} {metadata : BranchMetadata}
    {next : MergeResult → AgentProgram β}
    (found : before.docs (branchKey owner branchName) = some metadata)
    (unmerged : metadata.merged = false)
    (missing : before.docs (.identity (branchAgentId owner branchName)) = none)
    (described : ∀ identity : AgentIdentityProfile,
      post (before.put (.identity (branchAgentId owner branchName)) identity)) :
    Can (mergeAgentBranch sha256Hex owner branchName >>= next) before post := by
  apply Program.Can.assoc
  apply can_getBranchMetadata found
  apply Program.Can.assoc
  apply can_requireUnmerged unmerged
  apply Program.Can.assoc
  exact can_getAgentIdentity missing (described _)

theorem can_deleteAgentBranch {branchName : String} {metadata : BranchMetadata}
    {next : Unit → AgentProgram β}
    (found : before.docs (branchKey owner branchName) = some metadata)
    (described : post (before.remove (.identity (branchAgentId owner branchName)))) :
    Can (deleteAgentBranch sha256Hex owner branchName >>= next) before post := by
  apply Program.Can.assoc
  apply can_getBranchMetadata found
  apply Program.Can.assoc
  apply can_del
  apply Program.Can.assoc
  exact can_stop rfl described

theorem can_addExperienceEvent {request : CreateExperienceRequest} {id : Uuid}
    {next : ExperienceEvent → AgentProgram β} (given : request.id = some id)
    (described : ∀ event : ExperienceEvent, event.agentId = owner →
      post (before.put (.experience id.toText) event)) :
    Can (addExperienceEvent owner request >>= next) before post := by
  have store (createdAt : DateTime) : Can ((do
      let event : ExperienceEvent :=
        { id, agentId := owner, userId := request.userId, sessionId := request.sessionId
          category := request.category, signal := request.signal
          confidence := request.confidence, weight := request.weight
          decayHalfLifeDays := request.decayHalfLifeDays
          evidenceEpisodeIds := request.evidenceEpisodeIds, fisherImportance := 0, createdAt }
      Redis.set (.experience event.id.toText) event
      Redis.zadd (.experiences owner) event.id.toText (timestampMillis event.createdAt)
      return event) >>= next) before post := by
    apply Program.Can.assoc
    apply can_set
    apply Program.Can.assoc
    exact can_stop rfl (described _ rfl)
  unfold addExperienceEvent
  rw [given]
  cases request.createdAt with
  | some instant => exact store instant
  | none =>
    apply Program.Can.assoc
    apply Program.Can.assoc
    apply can_now
    exact store 0

end Disturb

/-- A run changed what belongs to an agent, and drew fresh identifiers only. -/
def Disturbed (other : String) (before after : AgentContents) : Prop :=
  FreshDraws other before after ∧ ¬ Untouched other before after

section Requests

variable {sha256Hex : String → String} {toLowercase : String → String}
  {computeFisherImportance : ExperienceEvent → List ExperienceEvent → ℚ} {other : String}
  {before : AgentContents}

theorem disturbed_put_identity (missing : before.docs (.identity other) = none)
    (profile : AgentIdentityProfile) :
    Disturbed other before (before.put (.identity other) profile) := by
  refine ⟨fun id known new => absurd known new, fun untouched => ?_⟩
  have same := untouched.docs (.identity other) rfl
  have stored := Database.Contents.docs_put_self before (.identity other) profile
  cases stored.symm.trans (same.trans missing)

theorem disturbed_remove_identity {profile : AgentIdentityProfile}
    (found : before.docs (.identity other) = some profile) :
    Disturbed other before (before.remove (.identity other)) := by
  refine ⟨fun id known new => absurd known new, fun untouched => ?_⟩
  have same := untouched.docs (.identity other) rfl
  have removed := Database.Contents.docs_remove_self before (.identity other)
  cases removed.symm.trans (same.trans found)

theorem disturbed_put_experience {text : String} {event stored : ExperienceEvent}
    (found : before.docs (.experience text) = some stored) (owned : stored.agentId = other)
    (foreign : event.agentId ≠ other) :
    Disturbed other before (before.put (.experience text) event) := by
  refine ⟨fun id known new => absurd known new, fun untouched => ?_⟩
  have same := untouched.docs (.experience text) (.inr ⟨stored, found, owned⟩)
  have overwritten := Database.Contents.docs_put_self before (.experience text) event
  obtain rfl := Option.some.inj (overwritten.symm.trans (same.trans found))
  exact foreign owned

/-- A branch that is not merged. -/
def openBranch (owner branchName : String) : BranchMetadata :=
  { branchName, parentAgentId := owner, forkVersion := 1, createdAt := 0, description := none
    merged := false }

/-- A database with one branch, which has no identity. -/
def branchContents (owner branchName : String) : AgentContents :=
  noAgents.put (branchKey owner branchName) (openBranch owner branchName)

/-- An experience of an agent with an identifier. -/
def ownedExperience (agentId : String) (id : Uuid) : ExperienceEvent :=
  { id, agentId, userId := none, sessionId := none, category := "note", signal := "s"
    confidence := 1, weight := 1, decayHalfLifeDays := 1, evidenceEpisodeIds := []
    fisherImportance := 0, createdAt := 0 }

theorem branch_put_identity (contents : AgentContents) (agentId : String)
    (profile : AgentIdentityProfile) (path : String) :
    (contents.put (.identity agentId) profile).docs (.branch path) =
      contents.docs (.branch path) :=
  Database.Contents.docs_put_of_ne contents AgentKey.noConfusion _

theorem branch_found (owner branchName : String) :
    (branchContents owner branchName).docs (branchKey owner branchName) =
      some (openBranch owner branchName) :=
  Database.Contents.docs_put_self _ _ _

theorem identity_missing (owner branchName agentId : String) :
    (branchContents owner branchName).docs (.identity agentId) = none := by
  exact Database.Contents.docs_put_of_ne noAgents AgentKey.noConfusion _

/-- A request that collides with an agent can disturb it. -/
theorem AgentRequest.disturbs {request : AgentRequest} (elsewhere : other ∉ request.addressed)
    (collides : request.Collides other) :
    ∃ before, Can (request.handle sha256Hex toLowercase computeFisherImportance) before
      (Disturbed other before) := by
  have different (owner : String) (normalized : normalizeAgentId request.path = .ok owner) :
      owner ≠ other := by
    rintro rfl
    apply elsewhere
    simp [addressed, normalized, Except.toOption]
  cases request with
  | createBranch caller agentId body =>
    obtain ⟨owner, normalized, permitted, valid, rfl⟩ := collides
    refine ⟨noAgents.put (.identity owner) (AgentIdentityProfile.new owner 0), ?_⟩
    apply Program.Can.ofExcept permitted
    apply Program.Can.ofExcept normalized
    apply can_createAgentBranch valid
    · exact branch_put_identity noAgents _ _ _
    · exact Database.Contents.docs_put_self _ _ _
    · intro identity
      apply disturbed_put_identity
      apply Database.Contents.docs_put_of_ne noAgents
      intro same
      exact different owner normalized (AgentKey.identity.inj same).symm
  | getBranch agentId branchName =>
    obtain ⟨owner, normalized, rfl⟩ := collides
    refine ⟨branchContents owner branchName, ?_⟩
    apply Program.Can.ofExcept normalized
    exact can_getAgentBranch (branch_found _ _) (identity_missing _ _ _) fun identity =>
      disturbed_put_identity (identity_missing _ _ _) identity
  | updateBranch caller agentId branchName core =>
    obtain ⟨owner, normalized, permitted, rfl⟩ := collides
    refine ⟨branchContents owner branchName, ?_⟩
    apply Program.Can.ofExcept permitted
    apply Program.Can.ofExcept normalized
    exact can_updateAgentBranch (branch_found _ _) rfl (identity_missing _ _ _) fun identity =>
      disturbed_put_identity (identity_missing _ _ _) identity
  | mergeBranch caller agentId branchName =>
    obtain ⟨owner, normalized, permitted, rfl⟩ := collides
    refine ⟨branchContents owner branchName, ?_⟩
    apply Program.Can.ofExcept permitted
    apply Program.Can.ofExcept normalized
    exact can_mergeAgentBranch (branch_found _ _) rfl (identity_missing _ _ _) fun identity =>
      disturbed_put_identity (identity_missing _ _ _) identity
  | deleteBranch caller agentId branchName =>
    obtain ⟨owner, normalized, permitted, rfl⟩ := collides
    refine ⟨(branchContents owner branchName).put
      (.identity (branchAgentId owner branchName)) (AgentIdentityProfile.new owner 0), ?_⟩
    apply Program.Can.ofExcept permitted
    apply Program.Can.ofExcept normalized
    apply can_deleteAgentBranch
    · exact (branch_put_identity _ _ _ _).trans (branch_found owner branchName)
    · exact disturbed_remove_identity (Database.Contents.docs_put_self _ _ _)
  | addExperience caller agentId body =>
    obtain ⟨owner, normalized, permitted, signalled, categorized, given⟩ := collides
    obtain ⟨id, given⟩ := Option.isSome_iff_exists.mp given
    refine ⟨noAgents.put (.experience id.toText) (ownedExperience other id), ?_⟩
    apply Program.Can.ofExcept permitted
    apply Program.Can.ofExcept normalized
    apply Program.Can.ofExcept signalled
    apply Program.Can.ofExcept categorized
    apply can_addExperienceEvent given
    intro event own
    apply disturbed_put_experience (Database.Contents.docs_put_self _ _ _) rfl
    rw [own]
    exact different owner normalized
  | _ => exact collides.elim

variable (sha256Hex toLowercase computeFisherImportance) in
/-- No run of a request changes what belongs to an agent. -/
def AgentRequest.Separates (other : String) (request : AgentRequest) : Prop :=
  ∀ (before : AgentContents) (inputs : Nat → Database.Input AgentAnswer MnemoError),
    FreshDraws other before ((request.handle sha256Hex toLowercase
      computeFisherImportance).eval Database.exec inputs before).2 →
    Untouched other before ((request.handle sha256Hex toLowercase
      computeFisherImportance).eval Database.exec inputs before).2

end Requests

/-- A request that is not addressed to an agent leaves its identity, its versions, its events and
its audit log alone, unless it works on a branch that is stored under the name of the agent or
brings the identifier of an experience. -/
theorem request_separates_iff (sha256Hex toLowercase : String → String)
    (computeFisherImportance : ExperienceEvent → List ExperienceEvent → ℚ)
    (request : AgentRequest) (other : String) (elsewhere : other ∉ request.addressed) :
    request.Separates sha256Hex toLowercase computeFisherImportance other ↔
      ¬ request.Collides other := by
  constructor
  · intro separates collides
    obtain ⟨before, inputs, fresh, touched⟩ := AgentRequest.disturbs elsewhere collides
    exact touched (separates before inputs fresh)
  · intro separate before inputs fresh
    exact (AgentRequest.apart elsewhere separate).untouched before inputs fresh

/-- An update of one agent leaves another one alone. -/
theorem request_separates_update :
    (AgentRequest.update .adminBootstrap "a" (.object [])).Separates id id (fun _ _ => 0) "b" ↔
      ¬ (AgentRequest.update .adminBootstrap "a" (.object [])).Collides "b" :=
  request_separates_iff id id (fun _ _ => 0) _ "b" (by decide)

/-- Inputs of a run in which nothing fails. -/
def drawing (id : Uuid) : Nat → Database.Input AgentAnswer MnemoError := fun _ => untroubled id 0

/-- An agent whose name is that of a branch, and then the agent of the branch, are registered. -/
def confusable : AgentContents :=
  ((Agent.registerAgent id "a" none).eval Database.exec (drawing 2)
    ((Agent.registerAgent id "a:branch:x" (some "mine")).eval Database.exec (drawing 1)
      noAgents).2).2

/-- The request to create the branch. -/
def confusingBranch : AgentRequest :=
  .createBranch .adminBootstrap "a"
    { branchName := "x", description := none, coreOverride := none }

/-- The database with the branch. -/
def confused : AgentContents :=
  ((confusingBranch.handle id id fun _ _ => 0).eval Database.exec (drawing 3) confusable).2

theorem freshDraws_confused : FreshDraws "a:branch:x" confusable confused := by
  intro drawn known new
  have issued : confused.issued = [3, 2, 1] := rfl
  have before : confusable.issued = [2, 1] := rfl
  have log : (confusable.sets (.audit "a:branch:x")).members = [Uuid.toText 1] := rfl
  have learned : (confusable.sets (.experiences "a:branch:x")).members = [] := rfl
  obtain rfl : drawn = 3 := by
    rw [issued] at known
    rw [before] at new
    simp only [List.mem_cons] at known new
    tauto
  constructor
  · rintro (listed | ⟨event, found, _⟩)
    · rw [log, List.mem_singleton] at listed
      exact absurd listed (by decide)
    · exact nomatch found
  · rintro (listed | ⟨event, found, _⟩)
    · rw [learned] at listed
      cases listed
    · exact nomatch found

/-- A branch of an agent is created over another agent. -/
theorem branch_overwrites_agent :
    ¬ ∀ (sha256Hex toLowercase : String → String)
      (computeFisherImportance : ExperienceEvent → List ExperienceEvent → ℚ)
      (request : AgentRequest) (other : String), normalizeAgentId other = .ok other →
      other ∉ request.addressed →
      request.Separates sha256Hex toLowercase computeFisherImportance other := by
  intro separates
  have untouched : Untouched "a:branch:x" confusable confused :=
    separates id id (fun _ _ => 0) confusingBranch "a:branch:x" (by decide) (by decide)
      confusable (drawing 3) freshDraws_confused
  have same : some (Json.object []) = some (.object [("description", .string "mine")]) :=
    congrArg (Option.map AgentIdentityProfile.core) (untouched.docs (.identity "a:branch:x") rfl)
  cases same

end Agent
end Mnemo
