import Mnemo.Agent.Routes

/-!
# The contamination guard of agent identities

Whether every stored identity core is one that the guard lets pass, in all interleavings of the
agent routes.
-/

namespace Mnemo
namespace Agent

open Database (Command Preserves)
open Auth (CallerContext)

/-- An identity, or a snapshot of one, has a clean core; other documents have none. -/
def CleanDoc : (key : AgentKey) → AgentDoc key → Prop
  | .identity _, profile => CleanCore (AgentIdentityProfile.core profile)
  | .version _ _, profile => CleanCore (AgentIdentityProfile.core profile)
  | _, _ => True

/-- The keys of identities and their snapshots. -/
def HoldsCore : AgentKey → Prop
  | .identity _ | .version _ _ => True
  | _ => False

theorem cleanDoc_of_not_holdsCore (key : AgentKey) (doc : AgentDoc key)
    (other : ¬ HoldsCore key) : CleanDoc key doc := by
  cases key with
  | identity agentId => exact absurd trivial other
  | version agentId version => exact absurd trivial other
  | _ => trivial

/-- The program stores clean cores only, as long as those that it reads are clean. -/
abbrev Keeps {α : Type} (post : α → Prop) (program : AgentProgram α) : Prop :=
  Preserves CleanDoc post program

/-- Nothing needs to be known of the value. -/
abbrev Any {α : Type} : α → Prop := fun _ => True

theorem Keeps.any {α : Type} {post : α → Prop} {program : AgentProgram α}
    (keeps : Keeps post program) : Keeps Any program :=
  keeps.mono fun _ _ => trivial

theorem keeps_ofExcept {α : Type} (outcome : Except MnemoError α) :
    Keeps (fun value => outcome = .ok value) (Program.ofExcept outcome : AgentProgram α) :=
  Preserves.ofExcept fun _ ok => ok

/-! ## Commands -/

namespace Redis

theorem keeps_get (key : AgentKey) :
    Keeps (fun reply => ∀ doc, reply = some doc → CleanDoc key doc) (get key) :=
  Preserves.call (Command.get key : AgentCommand) trivial

theorem keeps_set {key : AgentKey} {doc : AgentDoc key} (clean : CleanDoc key doc) :
    Keeps Any (set key doc) :=
  Preserves.call_any (Command.set key doc : AgentCommand) clean

theorem keeps_del (key : AgentKey) : Keeps Any (del key) :=
  Preserves.call_any (Command.del key : AgentCommand) trivial

theorem keeps_zadd (index : AgentIndex) (member : String) (score : Int) :
    Keeps Any (zadd index member score) :=
  Preserves.call_any (Command.zadd index member score : AgentCommand) trivial

theorem keeps_zrem (index : AgentIndex) (member : String) : Keeps Any (zrem index member) :=
  (Preserves.call_any (Command.zrem index member : AgentCommand) trivial).bind fun _ _ =>
    .done trivial

theorem keeps_zdel (index : AgentIndex) : Keeps Any (zdel index) :=
  Preserves.call_any (Command.zdel index : AgentCommand) trivial

theorem keeps_zrevrange (index : AgentIndex) (start stop : Int) :
    Keeps Any (zrevrange index start stop) :=
  Preserves.call_any (Command.zrevrange index start stop : AgentCommand) trivial

theorem keeps_now : Keeps Any now :=
  Preserves.call_any (Command.clock : AgentCommand) trivial

theorem keeps_newId : Keeps Any newId :=
  Preserves.call_any (Command.freshId : AgentCommand) trivial

theorem keeps_getRequired (key : AgentKey) (notFound : MnemoError) :
    Keeps (CleanDoc key) (getRequired key notFound) := by
  refine (keeps_get key).bind fun reply read => ?_
  cases reply with
  | some doc => exact .done (read doc rfl)
  | none => exact .fail

end Redis

open Redis

/-! ## Identities -/

section Store

variable (sha256Hex : String → String)

theorem keeps_latestAuditHash (agentId : String) : Keeps Any (latestAuditHash agentId) := by
  refine (keeps_zrevrange _ _ _).bind fun ids _ => ?_
  cases ids with
  | nil => exact .done trivial
  | cons latestId older => exact (keeps_get _).bind fun _ _ => .done trivial

theorem keeps_appendIdentityAudit (agentId : String) (action : AgentIdentityAuditAction)
    (fromVersion : Option Nat) (toVersion : Nat) (rollbackToVersion : Option Nat)
    (reason : Option String) :
    Keeps Any (appendIdentityAudit sha256Hex agentId action fromVersion toVersion
      rollbackToVersion reason) := by
  refine (keeps_latestAuditHash agentId).bind fun prevHash _ => ?_
  refine keeps_newId.bind fun id _ => ?_
  refine keeps_now.bind fun createdAt _ => ?_
  refine Preserves.bind (keeps_set trivial) fun _ _ => ?_
  exact keeps_zadd _ _ _

theorem keeps_persistIdentitySnapshot (agentId : String) {identity : AgentIdentityProfile}
    (clean : CleanCore identity.core) :
    Keeps Any (persistIdentitySnapshot agentId identity) := by
  refine Preserves.bind (keeps_set clean) fun _ _ => ?_
  refine Preserves.bind (keeps_set clean) fun _ _ => ?_
  exact keeps_zadd _ _ _

theorem keeps_getAgentIdentity (agentId : String) :
    Keeps (fun identity => CleanCore identity.core) (getAgentIdentity sha256Hex agentId) := by
  refine (keeps_get _).bind fun stored read => ?_
  cases stored with
  | some identity => exact .done (read identity rfl)
  | none =>
    refine keeps_now.bind fun now _ => ?_
    have clean : CleanCore (AgentIdentityProfile.new agentId now).core := cleanCore_empty
    refine (keeps_persistIdentitySnapshot agentId clean).bind fun _ _ => ?_
    refine (keeps_appendIdentityAudit sha256Hex _ _ _ _ _ _).bind fun _ _ => ?_
    exact (keeps_zadd _ _ _).bind fun _ _ => .done clean

theorem keeps_updateAgentIdentity (agentId : String) {core : Json} (clean : CleanCore core) :
    Keeps Any (updateAgentIdentity sha256Hex agentId core) := by
  refine (keeps_getAgentIdentity sha256Hex agentId).bind fun identity _ => ?_
  refine keeps_now.bind fun now _ => ?_
  refine Preserves.bind (keeps_persistIdentitySnapshot agentId clean) fun _ _ => ?_
  exact (keeps_appendIdentityAudit sha256Hex _ _ _ _ _ _).bind fun _ _ => .done trivial

theorem keeps_rollbackAgentIdentity (agentId : String) (targetVersion : Nat)
    (reason : Option String) :
    Keeps Any (rollbackAgentIdentity sha256Hex agentId targetVersion reason) := by
  refine (keeps_getRequired _ _).bind fun target clean => ?_
  refine (keeps_getAgentIdentity sha256Hex agentId).bind fun current _ => ?_
  refine keeps_now.bind fun now _ => ?_
  refine Preserves.bind (keeps_persistIdentitySnapshot agentId clean) fun _ _ => ?_
  exact (keeps_appendIdentityAudit sha256Hex _ _ _ _ _ _).bind fun _ _ => .done trivial

theorem keeps_registerAgent (agentId : String) :
    Keeps Any (registerAgent sha256Hex agentId none) := by
  refine (keeps_get _).bind fun stored _ => ?_
  cases stored with
  | some existing => exact (keeps_zadd _ _ _).bind fun _ _ => .done trivial
  | none =>
    refine keeps_now.bind fun now _ => ?_
    refine Preserves.bind (keeps_persistIdentitySnapshot agentId cleanCore_empty) fun _ _ => ?_
    refine (keeps_appendIdentityAudit sha256Hex _ _ _ _ _ _).bind fun _ _ => ?_
    exact (keeps_zadd _ _ _).bind fun _ _ => .done trivial

theorem keeps_deleteAgent (agentId : String) : Keeps Any (deleteAgent agentId) := by
  refine (keeps_getRequired _ _).bind fun _ _ => ?_
  refine (keeps_del _).bind fun _ _ => ?_
  refine (keeps_zrem _ _).bind fun _ _ => ?_
  refine (keeps_zdel _).attempt.bind fun _ _ => ?_
  exact (keeps_zdel _).attempt.bind fun _ _ => .done trivial

/-! ## Branches and forks -/

/-- An absent override, or a clean one. -/
def CleanOverride (core : Option Json) : Prop := ∀ given, core = some given → CleanCore given

theorem CleanOverride.getD {core : Option Json} (clean : CleanOverride core) {other : Json}
    (otherwise : CleanCore other) : CleanCore (core.getD other) := by
  cases core with
  | some given => exact clean given rfl
  | none => exact otherwise

theorem keeps_createAgentBranch (agentId : String) {request : CreateBranchRequest}
    (clean : CleanOverride request.coreOverride) :
    Keeps Any (createAgentBranch sha256Hex agentId request) := by
  refine (keeps_ofExcept _).bind fun _ _ => ?_
  refine (keeps_get _).bind fun existing _ => ?_
  dsimp only
  split
  · exact .fail
  · refine (keeps_getAgentIdentity sha256Hex agentId).bind fun parent parentClean => ?_
    refine keeps_now.bind fun updatedAt _ => ?_
    refine Preserves.bind (keeps_set (clean.getD parentClean)) fun _ _ => ?_
    refine keeps_now.bind fun createdAt _ => ?_
    refine Preserves.bind (keeps_set trivial) fun _ _ => ?_
    refine (keeps_zadd _ _ _).bind fun _ _ => ?_
    exact (keeps_appendIdentityAudit sha256Hex _ _ _ _ _ _).bind fun _ _ => .done trivial

theorem keeps_getBranchMetadata (agentId branchName : String) :
    Keeps Any (getBranchMetadata agentId branchName) :=
  (keeps_getRequired (branchKey agentId branchName) _).any

theorem keeps_requireUnmerged (metadata : BranchMetadata) (branchName : String) :
    Keeps Any (requireUnmerged metadata branchName) := by
  unfold requireUnmerged
  split
  · exact .fail
  · exact .done trivial

theorem keeps_getAgentBranch (agentId branchName : String) :
    Keeps Any (getAgentBranch sha256Hex agentId branchName) := by
  refine (keeps_getBranchMetadata _ _).bind fun metadata _ => ?_
  exact (keeps_getAgentIdentity sha256Hex _).bind fun _ _ => .done trivial

theorem keeps_updateAgentBranch (agentId branchName : String) {core : Json}
    (clean : CleanCore core) :
    Keeps Any (updateAgentBranch sha256Hex agentId branchName core) := by
  refine (keeps_getBranchMetadata _ _).bind fun metadata _ => ?_
  refine (keeps_requireUnmerged _ _).bind fun _ _ => ?_
  exact keeps_updateAgentIdentity sha256Hex _ clean

theorem keeps_mergeAgentBranch (agentId branchName : String) :
    Keeps Any (mergeAgentBranch sha256Hex agentId branchName) := by
  refine (keeps_getBranchMetadata _ _).bind fun metadata _ => ?_
  refine (keeps_requireUnmerged _ _).bind fun _ _ => ?_
  refine (keeps_getAgentIdentity sha256Hex _).bind fun branchIdentity clean => ?_
  refine (keeps_getAgentIdentity sha256Hex _).bind fun parentBefore _ => ?_
  refine (keeps_updateAgentIdentity sha256Hex _ clean).bind fun merged _ => ?_
  refine Preserves.bind (keeps_set trivial) fun _ _ => ?_
  exact (keeps_appendIdentityAudit sha256Hex _ _ _ _ _ _).bind fun _ _ => .done trivial

theorem keeps_deleteAgentBranch (agentId branchName : String) :
    Keeps Any (deleteAgentBranch sha256Hex agentId branchName) := by
  refine (keeps_getBranchMetadata _ _).bind fun metadata _ => ?_
  refine (keeps_del _).bind fun _ _ => ?_
  refine (keeps_del _).bind fun _ _ => ?_
  refine (keeps_zrem _ _).bind fun _ _ => ?_
  refine (keeps_getAgentIdentity sha256Hex _).bind fun parent _ => ?_
  exact keeps_appendIdentityAudit sha256Hex _ _ _ _ _ _

theorem keeps_getExperiences (ids : List String) : Keeps Any (getExperiences ids) := by
  induction ids with
  | nil => exact .done trivial
  | cons id ids ih => exact (keeps_get _).bind fun _ _ => ih.bind fun _ _ => .done trivial

theorem keeps_listExperienceEvents (agentId : String) (limit : Nat) :
    Keeps Any (listExperienceEvents agentId limit) :=
  (keeps_zrevrange _ _ _).bind fun ids _ => keeps_getExperiences ids

theorem keeps_transferExperiences (newAgentId : String) (events : List ExperienceEvent) :
    Keeps Any (transferExperiences newAgentId events) := by
  induction events with
  | nil => exact .done trivial
  | cons event events ih =>
    refine keeps_newId.bind fun id _ => ?_
    refine Preserves.bind (keeps_set trivial) fun _ _ => ?_
    refine (keeps_zadd _ _ _).bind fun _ _ => ?_
    exact ih.bind fun _ _ => .done trivial

theorem keeps_appendForkAudit (newAgentId : String) (description : Option String) :
    Keeps Any (appendForkAudit sha256Hex newAgentId description) := by
  refine keeps_newId.bind fun id _ => ?_
  refine keeps_now.bind fun createdAt _ => ?_
  refine Preserves.bind (keeps_set trivial) fun _ _ => ?_
  exact keeps_zadd _ _ _

theorem keeps_forkAgent (sourceAgentId : String) {request : ForkAgentRequest}
    (clean : CleanOverride request.coreOverride) :
    Keeps Any (forkAgent sha256Hex sourceAgentId request) := by
  refine (keeps_ofExcept _).bind fun _ _ => ?_
  refine (keeps_get _).bind fun existing _ => ?_
  dsimp only
  split
  · exact .fail
  · refine (keeps_getAgentIdentity sha256Hex _).bind fun source sourceClean => ?_
    refine keeps_now.bind fun updatedAt _ => ?_
    refine Preserves.bind (keeps_set (clean.getD sourceClean)) fun _ _ => ?_
    refine Preserves.bind (keeps_persistIdentitySnapshot _ (clean.getD sourceClean))
      fun _ _ => ?_
    refine (keeps_listExperienceEvents _ _).bind fun sourceEvents _ => ?_
    refine (keeps_transferExperiences _ _).bind fun transferred _ => ?_
    refine keeps_now.bind fun forkedAt _ => ?_
    refine Preserves.bind (keeps_set trivial) fun _ _ => ?_
    refine (keeps_appendForkAudit sha256Hex _ _).bind fun _ _ => ?_
    exact (keeps_appendIdentityAudit sha256Hex _ _ _ _ _ _).bind fun _ _ => .done trivial

/-! ## Experiences and proposals -/

theorem keeps_orNewId (id : Option Uuid) : Keeps Any (orNewId id) := by
  cases id with
  | some id => exact .done trivial
  | none => exact keeps_newId

theorem keeps_orNow (instant : Option DateTime) : Keeps Any (orNow instant) := by
  cases instant with
  | some instant => exact .done trivial
  | none => exact keeps_now

theorem keeps_addExperienceEvent (agentId : String) (request : CreateExperienceRequest) :
    Keeps Any (addExperienceEvent agentId request) := by
  refine (keeps_orNewId _).bind fun id _ => ?_
  refine (keeps_orNow _).bind fun createdAt _ => ?_
  refine Preserves.bind (keeps_set trivial) fun _ _ => ?_
  exact (keeps_zadd _ _ _).bind fun _ _ => .done trivial

theorem keeps_createPromotionProposal (agentId : String)
    (request : CreatePromotionProposalRequest) :
    Keeps Any (createPromotionProposal agentId request) := by
  refine (keeps_orNewId _).bind fun id _ => ?_
  refine keeps_now.bind fun createdAt _ => ?_
  refine Preserves.bind (keeps_set trivial) fun _ _ => ?_
  exact (keeps_zadd _ _ _).bind fun _ _ => .done trivial

theorem keeps_getPromotionProposal (agentId : String) (proposalId : Uuid) :
    Keeps Any (getPromotionProposal agentId proposalId) := by
  refine (keeps_getRequired _ _).bind fun proposal _ => ?_
  dsimp only
  split
  · exact .fail
  · exact .done trivial

theorem keeps_updatePromotionProposal (proposal : PromotionProposal) :
    Keeps Any (updatePromotionProposal proposal) :=
  keeps_set trivial

end Store

/-! ## Routes -/

namespace Routes

section Handlers

variable (sha256Hex : String → String) (toLowercase : String → String)

theorem keeps_requireSourceEvents (eventIds : List Uuid) :
    Keeps Any (requireSourceEvents eventIds) := by
  induction eventIds with
  | nil => exact .done trivial
  | cons eventId eventIds ih =>
    refine (keeps_get _).bind fun event _ => ?_
    dsimp only
    split
    · exact .fail
    · exact ih

theorem keeps_approvalPolicy (agentId : String) : Keeps Any (approvalPolicy agentId) := by
  refine (keeps_get _).bind fun stored _ => ?_
  cases stored with
  | some policy => exact .done trivial
  | none => exact keeps_now.bind fun _ _ => .done trivial

theorem keeps_applyPromotion (agentId : String) (proposal : PromotionProposal) :
    Keeps Any (applyPromotion sha256Hex agentId proposal) := by
  refine (keeps_ofExcept _).bind fun _ clean => ?_
  refine (keeps_updateAgentIdentity sha256Hex agentId clean).bind fun _ _ => ?_
  refine keeps_now.bind fun approvedAt _ => ?_
  exact (keeps_updatePromotionProposal _).bind fun _ _ => .done trivial

theorem keeps_approvePromotionProposal (caller : CallerContext) (agentId : String)
    (proposalId : Uuid) :
    Keeps Any (approvePromotionProposal sha256Hex toLowercase caller agentId proposalId) := by
  refine (keeps_ofExcept _).bind fun agentId _ => ?_
  refine (keeps_getPromotionProposal _ _).bind fun proposal _ => ?_
  refine (keeps_ofExcept _).bind fun _ _ => ?_
  refine (keeps_approvalPolicy _).bind fun policy _ => ?_
  refine keeps_now.bind fun checkedAt _ => ?_
  dsimp only
  split
  · refine keeps_now.bind fun expiredAt _ => ?_
    exact (keeps_updatePromotionProposal _).bind fun _ _ => .fail
  · refine keeps_now.bind fun cooledAt _ => ?_
    split
    · exact .fail
    · split
      · exact keeps_applyPromotion sha256Hex agentId _
      · exact (keeps_updatePromotionProposal _).bind fun _ _ => .done trivial

theorem keeps_registerAgent (agentId : String) :
    Keeps Any (registerAgent sha256Hex agentId none) := by
  refine (keeps_ofExcept _).bind fun agentId _ => ?_
  exact (Agent.keeps_registerAgent sha256Hex agentId).bind fun _ _ => .done trivial

theorem keeps_getAgentIdentity (agentId : String) :
    Keeps Any (getAgentIdentity sha256Hex agentId) := by
  refine (keeps_ofExcept _).bind fun agentId _ => ?_
  exact (Agent.keeps_getAgentIdentity sha256Hex agentId).bind fun _ _ => .done trivial

theorem keeps_deleteAgent (caller : CallerContext) (agentId : String) :
    Keeps Any (deleteAgent caller agentId) := by
  refine (keeps_ofExcept _).bind fun _ _ => ?_
  refine (keeps_ofExcept _).bind fun agentId _ => ?_
  exact (Agent.keeps_deleteAgent agentId).bind fun _ _ => .done trivial

theorem keeps_updateAgentIdentity (caller : CallerContext) (agentId : String) (core : Json) :
    Keeps Any (updateAgentIdentity sha256Hex caller agentId core) := by
  refine (keeps_ofExcept _).bind fun _ _ => ?_
  refine (keeps_ofExcept _).bind fun agentId _ => ?_
  refine (keeps_ofExcept _).bind fun _ clean => ?_
  exact (Agent.keeps_updateAgentIdentity sha256Hex agentId clean).bind fun _ _ => .done trivial

theorem keeps_rollbackAgentIdentity (caller : CallerContext) (agentId : String)
    (targetVersion : Nat) (reason : Option String) :
    Keeps Any (rollbackAgentIdentity sha256Hex caller agentId targetVersion reason) := by
  refine (keeps_ofExcept _).bind fun _ _ => ?_
  refine (keeps_ofExcept _).bind fun agentId _ => ?_
  dsimp only
  split
  · exact .fail
  · exact (Agent.keeps_rollbackAgentIdentity sha256Hex _ _ _).bind fun _ _ => .done trivial

theorem keeps_addAgentExperience
    (computeFisherImportance : ExperienceEvent → List ExperienceEvent → ℚ)
    (caller : CallerContext) (agentId : String) (request : CreateExperienceRequest) :
    Keeps Any (addAgentExperience computeFisherImportance caller agentId request) := by
  refine (keeps_ofExcept _).bind fun _ _ => ?_
  refine (keeps_ofExcept _).bind fun agentId _ => ?_
  refine (keeps_ofExcept _).bind fun _ _ => ?_
  refine (keeps_ofExcept _).bind fun _ _ => ?_
  refine (keeps_addExperienceEvent _ _).bind fun event _ => ?_
  refine (keeps_listExperienceEvents _ _).bind fun allEvents _ => ?_
  exact Preserves.bind (keeps_set trivial) fun _ _ => .done trivial

theorem keeps_createPromotionProposal (agentId : String)
    (request : CreatePromotionProposalRequest) :
    Keeps Any (createPromotionProposal agentId request) := by
  refine (keeps_ofExcept _).bind fun agentId _ => ?_
  refine (keeps_ofExcept _).bind fun _ _ => ?_
  refine (keeps_ofExcept _).bind fun _ _ => ?_
  refine (keeps_ofExcept _).bind fun _ _ => ?_
  dsimp only
  split
  · exact .fail
  · refine (keeps_requireSourceEvents _).bind fun _ _ => ?_
    exact (Agent.keeps_createPromotionProposal _ _).bind fun _ _ => .done trivial

theorem keeps_rejectPromotionProposal (agentId : String) (proposalId : Uuid)
    (reason : Option String) :
    Keeps Any (rejectPromotionProposal agentId proposalId reason) := by
  refine (keeps_ofExcept _).bind fun agentId _ => ?_
  refine (keeps_getPromotionProposal _ _).bind fun proposal _ => ?_
  refine (keeps_ofExcept _).bind fun _ _ => ?_
  refine keeps_now.bind fun rejectedAt _ => ?_
  exact (keeps_updatePromotionProposal _).bind fun _ _ => .done trivial

theorem keeps_setAgentApprovalPolicy (caller : CallerContext) (agentId : String)
    (request : SetApprovalPolicyRequest) :
    Keeps Any (setAgentApprovalPolicy caller agentId request) := by
  refine (keeps_ofExcept _).bind fun agentId _ => ?_
  refine (keeps_ofExcept _).bind fun _ _ => ?_
  refine keeps_now.bind fun updatedAt _ => ?_
  exact Preserves.bind (keeps_set trivial) fun _ _ => .done trivial

theorem keeps_createAgentBranch (caller : CallerContext) (agentId : String)
    {request : CreateBranchRequest} (clean : CleanOverride request.coreOverride) :
    Keeps Any (createAgentBranch sha256Hex caller agentId request) := by
  refine (keeps_ofExcept _).bind fun _ _ => ?_
  refine (keeps_ofExcept _).bind fun agentId _ => ?_
  exact (Agent.keeps_createAgentBranch sha256Hex agentId clean).bind fun _ _ => .done trivial

theorem keeps_getAgentBranch (agentId branchName : String) :
    Keeps Any (getAgentBranch sha256Hex agentId branchName) := by
  refine (keeps_ofExcept _).bind fun agentId _ => ?_
  exact (Agent.keeps_getAgentBranch sha256Hex _ _).bind fun _ _ => .done trivial

theorem keeps_updateAgentBranch (caller : CallerContext) (agentId branchName : String)
    {core : Json} (clean : CleanCore core) :
    Keeps Any (updateAgentBranch sha256Hex caller agentId branchName core) := by
  refine (keeps_ofExcept _).bind fun _ _ => ?_
  refine (keeps_ofExcept _).bind fun agentId _ => ?_
  exact (Agent.keeps_updateAgentBranch sha256Hex _ _ clean).bind fun _ _ => .done trivial

theorem keeps_mergeAgentBranch (caller : CallerContext) (agentId branchName : String) :
    Keeps Any (mergeAgentBranch sha256Hex caller agentId branchName) := by
  refine (keeps_ofExcept _).bind fun _ _ => ?_
  refine (keeps_ofExcept _).bind fun agentId _ => ?_
  exact (Agent.keeps_mergeAgentBranch sha256Hex _ _).bind fun _ _ => .done trivial

theorem keeps_deleteAgentBranch (caller : CallerContext) (agentId branchName : String) :
    Keeps Any (deleteAgentBranch sha256Hex caller agentId branchName) := by
  refine (keeps_ofExcept _).bind fun _ _ => ?_
  refine (keeps_ofExcept _).bind fun agentId _ => ?_
  exact (Agent.keeps_deleteAgentBranch sha256Hex _ _).bind fun _ _ => .done trivial

theorem keeps_forkAgent (caller : CallerContext) (agentId : String)
    {request : ForkAgentRequest} (clean : CleanOverride request.coreOverride) :
    Keeps Any (forkAgent sha256Hex caller agentId request) := by
  refine (keeps_ofExcept _).bind fun _ _ => ?_
  refine (keeps_ofExcept _).bind fun agentId _ => ?_
  exact (Agent.keeps_forkAgent sha256Hex _ clean).bind fun _ _ => .done trivial

end Handlers
end Routes

/-- The cores which a request brings past the guard: what `register`, `create branch`, `fork` and
`update branch` hand to the store. -/
def AgentRequest.Uncontaminated : AgentRequest → Prop
  | .register _ description => description = none
  | .createBranch _ _ body => CleanOverride body.coreOverride
  | .fork _ _ body => CleanOverride body.coreOverride
  | .updateBranch _ _ _ core => CleanCore core
  | _ => True

section Serving

variable (sha256Hex : String → String) (toLowercase : String → String)
  (computeFisherImportance : ExperienceEvent → List ExperienceEvent → ℚ)

theorem AgentRequest.Uncontaminated.keeps {request : AgentRequest}
    (uncontaminated : request.Uncontaminated) :
    Keeps Any (request.handle sha256Hex toLowercase computeFisherImportance) := by
  cases request with
  | register agentId description =>
    obtain rfl : description = none := uncontaminated
    exact Routes.keeps_registerAgent sha256Hex agentId
  | getIdentity agentId => exact Routes.keeps_getAgentIdentity sha256Hex agentId
  | delete caller agentId => exact Routes.keeps_deleteAgent caller agentId
  | update caller agentId core => exact Routes.keeps_updateAgentIdentity sha256Hex _ _ _
  | rollback caller agentId targetVersion reason =>
    exact Routes.keeps_rollbackAgentIdentity sha256Hex _ _ _ _
  | addExperience caller agentId body => exact Routes.keeps_addAgentExperience _ _ _ _
  | propose agentId body => exact Routes.keeps_createPromotionProposal _ _
  | approve caller agentId proposalId =>
    exact Routes.keeps_approvePromotionProposal sha256Hex toLowercase _ _ _
  | reject agentId proposalId reason => exact Routes.keeps_rejectPromotionProposal _ _ _
  | setPolicy caller agentId body => exact Routes.keeps_setAgentApprovalPolicy _ _ _
  | createBranch caller agentId body =>
    exact Routes.keeps_createAgentBranch sha256Hex _ _ uncontaminated
  | getBranch agentId branchName => exact Routes.keeps_getAgentBranch sha256Hex _ _
  | updateBranch caller agentId branchName core =>
    exact Routes.keeps_updateAgentBranch sha256Hex _ _ _ uncontaminated
  | mergeBranch caller agentId branchName =>
    exact Routes.keeps_mergeAgentBranch sha256Hex _ _ _
  | deleteBranch caller agentId branchName =>
    exact Routes.keeps_deleteAgentBranch sha256Hex _ _ _
  | fork caller agentId body => exact Routes.keeps_forkAgent sha256Hex _ _ uncontaminated

/-- Every stored identity core, of agents and of branches, is clean, and so is every snapshot. -/
def StoredCoresClean (contents : AgentContents) : Prop :=
  (∀ agentId (profile : AgentIdentityProfile),
    contents.docs (.identity agentId) = some profile → CleanCore profile.core) ∧
  ∀ agentId version (profile : AgentIdentityProfile),
    contents.docs (.version agentId version) = some profile → CleanCore profile.core

theorem storedCoresClean_iff (contents : AgentContents) :
    StoredCoresClean contents ↔ Database.AllDocs CleanDoc contents := by
  constructor
  · rintro ⟨identities, versions⟩ key doc found
    cases key with
    | identity agentId => exact identities agentId doc found
    | version agentId version => exact versions agentId version doc found
    | _ => trivial
  · intro all
    exact ⟨fun agentId profile found => all (.identity agentId) profile found,
      fun agentId version profile found => all (.version agentId version) profile found⟩

/-- A server of the agent routes. -/
abbrev AgentServer :=
  Program.Server AgentCommand (·.Reply AgentAnswer) MnemoError AgentContents AgentRequest
    AgentResponse

/-- A request arrives, or a thread performs its next command. -/
abbrev AgentEvent := Program.Event (Database.Input AgentAnswer MnemoError) AgentRequest

/-- One step of the server. -/
abbrev AgentServer.step : AgentServer → AgentEvent → AgentServer :=
  Program.Server.step Database.exec
    (AgentRequest.handle sha256Hex toLowercase computeFisherImportance)

/-- The core that a step stores under an identity comes from an uncontaminated request. -/
abbrev UncontaminatedWrites : AgentServer → AgentEvent → Prop :=
  Database.VouchedWrites HoldsCore AgentRequest.Uncontaminated

/-- All stored cores stay clean in every run in which only uncontaminated requests get as far as
storing a core, however the requests interleave. -/
theorem stored_cores_stay_clean {events : List AgentEvent}
    (guarded : StateMachine.Guarded
      (AgentServer.step sha256Hex toLowercase computeFisherImportance) UncontaminatedWrites
      (Program.Server.idle noAgents) events) :
    StateMachine.Always (AgentServer.step sha256Hex toLowercase computeFisherImportance)
      (fun server => StoredCoresClean server.shared) (Program.Server.idle noAgents) events := by
  have clean := Database.always_allDocs cleanDoc_of_not_holdsCore
    (fun _ uncontaminated =>
      uncontaminated.keeps sha256Hex toLowercase computeFisherImportance)
    (fun _ _ found => by cases found) guarded
  exact clean.mono fun server all => (storedCoresClean_iff server.shared).mpr all

end Serving

/-- An environment in which nothing fails and the clock stands still. -/
def calm : Database.Input AgentAnswer MnemoError :=
  { failure := none, now := 0, id := 1, answer := fun call => call.elim }

/-- A branch without an override is created and merged. -/
def mergedBranchRun : List AgentEvent :=
  .arrive 0 (.createBranch .adminBootstrap "helper"
    { branchName := "warmer", description := none, coreOverride := none }) ::
  List.replicate 23 (.advance 0 calm) ++
  .arrive 1 (.mergeBranch .adminBootstrap "helper" "warmer") ::
  List.replicate 21 (.advance 1 calm)

theorem stored_cores_stay_clean_mergedBranchRun :
    StateMachine.Always (AgentServer.step (fun _ => "") id fun _ _ => 0)
      (fun server => StoredCoresClean server.shared) (Program.Server.idle noAgents)
      mergedBranchRun := by
  refine stored_cores_stay_clean _ _ _ (Database.vouchedWrites_of_arrivals ?_)
  intro thread request arrives
  simp only [mergedBranchRun, List.cons_append, List.mem_cons, List.mem_append,
    List.mem_replicate, reduceCtorEq, and_false, or_false, false_or] at arrives
  rcases arrives with same | same
  · obtain ⟨rfl, rfl⟩ := Program.Event.arrive.inj same
    exact fun _ given => by cases given
  · obtain ⟨rfl, rfl⟩ := Program.Event.arrive.inj same
    trivial

/-- A branch is created with a core that names a user. -/
def contaminatedBranchRun : List AgentEvent :=
  .arrive 0 (.createBranch .adminBootstrap "helper"
    { branchName := "warmer"
      description := none
      coreOverride := some (.object [("user_email", .string "someone")]) }) ::
  List.replicate 23 (.advance 0 calm)

/-- The override of a new branch is stored without having passed the guard. -/
theorem branch_stores_contaminated_core :
    ¬ ∀ (sha256Hex toLowercase : String → String)
      (computeFisherImportance : ExperienceEvent → List ExperienceEvent → ℚ)
      (events : List AgentEvent),
      StateMachine.Always (AgentServer.step sha256Hex toLowercase computeFisherImportance)
        (fun server => StoredCoresClean server.shared) (Program.Server.idle noAgents) events := by
  intro always
  have clean := (always (fun _ => "") id (fun _ _ => 0) contaminatedBranchRun).finish
  have branch := clean.1 "helper:branch:warmer" _ rfl
  revert branch
  decide

end Agent
end Mnemo
