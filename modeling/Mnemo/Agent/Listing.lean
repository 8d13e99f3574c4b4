import Mnemo.Agent.Footprint
import Mnemo.Agent.Routes
import Mnemo.Lib.Cursor
import Mnemo.Lib.Protocol

/-!
# Listing the agents

The registry has every agent under the time at which it was entered.  A page of agents ends with a
cursor, the time of the last update of its last agent, and the next page begins above it.
-/

namespace Mnemo
namespace Agent
namespace Listing

open Auth (CallerContext)
open Cursor (above follow)
open Database (Command ReadsAs Faulty)
open Program (Ensures)
open Program.Protocol (Follows)
open SortedSet (scoreOf memberOf)

/-! ## The route -/

section Route

variable (sha256Hex : String → String)

/-- The lowest members of an index above a score. -/
def zrangeAbove (index : AgentIndex) (bound : Option Int) (limit : Nat) :
    AgentProgram (List String) :=
  Program.call (Command.zrangeAbove index bound limit : AgentCommand)

/-- The identities of agents; one that cannot be read is left out. -/
def getProfiles : List String → AgentProgram (List AgentIdentityProfile)
  | [] => return []
  | id :: ids => do
      let found ← (getAgentIdentity sha256Hex id).attempt
      let profiles ← getProfiles ids
      return found.toOption.toList ++ profiles

/-- The agents above a cursor; a limit of none counts as one. -/
def listAgents (limit : Nat) (after : Option Int) : AgentProgram (List AgentIdentityProfile) := do
  let agentIds ← zrangeAbove .agents after (max limit 1)
  getProfiles sha256Hex agentIds

/-- A page of agents and the cursor of the next one, if the page is full. -/
def listAgentsHandler (limit : Nat) (after : Option Int) :
    AgentProgram (List AgentIdentityProfile × Option Int) := do
  let limit := min limit 500
  let agents ← listAgents sha256Hex limit after
  let nextCursor :=
    if agents.length = limit then agents.getLast?.map fun profile =>
      timestampMillis profile.updatedAt
    else none
  return (agents, nextCursor)

/-- Follow the cursor until it is absent; nothing is returned if there are more pages than fuel. -/
def followCursor (limit : Nat) :
    Nat → Option Int → AgentProgram (Option (List AgentIdentityProfile))
  | 0, _ => return none
  | fuel + 1, after => do
      let (agents, nextCursor) ← listAgentsHandler sha256Hex limit after
      match nextCursor with
      | none => return some agents
      | some cursor => do
          let others ← followCursor limit fuel (some cursor)
          return others.map (agents ++ ·)

end Route

/-! ## The registry -/

/-- Every agent in the registry has an identity, and identities bear the names of their agents. -/
structure Registry (contents : AgentContents) : Prop where
  stored : ∀ id ∈ (contents.sets .agents).members, contents.docs (.identity id) ≠ none
  named : ∀ id, ∀ profile : AgentIdentityProfile,
    contents.docs (.identity id) = some profile → profile.agentId = id

/-- The identity behind an entry of the registry. -/
def profileOf (contents : AgentContents) (entry : Int ×ₗ String) : Option AgentIdentityProfile :=
  contents.docs (.identity (memberOf entry))

/-- The cursor that a page hands out when it ends with an entry. -/
def cursorOf (contents : AgentContents) (entry : Int ×ₗ String) : Int :=
  ((profileOf contents entry).map fun profile => timestampMillis profile.updatedAt).getD 0

/-- The cursor of every full page stands between the scores of its last entry and of the next one;
pages of none show one entry and no cursor. -/
def StepwiseListing (contents : AgentContents) (limit : Nat) : Prop :=
  if limit = 0 then (contents.sets .agents).entries.length ≤ 1
  else Cursor.Stepwise scoreOf (cursorOf contents) (min limit 500) (contents.sets .agents).entries

/-- No agent was updated before it was entered into the registry. -/
def Timely (contents : AgentContents) : Prop :=
  ∀ entry ∈ (contents.sets .agents).entries, scoreOf entry ≤ cursorOf contents entry

/-- Nothing fails. -/
def Quiet (input : Database.Input AgentAnswer MnemoError) : Prop := input.failure = none

/-- Following the cursor ends, and returns every agent of the registry exactly once. -/
def ListsAll (sha256Hex : String → String) (contents : AgentContents) (limit : Nat) : Prop :=
  ∃ profiles, (∀ fuel, (contents.sets .agents).entries.length < fuel → ∀ inputs,
      (∀ position, Quiet (inputs position)) →
        (Program.eval Database.exec (followCursor sha256Hex limit fuel none) inputs contents).1 =
          .ok (some profiles)) ∧
    ∀ id ∈ (contents.sets .agents).members,
      (profiles.map AgentIdentityProfile.agentId).count id = 1

/-! ## What is read -/

section Reading

variable {sha256Hex : String → String} {contents : AgentContents}

theorem not_faulty_quiet : ¬ Faulty Quiet := by
  rintro ⟨input, quiet, fails⟩
  rw [quiet] at fails
  exact nomatch fails

/-- A program that reads, whatever it reads. -/
abbrev QuietlyReads {Value : Type} (value : Value) (program : AgentProgram Value)
    (contents : AgentContents) : Prop :=
  ReadsAs Quiet (fun _ _ => True) value program contents

/-- The identities of entries. -/
def profilesOf (contents : AgentContents) (entries : List (Int ×ₗ String)) :
    List AgentIdentityProfile :=
  entries.filterMap (profileOf contents)

theorem reads_getAgentIdentity {id : String} {profile : AgentIdentityProfile}
    (stored : contents.docs (.identity id) = some profile) :
    QuietlyReads profile (getAgentIdentity sha256Hex id) contents := by
  have found : QuietlyReads (contents.docs (.identity id)) (Redis.get (.identity id)) contents :=
    Database.readsAs_get (AgentKey.identity id) trivial
  rw [stored] at found
  exact found.andThen (.done profile)

theorem reads_getProfiles {entries : List (Int ×ₗ String)}
    (stored : ∀ entry ∈ entries, profileOf contents entry ≠ none) :
    QuietlyReads (profilesOf contents entries) (getProfiles sha256Hex (entries.map memberOf))
      contents := by
  induction entries with
  | nil => exact .done []
  | cons entry entries ih =>
    have rest := ih fun other member => stored other (List.mem_cons_of_mem _ member)
    obtain ⟨profile, found⟩ := Option.ne_none_iff_exists'.mp (stored entry List.mem_cons_self)
    have first : QuietlyReads profile (getAgentIdentity sha256Hex (memberOf entry)) contents :=
      reads_getAgentIdentity found
    have whole : profilesOf contents (entry :: entries) =
        profile :: profilesOf contents entries := List.filterMap_cons_some found
    rw [whole]
    apply first.bind_attempt
    rintro outcome middle ⟨rfl, gives | ⟨faulty, _⟩⟩
    · obtain rfl := gives
      exact rest.andThen (.done _)
    · exact absurd faulty not_faulty_quiet

theorem reads_listAgents (registry : Registry contents) (limit : Nat) (after : Option Int) :
    QuietlyReads (profilesOf contents
        ((above scoreOf (contents.sets .agents).entries after).take (max limit 1)))
      (listAgents sha256Hex limit after) contents := by
  have ids : QuietlyReads ((contents.sets .agents).rangeAbove after (max limit 1))
      (zrangeAbove .agents after (max limit 1)) contents :=
    Database.readsAs_zrangeAbove AgentIndex.agents after (max limit 1) trivial
  refine ids.andThen (reads_getProfiles fun entry member => ?_)
  have listed := List.mem_of_mem_filter (List.mem_of_mem_take member)
  exact registry.stored (memberOf entry) (List.mem_map_of_mem listed)

/-- The entries of a page. -/
def pageOf (contents : AgentContents) (limit : Nat) (after : Option Int) : List (Int ×ₗ String) :=
  (above scoreOf (contents.sets .agents).entries after).take (max (min limit 500) 1)

theorem stored_of_mem_page (registry : Registry contents) {limit : Nat} {after : Option Int}
    {entry : Int ×ₗ String} (member : entry ∈ pageOf contents limit after) :
    profileOf contents entry ≠ none := by
  have listed := List.mem_of_mem_filter (List.mem_of_mem_take member)
  exact registry.stored (memberOf entry) (List.mem_map_of_mem listed)

theorem length_profilesOf {entries : List (Int ×ₗ String)}
    (stored : ∀ entry ∈ entries, profileOf contents entry ≠ none) :
    (profilesOf contents entries).length = entries.length := by
  induction entries with
  | nil => rfl
  | cons entry entries ih =>
    have rest := ih fun other member => stored other (List.mem_cons_of_mem _ member)
    obtain ⟨profile, found⟩ := Option.ne_none_iff_exists'.mp (stored entry List.mem_cons_self)
    unfold profilesOf at rest ⊢
    rw [List.filterMap_cons_some found, List.length_cons, rest, List.length_cons]

theorem cursor_profilesOf {entries : List (Int ×ₗ String)}
    (stored : ∀ entry ∈ entries, profileOf contents entry ≠ none) :
    ((profilesOf contents entries).getLast?.map fun profile => timestampMillis profile.updatedAt) =
      entries.getLast?.map (cursorOf contents) := by
  cases shown : entries.getLast? with
  | none => simp [List.getLast?_eq_none_iff.mp shown, profilesOf]
  | some last =>
    obtain ⟨profile, found⟩ :=
      Option.ne_none_iff_exists'.mp (stored last (List.mem_of_getLast? shown))
    obtain ⟨front, split⟩ := List.getLast?_eq_some_iff.mp shown
    simp [split, profilesOf, found, cursorOf]

theorem reads_listAgentsHandler (registry : Registry contents) (limit : Nat)
    (after : Option Int) :
    QuietlyReads
      (profilesOf contents (pageOf contents limit after),
        if (pageOf contents limit after).length = min limit 500 then
          (pageOf contents limit after).getLast?.map (cursorOf contents)
        else none)
      (listAgentsHandler sha256Hex limit after) contents := by
  have stored (entry : Int ×ₗ String) (member : entry ∈ pageOf contents limit after) :=
    stored_of_mem_page registry member
  rw [← cursor_profilesOf stored, ← length_profilesOf stored]
  exact (reads_listAgents registry (min limit 500) after).andThen (.done _)

theorem reads_followCursor (registry : Registry contents) {limit : Nat} (positive : 0 < limit)
    (fuel : Nat) (after : Option Int) :
    QuietlyReads
      ((follow scoreOf (cursorOf contents) (min limit 500) (contents.sets .agents).entries fuel
        after).map (profilesOf contents))
      (followCursor sha256Hex limit fuel after) contents := by
  induction fuel generalizing after with
  | zero => exact .done none
  | succ fuel ih =>
    have page : (above scoreOf (contents.sets .agents).entries after).take (min limit 500) =
        pageOf contents limit after := by
      unfold pageOf
      rw [Nat.max_eq_left (by omega)]
    refine (reads_listAgentsHandler registry limit after).andThen ?_
    unfold follow
    dsimp only
    rw [page]
    by_cases full : (pageOf contents limit after).length = min limit 500
    · rw [if_pos full, if_pos full]
      cases shown : (pageOf contents limit after).getLast? with
      | none => exact .done _
      | some last =>
        have later := ih (some (cursorOf contents last))
        have appended (rest : Option (List (Int ×ₗ String))) :
            (rest.map (pageOf contents limit after ++ ·)).map (profilesOf contents) =
              (rest.map (profilesOf contents)).map
                (profilesOf contents (pageOf contents limit after) ++ ·) := by
          cases rest with
          | none => rfl
          | some rest => exact congrArg some List.filterMap_append
        dsimp only [Option.map_some]
        rw [appended]
        exact later.andThen (.done _)
    · rw [if_neg full, if_neg full]
      exact .done _

theorem reads_followCursor_zero (registry : Registry contents) (fuel : Nat) :
    QuietlyReads (some (profilesOf contents ((contents.sets .agents).entries.take 1)))
      (followCursor sha256Hex 0 (fuel + 1) none) contents := by
  have page : pageOf contents 0 none = (contents.sets .agents).entries.take 1 := by
    unfold pageOf above
    simp
  have absent : (if (pageOf contents 0 none).length = min 0 500 then
      (pageOf contents 0 none).getLast?.map (cursorOf contents) else none) = none := by
    split
    · rename_i nothing
      rw [List.length_eq_zero_iff.mp nothing]
      rfl
    · rfl
  have handled := @reads_listAgentsHandler sha256Hex contents registry 0 none
  rw [absent, page] at handled
  exact handled.andThen (.done _)

/-! ## Complete listings -/

theorem map_agentId_profilesOf (registry : Registry contents) {entries : List (Int ×ₗ String)}
    (stored : ∀ entry ∈ entries, profileOf contents entry ≠ none) :
    (profilesOf contents entries).map AgentIdentityProfile.agentId = entries.map memberOf := by
  induction entries with
  | nil => rfl
  | cons entry entries ih =>
    have rest := ih fun other member => stored other (List.mem_cons_of_mem _ member)
    obtain ⟨profile, found⟩ := Option.ne_none_iff_exists'.mp (stored entry List.mem_cons_self)
    unfold profilesOf at rest ⊢
    rw [List.filterMap_cons_some found, List.map_cons, rest, List.map_cons,
      registry.named _ _ found]

theorem counts_iff (registry : Registry contents) {shown : List (Int ×ₗ String)}
    (part : shown.Sublist (contents.sets .agents).entries) :
    (∀ id ∈ (contents.sets .agents).members,
      ((profilesOf contents shown).map AgentIdentityProfile.agentId).count id = 1) ↔
        shown = (contents.sets .agents).entries := by
  have stored (entry : Int ×ₗ String) (member : entry ∈ shown) :
      profileOf contents entry ≠ none :=
    registry.stored (memberOf entry) (List.mem_map_of_mem (part.subset member))
  have nodup : (shown.map memberOf).Nodup := (contents.sets .agents).nodup.sublist (part.map _)
  rw [map_agentId_profilesOf registry stored]
  constructor
  · intro each
    apply part.eq_of_length_le
    have subset : (contents.sets .agents).members ⊆ shown.map memberOf := by
      intro id member
      have once := each id member
      exact List.count_pos_iff.mp (by omega)
    have shorter := (List.subperm_of_subset (contents.sets .agents).nodup subset).length_le
    simpa [SortedSet.members] using shorter
  · rintro rfl id member
    rw [nodup.count]
    exact if_pos member

variable (sha256Hex)

theorem outcome_of_reads {Value : Type} {value : Value} {program : AgentProgram Value}
    (reads : QuietlyReads value program contents)
    {inputs : Nat → Database.Input AgentAnswer MnemoError}
    (quiet : ∀ position, Quiet (inputs position)) :
    (Program.eval Database.exec program inputs contents).1 = .ok value := by
  rcases (reads.eval quiet).2 with given | ⟨faulty, _⟩
  · exact given
  · exact absurd faulty not_faulty_quiet

/-- Stepwise pages list every agent exactly once; when no agent was updated before it was entered,
no other pages do. -/
theorem listsAll_iff (registry : Registry contents) (limit : Nat) :
    (StepwiseListing contents limit → ListsAll sha256Hex contents limit) ∧
      (Timely contents → ListsAll sha256Hex contents limit → StepwiseListing contents limit) := by
  have sorted : (contents.sets .agents).entries.Pairwise
      fun first second => scoreOf first ≤ scoreOf second :=
    (contents.sets .agents).sorted.imp fun le => (Prod.Lex.le_iff'.mp le).1
  have everything : above scoreOf (contents.sets .agents).entries none =
      (contents.sets .agents).entries := by
    simp [above]
  have complete (shown : List (Int ×ₗ String))
      (part : shown.Sublist (contents.sets .agents).entries) := counts_iff registry part
  have calm (_ : Nat) : Quiet (untroubled 0 0) := rfl
  unfold StepwiseListing
  rcases Nat.eq_zero_or_pos limit with rfl | positive
  · have reads (fuel : Nat) := @reads_followCursor_zero sha256Hex contents registry fuel
    rw [if_pos rfl]
    constructor
    · intro short
      have whole := List.take_of_length_le short
      refine ⟨_, fun fuel enough inputs quiet => ?_, (complete _ (List.take_sublist 1 _)).mpr whole⟩
      obtain ⟨more, rfl⟩ := Nat.exists_eq_add_of_lt (Nat.zero_lt_of_lt enough)
      rw [Nat.zero_add]
      exact outcome_of_reads (reads more) quiet
    · rintro - ⟨profiles, gives, each⟩
      have given := gives _ (Nat.lt_succ_self _) _ calm
      have same := Option.some.inj (Except.ok.inj
        (given.symm.trans (outcome_of_reads (reads _) calm)))
      rw [same] at each
      have whole := (complete _ (List.take_sublist 1 _)).mp each
      rw [← whole, List.length_take]
      exact Nat.min_le_left _ _
  · have reads (fuel : Nat) :=
      @reads_followCursor sha256Hex contents registry limit positive fuel none
    rw [if_neg (by omega)]
    constructor
    · intro stepwise
      refine ⟨profilesOf contents (contents.sets .agents).entries,
        fun fuel enough inputs quiet => ?_, (complete _ (List.Sublist.refl _)).mpr rfl⟩
      have followed : follow scoreOf (cursorOf contents) (min limit 500)
          ([] ++ (contents.sets .agents).entries) fuel none =
            some (contents.sets .agents).entries :=
        Cursor.follow_of_stepwise [] sorted stepwise (by omega) everything enough
      have outcome := outcome_of_reads (reads fuel) quiet
      rw [List.nil_append] at followed
      rwa [followed] at outcome
    · rintro timely ⟨profiles, gives, each⟩
      have given := gives _ (Nat.lt_succ_self _) _ calm
      have outcome := outcome_of_reads (reads ((contents.sets .agents).entries.length + 1)) calm
      have same := Except.ok.inj (given.symm.trans outcome)
      obtain ⟨shown, followed, rfl⟩ := Option.map_eq_some_iff.mp same.symm
      have part := Cursor.sublist_of_follow timely sorted followed
      rw [everything] at part
      have whole := (complete shown part).mp each
      rw [whole] at followed
      have stepwise := Cursor.stepwise_of_follow timely sorted (by omega)
        (followed.trans (congrArg some everything.symm))
      rwa [everything] at stepwise

end Reading

/-! ## Histories -/

/-- A call that enters an agent into the registry or changes its identity. -/
inductive IdentityCall where
  | register (agentId : String) (description : Option String)
  | get (agentId : String)
  | update (caller : CallerContext) (agentId : String) (core : Json)
  | rollback (caller : CallerContext) (agentId : String) (targetVersion : Nat)
      (reason : Option String)

/-- The program of a call. -/
def IdentityCall.handle (sha256Hex : String → String) : IdentityCall → AgentProgram AgentResponse
  | .register agentId description => Routes.registerAgent sha256Hex agentId description
  | .get agentId => Routes.getAgentIdentity sha256Hex agentId
  | .update caller agentId core => Routes.updateAgentIdentity sha256Hex caller agentId core
  | .rollback caller agentId targetVersion reason =>
      Routes.rollbackAgentIdentity sha256Hex caller agentId targetVersion reason

/-- One call after the other, each with what the environment decides while it runs. -/
def historyStep (sha256Hex : String → String) (contents : AgentContents)
    (call : IdentityCall × (Nat → Database.Input AgentAnswer MnemoError)) : AgentContents :=
  ((call.1.handle sha256Hex).eval Database.exec call.2 contents).2

/-- An agent is entered when its identity is known to be stored, and identities are stored under
the names of their agents. -/
def Allows (known : Option String) : AgentCommand → Prop
  | .set (.identity agentId) profile => AgentIdentityProfile.agentId profile = agentId
  | .zadd .agents agentId _ => known = some agentId
  | .del (.identity _) => False
  | _ => True

/-- Whose identity is known to be stored after the reply to a command. -/
def knownAfter (known : Option String) : (command : AgentCommand) →
    Except MnemoError (command.Reply AgentAnswer) → Option String
  | .get (.identity agentId), .ok stored => if Option.isSome stored then some agentId else known
  | .set (.identity agentId) _, .ok _ => some agentId
  | _, _ => known

/-- An identity that is read bears the name of its agent. -/
def Expects : (command : AgentCommand) → Except MnemoError (command.Reply AgentAnswer) → Prop
  | .get (.identity agentId), .ok stored =>
      ∀ profile : AgentIdentityProfile, stored = some profile → profile.agentId = agentId
  | _, _ => True

/-- The protocol of the calls. -/
def registryProtocol :
    Program.Protocol AgentCommand (·.Reply AgentAnswer) MnemoError (Option String) where
  start := none
  allowed := Allows
  expected _ := Expects
  next := knownAfter

section Histories

variable {sha256Hex : String → String} {agentId : String}

/-- The identity is that of the agent, and known to be stored. -/
def Identified (agentId : String) (known : Option String) :
    Except MnemoError AgentIdentityProfile → Prop
  | .ok profile => profile.agentId = agentId ∧ known = some agentId
  | .error _ => True

theorem follows_appendIdentityAudit (known : Option String) (action : AgentIdentityAuditAction)
    (fromVersion : Option Nat) (toVersion : Nat) (rollbackToVersion : Option Nat)
    (reason : Option String) :
    registryProtocol.Follows (fun last outcome => ∀ value, outcome = .ok value → last = known) known
      (appendIdentityAudit sha256Hex agentId action fromVersion toVersion rollbackToVersion
        reason) := by
  apply Follows.of_completes (completes_appendIdentityAudit action fromVersion toVersion
    rollbackToVersion reason)
  · intro command audit
    unfold AuditCommand at audit
    split at audit <;> trivial
  · intro command value audit
    unfold AuditCommand at audit
    split at audit <;> first | rfl | exact audit.elim
  · exact fun _ _ _ => rfl
  · exact fun _ _ _ _ _ _ impossible => nomatch impossible

theorem follows_persistIdentitySnapshot (known : Option String) {profile : AgentIdentityProfile}
    (named : profile.agentId = agentId) :
    registryProtocol.Follows
      (fun last outcome => ∀ value, outcome = .ok value → last = some agentId) known
      (persistIdentitySnapshot agentId profile) := by
  apply Follows.bind_call named
  · intro _ _
    apply Follows.bind_call trivial
    · intro _ _
      refine .perform trivial fun reply _ => ?_
      cases reply with
      | ok value => exact .done fun _ _ => rfl
      | error error => exact .fail fun _ impossible => nomatch impossible
    · exact fun _ _ _ impossible => nomatch impossible
  · exact fun _ _ _ impossible => nomatch impossible

theorem follows_indexAgent (profile : AgentIdentityProfile) :
    registryProtocol.Follows (fun last outcome => ∀ value, outcome = .ok value → last = some agentId)
      (some agentId) (indexAgent agentId profile) := by
  refine .perform rfl fun reply _ => ?_
  cases reply with
  | ok value => exact .done fun _ _ => rfl
  | error error => exact .fail fun _ impossible => nomatch impossible

theorem follows_getAgentIdentity (known : Option String) :
    registryProtocol.Follows (Identified agentId) known (getAgentIdentity sha256Hex agentId) := by
  apply Follows.bind_call trivial
  · intro stored expected
    cases stored with
    | some profile => exact .done ⟨expected profile rfl, rfl⟩
    | none =>
      apply Follows.bind_call trivial
      · intro now _
        have named : (AgentIdentityProfile.new agentId now).agentId = agentId := rfl
        apply (follows_persistIdentitySnapshot _ named).bind
        · intro middle _ last
          obtain rfl := last _ rfl
          apply (follows_appendIdentityAudit _ _ _ _ _ _).bind
          · intro middle _ last
            obtain rfl := last _ rfl
            apply (follows_indexAgent _).bind
            · intro middle _ last
              obtain rfl := last _ rfl
              exact .done ⟨rfl, rfl⟩
            · exact fun _ _ _ => trivial
          · exact fun _ _ _ => trivial
        · exact fun _ _ _ => trivial
      · exact fun _ _ => trivial
  · exact fun _ _ => trivial

theorem follows_registerAgent (known : Option String) (description : Option String) :
    registryProtocol.Follows (fun _ _ => True) known
      (registerAgent sha256Hex agentId description) := by
  apply Follows.bind_call trivial
  · intro stored expected
    cases stored with
    | some existing =>
      have named : existing.agentId = agentId := expected existing rfl
      cases description with
      | none =>
        apply (follows_indexAgent existing).bind
        · exact fun _ _ _ => .done trivial
        · exact fun _ _ _ => trivial
      | some description =>
        apply Follows.bind_call trivial
        · intro updatedAt _
          apply Follows.bind_call named
          · intro _ _
            apply (follows_indexAgent _).bind
            · exact fun _ _ _ => .done trivial
            · exact fun _ _ _ => trivial
          · exact fun _ _ => trivial
        · exact fun _ _ => trivial
    | none =>
      apply Follows.bind_call trivial
      · intro now _
        have named : { AgentIdentityProfile.new agentId now with
            core := registeredCore description }.agentId = agentId := rfl
        apply (follows_persistIdentitySnapshot _ named).bind
        · intro middle _ last
          obtain rfl := last _ rfl
          apply (follows_appendIdentityAudit _ _ _ _ _ _).bind
          · intro middle _ last
            obtain rfl := last _ rfl
            apply (follows_indexAgent _).bind
            · exact fun _ _ _ => .done trivial
            · exact fun _ _ _ => trivial
          · exact fun _ _ _ => trivial
        · exact fun _ _ _ => trivial
      · exact fun _ _ => trivial
  · exact fun _ _ => trivial

theorem follows_storeVersion (known : Option String) {profile : AgentIdentityProfile}
    (named : profile.agentId = agentId) (action : AgentIdentityAuditAction)
    (fromVersion : Option Nat) (rollbackToVersion : Option Nat) (reason : Option String) :
    registryProtocol.Follows (fun _ _ => True) known
      (persistIdentitySnapshot agentId profile >>= fun _ =>
        appendIdentityAudit sha256Hex agentId action fromVersion profile.version rollbackToVersion
          reason >>= fun _ => pure profile) := by
  apply (follows_persistIdentitySnapshot known named).bind
  · intro middle _ _
    apply (follows_appendIdentityAudit _ _ _ _ _ _).bind
    · exact fun _ _ _ => .done trivial
    · exact fun _ _ _ => trivial
  · exact fun _ _ _ => trivial

theorem follows_handle (call : IdentityCall) :
    registryProtocol.Follows (fun _ _ => True) none (call.handle sha256Hex) := by
  cases call with
  | register agentId description =>
    apply Follows.bind_ofExcept
    · intro agent _
      apply (follows_registerAgent none description).bind
      · exact fun _ _ _ => .done trivial
      · exact fun _ _ _ => trivial
    · exact fun _ => trivial
  | get agentId =>
    apply Follows.bind_ofExcept
    · intro agent _
      apply (follows_getAgentIdentity none).bind
      · exact fun _ _ _ => .done trivial
      · exact fun _ _ _ => trivial
    · exact fun _ => trivial
  | update caller agentId core =>
    apply Follows.bind_ofExcept
    · intro _ _
      apply Follows.bind_ofExcept
      · intro agent _
        apply Follows.bind_ofExcept
        · intro _ _
          have updates : registryProtocol.Follows (fun _ _ => True) none
              (updateAgentIdentity sha256Hex agent core) := by
            apply (follows_getAgentIdentity none).bind
            · intro known profile identified
              apply Follows.bind_call trivial
              · intro now _
                have named : (profile.applyUpdate core now).agentId = agent := identified.1
                exact follows_storeVersion _ named _ _ _ _
              · exact fun _ _ => trivial
            · exact fun _ _ _ => trivial
          apply updates.bind
          · exact fun _ _ _ => .done trivial
          · exact fun _ _ _ => trivial
        · exact fun _ => trivial
      · exact fun _ => trivial
    · exact fun _ => trivial
  | rollback caller agentId targetVersion reason =>
    apply Follows.bind_ofExcept
    · intro _ _
      apply Follows.bind_ofExcept
      · intro agent _
        have required : registryProtocol.Follows (fun _ _ => True) none
            (Redis.getRequired (.version agent targetVersion)
              (.notFound "AgentIdentityVersion" (agent ++ ":" ++ toString targetVersion))) := by
          apply Follows.bind_call trivial
          · intro stored _
            cases stored with
            | none => exact .fail trivial
            | some target => exact .done trivial
          · exact fun _ _ => trivial
        have rolls : registryProtocol.Follows (fun _ _ => True) none
            (rollbackAgentIdentity sha256Hex agent targetVersion reason) := by
          apply required.bind
          · intro middle target _
            apply (follows_getAgentIdentity middle).bind
            · intro known current _
              apply Follows.bind_call trivial
              · intro now _
                have named : { (target : AgentIdentityProfile) with
                    agentId := agent, version := current.version + 1
                    updatedAt := now }.agentId = agent := rfl
                exact follows_storeVersion _ named _ _ _ _
              · exact fun _ _ => trivial
            · exact fun _ _ _ => trivial
          · exact fun _ _ _ => trivial
        by_cases zero : targetVersion = 0
        · simp only [if_pos zero]
          exact .fail trivial
        · simp only [if_neg zero]
          apply rolls.bind
          · exact fun _ _ _ => .done trivial
          · exact fun _ _ _ => trivial
      · exact fun _ => trivial
    · exact fun _ => trivial

/-- The registry is in order, and what is known to be stored is. -/
structure Kept (known : Option String) (contents : AgentContents) : Prop where
  registry : Registry contents
  stored : ∀ agentId, known = some agentId → contents.docs (.identity agentId) ≠ none

variable {known : Option String} {contents after : AgentContents}

theorem Kept.shrink (kept : Kept known contents)
    (docs : ∀ id, after.docs (.identity id) = contents.docs (.identity id))
    (members : ∀ id ∈ (after.sets .agents).members, id ∈ (contents.sets .agents).members) :
    Kept known after := by
  refine ⟨⟨fun id member => ?_, fun id profile stored => ?_⟩, fun id same => ?_⟩
  · rw [docs]
    exact kept.registry.stored id (members id member)
  · rw [docs] at stored
    exact kept.registry.named id profile stored
  · rw [docs]
    exact kept.stored id same

theorem Kept.put (kept : Kept known contents) {profile : AgentIdentityProfile}
    (named : profile.agentId = agentId) :
    Kept (some agentId) (contents.put (.identity agentId) profile) := by
  have here : (contents.put (.identity agentId) profile).docs (.identity agentId) = some profile :=
    Database.Contents.docs_put_self _ _ _
  have there {id : String} (different : id ≠ agentId) :
      (contents.put (.identity agentId) profile).docs (.identity id) =
        contents.docs (.identity id) :=
    Database.Contents.docs_put_of_ne _ (by simpa using different) _
  refine ⟨⟨fun id member => ?_, fun id other stored => ?_⟩, fun id same => ?_⟩
  · rcases eq_or_ne id agentId with rfl | different
    · exact fun absent => nomatch here.symm.trans absent
    · rw [there different]
      exact kept.registry.stored id member
  · rcases eq_or_ne id agentId with rfl | different
    · rw [← Option.some.inj (here.symm.trans stored)]
      exact named
    · rw [there different] at stored
      exact kept.registry.named id other stored
  · obtain rfl := Option.some.inj same
    exact fun absent => nomatch here.symm.trans absent

theorem Kept.enter (kept : Kept (some agentId) contents) (score : Int) :
    Kept (some agentId)
      (contents.withSet .agents ((contents.sets .agents).insert agentId score)) := by
  refine ⟨⟨fun id member => ?_, kept.registry.named⟩, kept.stored⟩
  rw [Database.Contents.sets_withSet_self, SortedSet.mem_members_insert] at member
  rcases member with rfl | listed
  · exact kept.stored id rfl
  · exact kept.registry.stored id listed

/-- Every allowed command keeps the registry in order. -/
theorem Kept.perform (kept : Kept known contents) {command : AgentCommand}
    (allows : Allows known command) (input : Database.Input AgentAnswer MnemoError) :
    Expects command (Database.exec command input contents).1 ∧
      Kept (knownAfter known command (Database.exec command input contents).1)
        (Database.exec command input contents).2 := by
  cases replied : (Database.exec command input contents).1 with
  | error error =>
    rw [Database.exec_of_error replied]
    have unknown : knownAfter known command (.error error) = known := by
      unfold knownAfter
      split <;> first | rfl | contradiction
    rw [unknown]
    refine ⟨?_, kept⟩
    unfold Expects
    split <;> trivial
  | ok value =>
    have effect := Database.exec_of_ok replied
    have reply := replied
    rw [effect] at reply
    rw [effect]
    cases command with
    | get key =>
      obtain rfl := Except.ok.inj reply
      cases key with
      | identity agentId =>
        refine ⟨fun profile => kept.registry.named agentId profile, ?_⟩
        show Kept (if (contents.docs (.identity agentId)).isSome then some agentId
          else known) contents
        split
        · rename_i some
          refine ⟨kept.registry, fun id same => ?_⟩
          obtain rfl := Option.some.inj same
          exact Option.isSome_iff_ne_none.mp some
        · exact kept
      | _ => exact ⟨trivial, kept⟩
    | set key doc =>
      cases key with
      | identity agentId => exact ⟨trivial, kept.put allows⟩
      | _ =>
        refine ⟨trivial, kept.shrink (fun id => ?_) fun _ member => member⟩
        exact Database.Contents.docs_put_of_ne _ (by simp) _
    | del key =>
      cases key with
      | identity agentId => exact allows.elim
      | _ =>
        refine ⟨trivial, kept.shrink (fun id => ?_) fun _ member => member⟩
        exact Database.Contents.docs_remove_of_ne _ (by simp)
    | zadd index member score =>
      by_cases agents : index = .agents
      · subst agents
        obtain rfl : known = some member := allows
        exact ⟨trivial, kept.enter score⟩
      · refine ⟨trivial, kept.shrink (fun _ => rfl) fun id => ?_⟩
        rw [Database.perform, Database.Contents.sets_withSet_of_ne _ (Ne.symm agents)]
        exact fun member => member
    | zrem index member =>
      refine ⟨trivial, kept.shrink (fun _ => rfl) fun id => ?_⟩
      by_cases agents : index = .agents
      · subst agents
        rw [Database.perform, Database.Contents.sets_withSet_self,
          SortedSet.mem_members_erase]
        exact And.right
      · rw [Database.perform, Database.Contents.sets_withSet_of_ne _ (Ne.symm agents)]
        exact fun member => member
    | zdel index =>
      refine ⟨trivial, kept.shrink (fun _ => rfl) fun id => ?_⟩
      by_cases agents : index = .agents
      · subst agents
        rw [Database.perform, Database.Contents.sets_withSet_self, SortedSet.members_empty]
        exact fun member => by cases member
      · rw [Database.perform, Database.Contents.sets_withSet_of_ne _ (Ne.symm agents)]
        exact fun member => member
    | freshId => exact ⟨trivial, kept.shrink (fun _ => rfl) fun _ member => member⟩
    | service call => exact call.elim
    | _ => exact ⟨trivial, kept⟩

theorem registry_historyStep (contents : AgentContents)
    (call : IdentityCall × (Nat → Database.Input AgentAnswer MnemoError))
    (registry : Registry contents) : Registry (historyStep sha256Hex contents call) := by
  have follows : registryProtocol.Follows (fun _ _ => True) none (call.1.handle sha256Hex) :=
    follows_handle call.1
  have ensures : Ensures Database.exec (fun _ : Database.Input AgentAnswer MnemoError => True)
      (fun _ _ => True) (fun _ final => ∃ last, True ∧ Kept last final) (call.1.handle sha256Hex)
      contents := by
    apply follows.ensures ?_ ?_ ⟨registry, nofun⟩
    · intro known command input contents allows kept _
      exact Kept.perform kept allows input
    · exact fun _ _ _ _ _ => trivial
  obtain ⟨last, _, kept⟩ := ensures.eval fun _ => trivial
  exact kept.registry

theorem registry_noAgents : Registry noAgents := ⟨nofun, nofun⟩

theorem registry_history
    (history : List (IdentityCall × (Nat → Database.Input AgentAnswer MnemoError))) :
    Registry (StateMachine.finish (historyStep sha256Hex) noAgents history) :=
  StateMachine.finish_induction registry_historyStep registry_noAgents history

end Histories

/-- Two agents are registered in the same millisecond. -/
def sameMoment : List (IdentityCall × (Nat → Database.Input AgentAnswer MnemoError)) :=
  [(.register "ada" none, fun _ => untroubled 1 0), (.register "bob" none, fun _ => untroubled 2 0)]

end Listing
end Agent
end Mnemo
