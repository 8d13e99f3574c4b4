import Mnemo.Lib.StateMachine
import Mnemo.Region.Routes

/-!
# Calls of the region routes

What a call makes of the contents of the database, what a listing shows, and when a revocation takes
effect.
-/

namespace Mnemo
namespace Region

open Auth (CallerContext)
open Database (answer Leaves Outcome Reads)
open Program (Ensures)

/-! ## Runs -/

/-- A call of one of the region routes. -/
inductive RegionCall where
  | create (caller : CallerContext) (req : CreateRegionRequest)
  | list (caller : CallerContext) (userId : Option Uuid) (agentId : Option String)
  | update (caller : CallerContext) (id : Uuid) (req : UpdateRegionRequest)
  | delete (caller : CallerContext) (id : Uuid)
  | grant (caller : CallerContext) (id : Uuid) (req : GrantRegionAccessRequest)
  | revoke (caller : CallerContext) (id : Uuid) (agentId : String)

/-- One call, with what the environment decides at its requests. -/
def regionStep (contents : RegionContents) : RegionCall × (Nat → RegionInput) → RegionContents
  | (.create caller req, inputs) =>
      (Program.eval answer (Routes.createRegion caller req) inputs contents).2
  | (.list caller userId agentId, inputs) =>
      (Program.eval answer (Routes.listRegions caller userId agentId) inputs contents).2
  | (.update caller id req, inputs) =>
      (Program.eval answer (Routes.updateRegion caller id req) inputs contents).2
  | (.delete caller id, inputs) =>
      (Program.eval answer (Routes.deleteRegion caller id) inputs contents).2
  | (.grant caller id req, inputs) =>
      (Program.eval answer (Routes.grantRegionAccess caller id req) inputs contents).2
  | (.revoke caller id agentId, inputs) =>
      (Program.eval answer (Routes.revokeRegionAccess caller id agentId) inputs contents).2

/-- The users, before there are regions. -/
def noRegions (users : Uuid → Option Users.User) : RegionContents :=
  { docs := fun key =>
      match key with
      | .user id => users id
      | .region _ => none
      | .aclEntry _ _ => none
    sets := fun _ => .empty
    issued := [] }

/-- The region exists, and the agent owns it or has a grant that has not expired. -/
def Accessible (contents : RegionContents) (agentId : String) (now : DateTime)
    (region : MemoryRegion) : Prop :=
  contents.docs (.region region.id) = some region ∧
    (region.ownerAgentId = agentId ∨
      ∃ acl, contents.docs (.aclEntry region.id agentId) = some acl ∧ acl.expiredAt now = false)

/-- The store does not fail, and the clock reads times of an interval. -/
def Within (start stop : DateTime) (input : RegionInput) : Prop :=
  input.failure = none ∧ start ≤ input.now ∧ input.now ≤ stop

/-- Every agent is shown the regions to which it has access at the time of the listing: those still
accessible when the listing ends, and none but those accessible when it begins. -/
def ListsAccessible (contents : RegionContents) : Prop :=
  ∀ agentId start stop inputs, start ≤ stop → (∀ position, Within start stop (inputs position)) →
    ∃ regions,
      (Program.eval answer (listAgentAccessibleRegions agentId) inputs contents).1 = .ok regions ∧
      ∀ region,
        (Accessible contents agentId stop region → region ∈ regions) ∧
        (region ∈ regions → Accessible contents agentId start region)

/-- A revocation takes effect: the region exists, the caller may change it, and the store fails
neither to read the region nor to withdraw the grant. -/
structure TakesEffect (contents : RegionContents) (caller : CallerContext) (id : Uuid)
    (inputs : Nat → RegionInput) (region : MemoryRegion) : Prop where
  stored : contents.docs (.region id) = some region
  role : caller.role.hasAtLeast .write = true
  admitted : mayChange caller region = true
  read : (inputs 0).failure = none
  written : (inputs 1).failure = none

/-- The call is not a revocation that takes effect on the access of the owner of the region. -/
def KeepsOwner (contents : RegionContents) : RegionCall × (Nat → RegionInput) → Prop
  | (.revoke caller id agentId, inputs) =>
      ∀ region, TakesEffect contents caller id inputs region → region.ownerAgentId ≠ agentId
  | _ => True

/-! ## What a call does -/

/-- What a call that revokes nothing makes of the contents. -/
inductive Change (contents : RegionContents) : RegionContents → Prop
  | unchanged : Change contents contents
  | drawn (id : Uuid) : Change contents (contents.draw id)
  | created (region : MemoryRegion) (fresh : region.id ∉ contents.issued) :
      Change contents ((contents.draw region.id).writeAll (creationWrites region))
  | updated (id : Uuid) (old new : MemoryRegion) (stored : contents.docs (.region id) = some old)
      (same : new.id = old.id) (owner : new.ownerAgentId = old.ownerAgentId) :
      Change contents (contents.writeAll [.set (.region new.id) new])
  | deleted (id : Uuid) (region : MemoryRegion) (stored : contents.docs (.region id) = some region)
      (agents : List String) : Change contents (contents.writeAll (deletionWrites region id agents))
  | granted (region : MemoryRegion) (acl : MemoryRegionAcl)
      (stored : contents.docs (.region acl.regionId) = some region)
      (other : acl.agentId ≠ region.ownerAgentId) :
      Change contents (contents.writeAll (grantWrites acl))
  | cleaned (agentId : String) (expired : List Uuid) (made : Nat)
      (entries : ∀ id ∈ expired, ∃ acl, contents.docs (.aclEntry id agentId) = some acl) :
      Change contents
        (contents.writeAll ((expired.flatMap (withdrawalWrites agentId)).take made))

section Calls

variable {contents : RegionContents} {α β : Type}

/-- The program changes the contents in one of the ways. -/
abbrev Changes (contents : RegionContents) (program : RegionProgram α) : Prop :=
  Leaves (fun _ => True) (fun _ final => Change contents final) program contents

theorem covers_unchanged :
    Database.Covers (fun _ => True)
      (fun (_ : Except MnemoError α) final => Change contents final) contents :=
  fun _ _ _ _ => .unchanged

theorem bind_checked {label : String} {check : Except String Unit}
    {next : Unit → RegionProgram β} (rest : Changes contents (next ())) :
    Changes contents (Routes.checked label check >>= next) :=
  Leaves.bind_ofExcept (fun _ _ => rest) fun _ => .unchanged

theorem leaves_requireRegion (id : Uuid) :
    Leaves (fun _ => True) (fun outcome final => final = contents ∧
      ∀ region, outcome = .ok region → contents.docs (.region id) = some region)
      (Routes.requireRegion id) contents := by
  refine Leaves.bind_get ?_ fun _ _ _ _ => ⟨rfl, fun _ impossible => nomatch impossible⟩
  cases stored : contents.docs (.region id) with
  | none => exact .fail ⟨rfl, fun _ impossible => nomatch impossible⟩
  | some region => exact .done ⟨rfl, fun _ same => congrArg some (Except.ok.inj same)⟩

theorem bind_requireRegion {id : Uuid} {next : MemoryRegion → RegionProgram β}
    (rest : ∀ region, contents.docs (.region id) = some region → Changes contents (next region)) :
    Changes contents (Routes.requireRegion id >>= next) := by
  refine Ensures.bind (leaves_requireRegion id) ?_ ?_
  · rintro region _ ⟨rfl, stored⟩
    exact rest region (stored region rfl)
  · rintro _ _ ⟨rfl, _⟩
    exact .unchanged

theorem bind_requireChange {caller : CallerContext} {region : MemoryRegion}
    {next : Unit → RegionProgram β} (rest : Changes contents (next ())) :
    Changes contents (Routes.requireChange caller region >>= next) := by
  unfold Routes.requireChange
  split
  · exact rest
  · exact .fail .unchanged

theorem leaves_requireUser (id : Uuid) :
    Leaves (fun _ => True) (fun _ final => final = contents) (Routes.requireUser id) contents := by
  refine Ensures.perform trivial fun input _ => ?_
  cases failing : input.failure with
  | none =>
    simp only [answer, failing]
    cases contents.docs (.user id) with
    | none => exact .fail rfl
    | some user => exact .done rfl
  | some error =>
    simp only [answer, failing]
    exact .fail rfl

theorem changes_createRegion (caller : CallerContext) (req : CreateRegionRequest) :
    Changes contents (Routes.createRegion caller req) := by
  refine Leaves.bind_ofExcept (fun _ _ => ?_) fun _ => .unchanged
  apply bind_checked
  apply bind_checked
  refine Ensures.bind (leaves_requireUser req.userId) ?_ ?_
  · rintro _ _ rfl
    refine Leaves.bind_freshId fun id fresh => ?_
    refine Leaves.bind_clock fun first _ => Leaves.bind_clock fun second _ => ?_
    exact Leaves.bind_transaction (.done (.created _ fresh)) fun _ _ _ _ => .drawn id
  · rintro _ _ rfl
    exact .unchanged

theorem leaves_renamed (region : MemoryRegion) (name : Option String) :
    Leaves (fun _ => True) (fun outcome final => final = contents ∧ ∀ new, outcome = .ok new →
      new.id = region.id ∧ new.ownerAgentId = region.ownerAgentId)
      (Routes.renamed region name) contents := by
  cases name with
  | none =>
    refine .done ⟨rfl, fun new same => ?_⟩
    rw [← Except.ok.inj same]
    exact ⟨rfl, rfl⟩
  | some name =>
    refine Leaves.bind_ofExcept (fun _ _ => .done ⟨rfl, fun new same => ?_⟩)
      fun _ => ⟨rfl, fun _ impossible => nomatch impossible⟩
    rw [← Except.ok.inj same]
    exact ⟨rfl, rfl⟩

theorem changes_updateRegion (caller : CallerContext) (id : Uuid) (req : UpdateRegionRequest) :
    Changes contents (Routes.updateRegion caller id req) := by
  refine Leaves.bind_ofExcept (fun _ _ => ?_) fun _ => .unchanged
  refine bind_requireRegion fun region stored => bind_requireChange ?_
  refine Ensures.bind (leaves_renamed region req.name) ?_ ?_
  · rintro new _ ⟨rfl, same⟩
    obtain ⟨identifier, owner⟩ := same new rfl
    refine Leaves.bind_clock fun input _ => ?_
    refine Leaves.bind_transaction (.done ?_) covers_unchanged
    apply Change.updated id region _ stored
    · split <;> exact identifier
    · split <;> exact owner
  · rintro _ _ ⟨rfl, _⟩
    exact .unchanged

theorem changes_deleteRegion (caller : CallerContext) (id : Uuid) :
    Changes contents (Routes.deleteRegion caller id) := by
  refine Leaves.bind_ofExcept (fun _ _ => ?_) fun _ => .unchanged
  refine bind_requireRegion fun _ _ => Leaves.bind_get ?_ covers_unchanged
  cases stored : contents.docs (.region id) with
  | none => exact .done .unchanged
  | some region =>
    refine Leaves.bind_members ?_ covers_unchanged
    exact Leaves.transaction (.deleted id region stored _) covers_unchanged

theorem changes_grantRegionAccess (caller : CallerContext) (id : Uuid)
    (req : GrantRegionAccessRequest) :
    Changes contents (Routes.grantRegionAccess caller id req) := by
  refine Leaves.bind_ofExcept (fun _ _ => ?_) fun _ => .unchanged
  apply bind_checked
  refine bind_requireRegion fun region stored => bind_requireChange ?_
  split
  · exact .fail .unchanged
  · rename_i other
    refine Leaves.bind_clock fun input _ => ?_
    exact Leaves.bind_transaction (.done (.granted region _ stored other)) covers_unchanged

end Calls

/-! ## What a listing tells -/

/-- What the readings of the clock tell of grants that are found running, and of those found
expired. -/
structure Readings (allowed : RegionInput → Prop) (running ended : MemoryRegionAcl → Prop) :
    Prop where
  foundRunning : ∀ (acl : MemoryRegionAcl) input, allowed input →
    acl.expiredAt input.now = false → running acl
  foundEnded : ∀ (acl : MemoryRegionAcl) input, allowed input →
    acl.expiredAt input.now = true → ended acl
  lasting : ∀ acl : MemoryRegionAcl, acl.expiresAt = none → running acl

section Listing

variable (contents : RegionContents) (running ended : MemoryRegionAcl → Prop) (agentId : String)

/-- The region under the identifier has been found as it is. -/
def Judged (id : Uuid) : Standing → Prop
  | .accessible region =>
      contents.docs (.region id) = some region ∧ (region.ownerAgentId = agentId ∨
        ∃ acl, contents.docs (.aclEntry id agentId) = some acl ∧ running acl)
  | .expired => ∃ acl, contents.docs (.aclEntry id agentId) = some acl ∧ ended acl
  | .other => ∀ region, contents.docs (.region id) = some region →
      region.ownerAgentId ≠ agentId ∧ contents.docs (.aclEntry id agentId) = none

/-- Every region under one of the identifiers has been found as it is. -/
structure Sieved (ids : List Uuid) (regions : List MemoryRegion) (expired : List Uuid) :
    Prop where
  accessible : ∀ region ∈ regions, ∃ id ∈ ids,
    Judged contents running ended agentId id (.accessible region)
  withdrawn : ∀ id ∈ expired, Judged contents running ended agentId id .expired
  complete : ∀ id ∈ ids,
    (∃ region ∈ regions, Judged contents running ended agentId id (.accessible region)) ∨
      Judged contents running ended agentId id .expired ∨
      Judged contents running ended agentId id .other

variable {contents running ended agentId} {allowed : RegionInput → Prop}
  (readings : Readings allowed running ended)

include readings in
theorem reads_isExpired (acl : MemoryRegionAcl) :
    Reads allowed (fun expired => if expired = true then ended acl else running acl)
      (isExpired acl) contents := by
  unfold isExpired
  cases expires : acl.expiresAt with
  | none => exact Reads.done (readings.lasting acl expires)
  | some expiry =>
    refine Leaves.bind_clock fun input admissible => Reads.done ?_
    rcases Decidable.em (expiry ≤ input.now) with past | future
    · simp only [past, decide_true, if_true]
      exact readings.foundEnded acl input admissible (by simp [MemoryRegionAcl.expiredAt, *])
    · simp only [future, decide_false, Bool.false_eq_true, if_false]
      exact readings.foundRunning acl input admissible (by simp [MemoryRegionAcl.expiredAt, *])

include readings in
theorem reads_standing (id : Uuid) :
    Reads allowed (Judged contents running ended agentId id) (standing agentId id) contents := by
  refine Leaves.bind_get ?_ Reads.covers
  cases granted : contents.docs (.aclEntry id agentId) with
  | some acl =>
    refine Reads.bind (reads_isExpired readings acl) fun expired found => ?_
    cases expired with
    | true => exact Reads.done ⟨acl, granted, by simpa using found⟩
    | false =>
      refine Leaves.bind_get ?_ Reads.covers
      cases stored : contents.docs (.region id) with
      | some region =>
        exact Reads.done ⟨stored, .inr ⟨acl, granted, by simpa using found⟩⟩
      | none => exact Reads.done fun region exists_ => by simp [stored] at exists_
  | none =>
    refine Leaves.bind_get ?_ Reads.covers
    cases stored : contents.docs (.region id) with
    | some region =>
      rcases Decidable.em (region.ownerAgentId = agentId) with owner | other
      · simp only [owner, if_true]
        exact Reads.done ⟨stored, .inl owner⟩
      · simp only [other, if_false]
        refine Reads.done fun found same => ?_
        obtain rfl := Option.some.inj (stored.symm.trans same)
        exact ⟨other, granted⟩
    | none => exact Reads.done fun region found => by simp [stored] at found

theorem Sieved.nil : Sieved contents running ended agentId [] [] [] :=
  ⟨(fun _ listed => nomatch listed), (fun _ listed => nomatch listed),
    (fun _ listed => nomatch listed)⟩

theorem Sieved.cons_accessible {ids expired : List Uuid} {regions : List MemoryRegion} {id : Uuid}
    {region : MemoryRegion} (sieved : Sieved contents running ended agentId ids regions expired)
    (judged : Judged contents running ended agentId id (.accessible region)) :
    Sieved contents running ended agentId (id :: ids) (region :: regions) expired where
  accessible := by
    refine List.forall_mem_cons.mpr ⟨⟨id, List.mem_cons_self, judged⟩, fun found listed => ?_⟩
    obtain ⟨other, member, also⟩ := sieved.accessible found listed
    exact ⟨other, List.mem_cons_of_mem id member, also⟩
  withdrawn := sieved.withdrawn
  complete := by
    refine List.forall_mem_cons.mpr ⟨.inl ⟨region, List.mem_cons_self, judged⟩, ?_⟩
    intro other listed
    rcases sieved.complete other listed with ⟨found, member, also⟩ | rest
    · exact .inl ⟨found, List.mem_cons_of_mem _ member, also⟩
    · exact .inr rest

theorem Sieved.cons_other {ids expired : List Uuid} {regions : List MemoryRegion} {id : Uuid}
    (sieved : Sieved contents running ended agentId ids regions expired)
    (judged : Judged contents running ended agentId id .other) :
    Sieved contents running ended agentId (id :: ids) regions expired where
  accessible region listed := by
    obtain ⟨other, member, also⟩ := sieved.accessible region listed
    exact ⟨other, List.mem_cons_of_mem id member, also⟩
  withdrawn := sieved.withdrawn
  complete := List.forall_mem_cons.mpr ⟨.inr (.inr judged), sieved.complete⟩

theorem Sieved.cons_expired {ids expired : List Uuid} {regions : List MemoryRegion} {id : Uuid}
    (sieved : Sieved contents running ended agentId ids regions expired)
    (judged : Judged contents running ended agentId id .expired) :
    Sieved contents running ended agentId (id :: ids) regions (id :: expired) where
  accessible region listed := by
    obtain ⟨other, member, also⟩ := sieved.accessible region listed
    exact ⟨other, List.mem_cons_of_mem id member, also⟩
  withdrawn := List.forall_mem_cons.mpr ⟨judged, sieved.withdrawn⟩
  complete := List.forall_mem_cons.mpr ⟨.inr (.inl judged), sieved.complete⟩

include readings in
theorem reads_standings (ids : List Uuid) :
    Reads allowed (fun found => Sieved contents running ended agentId ids found.1 found.2)
      (standings agentId ids) contents := by
  induction ids with
  | nil => exact Reads.done Sieved.nil
  | cons id ids ih =>
    refine Reads.bind (reads_standing readings id) fun found judged => ?_
    refine Reads.bind ih fun rest sieved => ?_
    cases found with
    | accessible region => exact Reads.done (sieved.cons_accessible judged)
    | expired => exact Reads.done (sieved.cons_expired judged)
    | other => exact Reads.done (sieved.cons_other judged)

variable (contents agentId) in
include readings in
theorem leaves_listAgentAccessibleRegions :
    Leaves allowed (fun outcome final =>
      (∃ (expired : List Uuid) (made : Nat),
        (∀ id ∈ expired, Judged contents running ended agentId id .expired) ∧
        final = contents.writeAll ((expired.flatMap (withdrawalWrites agentId)).take made)) ∧
      Outcome allowed (fun regions => ∃ expired, Sieved contents running ended agentId
        (regionsOf (contents.sets (.agentRegions agentId)).members) regions expired) outcome)
      (listAgentAccessibleRegions agentId) contents := by
  have nothing : ∃ (expired : List Uuid) (made : Nat),
      (∀ id ∈ expired, Judged contents running ended agentId id .expired) ∧
      contents = contents.writeAll ((expired.flatMap (withdrawalWrites agentId)).take made) :=
    ⟨[], 0, (fun _ listed => nomatch listed), rfl⟩
  refine Leaves.bind_members ?_ fun input _ admissible failing =>
    ⟨nothing, input, admissible, by simp [failing]⟩
  refine Leaves.bind_reads (reads_standings readings _) (fun found sieved => ?_)
    fun _ faulty => ⟨nothing, faulty⟩
  obtain ⟨regions, expired⟩ := found
  by_cases none_expired : expired.isEmpty = true
  · simp only [none_expired, if_true]
    exact .done ⟨nothing, expired, sieved⟩
  · simp only [none_expired]
    refine Ensures.perform trivial fun input admissible => ?_
    cases failing : input.failure with
    | none =>
      simp only [answer, failing]
      refine .done ⟨⟨expired, (expired.flatMap (withdrawalWrites agentId)).length,
        sieved.withdrawn, ?_⟩, expired, sieved⟩
      rw [List.take_length]
    | some error =>
      simp only [answer, failing]
      exact .done ⟨⟨expired, input.made, sieved.withdrawn, rfl⟩, expired, sieved⟩

end Listing

theorem readings_any : Readings (fun _ => True) (fun _ => True) (fun _ => True) :=
  ⟨fun _ _ _ _ => trivial, fun _ _ _ _ => trivial, fun _ _ => trivial⟩

theorem readings_within (start stop : DateTime) :
    Readings (Within start stop) (fun acl => acl.expiredAt start = false)
      (fun acl => acl.expiredAt stop = true) where
  foundRunning acl input within running := by
    obtain ⟨_, from_start, _⟩ := within
    revert running
    cases expires : acl.expiresAt with
    | none => simp [MemoryRegionAcl.expiredAt, expires]
    | some expiry =>
      simp only [MemoryRegionAcl.expiredAt, expires, decide_eq_false_iff_not, not_le]
      exact fun later => lt_of_le_of_lt from_start later
  foundEnded acl input within ended := by
    obtain ⟨_, _, to_stop⟩ := within
    revert ended
    cases expires : acl.expiresAt with
    | none => simp [MemoryRegionAcl.expiredAt, expires]
    | some expiry =>
      simp only [MemoryRegionAcl.expiredAt, expires, decide_eq_true_eq]
      exact fun earlier => le_trans earlier to_stop
  lasting acl lasting := by simp [MemoryRegionAcl.expiredAt, lasting]

theorem reads_getRegions {contents : RegionContents} (ids : List Uuid) :
    Reads (fun _ => True) (fun _ => True) (getRegions ids) contents := by
  induction ids with
  | nil => exact Reads.done trivial
  | cons id ids ih =>
    exact Leaves.bind_get (Reads.bind ih fun _ _ => Reads.done trivial) Reads.covers

theorem changes_listRegions {contents : RegionContents} (caller : CallerContext)
    (userId : Option Uuid) (agentId : Option String) :
    Changes contents (Routes.listRegions caller userId agentId) := by
  refine Leaves.bind_ofExcept (fun _ _ => ?_) fun _ => .unchanged
  cases agentId with
  | none =>
    refine Leaves.bind_members ?_ covers_unchanged
    refine Ensures.mono (reads_getRegions _) fun _ final reads => ?_
    rw [reads.1]
    exact .unchanged
  | some agentId =>
    refine Ensures.bind (leaves_listAgentAccessibleRegions contents agentId readings_any) ?_ ?_
    · rintro regions _ ⟨⟨expired, made, entries, rfl⟩, _⟩
      refine .done (.cleaned agentId expired made fun id listed => ?_)
      obtain ⟨acl, granted, _⟩ := entries id listed
      exact ⟨acl, granted⟩
    · rintro error _ ⟨⟨expired, made, entries, rfl⟩, _⟩
      refine .cleaned agentId expired made fun id listed => ?_
      obtain ⟨acl, granted, _⟩ := entries id listed
      exact ⟨acl, granted⟩

section Revocation

variable {contents : RegionContents} {inputs : Nat → RegionInput} {α : Type}

theorem eval_get {key : RegionKey}
    {next : Except MnemoError (Option (RegionDoc key)) → RegionProgram α}
    (succeeds : (inputs 0).failure = none) :
    (Program.eval answer (.perform (.get key) next) inputs contents).2 =
      (Program.eval answer (next (.ok (contents.docs key)))
        (fun position => inputs (position + 1)) contents).2 := by
  simp only [Program.eval, answer, succeeds]
  rfl

theorem eval_get_failure {key : RegionKey}
    {next : Except MnemoError (Option (RegionDoc key)) → RegionProgram α} {error : MnemoError}
    (fails : (inputs 0).failure = some error) :
    (Program.eval answer (.perform (.get key) next) inputs contents).2 =
      (Program.eval answer (next (.error error))
        (fun position => inputs (position + 1)) contents).2 := by
  simp only [Program.eval, answer, fails]
  rfl

theorem eval_revokeRegionAccess (id : Uuid) (agentId : String) (inputs : Nat → RegionInput) :
    (Program.eval answer (revokeRegionAccess id agentId) inputs contents).2 =
      if (inputs 0).failure = none then contents.writeAll (withdrawalWrites agentId id)
      else contents := by
  simp only [revokeRegionAccess, Redis.transaction, Program.call, Program.eval, answer]
  cases failing : (inputs 0).failure with
  | none => simp [Program.eval, Program.ofExcept]
  | some error => simp [Program.eval, Program.ofExcept]

theorem eval_revoke_route {caller : CallerContext} {id : Uuid} {region : MemoryRegion}
    (agentId : String) (role : caller.role.hasAtLeast .write = true)
    (read : (inputs 0).failure = none) (stored : contents.docs (.region id) = some region) :
    (Program.eval answer (Routes.revokeRegionAccess caller id agentId) inputs contents).2 =
      (Program.eval answer
        (Routes.requireChange caller region >>= fun _ => revokeRegionAccess id agentId)
        (fun position => inputs (position + 1)) contents).2 := by
  rw [Routes.revokeRegionAccess, CallerContext.requireRole, if_pos role]
  exact (eval_get read).trans (by rw [stored]; rfl)

theorem step_revoke (contents : RegionContents) (caller : CallerContext) (id : Uuid)
    (agentId : String) (inputs : Nat → RegionInput) :
    (regionStep contents (.revoke caller id agentId, inputs) = contents ∧
      ∀ region, ¬ TakesEffect contents caller id inputs region) ∨
    (regionStep contents (.revoke caller id agentId, inputs) =
        contents.writeAll (withdrawalWrites agentId id) ∧
      ∃ region, TakesEffect contents caller id inputs region) := by
  simp only [regionStep]
  by_cases role : caller.role.hasAtLeast .write = true
  · cases read : (inputs 0).failure with
    | some error =>
      refine .inl ⟨?_, fun region effect => by simp [effect.read] at read⟩
      rw [Routes.revokeRegionAccess, CallerContext.requireRole, if_pos role]
      exact eval_get_failure read
    | none =>
      cases stored : contents.docs (.region id) with
      | none =>
        refine .inl ⟨?_, fun region effect => by simp [effect.stored] at stored⟩
        rw [Routes.revokeRegionAccess, CallerContext.requireRole, if_pos role]
        exact (eval_get read).trans (by rw [stored]; rfl)
      | some region =>
        have only {other : MemoryRegion} (effect : TakesEffect contents caller id inputs other) :
            other = region := Option.some.inj (effect.stored.symm.trans stored)
        rw [eval_revoke_route agentId role read stored, Routes.requireChange]
        by_cases admitted : mayChange caller region = true
        · rw [if_pos admitted, Program.done_bind, eval_revokeRegionAccess]
          by_cases written : (inputs 1).failure = none
          · exact .inr ⟨if_pos written, region, stored, role, admitted, read, written⟩
          · exact .inl ⟨if_neg written, fun other effect => written effect.written⟩
        · rw [if_neg admitted]
          refine .inl ⟨rfl, fun other effect => admitted ?_⟩
          rw [← only effect]
          exact effect.admitted
  · refine .inl ⟨?_, fun region effect => role effect.role⟩
    rw [Routes.revokeRegionAccess, CallerContext.requireRole, if_neg role]
    rfl

end Revocation

theorem change_step (contents : RegionContents) (call : RegionCall) (inputs : Nat → RegionInput)
    (keeps : ∀ caller id agentId, call ≠ .revoke caller id agentId) :
    Change contents (regionStep contents (call, inputs)) := by
  have all : ∀ position : Nat, True := fun _ => trivial
  cases call with
  | create caller req => exact (changes_createRegion caller req).eval all
  | list caller userId agentId => exact (changes_listRegions caller userId agentId).eval all
  | update caller id req => exact (changes_updateRegion caller id req).eval all
  | delete caller id => exact (changes_deleteRegion caller id).eval all
  | grant caller id req => exact (changes_grantRegionAccess caller id req).eval all
  | revoke caller id agentId => exact absurd rfl (keeps caller id agentId)

end Region
end Mnemo
