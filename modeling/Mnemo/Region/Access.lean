import Mnemo.Region.Calls

/-!
# Which regions an agent is shown

Ownership and grants share one list for each agent.  Every call keeps the list as wide as the regions
that the agent owns and was granted, except one: revoking the access of the owner takes the region
from the owner's own list.
-/

namespace Mnemo
namespace Region

open Auth (CallerContext)
open Database (answer Leaves Outcome Reads)

/-! ## What calls keep -/

/-- Identifiers of regions are never used again, and no owner holds a grant. -/
structure Kept (contents : RegionContents) : Prop where
  named : ∀ id (region : MemoryRegion), contents.docs (.region id) = some region → region.id = id
  drawn : ∀ id (region : MemoryRegion), contents.docs (.region id) = some region →
    id ∈ contents.issued
  grantDrawn : ∀ id agentId (acl : MemoryRegionAcl),
    contents.docs (.aclEntry id agentId) = some acl → id ∈ contents.issued
  ungranted : ∀ id (region : MemoryRegion), contents.docs (.region id) = some region →
    contents.docs (.aclEntry id region.ownerAgentId) = none

/-- The region is in the list of the agent. -/
def Listed (contents : RegionContents) (agentId : String) (id : Uuid) : Prop :=
  regionMember id ∈ (contents.sets (.agentRegions agentId)).members

/-- Existing regions are in the lists of their owners and of the agents that were granted access. -/
structure Complete (contents : RegionContents) : Prop where
  owned : ∀ id (region : MemoryRegion), contents.docs (.region id) = some region →
    Listed contents region.ownerAgentId id
  granted : ∀ id (region : MemoryRegion) agentId (acl : MemoryRegionAcl),
    contents.docs (.region id) = some region →
    contents.docs (.aclEntry id agentId) = some acl → Listed contents agentId id

section Writes

variable {contents before middle after : RegionContents}

/-- Nothing but grants to the agent, and regions in its list, has gone; a grant that is left is
listed as before. -/
structure Trims (agentId : String) (ids : List Uuid) (before after : RegionContents) : Prop where
  regions : ∀ id, after.docs (.region id) = before.docs (.region id)
  issued : after.issued = before.issued
  grants : ∀ id other acl, after.docs (.aclEntry id other) = some acl →
    before.docs (.aclEntry id other) = some acl ∧
      (Listed before other id → Listed after other id)
  elsewhere : ∀ id other, other ≠ agentId ∨ id ∉ ids → Listed before other id →
    Listed after other id

theorem Trims.refl (agentId : String) (ids : List Uuid) : Trims agentId ids contents contents :=
  ⟨fun _ => rfl, rfl, fun _ _ _ granted => ⟨granted, id⟩, fun _ _ _ => id⟩

theorem Trims.trans {agentId : String} {ids : List Uuid} (first : Trims agentId ids before middle)
    (second : Trims agentId ids middle after) : Trims agentId ids before after where
  regions id := (second.regions id).trans (first.regions id)
  issued := second.issued.trans first.issued
  grants id other acl granted := by
    obtain ⟨grantedMiddle, listedMiddle⟩ := second.grants id other acl granted
    obtain ⟨grantedBefore, listedBefore⟩ := first.grants id other acl grantedMiddle
    exact ⟨grantedBefore, fun listed => listedMiddle (listedBefore listed)⟩
  elsewhere id other off listed :=
    second.elsewhere id other off (first.elsewhere id other off listed)

theorem withdrawalWrites_off_region (agentId : String) (id other : Uuid) :
    ∀ write ∈ withdrawalWrites agentId id, ¬ write.OnDoc (.region other) := by
  simp [withdrawalWrites, Database.Write.OnDoc]

theorem withdrawalWrites_off_grant {agentId other : String} {id region : Uuid}
    (different : ¬ (region = id ∧ other = agentId)) :
    ∀ write ∈ withdrawalWrites agentId id, ¬ write.OnDoc (.aclEntry region other) := by
  simp only [withdrawalWrites, Database.Write.OnDoc, List.mem_cons, List.not_mem_nil, or_false,
    forall_eq_or_imp, forall_eq, RegionKey.aclEntry.injEq]
  exact ⟨fun same => different ⟨same.1.symm, same.2.symm⟩, not_false, not_false⟩

theorem withdrawalWrites_off_list {agentId other : String} {id region : Uuid}
    (different : ¬ (region = id ∧ other = agentId)) :
    ∀ write ∈ withdrawalWrites agentId id,
      ¬ write.OnMember (.agentRegions other) (regionMember region) := by
  simp only [withdrawalWrites, Database.Write.OnMember, List.mem_cons, List.not_mem_nil, or_false,
    forall_eq_or_imp, forall_eq, reduceCtorEq, false_and, RegionIndex.agentRegions.injEq]
  refine ⟨not_false, not_false, fun same => different ⟨?_, same.1.symm⟩⟩
  exact Sum.inl_injective (toLex.injective same.2.symm)

theorem trims_withdrawal {agentId : String} {ids : List Uuid} {id : Uuid} (member : id ∈ ids)
    (made : Nat) :
    Trims agentId ids contents
      (contents.writeAll ((withdrawalWrites agentId id).take made)) where
  regions other := Database.Contents.docs_writeAll_of_off fun write taken =>
    withdrawalWrites_off_region agentId id other write (List.mem_of_mem_take taken)
  issued := Database.Contents.issued_writeAll _
  elsewhere region other off := by
    have different : ¬ (region = id ∧ other = agentId) := by
      rintro ⟨rfl, rfl⟩
      rcases off with other | missing
      · exact other rfl
      · exact missing member
    exact (Database.Contents.mem_writeAll_of_off fun write taken =>
      withdrawalWrites_off_list different write (List.mem_of_mem_take taken)).mpr
  grants region other acl granted := by
    by_cases same : region = id ∧ other = agentId
    · obtain ⟨rfl, rfl⟩ := same
      cases made with
      | zero => exact ⟨granted, fun listed => listed⟩
      | succ made =>
        have gone : (contents.writeAll ((withdrawalWrites other region).take (made + 1))).docs
            (.aclEntry region other) = none := by
          rw [withdrawalWrites, List.take_succ_cons]
          apply Database.Contents.docs_writeAll_del
          intro write taken
          have rest := List.mem_of_mem_take taken
          simp only [List.mem_cons, List.not_mem_nil, or_false] at rest
          rcases rest with rfl | rfl <;> exact not_false
        rw [gone] at granted
        cases granted
    · rw [Database.Contents.docs_writeAll_of_off fun write taken =>
        withdrawalWrites_off_grant same write (List.mem_of_mem_take taken)] at granted
      exact ⟨granted, (Database.Contents.mem_writeAll_of_off fun write taken =>
        withdrawalWrites_off_list same write (List.mem_of_mem_take taken)).mpr⟩

theorem trims_withdrawals (agentId : String) {ids : List Uuid} (expired : List Uuid)
    (among : ∀ id ∈ expired, id ∈ ids) (made : Nat) :
    Trims agentId ids contents
      (contents.writeAll ((expired.flatMap (withdrawalWrites agentId)).take made)) := by
  induction expired generalizing contents made with
  | nil =>
    rw [List.flatMap_nil, List.take_nil]
    exact Trims.refl agentId ids
  | cons head expired ih =>
    obtain ⟨member, rest⟩ := List.forall_mem_cons.mp among
    rw [List.flatMap_cons, List.take_append, Database.Contents.writeAll_append]
    exact (trims_withdrawal member made).trans (ih rest _)

theorem Kept.trims {agentId : String} {ids : List Uuid} (kept : Kept before)
    (trims : Trims agentId ids before after) : Kept after where
  named id region stored := kept.named id region (by rw [← trims.regions, stored])
  drawn id region stored := by
    rw [trims.issued]
    exact kept.drawn id region (by rw [← trims.regions, stored])
  grantDrawn id other acl granted := by
    rw [trims.issued]
    exact kept.grantDrawn id other acl (trims.grants id other acl granted).1
  ungranted id region stored := by
    rw [trims.regions] at stored
    cases granted : after.docs (.aclEntry id region.ownerAgentId) with
    | none => rfl
    | some acl =>
      have held := (trims.grants id region.ownerAgentId acl granted).1
      rw [kept.ungranted id region stored] at held
      cases held

theorem Complete.trims {agentId : String} {ids : List Uuid} (complete : Complete before)
    (trims : Trims agentId ids before after)
    (foreign : ∀ id ∈ ids, ∀ region, before.docs (.region id) = some region →
      region.ownerAgentId ≠ agentId) : Complete after where
  owned id region stored := by
    rw [trims.regions] at stored
    apply trims.elsewhere id region.ownerAgentId _ (complete.owned id region stored)
    by_cases among : id ∈ ids
    · exact .inl (foreign id among region stored)
    · exact .inr among
  granted id region other acl stored held := by
    rw [trims.regions] at stored
    obtain ⟨before_held, kept_listed⟩ := trims.grants id other acl held
    exact kept_listed (complete.granted id region other acl stored before_held)

theorem docs_creation_region {region : MemoryRegion} {id : Uuid} (different : id ≠ region.id) :
    (contents.writeAll (creationWrites region)).docs (.region id) = contents.docs (.region id) :=
  Database.Contents.docs_writeAll_of_off
    (by simp [creationWrites, Database.Write.OnDoc, different.symm])

theorem docs_creation_grant (region : MemoryRegion) (id : Uuid) (agentId : String) :
    (contents.writeAll (creationWrites region)).docs (.aclEntry id agentId) =
      contents.docs (.aclEntry id agentId) :=
  Database.Contents.docs_writeAll_of_off (by simp [creationWrites, Database.Write.OnDoc])

theorem docs_creation_self (region : MemoryRegion) :
    (contents.writeAll (creationWrites region)).docs (.region region.id) = some region :=
  Database.Contents.docs_writeAll_set (by simp [Database.Write.OnDoc])

theorem docs_update_region {region : MemoryRegion} {id : Uuid} (different : id ≠ region.id) :
    (contents.writeAll [.set (.region region.id) region]).docs (.region id) =
      contents.docs (.region id) :=
  Database.Contents.docs_writeAll_of_off (by simp [Database.Write.OnDoc, different.symm])

theorem docs_update_grant (region : MemoryRegion) (id : Uuid) (agentId : String) :
    (contents.writeAll [.set (.region region.id) region]).docs (.aclEntry id agentId) =
      contents.docs (.aclEntry id agentId) :=
  Database.Contents.docs_writeAll_of_off (by simp [Database.Write.OnDoc])

theorem docs_update_self (region : MemoryRegion) :
    (contents.writeAll [.set (.region region.id) region]).docs (.region region.id) =
      some region :=
  Database.Contents.docs_writeAll_set (by simp)

theorem docs_grant_region (acl : MemoryRegionAcl) (id : Uuid) :
    (contents.writeAll (grantWrites acl)).docs (.region id) = contents.docs (.region id) :=
  Database.Contents.docs_writeAll_of_off (by simp [grantWrites, Database.Write.OnDoc])

theorem docs_grant_grant {acl : MemoryRegionAcl} {id : Uuid} {agentId : String}
    (different : ¬ (id = acl.regionId ∧ agentId = acl.agentId)) :
    (contents.writeAll (grantWrites acl)).docs (.aclEntry id agentId) =
      contents.docs (.aclEntry id agentId) := by
  apply Database.Contents.docs_writeAll_of_off
  simp only [grantWrites, Database.Write.OnDoc, List.mem_cons, List.not_mem_nil, or_false,
    forall_eq_or_imp, forall_eq, RegionKey.aclEntry.injEq]
  exact ⟨fun same => different ⟨same.1.symm, same.2.symm⟩, not_false, not_false⟩

theorem listed_insert (agentId other : String) (id region : Uuid) (score : Int) :
    Listed (contents.withSet (.agentRegions agentId)
      ((contents.sets (.agentRegions agentId)).insert (regionMember id) score)) other region ↔
      other = agentId ∧ region = id ∨ Listed contents other region := by
  unfold Listed
  rcases eq_or_ne other agentId with rfl | different
  · rw [Database.Contents.sets_withSet_self, SortedSet.mem_members_insert]
    simp [regionMember]
  · rw [Database.Contents.sets_withSet_of_ne _ (by simpa using different)]
    simp [different]

theorem listed_creation (region : MemoryRegion) (agentId : String) (id : Uuid) :
    Listed (contents.writeAll (creationWrites region)) agentId id ↔
      agentId = region.ownerAgentId ∧ id = region.id ∨ Listed contents agentId id :=
  listed_insert ..

theorem listed_grant (acl : MemoryRegionAcl) (agentId : String) (id : Uuid) :
    Listed (contents.writeAll (grantWrites acl)) agentId id ↔
      agentId = acl.agentId ∧ id = acl.regionId ∨ Listed contents agentId id :=
  listed_insert ..

theorem cases_creation {region found : MemoryRegion} {id : Uuid}
    (stored : (contents.writeAll (creationWrites region)).docs (.region id) = some found) :
    id = region.id ∧ found = region ∨
      id ≠ region.id ∧ contents.docs (.region id) = some found := by
  rcases eq_or_ne id region.id with rfl | different
  · rw [docs_creation_self] at stored
    exact .inl ⟨rfl, (Option.some.inj stored).symm⟩
  · exact .inr ⟨different, by rw [← docs_creation_region different, stored]⟩

theorem cases_update {region found : MemoryRegion} {id : Uuid}
    (stored : (contents.writeAll [.set (.region region.id) region]).docs (.region id) =
      some found) :
    id = region.id ∧ found = region ∨
      id ≠ region.id ∧ contents.docs (.region id) = some found := by
  rcases eq_or_ne id region.id with rfl | different
  · rw [docs_update_self] at stored
    exact .inl ⟨rfl, (Option.some.inj stored).symm⟩
  · exact .inr ⟨different, by rw [← docs_update_region different, stored]⟩

theorem Kept.draw (kept : Kept contents) (id : Uuid) : Kept (contents.draw id) where
  named := kept.named
  drawn other region stored := List.mem_cons_of_mem _ (kept.drawn other region stored)
  grantDrawn other agentId acl held := List.mem_cons_of_mem _ (kept.grantDrawn other agentId acl held)
  ungranted := kept.ungranted

theorem Complete.draw (complete : Complete contents) (id : Uuid) : Complete (contents.draw id) :=
  ⟨complete.owned, complete.granted⟩

theorem Kept.created (kept : Kept contents) {region : MemoryRegion}
    (drawn : region.id ∈ contents.issued)
    (ungranted : ∀ agentId, contents.docs (.aclEntry region.id agentId) = none) :
    Kept (contents.writeAll (creationWrites region)) where
  named id found stored := by
    rcases cases_creation stored with ⟨rfl, rfl⟩ | ⟨_, before⟩
    · rfl
    · exact kept.named id found before
  drawn id found stored := by
    rw [Database.Contents.issued_writeAll]
    rcases cases_creation stored with ⟨rfl, rfl⟩ | ⟨_, before⟩
    · exact drawn
    · exact kept.drawn id found before
  grantDrawn id agentId acl held := by
    rw [docs_creation_grant] at held
    rw [Database.Contents.issued_writeAll]
    exact kept.grantDrawn id agentId acl held
  ungranted id found stored := by
    rw [docs_creation_grant]
    rcases cases_creation stored with ⟨rfl, rfl⟩ | ⟨_, before⟩
    · exact ungranted _
    · exact kept.ungranted id found before

theorem Complete.created (complete : Complete contents) {region : MemoryRegion}
    (ungranted : ∀ agentId, contents.docs (.aclEntry region.id agentId) = none) :
    Complete (contents.writeAll (creationWrites region)) where
  owned id found stored := by
    rw [listed_creation]
    rcases cases_creation stored with ⟨rfl, rfl⟩ | ⟨_, before⟩
    · exact .inl ⟨rfl, rfl⟩
    · exact .inr (complete.owned id found before)
  granted id found agentId acl stored held := by
    rw [docs_creation_grant] at held
    rw [listed_creation]
    rcases cases_creation stored with ⟨rfl, rfl⟩ | ⟨_, before⟩
    · rw [ungranted] at held
      cases held
    · exact .inr (complete.granted id found agentId acl before held)

theorem Kept.updated (kept : Kept contents) {old new : MemoryRegion}
    (stored : contents.docs (.region new.id) = some old)
    (owner : new.ownerAgentId = old.ownerAgentId) :
    Kept (contents.writeAll [.set (.region new.id) new]) where
  named id found here := by
    rcases cases_update here with ⟨rfl, rfl⟩ | ⟨_, before⟩
    · rfl
    · exact kept.named id found before
  drawn id found here := by
    rcases cases_update here with ⟨rfl, rfl⟩ | ⟨_, before⟩
    · exact kept.drawn _ old stored
    · exact kept.drawn id found before
  grantDrawn id agentId acl held := by
    rw [docs_update_grant] at held
    exact kept.grantDrawn id agentId acl held
  ungranted id found here := by
    rw [docs_update_grant]
    rcases cases_update here with ⟨rfl, rfl⟩ | ⟨_, before⟩
    · rw [owner]
      exact kept.ungranted _ old stored
    · exact kept.ungranted id found before

theorem Complete.updated (complete : Complete contents) {old new : MemoryRegion}
    (stored : contents.docs (.region new.id) = some old)
    (owner : new.ownerAgentId = old.ownerAgentId) :
    Complete (contents.writeAll [.set (.region new.id) new]) where
  owned id found here := by
    rcases cases_update here with ⟨rfl, rfl⟩ | ⟨_, before⟩
    · rw [owner]
      exact complete.owned _ old stored
    · exact complete.owned id found before
  granted id found agentId acl here held := by
    rw [docs_update_grant] at held
    rcases cases_update here with ⟨rfl, rfl⟩ | ⟨_, before⟩
    · exact complete.granted _ old agentId acl stored held
    · exact complete.granted id found agentId acl before held

theorem Kept.granted (kept : Kept contents) {region : MemoryRegion} {acl : MemoryRegionAcl}
    (stored : contents.docs (.region acl.regionId) = some region)
    (other : acl.agentId ≠ region.ownerAgentId) :
    Kept (contents.writeAll (grantWrites acl)) where
  named id found here := by
    rw [docs_grant_region] at here
    exact kept.named id found here
  drawn id found here := by
    rw [docs_grant_region] at here
    rw [Database.Contents.issued_writeAll]
    exact kept.drawn id found here
  grantDrawn id agentId held granted := by
    rw [Database.Contents.issued_writeAll]
    by_cases same : id = acl.regionId ∧ agentId = acl.agentId
    · rw [same.1]
      exact kept.drawn _ region stored
    · rw [docs_grant_grant same] at granted
      exact kept.grantDrawn id agentId held granted
  ungranted id found here := by
    rw [docs_grant_region] at here
    have apart : ¬ (id = acl.regionId ∧ found.ownerAgentId = acl.agentId) := by
      rintro ⟨rfl, owner⟩
      obtain rfl := Option.some.inj (stored.symm.trans here)
      exact other owner.symm
    rw [docs_grant_grant apart]
    exact kept.ungranted id found here

theorem Complete.grant (complete : Complete contents) (acl : MemoryRegionAcl) :
    Complete (contents.writeAll (grantWrites acl)) where
  owned id found here := by
    rw [docs_grant_region] at here
    rw [listed_grant]
    exact .inr (complete.owned id found here)
  granted id found agentId held here granted := by
    rw [docs_grant_region] at here
    rw [listed_grant]
    by_cases same : id = acl.regionId ∧ agentId = acl.agentId
    · exact .inl ⟨same.2, same.1⟩
    · rw [docs_grant_grant same] at granted
      exact .inr (complete.granted id found agentId held here granted)

theorem deletionWrites_off_doc {region : MemoryRegion} {id : Uuid} {agents : List String}
    {key : RegionKey} (elsewhere : key ≠ .region id ∧ ∀ agentId, key ≠ .aclEntry id agentId) :
    ∀ write ∈ deletionWrites region id agents, ¬ write.OnDoc key := by
  intro write member
  simp only [deletionWrites, List.mem_append, List.mem_cons, List.not_mem_nil, or_false,
    List.mem_flatMap] at member
  rcases member with ((rfl | rfl | rfl | rfl) | ⟨agentId, _, rfl | rfl⟩) | rfl
  · exact Ne.symm elsewhere.1
  · exact not_false
  · exact not_false
  · exact not_false
  · exact Ne.symm (elsewhere.2 agentId)
  · exact not_false
  · exact not_false

theorem listed_deletion (region : MemoryRegion) {id other : Uuid} (agents : List String)
    (agentId : String) (different : other ≠ id) :
    Listed (contents.writeAll (deletionWrites region id agents)) agentId other ↔
      Listed contents agentId other := by
  apply Database.Contents.mem_writeAll_of_off
  have apart : regionMember id ≠ regionMember other := by simpa using Ne.symm different
  intro write member
  simp only [deletionWrites, List.mem_append, List.mem_cons, List.not_mem_nil, or_false,
    List.mem_flatMap] at member
  rcases member with ((rfl | rfl | rfl | rfl) | ⟨agent, _, rfl | rfl⟩) | rfl
  · exact not_false
  · exact fun on => apart on.2
  · exact fun on => apart on.2
  · exact fun on => apart on.2
  · exact not_false
  · exact fun on => apart on.2
  · simp [Database.Write.OnMember]

theorem docs_deletion_self (region : MemoryRegion) (id : Uuid) (agents : List String) :
    (contents.writeAll (deletionWrites region id agents)).docs (.region id) = none := by
  rw [deletionWrites, List.cons_append, List.cons_append]
  apply Database.Contents.docs_writeAll_del
  intro write member
  simp only [List.mem_append, List.mem_cons, List.not_mem_nil, or_false,
    List.mem_flatMap] at member
  rcases member with ((rfl | rfl | rfl) | ⟨agent, _, rfl | rfl⟩) | rfl
  · exact not_false
  · exact not_false
  · exact not_false
  · exact fun on => nomatch on
  · exact not_false
  · exact not_false

theorem docs_deletion_region (region : MemoryRegion) {id other : Uuid} (agents : List String)
    (different : other ≠ id) :
    (contents.writeAll (deletionWrites region id agents)).docs (.region other) =
      contents.docs (.region other) :=
  Database.Contents.docs_writeAll_of_off (deletionWrites_off_doc (by simp [different]))

theorem docs_deletion_grant (region : MemoryRegion) {id other : Uuid} (agents : List String)
    (different : other ≠ id) (agentId : String) :
    (contents.writeAll (deletionWrites region id agents)).docs (.aclEntry other agentId) =
      contents.docs (.aclEntry other agentId) :=
  Database.Contents.docs_writeAll_of_off (deletionWrites_off_doc (by simp [different]))

theorem cases_deletion {region found : MemoryRegion} {id other : Uuid} {agents : List String}
    (stored : (contents.writeAll (deletionWrites region id agents)).docs (.region other) =
      some found) : other ≠ id ∧ contents.docs (.region other) = some found := by
  rcases eq_or_ne other id with rfl | different
  · rw [docs_deletion_self] at stored
    cases stored
  · exact ⟨different, by rw [← docs_deletion_region region agents different, stored]⟩

theorem Kept.deleted (kept : Kept contents) {region : MemoryRegion} {id : Uuid}
    (stored : contents.docs (.region id) = some region) (agents : List String) :
    Kept (contents.writeAll (deletionWrites region id agents)) where
  named other found here := kept.named other found (cases_deletion here).2
  drawn other found here := by
    rw [Database.Contents.issued_writeAll]
    exact kept.drawn other found (cases_deletion here).2
  grantDrawn other agentId acl held := by
    rw [Database.Contents.issued_writeAll]
    rcases eq_or_ne other id with rfl | different
    · exact kept.drawn other region stored
    · rw [docs_deletion_grant region agents different] at held
      exact kept.grantDrawn other agentId acl held
  ungranted other found here := by
    obtain ⟨different, before⟩ := cases_deletion here
    rw [docs_deletion_grant region agents different]
    exact kept.ungranted other found before

theorem Complete.deleted (complete : Complete contents) (region : MemoryRegion) (id : Uuid)
    (agents : List String) :
    Complete (contents.writeAll (deletionWrites region id agents)) where
  owned other found here := by
    obtain ⟨different, before⟩ := cases_deletion here
    rw [listed_deletion region agents _ different]
    exact complete.owned other found before
  granted other found agentId acl here held := by
    obtain ⟨different, before⟩ := cases_deletion here
    rw [docs_deletion_grant region agents different] at held
    rw [listed_deletion region agents _ different]
    exact complete.granted other found agentId acl before held

theorem Kept.ungranted_of_fresh (kept : Kept contents) {id : Uuid} (fresh : id ∉ contents.issued)
    (agentId : String) : contents.docs (.aclEntry id agentId) = none := by
  cases held : contents.docs (.aclEntry id agentId) with
  | none => rfl
  | some acl => exact absurd (kept.grantDrawn id agentId acl held) fresh

theorem Kept.change (kept : Kept contents) (change : Change contents after) : Kept after := by
  cases change with
  | unchanged => exact kept
  | drawn id => exact kept.draw id
  | created region fresh =>
    exact (kept.draw region.id).created List.mem_cons_self (kept.ungranted_of_fresh fresh)
  | updated id old new stored same owner =>
    obtain rfl : new.id = id := same.trans (kept.named id old stored)
    exact kept.updated stored owner
  | deleted id region stored agents => exact kept.deleted stored agents
  | granted region acl stored other => exact kept.granted stored other
  | cleaned agentId expired made entries =>
    exact kept.trims (trims_withdrawals agentId expired (fun _ listed => listed) made)

theorem Complete.change (complete : Complete contents) (kept : Kept contents)
    (change : Change contents after) : Complete after := by
  cases change with
  | unchanged => exact complete
  | drawn id => exact complete.draw id
  | created region fresh => exact (complete.draw region.id).created (kept.ungranted_of_fresh fresh)
  | updated id old new stored same owner =>
    obtain rfl : new.id = id := same.trans (kept.named id old stored)
    exact complete.updated stored owner
  | deleted id region stored agents => exact complete.deleted region id agents
  | granted region acl stored other => exact complete.grant acl
  | cleaned agentId expired made entries =>
    apply complete.trims (trims_withdrawals agentId expired (fun _ listed => listed) made)
    rintro id among region stored rfl
    obtain ⟨acl, held⟩ := entries id among
    rw [kept.ungranted id region stored] at held
    cases held

end Writes
/-! ## What is listed -/

section Lists

variable {contents : RegionContents}

theorem mem_regionsOf {id : Uuid} {members : List RegionMember} :
    id ∈ regionsOf members ↔ regionMember id ∈ members := by
  simp only [regionsOf, List.mem_filterMap]
  constructor
  · rintro ⟨member, listed, found⟩
    rw [Sum.getLeft?_eq_some_iff] at found
    rw [show member = regionMember id from found] at listed
    exact listed
  · intro listed
    exact ⟨regionMember id, listed, rfl⟩

theorem listsAccessible_of_complete (kept : Kept contents) (complete : Complete contents) :
    ListsAccessible contents := by
  intro agentId start stop inputs _ within
  have described := (leaves_listAgentAccessibleRegions contents agentId
    (readings_within start stop)).eval within
  have outcome := described.2
  cases ended : (Program.eval answer (listAgentAccessibleRegions agentId) inputs contents).1 with
  | error error =>
    rw [ended] at outcome
    obtain ⟨input, admissible, failing⟩ := outcome
    exact absurd admissible.1 failing
  | ok regions =>
    rw [ended] at outcome
    obtain ⟨expired, sieved⟩ := outcome
    refine ⟨regions, rfl, fun region => ⟨fun accessible => ?_, fun listed => ?_⟩⟩
    · obtain ⟨stored, entitled⟩ := accessible
      have entered : Listed contents agentId region.id := by
        rcases entitled with rfl | ⟨acl, held, _⟩
        · exact complete.owned region.id region stored
        · exact complete.granted region.id region agentId acl stored held
      rcases sieved.complete region.id (mem_regionsOf.mpr entered) with
        ⟨found, member, same, _⟩ | ⟨acl, held, past⟩ | other
      · obtain rfl := Option.some.inj (stored.symm.trans same)
        exact member
      · rcases entitled with rfl | ⟨other, also, running⟩
        · rw [kept.ungranted region.id region stored] at held
          cases held
        · obtain rfl := Option.some.inj (held.symm.trans also)
          rw [running] at past
          cases past
      · obtain ⟨foreign, ungranted⟩ := other region stored
        rcases entitled with owner | ⟨acl, held, _⟩
        · exact absurd owner foreign
        · rw [ungranted] at held
          cases held
    · obtain ⟨id, _, stored, entitled⟩ := sieved.accessible region listed
      obtain rfl := kept.named id region stored
      exact ⟨stored, entitled⟩

/-- An environment in which the store does not fail, at a time. -/
def calmInputs (now : DateTime) : Nat → RegionInput :=
  fun _ => { failure := none, made := 0, now, id := 0 }

theorem listed_of_listsAccessible (kept : Kept contents) (lists : ListsAccessible contents)
    {agentId : String} {now : DateTime} {region : MemoryRegion}
    (accessible : Accessible contents agentId now region) :
    Listed contents agentId region.id := by
  have within (position : Nat) : Within now now (calmInputs now position) :=
    ⟨rfl, le_refl now, le_refl now⟩
  obtain ⟨regions, ended, shown⟩ := lists agentId now now (calmInputs now) (le_refl now) within
  have described := (leaves_listAgentAccessibleRegions contents agentId
    (readings_within now now)).eval within
  have outcome := described.2
  rw [ended] at outcome
  obtain ⟨expired, sieved⟩ := outcome
  obtain ⟨id, among, stored, _⟩ := sieved.accessible region ((shown region).1 accessible)
  obtain rfl := kept.named id region stored
  exact mem_regionsOf.mp among

theorem exists_running (acl : MemoryRegionAcl) : ∃ now, acl.expiredAt now = false := by
  cases expires : acl.expiresAt with
  | none => exact ⟨0, by simp [MemoryRegionAcl.expiredAt, expires]⟩
  | some expiry => exact ⟨expiry - 1, by simp [MemoryRegionAcl.expiredAt, expires]⟩

theorem complete_of_listsAccessible (kept : Kept contents) (lists : ListsAccessible contents) :
    Complete contents where
  owned id region stored := by
    obtain rfl := kept.named id region stored
    have accessible : Accessible contents region.ownerAgentId 0 region := ⟨stored, .inl rfl⟩
    exact listed_of_listsAccessible kept lists accessible
  granted id region agentId acl stored held := by
    obtain rfl := kept.named id region stored
    obtain ⟨now, running⟩ := exists_running acl
    exact listed_of_listsAccessible kept lists ⟨stored, .inr ⟨acl, held, running⟩⟩

end Lists

/-! ## Runs of calls -/

theorem kept_noRegions (users : Uuid → Option Users.User) : Kept (noRegions users) where
  named _ _ stored := nomatch stored
  drawn _ _ stored := nomatch stored
  grantDrawn _ _ _ held := nomatch held
  ungranted _ _ stored := nomatch stored

theorem complete_noRegions (users : Uuid → Option Users.User) : Complete (noRegions users) where
  owned _ _ stored := nomatch stored
  granted _ _ _ _ stored := nomatch stored

theorem Kept.step {contents : RegionContents} (kept : Kept contents)
    (call : RegionCall × (Nat → RegionInput)) : Kept (regionStep contents call) := by
  obtain ⟨call, inputs⟩ := call
  by_cases revoking : ∃ caller id agentId, call = .revoke caller id agentId
  · obtain ⟨caller, id, agentId, rfl⟩ := revoking
    rcases step_revoke contents caller id agentId inputs with ⟨same, _⟩ | ⟨withdrawn, _⟩
    · rwa [same]
    · rw [withdrawn]
      have trims : Trims agentId [id] contents (contents.writeAll (withdrawalWrites agentId id)) :=
        trims_withdrawal List.mem_cons_self 3
      exact kept.trims trims
  · simp only [not_exists] at revoking
    exact kept.change (change_step contents call inputs revoking)

theorem not_listed_withdrawal (contents : RegionContents) (agentId : String) (id : Uuid) :
    ¬ Listed (contents.writeAll (withdrawalWrites agentId id)) agentId id := by
  simp [Listed, withdrawalWrites, Database.Contents.write, SortedSet.mem_members_erase]

theorem complete_step_iff {contents : RegionContents} (kept : Kept contents)
    (complete : Complete contents) (call : RegionCall × (Nat → RegionInput)) :
    Complete (regionStep contents call) ↔ KeepsOwner contents call := by
  obtain ⟨call, inputs⟩ := call
  by_cases revoking : ∃ caller id agentId, call = .revoke caller id agentId
  · obtain ⟨caller, id, agentId, rfl⟩ := revoking
    rcases step_revoke contents caller id agentId inputs with
      ⟨same, idle⟩ | ⟨withdrawn, region, effect⟩
    · rw [same]
      exact iff_of_true complete fun region effect => absurd effect (idle region)
    · rw [withdrawn]
      have trims : Trims agentId [id] contents (contents.writeAll (withdrawalWrites agentId id)) :=
        trims_withdrawal List.mem_cons_self 3
      constructor
      · rintro remains other also rfl
        have stored := (trims.regions id).trans also.stored
        exact not_listed_withdrawal contents _ id (remains.owned id other stored)
      · intro keeps
        apply complete.trims trims
        intro other among stored_region stored
        obtain rfl := List.mem_singleton.mp among
        obtain rfl := Option.some.inj (stored.symm.trans effect.stored)
        exact keeps stored_region effect
  · simp only [not_exists] at revoking
    have keeps : KeepsOwner contents (call, inputs) := by
      cases call with
      | revoke caller id agentId => exact absurd rfl (revoking caller id agentId)
      | create | list | update | delete | grant => exact trivial
    exact iff_of_true (complete.change kept (change_step contents call inputs revoking)) keeps

/-- Throughout a run of calls every agent is shown exactly the regions to which it has access, if and
only if no revocation that takes effect names the owner of the region. -/
theorem regions_listed_iff_kept (users : Uuid → Option Users.User)
    (run : List (RegionCall × (Nat → RegionInput))) :
    StateMachine.Always regionStep ListsAccessible (noRegions users) run ↔
      StateMachine.Guarded regionStep KeepsOwner (noRegions users) run := by
  refine StateMachine.always_iff_guarded Kept (fun contents call kept _ => kept.step call)
    (fun contents call kept lists => ?_) (kept_noRegions users)
    (listsAccessible_of_complete (kept_noRegions users) (complete_noRegions users)) run
  rw [← complete_step_iff kept (complete_of_listsAccessible kept lists)]
  constructor
  · exact complete_of_listsAccessible (kept.step call)
  · exact listsAccessible_of_complete (kept.step call)

/-! ## An owner that loses its region -/

/-- The only user. -/
def soleUser : Users.User :=
  { id := 7
    externalId := none
    name := "ada"
    email := none
    metadata := .null
    createdAt := 0
    updatedAt := 0 }

/-- The store with the user alone. -/
def userOnly : RegionContents := noRegions fun id => if id = 7 then some soleUser else none

/-- The caller whose key bears the name of the agent. -/
def plannerCaller : CallerContext :=
  { keyId := 5, keyName := "planner", role := .write, scope := none }

/-- The request of the agent for a region of its own. -/
def notesRequest : CreateRegionRequest :=
  { name := "notes"
    ownerAgentId := "planner"
    userId := 7
    entityFilter := none
    edgeFilter := none
    classificationCeiling := .internal }

/-- The region which that creates. -/
def notesRegion : MemoryRegion :=
  { id := 0
    name := "notes"
    ownerAgentId := "planner"
    userId := 7
    entityFilter := none
    edgeFilter := none
    classificationCeiling := .internal
    createdAt := 1
    updatedAt := 1 }

/-- The agent creates a region, and revokes its own access to it. -/
def selfRevocation : List (RegionCall × (Nat → RegionInput)) :=
  [(.create plannerCaller notesRequest, calmInputs 1),
    (.revoke plannerCaller 0 "planner", calmInputs 2)]

/-- The region exists afterwards, but its owner is not shown it. -/
theorem owner_loses_region :
    ¬ StateMachine.Always regionStep ListsAccessible userOnly selfRevocation := by
  intro always
  have kept : Kept (StateMachine.finish regionStep userOnly selfRevocation) :=
    StateMachine.finish_induction (fun _ call kept => kept.step call) (kept_noRegions _) _
  have complete := complete_of_listsAccessible kept always.finish
  have stored : (StateMachine.finish regionStep userOnly selfRevocation).docs (.region 0) =
      some notesRegion := rfl
  have listed := complete.owned 0 notesRegion stored
  exact not_listed_withdrawal _ "planner" 0 listed

end Region
end Mnemo
