import Mnemo.Agent.AuditLog

/-!
# Forks

A fork copies the experiences of an agent that pass a filter to a new agent, and notes the fork in the
witness chain of the source.  The experiences and the identity of the source stay as they are, and its
log only grows.
-/

namespace Mnemo
namespace Agent

open Database (Contents ReadsAs)
open Program (Ensures)

/-! ## Outcomes of successful programs -/

/-- A program that ends with a value leaves what is described. -/
abbrev OnSuccess {α : Type} (post : α → AgentContents → Prop) (program : AgentProgram α)
    (contents : AgentContents) : Prop :=
  Ensures Database.exec (fun _ : Database.Input AgentAnswer MnemoError => True) (fun _ _ => True)
    (fun outcome final => ∀ value, outcome = .ok value → post value final) program contents

section Success

variable {α β : Type} {contents : AgentContents}

theorem OnSuccess.done {post : α → AgentContents → Prop} {value : α}
    (described : post value contents) : OnSuccess post (.done value) contents :=
  Ensures.done fun _ same => Except.ok.inj same ▸ described

theorem OnSuccess.fail {post : α → AgentContents → Prop} (error : MnemoError) :
    OnSuccess post (.fail error) contents :=
  Ensures.fail fun _ impossible => nomatch impossible

theorem OnSuccess.bind {post : α → AgentContents → Prop} {final : β → AgentContents → Prop}
    {program : AgentProgram α} {next : α → AgentProgram β}
    (first : OnSuccess post program contents)
    (rest : ∀ value middle, post value middle → OnSuccess final (next value) middle) :
    OnSuccess final (program >>= next) contents :=
  Ensures.bind first (fun value middle described => rest value middle (described value rfl))
    fun _ _ _ _ impossible => nomatch impossible

theorem OnSuccess.mono {post weak : α → AgentContents → Prop} {program : AgentProgram α}
    (first : OnSuccess post program contents)
    (weaken : ∀ value final, post value final → weak value final) :
    OnSuccess weak program contents :=
  Ensures.mono first fun _ final described value same => weaken value final (described value same)

theorem OnSuccess.of_readsAs {value : α} {program : AgentProgram α}
    (reads : ReadsAs (fun _ => True) (fun _ _ => True) value program contents) :
    OnSuccess (fun found final => found = value ∧ final = contents) program contents := by
  refine Ensures.mono reads ?_
  rintro outcome final ⟨same, gives | ⟨_, error, failed⟩⟩ found rfl
  · exact ⟨Except.ok.inj gives, same⟩
  · cases failed

theorem OnSuccess.ofExcept {post : α → AgentContents → Prop} {outcome : Except MnemoError α}
    (described : ∀ value, outcome = .ok value → post value contents) :
    OnSuccess post (Program.ofExcept outcome) contents :=
  Ensures.ofExcept described

end Success

namespace Redis

variable {β : Type} {contents : AgentContents} {final : β → AgentContents → Prop}

theorem then_get {key : AgentKey} {next : Option (AgentDoc key) → AgentProgram β}
    (rest : OnSuccess final (next (contents.docs key)) contents) :
    OnSuccess final (get key >>= next) contents :=
  (OnSuccess.of_readsAs (Database.readsAs_get key trivial)).bind
    (by rintro _ _ ⟨rfl, rfl⟩; exact rest)

theorem then_zrevrange {index : AgentIndex} {start stop : Int}
    {next : List String → AgentProgram β}
    (rest : OnSuccess final (next ((contents.sets index).revRange start stop)) contents) :
    OnSuccess final (zrevrange index start stop >>= next) contents :=
  (OnSuccess.of_readsAs (Database.readsAs_zrevrange index start stop trivial)).bind
    (by rintro _ _ ⟨rfl, rfl⟩; exact rest)

theorem then_set {key : AgentKey} {doc : AgentDoc key} {next : Unit → AgentProgram β}
    (rest : OnSuccess final (next ()) (contents.put key doc)) :
    OnSuccess final (set key doc >>= next) contents :=
  Database.bind_set trivial rest fun _ _ _ impossible => nomatch impossible

theorem then_zadd {index : AgentIndex} {member : String} {score : Int}
    {next : Unit → AgentProgram β}
    (rest : OnSuccess final (next ())
      (contents.withSet index ((contents.sets index).insert member score))) :
    OnSuccess final (zadd index member score >>= next) contents :=
  Database.bind_zadd trivial rest fun _ _ _ impossible => nomatch impossible

theorem zadd_last {index : AgentIndex} {member : String} {score : Int}
    {final : Unit → AgentContents → Prop}
    (described : final ()
      (contents.withSet index ((contents.sets index).insert member score))) :
    OnSuccess final (zadd index member score) contents :=
  Database.ensures_fallible (.zadd index member score) rfl trivial (fun _ _ _ _ => described)
    fun _ _ _ impossible => nomatch impossible

theorem then_now {next : DateTime → AgentProgram β}
    (rest : ∀ time, OnSuccess final (next time) contents) :
    OnSuccess final (now >>= next) contents :=
  Database.bind_clock trivial rest

theorem then_newId {next : Uuid → AgentProgram β}
    (rest : ∀ id, id ∉ contents.issued → OnSuccess final (next id) (contents.draw id)) :
    OnSuccess final (newId >>= next) contents :=
  Database.bind_freshId trivial rest

end Redis

/-! ## What the parts of a fork do -/

/-- The database after an identity was stored with its snapshot. -/
def snapshotted (agentId : String) (identity : AgentIdentityProfile) (contents : AgentContents) :
    AgentContents :=
  let stored := (contents.put (.identity agentId) identity).put
    (.version agentId identity.version) identity
  stored.withSet (.versions agentId)
    ((stored.sets (.versions agentId)).insert (toString identity.version) identity.version)

/-- The database after an event was entered into the log of an agent. -/
def logged (agentId : String) (event : AgentIdentityAuditEvent) (contents : AgentContents) :
    AgentContents :=
  entering agentId ((contents.draw event.id).put (.auditEvent event.id.toText) event) event

/-- What an event of the log says. -/
structure Says (event : AgentIdentityAuditEvent) (agentId : String)
    (action : AgentIdentityAuditAction) (fromVersion : Option Nat) (toVersion : Nat)
    (reason : Option String) : Prop where
  agentId : event.agentId = agentId
  action : event.action = action
  fromVersion : event.fromVersion = fromVersion
  toVersion : event.toVersion = toVersion
  reason : event.reason = reason

section Parts

variable {sha256Hex : String → String} {agentId : String} {contents : AgentContents}

theorem persists_snapshot (identity : AgentIdentityProfile) :
    OnSuccess (fun _ final => final = snapshotted agentId identity contents)
      (persistIdentitySnapshot agentId identity) contents := by
  unfold persistIdentitySnapshot
  exact Redis.then_set (Redis.then_set (Redis.zadd_last rfl))

theorem reads_latestAuditHash :
    OnSuccess (fun _ final => final = contents) (latestAuditHash agentId) contents := by
  unfold latestAuditHash
  apply Redis.then_zrevrange
  cases (contents.sets (.audit agentId)).revRange 0 0 with
  | nil => exact .done rfl
  | cons latestId older => exact Redis.then_get (.done rfl)

theorem appends_audit (action : AgentIdentityAuditAction) (fromVersion : Option Nat)
    (toVersion : Nat) (rollbackToVersion : Option Nat) (reason : Option String) :
    OnSuccess (fun _ final => ∃ event, Says event agentId action fromVersion toVersion reason ∧
        event.id ∉ contents.issued ∧ final = logged agentId event contents)
      (appendIdentityAudit sha256Hex agentId action fromVersion toVersion rollbackToVersion reason)
      contents := by
  unfold appendIdentityAudit
  refine reads_latestAuditHash.bind ?_
  rintro prevHash _ rfl
  refine Redis.then_newId fun id fresh => Redis.then_now fun createdAt => ?_
  refine Redis.then_set (Redis.zadd_last ⟨_, ⟨rfl, rfl, rfl, rfl, rfl⟩, fresh, rfl⟩)

/-- The database after an agent that had no identity was given one. -/
def introduced (agentId : String) (identity : AgentIdentityProfile)
    (event : AgentIdentityAuditEvent) (contents : AgentContents) : AgentContents :=
  let appended := logged agentId event (snapshotted agentId identity contents)
  appended.withSet .agents
    ((appended.sets .agents).insert agentId (timestampMillis identity.updatedAt))

/-- The identity was stored before, or the agent was given its first one. -/
def Found (agentId : String) (identity : AgentIdentityProfile) (before after : AgentContents) :
    Prop :=
  (before.docs (.identity agentId) = some identity ∧ after = before) ∨
  (before.docs (.identity agentId) = none ∧ identity.version = 1 ∧ ∃ event,
    Says event agentId .created none 1 none ∧ event.id ∉ before.issued ∧
      after = introduced agentId identity event before)

theorem gets_identity :
    OnSuccess (fun identity final => Found agentId identity contents final)
      (getAgentIdentity sha256Hex agentId) contents := by
  unfold getAgentIdentity
  apply Redis.then_get
  cases stored : contents.docs (.identity agentId) with
  | some identity => exact .done (.inl ⟨stored, rfl⟩)
  | none =>
    refine Redis.then_now fun now => (persists_snapshot _).bind ?_
    rintro _ _ rfl
    refine (appends_audit _ _ _ _ _).bind ?_
    rintro _ _ ⟨event, told, fresh, rfl⟩
    exact Redis.then_zadd (.done (.inr ⟨stored, rfl, event, told, fresh, rfl⟩))

/-- The stored experience under an identifier. -/
def storedExperience (contents : AgentContents) (id : String) : Option ExperienceEvent :=
  contents.docs (.experience id)

/-- The stored experiences among some identifiers. -/
def storedExperiences (contents : AgentContents) (ids : List String) : List ExperienceEvent :=
  ids.filterMap (storedExperience contents)

theorem readsAs_getExperiences {allowed : Database.Input AgentAnswer MnemoError → Prop}
    (ids : List String) :
    ReadsAs allowed (fun _ _ => True) (storedExperiences contents ids) (getExperiences ids)
      contents := by
  induction ids with
  | nil => exact ReadsAs.done []
  | cons id ids ih =>
    have found : storedExperiences contents (id :: ids) =
        (storedExperience contents id).toList ++ storedExperiences contents ids := by
      unfold storedExperiences
      rw [List.filterMap_cons]
      cases storedExperience contents id <;> rfl
    rw [found]
    exact (Database.readsAs_get _ trivial).andThen (ih.andThen (ReadsAs.done _))

/-- The newest experiences of an agent that are stored. -/
def newestExperiences (contents : AgentContents) (agentId : String) (limit : Nat) :
    List ExperienceEvent :=
  storedExperiences contents ((contents.sets (.experiences agentId)).revRange 0 ((limit : Int) - 1))

theorem readsAs_listExperienceEvents {allowed : Database.Input AgentAnswer MnemoError → Prop}
    (limit : Nat) :
    ReadsAs allowed (fun _ _ => True) (newestExperiences contents agentId limit)
      (listExperienceEvents agentId limit) contents :=
  (Database.readsAs_zrevrange _ _ _ trivial).andThen (readsAs_getExperiences _)

/-- A copy of an experience that belongs to another agent. -/
def IsCopy (newAgentId : String) (event copy : ExperienceEvent) : Prop :=
  copy = { event with id := copy.id, agentId := newAgentId }

theorem agentId_of_isCopy {newAgentId : String} {events copies : List ExperienceEvent}
    (copied : List.Forall₂ (IsCopy newAgentId) events copies) {copy : ExperienceEvent}
    (member : copy ∈ copies) : copy.agentId = newAgentId := by
  induction copied with
  | nil => cases member
  | cons head _ ih =>
    rcases List.mem_cons.mp member with rfl | tail
    · exact congrArg ExperienceEvent.agentId head
    · exact ih tail

/-- What the transfer of experiences leaves. -/
structure Transferred (newAgentId : String) (events : List ExperienceEvent)
    (first last : AgentContents) : Prop where
  issued : first.issued ⊆ last.issued
  docs : ∀ key, (∀ id : Uuid, id ∈ last.issued → id ∉ first.issued →
    key ≠ .forkExperience newAgentId id.toText) → last.docs key = first.docs key
  sets : ∀ index, index ≠ .forkExperiences newAgentId → last.sets index = first.sets index
  copies : (∀ id ∈ last.issued, id < Uuid.bound) → ∃ copies : List ExperienceEvent,
    List.Forall₂ (IsCopy newAgentId) events copies ∧ (copies.map (·.id)).Nodup ∧
      ∀ copy ∈ copies, copy.id ∈ last.issued ∧ copy.id ∉ first.issued ∧
        last.docs (.forkExperience newAgentId copy.id.toText) = some copy

theorem transfers_experiences (newAgentId : String) (events : List ExperienceEvent) :
    OnSuccess (fun count final => count = events.length ∧
        Transferred newAgentId events contents final)
      (transferExperiences newAgentId events) contents := by
  induction events generalizing contents with
  | nil =>
    exact .done ⟨rfl, fun _ same => same, fun _ _ => rfl, fun _ _ => rfl,
      fun _ => ⟨[], .nil, List.nodup_nil, (fun _ none => nomatch none)⟩⟩
  | cons event events ih =>
    unfold transferExperiences
    refine Redis.then_newId fun id fresh => Redis.then_set (Redis.then_zadd ?_)
    refine ih.bind ?_
    rintro count last ⟨rfl, issued, docs, sets, copies⟩
    have inside : id ∈ last.issued := issued List.mem_cons_self
    refine .done ⟨rfl, fun other old => issued (List.mem_cons_of_mem id old),
      fun key apart => ?_, fun index apart => ?_, fun small => ?_⟩
    · have later := docs key fun other drawn old => apart other drawn fun older =>
        old (List.mem_cons_of_mem id older)
      exact later.trans (Contents.docs_put_of_ne _ (apart id inside fresh) _)
    · exact (sets index apart).trans (Contents.sets_withSet_of_ne _ apart _)
    · obtain ⟨rest, copied, distinct, placed⟩ := copies small
      have kept := docs (.forkExperience newAgentId (Uuid.toText id)) fun other drawn old same => by
        have texts : Uuid.toText id = Uuid.toText other := (AgentKey.forkExperience.inj same).2
        obtain rfl := (Uuid.toText_inj (small id inside) (small other drawn)).mp texts
        exact old List.mem_cons_self
      refine ⟨{ event with id, agentId := newAgentId } :: rest, .cons rfl copied, ?_, ?_⟩
      · refine List.nodup_cons.mpr ⟨fun listed => ?_, distinct⟩
        obtain ⟨copy, member, same⟩ := List.mem_map.mp listed
        exact (placed copy member).2.1 (List.mem_cons.mpr (.inl same))
      · intro copy member
        rcases List.mem_cons.mp member with rfl | later
        · exact ⟨inside, fresh, kept.trans (Contents.docs_put_self ..)⟩
        · obtain ⟨drawn, old, found⟩ := placed copy later
          exact ⟨drawn, fun older => old (List.mem_cons_of_mem id older), found⟩

end Parts

/-! ## What a fork leaves as it is -/

/-- Experiences, identities of other agents than the new one, and logs are as they were. -/
structure Leaves (newAgentId : String) (first last : AgentContents) : Prop where
  issued : first.issued ⊆ last.issued
  identity : ∀ agentId, agentId ≠ newAgentId →
    last.docs (.identity agentId) = first.docs (.identity agentId)
  experience : ∀ id, last.docs (.experience id) = first.docs (.experience id)
  auditEvent : ∀ id, last.docs (.auditEvent id) = first.docs (.auditEvent id)
  experiences : ∀ agentId, last.sets (.experiences agentId) = first.sets (.experiences agentId)
  audit : ∀ agentId, last.sets (.audit agentId) = first.sets (.audit agentId)

section Leaves

variable {newAgentId : String} {contents first middle last : AgentContents}

theorem Leaves.trans (one : Leaves newAgentId first middle) (two : Leaves newAgentId middle last) :
    Leaves newAgentId first last where
  issued := List.Subset.trans one.issued two.issued
  identity agentId other := (two.identity agentId other).trans (one.identity agentId other)
  experience id := (two.experience id).trans (one.experience id)
  auditEvent id := (two.auditEvent id).trans (one.auditEvent id)
  experiences agentId := (two.experiences agentId).trans (one.experiences agentId)
  audit agentId := (two.audit agentId).trans (one.audit agentId)

theorem leaves_put (key : AgentKey) (doc : AgentDoc key)
    (identity : ∀ agentId, agentId ≠ newAgentId → key ≠ .identity agentId)
    (experience : ∀ id, key ≠ .experience id) (auditEvent : ∀ id, key ≠ .auditEvent id) :
    Leaves newAgentId contents (contents.put key doc) where
  issued _ same := same
  identity agentId other := contents.docs_put_of_ne (identity agentId other).symm doc
  experience id := contents.docs_put_of_ne (experience id).symm doc
  auditEvent id := contents.docs_put_of_ne (auditEvent id).symm doc
  experiences _ := rfl
  audit _ := rfl

theorem leaves_withSet {index : AgentIndex} (set : SortedSet String)
    (experiences : ∀ agentId, index ≠ .experiences agentId)
    (audit : ∀ agentId, index ≠ .audit agentId) :
    Leaves newAgentId contents (contents.withSet index set) where
  issued _ same := same
  identity _ _ := rfl
  experience _ := rfl
  auditEvent _ := rfl
  experiences agentId := contents.sets_withSet_of_ne (experiences agentId).symm set
  audit agentId := contents.sets_withSet_of_ne (audit agentId).symm set

theorem leaves_draw (id : Uuid) : Leaves newAgentId contents (contents.draw id) :=
  ⟨List.subset_cons_self _ _, fun _ _ => rfl, fun _ => rfl, fun _ => rfl, fun _ => rfl,
    fun _ => rfl⟩

theorem leaves_identity (identity : AgentIdentityProfile) :
    Leaves newAgentId contents (contents.put (.identity newAgentId) identity) :=
  leaves_put (.identity newAgentId) identity
    (fun _ other same => other (AgentKey.identity.inj same).symm)
    (fun _ => AgentKey.noConfusion) fun _ => AgentKey.noConfusion

theorem leaves_snapshotted (identity : AgentIdentityProfile) :
    Leaves newAgentId contents (snapshotted newAgentId identity contents) := by
  have version : Leaves newAgentId (contents.put (.identity newAgentId) identity)
      ((contents.put (.identity newAgentId) identity).put (.version newAgentId identity.version)
        identity) :=
    leaves_put (.version newAgentId identity.version) identity
      (fun _ _ => AgentKey.noConfusion) (fun _ => AgentKey.noConfusion)
      fun _ => AgentKey.noConfusion
  exact (leaves_identity identity).trans (version.trans
    (leaves_withSet _ (fun _ => AgentIndex.noConfusion) fun _ => AgentIndex.noConfusion))

theorem Transferred.leaves {events : List ExperienceEvent}
    (transferred : Transferred newAgentId events first last) : Leaves newAgentId first last where
  issued := transferred.issued
  identity agentId _ := transferred.docs (.identity agentId) fun _ _ _ => AgentKey.noConfusion
  experience id := transferred.docs (.experience id) fun _ _ _ => AgentKey.noConfusion
  auditEvent id := transferred.docs (.auditEvent id) fun _ _ _ => AgentKey.noConfusion
  experiences agentId := transferred.sets (.experiences agentId) AgentIndex.noConfusion
  audit agentId := transferred.sets (.audit agentId) AgentIndex.noConfusion

theorem enters_forkAudit (event : AgentIdentityAuditEvent) (score : Int) :
    OnSuccess (fun _ final => Leaves newAgentId contents final ∧
        ∀ agentId id, final.docs (.forkExperience agentId id) =
          contents.docs (.forkExperience agentId id))
      (do
        Redis.set (.forkAudit newAgentId event.id.toText) event
        Redis.zadd (.forkAudit newAgentId) event.id.toText score) contents := by
  refine Redis.then_set (Redis.zadd_last ⟨?_, fun agentId other => ?_⟩)
  · have stored : Leaves newAgentId contents
        (contents.put (.forkAudit newAgentId event.id.toText) event) :=
      leaves_put (.forkAudit newAgentId event.id.toText) event
        (fun _ _ => AgentKey.noConfusion) (fun _ => AgentKey.noConfusion)
        fun _ => AgentKey.noConfusion
    exact stored.trans
      (leaves_withSet _ (fun _ => AgentIndex.noConfusion) fun _ => AgentIndex.noConfusion)
  · have different : AgentKey.forkExperience agentId other ≠
        .forkAudit newAgentId event.id.toText := AgentKey.noConfusion
    exact Contents.docs_put_of_ne contents different event

theorem appends_forkAudit {sha256Hex : String → String} (description : Option String) :
    OnSuccess (fun _ final => Leaves newAgentId contents final ∧
        ∀ agentId id, final.docs (.forkExperience agentId id) =
          contents.docs (.forkExperience agentId id))
      (appendForkAudit sha256Hex newAgentId description) contents := by
  unfold appendForkAudit
  refine Redis.then_newId fun id _ => Redis.then_now fun createdAt => ?_
  refine (enters_forkAudit _ _).mono ?_
  rintro _ final ⟨leaves, copies⟩
  exact ⟨(leaves_draw id).trans leaves, copies⟩

end Leaves

/-- An event was put between the others. -/
def Inserted (event : AgentIdentityAuditEvent) (before after : List AgentIdentityAuditEvent) :
    Prop :=
  ∃ low high, before = low ++ high ∧ after = low ++ event :: high

/-- The identifiers in the log of an agent were drawn. -/
def LogDrawn (agentId : String) (contents : AgentContents) : Prop :=
  ∀ text ∈ (contents.sets (.audit agentId)).members, ∃ id ∈ contents.issued, Uuid.toText id = text

section Logs

variable {newAgentId agentId : String} {contents first last : AgentContents}

theorem Leaves.auditLog (leaves : Leaves newAgentId first last) :
    auditLog agentId last = auditLog agentId first :=
  auditLog_congr (leaves.audit agentId) fun text _ => leaves.auditEvent text

theorem Leaves.logDrawn (leaves : Leaves newAgentId first last) (drawn : LogDrawn agentId first) :
    LogDrawn agentId last := by
  intro text member
  rw [leaves.audit agentId] at member
  obtain ⟨id, issued, same⟩ := drawn text member
  exact ⟨id, leaves.issued issued, same⟩

theorem docs_logged (event : AgentIdentityAuditEvent) :
    (logged agentId event contents).docs =
      ((contents.draw event.id).put (.auditEvent event.id.toText) event).docs := rfl

theorem storedEvent_logged (event : AgentIdentityAuditEvent) :
    storedEvent (logged agentId event contents) event.id.toText = some event := by
  unfold storedEvent
  rw [docs_logged]
  exact Contents.docs_put_self ..

theorem storedEvent_logged_of_ne {event : AgentIdentityAuditEvent} {text : String}
    (different : text ≠ event.id.toText) :
    storedEvent (logged agentId event contents) text = storedEvent contents text := by
  have keys : AgentKey.auditEvent text ≠ .auditEvent event.id.toText := fun same =>
    different (AgentKey.auditEvent.inj same)
  unfold storedEvent
  rw [docs_logged]
  exact Contents.docs_put_of_ne _ keys _

theorem inserted_logged {event : AgentIdentityAuditEvent} (drawn : LogDrawn agentId contents)
    (fresh : event.id ∉ contents.issued)
    (small : ∀ id ∈ (logged agentId event contents).issued, id < Uuid.bound) :
    Inserted event (auditLog agentId contents) (auditLog agentId (logged agentId event contents)) := by
  have apart {text : String} (member : text ∈ (contents.sets (.audit agentId)).members) :
      text ≠ event.id.toText := by
    rintro rfl
    obtain ⟨id, issued, same⟩ := drawn _ member
    have equal := (Uuid.toText_inj (small id (List.mem_cons_of_mem _ issued))
      (small event.id List.mem_cons_self)).mp same
    exact fresh (equal ▸ issued)
  have unlisted : event.id.toText ∉ (contents.sets (.audit agentId)).members := fun member =>
    apart member rfl
  obtain ⟨low, high, before, after⟩ := SortedSet.members_insert_of_notMem _ unlisted
    (timestampMillis event.createdAt)
  have members : ((logged agentId event contents).sets (.audit agentId)).members =
      low ++ event.id.toText :: high := by
    unfold logged entering
    rw [Contents.sets_withSet_self]
    exact after
  have kept (texts : List String) (listed : ∀ text ∈ texts, text ∈ low ++ high) :
      storedEvents (logged agentId event contents) texts = storedEvents contents texts := by
    apply List.filterMap_congr
    intro text member
    exact storedEvent_logged_of_ne (apart (by rw [before]; exact listed text member))
  refine ⟨storedEvents contents low, storedEvents contents high, ?_, ?_⟩
  · unfold auditLog storedEvents
    rw [before, List.filterMap_append]
  · have first := kept low fun text member => List.mem_append_left high member
    have second := kept high fun text member => List.mem_append_right low member
    unfold auditLog
    rw [members, ← first, ← second]
    unfold storedEvents
    rw [List.filterMap_append, List.filterMap_cons_some (storedEvent_logged event)]

theorem logDrawn_logged {event : AgentIdentityAuditEvent} (drawn : LogDrawn agentId contents) :
    LogDrawn agentId (logged agentId event contents) := by
  intro text member
  unfold logged entering at member
  rw [Contents.sets_withSet_self, SortedSet.mem_members_insert] at member
  rcases member with rfl | old
  · exact ⟨event.id, List.mem_cons_self, rfl⟩
  · obtain ⟨id, issued, same⟩ := drawn text old
    exact ⟨id, List.mem_cons_of_mem _ issued, same⟩

end Logs

/-! ## Forks -/

/-- The experiences that a request selects among some. -/
def ForkAgentRequest.selects (request : ForkAgentRequest) (events : List ExperienceEvent) :
    List ExperienceEvent :=
  let filter := request.experienceFilter.getD default
  let passing := events.filter fun event => filter.matches event
  match filter.maxEvents with
  | some most => passing.take most
  | none => passing

/-- The experience is stored, be it on its own or with the agent to which it belongs. -/
def StoresExperience (contents : AgentContents) (event : ExperienceEvent) : Prop :=
  contents.docs (.experience event.id.toText) = some event ∨
    contents.docs (.forkExperience event.agentId event.id.toText) = some event

/-- The text with which the log of the source names the new agent. -/
def forkedTo (newAgentId : String) : Option String := some ("forked_to:" ++ newAgentId)

/-- How the log of the source grows: by the fork, and before that by the creation of an agent that
had no identity. -/
def LogsFork (sourceAgentId newAgentId : String) (before after : AgentContents) : Prop :=
  (∃ (identity : AgentIdentityProfile) (forked : AgentIdentityAuditEvent),
    before.docs (.identity sourceAgentId) = some identity ∧
    Says forked sourceAgentId .forked (some identity.version) identity.version
      (forkedTo newAgentId) ∧
    Inserted forked (auditLog sourceAgentId before) (auditLog sourceAgentId after)) ∨
  (before.docs (.identity sourceAgentId) = none ∧
    ∃ (middle : List AgentIdentityAuditEvent) (created forked : AgentIdentityAuditEvent),
      Says created sourceAgentId .created none 1 none ∧
      Says forked sourceAgentId .forked (some 1) 1 (forkedTo newAgentId) ∧
      Inserted created (auditLog sourceAgentId before) middle ∧
      Inserted forked middle (auditLog sourceAgentId after))

/-- What a successful fork does. -/
structure Forks (sourceAgentId : String) (request : ForkAgentRequest) (result : ForkResult)
    (before after : AgentContents) : Prop where
  /-- The number of selected experiences is noted. -/
  counted : result.lineage.experienceEventsTransferred =
    (request.selects (newestExperiences before sourceAgentId 10000)).length
  /-- There is a new copy of each selected experience that belongs to the new agent. -/
  copied : ∃ copies : List ExperienceEvent,
    List.Forall₂ (IsCopy request.newAgentId)
      (request.selects (newestExperiences before sourceAgentId 10000)) copies ∧
    (copies.map (·.id)).Nodup ∧
    ∀ copy ∈ copies, copy.id ∉ before.issued ∧ StoresExperience after copy
  /-- The experiences of the source are listed as before. -/
  experiences : ∀ limit inputs,
    ((listExperienceEvents sourceAgentId limit).eval Database.exec inputs after).1 =
      ((listExperienceEvents sourceAgentId limit).eval Database.exec inputs before).1
  identity : ∀ identity : AgentIdentityProfile,
    before.docs (.identity sourceAgentId) = some identity →
      after.docs (.identity sourceAgentId) = some identity
  logs : LogsFork sourceAgentId request.newAgentId before after

section Forks

variable {sha256Hex : String → String} {sourceAgentId : String} {contents first last : AgentContents}

/-- The commands that list the experiences of an agent. -/
def ListsExperiences (agentId : String) : AgentCommand → Prop
  | .get (.experience _) => True
  | .zrevrange index _ _ => index = .experiences agentId
  | _ => False

theorem performs_getExperiences (ids : List String) :
    Program.Performs (ListsExperiences sourceAgentId) (getExperiences ids) := by
  induction ids with
  | nil => exact .done
  | cons id ids ih =>
    have reads : Program.Performs (ListsExperiences sourceAgentId)
        (Redis.get (.experience id)) := .call _ trivial
    exact reads.bind fun event => ih.bind fun events => .done

theorem performs_listExperienceEvents (limit : Nat) :
    Program.Performs (ListsExperiences sourceAgentId)
      (listExperienceEvents sourceAgentId limit) := by
  have reads : Program.Performs (ListsExperiences sourceAgentId)
      (Redis.zrevrange (.experiences sourceAgentId) 0 ((limit : Int) - 1)) := .call _ rfl
  exact reads.bind performs_getExperiences

/-- The experiences of an agent are the same. -/
def SameExperiences (agentId : String) (last first : AgentContents) : Prop :=
  (∀ id, last.docs (.experience id) = first.docs (.experience id)) ∧
    last.sets (.experiences agentId) = first.sets (.experiences agentId)

theorem exec_same {command : AgentCommand} (lists : ListsExperiences sourceAgentId command)
    (same : SameExperiences sourceAgentId last first)
    (input : Database.Input AgentAnswer MnemoError) :
    (Database.exec command input last).1 = (Database.exec command input first).1 ∧
      SameExperiences sourceAgentId (Database.exec command input last).2
        (Database.exec command input first).2 := by
  have reads : command.readOnly = true := by
    unfold ListsExperiences at lists
    split at lists <;> first | rfl | exact lists.elim
  rw [Database.exec_readOnly reads, Database.exec_readOnly reads]
  refine ⟨?_, same⟩
  cases failing : input.failure with
  | some error =>
    have fallible : command.fallible = true := by
      unfold ListsExperiences at lists
      split at lists <;> first | rfl | exact lists.elim
    rw [Database.exec_of_failure fallible failing, Database.exec_of_failure fallible failing]
  | none =>
    rw [Database.exec_of_failure_none failing, Database.exec_of_failure_none failing]
    unfold ListsExperiences at lists
    split at lists
    · exact congrArg Except.ok (same.1 _)
    · subst lists
      have sets := same.2
      simp only [Database.perform, sets]
    · exact lists.elim

theorem SameExperiences.eval_listExperienceEvents
    (same : SameExperiences sourceAgentId last first)
    (limit : Nat) (inputs : Nat → Database.Input AgentAnswer MnemoError) :
    ((listExperienceEvents sourceAgentId limit).eval Database.exec inputs last).1 =
      ((listExperienceEvents sourceAgentId limit).eval Database.exec inputs first).1 := by
  have alike : ∀ (command : AgentCommand) (input : Database.Input AgentAnswer MnemoError)
      (one two : AgentContents), ListsExperiences sourceAgentId command →
        SameExperiences sourceAgentId one two →
        (Database.exec command input one).1 = (Database.exec command input two).1 ∧
          SameExperiences sourceAgentId (Database.exec command input one).2
            (Database.exec command input two).2 :=
    fun _ input _ _ lists same => exec_same lists same input
  exact (performs_listExperienceEvents limit).eval_congr alike same inputs

theorem SameExperiences.newest (same : SameExperiences sourceAgentId last first) (limit : Nat) :
    newestExperiences last sourceAgentId limit = newestExperiences first sourceAgentId limit := by
  unfold newestExperiences storedExperiences
  rw [same.2]
  exact List.filterMap_congr fun id _ => same.1 id

theorem SameExperiences.trans (one : SameExperiences sourceAgentId last middle)
    (two : SameExperiences sourceAgentId middle first) :
    SameExperiences sourceAgentId last first :=
  ⟨fun id => (one.1 id).trans (two.1 id), one.2.trans two.2⟩

theorem Leaves.sameExperiences {newAgentId : String} (leaves : Leaves newAgentId first last) :
    SameExperiences sourceAgentId last first :=
  ⟨leaves.experience, leaves.experiences sourceAgentId⟩

theorem sameExperiences_logged {agentId : String} (event : AgentIdentityAuditEvent) :
    SameExperiences sourceAgentId (logged agentId event contents) contents := by
  refine ⟨fun id => ?_, ?_⟩
  · have different : AgentKey.experience id ≠ .auditEvent event.id.toText := AgentKey.noConfusion
    rw [docs_logged]
    exact Contents.docs_put_of_ne (contents.draw event.id) different event
  · exact Contents.sets_withSet_of_ne _ AgentIndex.noConfusion _

theorem identity_logged {agentId other : String} (event : AgentIdentityAuditEvent) :
    (logged agentId event contents).docs (.identity other) = contents.docs (.identity other) := by
  have different : AgentKey.identity other ≠ .auditEvent event.id.toText := AgentKey.noConfusion
  rw [docs_logged]
  exact Contents.docs_put_of_ne (contents.draw event.id) different event

theorem forkExperience_logged {agentId other id : String} (event : AgentIdentityAuditEvent) :
    (logged agentId event contents).docs (.forkExperience other id) =
      contents.docs (.forkExperience other id) := by
  have different : AgentKey.forkExperience other id ≠ .auditEvent event.id.toText :=
    AgentKey.noConfusion
  rw [docs_logged]
  exact Contents.docs_put_of_ne (contents.draw event.id) different event

theorem forkExperience_put_lineage {agentId other id : String} (lineage : ForkLineage) :
    (contents.put (.lineage agentId) lineage).docs (.forkExperience other id) =
      contents.docs (.forkExperience other id) := by
  have different : AgentKey.forkExperience other id ≠ .lineage agentId := AgentKey.noConfusion
  exact Contents.docs_put_of_ne contents different lineage

theorem leaves_introduced (identity : AgentIdentityProfile) (event : AgentIdentityAuditEvent) :
    Leaves sourceAgentId (logged sourceAgentId event (snapshotted sourceAgentId identity contents))
      (introduced sourceAgentId identity event contents) :=
  leaves_withSet _ (fun _ => AgentIndex.noConfusion) fun _ => AgentIndex.noConfusion

theorem sameExperiences_introduced (identity : AgentIdentityProfile)
    (event : AgentIdentityAuditEvent) :
    SameExperiences sourceAgentId (introduced sourceAgentId identity event contents) contents :=
  (leaves_introduced identity event).sameExperiences.trans
    ((sameExperiences_logged event).trans (leaves_snapshotted identity).sameExperiences)

section Sources

variable {source : AgentIdentityProfile} {found : AgentContents}

theorem Found.sameExperiences (gets : Found sourceAgentId source contents found) :
    SameExperiences sourceAgentId found contents := by
  rcases gets with ⟨_, rfl⟩ | ⟨_, _, event, _, _, rfl⟩
  · exact ⟨fun _ => rfl, rfl⟩
  · exact sameExperiences_introduced source event

theorem Found.issued (gets : Found sourceAgentId source contents found) :
    contents.issued ⊆ found.issued := by
  rcases gets with ⟨_, rfl⟩ | ⟨_, _, event, _, _, rfl⟩
  · exact fun _ same => same
  · exact List.subset_cons_self _ _

theorem Found.logDrawn (gets : Found sourceAgentId source contents found)
    (drawn : LogDrawn sourceAgentId contents) : LogDrawn sourceAgentId found := by
  rcases gets with ⟨_, rfl⟩ | ⟨_, _, event, _, _, rfl⟩
  · exact drawn
  · exact (leaves_introduced source event).logDrawn
      (logDrawn_logged ((leaves_snapshotted source).logDrawn drawn))

theorem Found.logsFork {newAgentId : String} {noted : AgentContents}
    {forked : AgentIdentityAuditEvent} (gets : Found sourceAgentId source contents found)
    (drawn : LogDrawn sourceAgentId contents)
    (log : auditLog sourceAgentId noted = auditLog sourceAgentId found)
    (issued : found.issued ⊆ noted.issued)
    (told : Says forked sourceAgentId .forked (some source.version) source.version
      (forkedTo newAgentId))
    (inserted : Inserted forked (auditLog sourceAgentId noted) (auditLog sourceAgentId last))
    (small : ∀ id ∈ noted.issued, id < Uuid.bound) :
    LogsFork sourceAgentId newAgentId contents last := by
  rw [log] at inserted
  rcases gets with ⟨stored, rfl⟩ | ⟨missing, first_version, created, creation, fresh, rfl⟩
  · exact .inl ⟨source, forked, stored, told, inserted⟩
  · rw [first_version] at told
    refine .inr ⟨missing, _, created, forked, creation, told, ?_, inserted⟩
    have snapshot : Leaves sourceAgentId contents (snapshotted sourceAgentId source contents) :=
      leaves_snapshotted source
    rw [(leaves_introduced source created).auditLog, ← snapshot.auditLog]
    exact inserted_logged (snapshot.logDrawn drawn) fresh fun id member => small id (issued member)

end Sources

/-- A fork does what it promises, and what it adds to the log of the source is its own. -/
theorem forks (request : ForkAgentRequest) (drawn : LogDrawn sourceAgentId contents) :
    OnSuccess (fun result final => (∀ id ∈ final.issued, id < Uuid.bound) →
        Forks sourceAgentId request result contents final)
      (forkAgent sha256Hex sourceAgentId request) contents := by
  unfold forkAgent
  refine (OnSuccess.ofExcept (fun _ _ => (rfl : contents = contents))).bind ?_
  rintro _ _ rfl
  refine Redis.then_get ?_
  cases existing : contents.docs (.identity request.newAgentId) with
  | some identity => exact .fail _
  | none =>
    refine gets_identity.bind ?_
    rintro source found gets
    refine Redis.then_now fun updatedAt => Redis.then_set ?_
    refine (persists_snapshot _).bind ?_
    intro _ ready stored
    have prepared : Leaves request.newAgentId found ready := by
      rw [stored]
      exact (leaves_identity _).trans (leaves_snapshotted _)
    refine (OnSuccess.of_readsAs (readsAs_listExperienceEvents 10000)).bind ?_
    rintro _ _ ⟨rfl, rfl⟩
    rw [(prepared.sameExperiences.trans gets.sameExperiences).newest]
    refine (transfers_experiences request.newAgentId _).bind ?_
    rintro _ moved ⟨rfl, transferred⟩
    refine Redis.then_now fun forkedAt => Redis.then_set ?_
    refine (appends_forkAudit _).bind ?_
    rintro _ noted ⟨leaves, copies⟩
    refine (appends_audit _ _ _ _ _).bind ?_
    rintro _ _ ⟨forked, told, fresh, rfl⟩
    have leaves_found : Leaves request.newAgentId found noted :=
      prepared.trans (transferred.leaves.trans
        ((leaves_put (.lineage request.newAgentId) _ (fun _ _ => AgentKey.noConfusion)
          (fun _ => AgentKey.noConfusion) fun _ => AgentKey.noConfusion).trans leaves))
    refine .done fun small => ?_
    have small_noted (id : Uuid) (member : id ∈ noted.issued) : id < Uuid.bound :=
      small id (List.mem_cons_of_mem _ member)
    have same : SameExperiences sourceAgentId (logged sourceAgentId forked noted) contents :=
      (sameExperiences_logged forked).trans
        (leaves_found.sameExperiences.trans gets.sameExperiences)
    refine ⟨rfl, ?_, fun limit inputs => same.eval_listExperienceEvents limit inputs,
      fun identity stored => ?_, ?_⟩
    · obtain ⟨made, copied, distinct, placed⟩ := transferred.copies fun id member =>
        small_noted id (leaves.issued member)
      refine ⟨made, copied, distinct, fun copy member => ?_⟩
      obtain ⟨drawn_copy, new, stored⟩ := placed copy member
      refine ⟨fun old => new (prepared.issued (gets.issued old)), .inr ?_⟩
      rw [agentId_of_isCopy copied member, forkExperience_logged, copies]
      exact (forkExperience_put_lineage _).trans stored
    · rw [identity_logged]
      rcases gets with ⟨_, rfl⟩ | ⟨missing, _⟩
      · have other : sourceAgentId ≠ request.newAgentId := by
          rintro rfl
          rw [stored] at existing
          cases existing
        exact (leaves_found.identity sourceAgentId other).trans stored
      · rw [stored] at missing
        cases missing
    · exact gets.logsFork drawn leaves_found.auditLog leaves_found.issued told
        (inserted_logged (leaves_found.logDrawn (gets.logDrawn drawn)) fresh small) small_noted

end Forks

/-- An experience of an agent. -/
def learnedExperience : ExperienceEvent :=
  { id := 7
    agentId := "a"
    userId := none
    sessionId := none
    category := "note"
    signal := "s"
    confidence := 1
    weight := 1
    decayHalfLifeDays := 1
    evidenceEpisodeIds := []
    fisherImportance := 0
    createdAt := 0 }

/-- An agent with one experience. -/
def learnedContents : AgentContents :=
  ({ noAgents with
      docs := fun key =>
        match key with
        | .identity "a" => some (AgentIdentityProfile.new "a" 0)
        | .experience "00000000-0000-0000-0000-000000000007" => some learnedExperience
        | _ => none
      issued := [7] } : AgentContents).withSet (.experiences "a")
    (SortedSet.empty.insert "00000000-0000-0000-0000-000000000007" 0)

/-- A request to fork all experiences. -/
def plainFork : ForkAgentRequest :=
  { newAgentId := "b", coreOverride := none, experienceFilter := none, description := none }

/-- Nothing fails. -/
def calmInputs : Nat → Database.Input AgentAnswer MnemoError := fun _ => untroubled 8 0

/-- What the fork answers. -/
def plainResult : ForkResult :=
  { newAgent := { agentId := "b", version := 1, core := .object [], updatedAt := 0 }
    lineage :=
      { parentAgentId := "a"
        parentVersion := 1
        forkedAt := 0
        description := none
        experienceEventsTransferred := 1
        experienceFilter := none } }

theorem plainFork_succeeds :
    ((forkAgent markedText "a" plainFork).eval Database.exec calmInputs learnedContents).1 =
      .ok plainResult := by
  rfl

end Agent
end Mnemo
