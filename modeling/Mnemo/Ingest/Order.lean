import Mnemo.Ingest.Bitemporal
import Mnemo.Ingest.Resolution

/-!
# The order in which episodes are processed

Episodes of one user, each asserting a fact that holds from its creation on, are processed in some
order, with retries.  Which fact is current in the end is decided by the last one that was stored.
-/

namespace Mnemo
namespace Ingest

open Memory
open Program (Ensures)
open Database (Command Faulty)

/-- Episodes of a user, each of which asserts one fact. -/
structure Batch where
  userId : Uuid
  episodes : List Episode
  fact : Episode → ExtractedRelationship
  owned : ∀ episode ∈ episodes, episode.userId = userId
  /-- The facts hold from the creation of their episodes on. -/
  undated : ∀ episode ∈ episodes, (fact episode).validAt = none
  distinctIds : (episodes.map Episode.id).Nodup
  distinctTimes : (episodes.map Episode.createdAt).Nodup

section Batches

variable (unicode : Unicode) (fallback : String → Option ExtractionResult)
  (batch : Batch)

/-- The lower-case name of the source of an episode's fact. -/
def sourceKey (episode : Episode) : String :=
  unicode.toLowercase (batch.fact episode).sourceName

/-- The lower-case name of the target of an episode's fact. -/
def targetKey (episode : Episode) : String :=
  unicode.toLowercase (batch.fact episode).targetName

/-- The facts of two episodes are about one source under one label. -/
def SameTopic (first second : Episode) : Prop :=
  sourceKey unicode batch first = sourceKey unicode batch second ∧
    (batch.fact first).label = (batch.fact second).label

/-- An extraction yields the fact of the episode and both of its entities. -/
def Asserts (episode : Episode) (extraction : ExtractionResult) : Prop :=
  extraction.relationships = [batch.fact episode] ∧
    (∃ entity ∈ extraction.entities,
      unicode.toLowercase entity.name = sourceKey unicode batch episode) ∧
    ∃ entity ∈ extraction.entities,
      unicode.toLowercase entity.name = targetKey unicode batch episode

/-- The store does not fail, and what is extracted is the fact of the episode; the services may
fail. -/
def CalmInput (episode : Episode) (input : MemoryInput) : Prop :=
  input.failure = none ∧ ∀ hints (extraction : ExtractionResult),
    input.answer (.extract episode.content hints) = .ok extraction →
      Asserts unicode batch episode extraction

/-- An attempt to process an episode, which may have failed before. -/
structure Attempt where
  episode : Episode
  retryCount : Nat
  lastError : Option String
  inputs : Nat → MemoryInput
  member : episode ∈ batch.episodes
  calm : ∀ position, CalmInput unicode batch episode (inputs position)

/-- The attempts of a worker, the latest one first. -/
abbrev History := List (Attempt unicode batch)

/-- The contents which an attempt leaves behind. -/
def attemptStep (contents : MemoryContents) (attempt : Attempt unicode batch) : MemoryContents :=
  ((processEpisode unicode fallback
    (attempt.episode.requeued attempt.retryCount attempt.lastError)).eval Database.exec
      attempt.inputs contents).2

/-- The contents after the attempts of a history. -/
def contentsAfter : History unicode batch → MemoryContents
  | [] => emptyMemory
  | attempt :: earlier =>
      attemptStep unicode fallback batch (contentsAfter earlier) attempt

/-- The edge is about the source and under the label of an episode's fact. -/
def OnTopic (contents : MemoryContents) (topic : Episode) (edge : Edge) : Prop :=
  edge.userId = batch.userId ∧ edge.label = (batch.fact topic).label ∧
    nameEntry contents batch.userId (sourceKey unicode batch topic) = some edge.sourceEntityId

/-- An open edge on the topic of an episode is stored under an identifier. -/
def OpenOn (contents : MemoryContents) (topic : Episode) (id : Uuid) (edge : Edge) : Prop :=
  contents.docs (.edge id) = some edge ∧ edge.invalidAt = none ∧
    OnTopic unicode batch contents topic edge

/-- The edge states the fact of an episode. -/
def States (episode : Episode) (edge : Edge) : Prop :=
  edge.sourceEpisodeId = episode.id ∧ edge.validAt = episode.createdAt ∧
    edge.fact = (batch.fact episode).fact

/-- There is one open edge on a topic, and it states the fact of an episode. -/
def CurrentIs (contents : MemoryContents) (topic episode : Episode) : Prop :=
  ∃ id edge, OpenOn unicode batch contents topic id edge ∧ States batch episode edge ∧
    ∀ otherId other, OpenOn unicode batch contents topic otherId other → otherId = id

/-- No fact on the topic is younger than that of the episode. -/
def Newest (topic episode : Episode) : Prop :=
  SameTopic unicode batch topic episode ∧ ∀ rival ∈ batch.episodes,
    SameTopic unicode batch topic rival → rival.createdAt ≤ episode.createdAt

/-- Some edge was stored between two contents. -/
def Stores (before after : MemoryContents) : Prop :=
  ∃ id, before.docs (.edge id) = none ∧ (after.docs (.edge id) : Option Edge).isSome = true

/-- The attempt was one on a topic, and it stored its fact. -/
def StoresOn (topic : Episode) (attempt : Attempt unicode batch)
    (earlier : History unicode batch) : Prop :=
  SameTopic unicode batch topic attempt.episode ∧
    Stores (contentsAfter unicode fallback batch earlier)
      (contentsAfter unicode fallback batch (attempt :: earlier))

/-- The last attempt on a topic which stored its fact was one on the episode. -/
inductive LastStored (topic : Episode) : History unicode batch → Episode → Prop
  | here {attempt : Attempt unicode batch} {earlier : History unicode batch}
      (stores : StoresOn unicode fallback batch topic attempt earlier) :
      LastStored topic (attempt :: earlier) attempt.episode
  | before {attempt : Attempt unicode batch} {earlier : History unicode batch}
      {episode : Episode}
      (without : ¬ StoresOn unicode fallback batch topic attempt earlier)
      (last : LastStored topic earlier episode) : LastStored topic (attempt :: earlier) episode

/-- The open edges on a topic are among the newest outgoing edges of their source, which is as many
as are read when a fact is processed. -/
def InView (contents : MemoryContents) (topic : Episode) : Prop :=
  ∀ id edge, OpenOn unicode batch contents topic id edge →
    edge ∈ outgoing contents edge.sourceEntityId

/-- Whenever a fact on a topic was stored, the open edges on the topic were in view. -/
def AlwaysInView (topic : Episode) : History unicode batch → Prop
  | [] => True
  | attempt :: earlier =>
      (StoresOn unicode fallback batch topic attempt earlier →
        InView unicode batch (contentsAfter unicode fallback batch earlier)
          topic) ∧
      AlwaysInView topic earlier

end Batches

section Attempts

variable {unicode : Unicode} {fallback : String → Option ExtractionResult}
  {batch : Batch} {contents before after : MemoryContents} {episode topic : Episode}

theorem SameTopic.symm (same : SameTopic unicode batch topic episode) :
    SameTopic unicode batch episode topic :=
  ⟨same.1.symm, same.2.symm⟩

theorem SameTopic.trans {rival : Episode} (one : SameTopic unicode batch topic episode)
    (two : SameTopic unicode batch episode rival) : SameTopic unicode batch topic rival :=
  ⟨one.1.trans two.1, one.2.trans two.2⟩

/-! ## What is known of the edges -/

/-- Where an edge comes from. -/
structure Provenance (unicode : Unicode) (batch : Batch) (contents : MemoryContents)
    (episode : Episode) (edge : Edge) : Prop where
  stated : States batch episode edge
  onTopic : OnTopic unicode batch contents episode edge
  target : nameEntry contents batch.userId (targetKey unicode batch episode) =
    some edge.targetEntityId
  label : validateEdgeLabel unicode edge.label = .ok ()

/-- What is known of the contents between attempts. -/
structure Known (unicode : Unicode) (batch : Batch) (contents : MemoryContents) : Prop where
  filed : Filed contents
  named : Named unicode batch.userId contents
  edges : ∀ id (edge : Edge), contents.docs (.edge id) = some edge →
    ∃ episode ∈ batch.episodes, Provenance unicode batch contents episode edge
  lists : ∀ entityId id, id ∈ (contents.sets (.adjOut entityId)).members →
    ∃ edge : Edge, contents.docs (.edge id) = some edge ∧ edge.sourceEntityId = entityId

theorem known_empty : Known unicode batch emptyMemory := by
  refine ⟨?_, ?_, ?_, ?_⟩
  · intro id edge found
    cases found
  · intro name id found
    cases found
  · intro id edge found
    cases found
  · intro entityId id member
    cases member

theorem OnTopic.grown {edge : Edge} (grown : Grown batch.userId before after)
    (onTopic : OnTopic unicode batch before topic edge) : OnTopic unicode batch after topic edge :=
  ⟨onTopic.1, onTopic.2.1, grown _ _ onTopic.2.2⟩

theorem Provenance.grown {edge : Edge} (grown : Grown batch.userId before after)
    (provenance : Provenance unicode batch before episode edge) :
    Provenance unicode batch after episode edge :=
  ⟨provenance.stated, provenance.onTopic.grown grown, grown _ _ provenance.target,
    provenance.label⟩

theorem Provenance.onTopic_iff {edge : Edge} (named : Named unicode batch.userId contents)
    (provenance : Provenance unicode batch contents episode edge) :
    OnTopic unicode batch contents topic edge ↔ SameTopic unicode batch topic episode := by
  obtain ⟨user, label, source⟩ := provenance.onTopic
  constructor
  · rintro ⟨_, topicLabel, topicSource⟩
    exact ⟨named.injective topicSource source, topicLabel.symm.trans label⟩
  · rintro ⟨sameSource, sameLabel⟩
    refine ⟨user, label.trans sameLabel.symm, ?_⟩
    rw [sameSource]
    exact source

theorem Known.onTopic_iff (known : Known unicode batch before)
    (named : Named unicode batch.userId after) (grown : Grown batch.userId before after) {id : Uuid}
    {edge : Edge} (found : before.docs (.edge id) = some edge) :
    OnTopic unicode batch after topic edge ↔ OnTopic unicode batch before topic edge := by
  obtain ⟨source, _, provenance⟩ := known.edges id edge found
  rw [provenance.onTopic_iff known.named, (provenance.grown grown).onTopic_iff named]

theorem Known.carried (known : Known unicode batch before) (same : SameEdges before after)
    (named : Named unicode batch.userId after) (grown : Grown batch.userId before after) :
    Known unicode batch after := by
  refine ⟨same.filed known.filed, named, fun id edge found => ?_, fun entityId id member => ?_⟩
  · rw [same.docs] at found
    obtain ⟨source, owned, provenance⟩ := known.edges id edge found
    exact ⟨source, owned, provenance.grown grown⟩
  · rw [same.sets] at member
    obtain ⟨edge, found, source⟩ := known.lists entityId id member
    exact ⟨edge, (same.docs id).trans found, source⟩

theorem Known.openOn_carried (known : Known unicode batch before) (same : SameEdges before after)
    (named : Named unicode batch.userId after) (grown : Grown batch.userId before after)
    (topic : Episode) (id : Uuid) (edge : Edge) :
    OpenOn unicode batch after topic id edge ↔ OpenOn unicode batch before topic id edge := by
  unfold OpenOn
  rw [same.docs]
  constructor
  · rintro ⟨found, opened, onTopic⟩
    exact ⟨found, opened, (known.onTopic_iff named grown found).mp onTopic⟩
  · rintro ⟨found, opened, onTopic⟩
    exact ⟨found, opened, (known.onTopic_iff named grown found).mpr onTopic⟩

theorem SameEdges.outgoing (same : SameEdges before after) (entityId : Uuid) :
    Ingest.outgoing after entityId = Ingest.outgoing before entityId := by
  unfold Ingest.outgoing edgesUnder
  rw [same.sets]
  exact congrArg (fun read => List.filterMap read _) (funext same.docs)

/-! ## Closing and storing edges -/

theorem SameNames.onTopic_iff (same : SameNames before after) {edge : Edge} :
    OnTopic unicode batch after topic edge ↔ OnTopic unicode batch before topic edge := by
  unfold OnTopic
  rw [same.entries]

theorem Known.closing {kind : Edge → Prop} (known : Known unicode batch before)
    (closing : Closing kind before after) : Known unicode batch after := by
  have names := closing.sameNames
  refine ⟨closing.filed known.filed, names.named known.named, fun id edge found => ?_,
    fun entityId id member => ?_⟩
  · rcases closing.edges id with same | ⟨old, episodeId, now, stored, _, _, closed⟩
    · obtain ⟨source, owned, provenance⟩ := known.edges id edge (same.symm.trans found)
      exact ⟨source, owned, provenance.grown names.grown⟩
    · obtain rfl : edge = old.invalidate episodeId now :=
        Option.some.inj (found.symm.trans closed)
      obtain ⟨source, owned, provenance⟩ := known.edges id old stored
      have carried := provenance.grown names.grown
      exact ⟨source, owned, carried.stated, carried.onTopic, carried.target, carried.label⟩
  · rw [closing.sets] at member
    obtain ⟨edge, found, source⟩ := known.lists entityId id member
    rcases closing.edges id with same | ⟨old, episodeId, now, stored, _, _, closed⟩
    · exact ⟨edge, same.trans found, source⟩
    · obtain rfl : edge = old := Option.some.inj (found.symm.trans stored)
      exact ⟨_, closed, source⟩

theorem Known.factStored {edge : Edge} (known : Known unicode batch before)
    (stored : FactStored edge before after) (member : episode ∈ batch.episodes)
    (provenance : Provenance unicode batch before episode edge) : Known unicode batch after := by
  have names := stored.sameNames
  have others {id : Uuid} (different : id ≠ edge.id) :
      after.docs (.edge id) = before.docs (.edge id) :=
    stored.others (.edge id) (by simpa using different)
  refine ⟨fun id other found => ?_, names.named known.named, fun id other found => ?_,
    fun entityId id listed => ?_⟩
  · rw [stored.issued]
    rcases eq_or_ne id edge.id with rfl | different
    · obtain rfl := Option.some.inj (stored.stored.symm.trans found)
      exact ⟨rfl, List.mem_cons_self⟩
    · obtain ⟨own, drawn⟩ := known.filed id other ((others different).symm.trans found)
      exact ⟨own, List.mem_cons_of_mem _ drawn⟩
  · rcases eq_or_ne id edge.id with rfl | different
    · obtain rfl := Option.some.inj (stored.stored.symm.trans found)
      exact ⟨episode, member, provenance.grown names.grown⟩
    · obtain ⟨source, owned, from'⟩ := known.edges id other ((others different).symm.trans found)
      exact ⟨source, owned, from'.grown names.grown⟩
  · rcases eq_or_ne id edge.id with rfl | different
    · refine ⟨edge, stored.stored, ?_⟩
      by_contra elsewhere
      rw [stored.lists entityId (Ne.symm elsewhere)] at listed
      obtain ⟨other, found, _⟩ := known.lists entityId edge.id listed
      rw [stored.unused] at found
      cases found
    · have before_listed : id ∈ (before.sets (.adjOut entityId)).members := by
        rcases eq_or_ne entityId edge.sourceEntityId with rfl | elsewhere
        · rw [stored.source, SortedSet.mem_members_insert] at listed
          exact listed.resolve_left different
        · rw [stored.lists entityId elsewhere] at listed
          exact listed
      obtain ⟨other, found, source⟩ := known.lists entityId id before_listed
      exact ⟨other, (others different).trans found, source⟩

theorem FactStored.openOn_iff {edge : Edge} (stored : FactStored edge before after)
    (opened : edge.invalidAt = none) {id : Uuid} {other : Edge} :
    OpenOn unicode batch after topic id other ↔
      (id = edge.id ∧ other = edge ∧ OnTopic unicode batch before topic edge) ∨
        OpenOn unicode batch before topic id other := by
  have names : OnTopic unicode batch after topic other ↔ OnTopic unicode batch before topic other :=
    stored.sameNames.onTopic_iff
  unfold OpenOn
  rw [names]
  rcases eq_or_ne id edge.id with rfl | different
  · have absent : before.docs (.edge edge.id) ≠ some other := by simp [stored.unused]
    rw [stored.stored]
    constructor
    · rintro ⟨found, _, onTopic⟩
      obtain rfl := Option.some.inj found
      exact .inl ⟨rfl, rfl, onTopic⟩
    · rintro (⟨_, rfl, onTopic⟩ | ⟨found, _⟩)
      · exact ⟨rfl, opened, onTopic⟩
      · exact absurd found absent
  · rw [stored.others (.edge id) (by simpa using different)]
    constructor
    · exact .inr
    · rintro (⟨same, _⟩ | remains)
      · exact absurd same different
      · exact remains

theorem Closing.openOn {kind : Edge → Prop} (closing : Closing kind before after) {id : Uuid}
    {edge : Edge} :
    (OpenOn unicode batch after topic id edge → OpenOn unicode batch before topic id edge) ∧
      (OpenOn unicode batch before topic id edge → ¬ kind edge →
        OpenOn unicode batch after topic id edge) := by
  have names : OnTopic unicode batch after topic edge ↔ OnTopic unicode batch before topic edge :=
    closing.sameNames.onTopic_iff
  unfold OpenOn
  rw [names]
  rcases closing.edges id with same | ⟨old, episodeId, now, stored, belongs, opened, closed⟩
  · rw [same]
    exact ⟨fun remains => remains, fun remains _ => remains⟩
  · constructor
    · rintro ⟨found, stillOpen, _⟩
      obtain rfl : edge = old.invalidate episodeId now :=
        Option.some.inj (found.symm.trans closed)
      cases stillOpen
    · rintro ⟨found, _⟩ spared
      obtain rfl : edge = old := Option.some.inj (found.symm.trans stored)
      exact absurd belongs spared

theorem IsClosed.not_openOn {edge : Edge} (closed : IsClosed contents edge)
    {id : Uuid} (own : edge.id = id) :
    ¬ OpenOn unicode batch contents topic id edge := by
  subst own
  rintro ⟨found, opened, _⟩
  obtain ⟨stored, held, ended⟩ := closed
  obtain rfl : edge = stored := Option.some.inj (found.symm.trans held)
  rw [opened] at ended
  cases ended

/-! ## What an attempt does -/

/-- What an attempt does: it resolves names, and then it ends or it processes the fact. -/
def Attempted (unicode : Unicode) (batch : Batch) (episode : Episode)
    (before after : MemoryContents) : Prop :=
  ∃ resolved, SameEdges before resolved ∧ Named unicode batch.userId resolved ∧
    Grown batch.userId before resolved ∧
    (after = resolved ∨ ∃ processed sourceId targetId,
      nameEntry resolved batch.userId (sourceKey unicode batch episode) = some sourceId ∧
      nameEntry resolved batch.userId (targetKey unicode batch episode) = some targetId ∧
      Supersedes unicode episode (batch.fact episode) sourceId targetId resolved processed ∧
      SameEdges processed after ∧ SameNames processed after)

theorem does_extract (retryCount : Nat) (lastError : Option String) :
    Does (CalmInput unicode batch episode) (fun outcome final => final = contents ∧
        ∀ extraction, outcome = .ok extraction → Asserts unicode batch episode extraction)
      (extract fallback (episode.requeued retryCount lastError)) contents := by
  refine (does_of_onlyReads (onlyReads_listEntities episode.userId 100) contents).bind ?_
    fun _ _ same => ⟨same, (fun _ impossible => nomatch impossible)⟩
  rintro existing _ rfl
  refine Database.bind_answer trivial ?_
    fun _ => ⟨rfl, (fun _ impossible => nomatch impossible)⟩
  intro input calm extraction answered
  have asserts := calm.2 _ extraction answered
  have found : extraction.relationships.isEmpty = false := by
    rw [asserts.1]
    rfl
  rw [found, Bool.and_false]
  refine .done ⟨rfl, fun result same => ?_⟩
  obtain rfl := Except.ok.inj same
  exact asserts

theorem does_complete {allowed : MemoryInput → Prop} (record : Episode)
    (newEntityIds newEdgeIds : List Uuid) :
    Does allowed (fun _ final => SameEdges contents final ∧ SameNames contents final)
      (do
        let _ ← Redis.ask (.embed record.content)
        let _ ← Redis.ask (.upsertEpisodeEmbedding record.id record.userId)
        updateEpisode (record.markCompleted newEntityIds newEdgeIds)) contents := by
  refine Database.bind_service trivial (fun _ => ?_) fun _ => ⟨.refl _, .refl _⟩
  refine Database.bind_service trivial (fun _ => ?_) fun _ => ⟨.refl _, .refl _⟩
  refine Database.ensures_fallible (Command.set (.episode _) _ : MemoryCommand) rfl trivial ?_
    fun _ _ => ⟨.refl _, .refl _⟩
  intro input _
  refine ⟨⟨?_, fun _ => rfl, fun _ drawn => drawn⟩, ?_, ?_, fun _ drawn => drawn⟩
  · exact fun id => Database.Contents.docs_put_of_ne _ (by simp) _
  · exact fun userId name => Database.Contents.docs_put_of_ne _ (by simp) _
  · exact fun id => Database.Contents.docs_put_of_ne _ (by simp) _

theorem exists_lookup_of_covers {names : NameMap} {extraction : ExtractionResult} {key : String}
    (covers : ∀ entity ∈ extraction.entities,
      (names.lookup (unicode.toLowercase entity.name)).isSome = true)
    (found : ∃ entity ∈ extraction.entities, unicode.toLowercase entity.name = key) :
    ∃ id, names.lookup key = some id := by
  obtain ⟨entity, member, rfl⟩ := found
  exact Option.isSome_iff_exists.mp (covers entity member)

theorem not_faulty_calmInput : ¬ Faulty (CalmInput unicode batch episode) := by
  rintro ⟨input, calm, fails⟩
  rw [calm.1] at fails
  cases fails

theorem does_singleFact {allowed : MemoryInput → Prop} (sound : ¬ Faulty allowed)
    (filed : Filed contents) (record : Episode) (rel : ExtractedRelationship) {names : NameMap}
    {sourceId targetId : Uuid}
    (source : names.lookup (unicode.toLowercase rel.sourceName) = some sourceId)
    (target : names.lookup (unicode.toLowercase rel.targetName) = some targetId) :
    Does allowed (fun _ final => Supersedes unicode record rel sourceId targetId contents final)
      (processRelationships unicode record names [rel] []) contents := by
  simp only [processRelationships, source, target]
  have facts : Does allowed (fun _ final => Filed final ∧ (¬ Faulty allowed →
        Supersedes unicode record rel sourceId targetId contents final))
      (processFact unicode record rel sourceId targetId) contents :=
    does_processFact unicode record rel sourceId targetId filed
  exact facts.bind (fun id middle described => .done (described.2 sound))
    fun error middle described => described.2 sound

theorem does_attempt (retryCount : Nat) (lastError : Option String)
    (member : episode ∈ batch.episodes) (filed : Filed contents)
    (named : Named unicode batch.userId contents) :
    Does (CalmInput unicode batch episode)
      (fun _ final => Attempted unicode batch episode contents final)
      (processEpisode unicode fallback
        (episode.requeued retryCount lastError)) contents := by
  have sound : ¬ Faulty (CalmInput unicode batch episode) := not_faulty_calmInput
  have owned : (episode.requeued retryCount lastError).userId = batch.userId :=
    batch.owned episode member
  refine (does_extract retryCount lastError).bind ?_ ?_
  · rintro extraction first ⟨rfl, asserted⟩
    obtain ⟨relationships, sources, targets⟩ := asserted extraction rfl
    have none : Agrees first batch.userId [] := fun _ _ impossible => nomatch impossible
    refine Ensures.bind ((does_of_away (away_resolveEntities unicode
      (episode.requeued retryCount lastError) extraction.entities [] []) first).and
        (does_resolveEntities sound named owned extraction.entities none [])) ?_ ?_
    · rintro ⟨names, newEntityIds⟩ resolved ⟨same, kept, grown, results⟩
      dsimp only
      obtain ⟨agrees, _, covers⟩ := results _ rfl
      obtain ⟨sourceId, source⟩ := exists_lookup_of_covers covers sources
      obtain ⟨targetId, target⟩ := exists_lookup_of_covers covers targets
      have effect {processed final : MemoryContents}
          (supersedes : Supersedes unicode (episode.requeued retryCount lastError)
            (batch.fact episode) sourceId targetId resolved processed)
          (edges : SameEdges processed final) (entries : SameNames processed final) :
          Attempted unicode batch episode first final :=
        ⟨resolved, same, kept, grown, .inr ⟨processed, sourceId, targetId, agrees _ _ source,
          agrees _ _ target, supersedes, edges, entries⟩⟩
      rw [relationships]
      refine Ensures.bind (does_singleFact sound (same.filed filed) _ _ source target) ?_ ?_
      · rintro newEdgeIds processed supersedes
        refine (does_complete _ _ _).mono ?_
        rintro outcome final ⟨edges, entries⟩
        exact effect supersedes edges entries
      · exact fun error processed supersedes => effect supersedes (.refl _) (.refl _)
    · rintro error resolved ⟨same, kept, grown, _⟩
      exact ⟨resolved, same, kept, grown, .inl rfl⟩
  · rintro error first ⟨rfl, _⟩
    exact ⟨first, .refl _, named, .refl _, .inl rfl⟩

/-! ## What an attempt changes -/

/-- A new open edge for an episode has been stored, and the other open edges on its topic that were
in view have been closed. -/
structure Replaces (unicode : Unicode) (batch : Batch) (episode : Episode)
    (before after : MemoryContents) (newId : Uuid) (newEdge : Edge) : Prop where
  unused : before.docs (.edge newId) = none
  opened : OpenOn unicode batch after episode newId newEdge
  stated : States batch episode newEdge
  elsewhere : ∀ topic, ¬ SameTopic unicode batch topic episode → ∀ id edge,
    OpenOn unicode batch after topic id edge ↔ OpenOn unicode batch before topic id edge
  here : ∀ topic id edge, OpenOn unicode batch after topic id edge → id = newId ∨
    OpenOn unicode batch before topic id edge ∧ (SameTopic unicode batch topic episode →
      edge ∉ outgoing before edge.sourceEntityId)
  spared : ∀ topic id edge, OpenOn unicode batch before topic id edge →
    edge ∉ outgoing before edge.sourceEntityId → OpenOn unicode batch after topic id edge ∧
      edge ∉ outgoing after edge.sourceEntityId

theorem Known.source_of_mem_outgoing (known : Known unicode batch contents) {entityId : Uuid}
    {edge : Edge} (member : edge ∈ outgoing contents entityId) :
    edge.sourceEntityId = entityId := by
  obtain ⟨id, listed, found⟩ := List.mem_filterMap.mp member
  obtain ⟨other, stored, source⟩ :=
    known.lists entityId id (List.mem_reverse.mp ((SortedSet.sublist_slice _ _ _).subset listed))
  obtain rfl : edge = other := Option.some.inj (found.symm.trans stored)
  exact source

theorem FactStored.mem_outgoing {edge other : Edge} (stored : FactStored edge before after)
    (known : Known unicode batch before) {id entityId : Uuid}
    (found : before.docs (.edge id) = some other) (member : other ∈ outgoing after entityId) :
    other ∈ outgoing before entityId := by
  obtain ⟨listedId, listed, held⟩ := List.mem_filterMap.mp member
  have different : id ≠ edge.id := by
    rintro rfl
    rw [stored.unused] at found
    cases found
  have own : listedId = id := by
    rcases eq_or_ne listedId edge.id with rfl | elsewhere
    · obtain rfl := Option.some.inj (stored.stored.symm.trans held)
      exact (known.filed id edge found).1
    · rw [stored.others (.edge listedId) (by simpa using elsewhere)] at held
      exact (known.filed listedId other held).1.symm.trans (known.filed id other found).1
  subst own
  refine List.mem_filterMap.mpr ⟨listedId, ?_, found⟩
  rcases eq_or_ne entityId edge.sourceEntityId with rfl | elsewhere
  · rw [stored.source] at listed
    refine SortedSet.mem_revRange_of_insert _ (fun again => ?_) different listed
    obtain ⟨ghost, impossible, _⟩ := known.lists _ _ again
    rw [stored.unused] at impossible
    cases impossible
  · rw [stored.lists entityId elsewhere] at listed
    exact listed

section Facts

variable {sourceId targetId : Uuid}

theorem provenance_factEdge (member : episode ∈ batch.episodes)
    (source : nameEntry contents batch.userId (sourceKey unicode batch episode) = some sourceId)
    (target : nameEntry contents batch.userId (targetKey unicode batch episode) = some targetId)
    (valid : validateEdgeLabel unicode (batch.fact episode).label = .ok ()) (id : Uuid)
    (now : DateTime) :
    Provenance unicode batch contents episode
      (factEdge episode (batch.fact episode) sourceId targetId id now) := by
  refine ⟨⟨rfl, ?_, rfl⟩, ⟨batch.owned episode member, rfl, source⟩, target, valid⟩
  have undated := batch.undated episode member
  simp [factEdge, Edge.fromExtraction, undated]

theorem Known.onTopic_of_superseded (known : Known unicode batch contents)
    (member : episode ∈ batch.episodes)
    (source : nameEntry contents batch.userId (sourceKey unicode batch episode) = some sourceId)
    {edge : Edge} (superseded : Superseded contents episode (batch.fact episode) sourceId edge) :
    OnTopic unicode batch contents episode edge := by
  obtain ⟨read, label, user⟩ := superseded
  refine ⟨user.trans (batch.owned episode member), label, ?_⟩
  rw [known.source_of_mem_outgoing read]
  exact source

theorem Known.target_or_nameDiffers (known : Known unicode batch contents)
    (target : nameEntry contents batch.userId (targetKey unicode batch episode) = some targetId)
    {id : Uuid} {edge : Edge} (found : contents.docs (.edge id) = some edge) :
    edge.targetEntityId = targetId ∨ NameDiffers unicode contents (batch.fact episode) edge := by
  obtain ⟨origin, _, provenance⟩ := known.edges id edge found
  rcases eq_or_ne (targetKey unicode batch origin) (targetKey unicode batch episode) with
    same | different
  · left
    exact Option.some.inj (provenance.target.symm.trans (same ▸ target))
  · right
    obtain ⟨_, entity, stored, _, lower⟩ := known.named _ _ provenance.target
    unfold NameDiffers storedName
    rw [stored]
    change targetKey unicode batch episode ≠ unicode.toLowercase entity.name
    rw [lower]
    exact different.symm

theorem Known.sameEdges_of_invalid (known : Known unicode batch before)
    (invalid : validateEdgeLabel unicode (batch.fact episode).label ≠ .ok ())
    {middle : MemoryContents}
    (closing : Closing (Superseded before episode (batch.fact episode) sourceId) before middle)
    (same : SameStore middle after) : SameEdges before after := by
  refine ⟨fun id => ?_, fun id => by rw [same.sets, closing.sets], ?_⟩
  · rw [same.docs]
    rcases closing.edges id with unchanged | ⟨edge, _, _, found, ⟨_, label, _⟩, _⟩
    · exact unchanged
    · obtain ⟨_, _, provenance⟩ := known.edges id edge found
      exact absurd (label ▸ provenance.label) invalid
  · exact fun _ drawn => same.issued (closing.issued ▸ drawn)

/-- The processing of a fact with a valid label replaces what is open on its topic. -/
theorem Known.replaces (known : Known unicode batch before) (member : episode ∈ batch.episodes)
    (source : nameEntry before batch.userId (sourceKey unicode batch episode) = some sourceId)
    (target : nameEntry before batch.userId (targetKey unicode batch episode) = some targetId)
    {middle : MemoryContents}
    (closing : Closing (Superseded before episode (batch.fact episode) sourceId) before middle)
    (closes : ∀ edge, Superseded before episode (batch.fact episode) sourceId edge →
      edge.invalidAt = none → edge.targetEntityId = targetId ∨
        NameDiffers unicode before (batch.fact episode) edge → IsClosed middle edge)
    {newEdge : Edge} (stored : FactStored newEdge middle after)
    (opened : newEdge.invalidAt = none)
    (provenance : Provenance unicode batch middle episode newEdge) :
    Replaces unicode batch episode before after newEdge.id newEdge := by
  have middleKnown := known.closing closing
  have absent : before.docs (.edge newEdge.id) = none := by
    rcases closing.edges newEdge.id with same | ⟨_, _, _, _, _, _, impossible⟩
    · exact same.symm.trans stored.unused
    · rw [stored.unused] at impossible
      cases impossible
  have seen {topic : Episode} {id : Uuid} {edge : Edge}
      (remains : OpenOn unicode batch after topic id edge) :
      id = newEdge.id ∧ SameTopic unicode batch topic episode ∨
        OpenOn unicode batch middle topic id edge := by
    rcases (stored.openOn_iff opened).mp remains with ⟨own, _, onTopic⟩ | old
    · exact .inl ⟨own, (provenance.onTopic_iff middleKnown.named).mp onTopic⟩
    · exact .inr old
  have kept {topic : Episode} {id : Uuid} {edge : Edge}
      (remains : OpenOn unicode batch middle topic id edge) :
      OpenOn unicode batch after topic id edge :=
    (stored.openOn_iff opened).mpr (.inr remains)
  refine ⟨absent, (stored.openOn_iff opened).mpr (.inl ⟨rfl, rfl, provenance.onTopic⟩),
    provenance.stated, ?_, ?_, ?_⟩
  · intro topic different id edge
    constructor
    · intro remains
      rcases seen remains with ⟨_, same⟩ | old
      · exact absurd same different
      · exact closing.openOn.1 old
    · intro remains
      refine kept (closing.openOn.2 remains fun superseded => different ?_)
      obtain ⟨origin, _, comes⟩ := known.edges id edge remains.1
      have here := known.onTopic_of_superseded member source superseded
      have one := (comes.onTopic_iff known.named).mp here
      have two := (comes.onTopic_iff known.named).mp remains.2.2
      exact two.trans one.symm
  · intro topic id edge remains
    rcases seen remains with ⟨own, _⟩ | old
    · exact .inl own
    · have earlier := closing.openOn.1 old
      refine .inr ⟨earlier, fun same inView => ?_⟩
      have onTopic : OnTopic unicode batch before episode edge := by
        obtain ⟨origin, _, comes⟩ := known.edges id edge earlier.1
        have here := (comes.onTopic_iff known.named).mp earlier.2.2
        exact (comes.onTopic_iff known.named).mpr (same.symm.trans here)
      have entity : edge.sourceEntityId = sourceId :=
        Option.some.inj (onTopic.2.2.symm.trans source)
      have superseded : Superseded before episode (batch.fact episode) sourceId edge :=
        ⟨entity ▸ inView, onTopic.2.1, onTopic.1.trans (batch.owned episode member).symm⟩
      have closed := closes edge superseded earlier.2.1
        (known.target_or_nameDiffers target earlier.1)
      exact closed.not_openOn (known.filed id edge earlier.1).1 old
  · intro topic id edge remains hidden
    have still : OpenOn unicode batch middle topic id edge := by
      refine closing.openOn.2 remains fun superseded => hidden ?_
      rw [known.source_of_mem_outgoing superseded.1]
      exact superseded.1
    refine ⟨kept still, fun inView => hidden ?_⟩
    exact closing.mem_outgoing (stored.mem_outgoing middleKnown still.1 inView) still.2.1

end Facts

/-- What an attempt changes: nothing that is open, or it replaces what is open on its topic. -/
def Changes (unicode : Unicode) (batch : Batch) (episode : Episode)
    (before after : MemoryContents) : Prop :=
  SameEdges before after ∧ (∀ topic id edge,
      OpenOn unicode batch after topic id edge ↔ OpenOn unicode batch before topic id edge) ∨
    ∃ newId newEdge, Replaces unicode batch episode before after newId newEdge

theorem Replaces.around {first last : MemoryContents} {newId : Uuid} {newEdge : Edge}
    (replaces : Replaces unicode batch episode before after newId newEdge)
    (sameBefore : SameEdges first before) (sameAfter : SameEdges after last)
    (openBefore : ∀ topic id edge,
      OpenOn unicode batch before topic id edge ↔ OpenOn unicode batch first topic id edge)
    (openAfter : ∀ topic id edge,
      OpenOn unicode batch last topic id edge ↔ OpenOn unicode batch after topic id edge) :
    Replaces unicode batch episode first last newId newEdge := by
  refine ⟨(sameBefore.docs newId).symm.trans replaces.unused,
    (openAfter _ _ _).mpr replaces.opened, replaces.stated, ?_, ?_, ?_⟩
  · intro topic different id edge
    rw [openAfter, ← openBefore]
    exact replaces.elsewhere topic different id edge
  · intro topic id edge remains
    rw [← openBefore, ← sameBefore.outgoing]
    exact replaces.here topic id edge ((openAfter _ _ _).mp remains)
  · intro topic id edge remains hidden
    rw [openAfter, sameAfter.outgoing]
    rw [← openBefore] at remains
    rw [← sameBefore.outgoing] at hidden
    exact replaces.spared topic id edge remains hidden

theorem Known.attempted (known : Known unicode batch before) (member : episode ∈ batch.episodes)
    (attempted : Attempted unicode batch episode before after) :
    Known unicode batch after ∧ Changes unicode batch episode before after := by
  obtain ⟨resolved, same, named, grown, described⟩ := attempted
  have resolvedKnown := known.carried same named grown
  have openResolved := known.openOn_carried same named grown
  rcases described with rfl | ⟨processed, sourceId, targetId, source, target,
    ⟨middle, closing, closes, added⟩, edges, entries⟩
  · exact ⟨resolvedKnown, .inl ⟨same, openResolved⟩⟩
  · rcases added with ⟨valid, id, now, stored⟩ | ⟨invalid, unchanged⟩
    · have provenance := (provenance_factEdge member source target valid id now).grown
        closing.sameNames.grown
      have processedKnown := (resolvedKnown.closing closing).factStored stored member provenance
      have finalNamed := entries.named processedKnown.named
      have openFinal := processedKnown.openOn_carried edges finalNamed entries.grown
      have replaces := (resolvedKnown.replaces member source target closing closes stored rfl
        provenance).around same edges openResolved openFinal
      exact ⟨processedKnown.carried edges finalNamed entries.grown, .inr ⟨_, _, replaces⟩⟩
    · have untouched := (resolvedKnown.sameEdges_of_invalid invalid closing unchanged).trans edges
      have names := (closing.sameNames.trans unchanged.sameNames).trans entries
      have finalNamed := names.named named
      refine ⟨resolvedKnown.carried untouched finalNamed names.grown,
        .inl ⟨same.trans untouched, fun topic id edge => ?_⟩⟩
      rw [resolvedKnown.openOn_carried untouched finalNamed names.grown]
      exact openResolved topic id edge

theorem SameEdges.not_stores (same : SameEdges before after) : ¬ Stores before after := by
  rintro ⟨id, absent, present⟩
  rw [same.docs, absent] at present
  cases present

theorem Replaces.stores {newId : Uuid} {newEdge : Edge}
    (replaces : Replaces unicode batch episode before after newId newEdge) :
    Stores before after :=
  ⟨newId, replaces.unused, by rw [replaces.opened.1]; rfl⟩

theorem SameTopic.openOn {id : Uuid} {edge : Edge} (same : SameTopic unicode batch topic episode)
    (remains : OpenOn unicode batch contents episode id edge) :
    OpenOn unicode batch contents topic id edge := by
  obtain ⟨found, opened, user, label, source⟩ := remains
  refine ⟨found, opened, user, label.trans same.2.symm, ?_⟩
  rw [same.1]
  exact source

/-! ## Histories -/

theorem attempted_attemptStep (known : Known unicode batch contents)
    (attempt : Attempt unicode batch) :
    Attempted unicode batch attempt.episode contents
      (attemptStep unicode fallback batch contents attempt) :=
  (does_attempt attempt.retryCount attempt.lastError attempt.member known.filed
    known.named).eval attempt.calm

theorem known_contentsAfter (history : History unicode batch) :
    Known unicode batch (contentsAfter unicode fallback batch history) := by
  induction history with
  | nil => exact known_empty
  | cons attempt earlier ih =>
    exact (ih.attempted attempt.member (attempted_attemptStep ih attempt)).1

theorem changes_contentsAfter (attempt : Attempt unicode batch) (earlier : History unicode batch) :
    Changes unicode batch attempt.episode
      (contentsAfter unicode fallback batch earlier)
      (contentsAfter unicode fallback batch (attempt :: earlier)) := by
  have known : Known unicode batch
      (contentsAfter unicode fallback batch earlier) :=
    known_contentsAfter earlier
  exact (known.attempted attempt.member (attempted_attemptStep known attempt)).2

section Outcome

variable (fallback)

/-- What a history leaves open on a topic: nothing; or only the edge that was stored last; or that
and an edge which was out of view when another fact was stored. -/
inductive Outcome (topic : Episode) (history : History unicode batch) : Prop
  | nothing
      (never : ∀ episode,
        ¬ LastStored unicode fallback batch topic history episode)
      (inView : AlwaysInView unicode fallback batch topic history)
      (closed : ∀ id edge, ¬ OpenOn unicode batch
        (contentsAfter unicode fallback batch history) topic id edge)
  | sole (episode : Episode) (id : Uuid) (edge : Edge) (member : episode ∈ batch.episodes)
      (last : LastStored unicode fallback batch topic history episode)
      (inView : AlwaysInView unicode fallback batch topic history)
      (opened : OpenOn unicode batch
        (contentsAfter unicode fallback batch history) topic id edge)
      (stated : States batch episode edge)
      (unique : ∀ otherId other, OpenOn unicode batch
        (contentsAfter unicode fallback batch history) topic otherId other →
          otherId = id)
  | crowded (id hiddenId : Uuid) (edge hidden : Edge)
      (outOfView : ¬ AlwaysInView unicode fallback batch topic history)
      (opened : OpenOn unicode batch
        (contentsAfter unicode fallback batch history) topic id edge)
      (also : OpenOn unicode batch
        (contentsAfter unicode fallback batch history) topic hiddenId hidden)
      (unseen : hidden ∉ outgoing
        (contentsAfter unicode fallback batch history) hidden.sourceEntityId)
      (different : hiddenId ≠ id)

variable {fallback}

theorem Outcome.without {attempt : Attempt unicode batch} {earlier : History unicode batch}
    (outcome : Outcome fallback topic earlier)
    (without : ¬ StoresOn unicode fallback batch topic attempt earlier)
    (same : ∀ id edge, OpenOn unicode batch
        (contentsAfter unicode fallback batch (attempt :: earlier)) topic id
          edge ↔
      OpenOn unicode batch (contentsAfter unicode fallback batch earlier) topic
        id edge)
    (unseen : ∀ id edge, OpenOn unicode batch
        (contentsAfter unicode fallback batch earlier) topic id edge →
      edge ∉ outgoing (contentsAfter unicode fallback batch earlier)
        edge.sourceEntityId →
      edge ∉ outgoing (contentsAfter unicode fallback batch
        (attempt :: earlier)) edge.sourceEntityId) :
    Outcome fallback topic (attempt :: earlier) := by
  cases outcome with
  | nothing never inView closed =>
    refine .nothing ?_ ⟨fun stores => absurd stores without, inView⟩ ?_
    · intro episode last
      cases last with
      | here stores => exact without stores
      | before _ last => exact never _ last
    · intro id edge remains
      exact closed id edge ((same id edge).mp remains)
  | sole episode id edge member last inView opened stated unique =>
    refine .sole episode id edge member (.before without last)
      ⟨fun stores => absurd stores without, inView⟩ ((same id edge).mpr opened) stated ?_
    intro otherId other remains
    exact unique otherId other ((same otherId other).mp remains)
  | crowded id hiddenId edge hidden outOfView opened also hiddenUnseen different =>
    refine .crowded id hiddenId edge hidden (fun always => outOfView always.2)
      ((same id edge).mpr opened) ((same hiddenId hidden).mpr also)
      (unseen hiddenId hidden also hiddenUnseen) different

/-- An attempt that stores a fact on the topic leaves this fact alone on it, or with what was out
of view. -/
theorem Outcome.storing {attempt : Attempt unicode batch} {earlier : History unicode batch}
    (outcome : Outcome fallback topic earlier)
    (stores : StoresOn unicode fallback batch topic attempt earlier)
    {newId : Uuid} {newEdge : Edge}
    (replaces : Replaces unicode batch attempt.episode
      (contentsAfter unicode fallback batch earlier)
      (contentsAfter unicode fallback batch (attempt :: earlier)) newId
        newEdge) :
    Outcome fallback topic (attempt :: earlier) := by
  have opened := stores.1.openOn replaces.opened
  by_cases inView : InView unicode batch
      (contentsAfter unicode fallback batch earlier) topic
  · have always : AlwaysInView unicode fallback batch topic earlier := by
      cases outcome with
      | nothing _ always _ => exact always
      | sole _ _ _ _ _ always _ _ _ => exact always
      | crowded _ hiddenId _ hidden _ _ also unseen _ =>
        exact absurd (inView hiddenId hidden also) unseen
    refine .sole attempt.episode newId newEdge attempt.member (.here stores)
      ⟨fun _ => inView, always⟩ opened replaces.stated ?_
    intro otherId other remains
    rcases replaces.here topic otherId other remains with own | ⟨old, unseen⟩
    · exact own
    · exact absurd (inView otherId other old) (unseen stores.1)
  · have hidden : ∃ id edge, OpenOn unicode batch
        (contentsAfter unicode fallback batch earlier) topic id edge ∧
          edge ∉ outgoing (contentsAfter unicode fallback batch earlier)
            edge.sourceEntityId := by
      unfold InView at inView
      push Not at inView
      exact inView
    obtain ⟨hiddenId, hidden, old, unseen⟩ := hidden
    obtain ⟨also, stillUnseen⟩ := replaces.spared topic hiddenId hidden old unseen
    refine .crowded newId hiddenId newEdge hidden (fun always => inView (always.1 stores)) opened
      also stillUnseen ?_
    rintro rfl
    have absent := replaces.unused
    rw [old.1] at absent
    cases absent

theorem outcome (topic : Episode) (history : History unicode batch) :
    Outcome fallback topic history := by
  induction history with
  | nil =>
    refine .nothing ?_ trivial ?_
    · intro episode last
      cases last
    · rintro id edge ⟨impossible, _⟩
      cases impossible
  | cons attempt earlier ih =>
    have changes : Changes unicode batch attempt.episode
        (contentsAfter unicode fallback batch earlier) _ :=
      changes_contentsAfter attempt earlier
    rcases changes with ⟨same, openSame⟩ | ⟨newId, newEdge, replaces⟩
    · refine ih.without (fun stores => same.not_stores stores.2) (openSame topic) ?_
      intro id edge _ unseen
      rw [same.outgoing]
      exact unseen
    · by_cases sameTopic : SameTopic unicode batch topic attempt.episode
      · exact ih.storing ⟨sameTopic, replaces.stores⟩ replaces
      · refine ih.without (fun stores => sameTopic stores.1)
          (replaces.elsewhere topic sameTopic) ?_
        intro id edge old unseen
        exact (replaces.spared topic id edge old unseen).2

end Outcome

theorem LastStored.unique {history : History unicode batch} {rival : Episode}
    (one : LastStored unicode fallback batch topic history episode)
    (two : LastStored unicode fallback batch topic history rival) :
    episode = rival := by
  induction one with
  | here stores =>
    cases two with
    | here _ => rfl
    | before without _ => exact absurd stores without
  | before without _ ih =>
    cases two with
    | here stores => exact absurd stores without
    | before _ last => exact ih last

theorem eq_of_id_eq {rival : Episode} (member : episode ∈ batch.episodes)
    (rivalMember : rival ∈ batch.episodes) (same : episode.id = rival.id) : episode = rival :=
  List.inj_on_of_nodup_map batch.distinctIds member rivalMember same

theorem currentIs_iff (history : History unicode batch) (member : episode ∈ batch.episodes) :
    CurrentIs unicode batch (contentsAfter unicode fallback batch history) topic
        episode ↔
      AlwaysInView unicode fallback batch topic history ∧
        LastStored unicode fallback batch topic history episode := by
  have known : Outcome fallback topic history := outcome topic history
  constructor
  · rintro ⟨id, edge, opened, stated, unique⟩
    cases known with
    | nothing _ _ closed => exact absurd opened (closed id edge)
    | sole last lastId lastEdge lastMember wasLast inView remains lastStated _ =>
      obtain rfl := unique lastId lastEdge remains
      obtain rfl : edge = lastEdge := Option.some.inj (opened.1.symm.trans remains.1)
      obtain rfl := eq_of_id_eq member lastMember (stated.1.symm.trans lastStated.1)
      exact ⟨inView, wasLast⟩
    | crowded first second _ _ _ remains also _ different =>
      exact absurd ((unique second _ also).trans (unique first _ remains).symm) different
  · rintro ⟨inView, wasLast⟩
    cases known with
    | nothing never _ _ => exact absurd wasLast (never episode)
    | sole last id edge _ stored _ opened stated unique =>
      obtain rfl := wasLast.unique stored
      exact ⟨id, edge, opened, stated, unique⟩
    | crowded _ _ _ _ outOfView _ _ _ _ => exact absurd inView outOfView

section Orders

variable (unicode fallback batch) (first second : History unicode batch)

/-- After both histories the newest fact on each topic is the current one. -/
def NewestIsCurrent : Prop :=
  ∀ topic ∈ batch.episodes, ∃ episode ∈ batch.episodes, Newest unicode batch topic episode ∧
    CurrentIs unicode batch (contentsAfter unicode fallback batch first) topic
      episode ∧
    CurrentIs unicode batch (contentsAfter unicode fallback batch second) topic
      episode

/-- In both histories the newest fact on each topic was stored last, and what was superseded on the
way was in view. -/
def NewestIsLast : Prop :=
  ∀ topic ∈ batch.episodes,
    AlwaysInView unicode fallback batch topic first ∧
      AlwaysInView unicode fallback batch topic second ∧
      ∃ episode ∈ batch.episodes, Newest unicode batch topic episode ∧
        LastStored unicode fallback batch topic first episode ∧
        LastStored unicode fallback batch topic second episode

/-- The episodes of the batch are marked as completed. -/
def AllCompleted (history : History unicode batch) : Prop :=
  ∀ episode ∈ batch.episodes, ∃ record : Episode,
    (contentsAfter unicode fallback batch history).docs (.episode episode.id) =
      some record ∧ record.processingStatus = .completed

end Orders
end Attempts

/-! ## A retried episode overrides a newer one -/

/-- Letters are not changed. -/
def plainUnicode : Unicode := ⟨id, Char.isAlphanum⟩

def noFallback : String → Option ExtractionResult := fun _ => none

/-- Two messages of the instants 10 and 20. -/
def productBatch : Batch where
  userId := 7
  episodes := [productEpisode 1 "Adidas" 10, productEpisode 2 "Nike" 20]
  fact episode :=
    { sourceName := "Kendra", targetName := episode.content, label := "loves"
      fact := "Kendra loves " ++ episode.content, confidence := 1, validAt := none
      classification := .internal, temporalScope := none }
  owned := by decide
  undated := by decide
  distinctIds := by decide
  distinctTimes := by decide

/-- An environment in which the language model does not answer. -/
def silentAt (now : DateTime) : MemoryInput :=
  { failure := none, now, id := 1, answer := fun _ => .error (.llmProvider "openai" "timeout") }

theorem calm_calmAt (now : DateTime) (episode : Episode) :
    CalmInput plainUnicode productBatch episode (calmAt now) := by
  refine ⟨rfl, fun hints extraction answered => ?_⟩
  obtain rfl := Except.ok.inj answered
  refine ⟨rfl, ⟨_, List.mem_cons_self, rfl⟩, ⟨_, List.mem_cons_of_mem _ List.mem_cons_self, rfl⟩⟩

theorem calm_silentAt (now : DateTime) (episode : Episode) :
    CalmInput plainUnicode productBatch episode (silentAt now) :=
  ⟨rfl, fun _ _ answered => nomatch answered⟩

/-- The first message is processed at an instant. -/
def adidasAttempt (retryCount : Nat) (lastError : Option String) (now : DateTime) :
    Attempt plainUnicode productBatch where
  episode := productEpisode 1 "Adidas" 10
  retryCount
  lastError
  inputs _ := calmAt now
  member := by decide
  calm _ := calm_calmAt now _

/-- The first message cannot be processed at an instant. -/
def failedAttempt (now : DateTime) : Attempt plainUnicode productBatch where
  episode := productEpisode 1 "Adidas" 10
  retryCount := 0
  lastError := none
  inputs _ := silentAt now
  member := by decide
  calm _ := calm_silentAt now _

/-- The second message is processed at an instant. -/
def nikeAttempt (now : DateTime) : Attempt plainUnicode productBatch where
  episode := productEpisode 2 "Nike" 20
  retryCount := 0
  lastError := none
  inputs _ := calmAt now
  member := by decide
  calm _ := calm_calmAt now _

end Ingest
end Mnemo
