import Mnemo.Ingest.Effects

/-!
# Resolution of names

In an environment without faults the index of entity names leads to entities of these names, it
only grows, and the names of an extraction are resolved as the index has them.
-/

namespace Mnemo
namespace Ingest

open Memory
open Program (Ensures)
open Database (Faulty)

variable {unicode : Unicode} {userId : Uuid} {allowed : MemoryInput → Prop}
  {contents : MemoryContents}

/-- What the name index of a user holds under a lower-case name. -/
def nameEntry (contents : MemoryContents) (userId : Uuid) (name : String) : Option Uuid :=
  contents.docs (.entityName userId name)

/-- The name index of a user leads to entities of these names. -/
def Named (unicode : Unicode) (userId : Uuid) (contents : MemoryContents) : Prop :=
  ∀ name id, nameEntry contents userId name = some id → id ∈ contents.issued ∧
    ∃ entity : Entity, contents.docs (.entity id) = some entity ∧ entity.id = id ∧
      unicode.toLowercase entity.name = name

/-- The name index of a user has only grown. -/
def Grown (userId : Uuid) (before after : MemoryContents) : Prop :=
  ∀ name id, nameEntry before userId name = some id → nameEntry after userId name = some id

theorem Named.injective (named : Named unicode userId contents) {first second : String} {id : Uuid}
    (one : nameEntry contents userId first = some id)
    (two : nameEntry contents userId second = some id) : first = second := by
  obtain ⟨_, entity, found, _, lower⟩ := named first id one
  obtain ⟨_, other, foundOther, _, lowerOther⟩ := named second id two
  obtain rfl : entity = other := Option.some.inj (found.symm.trans foundOther)
  exact lower.symm.trans lowerOther

theorem Grown.refl (contents : MemoryContents) : Grown userId contents contents :=
  fun _ _ found => found

theorem Grown.trans {first second third : MemoryContents} (one : Grown userId first second)
    (two : Grown userId second third) : Grown userId first third :=
  fun name id found => two name id (one name id found)

/-- The name index and the entities have not changed. -/
structure SameNames (before after : MemoryContents) : Prop where
  entries : ∀ userId name, nameEntry after userId name = nameEntry before userId name
  entities : ∀ id, after.docs (.entity id) = before.docs (.entity id)
  issued : before.issued ⊆ after.issued

namespace SameNames

variable {before after : MemoryContents}

theorem refl (contents : MemoryContents) : SameNames contents contents :=
  ⟨fun _ _ => rfl, fun _ => rfl, fun _ drawn => drawn⟩

theorem trans {middle : MemoryContents} (one : SameNames before middle)
    (two : SameNames middle after) : SameNames before after :=
  ⟨fun userId name => (two.entries userId name).trans (one.entries userId name),
    fun id => (two.entities id).trans (one.entities id),
    fun _ drawn => two.issued (one.issued drawn)⟩

theorem of_others (others : ∀ key, (∀ id, key ≠ .edge id) → after.docs key = before.docs key)
    (issued : before.issued ⊆ after.issued) : SameNames before after :=
  ⟨fun userId name => others (.entityName userId name) fun _ => by simp,
    fun id => others (.entity id) fun _ => by simp, issued⟩

theorem grown (same : SameNames before after) : Grown userId before after :=
  fun name _ found => (same.entries userId name).trans found

theorem named (same : SameNames before after) (named : Named unicode userId before) :
    Named unicode userId after := by
  intro name id entry
  rw [same.entries] at entry
  obtain ⟨drawn, entity, found, own, lower⟩ := named name id entry
  exact ⟨same.issued drawn, entity, (same.entities id).trans found, own, lower⟩

end SameNames

theorem Closing.sameNames {kind : Edge → Prop} {before after : MemoryContents}
    (closing : Closing kind before after) : SameNames before after :=
  .of_others closing.others fun _ drawn => closing.issued ▸ drawn

theorem FactStored.sameNames {edge : Edge} {before after : MemoryContents}
    (stored : FactStored edge before after) : SameNames before after := by
  refine .of_others (fun key other => stored.others key (other _)) fun _ drawn => ?_
  rw [stored.issued]
  exact List.mem_cons_of_mem _ drawn

theorem SameStore.sameNames {before after : MemoryContents} (same : SameStore before after) :
    SameNames before after :=
  .of_others (fun _ _ => by rw [same.docs]) same.issued

theorem Named.putEntity (named : Named unicode userId contents) {entity updated : Entity}
    (found : contents.docs (.entity entity.id) = some entity) (sameId : updated.id = entity.id)
    (sameName : updated.name = entity.name) :
    Named unicode userId (contents.put (.entity updated.id) updated) := by
  intro name id entry
  have before : nameEntry contents userId name = some id := by
    unfold nameEntry at entry ⊢
    rwa [Database.Contents.docs_put_of_ne _ (by simp)] at entry
  obtain ⟨drawn, other, foundOther, own, lower⟩ := named name id before
  refine ⟨drawn, ?_⟩
  rcases eq_or_ne id updated.id with rfl | different
  · refine ⟨updated, Database.Contents.docs_put_self _ _ _, rfl, ?_⟩
    rw [sameId] at foundOther
    obtain rfl : entity = other := Option.some.inj (found.symm.trans foundOther)
    rw [sameName, lower]
  · refine ⟨other, ?_, own, lower⟩
    rw [Database.Contents.docs_put_of_ne _ (by simpa using different)]
    exact foundOther

/-- The contents after a new entity has been stored, indexed and entered by its name. -/
def withEntity (unicode : Unicode) (contents : MemoryContents) (entity : Entity) :
    MemoryContents :=
  (((contents.draw entity.id).put (.entity entity.id) entity).withSet
    (.userEntities entity.userId) ((contents.sets (.userEntities entity.userId)).insert entity.id
      (timestampMillis entity.createdAt))).put
    (.entityName entity.userId (unicode.toLowercase entity.name)) entity.id

theorem nameEntry_withEntity_self (entity : Entity) :
    nameEntry (withEntity unicode contents entity) entity.userId
      (unicode.toLowercase entity.name) = some entity.id :=
  Database.Contents.docs_put_self _ _ _

theorem nameEntry_withEntity_of_ne {entity : Entity} {name : String}
    (different : name ≠ unicode.toLowercase entity.name) :
    nameEntry (withEntity unicode contents entity) userId name =
      nameEntry contents userId name := by
  unfold nameEntry withEntity
  rw [Database.Contents.docs_put_of_ne _ (by simp [different]), Database.Contents.docs_withSet,
    Database.Contents.docs_put_of_ne _ (by simp), Database.Contents.docs_draw]

theorem entity_withEntity {entity : Entity} (id : Uuid) :
    (withEntity unicode contents entity).docs (.entity id) =
      ((contents.draw entity.id).put (.entity entity.id) entity).docs (.entity id) := by
  unfold withEntity
  rw [Database.Contents.docs_put_of_ne _ (by simp), Database.Contents.docs_withSet]

theorem Named.withEntity (named : Named unicode userId contents) {entity : Entity}
    (fresh : entity.id ∉ contents.issued) (user : entity.userId = userId) :
    Named unicode userId (Ingest.withEntity unicode contents entity) := by
  subst user
  intro name id entry
  rcases eq_or_ne name (unicode.toLowercase entity.name) with rfl | different
  · obtain rfl := Option.some.inj ((nameEntry_withEntity_self entity).symm.trans entry)
    refine ⟨List.mem_cons_self, entity, ?_, rfl, rfl⟩
    rw [entity_withEntity]
    exact Database.Contents.docs_put_self _ _ _
  · rw [nameEntry_withEntity_of_ne different] at entry
    obtain ⟨drawn, other, found, own, lower⟩ := named name id entry
    refine ⟨List.mem_cons_of_mem _ drawn, other, ?_, own, lower⟩
    have old : id ≠ entity.id := by
      rintro rfl
      exact fresh drawn
    rw [entity_withEntity, Database.Contents.docs_put_of_ne _ (by simpa using old)]
    exact found

theorem grown_withEntity {entity : Entity} (user : entity.userId = userId)
    (absent : nameEntry contents userId (unicode.toLowercase entity.name) = none) :
    Grown userId contents (withEntity unicode contents entity) := by
  intro name id entry
  rcases eq_or_ne name (unicode.toLowercase entity.name) with rfl | different
  · rw [absent] at entry
    cases entry
  · rw [nameEntry_withEntity_of_ne different]
    exact entry

/-! ## Programs -/

theorem reads_findEntityByName (named : Named unicode userId contents) (name : String) :
    (∃ entity : Entity, Reads allowed (some entity) (findEntityByName unicode userId name) contents ∧
      nameEntry contents userId (unicode.toLowercase name) = some entity.id ∧
      contents.docs (.entity entity.id) = some entity ∧
      unicode.toLowercase entity.name = unicode.toLowercase name) ∨
    Reads allowed none (findEntityByName unicode userId name) contents ∧
      nameEntry contents userId (unicode.toLowercase name) = none := by
  have first : Reads allowed (nameEntry contents userId (unicode.toLowercase name))
      (Redis.get (.entityName userId (unicode.toLowercase name))) contents :=
    Database.readsAs_get (MemoryKey.entityName userId (unicode.toLowercase name)) trivial
  cases entry : nameEntry contents userId (unicode.toLowercase name) with
  | none =>
    rw [entry] at first
    exact .inr ⟨first.andThen (.done _), rfl⟩
  | some id =>
    obtain ⟨_, entity, found, rfl, lower⟩ := named _ id entry
    have second : Reads allowed (contents.docs (.entity entity.id) : Option Entity)
        (Redis.get (.entity entity.id)) contents :=
      Database.readsAs_get (MemoryKey.entity entity.id) trivial
    rw [entry] at first
    rw [found] at second
    have required : Reads allowed entity (getEntity entity.id) contents :=
      second.andThen (.done _)
    exact .inl ⟨entity, first.andThen (required.andThen (.done _)), rfl, found, lower⟩

theorem does_withSummary (entity : Entity) (summary : Option String) :
    Does allowed (fun outcome final => final = contents ∧ ∃ updated, outcome = .ok updated ∧
        updated.id = entity.id ∧ updated.name = entity.name)
      (withSummary entity summary) contents := by
  cases summary with
  | none => exact .done ⟨rfl, _, rfl, rfl, rfl⟩
  | some text => exact Database.bind_clock trivial fun now => .done ⟨rfl, _, rfl, rfl, rfl⟩

theorem does_createEntity (sound : ¬ Faulty allowed) (entity : Entity) :
    Does allowed (fun outcome final => outcome = .ok entity ∧
        final = withEntity unicode contents entity)
      (createEntity unicode entity) (contents.draw entity.id) := by
  refine Database.bind_set trivial ?_ fun _ faulty => absurd faulty sound
  refine Database.bind_zadd trivial ?_ fun _ faulty => absurd faulty sound
  refine Database.bind_set trivial ?_ fun _ faulty => absurd faulty sound
  exact .done ⟨rfl, rfl⟩

/-- An extracted entity is resolved to what the name index then holds. -/
theorem does_resolveEntity (sound : ¬ Faulty allowed) (named : Named unicode userId contents)
    {episode : Episode} (user : episode.userId = userId) (extracted : ExtractedEntity) :
    Does allowed (fun outcome final => Named unicode userId final ∧ Grown userId contents final ∧
        ∀ id isNew, outcome = .ok (id, isNew) →
          nameEntry final userId (unicode.toLowercase extracted.name) = some id)
      (resolveEntity unicode episode extracted) contents := by
  subst user
  rcases reads_findEntityByName named extracted.name with
    ⟨entity, reads, entry, found, lower⟩ | ⟨reads, absent⟩
  · refine reads.bind ?_ fun _ faulty => absurd faulty sound
    refine Database.bind_clock trivial fun now => ?_
    refine (does_withSummary _ _).bind ?_ ?_
    · rintro updated middle ⟨rfl, _, same, sameId, sameName⟩
      obtain rfl := Except.ok.inj same
      have kept := named.putEntity found sameId sameName
      have entries (name : String) :
          nameEntry (middle.put (.entity updated.id) updated) episode.userId name =
            nameEntry middle episode.userId name :=
        Database.Contents.docs_put_of_ne _ (by simp) _
      refine Database.bind_set trivial ?_ fun _ faulty => absurd faulty sound
      refine .done ⟨kept, fun name id held => (entries name).trans held, ?_⟩
      rintro id isNew outcome
      obtain ⟨rfl, _⟩ := Prod.mk.inj (Except.ok.inj outcome)
      rw [entries, entry, sameId]
      rfl
    · rintro error middle ⟨_, _, impossible, _⟩
      cases impossible
  · refine reads.bind ?_ fun _ faulty => absurd faulty sound
    refine Database.bind_clock trivial fun now => ?_
    refine Database.bind_freshId trivial fun id fresh => ?_
    refine Ensures.bind (does_createEntity sound
      (Entity.fromExtraction extracted episode.userId id now)) ?_ ?_
    · rintro created middle ⟨same, rfl⟩
      obtain rfl := Except.ok.inj same
      have kept : Named unicode episode.userId (withEntity unicode contents
          (Entity.fromExtraction extracted episode.userId id now)) := named.withEntity fresh rfl
      have grown : Grown episode.userId contents (withEntity unicode contents
          (Entity.fromExtraction extracted episode.userId id now)) := grown_withEntity rfl absent
      refine Database.bind_service trivial (fun _ => ?_)
        fun _ => ⟨kept, grown, (fun _ _ impossible => nomatch impossible)⟩
      refine Database.bind_service trivial (fun _ => ?_)
        fun _ => ⟨kept, grown, (fun _ _ impossible => nomatch impossible)⟩
      refine .done ⟨kept, grown, fun other isNew outcome => ?_⟩
      obtain ⟨rfl, _⟩ := Prod.mk.inj (Except.ok.inj outcome)
      exact nameEntry_withEntity_self _
    · rintro error middle ⟨impossible, _⟩
      cases impossible

/-- The map of names agrees with the name index. -/
def Agrees (contents : MemoryContents) (userId : Uuid) (names : NameMap) : Prop :=
  ∀ name id, names.lookup name = some id → nameEntry contents userId name = some id

theorem does_resolveEntities (sound : ¬ Faulty allowed) (named : Named unicode userId contents)
    {episode : Episode} (user : episode.userId = userId) (extracted : List ExtractedEntity)
    {names : NameMap} (agrees : Agrees contents userId names) (newIds : List Uuid) :
    Does allowed (fun outcome final => Named unicode userId final ∧ Grown userId contents final ∧
        ∀ result, outcome = .ok result → Agrees final userId result.1 ∧
          (∀ name, (names.lookup name).isSome = true → (result.1.lookup name).isSome = true) ∧
          ∀ entity ∈ extracted, (result.1.lookup (unicode.toLowercase entity.name)).isSome = true)
      (resolveEntities unicode episode extracted names newIds) contents := by
  induction extracted generalizing contents names newIds with
  | nil =>
    refine .done ⟨named, .refl _, fun result same => ?_⟩
    obtain rfl := Except.ok.inj same
    exact ⟨agrees, fun _ held => held, (fun _ member => nomatch member)⟩
  | cons head rest ih =>
    refine (does_resolveEntity sound named user head).bind ?_ ?_
    · rintro ⟨id, isNew⟩ middle ⟨kept, grown, resolved⟩
      have entry := resolved id isNew rfl
      have extended : Agrees middle userId ((unicode.toLowercase head.name, id) :: names) := by
        intro name other held
        rw [List.lookup_cons] at held
        split at held
        · rename_i same
          rw [beq_iff_eq] at same
          rw [same, entry, held]
        · exact grown name other (agrees name other held)
      refine (ih kept extended _).mono ?_
      rintro outcome final ⟨finallyNamed, further, results⟩
      refine ⟨finallyNamed, grown.trans further, fun result same => ?_⟩
      obtain ⟨final_agrees, keeps, covers⟩ := results result same
      have head_covered :
          (((unicode.toLowercase head.name, id) :: names).lookup
            (unicode.toLowercase head.name)).isSome = true := by
        simp
      refine ⟨final_agrees, fun name held => keeps name ?_, fun entity member => ?_⟩
      · rw [List.lookup_cons]
        split
        · rfl
        · exact held
      · rcases List.mem_cons.mp member with rfl | later
        · exact keeps _ head_covered
        · exact covers entity later
    · rintro error middle ⟨kept, grown, _⟩
      exact ⟨kept, grown, (fun _ impossible => nomatch impossible)⟩

end Ingest
end Mnemo
