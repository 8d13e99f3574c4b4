import Mathlib
import Mnemo.Lib.SecondaryIndex
import Mnemo.Lib.Sequential
import Mnemo.Memory.GraphStore

/-!
# The name index of entities

`create_entity`, `update_entity` and `delete_entity` keep the index of names by hand.  For each call,
with the commands of the store that fail in it, it is told when names are still looked up rightly
afterwards.
-/

namespace Mnemo
namespace Memory

open Database (exec later eval_of_success eval_of_failure Fails extent)
open SecondaryIndex (Right Closed Storable Unled Sole)

/-- A lower-case name. -/
abbrev LowerName (unicode : Unicode) : Type :=
  { name : String // ∃ original, unicode.toLowercase original = name }

variable (unicode : Unicode)

/-- The lower-case form of a name. -/
def lowerName (name : String) : LowerName unicode := ⟨unicode.toLowercase name, name, rfl⟩

/-- The user and the lower-case name of an entity. -/
def nameOfEntity (entity : Entity) : Option (Uuid × LowerName unicode) :=
  some (entity.userId, lowerName unicode entity.name)

/-- The entities and their name index. -/
def entityIndex (contents : MemoryContents) :
    SecondaryIndex Uuid (Uuid × LowerName unicode) Entity where
  records id := contents.docs (.entity id)
  entries name := contents.docs (.entityName name.1 name.2)

/-! ## Calls -/

/-- A call that changes entities. -/
inductive EntityCall where
  | create (entity : Entity)
  | update (entity : Entity)
  | delete (id : Uuid)

/-- What a call runs. -/
def EntityCall.program : EntityCall → MemoryProgram Unit
  | .create entity => do
      let _ ← createEntity unicode entity
      return ()
  | .update entity => updateEntity entity
  | .delete id => deleteEntity unicode id

/-- One call, with what the environment decides at its commands. -/
def entityStep (contents : MemoryContents) (event : EntityCall × (Nat → MemoryInput)) :
    MemoryContents :=
  (Program.eval exec (event.1.program unicode) event.2 contents).2

/-- An entity of the user is stored that has the name. -/
def HasName (contents : MemoryContents) (userId : Uuid) (name : String) (entity : Entity) :
    Prop :=
  ∃ id, contents.docs (.entity id) = some entity ∧ entity.userId = userId ∧
    unicode.toLowercase entity.name = unicode.toLowercase name

/-- Unless the store fails, looking up a name gives an entity of the user that has it, or none when
there is none. -/
def FindsByName (contents : MemoryContents) : Prop :=
  ∀ userId name (inputs : Nat → MemoryInput), (∀ position, (inputs position).failure = none) →
    let found := (Program.eval exec (findEntityByName unicode userId name) inputs contents).1
    (∃ entity, found = .ok (some entity) ∧ HasName unicode contents userId name entity) ∨
      found = .ok none ∧ ∀ entity, ¬ HasName unicode contents userId name entity

/-- The call leaves names to be looked up rightly. -/
def KeepsNames (contents : MemoryContents) :
    EntityCall × (Nat → MemoryInput) → Prop
  | (.create entity, inputs) =>
      match extent inputs 0 [1, 2] with
      | .nothing => True
      | .record => Storable (nameOfEntity unicode) (entityIndex unicode contents) entity.id entity
      | .both => Unled (entityIndex unicode contents) entity.id
          (entity.userId, lowerName unicode entity.name)
  | (.update entity, inputs) =>
      Fails inputs 0 = true ∨
        Storable (nameOfEntity unicode) (entityIndex unicode contents) entity.id entity
  | (.delete id, inputs) =>
      ∀ entity, contents.docs (.entity id) = some entity → Fails inputs 0 = false →
        match extent inputs 1 [2, 3] with
        | .nothing => True
        | .record => ∀ name, (entityIndex unicode contents).entries name ≠ some id
        | .both => Sole (nameOfEntity unicode) (entityIndex unicode contents) id
            (entity.userId, lowerName unicode entity.name)

/-! ## What calls do -/

variable (contents : MemoryContents)

@[simp]
theorem entityIndex_putEntity (id : Uuid) (entity : Entity) :
    entityIndex unicode (contents.put (.entity id) entity) =
      (entityIndex unicode contents).store id entity := by
  simp only [entityIndex, SecondaryIndex.store, SecondaryIndex.mk.injEq]
  constructor
  · funext other
    by_cases same : other = id
    · subst same
      rw [Function.update_self]
      exact Database.Contents.docs_put_self ..
    · rw [Function.update_of_ne same]
      exact Database.Contents.docs_put_of_ne _ (by simpa using same) _
  · funext name
    exact Database.Contents.docs_put_of_ne _ (by simp) _

theorem entityName_ne {unicode : Unicode} {userId : Uuid} {name : LowerName unicode}
    {other : Uuid × LowerName unicode} (different : other ≠ (userId, name)) :
    MemoryKey.entityName other.1 other.2 ≠ .entityName userId name := by
  intro same
  obtain ⟨users, names⟩ := MemoryKey.entityName.inj same
  exact different (Prod.ext users (Subtype.ext names))

@[simp]
theorem entityIndex_putName (userId id : Uuid) (name : LowerName unicode) :
    entityIndex unicode (contents.put (.entityName userId name) id) =
      (entityIndex unicode contents).enter (userId, name) id := by
  simp only [entityIndex, SecondaryIndex.enter, SecondaryIndex.mk.injEq]
  constructor
  · funext other
    exact Database.Contents.docs_put_of_ne _ (by simp) _
  · funext other
    by_cases same : other = (userId, name)
    · subst same
      rw [Function.update_self]
      exact Database.Contents.docs_put_self ..
    · rw [Function.update_of_ne same]
      exact Database.Contents.docs_put_of_ne _ (entityName_ne same) _

@[simp]
theorem entityIndex_removeEntity (id : Uuid) :
    entityIndex unicode (contents.remove (.entity id)) =
      (entityIndex unicode contents).drop id := by
  simp only [entityIndex, SecondaryIndex.drop, SecondaryIndex.mk.injEq]
  constructor
  · funext other
    by_cases same : other = id
    · subst same
      rw [Function.update_self]
      exact Database.Contents.docs_remove_self ..
    · rw [Function.update_of_ne same]
      exact Database.Contents.docs_remove_of_ne _ (by simpa using same)
  · funext name
    exact Database.Contents.docs_remove_of_ne _ (by simp)

@[simp]
theorem entityIndex_removeName (userId : Uuid) (name : LowerName unicode) :
    entityIndex unicode (contents.remove (.entityName userId name)) =
      (entityIndex unicode contents).leave (userId, name) := by
  simp only [entityIndex, SecondaryIndex.leave, SecondaryIndex.mk.injEq]
  constructor
  · funext other
    exact Database.Contents.docs_remove_of_ne _ (by simp)
  · funext other
    by_cases same : other = (userId, name)
    · subst same
      rw [Function.update_self]
      exact Database.Contents.docs_remove_self ..
    · rw [Function.update_of_ne same]
      exact Database.Contents.docs_remove_of_ne _ (entityName_ne same)

@[simp]
theorem entityIndex_withSet (index : MemoryIndex) (set : SortedSet Uuid) :
    entityIndex unicode (contents.withSet index set) = entityIndex unicode contents := rfl

/-- What creating an entity does to the index. -/
theorem entityIndex_create (entity : Entity) (inputs : Nat → MemoryInput) :
    entityIndex unicode (entityStep unicode contents (.create entity, inputs)) =
      match extent inputs 0 [1, 2] with
      | .nothing => entityIndex unicode contents
      | .record => (entityIndex unicode contents).store entity.id entity
      | .both => ((entityIndex unicode contents).store entity.id entity).enter
          (entity.userId, lowerName unicode entity.name) entity.id := by
  let stored := contents.put (.entity entity.id) entity
  let listed := stored.withSet (.userEntities entity.userId)
    ((stored.sets (.userEntities entity.userId)).insert entity.id
      (timestampMillis entity.createdAt))
  cases first : (inputs 0).failure with
  | some error =>
    have ends : entityStep unicode contents (.create entity, inputs) = contents :=
      congrArg Prod.snd (eval_of_failure inputs contents rfl first)
    simp [ends, extent, Fails, first]
  | none =>
    cases second : (inputs 1).failure with
    | some error =>
      have ends : entityStep unicode contents (.create entity, inputs) = stored := by
        refine (congrArg Prod.snd (eval_of_success inputs contents first)).trans ?_
        exact congrArg Prod.snd (eval_of_failure (later inputs) stored rfl second)
      simp [ends, stored, extent, Fails, first, second]
    | none =>
      cases third : (inputs 2).failure with
      | some error =>
        have ends : entityStep unicode contents (.create entity, inputs) = listed := by
          refine (congrArg Prod.snd (eval_of_success inputs contents first)).trans ?_
          refine (congrArg Prod.snd (eval_of_success (later inputs) stored second)).trans ?_
          exact congrArg Prod.snd
            (eval_of_failure (later (later inputs)) listed rfl third)
        simp [ends, stored, listed, extent, Fails, first, second, third]
      | none =>
        have ends : entityStep unicode contents (.create entity, inputs) =
            listed.put (.entityName entity.userId (lowerName unicode entity.name))
              entity.id := by
          refine (congrArg Prod.snd (eval_of_success inputs contents first)).trans ?_
          refine (congrArg Prod.snd (eval_of_success (later inputs) stored second)).trans ?_
          exact congrArg Prod.snd (eval_of_success (later (later inputs)) listed third)
        rw [ends, entityIndex_putName]
        simp [stored, listed, extent, Fails, first, second, third]

theorem entityIndex_update (entity : Entity) (inputs : Nat → MemoryInput) :
    entityIndex unicode (entityStep unicode contents (.update entity, inputs)) =
      if Fails inputs 0 then entityIndex unicode contents
      else (entityIndex unicode contents).store entity.id entity := by
  cases first : (inputs 0).failure with
  | some error =>
    have ends : entityStep unicode contents (.update entity, inputs) = contents :=
      congrArg Prod.snd (eval_of_failure inputs contents rfl first)
    simp [ends, Fails, first]
  | none =>
    have ends : entityStep unicode contents (.update entity, inputs) =
        contents.put (.entity entity.id) entity :=
      congrArg Prod.snd (eval_of_success inputs contents first)
    simp [ends, Fails, first]

/-- What deleting an entity does to the index. -/
theorem entityIndex_delete {id : Uuid} {entity : Entity}
    (held : contents.docs (.entity id) = some entity) (inputs : Nat → MemoryInput)
    (reads : Fails inputs 0 = false) :
    entityIndex unicode (entityStep unicode contents (.delete id, inputs)) =
      match extent inputs 1 [2, 3] with
      | .nothing => entityIndex unicode contents
      | .record => (entityIndex unicode contents).drop id
      | .both => ((entityIndex unicode contents).drop id).leave
          (entity.userId, lowerName unicode entity.name) := by
  let dropped := contents.remove (.entity id)
  let unlisted := dropped.withSet (.userEntities entity.userId)
    ((dropped.sets (.userEntities entity.userId)).erase id)
  have zeroth : (inputs 0).failure = none := by simpa [Fails] using reads
  have found : entityStep unicode contents (.delete id, inputs) =
      (Program.eval exec (do
        Redis.del (.entity id)
        Redis.zrem (.userEntities entity.userId) id
        Redis.del (.entityName entity.userId (unicode.toLowercase entity.name)))
        (later inputs) contents).2 := by
    refine (congrArg Prod.snd (eval_of_success inputs contents zeroth)).trans ?_
    simp only [Database.perform]
    rw [held]
    rfl
  cases first : (inputs 1).failure with
  | some error =>
    have ends : entityStep unicode contents (.delete id, inputs) = contents :=
      found.trans (congrArg Prod.snd (eval_of_failure (later inputs) contents rfl first))
    simp [ends, extent, Fails, first]
  | none =>
    have drops := found.trans (congrArg Prod.snd (eval_of_success (later inputs) contents first))
    cases second : (inputs 2).failure with
    | some error =>
      have ends : entityStep unicode contents (.delete id, inputs) = dropped :=
        drops.trans (congrArg Prod.snd
          (eval_of_failure (later (later inputs)) dropped rfl second))
      simp [ends, dropped, extent, Fails, first, second]
    | none =>
      have lists := drops.trans (congrArg Prod.snd
        (eval_of_success (later (later inputs)) dropped second))
      cases third : (inputs 3).failure with
      | some error =>
        have ends : entityStep unicode contents (.delete id, inputs) = unlisted :=
          lists.trans (congrArg Prod.snd
            (eval_of_failure (later (later (later inputs))) unlisted rfl third))
        simp [ends, dropped, unlisted, extent, Fails, first, second, third]
      | none =>
        have ends : entityStep unicode contents (.delete id, inputs) =
            unlisted.remove
              (.entityName entity.userId (lowerName unicode entity.name)) :=
          lists.trans (congrArg Prod.snd
            (eval_of_success (later (later (later inputs))) unlisted third))
        rw [ends, entityIndex_removeName]
        simp [dropped, unlisted, extent, Fails, first, second, third]

theorem entityStep_delete_of_absent {id : Uuid} (inputs : Nat → MemoryInput)
    (absent : contents.docs (.entity id) = none ∨ Fails inputs 0 = true) :
    entityStep unicode contents (.delete id, inputs) = contents := by
  cases first : (inputs 0).failure with
  | some error => exact congrArg Prod.snd (eval_of_failure inputs contents rfl first)
  | none =>
    have missing : contents.docs (.entity id) = none := by simpa [Fails, first] using absent
    refine (congrArg Prod.snd (eval_of_success inputs contents first)).trans ?_
    simp only [Database.perform]
    rw [missing]
    rfl

/-! ## Runs -/

/-- One call keeps names looked up rightly exactly if it meets the condition. -/
theorem right_entityStep_iff (event : EntityCall × (Nat → MemoryInput))
    (right : Right (nameOfEntity unicode) (entityIndex unicode contents))
    (closed : Closed (entityIndex unicode contents)) :
    Right (nameOfEntity unicode) (entityIndex unicode (entityStep unicode contents event)) ∧
        Closed (entityIndex unicode (entityStep unicode contents event)) ↔
      KeepsNames unicode contents event := by
  obtain ⟨call, inputs⟩ := event
  cases call with
  | create entity =>
    rw [entityIndex_create]
    simp only [KeepsNames]
    cases extent inputs 0 [1, 2] with
    | nothing => exact iff_of_true ⟨right, closed⟩ trivial
    | record =>
      simp only [SecondaryIndex.right_store_iff right, SecondaryIndex.closed_store closed,
        and_true]
    | both =>
      have isName : nameOfEntity unicode entity =
          some (entity.userId, lowerName unicode entity.name) := rfl
      simp only [SecondaryIndex.right_store_enter_iff right isName,
        SecondaryIndex.closed_store_enter closed, and_true]
  | update entity =>
    rw [entityIndex_update]
    simp only [KeepsNames]
    cases Fails inputs 0 with
    | true => simp [right, closed]
    | false =>
      simp [SecondaryIndex.right_store_iff right, SecondaryIndex.closed_store closed]
  | delete id =>
    simp only [KeepsNames]
    cases held : contents.docs (.entity id) with
    | none =>
      rw [entityStep_delete_of_absent unicode contents inputs (.inl held)]
      simp [right, closed]
    | some entity =>
      cases reads : Fails inputs 0 with
      | true =>
        rw [entityStep_delete_of_absent unicode contents inputs (.inr reads)]
        simp [right, closed]
      | false =>
        rw [entityIndex_delete unicode contents held inputs reads]
        have stored : (entityIndex unicode contents).records id = some entity := held
        have isName : nameOfEntity unicode entity =
            some (entity.userId, lowerName unicode entity.name) := rfl
        cases extent inputs 1 [2, 3] with
        | nothing => simp [right, closed]
        | record =>
          simp only [SecondaryIndex.closed_drop_iff closed]
          constructor
          · rintro ⟨_, unled⟩ _ _ _
            exact unled
          · intro keeps
            have unled := keeps entity rfl trivial
            refine ⟨(SecondaryIndex.right_drop_iff right).mpr ?_, unled⟩
            exact fun name led => absurd led (unled name)
        | both =>
          simp [SecondaryIndex.right_drop_leave_iff right stored isName,
            SecondaryIndex.closed_drop_leave right closed stored isName]

theorem eval_findEntityByName (userId : Uuid) (name : String) {inputs : Nat → MemoryInput}
    (calm : ∀ position, (inputs position).failure = none) :
    (Program.eval exec (findEntityByName unicode userId name) inputs contents).1 =
      match (entityIndex unicode contents).entries (userId, lowerName unicode name) with
      | none => .ok none
      | some id =>
        match (entityIndex unicode contents).records id with
        | none => .error (.entityNotFound id)
        | some entity => .ok (some entity) := by
  have first := calm 0
  have second := calm 1
  cases entry : contents.docs (.entityName userId (unicode.toLowercase name)) with
  | none =>
    have absent : (entityIndex unicode contents).entries (userId, lowerName unicode name) =
        none := entry
    rw [absent]
    refine (congrArg Prod.fst (eval_of_success inputs contents first)).trans ?_
    simp only [Database.perform]
    rw [entry]
    rfl
  | some id =>
    have led : (entityIndex unicode contents).entries (userId, lowerName unicode name) =
        some id := entry
    rw [led]
    refine (congrArg Prod.fst (eval_of_success inputs contents first)).trans ?_
    simp only [Database.perform]
    rw [entry]
    refine (congrArg Prod.fst (eval_of_success (later inputs) contents second)).trans ?_
    simp only [Database.perform, entityIndex]
    cases contents.docs (.entity id) <;> rfl

theorem hasName_iff (userId : Uuid) (name : String) (entity : Entity) :
    HasName unicode contents userId name entity ↔
      ∃ id, (entityIndex unicode contents).records id = some entity ∧
        nameOfEntity unicode entity = some (userId, lowerName unicode name) := by
  simp [HasName, entityIndex, nameOfEntity, lowerName]

/-- An environment in which the store does not fail. -/
def quietInput : MemoryInput :=
  { failure := none, now := 0, id := 0, answer := fun _ => .error .unauthorized }

/-- Names are looked up rightly exactly if the index is right and no entry leads nowhere. -/
theorem findsByName_iff :
    FindsByName unicode contents ↔ Right (nameOfEntity unicode) (entityIndex unicode contents) ∧
      Closed (entityIndex unicode contents) := by
  constructor
  · intro finds
    have reads (name : Uuid × LowerName unicode) :
        (∃ id entity, (entityIndex unicode contents).entries name = some id ∧
          (entityIndex unicode contents).records id = some entity ∧
            nameOfEntity unicode entity = some name) ∨
        (entityIndex unicode contents).entries name = none ∧
          ∀ id entity, (entityIndex unicode contents).records id = some entity →
            nameOfEntity unicode entity ≠ some name := by
      obtain ⟨userId, lower, original, rfl⟩ := name
      have calm (position : Nat) : ((fun _ => quietInput) position : MemoryInput).failure = none :=
        rfl
      have found := finds userId original (fun _ => quietInput) calm
      simp only [eval_findEntityByName unicode contents userId original calm, hasName_iff] at found
      change (∃ id entity, (entityIndex unicode contents).entries
        (userId, lowerName unicode original) = some id ∧ _ ∧
          nameOfEntity unicode entity = some (userId, lowerName unicode original)) ∨
        (entityIndex unicode contents).entries (userId, lowerName unicode original) = none ∧
          ∀ id entity, _ → nameOfEntity unicode entity ≠
            some (userId, lowerName unicode original)
      cases entry : (entityIndex unicode contents).entries
          (userId, lowerName unicode original) with
      | none =>
        simp only [entry] at found
        rcases found with ⟨entity, impossible, _⟩ | ⟨_, nobody⟩
        · simp at impossible
        · exact .inr ⟨rfl, fun id entity stored isName => nobody entity ⟨id, stored, isName⟩⟩
      | some id =>
        cases stored : (entityIndex unicode contents).records id with
        | none => simp [entry, stored] at found
        | some entity =>
          simp only [entry, stored] at found
          rcases found with ⟨other, same, _, _, isName⟩ | ⟨impossible, _⟩
          · obtain rfl := Option.some.inj (Except.ok.inj same)
            exact .inl ⟨id, entity, rfl, stored, isName⟩
          · simp at impossible
    refine ⟨⟨?_, ?_⟩, ?_⟩
    · intro name record found
      rcases reads name with ⟨id, entity, led, stored, isName⟩ | ⟨absent, _⟩
      · simp only [SecondaryIndex.find, led, Option.bind_some, stored, Option.some.injEq] at found
        rwa [← found]
      · simp [SecondaryIndex.find, absent] at found
    · intro id record name stored isName
      rcases reads name with ⟨other, entity, led, held, _⟩ | ⟨_, nobody⟩
      · exact ⟨entity, by simp [SecondaryIndex.find, led, held]⟩
      · exact absurd isName (nobody id record stored)
    · intro name id led
      rcases reads name with ⟨other, entity, also, held, _⟩ | ⟨absent, _⟩
      · obtain rfl := Option.some.inj (led.symm.trans also)
        exact ⟨entity, held⟩
      · simp [absent] at led
  · rintro ⟨right, closed⟩ userId name inputs calm
    simp only [eval_findEntityByName unicode contents _ _ calm, hasName_iff]
    cases entry : (entityIndex unicode contents).entries (userId, lowerName unicode name) with
    | none =>
      right
      refine ⟨rfl, ?_⟩
      rintro entity ⟨id, stored, isName⟩
      obtain ⟨found, finds⟩ := right.complete id entity _ stored isName
      simp [SecondaryIndex.find, entry] at finds
    | some id =>
      obtain ⟨entity, stored⟩ := closed _ id entry
      left
      have isName := right.led_iff stored entry
      exact ⟨entity, by simp [stored], id, stored, isName⟩

/-- However entities are created, changed and deleted, names are looked up rightly throughout
exactly if every call meets its condition. -/
theorem names_found_iff_kept (events : List (EntityCall × (Nat → MemoryInput))) :
    StateMachine.Always (entityStep unicode) (FindsByName unicode) emptyMemory events ↔
      StateMachine.Guarded (entityStep unicode) (KeepsNames unicode) emptyMemory events := by
  have initially : FindsByName unicode emptyMemory := by
    rw [findsByName_iff]
    refine ⟨⟨?_, ?_⟩, ?_⟩
    · intro name record found
      exact nomatch found
    · intro id record name stored
      exact nomatch stored
    · intro name id led
      exact nomatch led
  apply StateMachine.always_iff_guarded fun _ => True
  · exact fun _ _ _ _ => trivial
  · intro contents event _ finds
    rw [findsByName_iff] at finds ⊢
    exact right_entityStep_iff unicode contents event finds.1 finds.2
  · exact trivial
  · exact initially

/-- The tables restricted to ASCII. -/
def asciiOnly : Unicode :=
  { toLowercase := Text.toAsciiLowercase, isAlphanumeric := Text.isAsciiAlphanumeric }

/-- A person of a name. -/
def someone (id : Uuid) (name : String) : Entity :=
  { id, userId := 1, name, entityType := .person, summary := none, classification := .internal,
    mentionCount := 1, createdAt := 0, updatedAt := 0 }

/-- An entity is renamed. -/
def renamedEntity : List (EntityCall × (Nat → MemoryInput)) :=
  [(.create (someone 7 "Ann"), fun _ => quietInput),
    (.update (someone 7 "Bob"), fun _ => quietInput)]

theorem renamed_entity_not_found :
    ¬ StateMachine.Always (entityStep asciiOnly) (FindsByName asciiOnly) emptyMemory
      renamedEntity := by
  intro always
  have stored : (StateMachine.finish (entityStep asciiOnly) emptyMemory renamedEntity).docs
      (.entity 7) = some (someone 7 "Bob") := rfl
  rcases always.finish 1 "Bob" (fun _ => quietInput) fun _ => rfl with
    ⟨entity, found, _⟩ | ⟨_, nobody⟩
  · have missed : (Program.eval exec (findEntityByName asciiOnly 1 "Bob") (fun _ => quietInput)
        (StateMachine.finish (entityStep asciiOnly) emptyMemory renamedEntity)).1 = .ok none := rfl
    rw [missed] at found
    exact nomatch Except.ok.inj found
  · exact nobody (someone 7 "Bob") ⟨7, stored, rfl, rfl⟩

end Memory
end Mnemo
