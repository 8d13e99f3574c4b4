import Mnemo.Graph.Interleaving

/-!
# What records say

Editors change how long a fact holds, how it is classified and how often it was read, but not what
it says, and an entity keeps its name.  Each of them writes back a whole record, so this rests on
what the copies say: even one that is stale says what the stored record says.
-/

namespace Mnemo
namespace Memory

/-- An edge without what editors may change. -/
def Edge.statement (edge : Edge) : Edge :=
  { edge with
    validAt := 0
    invalidAt := none
    invalidatedByEpisodeId := none
    confidence := 0
    corroborationCount := 0
    classification := .internal
    updatedAt := 0
    accessCount := 0
    lastAccessedAt := none }

/-- An entity without what editors may change. -/
def Entity.statement (entity : Entity) : Entity :=
  { entity with summary := none, classification := .internal, mentionCount := 0, updatedAt := 0 }

end Memory

namespace Graph

open Memory
open Database (exec)
open Program (Crew)
open StateMachine (finish)

/-- What a record says. -/
def statement : (key : MemoryKey) → MemoryDoc key → MemoryDoc key
  | .edge _, edge => Edge.statement edge
  | .entity _, entity => Entity.statement entity
  | _, doc => doc

/-- The latest copy of a record. -/
def Knowledge.copy (knowledge : Knowledge) : (key : MemoryKey) → Option (MemoryDoc key)
  | .edge id => knowledge.edges id
  | .entity id => knowledge.entities id
  | _ => none

/-- The key of an edge or of an entity. -/
def isRecord : MemoryKey → Bool
  | .edge _ | .entity _ => true
  | _ => false

theorem isRecord_of_copy {knowledge : Knowledge} {key : MemoryKey} {copy : MemoryDoc key}
    (copied : knowledge.copy key = some copy) : isRecord key = true := by
  cases key with
  | edge id => rfl
  | entity id => rfl
  | _ => cases copied

theorem RevisesEdge.statement_eq {times : List DateTime} {copy edge : Edge} {editor : Editor}
    (revises : RevisesEdge times copy editor edge) : edge.statement = copy.statement := by
  cases revises <;> rfl

theorem RevisesEntity.statement_eq {copy entity : Entity} {editor : Editor}
    (revises : RevisesEntity copy editor entity) : entity.statement = copy.statement := by
  cases revises <;> rfl

/-- One record is stored and says what the stored one has said. -/
def Kept (before after : MemoryContents) : Prop :=
  ∀ key old, isRecord key = true → before.docs key = some old →
    ∃ new, after.docs key = some new ∧ statement key new = statement key old

theorem Kept.refl (contents : MemoryContents) : Kept contents contents :=
  fun _ old _ found => ⟨old, found, rfl⟩

theorem Kept.trans {first second third : MemoryContents} (one : Kept first second)
    (two : Kept second third) : Kept first third := by
  intro key old record found
  obtain ⟨middle, stored, same⟩ := one key old record found
  obtain ⟨new, final, also⟩ := two key middle record stored
  exact ⟨new, final, also.trans same⟩

theorem kept_of_sameRecords {before after : MemoryContents} (same : SameRecords before after) :
    Kept before after := by
  intro key old record found
  cases key with
  | edge id => exact ⟨old, (same.edges id).trans found, rfl⟩
  | entity id => exact ⟨old, (same.entities id).trans found, rfl⟩
  | _ => cases record

theorem kept_put {contents : MemoryContents} {written : MemoryKey} {doc : MemoryDoc written}
    (revised : ∀ stored, contents.docs written = some stored →
      statement written doc = statement written stored) : Kept contents (contents.put written doc) := by
  intro key old _ found
  rcases eq_or_ne key written with rfl | different
  · exact ⟨doc, Database.Contents.docs_put_self _ _ _, revised old found⟩
  · exact ⟨old, (Database.Contents.docs_put_of_ne _ different _).trans found, rfl⟩

theorem copy_learn {knowledge : Knowledge} {command : MemoryCommand} {input : MemoryInput}
    {contents : MemoryContents} {key : MemoryKey} {copy : MemoryDoc key}
    (copied : (knowledge.learn command (exec command input contents).1).copy key = some copy) :
    knowledge.copy key = some copy ∨ contents.docs key = some copy := by
  unfold Database.exec at copied
  split at copied
  · left
    cases command with
    | get read => cases read <;> exact copied
    | set read doc => cases read <;> exact copied
    | _ => exact copied
  · cases command with
    | get read =>
      cases read with
      | edge id =>
        cases key with
        | edge other =>
          rcases eq_or_ne other id with rfl | different
          · exact .inr ((knowledge.edges_copyEdge_self other _).symm.trans copied)
          · exact .inl ((knowledge.edges_copyEdge_of_ne different _).symm.trans copied)
        | _ => exact .inl copied
      | entity id =>
        cases key with
        | entity other =>
          rcases eq_or_ne other id with rfl | different
          · exact .inr ((knowledge.entities_copyEntity_self other _).symm.trans copied)
          · exact .inl ((knowledge.entities_copyEntity_of_ne different _).symm.trans copied)
        | _ => exact .inl copied
      | _ => exact .inl copied
    | set read doc => cases read <;> exact .inl copied
    | _ => exact .inl copied

/-! ## Runs -/

section Runs

variable {unicode : Unicode} {fallback : String → Option ExtractionResult}

/-- Every copy is of a stored record, and says what that says. -/
def CopiesSay (crew : EditorCrew) : Prop :=
  ∀ task ∈ crew.tasks, ∀ key copy, task.state.copy key = some copy →
    ∃ stored, crew.shared.docs key = some stored ∧ statement key copy = statement key stored

theorem kept_step {crew : EditorCrew} (sound : SoundCrew unicode fallback crew)
    (say : CopiesSay crew) (event : EditorEvent) :
    Kept crew.shared (editorStep unicode fallback crew event).shared := by
  cases stepEffect sound event with
  | kept same => exact kept_of_sameRecords same
  | edge found upcoming calm own writes informed stored =>
    rename_i position input task id edge
    rw [stored]
    apply kept_put
    intro old there
    cases writes with
    | revised copied revises _ =>
      obtain ⟨also, present, same⟩ := say task (List.mem_of_getElem? found) (.edge id) _ copied
      obtain rfl := Option.some.inj (present.symm.trans there)
      exact revises.statement_eq.trans same
    | new fresh _ _ => cases (informed.drawn id fresh).2.1.symm.trans there
  | entity found upcoming calm own writes informed stored =>
    rename_i position input task id entity
    rw [stored]
    apply kept_put
    intro old there
    cases writes with
    | revised copied revises _ =>
      obtain ⟨also, present, same⟩ :=
        say task (List.mem_of_getElem? found) (.entity id) _ copied
      obtain rfl := Option.some.inj (present.symm.trans there)
      exact revises.statement_eq.trans same
    | new fresh _ => cases (informed.drawn id fresh).2.2.symm.trans there

theorem copiesSay_step {crew : EditorCrew} (sound : SoundCrew unicode fallback crew)
    (say : CopiesSay crew) (event : EditorEvent) :
    CopiesSay (editorStep unicode fallback crew event) := by
  intro task member key copy copied
  have known : ∃ stored, crew.shared.docs key = some stored ∧
      statement key copy = statement key stored := by
    rcases Crew.state_step member with ⟨old, there, same | same | ⟨command, input, same⟩⟩ | ⟨job, same⟩
    · rw [same] at copied
      exact say old there key copy copied
    · rw [same] at copied
      exact say old there key copy copied
    · rw [same] at copied
      rcases copy_learn copied with earlier | read
      · exact say old there key copy earlier
      · exact ⟨copy, read, rfl⟩
    · rw [same] at copied
      cases key <;> cases copied
  obtain ⟨stored, found, same⟩ := known
  obtain ⟨new, final, also⟩ :=
    kept_step sound say event key stored (isRecord_of_copy copied) found
  exact ⟨new, final, same.trans also.symm⟩

theorem kept_run {crew : EditorCrew} (sound : SoundCrew unicode fallback crew)
    (say : CopiesSay crew) (events : List EditorEvent) :
    SoundCrew unicode fallback (finish (editorStep unicode fallback) crew events) ∧
      CopiesSay (finish (editorStep unicode fallback) crew events) ∧
        Kept crew.shared (finish (editorStep unicode fallback) crew events).shared := by
  have kept (now : EditorCrew) (event : EditorEvent) (holds : SoundCrew unicode fallback now ∧
      CopiesSay now ∧ Kept crew.shared now.shared) :
      SoundCrew unicode fallback (editorStep unicode fallback now event) ∧
        CopiesSay (editorStep unicode fallback now event) ∧
          Kept crew.shared (editorStep unicode fallback now event).shared := by
    obtain ⟨sound, say, kept⟩ := holds
    exact ⟨sound_step sound event, copiesSay_step sound say event,
      kept.trans (kept_step sound say event)⟩
  exact StateMachine.finish_induction kept ⟨sound, say, .refl crew.shared⟩ events

variable (unicode fallback)

/-- However the editors interleave, an edge or entity that is stored at some time is stored ever
after, and says the same. -/
theorem records_say_the_same {contents : MemoryContents} (filed : Filed contents)
    (early late : List EditorEvent) :
    let run := finish (editorStep unicode fallback) (Crew.idle contents)
    (∀ (id : Uuid) (old : Edge), (run early).shared.docs (.edge id) = some old →
      ∃ new : Edge, (run (early ++ late)).shared.docs (.edge id) = some new ∧
        new.statement = old.statement) ∧
    ∀ (id : Uuid) (old : Entity), (run early).shared.docs (.entity id) = some old →
      ∃ new : Entity, (run (early ++ late)).shared.docs (.entity id) = some new ∧
        new.statement = old.statement := by
  intro run
  have begins : CopiesSay (Crew.idle contents) := fun _ member => by cases member
  obtain ⟨sound, say, _⟩ := @kept_run unicode fallback _ (sound_idle filed) begins early
  obtain ⟨_, _, kept⟩ := kept_run sound say late
  simp only [run, StateMachine.finish_append]
  exact ⟨fun id old found => kept (.edge id) old rfl found,
    fun id old found => kept (.entity id) old rfl found⟩

/-- The fact says the same after an access was counted. -/
theorem records_say_the_same_access :
    let run := finish (editorStep plainUnicode fun _ => none) (Crew.idle factStore)
    (∀ (id : Uuid) (old : Edge), (run []).shared.docs (.edge id) = some old →
      ∃ new : Edge, (run ([] ++ accessAlone)).shared.docs (.edge id) = some new ∧
        new.statement = old.statement) ∧
    ∀ (id : Uuid) (old : Entity), (run []).shared.docs (.entity id) = some old →
      ∃ new : Entity, (run ([] ++ accessAlone)).shared.docs (.entity id) = some new ∧
        new.statement = old.statement :=
  records_say_the_same plainUnicode (fun _ => none) filed_factStore [] accessAlone

end Runs
end Graph
end Mnemo
