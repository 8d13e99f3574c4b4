import Mnemo.Graph.Interleaving
import Mnemo.Policy.Downgrades

/-!
# Classifications that are lowered

A request checks the classification that it asks for against its copy of the record, if it does so
at all, and overwrites the stored record later.
-/

namespace Mnemo
namespace Graph

open Memory
open Auth (CallerContext)
open Database (exec)
open Policy (Policies PolicyCrew PolicyEvent policyStep)
open Program (Crew Task)
open StateMachine (Guarded eachGuard sideBySide)

/-! ## The classification that is written -/

/-- The editor serves an administrator. -/
def Editor.ByAdmin : Editor → Prop
  | .patchEntityClassification caller _ _ | .patchEdgeClassification caller _ _
  | .grpcPatchEntityClassification caller _ _ | .grpcPatchEdgeClassification caller _ _ =>
      caller.role = .admin
  | _ => False

/-- The classification that a request asks for. -/
def Editor.requested : Editor → Option Classification
  | .patchEntityClassification _ _ classification | .patchEdgeClassification _ _ classification
  | .grpcPatchEntityClassification _ _ classification
  | .grpcPatchEdgeClassification _ _ classification => some classification
  | _ => none

/-- The editor does not check the classification that it is asked for. -/
def Editor.unchecked : Editor → Bool
  | .grpcPatchEntityClassification _ _ _ | .grpcPatchEdgeClassification _ _ _ => true
  | _ => false

theorem RevisesEdge.classification_requested {times : List DateTime} {copy edge : Edge}
    {editor : Editor} (revises : RevisesEdge times copy editor edge) :
    edge.classification = editor.requested.getD copy.classification := by
  cases revises <;> rfl

theorem RevisesEntity.classification_requested {copy entity : Entity} {editor : Editor}
    (revises : RevisesEntity copy editor entity) :
    entity.classification = editor.requested.getD copy.classification := by
  cases revises <;> rfl

theorem RevisesEdge.byAdmin {times : List DateTime} {copy edge : Edge} {editor : Editor}
    (revises : RevisesEdge times copy editor edge) (checked : editor.unchecked = false)
    (lower : editor.requested.getD copy.classification < copy.classification) :
    editor.ByAdmin := by
  cases revises with
  | patched mayLower => exact mayLower lower
  | grpcPatched => cases checked
  | _ => exact absurd lower (lt_irrefl _)

theorem RevisesEntity.byAdmin {copy entity : Entity} {editor : Editor}
    (revises : RevisesEntity copy editor entity) (checked : editor.unchecked = false)
    (lower : editor.requested.getD copy.classification < copy.classification) :
    editor.ByAdmin := by
  cases revises with
  | patched mayLower => exact mayLower lower
  | grpcPatched => cases checked
  | _ => exact absurd lower (lt_irrefl _)

/-! ## Downgrades -/

section Steps

variable (unicode : Unicode) (fallback : String → Option ExtractionResult)

/-- The event is a command of a request of an administrator. -/
def AdminStep (crew : EditorCrew) (event : EditorEvent) : Prop :=
  ∃ position input task, event = .advance position input ∧
    crew.tasks[position]? = some task ∧ task.job.ByAdmin

/-- Where the event lowers the classification of a record, it belongs to a request of an
administrator. -/
def RecordsByAdmin (crew : EditorCrew) (event : EditorEvent) : Prop :=
  let after := (editorStep unicode fallback crew event).shared
  (∀ id (old new : Edge), crew.shared.docs (.edge id) = some old →
    after.docs (.edge id) = some new → new.classification < old.classification →
      AdminStep crew event) ∧
  ∀ id (old new : Entity), crew.shared.docs (.entity id) = some old →
    after.docs (.entity id) = some new → new.classification < old.classification →
      AdminStep crew event

/-- An editor about to store a record finds a classification no higher than the one it writes (the
one asked for, else that of its copy), unless it serves an administrator. -/
def RecordRespected (crew : EditorCrew) : EditorEvent → Prop
  | .advance position input =>
      match crew.tasks[position]? with
      | some task =>
          match task.upcoming with
          | some (.set (.edge id) _) =>
              match task.state.edges id, (crew.shared.docs (.edge id) : Option Edge) with
              | some copy, some stored => input.failure = none → task.job.ByAdmin ∨
                  stored.classification ≤ task.job.requested.getD copy.classification
              | _, _ => True
          | some (.set (.entity id) _) =>
              match task.state.entities id, (crew.shared.docs (.entity id) : Option Entity) with
              | some copy, some stored => input.failure = none → task.job.ByAdmin ∨
                  stored.classification ≤ task.job.requested.getD copy.classification
              | _, _ => True
          | _ => True
      | none => True
  | _ => True

/-- The classification has not been raised since the copy was read, and a request whose
classification is not checked asks for no less than that of the copy, unless it comes from an
administrator. -/
def FreshClassification (job : Editor) (copy stored : Classification) : Prop :=
  stored ≤ copy ∧ (job.unchecked = true → job.ByAdmin ∨ copy ≤ job.requested.getD copy)

/-- An editor about to store a record knows its classification, or a higher one, and does not lower
it unchecked. -/
def RecordFresh (crew : EditorCrew) : EditorEvent → Prop
  | .advance position _ =>
      match crew.tasks[position]? with
      | some task =>
          match task.upcoming with
          | some (.set (.edge id) _) =>
              match task.state.edges id, (crew.shared.docs (.edge id) : Option Edge) with
              | some copy, some stored =>
                  FreshClassification task.job copy.classification stored.classification
              | _, _ => True
          | some (.set (.entity id) _) =>
              match task.state.entities id, (crew.shared.docs (.entity id) : Option Entity) with
              | some copy, some stored =>
                  FreshClassification task.job copy.classification stored.classification
              | _, _ => True
          | _ => True
      | none => True
  | _ => True

variable {unicode fallback}

theorem recordsByAdmin_of_same {crew : EditorCrew} {event : EditorEvent}
    (same : SameRecords crew.shared
      (editorStep unicode fallback crew event).shared) :
    RecordsByAdmin unicode fallback crew event := by
  constructor
  · intro id old new found after lower
    rw [same.edges, found] at after
    obtain rfl := Option.some.inj after
    exact absurd lower (lt_irrefl _)
  · intro id old new found after lower
    rw [same.entities, found] at after
    obtain rfl := Option.some.inj after
    exact absurd lower (lt_irrefl _)

section Stores

variable {crew : EditorCrew} {position : Nat} {input : MemoryInput} {task : EditorTask}

theorem adminStep_iff (found : crew.tasks[position]? = some task) :
    AdminStep crew (.advance position input) ↔ task.job.ByAdmin := by
  constructor
  · rintro ⟨place, reading, other, same, there, admin⟩
    obtain ⟨rfl, rfl⟩ := Crew.Event.advance.inj same
    obtain rfl : task = other := Option.some.inj (found.symm.trans there)
    exact admin
  · exact fun admin => ⟨position, input, task, rfl, found, admin⟩

theorem recordsByAdmin_putEdge_iff {id : Uuid} {edge : Edge}
    (found : crew.tasks[position]? = some task)
    (stored : (editorStep unicode fallback crew
      (.advance position input)).shared = crew.shared.put (.edge id) edge) :
    RecordsByAdmin unicode fallback crew (.advance position input) ↔
      ∀ old : Edge, crew.shared.docs (.edge id) = some old →
        edge.classification < old.classification → task.job.ByAdmin := by
  unfold RecordsByAdmin
  dsimp only
  rw [stored, adminStep_iff found]
  constructor
  · rintro ⟨edges, _⟩ old was lower
    exact edges id old edge was (Database.Contents.docs_put_self _ _ _) lower
  · intro byAdmin
    constructor
    · intro other old new was after lower
      rcases eq_or_ne other id with rfl | different
      · rw [Database.Contents.docs_put_self] at after
        obtain rfl := Option.some.inj after
        exact byAdmin old was lower
      · rw [Database.Contents.docs_put_of_ne _ (by simpa using different), was] at after
        obtain rfl := Option.some.inj after
        exact absurd lower (lt_irrefl _)
    · intro other old new was after lower
      rw [Database.Contents.docs_put_of_ne _ (by simp), was] at after
      obtain rfl := Option.some.inj after
      exact absurd lower (lt_irrefl _)

theorem recordsByAdmin_putEntity_iff {id : Uuid} {entity : Entity}
    (found : crew.tasks[position]? = some task)
    (stored : (editorStep unicode fallback crew
      (.advance position input)).shared = crew.shared.put (.entity id) entity) :
    RecordsByAdmin unicode fallback crew (.advance position input) ↔
      ∀ old : Entity, crew.shared.docs (.entity id) = some old →
        entity.classification < old.classification → task.job.ByAdmin := by
  unfold RecordsByAdmin
  dsimp only
  rw [stored, adminStep_iff found]
  constructor
  · rintro ⟨_, entities⟩ old was lower
    exact entities id old entity was (Database.Contents.docs_put_self _ _ _) lower
  · intro byAdmin
    constructor
    · intro other old new was after lower
      rw [Database.Contents.docs_put_of_ne _ (by simp), was] at after
      obtain rfl := Option.some.inj after
      exact absurd lower (lt_irrefl _)
    · intro other old new was after lower
      rcases eq_or_ne other id with rfl | different
      · rw [Database.Contents.docs_put_self] at after
        obtain rfl := Option.some.inj after
        exact byAdmin old was lower
      · rw [Database.Contents.docs_put_of_ne _ (by simpa using different), was] at after
        obtain rfl := Option.some.inj after
        exact absurd lower (lt_irrefl _)

end Stores

theorem lowers_iff {admin : Prop} {stored written : Classification} :
    (written < stored → admin) ↔ admin ∨ stored ≤ written := by
  rw [← not_lt]
  tauto

section Writes

variable {crew : EditorCrew} {position : Nat} {input : MemoryInput} {job : Editor}
  {continuation : Except MnemoError Unit → MemoryProgram (List Editor)} {state : Knowledge}
  {id : Uuid}

/-- A request is about to store an edge. -/
theorem recordsByAdmin_setEdge_iff {edge : Edge}
    (found : crew.tasks[position]? =
      some ⟨job, .perform (.set (.edge id) edge) continuation, state⟩)
    (informed : Informed state crew.shared) (own : state.editor = job)
    (writes : state.WritesEdge id edge) :
    RecordsByAdmin unicode fallback crew (.advance position input) ↔
      RecordRespected crew (.advance position input) := by
  have after_eq : (editorStep unicode fallback crew
      (.advance position input)).shared = (exec (.set (.edge id) edge) input crew.shared).2 := by
    simp [editorStep, Crew.step, found]
  cases failure : input.failure with
  | some error =>
    have same : (exec (.set (.edge id) edge) input crew.shared).2 = crew.shared := by
      unfold Database.exec
      simp [failure, Database.Command.fallible]
    refine iff_of_true (recordsByAdmin_of_same ?_) ?_
    · rw [after_eq, same]
      exact .refl _
    · simp only [RecordRespected, found, Task.upcoming]
      split
      · exact fun calm => by cases failure.symm.trans calm
      · trivial
  | none =>
    have stored : (exec (.set (.edge id) edge) input crew.shared).2 =
        crew.shared.put (.edge id) edge := by
      unfold Database.exec
      simp only [failure]
      rfl
    rw [recordsByAdmin_putEdge_iff found (after_eq.trans stored)]
    simp only [RecordRespected, found, Task.upcoming]
    cases writes with
    | revised copied revises _ =>
      rw [copied, revises.classification_requested, own]
      cases (crew.shared.docs (.edge id) : Option Edge) with
      | none => exact iff_of_true (fun _ absent => by cases absent) trivial
      | some old =>
        constructor
        · exact fun byAdmin _ => lowers_iff.mp (byAdmin old rfl)
        · intro respected other same
          obtain rfl := Option.some.inj same
          exact lowers_iff.mpr (respected failure)
    | new fresh isOpen _ =>
      rw [(informed.drawn id fresh).2.1]
      refine iff_of_true (fun _ absent => by cases absent) ?_
      split
      · rename_i absent
        cases absent
      · trivial

/-- A request is about to store an entity. -/
theorem recordsByAdmin_setEntity_iff {entity : Entity}
    (found : crew.tasks[position]? =
      some ⟨job, .perform (.set (.entity id) entity) continuation, state⟩)
    (informed : Informed state crew.shared) (own : state.editor = job)
    (writes : state.WritesEntity id entity) :
    RecordsByAdmin unicode fallback crew (.advance position input) ↔
      RecordRespected crew (.advance position input) := by
  have after_eq : (editorStep unicode fallback crew
      (.advance position input)).shared =
        (exec (.set (.entity id) entity) input crew.shared).2 := by
    simp [editorStep, Crew.step, found]
  cases failure : input.failure with
  | some error =>
    have same : (exec (.set (.entity id) entity) input crew.shared).2 = crew.shared := by
      unfold Database.exec
      simp [failure, Database.Command.fallible]
    refine iff_of_true (recordsByAdmin_of_same ?_) ?_
    · rw [after_eq, same]
      exact .refl _
    · simp only [RecordRespected, found, Task.upcoming]
      split
      · exact fun calm => by cases failure.symm.trans calm
      · trivial
  | none =>
    have stored : (exec (.set (.entity id) entity) input crew.shared).2 =
        crew.shared.put (.entity id) entity := by
      unfold Database.exec
      simp only [failure]
      rfl
    rw [recordsByAdmin_putEntity_iff found (after_eq.trans stored)]
    simp only [RecordRespected, found, Task.upcoming]
    cases writes with
    | revised copied revises _ =>
      rw [copied, revises.classification_requested, own]
      cases (crew.shared.docs (.entity id) : Option Entity) with
      | none => exact iff_of_true (fun _ absent => by cases absent) trivial
      | some old =>
        constructor
        · exact fun byAdmin _ => lowers_iff.mp (byAdmin old rfl)
        · intro respected other same
          obtain rfl := Option.some.inj same
          exact lowers_iff.mpr (respected failure)
    | new fresh _ =>
      rw [(informed.drawn id fresh).2.2]
      refine iff_of_true (fun _ absent => by cases absent) ?_
      split
      · rename_i absent
        cases absent
      · trivial

end Writes

/-- The command stores an edge or an entity. -/
def StoresRecord : MemoryCommand → Prop
  | .set (.edge _) _ | .set (.entity _) _ => True
  | _ => False

theorem sameRecords_of_allows {knowledge : Knowledge} {command : MemoryCommand}
    (allows : knowledge.Allows command) (other : StoresRecord command → False)
    (input : MemoryInput) (contents : MemoryContents) :
    SameRecords contents (exec command input contents).2 := by
  cases effect_of_allows allows input contents with
  | kept same => exact same
  | edge isSet =>
    subst isSet
    exact (other trivial).elim
  | entity isSet =>
    subst isSet
    exact (other trivial).elim

/-- Classifications are lowered by administrators only, exactly if every write respects the
classification that it finds. -/
theorem recordsByAdmin_iff {crew : EditorCrew}
    (sound : SoundCrew unicode fallback crew) (event : EditorEvent) :
    RecordsByAdmin unicode fallback crew event ↔
      RecordRespected crew event := by
  have idle {event : EditorEvent}
      (same : (editorStep unicode fallback crew event).shared = crew.shared) :
      RecordsByAdmin unicode fallback crew event := by
    apply recordsByAdmin_of_same
    rw [same]
    exact .refl _
  cases event with
  | begin editor => exact iff_of_true (idle rfl) trivial
  | handOn position =>
    refine iff_of_true (idle ?_) trivial
    unfold editorStep Crew.step
    dsimp only
    split <;> rfl
  | advance position input =>
    cases found : crew.tasks[position]? with
    | none =>
      exact iff_of_true (idle (by simp [editorStep, Crew.step, found]))
        (by simp [RecordRespected, found])
    | some task =>
      obtain ⟨job, program, state⟩ := task
      cases program with
      | done jobs =>
        exact iff_of_true (idle (by simp [editorStep, Crew.step, found]))
          (by simp [RecordRespected, found, Task.upcoming])
      | fail error =>
        exact iff_of_true (idle (by simp [editorStep, Crew.step, found]))
          (by simp [RecordRespected, found, Task.upcoming])
      | perform command continuation =>
        have member := List.mem_of_getElem? found
        have informed := sound.holds.informed _ member
        have own : state.editor = job := sound.holds.own _ member
        cases sound.follows _ member with
        | perform allows _ =>
          have spares (other : StoresRecord command → False) :
              RecordsByAdmin unicode fallback crew
                (.advance position input) := by
            apply recordsByAdmin_of_same
            simp only [editorStep, Crew.step, found]
            exact sameRecords_of_allows allows other input crew.shared
          cases command with
          | set key doc =>
            cases key with
            | edge id => exact recordsByAdmin_setEdge_iff found informed own allows
            | entity id => exact recordsByAdmin_setEntity_iff found informed own allows
            | _ =>
              exact iff_of_true (spares id)
                (by simp [RecordRespected, found, Task.upcoming])
          | _ =>
            exact iff_of_true (spares id)
              (by simp [RecordRespected, found, Task.upcoming])

theorem respects_of_fresh {job : Editor} {copy stored : Classification}
    (fresh : FreshClassification job copy stored)
    (checks : job.unchecked = false → job.requested.getD copy < copy → job.ByAdmin) :
    job.ByAdmin ∨ stored ≤ job.requested.getD copy := by
  by_cases lower : job.requested.getD copy < copy
  · left
    cases unchecked : job.unchecked with
    | true => exact (fresh.2 unchecked).resolve_right (not_le.mpr lower)
    | false => exact checks unchecked lower
  · exact .inr (le_trans fresh.1 (not_lt.mp lower))

theorem recordRespected_of_fresh {crew : EditorCrew}
    (sound : SoundCrew unicode fallback crew) {event : EditorEvent}
    (fresh : RecordFresh crew event) : RecordRespected crew event := by
  cases event with
  | begin editor => trivial
  | handOn position => trivial
  | advance position input =>
    cases found : crew.tasks[position]? with
    | none => simp [RecordRespected, found]
    | some task =>
      obtain ⟨job, program, state⟩ := task
      cases program with
      | done jobs => simp [RecordRespected, found, Task.upcoming]
      | fail error => simp [RecordRespected, found, Task.upcoming]
      | perform command continuation =>
        have member := List.mem_of_getElem? found
        have informed := sound.holds.informed _ member
        have own : state.editor = job := sound.holds.own _ member
        cases sound.follows _ member with
        | perform allows _ =>
          simp only [RecordFresh, found, Task.upcoming] at fresh
          simp only [RecordRespected, found, Task.upcoming]
          cases command with
          | set key doc =>
            cases key with
            | edge id =>
              dsimp only at fresh ⊢
              split at fresh
              · rename_i copy stored copied was
                cases allows with
                | revised known revises _ =>
                  obtain rfl := Option.some.inj (copied.symm.trans known)
                  rw [own] at revises
                  exact fun _ => respects_of_fresh fresh revises.byAdmin
                | new drawn isOpen _ =>
                  cases was.symm.trans (informed.drawn id drawn).2.1
              · trivial
            | entity id =>
              dsimp only at fresh ⊢
              split at fresh
              · rename_i copy stored copied was
                cases allows with
                | revised known revises _ =>
                  obtain rfl := Option.some.inj (copied.symm.trans known)
                  rw [own] at revises
                  exact fun _ => respects_of_fresh fresh revises.byAdmin
                | new drawn _ =>
                  cases was.symm.trans (informed.drawn id drawn).2.2
              · trivial
            | _ => trivial
          | _ => trivial

/-! ## Records and policies -/

variable (unicode fallback)

/-- The editors and the requests that concern policies take turns. -/
abbrev downgradeStep :
    EditorCrew × PolicyCrew → EditorEvent ⊕ PolicyEvent → EditorCrew × PolicyCrew :=
  sideBySide (editorStep unicode fallback) policyStep

/-- Classifications and contracts are lowered by administrators only. -/
abbrev DowngradesByAdmin : EditorCrew × PolicyCrew → EditorEvent ⊕ PolicyEvent → Prop :=
  eachGuard (RecordsByAdmin unicode fallback) Policy.ContractByAdmin

/-- Every write without an administrator finds a level no higher than the one that it writes. -/
abbrev LevelsRespected : EditorCrew × PolicyCrew → EditorEvent ⊕ PolicyEvent → Prop :=
  eachGuard RecordRespected Policy.ContractRespected

/-- Every write finds a level no higher than the one that was read, and was checked. -/
abbrev LevelsFresh : EditorCrew × PolicyCrew → EditorEvent ⊕ PolicyEvent → Prop :=
  eachGuard RecordFresh Policy.ContractFresh

/-- For every store, every table of policies and every run: all steps that lower a classification or
a contract belong to administrators exactly if every other write finds a level no higher than the
one that it writes.  That is so if no level was raised since it was read, and no request to lower a
classification goes unchecked. -/
theorem downgrades_by_admin_iff {contents : MemoryContents} (filed : Filed contents)
    (policies : Policies) (events : List (EditorEvent ⊕ PolicyEvent)) :
    let start : EditorCrew × PolicyCrew := (Crew.idle contents, Crew.idle policies)
    let step := downgradeStep unicode fallback
    (Guarded step (DowngradesByAdmin unicode fallback) start events ↔
      Guarded step LevelsRespected start events) ∧
    (Guarded step LevelsFresh start events →
      Guarded step (DowngradesByAdmin unicode fallback) start events) := by
  intro start step
  have initially : SoundCrew unicode fallback start.1 ∧
      Policy.SoundPolicies start.2 :=
    ⟨sound_idle filed, Policy.soundPolicies_idle policies⟩
  have editors_preserved (crew : EditorCrew) (event : EditorEvent)
      (sound : SoundCrew unicode fallback crew) :
      SoundCrew unicode fallback
        (editorStep unicode fallback crew event) := sound_step sound event
  have policies_preserved (crew : PolicyCrew) (event : PolicyEvent)
      (sound : Policy.SoundPolicies crew) : Policy.SoundPolicies (policyStep crew event) :=
    Policy.soundPolicies_step sound event
  have preserved := StateMachine.sideBySide_preserves editors_preserved policies_preserved
  have exact_condition : Guarded step (DowngradesByAdmin unicode fallback)
      start events ↔ Guarded step LevelsRespected start events := by
    refine Guarded.congr preserved ?_ initially events
    rintro ⟨editors, requests⟩ (event | event) ⟨sound, _⟩
    · exact recordsByAdmin_iff sound event
    · exact Policy.contractByAdmin_iff requests event
  refine ⟨exact_condition, fun fresh => exact_condition.mpr ?_⟩
  refine Guarded.mono (fun state event holds _ => preserved state event holds) ?_ initially fresh
  rintro ⟨editors, requests⟩ (event | event) ⟨sound, known⟩ now
  · exact recordRespected_of_fresh sound now
  · exact Policy.respected_of_fresh known now

/-! ## A remote call that lowers a classification -/

/-- A caller with the given role. -/
def callerWith (role : Auth.ApiKeyRole) : CallerContext :=
  { keyId := 5, keyName := "caller", role, scope := none }

/-- A remote call makes the fact public. -/
def factPublished (role : Auth.ApiKeyRole) : List (EditorEvent ⊕ PolicyEvent) :=
  [.inl (.begin (.grpcPatchEdgeClassification (callerWith role) 1 .public)),
    .inl (.advance 0 (calmAt 100)), .inl (.advance 0 (calmAt 100)),
    .inl (.advance 0 (calmAt 100)), .inl (.advance 0 (calmAt 100))]

/-- The call of an administrator lowers the classification. -/
theorem downgrades_by_admin_iff_published :
    Guarded (downgradeStep plainUnicode fun _ => none)
      (DowngradesByAdmin plainUnicode fun _ => none)
      (Crew.idle factStore, Crew.idle fun _ => none) (factPublished .admin) :=
  (downgrades_by_admin_iff plainUnicode (fun _ => none) filed_factStore (fun _ => none)
    (factPublished .admin)).1.mpr
      ⟨trivial, trivial, trivial, trivial, fun _ => .inl rfl, trivial⟩

/-- The call of a writer lowers it as well. -/
theorem writer_lowers_classification :
    ¬ ∀ (unicode : Unicode) (fallback : String → Option ExtractionResult)
      (contents : MemoryContents), Filed contents → ∀ (policies : Policies)
      (events : List (EditorEvent ⊕ PolicyEvent)),
      Guarded (downgradeStep unicode fallback) (DowngradesByAdmin unicode fallback)
        (Crew.idle contents, Crew.idle policies) events := by
  intro claimed
  obtain ⟨_, _, _, _, byAdmin, _⟩ := claimed plainUnicode (fun _ => none) factStore
    filed_factStore (fun _ => none) (factPublished .write)
  obtain ⟨position, input, task, same, found, admin⟩ :=
    byAdmin.1 1 fact (fact.classify .public 100) rfl rfl (by decide)
  obtain ⟨rfl, rfl⟩ := Crew.Event.advance.inj same
  obtain rfl := Option.some.inj found
  cases admin

end Steps
end Graph
end Mnemo
