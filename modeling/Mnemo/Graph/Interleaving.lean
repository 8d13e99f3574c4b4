import Mnemo.Graph.Edits
import Mnemo.Graph.Effects
import Mnemo.Lib.Crew

/-!
# Editors that overlap

Editors take turns, one command at a time.  Each writes back a whole record, whatever has become of
the stored one in the meantime.
-/

namespace Mnemo
namespace Graph

open Memory
open Database (exec)
open Program (Crew Task)
open Program.Protocol (Follows)
open StateMachine (Guarded finish)

/-- An editor with what is left of its program. -/
abbrev EditorTask := Task MemoryCommand (·.Reply MemoryAnswer) MnemoError Editor Knowledge

/-- A store and the editors at work on it. -/
abbrev EditorCrew := Crew MemoryCommand (·.Reply MemoryAnswer) MnemoError MemoryContents Editor
  Knowledge

/-- A request arrives, or an editor performs its next command. -/
abbrev EditorEvent := Crew.Event MemoryInput Editor

/-- The records are filed, the editors are informed, and no two of them have drawn the same. -/
structure Settled (shared : MemoryContents) (tasks : List EditorTask) : Prop where
  filed : Filed shared
  own : ∀ task ∈ tasks, task.state.editor = task.job
  informed : ∀ task ∈ tasks, Informed task.state shared
  apart : ∀ (first second : Nat) (one two : EditorTask), first ≠ second →
    tasks[first]? = some one → tasks[second]? = some two →
      ∀ id ∈ one.state.drawn, id ∉ two.state.drawn

namespace Settled

variable {shared : MemoryContents} {tasks : List EditorTask}

theorem begin (settled : Settled shared tasks) {task : EditorTask}
    (knows : task.state = .initial task.job) : Settled shared (tasks ++ [task]) := by
  have nothing (id : Uuid) : id ∉ task.state.drawn := by
    rw [knows]
    exact List.not_mem_nil
  refine ⟨settled.filed, fun other member => ?_, fun other member => ?_, ?_⟩
  · rcases List.mem_append.mp member with old | new
    · exact settled.own other old
    · rw [List.mem_singleton.mp new, knows]
      rfl
  · rcases List.mem_append.mp member with old | new
    · exact settled.informed other old
    · rw [List.mem_singleton.mp new, knows]
      exact .initial _ _
  · intro first second one two different foundOne foundTwo id drawn
    rcases Crew.getElem?_concat_cases foundOne with ⟨_, rfl⟩ | oldOne
    · exact absurd drawn (nothing id)
    · rcases Crew.getElem?_concat_cases foundTwo with ⟨_, rfl⟩ | oldTwo
      · exact nothing id
      · exact settled.apart first second one two different oldOne oldTwo id drawn

/-- An editor performs a command that it is allowed to perform. -/
theorem advance (settled : Settled shared tasks) {position : Nat} {task after : EditorTask}
    {command : MemoryCommand} {input : MemoryInput} (found : tasks[position]? = some task)
    (allows : task.state.Allows command) (same : after.job = task.job)
    (learned : after.state = task.state.learn command (exec command input shared).1) :
    Settled (exec command input shared).2 (tasks.set position after) := by
  have mine := settled.informed task (List.mem_of_getElem? found)
  -- what the editor draws now was drawn by nobody before
  have drawn {id : Uuid} (member : id ∈ after.state.drawn) :
      id ∈ task.state.drawn ∨ id ∉ shared.issued := by
    rw [learned] at member
    exact drawn_learn task.state command input shared member
  have others {place : Nat} {other : EditorTask} (different : place ≠ position)
      (there : tasks[place]? = some other) {id : Uuid} (member : id ∈ after.state.drawn) :
      id ∉ other.state.drawn := by
    intro also
    rcases drawn member with old | fresh
    · exact settled.apart position place task other different.symm found there id old also
    · exact fresh ((settled.informed other (List.mem_of_getElem? there)).drawn id also).1
  refine ⟨settled.filed.exec mine allows input, fun other member => ?_, fun other member => ?_, ?_⟩
  · obtain ⟨place, there⟩ := List.mem_iff_getElem?.mp member
    rcases Crew.getElem?_set_cases there with ⟨_, rfl⟩ | ⟨_, old⟩
    · rw [learned, editor_learn, same]
      exact settled.own task (List.mem_of_getElem? found)
    · exact settled.own other (List.mem_of_getElem? old)
  · obtain ⟨place, there⟩ := List.mem_iff_getElem?.mp member
    rcases Crew.getElem?_set_cases there with ⟨_, rfl⟩ | ⟨different, old⟩
    · rw [learned]
      exact mine.exec_self settled.filed allows input
    · have informed := settled.informed other (List.mem_of_getElem? old)
      exact informed.exec_other mine
        (settled.apart position place task other different.symm found old) allows input
  · intro first second one two different foundOne foundTwo id member
    rcases Crew.getElem?_set_cases foundOne with ⟨rfl, rfl⟩ | ⟨otherOne, oldOne⟩
    · rcases Crew.getElem?_set_cases foundTwo with ⟨rfl, _⟩ | ⟨otherTwo, oldTwo⟩
      · exact absurd rfl different
      · exact others otherTwo oldTwo member
    · rcases Crew.getElem?_set_cases foundTwo with ⟨rfl, rfl⟩ | ⟨otherTwo, oldTwo⟩
      · exact fun also => others otherOne oldOne also member
      · exact settled.apart first second one two different oldOne oldTwo id member

end Settled

section Runs

variable (unicode : Unicode) (fallback : String → Option ExtractionResult)

/-- Editors serve requests, and hand on nothing. -/
def editorOrders :
    Crew.Orders MemoryCommand (·.Reply MemoryAnswer) MnemoError Editor Knowledge where
  outside _ := true
  handler editor := do
    editor.program unicode fallback
    return []
  protocol := editing
  begins := .initial
  handsOn := id

/-- One step of the editors. -/
abbrev editorStep : EditorCrew → EditorEvent → EditorCrew :=
  Crew.step exec (editorOrders unicode fallback)

/-- Editors end without handing on anything. -/
def HandsOnNothing (_ : Knowledge) : Except MnemoError (List Editor) → Prop
  | .ok jobs => jobs = []
  | .error _ => True

/-- The crew is settled and every editor follows the protocol. -/
abbrev SoundCrew (crew : EditorCrew) : Prop :=
  Crew.Sound (editorOrders unicode fallback) HandsOnNothing Settled crew

/-- Any request may arrive, and any editor may go on. -/
def AnyEvent (_ : EditorCrew) (_ : EditorEvent) : Prop := True

variable {unicode fallback}

theorem sound_step {crew : EditorCrew} (sound : SoundCrew unicode fallback crew)
    (event : EditorEvent) : SoundCrew unicode fallback
      (editorStep unicode fallback crew event) := by
  have admissible : AnyEvent crew event := trivial
  refine sound.step ?_ ?_ ?_ ?_ ?_ admissible
  · intro editor
    apply (edits_program unicode fallback editor).bind
    · exact fun _ _ _ => .done rfl
    · exact fun _ _ _ => trivial
  · exact fun state next rest handed => nomatch handed
  · exact fun crew job _ _ settled => settled.begin rfl
  · intro crew position job command continuation state input found allows _ settled
    exact ⟨expects_exec settled.filed command input, settled.advance found allows rfl rfl⟩
  · exact fun crew position job next rest state found handed => nomatch handed

theorem sound_idle {contents : MemoryContents} (filed : Filed contents) :
    SoundCrew unicode fallback (Crew.idle contents) :=
  Crew.Sound.idle ⟨filed, (fun _ member => nomatch member), (fun _ member => nomatch member),
    fun _ _ _ _ _ found => nomatch found⟩

theorem sound_finish {contents : MemoryContents} (filed : Filed contents)
    (events : List EditorEvent) : SoundCrew unicode fallback
      (finish (editorStep unicode fallback) (Crew.idle contents) events) := by
  apply StateMachine.finish_induction
  · exact fun _ event sound => sound_step sound event
  · exact sound_idle filed

variable (unicode fallback)

/-- What an event does to the stored records: nothing, unless an editor is about to store an edge or
an entity, and does. -/
inductive StepEffect (crew : EditorCrew) : EditorEvent → Prop
  | kept {event : EditorEvent} (same : SameRecords crew.shared
      (editorStep unicode fallback crew event).shared) : StepEffect crew event
  | edge {position : Nat} {input : MemoryInput} {task : EditorTask} {id : Uuid} {edge : Edge}
      (found : crew.tasks[position]? = some task) (upcoming : task.upcoming =
        some (.set (.edge id) edge)) (calm : input.failure = none)
      (own : task.state.editor = task.job) (writes : task.state.WritesEdge id edge)
      (informed : Informed task.state crew.shared)
      (stored : (editorStep unicode fallback crew
        (.advance position input)).shared = crew.shared.put (.edge id) edge) :
      StepEffect crew (.advance position input)
  | entity {position : Nat} {input : MemoryInput} {task : EditorTask} {id : Uuid}
      {entity : Entity} (found : crew.tasks[position]? = some task) (upcoming : task.upcoming =
        some (.set (.entity id) entity)) (calm : input.failure = none)
      (own : task.state.editor = task.job) (writes : task.state.WritesEntity id entity)
      (informed : Informed task.state crew.shared)
      (stored : (editorStep unicode fallback crew
        (.advance position input)).shared = crew.shared.put (.entity id) entity) :
      StepEffect crew (.advance position input)

variable {unicode fallback}

theorem stepEffect {crew : EditorCrew} (sound : SoundCrew unicode fallback crew)
    (event : EditorEvent) : StepEffect unicode fallback crew event := by
  cases event with
  | begin editor => exact .kept (.refl crew.shared)
  | handOn position =>
    have shared_eq : (editorStep unicode fallback crew
        (.handOn position)).shared = crew.shared := by
      unfold editorStep Crew.step
      dsimp only
      split <;> rfl
    refine .kept ?_
    rw [shared_eq]
    exact .refl _
  | advance position input =>
    cases found : crew.tasks[position]? with
    | none =>
      refine .kept ?_
      unfold editorStep Crew.step
      simp only [found]
      exact .refl _
    | some task =>
      obtain ⟨job, program, state⟩ := task
      cases program with
      | done jobs =>
        refine .kept ?_
        unfold editorStep Crew.step
        simp only [found]
        exact .refl _
      | fail error =>
        refine .kept ?_
        unfold editorStep Crew.step
        simp only [found]
        exact .refl _
      | perform command continuation =>
        have member := List.mem_of_getElem? found
        have informed := sound.holds.informed _ member
        have own := sound.holds.own _ member
        have shared_eq : (editorStep unicode fallback crew
            (.advance position input)).shared = (exec command input crew.shared).2 := by
          unfold editorStep Crew.step
          simp only [found]
        cases sound.follows _ member with
        | perform allows _ =>
          cases effect_of_allows allows input crew.shared with
          | kept same =>
            refine .kept ?_
            rw [shared_eq]
            exact same
          | edge isSet calm writes stored =>
            subst isSet
            exact .edge found rfl calm own writes informed (shared_eq.trans stored)
          | entity isSet calm writes stored =>
            subst isSet
            exact .entity found rfl calm own writes informed (shared_eq.trans stored)

/-! ## Stale copies of edges -/

/-- The editor closes edges, if it writes them. -/
def Editor.closesEdges : Editor → Bool
  | .processEpisode _ | .resolveClarification _ _ _ => true
  | _ => false

/-- The editor classifies edges. -/
def Editor.classifiesEdges : Editor → Bool
  | .patchEdgeClassification _ _ _ | .grpcPatchEdgeClassification _ _ _ => true
  | _ => false

/-- An editor about to store an edge does not know it as open when it is closed, unless it closes
it, and knows its classification, unless it is about to change that. -/
def EdgeCurrent (crew : EditorCrew) : EditorEvent → Prop
  | .advance position input =>
      match crew.tasks[position]? with
      | some task =>
          match task.upcoming with
          | some (.set (.edge id) _) =>
              match task.state.edges id, (crew.shared.docs (.edge id) : Option Edge) with
              | some copy, some stored => input.failure = none →
                  (task.job.closesEdges = true ∨
                    (stored.invalidAt.isSome = true → copy.invalidAt.isSome = true)) ∧
                  (task.job.classifiesEdges = true ∨
                    stored.classification = copy.classification)
              | _, _ => True
          | _ => True
      | none => True
  | _ => True

/-- The event is the write of a request that classifies the edge anew. -/
def Reclassifies (crew : EditorCrew) (id : Uuid) (event : EditorEvent) : Prop :=
  ∃ position input task edge, event = .advance position input ∧
    crew.tasks[position]? = some task ∧ task.job.classifiesEdges = true ∧
      task.upcoming = some (.set (.edge id) edge)

/-- An edge that is closed stays closed, and keeps its classification unless it is classified
anew. -/
def Respected (crew : EditorCrew) (event : EditorEvent) (id : Uuid) (old new : Edge) : Prop :=
  (old.invalidAt.isSome = true → new.invalidAt.isSome = true) ∧
    (new.classification = old.classification ∨ Reclassifies crew id event)

section Revisions

variable {times : List DateTime} {copy edge : Edge} {editor : Editor}

theorem RevisesEdge.invalidAt_eq (revises : RevisesEdge times copy editor edge)
    (other : editor.closesEdges = false) : edge.invalidAt = copy.invalidAt := by
  cases revises <;> first | rfl | cases other

theorem RevisesEdge.isSome_invalidAt (revises : RevisesEdge times copy editor edge)
    (closes : editor.closesEdges = true) : edge.invalidAt.isSome = true := by
  cases revises <;> first | rfl | cases closes

theorem RevisesEdge.classification_eq (revises : RevisesEdge times copy editor edge)
    (other : editor.classifiesEdges = false) : edge.classification = copy.classification := by
  cases revises <;> first | rfl | cases other

theorem respected_of_revises {stored : Edge} (revises : RevisesEdge times copy editor edge)
    (closed : editor.closesEdges = true ∨
      (stored.invalidAt.isSome = true → copy.invalidAt.isSome = true))
    (classified : editor.classifiesEdges = true ∨ stored.classification = copy.classification) :
    (stored.invalidAt.isSome = true → edge.invalidAt.isSome = true) ∧
      (edge.classification = stored.classification ∨ editor.classifiesEdges = true) := by
  constructor
  · intro ended
    cases closes : editor.closesEdges with
    | true => exact revises.isSome_invalidAt closes
    | false =>
      rw [revises.invalidAt_eq closes]
      exact closed.resolve_left (by simp [closes]) ended
  · cases classifies : editor.classifiesEdges with
    | true => exact .inr rfl
    | false =>
      rw [revises.classification_eq classifies]
      exact .inl (classified.resolve_left (by simp [classifies])).symm

end Revisions

theorem respected_step {crew : EditorCrew}
    (sound : SoundCrew unicode fallback crew) {event : EditorEvent}
    (current : EdgeCurrent crew event) {id : Uuid} {old : Edge}
    (found : crew.shared.docs (.edge id) = some old) :
    ∃ new : Edge, (editorStep unicode fallback crew event).shared.docs
      (.edge id) = some new ∧ Respected crew event id old new := by
  have unchanged : Respected crew event id old old := ⟨fun closed => closed, .inl rfl⟩
  cases stepEffect sound event with
  | kept same => exact ⟨old, (same.edges id).trans found, unchanged⟩
  | entity there upcoming calm own writes informed stored =>
    rw [stored]
    refine ⟨old, ?_, unchanged⟩
    rw [Database.Contents.docs_put_of_ne _ (by simp)]
    exact found
  | edge there upcoming calm editor writes informed stored =>
    rename_i position input task written edge
    rw [stored]
    rcases eq_or_ne id written with rfl | different
    · refine ⟨edge, Database.Contents.docs_put_self _ _ _, ?_⟩
      cases writes with
      | new fresh isOpen own =>
        have absent := (informed.drawn id fresh).2.1
        exact nomatch absent.symm.trans found
      | revised copied revises own =>
        simp only [EdgeCurrent, there, upcoming, copied, found] at current
        obtain ⟨closed, classified⟩ := current calm
        rw [editor] at revises
        obtain ⟨stays, same⟩ := respected_of_revises revises closed classified
        refine ⟨stays, same.imp_right fun classifies => ?_⟩
        exact ⟨position, input, task, edge, rfl, there, classifies, upcoming⟩
    · refine ⟨old, ?_, unchanged⟩
      rw [Database.Contents.docs_put_of_ne _ (by simpa using different)]
      exact found

theorem respected_run {crew : EditorCrew}
    (sound : SoundCrew unicode fallback crew) {events : List EditorEvent}
    (guarded : Guarded (editorStep unicode fallback) EdgeCurrent crew events)
    {id : Uuid} {old : Edge} (found : crew.shared.docs (.edge id) = some old) :
    ∃ new : Edge, (finish (editorStep unicode fallback) crew
        events).shared.docs (.edge id) = some new ∧
      (old.invalidAt.isSome = true → new.invalidAt.isSome = true) ∧
      (new.classification = old.classification ∨ ∃ middle event rest,
        events = middle ++ event :: rest ∧ Reclassifies
          (finish (editorStep unicode fallback) crew middle) id event) := by
  induction events generalizing crew old with
  | nil => exact ⟨old, found, fun closed => closed, .inl rfl⟩
  | cons event events ih =>
    obtain ⟨next, stored, stays, kept⟩ := respected_step sound guarded.1 found
    obtain ⟨new, final, staysOn, keptOn⟩ := ih (sound_step sound event) guarded.2 stored
    refine ⟨new, final, fun closed => staysOn (stays closed), ?_⟩
    rcases keptOn with same | ⟨middle, other, rest, split, classifies⟩
    · rcases kept with also | classifies
      · exact .inl (same.trans also)
      · exact .inr ⟨[], event, events, rfl, classifies⟩
    · refine .inr ⟨event :: middle, other, rest, ?_, classifies⟩
      rw [split]
      rfl

variable (unicode fallback)

/-- An access is counted by itself. -/
def accessAlone : List EditorEvent :=
  [.begin (.recordEdgeAccess 1), .advance 0 (calmAt 100), .advance 0 (calmAt 100),
    .advance 0 (calmAt 100), .advance 0 (calmAt 100)]

/-- A clarification about the fact, which another fact wins. -/
def clarification : ClarificationRequest :=
  { id := 9, userId := 7, question := "What does Kendra like?", status := .pending
    conflictEdgeIds := [1, 2], sourceEntity := "Kendra", label := "likes"
    conflictingFacts := ["Kendra likes tea", "Kendra likes coffee"], severity := 1, createdAt := 0
    expiresAt := 1000, resolvedAt := none, resolutionAnswer := none, winningEdgeId := none
    resolutionEpisodeId := none }

/-- The store with the clarification. -/
def disputedStore : MemoryContents := factStore.put (.clarification 9) clarification

theorem filed_disputedStore : Filed disputedStore :=
  SameRecords.filed
    ⟨fun _ => Database.Contents.docs_put_of_ne _ (by simp) _,
      fun _ => Database.Contents.docs_put_of_ne _ (by simp) _, fun _ drawn => drawn⟩
    filed_factStore

/-- An access reads the fact; then a clarification closes it. -/
def accessOvertaken : List EditorEvent :=
  [.begin (.recordEdgeAccess 1), .advance 0 (calmAt 100),
    .begin (.resolveClarification 7 9 { answer := "Coffee", winningEdgeId := some 2 }),
    .advance 1 (calmAt 100), .advance 1 (calmAt 100), .advance 1 (calmAt 100),
    .advance 1 (calmAt 100)]

/-- The access is counted, and the fact is open again. -/
def accessCounted : List EditorEvent :=
  [.advance 0 (calmAt 101), .advance 0 (calmAt 101), .advance 0 (calmAt 101)]

end Runs
end Graph
end Mnemo
