import Mnemo.Graph.Edits
import Mnemo.Graph.Effects

/-!
# The recorded past

Whether an edge was valid at an instant that lies before an operation is a matter of record; the
operations on edges may close what is open, from now on, but should not touch the record.
-/

namespace Mnemo
namespace Graph

open Memory
open Database (exec)
open Program (Ensures)
open Program.Protocol (Follows)

/-! ## The past of one edge -/

/-- Two versions of an edge have been valid at the same instants before now. -/
def SamePast (now : DateTime) (old new : Edge) : Prop :=
  ∀ time < now, new.isValidAt time = old.isValidAt time

namespace SamePast

theorem refl (now : DateTime) (edge : Edge) : SamePast now edge edge := fun _ _ => rfl

theorem trans {now : DateTime} {first second third : Edge} (one : SamePast now first second)
    (two : SamePast now second third) : SamePast now first third :=
  fun time before => (two time before).trans (one time before)

theorem invalidate {now time : DateTime} {edge : Edge} (isOpen : edge.invalidAt = none)
    (later : now ≤ time) (invalidatedBy : Uuid) :
    SamePast now edge (edge.invalidate invalidatedBy time) := by
  intro instant before
  have within : instant < time := lt_of_lt_of_le before later
  simp [Edge.isValidAt, Edge.invalidate, isOpen, within]

theorem isValidAt_of_lt {edge : Edge} {time : DateTime} (before : time < edge.validAt) :
    edge.isValidAt time = false := by
  simp [Edge.isValidAt, before]

theorem of_revises {now : DateTime} {times : List DateTime} {copy edge : Edge} {editor : Editor}
    (revises : RevisesEdge times copy editor edge) (later : ∀ time ∈ times, now ≤ time)
    (other : ∀ userId request, editor ≠ .revalidateFact userId request) :
    SamePast now copy edge := by
  cases revises with
  | superseded isOpen read => exact invalidate isOpen (later _ read) _
  | lost isOpen read => exact invalidate isOpen (later _ read) _
  | revalidated isOpen read => exact absurd rfl (other _ _)
  | corroborated isOpen read => exact absurd rfl (other _ _)
  | accessed => exact fun _ _ => rfl
  | patched mayLower => exact fun _ _ => rfl
  | grpcPatched => exact fun _ _ => rfl

end SamePast

/-! ## The past of the store -/

/-- The known edges that are valid at an instant. -/
def validAmong (known contents : MemoryContents) (time : DateTime) : Set Uuid :=
  fun id => (known.docs (.edge id) : Option Edge).isSome = true ∧
    ∃ edge : Edge, contents.docs (.edge id) = some edge ∧ edge.isValidAt time = true

/-- At every instant before now, the same edges of those that there were before are valid. -/
def PastKept (now : DateTime) (before after : MemoryContents) : Prop :=
  ∀ time < now, validAmong before after time = validAmong before before time

/-- Every edge that there was is there, with the same past. -/
def RecordKept (now : DateTime) (before after : MemoryContents) : Prop :=
  ∀ id (old : Edge), before.docs (.edge id) = some old →
    ∃ edge : Edge, after.docs (.edge id) = some edge ∧ SamePast now old edge

theorem RecordKept.pastKept {now : DateTime} {before after : MemoryContents}
    (kept : RecordKept now before after) : PastKept now before after := by
  intro time earlier
  ext id
  constructor
  · rintro ⟨known, edge, found, valid⟩
    obtain ⟨old, was⟩ := Option.isSome_iff_exists.mp known
    obtain ⟨other, stored, same⟩ := kept id old was
    obtain rfl : edge = other := Option.some.inj (found.symm.trans stored)
    exact ⟨known, old, was, (same time earlier).symm.trans valid⟩
  · rintro ⟨known, old, was, valid⟩
    obtain ⟨edge, stored, same⟩ := kept id old was
    exact ⟨known, edge, stored, (same time earlier).trans valid⟩

/-- What is on record of the store before, while an editor is at work. -/
structure OnRecord (now : DateTime) (before : MemoryContents) (knowledge : Knowledge)
    (contents : MemoryContents) : Prop where
  filed : Filed contents
  informed : Informed knowledge contents
  later : ∀ time ∈ knowledge.times, now ≤ time
  issued : before.issued ⊆ contents.issued
  drawn : ∀ id ∈ knowledge.drawn, before.docs (.edge id) = none
  kept : RecordKept now before contents
  copies : ∀ id (copy old : Edge), knowledge.edges id = some copy →
    before.docs (.edge id) = some old → SamePast now old copy

namespace OnRecord

variable {now : DateTime} {before contents : MemoryContents} {knowledge : Knowledge}

theorem initial (editor : Editor) (filed : Filed before) :
    OnRecord now before (.initial editor) before where
  filed := filed
  informed := .initial editor before
  later := fun _ member => nomatch member
  issued := fun _ drawn => drawn
  drawn := fun _ member => nomatch member
  kept := fun _ old found => ⟨old, found, .refl now old⟩
  copies := fun _ _ _ copied => nomatch copied

theorem samePast_of_writes (record : OnRecord now before knowledge contents) {id : Uuid}
    {edge old : Edge} (writes : knowledge.WritesEdge id edge)
    (other : ∀ userId request, knowledge.editor ≠ .revalidateFact userId request)
    (was : before.docs (.edge id) = some old) : SamePast now old edge := by
  cases writes with
  | revised copied revises own =>
    exact (record.copies id _ old copied was).trans (.of_revises revises record.later other)
  | new fresh isOpen own =>
    rw [record.drawn id fresh] at was
    cases was

theorem recordKept_exec (record : OnRecord now before knowledge contents)
    {command : MemoryCommand} (allows : knowledge.Allows command)
    (other : ∀ userId request, knowledge.editor ≠ .revalidateFact userId request)
    (input : MemoryInput) : RecordKept now before (exec command input contents).2 := by
  intro id old was
  obtain ⟨edge, found, same⟩ := record.kept id old was
  cases effect_of_allows allows input contents with
  | kept unchanged => exact ⟨edge, (unchanged.edges id).trans found, same⟩
  | edge isSet calm writes stored =>
    rename_i written revised
    rw [stored]
    rcases eq_or_ne id written with rfl | different
    · exact ⟨revised, Database.Contents.docs_put_self _ _ _,
        record.samePast_of_writes writes other was⟩
    · refine ⟨edge, ?_, same⟩
      rw [Database.Contents.docs_put_of_ne _ (by simpa using different)]
      exact found
  | entity isSet calm writes stored =>
    rw [stored]
    refine ⟨edge, ?_, same⟩
    rw [Database.Contents.docs_put_of_ne _ (by simp)]
    exact found

theorem copies_copyEdge (record : OnRecord now before knowledge contents) (read : Uuid) :
    ∀ id (copy old : Edge),
      (knowledge.copyEdge read (contents.docs (.edge read))).edges id = some copy →
        before.docs (.edge id) = some old → SamePast now old copy := by
  intro id copy old copied was
  rcases eq_or_ne id read with rfl | different
  · rw [knowledge.edges_copyEdge_self] at copied
    obtain ⟨edge, found, same⟩ := record.kept id old was
    obtain rfl : edge = copy := Option.some.inj (found.symm.trans copied)
    exact same
  · rw [knowledge.edges_copyEdge_of_ne different] at copied
    exact record.copies id copy old copied was

/-- One command of an editor that does not revalidate. -/
theorem exec (record : OnRecord now before knowledge contents) (wasFiled : Filed before)
    {command : MemoryCommand} (allows : knowledge.Allows command)
    (other : ∀ userId request, knowledge.editor ≠ .revalidateFact userId request)
    {input : MemoryInput} (clock : now ≤ input.now) :
    OnRecord now before (knowledge.learn command (Database.exec command input contents).1)
      (Database.exec command input contents).2 := by
  have kept := record.recordKept_exec allows other input
  have filed := record.filed.exec record.informed allows input
  have informed := record.informed.exec_self record.filed allows input
  have drawn : ∀ id ∈ (knowledge.learn command
      (Database.exec command input contents).1).drawn, before.docs (.edge id) = none := by
    intro id member
    rcases drawn_learn knowledge command input contents member with old | fresh
    · exact record.drawn id old
    · exact (wasFiled.unused fun used => fresh (record.issued used)).1
  have issued : before.issued ⊆ (Database.exec command input contents).2.issued := by
    cases effect_of_allows allows input contents with
    | kept same => exact fun id member => same.issued (record.issued member)
    | edge isSet calm writes stored =>
      rw [stored]
      exact record.issued
    | entity isSet calm writes stored =>
      rw [stored]
      exact record.issued
  refine ⟨filed, informed, ?_, issued, drawn, kept, ?_⟩
  · intro time member
    unfold Database.exec at member
    split at member
    · cases command with
      | get key => cases key <;> exact record.later time member
      | set key doc => cases key <;> exact record.later time member
      | _ => exact record.later time member
    · cases command with
      | get key => cases key <;> exact record.later time member
      | set key doc => cases key <;> exact record.later time member
      | clock =>
        rcases List.mem_cons.mp member with rfl | old
        · exact clock
        · exact record.later time old
      | _ => exact record.later time member
  · unfold Database.exec
    split
    · cases command with
      | get key => cases key <;> exact record.copies
      | set key doc => cases key <;> exact record.copies
      | _ => exact record.copies
    · cases command with
      | get key =>
        cases key with
        | edge id => exact record.copies_copyEdge id
        | _ => exact record.copies
      | set key doc => cases key <;> exact record.copies
      | _ => exact record.copies

end OnRecord

section Operations

variable (unicode : Unicode) (fallback : String → Option ExtractionResult)
  {contents : MemoryContents} {inputs : Nat → MemoryInput} {now : DateTime}

theorem recordKept_of_other {editor : Editor} (filed : Filed contents)
    (clock : ∀ position, now ≤ (inputs position).now)
    (other : ∀ userId request, editor ≠ .revalidateFact userId request) :
    RecordKept now contents (Program.eval exec
      (editor.program unicode fallback) inputs contents).2 := by
  have ensures : Ensures exec (fun input : MemoryInput => now ≤ input.now) (fun _ _ => True)
      (fun _ final => ∃ last : Knowledge, True ∧ last.editor = editor ∧
        OnRecord now contents last final)
      (editor.program unicode fallback) contents := by
    refine (edits_program unicode fallback editor).ensures ?_
      (fun _ _ _ _ _ => trivial) ⟨rfl, .initial editor filed⟩
    rintro knowledge command input final allows ⟨same, record⟩ later
    refine ⟨expects_exec record.filed command input, (editor_learn _ _ _).trans same, ?_⟩
    exact record.exec filed allows (same ▸ other) later
  obtain ⟨last, _, _, record⟩ := ensures.eval clock
  exact record.kept

/-! ## Revalidation -/

/-- A request to revalidate an edge is accepted. -/
def Accepted (contents : MemoryContents) (userId : Uuid) (request : RevalidateFactRequest)
    (edge : Edge) : Prop :=
  (0 ≤ request.newConfidence ∧ request.newConfidence ≤ 1) ∧
    contents.docs (.edge request.edgeId) = some edge ∧ edge.userId = userId ∧
      edge.invalidAt = none

/-- The position of the command that stores the revalidated edge. -/
def storePosition (request : RevalidateFactRequest) : Nat :=
  if request.evidenceEpisodeId.isSome then 4 else 3

/-- The operation is the accepted revalidation of an edge that has been valid before now, and its
commands do not fail. -/
def Rewrites (contents : MemoryContents) (inputs : Nat → MemoryInput) (now : DateTime) :
    Editor → Prop
  | .revalidateFact userId request => ∃ edge, Accepted contents userId request edge ∧
      edge.validAt < now ∧ (inputs 0).failure = none ∧
        (inputs (storePosition request)).failure = none
  | _ => False

theorem eval_memoryCall_bind {β : Type} (command : MemoryCommand)
    (next : command.Reply MemoryAnswer → MemoryProgram β) (inputs : Nat → MemoryInput)
    (contents : MemoryContents) :
    Program.eval exec (Program.call command >>= next) inputs contents =
      match (exec command (inputs 0) contents).1 with
      | .ok value => Program.eval exec (next value) (fun position => inputs (position + 1))
          (exec command (inputs 0) contents).2
      | .error error => (.error error, (exec command (inputs 0) contents).2) := by
  apply (Program.eval_call_bind exec command next inputs contents).trans
  cases (exec command (inputs 0) contents).1 <;> rfl

theorem eval_now_bind {β : Type} (next : DateTime → MemoryProgram β)
    (inputs : Nat → MemoryInput) (contents : MemoryContents) :
    Program.eval exec (Redis.now >>= next) inputs contents =
      Program.eval exec (next (inputs 0).now) (fun position => inputs (position + 1))
        contents := by
  have reply : exec (.clock : MemoryCommand) (inputs 0) contents =
      (.ok (inputs 0).now, contents) := by
    unfold Database.exec
    cases (inputs 0).failure <;> rfl
  exact (eval_memoryCall_bind (.clock : MemoryCommand) next inputs contents).trans (by rw [reply])

theorem eval_updateEdge_bind {β : Type} (edge : Edge) (next : Unit → MemoryProgram β)
    (inputs : Nat → MemoryInput) (contents : MemoryContents) :
    Program.eval exec (updateEdge edge >>= next) inputs contents =
      match (inputs 0).failure with
      | some error => (.error error, contents)
      | none => Program.eval exec (next ()) (fun position => inputs (position + 1))
          (contents.put (.edge edge.id) edge) := by
  apply (eval_memoryCall_bind (.set (.edge edge.id) edge) next inputs contents).trans
  unfold Database.exec
  cases (inputs 0).failure <;> rfl

theorem eval_getEdge_bind {β : Type} (id : Uuid) (next : Edge → MemoryProgram β)
    (inputs : Nat → MemoryInput) (contents : MemoryContents) :
    Program.eval exec (getEdge id >>= next) inputs contents =
      match (inputs 0).failure with
      | some error => (.error error, contents)
      | none =>
        match (contents.docs (.edge id) : Option Edge) with
        | some edge =>
          Program.eval exec (next edge) (fun position => inputs (position + 1)) contents
        | none => (.error (.edgeNotFound id), contents) := by
  unfold getEdge Redis.getRequired
  rw [Program.bind_bind]
  apply (eval_memoryCall_bind (.get (.edge id)) _ inputs contents).trans
  unfold Database.exec
  cases (inputs 0).failure with
  | some error => rfl
  | none =>
    show Program.eval _ _ _ _ = _
    cases (contents.docs (.edge id) : Option Edge) <;> rfl

section Revalidation

variable (userId : Uuid) (request : RevalidateFactRequest) (contents : MemoryContents)
  (inputs : Nat → MemoryInput)

/-- The revalidated edge as it is stored. -/
def rewritten (edge : Edge) : Edge :=
  let revalidated :=
    edge.revalidate request.newConfidence (inputs 1).now (inputs 2).now
  match request.evidenceEpisodeId with
  | some _ => revalidated.corroborate (inputs 3).now
  | none => revalidated

theorem validAt_rewritten (edge : Edge) :
    (rewritten request inputs edge).validAt = (inputs 1).now := by
  unfold rewritten
  cases request.evidenceEpisodeId <;> rfl

theorem id_rewritten (edge : Edge) : (rewritten request inputs edge).id = edge.id := by
  unfold rewritten
  cases request.evidenceEpisodeId <;> rfl

variable {userId request contents inputs}

/-- A revalidation stores the edge if it is accepted and nothing fails. -/
theorem state_revalidateFact_of_accepted {edge : Edge}
    (accepted : Accepted contents userId request edge) (reads : (inputs 0).failure = none) :
    (Program.eval exec (revalidateFact userId request) inputs contents).2 =
      match (inputs (storePosition request)).failure with
      | some _ => contents
      | none => contents.put (.edge (rewritten request inputs edge).id)
          (rewritten request inputs edge) := by
  obtain ⟨⟨low, high⟩, found, own, isOpen⟩ := accepted
  have within : ¬ (request.newConfidence < 0 ∨ 1 < request.newConfidence) := by
    rw [not_or, not_lt, not_lt]
    exact ⟨low, high⟩
  have valid : ¬ edge.isValid = false := by
    simp [Edge.isValid, isOpen]
  unfold revalidateFact
  rw [if_neg within, eval_getEdge_bind, reads, found]
  dsimp only
  rw [if_neg (not_not.mpr own), if_neg valid, eval_now_bind, eval_now_bind]
  cases evidence : request.evidenceEpisodeId with
  | none =>
    have last : storePosition request = 3 := by simp [storePosition, evidence]
    have stored : rewritten request inputs edge =
        edge.revalidate request.newConfidence (inputs 1).now (inputs 2).now := by
      simp [rewritten, evidence]
    rw [last, stored]
    refine (congrArg Prod.snd (eval_updateEdge_bind _ _ _ _)).trans ?_
    show _ = _
    cases (inputs 3).failure <;> rfl
  | some episodeId =>
    have last : storePosition request = 4 := by simp [storePosition, evidence]
    have stored : rewritten request inputs edge =
        (edge.revalidate request.newConfidence (inputs 1).now (inputs 2).now).corroborate
          (inputs 3).now := by
      simp [rewritten, evidence]
    rw [last, stored]
    unfold withEvidence
    dsimp only
    rw [Program.bind_bind, eval_now_bind]
    refine (congrArg Prod.snd (eval_updateEdge_bind _ _ _ _)).trans ?_
    show _ = _
    cases (inputs 4).failure <;> rfl

theorem state_revalidateFact_of_rejected
    (rejected : ∀ edge, Accepted contents userId request edge → (inputs 0).failure ≠ none) :
    (Program.eval exec (revalidateFact userId request) inputs contents).2 = contents := by
  unfold revalidateFact
  split
  · rfl
  · rename_i within
    rw [eval_getEdge_bind]
    cases reads : (inputs 0).failure with
    | some error => rfl
    | none =>
      dsimp only
      cases found : (contents.docs (.edge request.edgeId) : Option Edge) with
      | none => rfl
      | some edge =>
        dsimp only
        split
        · rfl
        · rename_i own
          split
          · rfl
          · rename_i valid
            refine absurd reads (rejected edge ⟨?_, found, not_not.mp own, ?_⟩)
            · rw [not_or, not_lt, not_lt] at within
              exact within
            · rw [← Edge.isValid_iff]
              simpa using valid

end Revalidation

theorem pastKept_put_iff {edge revalidated : Edge} {id : Uuid}
    (found : contents.docs (.edge id) = some edge) (isOpen : edge.invalidAt = none)
    (later : now ≤ revalidated.validAt) :
    PastKept now contents (contents.put (.edge id) revalidated) ↔ now ≤ edge.validAt := by
  constructor
  · intro kept
    by_contra earlier
    have before : edge.validAt < now := not_le.mp earlier
    have was : id ∈ validAmong contents contents edge.validAt := by
      refine ⟨by simp [found], edge, found, ?_⟩
      simp [Edge.isValidAt, isOpen]
    rw [← kept edge.validAt before] at was
    obtain ⟨_, other, stored, valid⟩ := was
    rw [Database.Contents.docs_put_self] at stored
    obtain rfl := Option.some.inj stored
    rw [SamePast.isValidAt_of_lt (lt_of_lt_of_le before later)] at valid
    cases valid
  · intro fresh
    apply RecordKept.pastKept
    intro other old was
    rcases eq_or_ne other id with rfl | different
    · refine ⟨revalidated, Database.Contents.docs_put_self _ _ _, fun time before => ?_⟩
      obtain rfl : edge = old := Option.some.inj (found.symm.trans was)
      rw [SamePast.isValidAt_of_lt (lt_of_lt_of_le before later),
        SamePast.isValidAt_of_lt (lt_of_lt_of_le before fresh)]
    · refine ⟨old, ?_, .refl now old⟩
      rw [Database.Contents.docs_put_of_ne _ (by simpa using different)]
      exact was

/-- For every store and every operation at an instant, or later: the past is kept exactly unless the
operation is the accepted revalidation of an edge that has been valid before. -/
theorem past_kept_iff (editor : Editor) (filed : Filed contents)
    (clock : ∀ position, now ≤ (inputs position).now) :
    PastKept now contents (Program.eval exec
        (editor.program unicode fallback) inputs contents).2 ↔
      ¬ Rewrites contents inputs now editor := by
  by_cases revalidation : ∃ userId request, editor = .revalidateFact userId request
  · obtain ⟨userId, request, rfl⟩ := revalidation
    have state_eq : (Program.eval exec ((Editor.revalidateFact userId request).program unicode
        fallback) inputs contents).2 =
          (Program.eval exec (revalidateFact userId request) inputs contents).2 := by
      exact Program.state_bind_pure _ _ _ _
    rw [state_eq]
    by_cases accepted : ∃ edge, Accepted contents userId request edge ∧ (inputs 0).failure = none
    · obtain ⟨edge, accepts, reads⟩ := accepted
      have found := accepts.2.1
      have only {other : Edge} (also : Accepted contents userId request other) : other = edge :=
        Option.some.inj (also.2.1.symm.trans found)
      rw [state_revalidateFact_of_accepted accepts reads]
      cases fails : (inputs (storePosition request)).failure with
      | some error =>
          refine iff_of_true (fun _ _ => rfl) ?_
          rintro ⟨_, _, _, _, stores⟩
          exact nomatch fails.symm.trans stores
      | none =>
          have later : now ≤ (rewritten request inputs edge).validAt := by
            rw [validAt_rewritten]
            exact clock 1
          dsimp only
          rw [id_rewritten, (filed.edges _ _ found).1,
            pastKept_put_iff found accepts.2.2.2 later]
          constructor
          · rintro fresh ⟨other, also, earlier, _⟩
            obtain rfl := only also
            exact absurd earlier (not_lt.mpr fresh)
          · intro kept
            by_contra earlier
            exact kept ⟨edge, accepts, not_le.mp earlier, reads, fails⟩
    · have rejected : ∀ edge, Accepted contents userId request edge → (inputs 0).failure ≠ none :=
        fun edge accepts reads => accepted ⟨edge, accepts, reads⟩
      rw [state_revalidateFact_of_rejected rejected]
      refine iff_of_true (fun _ _ => rfl) ?_
      rintro ⟨edge, accepts, _, reads, _⟩
      exact rejected edge accepts reads
  · have other : ∀ userId request, editor ≠ .revalidateFact userId request :=
      fun userId request same => revalidation ⟨userId, request, same⟩
    refine iff_of_true
      (recordKept_of_other unicode fallback filed clock other).pastKept ?_
    cases editor with
    | revalidateFact userId request => exact absurd rfl (other userId request)
    | _ => exact id

end Operations
/-! ## A fact that is revalidated -/

/-- Counting an access leaves the past of the only fact as it is. -/
theorem past_kept_iff_access :
    PastKept 100 factStore (Program.eval exec ((Editor.recordEdgeAccess 1).program plainUnicode
        fun _ => none) (fun _ => calmAt 100) factStore).2 ↔
      ¬ Rewrites factStore (fun _ => calmAt 100) 100 (.recordEdgeAccess 1) :=
  past_kept_iff plainUnicode (fun _ => none) (.recordEdgeAccess 1) filed_factStore
    (fun _ => le_refl 100)

/-- After a revalidation the fact was never valid before. -/
theorem revalidation_rewrites_past :
    ¬ ∀ (unicode : Unicode) (fallback : String → Option ExtractionResult) (editor : Editor)
      (contents : MemoryContents) (inputs : Nat → MemoryInput) (now : DateTime),
      Filed contents → (∀ position, now ≤ (inputs position).now) →
        PastKept now contents
          (Program.eval exec (editor.program unicode fallback) inputs contents).2 := by
  intro always
  have kept := always plainUnicode (fun _ => none)
    (.revalidateFact 7 { edgeId := 1, newConfidence := 1, evidenceEpisodeId := none }) factStore
    (fun _ => calmAt 100) 100 filed_factStore fun _ => le_refl 100
  have stored : (Program.eval exec (Editor.program plainUnicode (fun _ => none)
      (.revalidateFact 7 { edgeId := 1, newConfidence := 1, evidenceEpisodeId := none }))
        (fun _ => calmAt 100) factStore).2 =
      factStore.put (.edge 1) (fact.revalidate 1 100 100) := rfl
  have decided : PastKept 100 factStore (factStore.put (.edge 1) (fact.revalidate 1 100 100)) ↔
      100 ≤ fact.validAt := pastKept_put_iff rfl rfl (le_refl 100)
  rw [stored] at kept
  exact absurd (decided.mp kept) (by decide)


end Graph
end Mnemo
