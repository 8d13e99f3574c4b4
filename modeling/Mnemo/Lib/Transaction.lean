import Mnemo.Lib.Database

/-!
# Batches of writes

Several writes which are sent to a database at once.  A transaction has the effect of all of its
writes or of none; of a pipeline that fails, the environment decides how many writes were made.
-/

namespace Database

section Definitions

variable (Key : Type) (Doc : Key → Type) (Index Member : Type) (Error : Type)

/-- The commands that change the contents. -/
inductive Write where
  | set (key : Key) (doc : Doc key)
  | del (key : Key)
  | zadd (index : Index) (member : Member) (score : Int)
  | zrem (index : Index) (member : Member)
  | zdel (index : Index)

/-- What a program sends to a database that accepts batches. -/
inductive Request where
  | get (key : Key)
  /-- All members of a sorted set, in ascending order. -/
  | members (index : Index)
  | transaction (writes : List (Write Key Doc Index Member))
  | pipeline (writes : List (Write Key Doc Index Member))
  | clock
  | freshId

variable {Key Doc Index Member Error}

/-- The type of the reply to a request. -/
def Request.Reply : Request Key Doc Index Member → Type
  | .get key => Option (Doc key)
  | .members _ => List Member
  | .transaction _ | .pipeline _ => Unit
  | .clock => Int
  | .freshId => Nat

variable (Error) in
/-- What the environment decides at a request. -/
structure RequestInput where
  /-- The request fails, when it can. -/
  failure : Option Error
  /-- How many writes of a pipeline that fails are made. -/
  made : Nat
  /-- The reading of the clock. -/
  now : Int
  /-- A proposal for a fresh identifier. -/
  id : Nat

variable [LinearOrder Member] [DecidableEq Key] [DecidableEq Index]

/-- Make one write. -/
def Contents.write (contents : Contents Key Doc Index Member) :
    Write Key Doc Index Member → Contents Key Doc Index Member
  | .set key doc => contents.put key doc
  | .del key => contents.remove key
  | .zadd index member score =>
      contents.withSet index ((contents.sets index).insert member score)
  | .zrem index member => contents.withSet index ((contents.sets index).erase member)
  | .zdel index => contents.withSet index .empty

/-- Make the writes in order. -/
def Contents.writeAll (contents : Contents Key Doc Index Member)
    (writes : List (Write Key Doc Index Member)) : Contents Key Doc Index Member :=
  writes.foldl Contents.write contents

/-- Answer one request. -/
def answer (request : Request Key Doc Index Member) (input : RequestInput Error)
    (contents : Contents Key Doc Index Member) :
    Except Error request.Reply × Contents Key Doc Index Member :=
  match request, input.failure with
  | .get key, none => (.ok (contents.docs key), contents)
  | .members index, none => (.ok (contents.sets index).members, contents)
  | .transaction writes, none => (.ok (), contents.writeAll writes)
  | .pipeline writes, none => (.ok (), contents.writeAll writes)
  | .clock, _ => (.ok input.now, contents)
  | .freshId, _ =>
      let id := unused contents.issued input.id
      (.ok id, contents.draw id)
  | .pipeline writes, some error => (.error error, contents.writeAll (writes.take input.made))
  | .get _, some error | .members _, some error | .transaction _, some error =>
      (.error error, contents)

end Definitions

/-! ## What writes change -/

section Effects

variable {Key : Type} {Doc : Key → Type} {Index Member : Type} [LinearOrder Member]
  [DecidableEq Key] [DecidableEq Index] {contents : Contents Key Doc Index Member}

namespace Write

/-- The write is to the document under a key. -/
def OnDoc (key : Key) : Write Key Doc Index Member → Prop
  | .set other _ | .del other => other = key
  | _ => False

/-- The write is to a member of a sorted set, or to the whole set. -/
def OnMember (index : Index) (member : Member) : Write Key Doc Index Member → Prop
  | .zadd other added _ => other = index ∧ added = member
  | .zrem other removed => other = index ∧ removed = member
  | .zdel other => other = index
  | _ => False

end Write

@[simp]
theorem Contents.writeAll_nil : contents.writeAll [] = contents := rfl

@[simp]
theorem Contents.writeAll_cons (write : Write Key Doc Index Member)
    (writes : List (Write Key Doc Index Member)) :
    contents.writeAll (write :: writes) = (contents.write write).writeAll writes := rfl

theorem Contents.docs_writeAll_of_off {key : Key} {writes : List (Write Key Doc Index Member)}
    (elsewhere : ∀ write ∈ writes, ¬ write.OnDoc key) :
    (contents.writeAll writes).docs key = contents.docs key := by
  induction writes generalizing contents with
  | nil => rfl
  | cons write writes ih =>
    obtain ⟨here, later⟩ := List.forall_mem_cons.mp elsewhere
    rw [Contents.writeAll_cons, ih later]
    cases write with
    | set other doc => exact Contents.docs_put_of_ne _ (Ne.symm here) doc
    | del other => exact Contents.docs_remove_of_ne _ (Ne.symm here)
    | zadd | zrem | zdel => rfl

theorem Contents.docs_writeAll_set {key : Key} {doc : Doc key}
    {writes : List (Write Key Doc Index Member)} (elsewhere : ∀ write ∈ writes, ¬ write.OnDoc key) :
    (contents.writeAll (.set key doc :: writes)).docs key = some doc :=
  (Contents.docs_writeAll_of_off elsewhere).trans (Contents.docs_put_self ..)

theorem Contents.docs_writeAll_del {key : Key} {writes : List (Write Key Doc Index Member)}
    (elsewhere : ∀ write ∈ writes, ¬ write.OnDoc key) :
    (contents.writeAll (.del key :: writes)).docs key = none :=
  (Contents.docs_writeAll_of_off elsewhere).trans (Contents.docs_remove_self ..)

theorem Contents.writeAll_append (first second : List (Write Key Doc Index Member)) :
    contents.writeAll (first ++ second) = (contents.writeAll first).writeAll second :=
  List.foldl_append

/-- Writes elsewhere leave a member of a sorted set in or out. -/
theorem Contents.mem_writeAll_of_off {index : Index} {member : Member}
    {writes : List (Write Key Doc Index Member)}
    (elsewhere : ∀ write ∈ writes, ¬ write.OnMember index member) :
    member ∈ ((contents.writeAll writes).sets index).members ↔
      member ∈ (contents.sets index).members := by
  induction writes generalizing contents with
  | nil => rfl
  | cons write writes ih =>
    obtain ⟨here, later⟩ := List.forall_mem_cons.mp elsewhere
    rw [Contents.writeAll_cons, ih later]
    cases write with
    | set | del => rfl
    | zadd other added score =>
      rcases eq_or_ne index other with rfl | different
      · have other_member : member ≠ added := fun same => here ⟨rfl, same.symm⟩
        simp [Contents.write, SortedSet.mem_members_insert, other_member]
      · rw [Contents.write, Contents.sets_withSet_of_ne _ different]
    | zrem other removed =>
      rcases eq_or_ne index other with rfl | different
      · have other_member : member ≠ removed := fun same => here ⟨rfl, same.symm⟩
        simp [Contents.write, SortedSet.mem_members_erase, other_member]
      · rw [Contents.write, Contents.sets_withSet_of_ne _ different]
    | zdel other => rw [Contents.write, Contents.sets_withSet_of_ne _ (Ne.symm here)]

theorem Contents.issued_writeAll (writes : List (Write Key Doc Index Member)) :
    (contents.writeAll writes).issued = contents.issued := by
  induction writes generalizing contents with
  | nil => rfl
  | cons write writes ih =>
    rw [Contents.writeAll_cons, ih]
    cases write <;> rfl

end Effects

/-! ## Programs that run alone -/

section Rules

open Program (Ensures)

variable {Key : Type} {Doc : Key → Type} {Index Member : Type} [LinearOrder Member]
  [DecidableEq Key] [DecidableEq Index] {Error α β : Type}
  {contents : Contents Key Doc Index Member}

/-- A program over a database that accepts batches. -/
abbrev Batch (Key : Type) (Doc : Key → Type) (Index Member Error α : Type) : Type :=
  Program (Request Key Doc Index Member) (·.Reply) Error α

variable (allowed : RequestInput Error → Prop)

/-- Whatever allowed inputs the environment chooses, the program ends as described. -/
abbrev Leaves (post : Except Error α → Contents Key Doc Index Member → Prop)
    (program : Batch Key Doc Index Member Error α) (contents : Contents Key Doc Index Member) :
    Prop :=
  Ensures answer allowed (fun _ _ => True) post program contents

/-- If a request fails, this is described. -/
def Covers (allowed : RequestInput Error → Prop)
    (post : Except Error β → Contents Key Doc Index Member → Prop)
    (contents : Contents Key Doc Index Member) : Prop :=
  ∀ input error, allowed input → input.failure = some error → post (.error error) contents

/-- The value of the outcome is good; there is none only if requests may fail. -/
def Outcome (good : α → Prop) : Except Error α → Prop
  | .ok value => good value
  | .error _ => ∃ input, allowed input ∧ input.failure ≠ none

/-- The program changes nothing, and its value is good. -/
abbrev Reads (good : α → Prop) (program : Batch Key Doc Index Member Error α)
    (contents : Contents Key Doc Index Member) : Prop :=
  Leaves allowed (fun outcome final => final = contents ∧ Outcome allowed good outcome) program
    contents

variable {allowed} {post : Except Error β → Contents Key Doc Index Member → Prop}

namespace Leaves

theorem bind_ofExcept {outcome : Except Error α}
    {next : α → Batch Key Doc Index Member Error β}
    (rest : ∀ value, outcome = .ok value → Leaves allowed post (next value) contents)
    (fails : ∀ error, post (.error error) contents) :
    Leaves allowed post (Program.ofExcept outcome >>= next) contents := by
  cases outcome with
  | ok value => exact rest value rfl
  | error error => exact .fail (fails error)

theorem bind_request {request : Request Key Doc Index Member}
    {next : request.Reply → Batch Key Doc Index Member Error β}
    (fallible : ∀ (input : RequestInput Error) error, input.failure = some error →
      answer request input contents = (.error error, contents))
    (rest : ∀ input, allowed input → input.failure = none →
      Leaves allowed post (Program.ofExcept (answer request input contents).1 >>= next)
        (answer request input contents).2)
    (fails : Covers allowed post contents) :
    Leaves allowed post (Program.call request >>= next) contents := by
  refine Ensures.perform trivial fun input admissible => ?_
  cases failing : input.failure with
  | none => exact rest input admissible failing
  | some error =>
    rw [fallible input error failing]
    exact .fail (fails input error admissible failing)

theorem bind_get {key : Key} {next : Option (Doc key) → Batch Key Doc Index Member Error β}
    (rest : Leaves allowed post (next (contents.docs key)) contents)
    (fails : Covers allowed post contents) :
    Leaves allowed post ((Program.call (Request.get key : Request Key Doc Index Member) :
      Batch Key Doc Index Member Error (Option (Doc key))) >>= next) contents := by
  refine bind_request (fun input error failing => ?_) (fun input _ succeeds => ?_) fails
  · simp only [answer, failing]
  · simp only [answer, succeeds]
    exact rest

theorem bind_members {index : Index} {next : List Member → Batch Key Doc Index Member Error β}
    (rest : Leaves allowed post (next (contents.sets index).members) contents)
    (fails : Covers allowed post contents) :
    Leaves allowed post ((Program.call (Request.members index : Request Key Doc Index Member) :
      Batch Key Doc Index Member Error (List Member)) >>= next) contents := by
  refine bind_request (fun input error failing => ?_) (fun input _ succeeds => ?_) fails
  · simp only [answer, failing]
  · simp only [answer, succeeds]
    exact rest

theorem bind_transaction {writes : List (Write Key Doc Index Member)}
    {next : Unit → Batch Key Doc Index Member Error β}
    (rest : Leaves allowed post (next ()) (contents.writeAll writes))
    (fails : Covers allowed post contents) :
    Leaves allowed post ((Program.call (Request.transaction writes :
      Request Key Doc Index Member) : Batch Key Doc Index Member Error Unit) >>= next)
      contents := by
  refine bind_request (fun input error failing => ?_) (fun input _ succeeds => ?_) fails
  · simp only [answer, failing]
  · simp only [answer, succeeds]
    exact rest

theorem transaction {writes : List (Write Key Doc Index Member)}
    {post : Except Error Unit → Contents Key Doc Index Member → Prop}
    (made : post (.ok ()) (contents.writeAll writes)) (fails : Covers allowed post contents) :
    Leaves allowed post (Program.call (Request.transaction writes :
      Request Key Doc Index Member) : Batch Key Doc Index Member Error Unit) contents := by
  refine Ensures.perform trivial fun input admissible => Ensures.ofExcept ?_
  cases failing : input.failure with
  | none =>
    simp only [answer, failing]
    exact made
  | some error =>
    simp only [answer, failing]
    exact fails input error admissible failing

theorem bind_clock {next : Int → Batch Key Doc Index Member Error β}
    (rest : ∀ input, allowed input → Leaves allowed post (next input.now) contents) :
    Leaves allowed post ((Program.call (Request.clock : Request Key Doc Index Member) :
      Batch Key Doc Index Member Error Int) >>= next) contents :=
  Ensures.perform trivial fun input admissible => rest input admissible

theorem bind_freshId {next : Nat → Batch Key Doc Index Member Error β}
    (rest : ∀ id, id ∉ contents.issued → Leaves allowed post (next id) (contents.draw id)) :
    Leaves allowed post ((Program.call (Request.freshId : Request Key Doc Index Member) :
      Batch Key Doc Index Member Error Nat) >>= next) contents :=
  Ensures.perform trivial fun input _ => rest _ (unused_notMem contents.issued input.id)

theorem bind_reads {good : α → Prop} {program : Batch Key Doc Index Member Error α}
    {next : α → Batch Key Doc Index Member Error β} (reads : Reads allowed good program contents)
    (rest : ∀ value, good value → Leaves allowed post (next value) contents)
    (fails : ∀ error, (∃ input, allowed input ∧ input.failure ≠ none) →
      post (.error error) contents) :
    Leaves allowed post (program >>= next) contents := by
  refine Ensures.bind reads ?_ ?_
  · rintro value _ ⟨rfl, described⟩
    exact rest value described
  · rintro error _ ⟨rfl, faulty⟩
    exact fails error faulty

end Leaves

namespace Reads

variable {good : α → Prop} {better : β → Prop}

theorem done {value : α} (described : good value) :
    Reads allowed good (.done value : Batch Key Doc Index Member Error α) contents :=
  Ensures.done ⟨rfl, described⟩

theorem covers :
    Covers allowed (fun (outcome : Except Error α) final =>
      final = contents ∧ Outcome allowed good outcome) contents :=
  fun input _ admissible failing => ⟨rfl, input, admissible, by simp [failing]⟩

theorem bind {program : Batch Key Doc Index Member Error α}
    {next : α → Batch Key Doc Index Member Error β} (reads : Reads allowed good program contents)
    (rest : ∀ value, good value → Reads allowed better (next value) contents) :
    Reads allowed better (program >>= next) contents :=
  Leaves.bind_reads reads rest fun _ faulty => ⟨rfl, faulty⟩

end Reads
end Rules
end Database
