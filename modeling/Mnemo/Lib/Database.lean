import Mnemo.Lib.Program
import Mnemo.Lib.SortedSet

/-!
# A key-value database with sorted sets

Typed documents under keys, sorted sets under indexes, a clock, a source of fresh identifiers, and
outside services which answer calls.  Each command is atomic and may fail.
-/

namespace Database

section Definitions

variable (Key : Type) (Doc : Key → Type) (Index Member : Type) [LinearOrder Member]
  (Service : Type) (Answer : Service → Type) (Error : Type)

/-- The contents of a database. -/
structure Contents where
  docs : (key : Key) → Option (Doc key)
  sets : Index → SortedSet Member
  /-- The identifiers which have been drawn. -/
  issued : List Nat

/-- The commands that a program may perform. -/
inductive Command where
  | get (key : Key)
  | set (key : Key) (doc : Doc key)
  | del (key : Key)
  | zadd (index : Index) (member : Member) (score : Int)
  | zrem (index : Index) (member : Member)
  | zdel (index : Index)
  | zscore (index : Index) (member : Member)
  | zrange (index : Index) (start stop : Int)
  | zrevrange (index : Index) (start stop : Int)
  | zrevrangeBelow (index : Index) (bound : Int) (limit : Nat)
  | zrangeAbove (index : Index) (bound : Option Int) (limit : Nat)
  | clock
  | freshId
  | service (call : Service)

variable {Key Doc Index Member Service Answer Error}

/-- The type of the reply to a command. -/
def Command.Reply (Answer : Service → Type) : Command Key Doc Index Member Service → Type
  | .get key => Option (Doc key)
  | .set _ _ | .del _ | .zadd _ _ _ | .zdel _ => Unit
  | .zrem _ _ => Nat
  | .zscore _ _ => Option Int
  | .zrange _ _ _ | .zrevrange _ _ _ | .zrevrangeBelow _ _ _ | .zrangeAbove _ _ _ => List Member
  | .clock => Int
  | .freshId => Nat
  | .service call => Answer call

variable (Answer Error) in
/-- What the environment decides when a command is performed. -/
structure Input where
  /-- The command fails, without effect, when it can. -/
  failure : Option Error
  /-- The reading of the clock. -/
  now : Int
  /-- A proposal for a fresh identifier. -/
  id : Nat
  /-- The answers of the outside services. -/
  answer : (call : Service) → Except Error (Answer call)

/-- An identifier that was never drawn before: the proposed one unless it is used up. -/
def unused (issued : List Nat) (proposed : Nat) : Nat :=
  if proposed ∈ issued then issued.foldr max 0 + 1 else proposed

theorem le_foldr_max {id : Nat} {issued : List Nat} (member : id ∈ issued) :
    id ≤ issued.foldr max 0 := by
  induction issued with
  | nil => cases member
  | cons head issued ih =>
    rcases List.mem_cons.mp member with rfl | tail
    · exact Nat.le_max_left _ _
    · exact (ih tail).trans (Nat.le_max_right _ _)

theorem unused_notMem (issued : List Nat) (proposed : Nat) : unused issued proposed ∉ issued := by
  unfold unused
  split
  · intro member
    exact absurd (le_foldr_max member) (Nat.not_succ_le_self _)
  · assumption

namespace Contents

/-- Record that an identifier was drawn. -/
def draw (contents : Contents Key Doc Index Member) (id : Nat) :
    Contents Key Doc Index Member :=
  { contents with issued := id :: contents.issued }

@[simp]
theorem docs_draw (contents : Contents Key Doc Index Member) (id : Nat) :
    (contents.draw id).docs = contents.docs := rfl

@[simp]
theorem sets_draw (contents : Contents Key Doc Index Member) (id : Nat) :
    (contents.draw id).sets = contents.sets := rfl

@[simp]
theorem issued_draw (contents : Contents Key Doc Index Member) (id : Nat) :
    (contents.draw id).issued = id :: contents.issued := rfl

section Docs

variable [DecidableEq Key]

/-- Store a document. -/
def put (contents : Contents Key Doc Index Member) (key : Key) (doc : Doc key) :
    Contents Key Doc Index Member :=
  { contents with docs := Function.update contents.docs key (some doc) }

/-- Delete a document. -/
def remove (contents : Contents Key Doc Index Member) (key : Key) :
    Contents Key Doc Index Member :=
  { contents with docs := Function.update contents.docs key none }

variable (contents : Contents Key Doc Index Member)

@[simp]
theorem docs_put_self (key : Key) (doc : Doc key) : (contents.put key doc).docs key = some doc := by
  simp [put]

@[simp]
theorem docs_put_of_ne {key other : Key} (different : other ≠ key) (doc : Doc key) :
    (contents.put key doc).docs other = contents.docs other := by
  simp [put, different]

@[simp]
theorem docs_remove_self (key : Key) : (contents.remove key).docs key = none := by
  simp [remove]

@[simp]
theorem docs_remove_of_ne {key other : Key} (different : other ≠ key) :
    (contents.remove key).docs other = contents.docs other := by
  simp [remove, different]

@[simp]
theorem sets_put (key : Key) (doc : Doc key) : (contents.put key doc).sets = contents.sets := rfl

@[simp]
theorem issued_put (key : Key) (doc : Doc key) :
    (contents.put key doc).issued = contents.issued := rfl

end Docs

section Sets

variable [DecidableEq Index]

/-- Replace a sorted set. -/
def withSet (contents : Contents Key Doc Index Member) (index : Index)
    (set : SortedSet Member) : Contents Key Doc Index Member :=
  { contents with sets := Function.update contents.sets index set }

variable (contents : Contents Key Doc Index Member)

@[simp]
theorem docs_withSet (index : Index) (set : SortedSet Member) :
    (contents.withSet index set).docs = contents.docs := rfl

@[simp]
theorem issued_withSet (index : Index) (set : SortedSet Member) :
    (contents.withSet index set).issued = contents.issued := rfl

@[simp]
theorem sets_withSet_self (index : Index) (set : SortedSet Member) :
    (contents.withSet index set).sets index = set := by
  simp [withSet]

@[simp]
theorem sets_withSet_of_ne {index other : Index} (different : other ≠ index)
    (set : SortedSet Member) : (contents.withSet index set).sets other = contents.sets other := by
  simp [withSet, different]

end Sets
end Contents

variable [DecidableEq Key] [DecidableEq Index]

/-- The reply and the effect of a command which does not fail. -/
def perform (input : Input Answer Error) (contents : Contents Key Doc Index Member) :
    (command : Command Key Doc Index Member Service) →
      Except Error (command.Reply Answer) × Contents Key Doc Index Member
  | .get key => (.ok (contents.docs key), contents)
  | .set key doc => (.ok (), contents.put key doc)
  | .del key => (.ok (), contents.remove key)
  | .zadd index member score =>
      (.ok (), contents.withSet index ((contents.sets index).insert member score))
  | .zrem index member =>
      (.ok ((contents.sets index).removed member),
        contents.withSet index ((contents.sets index).erase member))
  | .zdel index => (.ok (), contents.withSet index .empty)
  | .zscore index member => (.ok ((contents.sets index).score member), contents)
  | .zrange index start stop => (.ok ((contents.sets index).range start stop), contents)
  | .zrevrange index start stop => (.ok ((contents.sets index).revRange start stop), contents)
  | .zrevrangeBelow index bound limit =>
      (.ok ((contents.sets index).revRangeBelow bound limit), contents)
  | .zrangeAbove index bound limit =>
      (.ok ((contents.sets index).rangeAbove bound limit), contents)
  | .clock => (.ok input.now, contents)
  | .freshId =>
      let id := unused contents.issued input.id
      (.ok id, contents.draw id)
  | .service call => (input.answer call, contents)

/-- Everything but the clock and the source of identifiers may fail. -/
def Command.fallible : Command Key Doc Index Member Service → Bool
  | .clock | .freshId => false
  | _ => true

/-- Perform one command; when it fails nothing changes. -/
def exec (command : Command Key Doc Index Member Service) (input : Input Answer Error)
    (contents : Contents Key Doc Index Member) :
    Except Error (command.Reply Answer) × Contents Key Doc Index Member :=
  match input.failure, command.fallible with
  | some error, true => (.error error, contents)
  | _, _ => perform input contents command

end Definitions
end Database
