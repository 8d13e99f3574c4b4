import Mnemo.Lib.Transaction

/-!
# A database whose values have types

A value is a string or a JSON document, and a command for the one type fails on a value of the
other.  Keys are entered into sorted sets in the same transaction in which their values are written.
-/

namespace TypedStore

open Database (Contents Write)

section Definitions

variable (Text Document Key Index Member : Type) [LinearOrder Member]

/-- A value, with its type. -/
inductive Value where
  | string (text : Text)
  | json (document : Document)

/-- The contents of a database with typed values. -/
abbrev Store : Type := Contents Key (fun _ => Value Text Document) Index Member

/-- The commands of a database with typed values. -/
inductive Command where
  /-- Read a document; a string is of the wrong type. -/
  | jsonGet (key : Key)
  /-- Write a string over whatever is there. -/
  | set (key : Key) (text : Text)
  | transaction (writes : List (Write Key (fun _ => Value Text Document) Index Member))
  /-- The lowest members, from a score on that is above another one if one is given, at most
  `limit` of them. -/
  | zrangebyscore (index : Index) (above : Option Int) (limit : Nat)

variable {Text Document Key Index Member} {Error : Type}

/-- The type of the reply to a command. -/
def Command.Reply : Command Text Document Key Index Member → Type
  | .jsonGet _ => Option Document
  | .set _ _ | .transaction _ => Unit
  | .zrangebyscore _ _ _ => List Member

/-- The entries above a score, lowest first. -/
def above (set : SortedSet Member) (bound : Option Int) : List (Int ×ₗ Member) :=
  set.entries.filter fun entry => bound.all fun score => decide (score < SortedSet.scoreOf entry)

variable [DecidableEq Key] [DecidableEq Index]

/-- Perform one command; the environment may let it fail, without effect. -/
def exec (wrongType : Error) (command : Command Text Document Key Index Member)
    (failure : Option Error) (store : Store Text Document Key Index Member) :
    Except Error command.Reply × Store Text Document Key Index Member :=
  match command, failure with
  | .jsonGet key, none =>
      match store.docs key with
      | none => (.ok none, store)
      | some (.json document) => (.ok (some document), store)
      | some (.string _) => (.error wrongType, store)
  | .set key text, none => (.ok (), store.put key (.string text))
  | .transaction writes, none => (.ok (), store.writeAll writes)
  | .zrangebyscore index bound limit, none =>
      (.ok (((above (store.sets index) bound).take limit).map SortedSet.memberOf), store)
  | .jsonGet _, some error | .set _ _, some error | .transaction _, some error
  | .zrangebyscore _ _ _, some error => (.error error, store)

end Definitions

/-! ## The first command of a program -/

section First

variable {Command : Type} {Reply : Command → Type} {Error State Input α β : Type}

/-- The program begins with a command, and ends with its error if it fails. -/
def Begins (command : Command) (program : Program Command Reply Error α) : Prop :=
  ∃ continuation, program = .perform command continuation ∧
    ∀ error, continuation (.error error) = .fail error

theorem Begins.bind {command : Command} {program : Program Command Reply Error α}
    (begins : Begins command program) (next : α → Program Command Reply Error β) :
    Begins command (program >>= next) := by
  obtain ⟨continuation, rfl, fails⟩ := begins
  refine ⟨fun reply => continuation reply >>= next, rfl, fun error => ?_⟩
  simp [fails error]

theorem Begins.eval_error {command : Command} {program : Program Command Reply Error α}
    (begins : Begins command program)
    {exec : (command : Command) → Input → State → Except Error (Reply command) × State}
    {inputs : Nat → Input} {state final : State} {error : Error}
    (fails : exec command (inputs 0) state = (.error error, final)) :
    program.eval exec inputs state = (.error error, final) := by
  obtain ⟨continuation, rfl, ends⟩ := begins
  simp [Program.eval, fails, ends error]

end First
end TypedStore
