import Mnemo.Lib.Sequential

/-!
# The first fault of a plan

The commands that a program performs when none fails are its plan.  A stage names each of them that
may fail, and the inputs of the environment decide at which stage the program stops.
-/

namespace Database

variable {Stage Service : Type} {Answer : Service → Type} {Error : Type}
  (inputs : Nat → Input Answer Error)

/-- The inputs from a position on. -/
def skip (count : Nat) (position : Nat) : Input Answer Error := inputs (position + count)

theorem skip_zero : skip inputs 0 = inputs := rfl

theorem skip_later (count : Nat) : skip (later inputs) count = skip inputs (count + 1) := by
  funext position
  rw [skip, later, skip, Nat.add_assoc]

theorem skip_skip (first second : Nat) :
    skip (skip inputs first) second = skip inputs (first + second) := by
  funext position
  rw [skip, skip, skip, Nat.add_assoc, Nat.add_comm second]

/-- The stage at which a command of the plan fails first. -/
def firstFault (inputs : Nat → Input Answer Error) : List (Option Stage) → Option Stage
  | [] => none
  | none :: plan => firstFault (later inputs) plan
  | some stage :: plan => if Fails inputs 0 then some stage else firstFault (later inputs) plan

theorem firstFault_append (front back : List (Option Stage)) :
    firstFault inputs (front ++ back) =
      (firstFault inputs front).or (firstFault (skip inputs front.length) back) := by
  induction front generalizing inputs with
  | nil => rw [List.nil_append, firstFault, Option.none_or, List.length_nil, skip_zero]
  | cons step front ih =>
    cases step with
    | none => rw [List.cons_append, firstFault, ih, firstFault, List.length_cons, skip_later]
    | some stage =>
      rw [List.cons_append, firstFault, firstFault]
      split
      · rw [Option.some_or]
      · rw [ih, List.length_cons, skip_later]

theorem firstFault_append_none {front back : List (Option Stage)}
    (passes : firstFault inputs front = none) :
    firstFault inputs (front ++ back) = firstFault (skip inputs front.length) back := by
  rw [firstFault_append, passes, Option.none_or]

theorem firstFault_append_some {front back : List (Option Stage)} {stage : Stage}
    (stops : firstFault inputs front = some stage) :
    firstFault inputs (front ++ back) = some stage := by
  rw [firstFault_append, stops, Option.some_or]

theorem firstFault_mem {plan : List (Option Stage)} {stage : Stage}
    (stops : firstFault inputs plan = some stage) : some stage ∈ plan := by
  induction plan generalizing inputs with
  | nil => cases stops
  | cons step plan ih =>
    cases step with
    | none => exact List.mem_cons_of_mem _ (ih (later inputs) stops)
    | some other =>
      rw [firstFault] at stops
      split at stops
      · cases stops
        exact List.mem_cons_self
      · exact List.mem_cons_of_mem _ (ih (later inputs) stops)

section Steps

variable {Key : Type} {Doc : Key → Type} {Index Member : Type} [LinearOrder Member]
  [DecidableEq Key] [DecidableEq Index] {β : Type} {inputs}
  {contents : Contents Key Doc Index Member} {command : Command Key Doc Index Member Service}
  {continuation : Except Error (command.Reply Answer) →
    Script Key Doc Index Member Service Answer Error β}

theorem eval_of_passes (passes : ¬ Fails inputs 0 = true) :
    Program.eval exec (.perform command continuation) inputs contents =
      Program.eval exec (continuation (perform (inputs 0) contents command).1) (later inputs)
        (perform (inputs 0) contents command).2 := by
  rw [Fails, Option.not_isSome_iff_eq_none] at passes
  exact eval_of_success inputs contents passes

end Steps

end Database
