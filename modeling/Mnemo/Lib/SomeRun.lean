import Mnemo.Lib.Program

/-!
# Runs that the environment can bring about

Beside what every run of a program ensures stands what some run of it attains.  The environment
chooses the inputs one after another, so a run is put together command by command.
-/

namespace Program

variable {Command : Type} {Reply : Command → Type} {Error State Input α β γ : Type}
  (exec : (command : Command) → Input → State → Except Error (Reply command) × State)

/-- Some run of the program from a state ends in a state as described. -/
def Can (post : State → Prop) (program : Program Command Reply Error α) (state : State) : Prop :=
  ∃ inputs, post (program.eval exec inputs state).2

/-- The inputs that begin with a given one. -/
def beginWith (input : Input) (inputs : Nat → Input) : Nat → Input
  | 0 => input
  | position + 1 => inputs position

namespace Can

variable {exec} {post : State → Prop} {state : State}

theorem perform {command : Command} {continuation : Except Error (Reply command) →
      Program Command Reply Error α} (input : Input)
    (rest : Can exec post (continuation (exec command input state).1)
      (exec command input state).2) :
    Can exec post (.perform command continuation) state := by
  obtain ⟨inputs, reached⟩ := rest
  exact ⟨beginWith input inputs, reached⟩

theorem assoc {program : Program Command Reply Error α} {next : α → Program Command Reply Error β}
    {last : β → Program Command Reply Error γ}
    (can : Can exec post (program >>= fun value => next value >>= last) state) :
    Can exec post ((program >>= next) >>= last) state := by
  rw [bind_bind]
  exact can

theorem ofExcept {outcome : Except Error α} {value : α} {next : α → Program Command Reply Error β}
    (succeeds : outcome = .ok value) (rest : Can exec post (next value) state) :
    Can exec post (Program.ofExcept outcome >>= next) state := by
  rw [succeeds]
  exact rest

theorem call {command : Command} {next : Reply command → Program Command Reply Error β}
    (input : Input) {value : Reply command} {after : State}
    (replies : exec command input state = (.ok value, after))
    (rest : Can exec post (next value) after) :
    Can exec post (Program.call command >>= next) state := by
  apply perform input
  rw [replies]
  exact rest

theorem stop {command : Command} {next : Reply command → Program Command Reply Error β}
    (input : Input) {error : Error} {after : State}
    (fails : exec command input state = (.error error, after)) (described : post after) :
    Can exec post (Program.call command >>= next) state := by
  refine ⟨fun _ => input, ?_⟩
  rw [eval_call_bind, fails]
  exact described

end Can
end Program
