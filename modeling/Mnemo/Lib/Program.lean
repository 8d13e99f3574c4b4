import Mathlib.Logic.Function.Basic
import Mathlib.Tactic.TypeStar
import Mnemo.Lib.StateMachine

/-!
# Programs over a shared state

A program performs commands one at a time, each of which replies or fails, and ends with a value or
an error.  The same text has a sequential meaning, in which one program runs alone, and an
interleaved one, in which the commands of many programs alternate.
-/

/-- A program that performs commands and ends with a value or an error. -/
inductive Program (Command : Type) (Reply : Command → Type) (Error α : Type) : Type
  | done (value : α)
  | fail (error : Error)
  | perform (command : Command)
      (next : Except Error (Reply command) → Program Command Reply Error α)

namespace Program

variable {Command : Type} {Reply : Command → Type} {Error α β : Type}

/-- Run one program and hand its value to the next; an error ends both. -/
def bind (program : Program Command Reply Error α)
    (next : α → Program Command Reply Error β) : Program Command Reply Error β :=
  match program with
  | .done value => next value
  | .fail error => .fail error
  | .perform command continuation =>
      .perform command fun reply => (continuation reply).bind next

instance : Monad (Program Command Reply Error) where
  pure := .done
  bind := .bind

@[simp]
theorem pure_eq (value : α) :
    (pure value : Program Command Reply Error α) = .done value := rfl

@[simp]
theorem done_bind (value : α) (next : α → Program Command Reply Error β) :
    (Program.done value >>= next) = next value := rfl

@[simp]
theorem fail_bind (error : Error) (next : α → Program Command Reply Error β) :
    ((.fail error : Program Command Reply Error α) >>= next) = .fail error := rfl

@[simp]
theorem perform_bind (command : Command)
    (continuation : Except Error (Reply command) → Program Command Reply Error α)
    (next : α → Program Command Reply Error β) :
    (Program.perform command continuation >>= next) =
      .perform command fun reply => continuation reply >>= next := rfl

theorem bind_bind {γ : Type} (program : Program Command Reply Error α)
    (next : α → Program Command Reply Error β) (last : β → Program Command Reply Error γ) :
    ((program >>= next) >>= last) = program >>= fun value => next value >>= last := by
  induction program with
  | done value => rfl
  | fail error => rfl
  | perform command continuation ih => exact congrArg (perform command) (funext ih)

/-- End with the outcome of a pure computation. -/
def ofExcept : Except Error α → Program Command Reply Error α
  | .ok value => .done value
  | .error error => .fail error

/-- Perform a command and end with its reply. -/
def call (command : Command) : Program Command Reply Error (Reply command) :=
  .perform command ofExcept

/-- Run a program and hand on its error as a value. -/
def attempt : Program Command Reply Error α → Program Command Reply Error (Except Error α)
  | .done value => .done (.ok value)
  | .fail error => .done (.error error)
  | .perform command continuation =>
      .perform command fun reply => (continuation reply).attempt

/-! ## Sequential meaning -/

section Sequential

variable {State Input : Type}
  (exec : (command : Command) → Input → State → Except Error (Reply command) × State)

/-- Run a program alone; the environment answers the commands with the inputs in turn. -/
def eval : Program Command Reply Error α → (Nat → Input) → State → Except Error α × State
  | .done value, _, state => (.ok value, state)
  | .fail error, _, state => (.error error, state)
  | .perform command continuation, inputs, state =>
      let (reply, next) := exec command (inputs 0) state
      (continuation reply).eval (fun position => inputs (position + 1)) next

theorem eval_call_bind (command : Command) (next : Reply command → Program Command Reply Error β)
    (inputs : Nat → Input) (state : State) :
    (call command >>= next).eval exec inputs state =
      match (exec command (inputs 0) state).1 with
      | .ok value => (next value).eval exec (fun position => inputs (position + 1))
          (exec command (inputs 0) state).2
      | .error error => (.error error, (exec command (inputs 0) state).2) := by
  show ((ofExcept (exec command (inputs 0) state).1).bind next).eval exec
    (fun position => inputs (position + 1)) (exec command (inputs 0) state).2 = _
  cases (exec command (inputs 0) state).1 <;> rfl

variable {exec}

theorem eval_bind_done (program : Program Command Reply Error α) (finish : α → β)
    (inputs : Nat → Input) (state : State) :
    (program >>= fun value => .done (finish value)).eval exec inputs state =
      ((program.eval exec inputs state).1.map finish, (program.eval exec inputs state).2) := by
  induction program generalizing inputs state with
  | done value => rfl
  | fail error => rfl
  | perform command continuation ih => exact ih _ _ _

theorem state_bind_pure (program : Program Command Reply Error α) (value : β)
    (inputs : Nat → Input) (state : State) :
    ((program >>= fun _ => pure value).eval exec inputs state).2 =
      (program.eval exec inputs state).2 := by
  induction program generalizing inputs state with
  | done value => rfl
  | fail error => rfl
  | perform command continuation ih => exact ih _ _ _

variable (exec)
variable (allowed : Input → Prop) (permitted : Command → State → Prop)

/-- Whatever allowed inputs the environment chooses, the program run from this state performs
permitted commands only and ends as described. -/
inductive Ensures (post : Except Error α → State → Prop) :
    Program Command Reply Error α → State → Prop
  | done {value : α} {state : State} (described : post (.ok value) state) :
      Ensures post (.done value) state
  | fail {error : Error} {state : State} (described : post (.error error) state) :
      Ensures post (.fail error) state
  | perform {command : Command} {continuation : Except Error (Reply command) →
        Program Command Reply Error α} {state : State} (permits : permitted command state)
      (continues : ∀ input, allowed input →
        Ensures post (continuation (exec command input state).1) (exec command input state).2) :
      Ensures post (.perform command continuation) state

/-- Whatever allowed inputs the environment chooses, the program run from this state comes to
perform a command of a kind. -/
inductive Reaches (kind : Command → Prop) : Program Command Reply Error α → State → Prop
  | here {command : Command} {continuation : Except Error (Reply command) →
        Program Command Reply Error α} {state : State} (belongs : kind command) :
      Reaches kind (.perform command continuation) state
  | later {command : Command} {continuation : Except Error (Reply command) →
        Program Command Reply Error α} {state : State}
      (continues : ∀ input, allowed input →
        Reaches kind (continuation (exec command input state).1) (exec command input state).2) :
      Reaches kind (.perform command continuation) state

/-- Whatever the replies are, the program performs only commands of a kind. -/
inductive Performs (kind : Command → Prop) : Program Command Reply Error α → Prop
  | done {value : α} : Performs kind (.done value)
  | fail {error : Error} : Performs kind (.fail error)
  | perform {command : Command} {continuation : Except Error (Reply command) →
        Program Command Reply Error α} (belongs : kind command)
      (continues : ∀ reply, Performs kind (continuation reply)) :
      Performs kind (.perform command continuation)

/-- The program performs only commands of a kind, and ends with an error only when one of them
fails, and then at once. -/
inductive Completes (kind : Command → Prop) : Program Command Reply Error α → Prop
  | done {value : α} : Completes kind (.done value)
  | perform {command : Command} {continuation : Except Error (Reply command) →
        Program Command Reply Error α} (belongs : kind command)
      (fails : ∀ error, ∃ other, continuation (.error error) = .fail other)
      (continues : ∀ value, Completes kind (continuation (.ok value))) :
      Completes kind (.perform command continuation)

namespace Ensures

variable {exec allowed permitted} {program : Program Command Reply Error α}
  {post : Except Error α → State → Prop} {state : State}

theorem eval (ensures : Ensures exec allowed permitted post program state)
    {inputs : Nat → Input} (admissible : ∀ position, allowed (inputs position)) :
    post (program.eval exec inputs state).1 (program.eval exec inputs state).2 := by
  induction ensures generalizing inputs with
  | done described => exact described
  | fail described => exact described
  | perform _ _ ih => exact ih _ (admissible 0) fun position => admissible (position + 1)

theorem mono {weak : Except Error α → State → Prop}
    (ensures : Ensures exec allowed permitted post program state)
    (weaken : ∀ outcome final, post outcome final → weak outcome final) :
    Ensures exec allowed permitted weak program state := by
  induction ensures with
  | done described => exact .done (weaken _ _ described)
  | fail described => exact .fail (weaken _ _ described)
  | perform permits _ ih => exact .perform permits ih

theorem and {other : Except Error α → State → Prop}
    (first : Ensures exec allowed permitted post program state)
    (second : Ensures exec allowed permitted other program state) :
    Ensures exec allowed permitted (fun outcome final => post outcome final ∧ other outcome final)
      program state := by
  induction first with
  | done described =>
    cases second with
    | done also => exact .done ⟨described, also⟩
  | fail described =>
    cases second with
    | fail also => exact .fail ⟨described, also⟩
  | perform permits _ ih =>
    cases second with
    | perform _ continues =>
      exact .perform permits fun input admissible =>
        ih input admissible (continues input admissible)

theorem bind {next : α → Program Command Reply Error β} {final : Except Error β → State → Prop}
    (first : Ensures exec allowed permitted post program state)
    (rest : ∀ value middle, post (.ok value) middle →
      Ensures exec allowed permitted final (next value) middle)
    (fails : ∀ error middle, post (.error error) middle → final (.error error) middle) :
    Ensures exec allowed permitted final (program >>= next) state := by
  induction first with
  | done described => exact rest _ _ described
  | fail described => exact .fail (fails _ _ described)
  | perform permits _ ih => exact .perform permits ih

theorem bind_attempt {next : Except Error α → Program Command Reply Error β}
    {final : Except Error β → State → Prop}
    (first : Ensures exec allowed permitted post program state)
    (rest : ∀ outcome middle, post outcome middle →
      Ensures exec allowed permitted final (next outcome) middle) :
    Ensures exec allowed permitted final (program.attempt >>= next) state := by
  induction first with
  | done described => exact rest _ _ described
  | fail described => exact rest _ _ described
  | perform permits _ ih => exact .perform permits ih

theorem ofExcept {outcome : Except Error α} (described : post outcome state) :
    Ensures exec allowed permitted post (Program.ofExcept outcome) state := by
  cases outcome with
  | ok value => exact .done described
  | error error => exact .fail described

theorem call (command : Command) {post : Except Error (Reply command) → State → Prop}
    (permits : permitted command state)
    (described : ∀ input, allowed input →
      post (exec command input state).1 (exec command input state).2) :
    Ensures exec allowed permitted post (Program.call command) state :=
  .perform permits fun input admissible => ofExcept (described input admissible)

theorem reaches {kind : Command → Prop} {next : α → Program Command Reply Error β}
    (first : Ensures exec allowed permitted post program state)
    (rest : ∀ value middle, post (.ok value) middle → Reaches exec allowed kind (next value) middle)
    (succeeds : ∀ error middle, ¬ post (.error error) middle) :
    Reaches exec allowed kind (program >>= next) state := by
  induction first with
  | done described => exact rest _ _ described
  | fail described => exact absurd described (succeeds _ _)
  | perform _ _ ih => exact .later ih

theorem reaches_attempt {kind : Command → Prop}
    {next : Except Error α → Program Command Reply Error β}
    (first : Ensures exec allowed permitted post program state)
    (rest : ∀ outcome middle, post outcome middle →
      Reaches exec allowed kind (next outcome) middle) :
    Reaches exec allowed kind (program.attempt >>= next) state := by
  induction first with
  | done described => exact rest _ _ described
  | fail described => exact rest _ _ described
  | perform _ _ ih => exact .later ih

theorem not_reaches {kind : Command → Prop}
    (never : Ensures exec allowed (fun command _ => ¬ kind command) post program state)
    {input : Input} (admissible : allowed input) : ¬ Reaches exec allowed kind program state := by
  intro reaches
  induction never with
  | done described => cases reaches
  | fail described => cases reaches
  | perform permits _ ih =>
    cases reaches with
    | here belongs => exact permits belongs
    | later continues => exact ih input admissible (continues input admissible)

end Ensures

namespace Performs

variable {kind : Command → Prop} {program : Program Command Reply Error α}

theorem mono {wide : Command → Prop} (performs : Performs kind program)
    (widen : ∀ command, kind command → wide command) : Performs wide program := by
  induction performs with
  | done => exact .done
  | fail => exact .fail
  | perform belongs _ ih => exact .perform (widen _ belongs) ih

theorem bind {next : α → Program Command Reply Error β} (first : Performs kind program)
    (rest : ∀ value, Performs kind (next value)) : Performs kind (program >>= next) := by
  induction first with
  | done => exact rest _
  | fail => exact .fail
  | perform belongs _ ih => exact .perform belongs ih

theorem attempt (performs : Performs kind program) : Performs kind program.attempt := by
  induction performs with
  | done => exact .done
  | fail => exact .done
  | perform belongs _ ih => exact .perform belongs ih

theorem ofExcept (outcome : Except Error α) :
    Performs kind (Program.ofExcept outcome : Program Command Reply Error α) := by
  cases outcome with
  | ok value => exact .done
  | error error => exact .fail

theorem call (command : Command) (belongs : kind command) :
    Performs kind (Program.call command : Program Command Reply Error _) :=
  .perform belongs fun reply => ofExcept reply

theorem ensures {exec allowed} {permitted : Command → State → Prop}
    (performs : Performs kind program) {related : State → State → Prop}
    (reflexive : ∀ state, related state state)
    (permits : ∀ command state, kind command → permitted command state)
    (grows : ∀ command (input : Input) first last, kind command → related first last →
      related first (exec command input last).2) (state : State) :
    Ensures exec allowed permitted (fun _ final => related state final) program state := by
  suffices general : ∀ last, related state last →
      Ensures exec allowed permitted (fun _ final => related state final) program last from
    general state (reflexive state)
  induction performs with
  | done => exact fun last kept => .done kept
  | fail => exact fun last kept => .fail kept
  | perform belongs _ ih =>
    exact fun last kept => .perform (permits _ last belongs) fun input _ =>
      ih _ _ (grows _ input state last belongs kept)

theorem eval_congr {exec} (performs : Performs kind program) {related : State → State → Prop}
    (same : ∀ command (input : Input) first last, kind command → related first last →
      (exec command input first).1 = (exec command input last).1 ∧
        related (exec command input first).2 (exec command input last).2)
    {first last : State} (alike : related first last) (inputs : Nat → Input) :
    (program.eval exec inputs first).1 = (program.eval exec inputs last).1 := by
  induction performs generalizing first last inputs with
  | done => rfl
  | fail => rfl
  | perform belongs _ ih =>
    obtain ⟨replies, after⟩ := same _ (inputs 0) first last belongs alike
    simp only [Program.eval]
    rw [replies]
    exact ih _ after _

end Performs

theorem Ensures.restrict {State Input : Type}
    {exec : (command : Command) → Input → State → Except Error (Reply command) × State}
    {allowed : Input → Prop} {permitted : Command → State → Prop} {kind : Command → Prop}
    {post : Except Error α → State → Prop} {program : Program Command Reply Error α}
    {state : State} (ensures : Ensures exec allowed permitted post program state)
    (performs : Performs kind program) :
    Ensures exec allowed (fun command _ => kind command) post program state := by
  induction ensures with
  | done described => exact .done described
  | fail described => exact .fail described
  | perform _ _ ih =>
    cases performs with
    | perform belongs continues =>
      exact .perform belongs fun input admissible => ih input admissible (continues _)

namespace Completes

variable {kind : Command → Prop} {program : Program Command Reply Error α}

theorem mono {wide : Command → Prop} (completes : Completes kind program)
    (widen : ∀ command, kind command → wide command) : Completes wide program := by
  induction completes with
  | done => exact .done
  | perform belongs fails _ ih => exact .perform (widen _ belongs) fails ih

theorem bind {next : α → Program Command Reply Error β} (first : Completes kind program)
    (rest : ∀ value, Completes kind (next value)) : Completes kind (program >>= next) := by
  induction first with
  | done => exact rest _
  | perform belongs fails _ ih =>
    refine .perform belongs (fun error => ?_) ih
    obtain ⟨other, ends⟩ := fails error
    exact ⟨other, congrArg (fun left => left.bind next) ends⟩

theorem call (command : Command) (belongs : kind command) :
    Completes kind (Program.call command : Program Command Reply Error _) :=
  .perform belongs (fun error => ⟨error, rfl⟩) fun _ => .done

theorem performs (completes : Completes kind program) : Performs kind program := by
  induction completes with
  | done => exact .done
  | perform belongs fails _ ih =>
    refine .perform belongs fun reply => ?_
    cases reply with
    | ok value => exact ih value
    | error error =>
      obtain ⟨other, ends⟩ := fails error
      rw [ends]
      exact .fail

/-- Where the commands of a kind do not fail, a program that completes ends with a value; what they
leave related it leaves related. -/
theorem ensures {exec : (command : Command) → Input → State → Except Error (Reply command) × State}
    {allowed : Input → Prop} {permitted : Command → State → Prop}
    (completes : Completes kind program) {related : State → State → Prop}
    (reflexive : ∀ state, related state state)
    (permits : ∀ command state, kind command → permitted command state)
    (succeeds : ∀ command input state, kind command → allowed input →
      ∃ value, (exec command input state).1 = .ok value)
    (grows : ∀ command (input : Input) first last, kind command → related first last →
      related first (exec command input last).2) (state : State) :
    Ensures exec allowed permitted
      (fun outcome final => (∃ value, outcome = .ok value) ∧ related state final) program
      state := by
  suffices general : ∀ last, related state last → Ensures exec allowed permitted
      (fun outcome final => (∃ value, outcome = .ok value) ∧ related state final) program last from
    general state (reflexive state)
  induction completes with
  | done => exact fun last kept => .done ⟨⟨_, rfl⟩, kept⟩
  | perform belongs _ _ ih =>
    intro last kept
    refine .perform (permits _ last belongs) fun input admissible => ?_
    obtain ⟨value, replied⟩ := succeeds _ input last belongs admissible
    rw [replied]
    exact ih value _ (grows _ input state last belongs kept)

end Completes
end Sequential

/-! ## One worker -/

section Serial

variable {Shared Input Request Response : Type}

variable (Command Reply Error Shared Response) in
/-- A shared state, and what is left of the program that the worker runs. -/
structure Worker where
  shared : Shared
  current : Program Command Reply Error Response

/-- A request begins, or the next command of the current program is performed. -/
inductive Worker.Event (Input Request : Type) where
  | begin (request : Request)
  | advance (input : Input)

namespace Worker

variable
  (exec : (command : Command) → Input → Shared → Except Error (Reply command) × Shared)
  (handler : Request → Program Command Reply Error Response)

/-- One step of the worker, who takes up a request only when the last one has ended. -/
def step (worker : Worker Command Reply Error Shared Response) :
    Event Input Request → Worker Command Reply Error Shared Response
  | .begin request =>
      match worker.current with
      | .perform _ _ => worker
      | _ => { worker with current := handler request }
  | .advance input =>
      match worker.current with
      | .perform command continuation =>
          let (reply, shared) := exec command input worker.shared
          { shared, current := continuation reply }
      | _ => worker

/-- The command that is performed next meets the check. -/
def Checked (check : Command → Input → Shared → Prop)
    (worker : Worker Command Reply Error Shared Response) : Event Input Request → Prop
  | .begin _ => True
  | .advance input =>
      match worker.current with
      | .perform command _ => check command input worker.shared
      | _ => True

variable {exec handler}

/-- The rule of the single worker: when every program, begun in a sound state, performs permitted
commands and ends in a sound state, and a permitted command keeps a property exactly if it meets a
check, then the property always holds exactly if every command meets the check. -/
theorem always_iff_checked {sound property : Shared → Prop}
    {permitted : Command → Shared → Prop} {check : Command → Input → Shared → Prop}
    (handled : ∀ request shared, sound shared →
      Ensures exec (fun _ => True) permitted (fun _ final => sound final) (handler request)
        shared)
    (decided : ∀ command input shared, permitted command shared → property shared →
      (property (exec command input shared).2 ↔ check command input shared))
    {worker : Worker Command Reply Error Shared Response}
    (begins : Ensures exec (fun _ => True) permitted (fun _ final => sound final) worker.current
      worker.shared)
    (initially : property worker.shared) (events : List (Event Input Request)) :
    StateMachine.Always (step exec handler) (fun worker => property worker.shared) worker events ↔
      StateMachine.Guarded (step exec handler) (Checked check) worker events := by
  apply StateMachine.always_iff_guarded fun worker : Worker Command Reply Error Shared Response =>
    Ensures exec (fun _ => True) permitted (fun _ final => sound final) worker.current
      worker.shared
  · rintro ⟨shared, current⟩ event running _
    cases event with
    | begin request =>
      cases running with
      | done described => exact handled request shared described
      | fail described => exact handled request shared described
      | perform permits continues => exact .perform permits continues
    | advance input =>
      cases running with
      | done described => exact .done described
      | fail described => exact .fail described
      | perform permits continues => exact continues input trivial
  · rintro ⟨shared, current⟩ event running holds
    cases event with
    | begin request =>
      cases running with
      | done described => exact iff_of_true holds trivial
      | fail described => exact iff_of_true holds trivial
      | perform permits continues => exact iff_of_true holds trivial
    | advance input =>
      cases running with
      | done described => exact iff_of_true holds trivial
      | fail described => exact iff_of_true holds trivial
      | perform permits continues => exact decided _ input shared permits holds
  · exact begins
  · exact initially

end Worker
end Serial

/-! ## Interleaved meaning -/

section Interleaved

variable {Shared Input Request Response : Type}

variable (Command Reply Error Shared Request Response) in
/-- A shared state, and the requests being served with what is left of their programs. -/
structure Server where
  shared : Shared
  threads : Nat → Option (Request × Program Command Reply Error Response)

/-- A request arrives on a thread, or the next command of a thread is performed. -/
inductive Event (Input Request : Type) where
  | arrive (thread : Nat) (request : Request)
  | advance (thread : Nat) (input : Input)

namespace Server

variable
  (exec : (command : Command) → Input → Shared → Except Error (Reply command) × Shared)
  (handler : Request → Program Command Reply Error Response)

/-- A server which no request has reached. -/
def idle (shared : Shared) : Server Command Reply Error Shared Request Response :=
  { shared, threads := fun _ => none }

/-- One atomic step of the server; a thread serves one request. -/
def step (server : Server Command Reply Error Shared Request Response) :
    Event Input Request → Server Command Reply Error Shared Request Response
  | .arrive thread request =>
      match server.threads thread with
      | none =>
          { server with
            threads := Function.update server.threads thread (some (request, handler request)) }
      | some _ => server
  | .advance thread input =>
      match server.threads thread with
      | some (request, .perform command continuation) =>
          let (reply, shared) := exec command input server.shared
          { shared
            threads := Function.update server.threads thread (some (request, continuation reply)) }
      | _ => server

variable {exec handler}

private theorem acceptable_update
    {acceptable : Request → Program Command Reply Error Response → Prop}
    {threads : Nat → Option (Request × Program Command Reply Error Response)}
    (all : ∀ thread request program, threads thread = some (request, program) →
      acceptable request program)
    (thread : Nat) {request : Request} {program : Program Command Reply Error Response}
    (new : acceptable request program) :
    ∀ other otherRequest otherProgram,
      Function.update threads thread (some (request, program)) other =
        some (otherRequest, otherProgram) → acceptable otherRequest otherProgram := by
  intro other otherRequest otherProgram found
  rcases eq_or_ne other thread with rfl | different
  · rw [Function.update_self] at found
    obtain ⟨rfl, rfl⟩ := Prod.mk.inj (Option.some.inj found)
    exact new
  · rw [Function.update_of_ne different] at found
    exact all other otherRequest otherProgram found

/-- The rule of interleaving: when each command which a thread may perform keeps the invariant of
the shared state, and what is left of the program stays acceptable whatever the state was, the
invariant holds throughout every run. -/
theorem always_shared {invariant : Shared → Prop}
    {guard : Server Command Reply Error Shared Request Response → Event Input Request → Prop}
    (acceptable : Request → Program Command Reply Error Response → Prop)
    (arrives : ∀ request, acceptable request (handler request))
    (performs : ∀ server thread request command continuation input,
      server.threads thread = some (request, .perform command continuation) →
      acceptable request (.perform command continuation) → invariant server.shared →
      guard server (.advance thread input) →
      invariant (exec command input server.shared).2 ∧
        acceptable request (continuation (exec command input server.shared).1))
    {shared : Shared} (initially : invariant shared) {events : List (Event Input Request)}
    (guarded : StateMachine.Guarded (step exec handler) guard (idle shared) events) :
    StateMachine.Always (step exec handler) (fun server => invariant server.shared)
      (idle shared) events := by
  have sound : StateMachine.Always (step exec handler) (fun server => invariant server.shared ∧
      ∀ thread request program, server.threads thread = some (request, program) →
        acceptable request program) (idle shared) events := by
    apply guarded.always
    · rintro server event ⟨shared_ok, threads_ok⟩ admissible
      cases event with
      | arrive thread request =>
        unfold step
        dsimp only
        split
        · exact ⟨shared_ok, acceptable_update threads_ok thread (arrives request)⟩
        · exact ⟨shared_ok, threads_ok⟩
      | advance thread input =>
        unfold step
        dsimp only
        split
        · rename_i request command continuation running
          obtain ⟨kept, left_ok⟩ := performs server thread request command continuation input
            running (threads_ok _ _ _ running) shared_ok admissible
          exact ⟨kept, acceptable_update threads_ok thread left_ok⟩
        · exact ⟨shared_ok, threads_ok⟩
    · exact ⟨initially, fun _ _ _ found => by cases found⟩
  exact sound.mono fun _ both => both.1

end Server
end Interleaved
end Program
