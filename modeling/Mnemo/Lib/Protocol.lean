import Mnemo.Lib.Program

/-!
# Threads that follow a protocol

A protocol gives a thread a state of its own, which moves with the commands that the thread
performs and with their replies, and says which commands are allowed in it.  What every allowed
command keeps holds throughout the runs of threads that follow the protocol.  For such runs the
server is observed: beside it stand the states of the threads and an account of the run.
-/

namespace Program

/-- How a thread may move. -/
structure Protocol (Command : Type) (Reply : Command → Type) (Error Local : Type) where
  /-- The state of a thread that has performed nothing. -/
  start : Local
  /-- The commands that may be performed. -/
  allowed : Local → Command → Prop
  /-- The replies that are reckoned with. -/
  expected : Local → (command : Command) → Except Error (Reply command) → Prop
  /-- The state after a reply. -/
  next : Local → (command : Command) → Except Error (Reply command) → Local

namespace Protocol

variable {Command : Type} {Reply : Command → Type} {Error Local α β : Type}
  (protocol : Protocol Command Reply Error Local)

/-- From a state on, a program performs allowed commands only and ends as described. -/
inductive Follows (post : Local → Except Error α → Prop) :
    Local → Program Command Reply Error α → Prop
  | done {state : Local} {value : α} (described : post state (.ok value)) :
      Follows post state (.done value)
  | fail {state : Local} {error : Error} (described : post state (.error error)) :
      Follows post state (.fail error)
  | perform {state : Local} {command : Command} {continuation : Except Error (Reply command) →
        Program Command Reply Error α} (allows : protocol.allowed state command)
      (continues : ∀ reply, protocol.expected state command reply →
        Follows post (protocol.next state command reply) (continuation reply)) :
      Follows post state (.perform command continuation)

namespace Follows

variable {protocol} {state : Local} {post : Local → Except Error α → Prop}
  {program : Program Command Reply Error α}

theorem mono {weak : Local → Except Error α → Prop}
    (follows : protocol.Follows post state program)
    (weaken : ∀ last outcome, post last outcome → weak last outcome) :
    protocol.Follows weak state program := by
  induction follows with
  | done described => exact .done (weaken _ _ described)
  | fail described => exact .fail (weaken _ _ described)
  | perform allows _ ih => exact .perform allows ih

theorem bind {next : α → Program Command Reply Error β} {final : Local → Except Error β → Prop}
    (first : protocol.Follows post state program)
    (rest : ∀ middle value, post middle (.ok value) →
      protocol.Follows final middle (next value))
    (fails : ∀ last error, post last (.error error) → final last (.error error)) :
    protocol.Follows final state (program >>= next) := by
  induction first with
  | done described => exact rest _ _ described
  | fail described => exact .fail (fails _ _ described)
  | perform allows _ ih => exact .perform allows ih

theorem bind_attempt {next : Except Error α → Program Command Reply Error β}
    {final : Local → Except Error β → Prop} (first : protocol.Follows post state program)
    (rest : ∀ middle outcome, post middle outcome →
      protocol.Follows final middle (next outcome)) :
    protocol.Follows final state (program.attempt >>= next) := by
  induction first with
  | done described => exact rest _ _ described
  | fail described => exact rest _ _ described
  | perform allows _ ih => exact .perform allows ih

theorem bind_call {command : Command} {next : Reply command → Program Command Reply Error β}
    {final : Local → Except Error β → Prop} (allows : protocol.allowed state command)
    (rest : ∀ value, protocol.expected state command (.ok value) →
      protocol.Follows final (protocol.next state command (.ok value)) (next value))
    (fails : ∀ error, protocol.expected state command (.error error) →
      final (protocol.next state command (.error error)) (.error error)) :
    protocol.Follows final state (Program.call command >>= next) := by
  refine .perform allows fun reply expected => ?_
  cases reply with
  | ok value => exact rest value expected
  | error error => exact .fail (fails error expected)

theorem bind_moving {command : Command} {next : Reply command → Program Command Reply Error β}
    {middle : Local} {final : Local → Except Error β → Prop}
    (allows : protocol.allowed state command)
    (moves : ∀ value, protocol.next state command (.ok value) = middle)
    (rest : ∀ value, protocol.expected state command (.ok value) →
      protocol.Follows final middle (next value))
    (fails : ∀ error, protocol.expected state command (.error error) →
      final (protocol.next state command (.error error)) (.error error)) :
    protocol.Follows final state (Program.call command >>= next) := by
  apply bind_call allows
  · intro value expected
    rw [moves]
    exact rest value expected
  · exact fails

theorem bind_ofExcept {outcome : Except Error α} {next : α → Program Command Reply Error β}
    {final : Local → Except Error β → Prop}
    (rest : ∀ value, outcome = .ok value → protocol.Follows final state (next value))
    (fails : ∀ error, final state (.error error)) :
    protocol.Follows final state (Program.ofExcept outcome >>= next) := by
  cases outcome with
  | ok value => exact rest value rfl
  | error error => exact .fail (fails error)

theorem of_performs {kind : Command → Prop} (performs : Performs kind program)
    (allows : ∀ command, kind command → protocol.allowed state command)
    (stays : ∀ command reply, kind command → protocol.next state command reply = state) :
    protocol.Follows (fun last _ => last = state) state program := by
  induction performs with
  | done => exact .done rfl
  | fail => exact .fail rfl
  | perform belongs _ ih =>
    refine .perform (allows _ belongs) fun reply _ => ?_
    rw [stays _ reply belongs]
    exact ih reply

theorem of_completes {kind : Command → Prop} (completes : Completes kind program)
    (allows : ∀ command, kind command → protocol.allowed state command)
    (stays : ∀ command value, kind command → protocol.next state command (.ok value) = state)
    (ends : ∀ value, post state (.ok value))
    (fails : ∀ command error other, kind command →
      protocol.expected state command (.error error) →
        post (protocol.next state command (.error error)) (.error other)) :
    protocol.Follows post state program := by
  induction completes with
  | done => exact .done (ends _)
  | perform belongs stops _ ih =>
    refine .perform (allows _ belongs) fun reply expected => ?_
    cases reply with
    | ok value =>
      rw [stays _ value belongs]
      exact ih value
    | error error =>
      obtain ⟨other, stopped⟩ := stops error
      rw [stopped]
      exact .fail (fails _ error other belongs expected)

theorem ensures {Input Shared : Type}
    {exec : (command : Command) → Input → Shared → Except Error (Reply command) × Shared}
    {admitted : Input → Prop} {permitted : Command → Shared → Prop}
    {invariant : Local → Shared → Prop}
    (kept : ∀ state command input shared, protocol.allowed state command →
      invariant state shared → admitted input →
        protocol.expected state command (exec command input shared).1 ∧
          invariant (protocol.next state command (exec command input shared).1)
            (exec command input shared).2)
    (permits : ∀ state command shared, protocol.allowed state command →
      invariant state shared → permitted command shared)
    (follows : protocol.Follows post state program) {shared : Shared}
    (holds : invariant state shared) :
    Ensures exec admitted permitted
      (fun outcome final => ∃ last, post last outcome ∧ invariant last final) program shared := by
  induction follows generalizing shared with
  | done described => exact .done ⟨_, described, holds⟩
  | fail described => exact .fail ⟨_, described, holds⟩
  | perform allows _ ih =>
    refine .perform (permits _ _ _ allows holds) fun input admissible => ?_
    obtain ⟨reckoned, still⟩ := kept _ _ input shared allows holds admissible
    exact ih _ reckoned still

end Follows
end Protocol

/-! ## Overtaking

A thread that looked at something shared is overtaken when another one changes it. -/

namespace Overtaken

/-- A thread looks: nobody has overtaken it since. -/
def look (overtaken : Nat → Bool) (thread : Nat) : Nat → Bool :=
  Function.update overtaken thread false

/-- A thread changes what the others may have looked at. -/
def change (overtaken : Nat → Bool) (thread : Nat) : Nat → Bool :=
  fun other => overtaken other || decide (other ≠ thread)

@[simp]
theorem look_self (overtaken : Nat → Bool) (thread : Nat) : look overtaken thread thread = false :=
  Function.update_self _ _ _

theorem look_of_ne {thread other : Nat} (different : other ≠ thread) (overtaken : Nat → Bool) :
    look overtaken thread other = overtaken other :=
  Function.update_of_ne different _ _

@[simp]
theorem change_self (overtaken : Nat → Bool) (thread : Nat) :
    change overtaken thread thread = overtaken thread := by
  simp [change]

theorem change_of_ne {thread other : Nat} (different : other ≠ thread) (overtaken : Nat → Bool) :
    change overtaken thread other = true := by
  simp [change, different]

end Overtaken

/-! ## Observed runs -/

variable {Command : Type} {Reply : Command → Type}
  {Error Shared Request Response Local Account Input : Type}

variable (Command Reply Error Shared Request Response Local Account) in
/-- A server with the states of its threads and an account of the run. -/
structure Observed where
  server : Server Command Reply Error Shared Request Response
  locals : Nat → Local
  account : Account

namespace Observed

variable
  (exec : (command : Command) → Input → Shared → Except Error (Reply command) × Shared)
  (handler : Request → Program Command Reply Error Response)
  (protocol : Protocol Command Reply Error Local)
  (watch : Account → (thread : Nat) → Local → (command : Command) → Input →
    Except Error (Reply command) → Account)

/-- Nothing has happened yet. -/
def idle (shared : Shared) (account : Account) :
    Observed Command Reply Error Shared Request Response Local Account :=
  { server := Server.idle shared, locals := fun _ => protocol.start, account }

/-- One step of the server, and what is noted of it. -/
def step (observed : Observed Command Reply Error Shared Request Response Local Account)
    (event : Event Input Request) :
    Observed Command Reply Error Shared Request Response Local Account :=
  let server := observed.server.step exec handler event
  match event with
  | .arrive _ _ => { observed with server }
  | .advance thread input =>
      match observed.server.threads thread with
      | some (_, .perform command _) =>
          let reply := (exec command input observed.server.shared).1
          { server
            locals := Function.update observed.locals thread
              (protocol.next (observed.locals thread) command reply)
            account := watch observed.account thread (observed.locals thread) command input
              reply }
      | _ => observed

variable {exec handler protocol watch}

theorem server_step
    (observed : Observed Command Reply Error Shared Request Response Local Account)
    (event : Event Input Request) :
    (step exec handler protocol watch observed event).server =
      observed.server.step exec handler event := by
  cases event with
  | arrive thread request => rfl
  | advance thread input =>
    unfold step
    dsimp only
    split
    · rfl
    · rename_i waiting
      unfold Server.step
      dsimp only
      split
      · rename_i request command continuation running
        exact absurd running (waiting request command continuation)
      · rfl

theorem always_server
    (property : Server Command Reply Error Shared Request Response → Prop)
    {observed : Observed Command Reply Error Shared Request Response Local Account}
    {events : List (Event Input Request)}
    (always : StateMachine.Always (step exec handler protocol watch)
      (fun observed => property observed.server) observed events) :
    StateMachine.Always (Server.step exec handler) property observed.server events := by
  induction events generalizing observed with
  | nil => exact always
  | cons event events ih =>
    have later := ih always.2
    rw [server_step] at later
    exact ⟨always.1, later⟩

/-- The invariant holds of the shared state, the states of the threads and the account, and every
thread follows the protocol from its state on. -/
structure Sound (protocol : Protocol Command Reply Error Local)
    (invariant : Shared → (Nat → Local) → Account → Prop)
    (post : Local → Except Error Response → Prop)
    (observed : Observed Command Reply Error Shared Request Response Local Account) : Prop where
  holds : invariant observed.server.shared observed.locals observed.account
  vacant : ∀ thread, observed.server.threads thread = none →
    observed.locals thread = protocol.start
  follows : ∀ thread request program,
    observed.server.threads thread = some (request, program) →
      protocol.Follows post (observed.locals thread) program

/-- The rule of protocols: when every request is served by a program that follows the protocol, and
every allowed command that meets the guard has a reply that is reckoned with and keeps the
invariant, every run that meets the guard is sound throughout. -/
theorem always_sound {invariant : Shared → (Nat → Local) → Account → Prop}
    {post : Local → Except Error Response → Prop}
    {guard : Observed Command Reply Error Shared Request Response Local Account →
      Event Input Request → Prop}
    (handled : ∀ request, protocol.Follows post protocol.start (handler request))
    (kept : ∀ observed thread request command continuation input,
      Sound protocol invariant post observed →
      observed.server.threads thread = some (request, .perform command continuation) →
      protocol.allowed (observed.locals thread) command →
      guard observed (.advance thread input) →
      let reply := (exec command input observed.server.shared).1
      protocol.expected (observed.locals thread) command reply ∧
        invariant (exec command input observed.server.shared).2
          (Function.update observed.locals thread
            (protocol.next (observed.locals thread) command reply))
          (watch observed.account thread (observed.locals thread) command input reply))
    {observed : Observed Command Reply Error Shared Request Response Local Account}
    (initially : Sound protocol invariant post observed) {events : List (Event Input Request)}
    (guarded : StateMachine.Guarded (step exec handler protocol watch) guard observed events) :
    StateMachine.Always (step exec handler protocol watch) (Sound protocol invariant post)
      observed events := by
  apply guarded.always
  · intro observed event sound admissible
    obtain ⟨holds, vacant, follows⟩ := sound
    cases event with
    | arrive thread request =>
      unfold step Server.step
      dsimp only
      cases occupied : observed.server.threads thread with
      | some running => exact ⟨holds, vacant, follows⟩
      | none =>
        refine ⟨holds, fun other free => ?_, fun other request' program running => ?_⟩
        · dsimp only at free ⊢
          rcases eq_or_ne other thread with rfl | different
          · exact vacant other occupied
          · exact vacant other (by rwa [Function.update_of_ne different] at free)
        · dsimp only at running ⊢
          rcases eq_or_ne other thread with rfl | different
          · rw [Function.update_self] at running
            obtain ⟨rfl, rfl⟩ := Prod.mk.inj (Option.some.inj running)
            rw [vacant other occupied]
            exact handled request
          · rw [Function.update_of_ne different] at running
            exact follows other request' program running
    | advance thread input =>
      unfold step Server.step
      dsimp only
      split
      · rename_i request command continuation running
        simp only [running]
        have mine := follows thread request _ running
        cases mine with
        | perform allows continues =>
          obtain ⟨reckoned, kept⟩ := kept observed thread request command continuation input
            ⟨holds, vacant, follows⟩ running allows admissible
          refine ⟨kept, fun other free => ?_, fun other request' program served => ?_⟩
          · dsimp only at free ⊢
            rcases eq_or_ne other thread with rfl | different
            · simp at free
            · rw [Function.update_of_ne different] at free ⊢
              exact vacant other free
          · dsimp only at served ⊢
            rcases eq_or_ne other thread with rfl | different
            · rw [Function.update_self] at served ⊢
              obtain ⟨rfl, rfl⟩ := Prod.mk.inj (Option.some.inj served)
              exact continues _ reckoned
            · rw [Function.update_of_ne different] at served ⊢
              exact follows other request' program served
      · exact ⟨holds, vacant, follows⟩
  · exact initially

theorem Sound.idle {invariant : Shared → (Nat → Local) → Account → Prop}
    {post : Local → Except Error Response → Prop} {shared : Shared} {account : Account}
    (holds : invariant shared (fun _ => protocol.start) account) :
    Sound protocol invariant post (idle protocol shared account :
      Observed Command Reply Error Shared Request Response Local Account) :=
  ⟨holds, fun _ _ => rfl, fun _ _ _ found => nomatch found⟩

end Observed

/-! ## Observed workers -/

variable (Command Reply Error Shared Response Local Account) in
/-- A worker with the state of its program and an account of the run. -/
structure Attended where
  worker : Worker Command Reply Error Shared Response
  state : Local
  account : Account

namespace Attended

variable
  (exec : (command : Command) → Input → Shared → Except Error (Reply command) × Shared)
  (handler : Request → Program Command Reply Error Response)
  (protocol : Protocol Command Reply Error Local) (begins : Shared → Local)
  (watch : Account → Local → (command : Command) → Except Error (Reply command) → Account)

/-- No program is running. -/
def AtRest (attended : Attended Command Reply Error Shared Response Local Account) : Prop :=
  ∀ command continuation, attended.worker.current ≠ .perform command continuation

/-- One step of the worker, and what is noted of it; a program begins in a state that depends on
what is shared. -/
def step (attended : Attended Command Reply Error Shared Response Local Account)
    (event : Worker.Event Input Request) :
    Attended Command Reply Error Shared Response Local Account :=
  let worker := attended.worker.step exec handler event
  match event with
  | .begin _ =>
      match attended.worker.current with
      | .perform _ _ => attended
      | _ => { attended with worker, state := begins attended.worker.shared }
  | .advance input =>
      match attended.worker.current with
      | .perform command _ =>
          let reply := (exec command input attended.worker.shared).1
          { worker
            state := protocol.next attended.state command reply
            account := watch attended.account attended.state command reply }
      | _ => attended

variable {exec handler protocol begins watch}

/-- The invariant holds of the shared state, the state of the program and the account, and the
program follows the protocol. -/
structure Sound (protocol : Protocol Command Reply Error Local)
    (invariant : Shared → Local → Account → Prop) (post : Local → Except Error Response → Prop)
    (attended : Attended Command Reply Error Shared Response Local Account) : Prop where
  holds : invariant attended.worker.shared attended.state attended.account
  follows : protocol.Follows post attended.state attended.worker.current

/-- The rule of protocols for one worker. -/
theorem always_sound {invariant : Shared → Local → Account → Prop}
    {post : Local → Except Error Response → Prop}
    {guard : Attended Command Reply Error Shared Response Local Account →
      Worker.Event Input Request → Prop}
    (handled : ∀ attended request, Sound protocol invariant post attended → AtRest attended →
      guard attended (.begin request) →
      invariant attended.worker.shared (begins attended.worker.shared) attended.account ∧
        protocol.Follows post (begins attended.worker.shared) (handler request))
    (kept : ∀ attended command continuation input, Sound protocol invariant post attended →
      attended.worker.current = .perform command continuation →
      protocol.allowed attended.state command → guard attended (.advance input) →
      let reply := (exec command input attended.worker.shared).1
      protocol.expected attended.state command reply ∧
        invariant (exec command input attended.worker.shared).2
          (protocol.next attended.state command reply)
          (watch attended.account attended.state command reply))
    {attended : Attended Command Reply Error Shared Response Local Account}
    (initially : Sound protocol invariant post attended)
    {events : List (Worker.Event Input Request)}
    (guarded : StateMachine.Guarded (step exec handler protocol begins watch) guard attended
      events) :
    StateMachine.Always (step exec handler protocol begins watch)
      (Sound protocol invariant post) attended events := by
  apply guarded.always
  · rintro ⟨⟨shared, current⟩, state, account⟩ event sound admissible
    obtain ⟨holds, follows⟩ := sound
    cases event with
    | begin request =>
      cases current with
      | perform command continuation => exact ⟨holds, follows⟩
      | done value =>
        obtain ⟨starts, new⟩ := handled _ request ⟨holds, follows⟩
          (fun _ _ running => nomatch running) admissible
        exact ⟨starts, new⟩
      | fail error =>
        obtain ⟨starts, new⟩ := handled _ request ⟨holds, follows⟩
          (fun _ _ running => nomatch running) admissible
        exact ⟨starts, new⟩
    | advance input =>
      cases current with
      | perform command continuation =>
        have mine := follows
        cases mine with
        | perform allows continues =>
          obtain ⟨reckoned, kept⟩ := kept _ command continuation input ⟨holds, follows⟩ rfl
            allows admissible
          exact ⟨kept, continues _ reckoned⟩
      | done value => exact ⟨holds, follows⟩
      | fail error => exact ⟨holds, follows⟩
  · exact initially

end Attended
end Program
