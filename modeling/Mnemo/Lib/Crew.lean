import Mathlib
import Mnemo.Lib.Protocol

/-!
# Tasks that hand on work

A crew is a shared state and a list of tasks.  A task runs the program of its job, one command at a
time, and ends with a list of jobs, each of which becomes a task of its own.  Beside its program a
task has the state in which the program stands in a protocol; what is shared does not depend on it.
-/

namespace Program

variable {Command : Type} {Reply : Command → Type} {Error Shared Job Local Input : Type}

variable (Command Reply Error Job Local) in
/-- A job, what is left of its program, and where the program stands in the protocol. -/
structure Task where
  job : Job
  program : Program Command Reply Error (List Job)
  state : Local

namespace Task

/-- The program has ended, and no job is left to hand on. -/
def ended (task : Task Command Reply Error Job Local) : Bool :=
  match task.program with
  | .done [] | .fail _ => true
  | _ => false

/-- The command that is performed next. -/
def upcoming (task : Task Command Reply Error Job Local) : Option Command :=
  match task.program with
  | .perform command _ => some command
  | _ => none

end Task

variable (Command Reply Error Shared Job Local) in
/-- A shared state and the tasks, those that have ended included. -/
structure Crew where
  shared : Shared
  tasks : List (Task Command Reply Error Job Local)

namespace Crew

variable (Command Reply Error Job Local) in
/-- What the tasks of a crew do. -/
structure Orders where
  /-- The jobs that come from outside. -/
  outside : Job → Bool
  /-- The program of a job. -/
  handler : Job → Program Command Reply Error (List Job)
  protocol : Protocol Command Reply Error Local
  /-- The state in which the program of a job begins. -/
  begins : Job → Local
  /-- The state of a task after it has handed on its first job. -/
  handsOn : Local → Local

/-- A job comes from outside, a task performs its next command, or it hands on its first job. -/
inductive Event (Input Job : Type) where
  | begin (job : Job)
  | advance (position : Nat) (input : Input)
  | handOn (position : Nat)

variable (exec : (command : Command) → Input → Shared → Except Error (Reply command) × Shared)
  (orders : Orders Command Reply Error Job Local)

/-- A crew without tasks. -/
def idle (shared : Shared) : Crew Command Reply Error Shared Job Local := ⟨shared, []⟩

/-- The task of a job which has just begun. -/
def Orders.task (job : Job) : Task Command Reply Error Job Local :=
  ⟨job, orders.handler job, orders.begins job⟩

/-- One step of a crew. -/
def step (crew : Crew Command Reply Error Shared Job Local) :
    Event Input Job → Crew Command Reply Error Shared Job Local
  | .begin job =>
      if orders.outside job then { crew with tasks := crew.tasks ++ [orders.task job] } else crew
  | .advance position input =>
      match crew.tasks[position]? with
      | some ⟨job, .perform command continuation, state⟩ =>
          let (reply, shared) := exec command input crew.shared
          { shared
            tasks := crew.tasks.set position
              ⟨job, continuation reply, orders.protocol.next state command reply⟩ }
      | _ => crew
  | .handOn position =>
      match crew.tasks[position]? with
      | some ⟨job, .done (next :: rest), state⟩ =>
          { crew with
            tasks := crew.tasks.set position ⟨job, .done rest, orders.handsOn state⟩ ++
              [orders.task next] }
      | _ => crew

variable {exec orders}

/-- The invariant holds, and every task follows the protocol from its state on. -/
structure Sound (orders : Orders Command Reply Error Job Local)
    (post : Local → Except Error (List Job) → Prop)
    (invariant : Shared → List (Task Command Reply Error Job Local) → Prop)
    (crew : Crew Command Reply Error Shared Job Local) : Prop where
  holds : invariant crew.shared crew.tasks
  follows : ∀ task ∈ crew.tasks, orders.protocol.Follows post task.state task.program

section Rule

variable {post : Local → Except Error (List Job) → Prop}
  {invariant : Shared → List (Task Command Reply Error Job Local) → Prop}
  {guard : Crew Command Reply Error Shared Job Local → Event Input Job → Prop}

/-- The rule of crews, for one step: the programs follow the protocol, and the invariant is kept
when a job comes from outside, when an allowed command is performed and when a job is handed on. -/
theorem Sound.step
    (handled : ∀ job, orders.protocol.Follows post (orders.begins job) (orders.handler job))
    (left : ∀ state next rest, post state (.ok (next :: rest)) →
      post (orders.handsOn state) (.ok rest))
    (begun : ∀ (crew : Crew Command Reply Error Shared Job Local) job, orders.outside job = true →
      guard crew (.begin job) → invariant crew.shared crew.tasks →
      invariant crew.shared (crew.tasks ++ [orders.task job]))
    (kept : ∀ (crew : Crew Command Reply Error Shared Job Local) position job command continuation
        state input, crew.tasks[position]? = some ⟨job, .perform command continuation, state⟩ →
      orders.protocol.allowed state command → guard crew (.advance position input) →
      invariant crew.shared crew.tasks →
      let reply := (exec command input crew.shared).1
      orders.protocol.expected state command reply ∧
        invariant (exec command input crew.shared).2 (crew.tasks.set position
          ⟨job, continuation reply, orders.protocol.next state command reply⟩))
    (handedOn : ∀ (crew : Crew Command Reply Error Shared Job Local) position job next rest state,
      crew.tasks[position]? = some ⟨job, .done (next :: rest), state⟩ →
      post state (.ok (next :: rest)) → invariant crew.shared crew.tasks →
      invariant crew.shared (crew.tasks.set position ⟨job, .done rest, orders.handsOn state⟩ ++
        [orders.task next]))
    {crew : Crew Command Reply Error Shared Job Local} (sound : Sound orders post invariant crew)
    {event : Event Input Job} (admissible : guard crew event) :
    Sound orders post invariant (step exec orders crew event) := by
  obtain ⟨holds, follows⟩ := sound
  cases event with
  | begin job =>
    unfold Crew.step
    dsimp only
    split
    · rename_i outside
      refine ⟨begun crew job outside admissible holds, fun task member => ?_⟩
      rcases List.mem_append.mp member with old | new
      · exact follows task old
      · rw [List.mem_singleton.mp new]
        exact handled job
    · exact ⟨holds, follows⟩
  | advance position input =>
    unfold Crew.step
    dsimp only
    split
    · rename_i job command continuation state found
      have mine := follows _ (List.mem_of_getElem? found)
      cases mine with
      | perform allows continues =>
        obtain ⟨reckoned, still⟩ := kept crew position job command continuation state input
          found allows admissible holds
        refine ⟨still, fun task member => ?_⟩
        rcases List.mem_or_eq_of_mem_set member with old | rfl
        · exact follows task old
        · exact continues _ reckoned
    · exact ⟨holds, follows⟩
  | handOn position =>
    unfold Crew.step
    dsimp only
    split
    · rename_i job next rest state found
      have mine := follows _ (List.mem_of_getElem? found)
      cases mine with
      | done described =>
        refine ⟨handedOn crew position job next rest state found described holds,
          fun task member => ?_⟩
        rcases List.mem_append.mp member with old | new
        · rcases List.mem_or_eq_of_mem_set old with older | rfl
          · exact follows task older
          · exact .done (left state next rest described)
        · rw [List.mem_singleton.mp new]
          exact handled next
    · exact ⟨holds, follows⟩

theorem Sound.idle {shared : Shared} (holds : invariant shared []) :
    Sound orders post invariant (Crew.idle shared) :=
  ⟨holds, fun _ member => nomatch member⟩

end Rule

/-! ## What is shared -/

section Shared

variable (exec orders) in
/-- What is shared stays as it is, or a task has performed its next command. -/
theorem shared_step (crew : Crew Command Reply Error Shared Job Local)
    (event : Event Input Job) :
    (step exec orders crew event).shared = crew.shared ∨
      ∃ position input task command, event = .advance position input ∧
        crew.tasks[position]? = some task ∧ task.upcoming = some command ∧
          (step exec orders crew event).shared = (exec command input crew.shared).2 := by
  cases event with
  | begin job =>
    left
    unfold Crew.step
    dsimp only
    split <;> rfl
  | handOn position =>
    left
    unfold Crew.step
    dsimp only
    split <;> rfl
  | advance position input =>
    cases found : crew.tasks[position]? with
    | none =>
      left
      simp [Crew.step, found]
    | some task =>
      obtain ⟨job, program, state⟩ := task
      cases program with
      | done jobs =>
        left
        simp [Crew.step, found]
      | fail error =>
        left
        simp [Crew.step, found]
      | perform command continuation =>
        right
        exact ⟨position, input, _, command, rfl, found, rfl, by simp [Crew.step, found]⟩

section Kept

variable {invariant : Shared → Prop}
  {guard : Crew Command Reply Error Shared Job Local → Event Input Job → Prop}
  (kept : ∀ (crew : Crew Command Reply Error Shared Job Local) position input task command,
    crew.tasks[position]? = some task → task.upcoming = some command →
    guard crew (.advance position input) → invariant crew.shared →
    invariant (exec command input crew.shared).2)

include kept

theorem shared_kept (crew : Crew Command Reply Error Shared Job Local)
    (event : Event Input Job) (holds : invariant crew.shared) (admissible : guard crew event) :
    invariant (step exec orders crew event).shared := by
  have stepped := shared_step exec orders crew event
  rcases stepped with same | ⟨position, input, task, command, rfl, found, upcoming, after⟩
  · rw [same]
    exact holds
  · rw [after]
    exact kept crew position input task command found upcoming admissible holds

theorem always_shared {crew : Crew Command Reply Error Shared Job Local}
    (initially : invariant crew.shared) {events : List (Event Input Job)}
    (guarded : StateMachine.Guarded (step exec orders) guard crew events) :
    StateMachine.Always (step exec orders) (fun crew => invariant crew.shared) crew events :=
  guarded.always (shared_kept kept) initially

end Kept
end Shared

/-! ## Where tasks stand -/

section States

/-- After a step every task stands where one stood before, has learned what a command replies, has
handed on a job, or begins. -/
theorem state_step {crew : Crew Command Reply Error Shared Job Local} {event : Event Input Job}
    {task : Task Command Reply Error Job Local}
    (member : task ∈ (step exec orders crew event).tasks) :
    (∃ old ∈ crew.tasks, task.state = old.state ∨ task.state = orders.handsOn old.state ∨
        ∃ command input, task.state =
          orders.protocol.next old.state command (exec command input crew.shared).1) ∨
      ∃ job, task.state = orders.begins job := by
  have before (old : task ∈ crew.tasks) : ∃ old ∈ crew.tasks, task.state = old.state ∨
      task.state = orders.handsOn old.state ∨ ∃ command input, task.state =
        orders.protocol.next old.state command (exec command input crew.shared).1 :=
    ⟨task, old, .inl rfl⟩
  cases event with
  | begin job =>
    unfold Crew.step at member
    dsimp only at member
    split at member
    · rcases List.mem_append.mp member with old | new
      · exact .inl (before old)
      · exact .inr ⟨job, congrArg Task.state (List.mem_singleton.mp new)⟩
    · exact .inl (before member)
  | advance position input =>
    unfold Crew.step at member
    dsimp only at member
    split at member
    · rename_i job command continuation state found
      rcases List.mem_or_eq_of_mem_set member with old | rfl
      · exact .inl (before old)
      · exact .inl ⟨_, List.mem_of_getElem? found, .inr (.inr ⟨command, input, rfl⟩)⟩
    · exact .inl (before member)
  | handOn position =>
    unfold Crew.step at member
    dsimp only at member
    split at member
    · rename_i job next rest state found
      rcases List.mem_append.mp member with earlier | new
      · rcases List.mem_or_eq_of_mem_set earlier with old | rfl
        · exact .inl (before old)
        · exact .inl ⟨_, List.mem_of_getElem? found, .inr (.inl rfl)⟩
      · exact .inr ⟨next, congrArg Task.state (List.mem_singleton.mp new)⟩
    · exact .inl (before member)

end States

/-! ## Places in the list of tasks -/

section Places

variable {Item : Type} {items : List Item} {position other : Nat}

theorem getElem?_set_cases {new item : Item} (there : (items.set position new)[other]? = some item) :
    other = position ∧ item = new ∨ other ≠ position ∧ items[other]? = some item := by
  rcases eq_or_ne other position with rfl | different
  · left
    have inside : other < items.length := by
      have bound := (List.getElem?_eq_some_iff.mp there).1
      rwa [List.length_set] at bound
    rw [List.getElem?_set_self inside] at there
    exact ⟨rfl, (Option.some.inj there).symm⟩
  · rw [List.getElem?_set_ne different.symm] at there
    exact .inr ⟨different, there⟩

theorem getElem?_concat_cases {new item : Item} (there : (items ++ [new])[other]? = some item) :
    other = items.length ∧ item = new ∨ items[other]? = some item := by
  rcases Nat.lt_or_ge other items.length with inside | outside
  · rw [List.getElem?_append_left inside] at there
    exact .inr there
  · left
    rw [List.getElem?_append_right outside] at there
    have last : other - items.length = 0 := by
      have := (List.getElem?_eq_some_iff.mp there).1
      simpa using this
    rw [last] at there
    exact ⟨by omega, (Option.some.inj there).symm⟩

theorem mem_set_self {old : Item} (found : items[position]? = some old) (new : Item) :
    new ∈ items.set position new :=
  List.mem_set (List.getElem?_eq_some_iff.mp found).1 new

theorem mem_set_or_eq {item old : Item} (member : item ∈ items)
    (found : items[position]? = some old) (new : Item) :
    item ∈ items.set position new ∨ item = old := by
  obtain ⟨place, there⟩ := List.mem_iff_getElem?.mp member
  rcases eq_or_ne place position with rfl | different
  · exact .inr (Option.some.inj (there.symm.trans found))
  · refine .inl (List.mem_iff_getElem?.mpr ⟨place, ?_⟩)
    rw [List.getElem?_set_ne different.symm]
    exact there

theorem exists_mem_set {old : Item} (new : Item) {holds : Item → Prop}
    (found : items[position]? = some old) (carries : holds old → holds new)
    (there : ∃ item ∈ items, holds item) : ∃ item ∈ items.set position new, holds item := by
  obtain ⟨item, member, held⟩ := there
  rcases mem_set_or_eq member found new with still | rfl
  · exact ⟨item, still, held⟩
  · exact ⟨new, mem_set_self found new, carries held⟩

end Places

/-! ## Sums over the tasks -/

section Tally

variable {Item : Type} (weight : Item → Nat)

/-- The sum of the weights of the items of a list. -/
def tally (items : List Item) : Nat := (items.map weight).sum

variable {weight}

@[simp]
theorem tally_nil : tally weight [] = 0 := rfl

@[simp]
theorem tally_append (front back : List Item) :
    tally weight (front ++ back) = tally weight front + tally weight back := by
  simp [tally]

@[simp]
theorem tally_singleton (item : Item) : tally weight [item] = weight item := by
  simp [tally]

theorem tally_eq_zero {items : List Item} (nothing : ∀ item ∈ items, weight item = 0) :
    tally weight items = 0 := by
  induction items with
  | nil => rfl
  | cons head items ih =>
    have rest : tally weight items = 0 :=
      ih fun item member => nothing item (List.mem_cons_of_mem head member)
    have first : weight head = 0 := nothing head List.mem_cons_self
    simp only [tally, List.map_cons, List.sum_cons] at rest ⊢
    omega

theorem tally_set {items : List Item} {position : Nat} {old : Item}
    (found : items[position]? = some old) (new : Item) :
    tally weight (items.set position new) + weight old = tally weight items + weight new := by
  induction items generalizing position with
  | nil => simp at found
  | cons head items ih =>
    cases position with
    | zero =>
      obtain rfl : head = old := by simpa using found
      simp only [tally, List.set_cons_zero, List.map_cons, List.sum_cons]
      omega
    | succ position =>
      have rest := ih (by simpa using found)
      simp only [tally, List.set_cons_succ, List.map_cons, List.sum_cons] at rest ⊢
      omega

theorem le_tally {items : List Item} {position : Nat} {item : Item}
    (found : items[position]? = some item) : weight item ≤ tally weight items := by
  induction items generalizing position with
  | nil => simp at found
  | cons head items ih =>
    simp only [tally, List.map_cons, List.sum_cons]
    cases position with
    | zero =>
      obtain rfl : head = item := by simpa using found
      omega
    | succ position =>
      have rest : weight item ≤ tally weight items := ih (by simpa using found)
      simp only [tally] at rest
      omega

/-- Two items at different positions both count. -/
theorem add_le_tally {items : List Item} {first second : Nat} {one two : Item}
    (different : first ≠ second) (foundOne : items[first]? = some one)
    (foundTwo : items[second]? = some two) : weight one + weight two ≤ tally weight items := by
  induction items generalizing first second with
  | nil => simp at foundOne
  | cons head items ih =>
    have sum : tally weight (head :: items) = weight head + tally weight items := by simp [tally]
    cases first with
    | zero =>
      obtain rfl : head = one := by simpa using foundOne
      cases second with
      | zero => exact absurd rfl different
      | succ second =>
        have rest : weight two ≤ tally weight items := le_tally (by simpa using foundTwo)
        omega
    | succ first =>
      cases second with
      | zero =>
        obtain rfl : head = two := by simpa using foundTwo
        have rest : weight one ≤ tally weight items := le_tally (by simpa using foundOne)
        omega
      | succ second =>
        have apart : first ≠ second := by omega
        have rest := ih apart (by simpa using foundOne) (by simpa using foundTwo)
        omega

end Tally
end Crew
end Program
