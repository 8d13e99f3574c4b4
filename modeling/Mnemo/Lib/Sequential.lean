import Mnemo.Lib.Database

/-!
# Rules for programs that run alone on a database

What a command replies and leaves behind, for the sequential reading of programs.  An environment
is faulty when it may let a command fail.
-/

namespace Database

open Program (Ensures)

/-- A program over a database. -/
abbrev Script (Key : Type) (Doc : Key → Type) (Index Member Service : Type)
    (Answer : Service → Type) (Error α : Type) : Type :=
  Program (Command Key Doc Index Member Service) (·.Reply Answer) Error α

variable {Key : Type} {Doc : Key → Type} {Index Member : Type} [LinearOrder Member]
  {Service : Type} {Answer : Service → Type} {Error α β : Type}
  [DecidableEq Key] [DecidableEq Index]

/-- Some allowed input is a failure. -/
def Faulty (allowed : Input Answer Error → Prop) : Prop :=
  ∃ input, allowed input ∧ input.failure.isSome

/-- The outcome is the value, unless the environment is faulty and it is an error. -/
def Gives (allowed : Input Answer Error → Prop) (value : α) (outcome : Except Error α) : Prop :=
  outcome = .ok value ∨ Faulty allowed ∧ ∃ error, outcome = .error error

/-- The commands that change nothing. -/
def Command.readOnly : Command Key Doc Index Member Service → Bool
  | .get _ | .zscore _ _ | .zrange _ _ _ | .zrevrange _ _ _ | .zrevrangeBelow _ _ _
  | .zrangeAbove _ _ _ | .clock | .service _ => true
  | _ => false

theorem exec_readOnly {command : Command Key Doc Index Member Service}
    (reads : command.readOnly = true) (input : Input Answer Error)
    (contents : Contents Key Doc Index Member) :
    (exec command input contents).2 = contents := by
  unfold exec
  split
  · rfl
  · cases command <;> first | rfl | cases reads

section Rules

variable {allowed : Input Answer Error → Prop}
  {permitted : Command Key Doc Index Member Service → Contents Key Doc Index Member → Prop}
  {contents : Contents Key Doc Index Member}

theorem exec_of_failure_none {command : Command Key Doc Index Member Service}
    {input : Input Answer Error} (succeeds : input.failure = none) :
    exec command input contents = perform input contents command := by
  simp [exec, succeeds]

theorem exec_of_failure {command : Command Key Doc Index Member Service}
    (fallible : command.fallible = true) {input : Input Answer Error} {error : Error}
    (fails : input.failure = some error) :
    exec command input contents = (.error error, contents) := by
  simp [exec, fails, fallible]

theorem exec_of_ok {command : Command Key Doc Index Member Service} {input : Input Answer Error}
    {value : command.Reply Answer} (replied : (exec command input contents).1 = .ok value) :
    exec command input contents = perform input contents command := by
  unfold exec at replied ⊢
  split at replied
  · cases replied
  · rfl

theorem exec_of_error {command : Command Key Doc Index Member Service}
    {input : Input Answer Error} {error : Error}
    (failed : (exec command input contents).1 = .error error) :
    (exec command input contents).2 = contents := by
  unfold exec at failed ⊢
  split at failed
  · rfl
  · cases command <;> first | rfl | cases failed

theorem ensures_fallible (command : Command Key Doc Index Member Service)
    (fallible : command.fallible = true) (permits : permitted command contents)
    {post : Except Error (command.Reply Answer) → Contents Key Doc Index Member → Prop}
    (succeeds : ∀ input, allowed input →
      post (perform input contents command).1 (perform input contents command).2)
    (fails : ∀ error, Faulty allowed → post (.error error) contents) :
    Ensures exec allowed permitted post (Program.call command) contents := by
  refine Ensures.call command permits fun input admissible => ?_
  cases failing : input.failure with
  | none =>
    rw [exec_of_failure_none failing]
    exact succeeds input admissible
  | some error =>
    rw [exec_of_failure fallible failing]
    exact fails error ⟨input, admissible, by rw [failing]; rfl⟩

variable (allowed permitted) in
/-- The program changes nothing and ends with the value, or with an error when the environment is
faulty. -/
abbrev ReadsAs (value : α) (program : Script Key Doc Index Member Service Answer Error α)
    (contents : Contents Key Doc Index Member) : Prop :=
  Ensures exec allowed permitted
    (fun outcome final => final = contents ∧ Gives allowed value outcome) program contents

theorem ReadsAs.done (value : α) : ReadsAs allowed permitted value (.done value) contents :=
  Ensures.done ⟨rfl, .inl rfl⟩

theorem ReadsAs.bind {value : α} {program : Script Key Doc Index Member Service Answer Error α}
    {next : α → Script Key Doc Index Member Service Answer Error β}
    {post : Except Error β → Contents Key Doc Index Member → Prop}
    (reads : ReadsAs allowed permitted value program contents)
    (rest : Ensures exec allowed permitted post (next value) contents)
    (fails : ∀ error, Faulty allowed → post (.error error) contents) :
    Ensures exec allowed permitted post (program >>= next) contents := by
  refine Ensures.bind reads ?_ ?_
  · rintro reply middle ⟨rfl, gives | ⟨_, error, impossible⟩⟩
    · obtain rfl := Except.ok.inj gives
      exact rest
    · cases impossible
  · rintro error middle ⟨rfl, impossible | ⟨faulty, _⟩⟩
    · cases impossible
    · exact fails error faulty

theorem ReadsAs.andThen {value : α} {result : β}
    {program : Script Key Doc Index Member Service Answer Error α}
    {next : α → Script Key Doc Index Member Service Answer Error β}
    (reads : ReadsAs allowed permitted value program contents)
    (rest : ReadsAs allowed permitted result (next value) contents) :
    ReadsAs allowed permitted result (program >>= next) contents :=
  reads.bind rest fun error faulty => ⟨rfl, .inr ⟨faulty, error, rfl⟩⟩

theorem readsAs_get (key : Key) (permits : permitted (.get key) contents) :
    ReadsAs allowed permitted (contents.docs key)
      (Program.call (Command.get key : Command Key Doc Index Member Service) :
        Script Key Doc Index Member Service Answer Error (Option (Doc key))) contents :=
  ensures_fallible (.get key) rfl permits (fun _ _ => ⟨rfl, .inl rfl⟩)
    fun error faulty => ⟨rfl, .inr ⟨faulty, error, rfl⟩⟩

theorem readsAs_zrevrange (index : Index) (start stop : Int)
    (permits : permitted (.zrevrange index start stop) contents) :
    ReadsAs allowed permitted ((contents.sets index).revRange start stop)
      (Program.call (Command.zrevrange index start stop : Command Key Doc Index Member Service) :
        Script Key Doc Index Member Service Answer Error (List Member)) contents :=
  ensures_fallible (.zrevrange index start stop) rfl permits (fun _ _ => ⟨rfl, .inl rfl⟩)
    fun error faulty => ⟨rfl, .inr ⟨faulty, error, rfl⟩⟩

theorem readsAs_zrange (index : Index) (start stop : Int)
    (permits : permitted (.zrange index start stop) contents) :
    ReadsAs allowed permitted ((contents.sets index).range start stop)
      (Program.call (Command.zrange index start stop : Command Key Doc Index Member Service) :
        Script Key Doc Index Member Service Answer Error (List Member)) contents :=
  ensures_fallible (.zrange index start stop) rfl permits (fun _ _ => ⟨rfl, .inl rfl⟩)
    fun error faulty => ⟨rfl, .inr ⟨faulty, error, rfl⟩⟩

theorem readsAs_zscore (index : Index) (member : Member)
    (permits : permitted (.zscore index member) contents) :
    ReadsAs allowed permitted ((contents.sets index).score member)
      (Program.call (Command.zscore index member : Command Key Doc Index Member Service) :
        Script Key Doc Index Member Service Answer Error (Option Int)) contents :=
  ensures_fallible (.zscore index member) rfl permits (fun _ _ => ⟨rfl, .inl rfl⟩)
    fun error faulty => ⟨rfl, .inr ⟨faulty, error, rfl⟩⟩

theorem readsAs_zrevrangeBelow (index : Index) (bound : Int) (limit : Nat)
    (permits : permitted (.zrevrangeBelow index bound limit) contents) :
    ReadsAs allowed permitted ((contents.sets index).revRangeBelow bound limit)
      (Program.call (Command.zrevrangeBelow index bound limit :
        Command Key Doc Index Member Service) :
        Script Key Doc Index Member Service Answer Error (List Member)) contents :=
  ensures_fallible (.zrevrangeBelow index bound limit) rfl permits (fun _ _ => ⟨rfl, .inl rfl⟩)
    fun error faulty => ⟨rfl, .inr ⟨faulty, error, rfl⟩⟩

theorem readsAs_zrangeAbove (index : Index) (bound : Option Int) (limit : Nat)
    (permits : permitted (.zrangeAbove index bound limit) contents) :
    ReadsAs allowed permitted ((contents.sets index).rangeAbove bound limit)
      (Program.call (Command.zrangeAbove index bound limit :
        Command Key Doc Index Member Service) :
        Script Key Doc Index Member Service Answer Error (List Member)) contents :=
  ensures_fallible (.zrangeAbove index bound limit) rfl permits (fun _ _ => ⟨rfl, .inl rfl⟩)
    fun error faulty => ⟨rfl, .inr ⟨faulty, error, rfl⟩⟩

theorem bind_fallible (command : Command Key Doc Index Member Service)
    (fallible : command.fallible = true)
    {next : command.Reply Answer → Script Key Doc Index Member Service Answer Error β}
    {post : Except Error β → Contents Key Doc Index Member → Prop}
    (permits : permitted command contents)
    (rest : ∀ input, allowed input →
      Ensures exec allowed permitted post
        (Program.ofExcept (perform input contents command).1 >>= next)
        (perform input contents command).2)
    (fails : ∀ error, Faulty allowed → post (.error error) contents) :
    Ensures exec allowed permitted post (Program.call command >>= next) contents := by
  refine Ensures.perform permits fun input admissible => ?_
  cases failing : input.failure with
  | none =>
    rw [exec_of_failure_none failing]
    exact rest input admissible
  | some error =>
    rw [exec_of_failure fallible failing]
    exact .fail (fails error ⟨input, admissible, by rw [failing]; rfl⟩)

theorem bind_set {key : Key} {doc : Doc key}
    {next : Unit → Script Key Doc Index Member Service Answer Error β}
    {post : Except Error β → Contents Key Doc Index Member → Prop}
    (permits : permitted (.set key doc) contents)
    (rest : Ensures exec allowed permitted post (next ()) (contents.put key doc))
    (fails : ∀ error, Faulty allowed → post (.error error) contents) :
    Ensures exec allowed permitted post
      ((Program.call (Command.set key doc : Command Key Doc Index Member Service) :
        Script Key Doc Index Member Service Answer Error Unit) >>= next) contents :=
  bind_fallible (.set key doc) rfl permits (fun _ _ => rest) fails

theorem bind_zadd {index : Index} {member : Member} {score : Int}
    {next : Unit → Script Key Doc Index Member Service Answer Error β}
    {post : Except Error β → Contents Key Doc Index Member → Prop}
    (permits : permitted (.zadd index member score) contents)
    (rest : Ensures exec allowed permitted post (next ())
      (contents.withSet index ((contents.sets index).insert member score)))
    (fails : ∀ error, Faulty allowed → post (.error error) contents) :
    Ensures exec allowed permitted post
      ((Program.call (Command.zadd index member score :
        Command Key Doc Index Member Service) :
        Script Key Doc Index Member Service Answer Error Unit) >>= next) contents :=
  bind_fallible (.zadd index member score) rfl permits (fun _ _ => rest) fails

theorem bind_answer {service : Service}
    {next : Answer service → Script Key Doc Index Member Service Answer Error β}
    {post : Except Error β → Contents Key Doc Index Member → Prop}
    (permits : permitted (.service service) contents)
    (rest : ∀ input, allowed input → ∀ answer, input.answer service = .ok answer →
      Ensures exec allowed permitted post (next answer) contents)
    (fails : ∀ error, post (.error error) contents) :
    Ensures exec allowed permitted post
      ((Program.call (Command.service service : Command Key Doc Index Member Service) :
        Script Key Doc Index Member Service Answer Error (Answer service)) >>= next)
      contents := by
  refine bind_fallible (.service service) rfl permits (fun input admissible => ?_)
    fun error _ => fails error
  simp only [perform]
  cases answered : input.answer service with
  | ok answer => exact rest input admissible answer answered
  | error error => exact .fail (fails error)

theorem bind_service {service : Service}
    {next : Answer service → Script Key Doc Index Member Service Answer Error β}
    {post : Except Error β → Contents Key Doc Index Member → Prop}
    (permits : permitted (.service service) contents)
    (rest : ∀ answer, Ensures exec allowed permitted post (next answer) contents)
    (fails : ∀ error, post (.error error) contents) :
    Ensures exec allowed permitted post
      ((Program.call (Command.service service : Command Key Doc Index Member Service) :
        Script Key Doc Index Member Service Answer Error (Answer service)) >>= next)
      contents :=
  bind_answer permits (fun _ _ answer _ => rest answer) fails

theorem exec_clock (input : Input Answer Error) :
    exec (.clock : Command Key Doc Index Member Service) input contents =
      (.ok input.now, contents) := by
  unfold exec
  split
  · rename_i impossible
    cases impossible
  · rfl

theorem exec_freshId (input : Input Answer Error) :
    exec (.freshId : Command Key Doc Index Member Service) input contents =
      (.ok (unused contents.issued input.id),
        contents.draw (unused contents.issued input.id)) := by
  unfold exec
  split
  · rename_i impossible
    cases impossible
  · rfl

theorem bind_clock {next : Int → Script Key Doc Index Member Service Answer Error β}
    {post : Except Error β → Contents Key Doc Index Member → Prop}
    (permits : permitted .clock contents)
    (rest : ∀ now, Ensures exec allowed permitted post (next now) contents) :
    Ensures exec allowed permitted post
      ((Program.call (Command.clock : Command Key Doc Index Member Service) :
        Script Key Doc Index Member Service Answer Error Int) >>= next) contents := by
  refine Ensures.perform permits fun input _ => ?_
  rw [exec_clock]
  exact rest input.now

theorem bind_freshId {next : Nat → Script Key Doc Index Member Service Answer Error β}
    {post : Except Error β → Contents Key Doc Index Member → Prop}
    (permits : permitted .freshId contents)
    (rest : ∀ id, id ∉ contents.issued →
      Ensures exec allowed permitted post (next id) (contents.draw id)) :
    Ensures exec allowed permitted post
      ((Program.call (Command.freshId : Command Key Doc Index Member Service) :
        Script Key Doc Index Member Service Answer Error Nat) >>= next) contents := by
  refine Ensures.perform permits fun input _ => ?_
  rw [exec_freshId]
  exact rest _ (unused_notMem _ _)

end Rules

/-! ## Evaluation -/

section Evaluation

variable (inputs : Nat → Input Answer Error) (contents : Contents Key Doc Index Member)

/-- The inputs after the first one. -/
def later (position : Nat) : Input Answer Error := inputs (position + 1)

theorem eval_of_failure {command : Command Key Doc Index Member Service}
    {continuation : Except Error (command.Reply Answer) →
      Script Key Doc Index Member Service Answer Error β}
    (fallible : command.fallible = true) {error : Error}
    (fails : (inputs 0).failure = some error) :
    Program.eval exec (.perform command continuation) inputs contents =
      Program.eval exec (continuation (.error error)) (later inputs) contents := by
  rw [Program.eval, exec_of_failure fallible fails]
  rfl

theorem eval_of_success {command : Command Key Doc Index Member Service}
    {continuation : Except Error (command.Reply Answer) →
      Script Key Doc Index Member Service Answer Error β}
    (succeeds : (inputs 0).failure = none) :
    Program.eval exec (.perform command continuation) inputs contents =
      Program.eval exec (continuation (perform (inputs 0) contents command).1) (later inputs)
        (perform (inputs 0) contents command).2 := by
  rw [Program.eval, exec_of_failure_none succeeds]
  rfl

theorem eval_of_infallible {command : Command Key Doc Index Member Service}
    {continuation : Except Error (command.Reply Answer) →
      Script Key Doc Index Member Service Answer Error β}
    (infallible : command.fallible = false) :
    Program.eval exec (.perform command continuation) inputs contents =
      Program.eval exec (continuation (perform (inputs 0) contents command).1) (later inputs)
        (perform (inputs 0) contents command).2 := by
  have performed : exec command (inputs 0) contents = perform (inputs 0) contents command := by
    cases (inputs 0).failure with
    | none => simp [exec, infallible]
    | some error => simp [exec, infallible]
  rw [Program.eval, performed]
  rfl

end Evaluation

/-! ## Failures -/

/-- What a program achieves that writes a record and then an index of it: nothing, the record alone,
or both. -/
inductive Extent where
  | nothing
  | record
  | both
  deriving DecidableEq, Repr

/-- The command at a position fails. -/
def Fails (inputs : Nat → Input Answer Error) (position : Nat) : Bool :=
  (inputs position).failure.isSome

/-- What is achieved when the record is written at one position, and its index after others. -/
def extent (inputs : Nat → Input Answer Error) (record : Nat) (others : List Nat) : Extent :=
  if Fails inputs record then .nothing
  else if others.any (Fails inputs) then .record
  else .both

end Database
