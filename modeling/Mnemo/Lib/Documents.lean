import Mnemo.Lib.Database

/-!
# Properties of single documents

A property of single documents is kept by a program, and by any interleaving of programs, when
every document that is written has it as long as those that were read do.
-/

namespace Database

section Documents

variable {Key : Type} {Doc : Key → Type} {Index Member Service : Type}
  {Answer : Service → Type} {Error α β : Type}

/-- Every stored document is good. -/
def AllDocs [LinearOrder Member] (good : (key : Key) → Doc key → Prop)
    (contents : Contents Key Doc Index Member) : Prop :=
  ∀ key doc, contents.docs key = some doc → good key doc

/-- A command writes only good documents. -/
def WritesGood (good : (key : Key) → Doc key → Prop) :
    Command Key Doc Index Member Service → Prop
  | .set key doc => good key doc
  | _ => True

/-- A reply hands out only good documents. -/
def ReadsGood (good : (key : Key) → Doc key → Prop) :
    (command : Command Key Doc Index Member Service) →
      Except Error (command.Reply Answer) → Prop
  | .get key, .ok reply => ∀ doc, reply = some doc → good key doc
  | _, _ => True

/-- As long as the documents it reads are good, a program writes good documents only, and a value
with which it ends is as described. -/
inductive Preserves (good : (key : Key) → Doc key → Prop) (post : α → Prop) :
    Program (Command Key Doc Index Member Service) (·.Reply Answer) Error α → Prop
  | done {value : α} (described : post value) : Preserves good post (.done value)
  | fail {error : Error} : Preserves good post (.fail error)
  | perform {command : Command Key Doc Index Member Service}
      {continuation : Except Error (command.Reply Answer) →
        Program (Command Key Doc Index Member Service) (·.Reply Answer) Error α}
      (writes : WritesGood good command)
      (continues : ∀ reply, ReadsGood good command reply →
        Preserves good post (continuation reply)) :
      Preserves good post (.perform command continuation)

namespace Preserves

variable {good : (key : Key) → Doc key → Prop}
  {program : Program (Command Key Doc Index Member Service) (·.Reply Answer) Error α}

theorem mono {strong weak : α → Prop} (weaken : ∀ value, strong value → weak value)
    (preserves : Preserves good strong program) : Preserves good weak program := by
  induction preserves with
  | done described => exact .done (weaken _ described)
  | fail => exact .fail
  | perform writes _ ih => exact .perform writes ih

theorem bind {middle : α → Prop} {post : β → Prop}
    {next : α → Program (Command Key Doc Index Member Service) (·.Reply Answer) Error β}
    (first : Preserves good middle program)
    (rest : ∀ value, middle value → Preserves good post (next value)) :
    Preserves good post (program >>= next) := by
  induction first with
  | done described => exact rest _ described
  | fail => exact .fail
  | perform writes _ ih => exact .perform writes ih

theorem attempt {post : α → Prop} (preserves : Preserves good post program) :
    Preserves good (fun outcome => ∀ value, outcome = .ok value → post value)
      program.attempt := by
  induction preserves with
  | done described =>
    refine .done fun other same => ?_
    obtain rfl := Except.ok.inj same
    exact described
  | fail => exact .done fun _ same => by cases same
  | perform writes _ ih => exact .perform writes ih

theorem ofExcept {outcome : Except Error α} {post : α → Prop}
    (described : ∀ value, outcome = .ok value → post value) :
    Preserves good post
      (Program.ofExcept outcome :
        Program (Command Key Doc Index Member Service) (·.Reply Answer) Error α) := by
  cases outcome with
  | ok value => exact .done (described value rfl)
  | error error => exact .fail

theorem call (command : Command Key Doc Index Member Service)
    (writes : WritesGood good command) :
    Preserves good
      (fun reply => ReadsGood good command (.ok reply : Except Error (command.Reply Answer)))
      (Program.call command :
        Program (Command Key Doc Index Member Service) (·.Reply Answer) Error _) := by
  refine .perform writes fun reply read => ?_
  cases reply with
  | ok value => exact .done read
  | error error => exact .fail

theorem call_any (command : Command Key Doc Index Member Service)
    (writes : WritesGood good command) :
    Preserves good (fun _ => True)
      (Program.call command :
        Program (Command Key Doc Index Member Service) (·.Reply Answer) Error _) :=
  (call command writes).mono fun _ _ => trivial

end Preserves

/-! ### Programs which are served together -/

section Serving

variable [LinearOrder Member] [DecidableEq Key] [DecidableEq Index]
  {good : (key : Key) → Doc key → Prop}

theorem readsGood_exec {contents : Contents Key Doc Index Member} (all : AllDocs good contents)
    (command : Command Key Doc Index Member Service) (input : Input Answer Error) :
    ReadsGood good command (exec command input contents).1 := by
  cases command with
  | get key =>
    cases failing : input.failure with
    | some error => simp [exec, failing, Command.fallible, ReadsGood]
    | none =>
      simp only [exec, failing, perform, ReadsGood]
      exact fun doc found => all key doc found
  | _ => trivial

theorem AllDocs.perform {contents : Contents Key Doc Index Member} (all : AllDocs good contents)
    {command : Command Key Doc Index Member Service} (writes : WritesGood good command)
    (input : Input Answer Error) : AllDocs good (perform input contents command).2 := by
  cases command with
  | set key doc =>
    intro other stored (found : (contents.put key doc).docs other = some stored)
    rcases eq_or_ne other key with rfl | different
    · rw [Contents.docs_put_self] at found
      obtain rfl := Option.some.inj found
      exact writes
    · rw [Contents.docs_put_of_ne _ different] at found
      exact all other stored found
  | del key =>
    intro other stored (found : (contents.remove key).docs other = some stored)
    rcases eq_or_ne other key with rfl | different
    · rw [Contents.docs_remove_self] at found
      cases found
    · rw [Contents.docs_remove_of_ne _ different] at found
      exact all other stored found
  | _ => exact all

theorem AllDocs.exec {contents : Contents Key Doc Index Member} (all : AllDocs good contents)
    {command : Command Key Doc Index Member Service} {input : Input Answer Error}
    (writes : input.failure = none → WritesGood good command) :
    AllDocs good (exec command input contents).2 := by
  unfold Database.exec
  split
  · exact all
  · rename_i failure fallible harmless
    apply all.perform
    cases failing : input.failure with
    | none => exact writes failing
    | some error =>
      cases command with
      | set key doc => exact (harmless error failing rfl).elim
      | _ => trivial

variable {Request Response : Type}

/-- At a step which writes a critical document, the request that is served is vouched for. -/
def VouchedWrites (critical : Key → Prop) (vouched : Request → Prop)
    (server : Program.Server (Command Key Doc Index Member Service) (·.Reply Answer) Error
      (Contents Key Doc Index Member) Request Response) :
    Program.Event (Input Answer Error) Request → Prop
  | .arrive _ _ => True
  | .advance thread input =>
      match server.threads thread with
      | some (request, .perform (.set key _) _) =>
          input.failure = none → critical key → vouched request
      | _ => True

/-- When the programs of the requests that are vouched for preserve the good documents, and only
those write critical documents, all documents stay good however the requests interleave. -/
theorem always_allDocs {critical : Key → Prop} {vouched : Request → Prop}
    {handler : Request →
      Program (Command Key Doc Index Member Service) (·.Reply Answer) Error Response}
    (free : ∀ key doc, ¬ critical key → good key doc)
    (handled : ∀ request, vouched request → Preserves good (fun _ => True) (handler request))
    {contents : Contents Key Doc Index Member} (initially : AllDocs good contents)
    {events : List (Program.Event (Input Answer Error) Request)}
    (guarded : StateMachine.Guarded (Program.Server.step exec handler)
      (VouchedWrites critical vouched) (Program.Server.idle contents) events) :
    StateMachine.Always (Program.Server.step exec handler)
      (fun server => AllDocs good server.shared) (Program.Server.idle contents) events := by
  refine Program.Server.always_shared
    (fun request program => vouched request → Preserves good (fun _ => True) program)
    handled ?_ initially guarded
  intro server thread request command continuation input running acceptable all vouching
  have described (trusted : vouched request) : WritesGood good command ∧
      ∀ reply, ReadsGood good command reply →
        Preserves good (fun _ => True) (continuation reply) := by
    cases acceptable trusted with
    | perform writes continues => exact ⟨writes, continues⟩
  constructor
  · apply all.exec
    intro succeeds
    cases command with
    | set key doc =>
      simp only [VouchedWrites, running] at vouching
      rcases Classical.em (critical key) with important | unimportant
      · exact (described (vouching succeeds important)).1
      · exact free key doc unimportant
    | _ => trivial
  · intro trusted
    exact (described trusted).2 _ (readsGood_exec all command input)

private theorem vouched_step {vouched : Request → Prop}
    {handler : Request →
      Program (Command Key Doc Index Member Service) (·.Reply Answer) Error Response}
    {server : Program.Server (Command Key Doc Index Member Service) (·.Reply Answer) Error
      (Contents Key Doc Index Member) Request Response}
    (all : ∀ thread request program, server.threads thread = some (request, program) →
      vouched request)
    {event : Program.Event (Input Answer Error) Request}
    (arriving : ∀ thread request, event = .arrive thread request → vouched request) :
    ∀ thread request program,
      (Program.Server.step exec handler server event).threads thread = some (request, program) →
        vouched request := by
  have update {thread : Nat} {request : Request}
      {program : Program (Command Key Doc Index Member Service) (·.Reply Answer) Error Response}
      (trusted : vouched request) (other : Nat) (otherRequest : Request)
      (otherProgram : Program (Command Key Doc Index Member Service) (·.Reply Answer) Error
        Response)
      (found : Function.update server.threads thread (some (request, program)) other =
        some (otherRequest, otherProgram)) : vouched otherRequest := by
    rcases eq_or_ne other thread with rfl | different
    · rw [Function.update_self] at found
      obtain ⟨rfl, -⟩ := Prod.mk.inj (Option.some.inj found)
      exact trusted
    · rw [Function.update_of_ne different] at found
      exact all other otherRequest otherProgram found
  cases event with
  | arrive thread request =>
    unfold Program.Server.step
    dsimp only
    split
    · exact update (arriving thread request rfl)
    · exact all
  | advance thread input =>
    unfold Program.Server.step
    dsimp only
    split
    · rename_i request command continuation running
      exact update (all thread request _ running)
    · exact all

/-- Where every request that arrives is vouched for, so is every write. -/
theorem vouchedWrites_of_arrivals {critical : Key → Prop} {vouched : Request → Prop}
    {handler : Request →
      Program (Command Key Doc Index Member Service) (·.Reply Answer) Error Response}
    {contents : Contents Key Doc Index Member}
    {events : List (Program.Event (Input Answer Error) Request)}
    (arrivals : ∀ thread request, .arrive thread request ∈ events → vouched request) :
    StateMachine.Guarded (Program.Server.step exec handler) (VouchedWrites critical vouched)
      (Program.Server.idle contents) events := by
  suffices general : ∀ server : Program.Server (Command Key Doc Index Member Service)
      (·.Reply Answer) Error (Contents Key Doc Index Member) Request Response,
      (∀ thread request program, server.threads thread = some (request, program) →
        vouched request) →
      StateMachine.Guarded (Program.Server.step exec handler) (VouchedWrites critical vouched)
        server events from
    general (Program.Server.idle contents) fun _ _ _ found => by cases found
  induction events with
  | nil => exact fun _ _ => trivial
  | cons event events ih =>
    intro server all
    refine ⟨?_, ih (fun thread request later => arrivals thread request
      (List.mem_cons_of_mem _ later)) _ (vouched_step all ?_)⟩
    · cases event with
      | arrive thread request => trivial
      | advance thread input =>
        unfold VouchedWrites
        dsimp only
        split
        · rename_i request key doc next running
          exact fun _ _ => all thread request _ running
        · trivial
    · rintro thread request rfl
      exact arrivals thread request List.mem_cons_self

end Serving
end Documents
end Database
