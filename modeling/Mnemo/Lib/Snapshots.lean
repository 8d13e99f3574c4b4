import Mathlib.Logic.Function.Basic
import Mnemo.Lib.Crew

/-!
# Snapshots that are written by many tasks

Several parts of a memory are changed by tasks.  A task that has changed a part takes a snapshot of
it afterwards and writes it to a store.  Snapshots are taken and written by all tasks at the same
time, so that an older one may be written last.
-/

namespace Snapshots

open Program (Crew)

variable {Part : Type}

/-- How the parts are stored, and what they are before anything was stored. -/
structure Format (Value : Part → Type) where
  Stored : Part → Type
  serialize : ∀ part, Value part → Stored part
  deserialize : ∀ part, Stored part → Value part
  initial : ∀ part, Value part

/-- A value, with the number of changes that have led to it; nothing that is done looks at the
number. -/
structure Versioned (Value : Type) where
  value : Value
  version : Nat

/-- What is in memory and what is stored. -/
structure Server {Value : Part → Type} (format : Format Value) where
  memory : ∀ part, Versioned (Value part)
  store : ∀ part, Option (Versioned (format.Stored part))

/-- Change a part, take a snapshot of it, or write a copy of it. -/
inductive Command {Value : Part → Type} (format : Format Value) where
  | mutate (part : Part) (change : Value part → Value part)
  | snapshot (part : Part)
  | set (part : Part) (copy : Versioned (format.Stored part))

/-- How far a task has come with a part. -/
inductive Hold (Value : Type) where
  /-- It has not changed the part, or has written it since. -/
  | clean
  /-- It has changed the part, and has not taken a snapshot since. -/
  | pending
  /-- It has taken a snapshot. -/
  | holding (copy : Versioned Value)

variable {Value : Part → Type} {format : Format Value}

/-- The type of the reply to a command. -/
def Command.Reply : Command format → Type
  | .snapshot part => Versioned (Value part)
  | _ => Unit

/-- A snapshot as it is stored. -/
def Versioned.stored (format : Format Value) {part : Part} (copy : Versioned (Value part)) :
    Versioned (format.Stored part) :=
  ⟨format.serialize part copy.value, copy.version⟩

/-- What a server finds of a part when it starts again. -/
def Server.restore (server : Server format) (part : Part) : Value part :=
  match server.store part with
  | some copy => format.deserialize part copy.value
  | none => format.initial part

/-- Nothing was changed or stored yet. -/
def Server.fresh (format : Format Value) : Server format where
  memory part := ⟨format.initial part, 0⟩
  store _ := none

section Commands

variable [DecidableEq Part]

/-- Perform a command; the store may refuse to write a copy, which the task does not notice. -/
def perform (accepted : Bool) (server : Server format) :
    (command : Command format) → command.Reply × Server format
  | .mutate part change =>
      let old := server.memory part
      ((), { server with
        memory := Function.update server.memory part ⟨change old.value, old.version + 1⟩ })
  | .snapshot part => (server.memory part, server)
  | .set part copy =>
      ((), if accepted then
          { server with store := Function.update server.store part (some copy) }
        else server)

/-- Perform a command; none of them fails. -/
def exec {Error : Type} (command : Command format) (accepted : Bool) (server : Server format) :
    Except Error command.Reply × Server format :=
  (.ok (perform accepted server command).1, (perform accepted server command).2)

/-- Where a task stands with a part after a command. -/
def after (holds : ∀ part, Hold (Value part)) :
    (command : Command format) → command.Reply → ∀ part, Hold (Value part)
  | .mutate part _, _ => Function.update holds part .pending
  | .snapshot part, copy => Function.update holds part (.holding copy)
  | .set part _, _ => Function.update holds part .clean

/-- A task writes only the snapshot that it has taken last. -/
def protocol (Error : Type) (format : Format Value) :
    Program.Protocol (Command format) Command.Reply Error (∀ part, Hold (Value part)) where
  start _ := .clean
  allowed holds
    | .set part copy => ∃ taken, holds part = .holding taken ∧ copy = taken.stored format
    | _ => True
  expected _ _
    | .ok _ => True
    | .error _ => False
  next holds command
    | .ok value => after holds command value
    | .error _ => holds

end Commands

/-- A task ends when everything that it has changed is written, and hands on nothing. -/
def Ends {Error Job : Type} (holds : ∀ part, Hold (Value part)) :
    Except Error (List Job) → Prop
  | .ok jobs => (∀ part, holds part = .clean) ∧ jobs = []
  | .error _ => False

/-- A copy is written, and it is not older than the one that it replaces; a value that a change
leaves is read back as it is. -/
def Orderly (server : Server format) (accepted : Bool) : Command format → Prop
  | .mutate part change =>
      let next := change (server.memory part).value
      format.deserialize part (format.serialize part next) = next
  | .snapshot _ => True
  | .set part copy =>
      accepted = true ∧ ∀ old, server.store part = some old → old.version ≤ copy.version

/-! ## What one command does -/

/-- The snapshot of a part is the present one, or it is older. -/
def Recent (server : Server format) (part : Part) (copy : Versioned (Value part)) : Prop :=
  copy.version < (server.memory part).version ∨ copy = server.memory part

/-- A task will still write the part as it is. -/
def Owes (server : Server format) (part : Part) : Hold (Value part) → Prop
  | .clean => False
  | .pending => True
  | .holding copy => copy = server.memory part

/-- What is stored of a part is what is in memory. -/
def Written (server : Server format) (part : Part) : Prop :=
  server.store part = some ((server.memory part).stored format) ∨
    server.store part = none ∧ server.memory part = ⟨format.initial part, 0⟩

variable {Error Job : Type}

/-- Snapshots are not newer than the memory, and what is in memory is stored or will be. -/
structure Tracked (server : Server format)
    (tasks : List (Program.Task (Command format) Command.Reply Error Job
      (∀ part, Hold (Value part)))) : Prop where
  held : ∀ task ∈ tasks, ∀ part copy, task.state part = .holding copy → Recent server part copy
  stored : ∀ part copy, server.store part = some copy →
    ∃ taken, Recent server part taken ∧ copy = taken.stored format
  covered : ∀ part, Written server part ∨ ∃ task ∈ tasks, Owes server part (task.state part)
  faithful : ∀ part, format.deserialize part (format.serialize part (server.memory part).value) =
    (server.memory part).value

section Step

variable {server : Server format}
  {tasks : List (Program.Task (Command format) Command.Reply Error Job
    (∀ part, Hold (Value part)))}
  {position : Nat} {job : Job} {holds : ∀ part, Hold (Value part)} {accepted : Bool}

variable [DecidableEq Part]

theorem Recent.mutate {part other : Part} {copy : Versioned (Value other)}
    (recent : Recent server other copy) (change : Value part → Value part) :
    Recent (perform accepted server (.mutate part change)).2 other copy := by
  rcases eq_or_ne other part with rfl | different
  · have next : (perform accepted server (.mutate other change)).2.memory other =
        ⟨change (server.memory other).value, (server.memory other).version + 1⟩ :=
      Function.update_self _ _ _
    refine .inl ?_
    rw [next]
    rcases recent with older | rfl
    · exact Nat.lt_succ_of_lt older
    · exact Nat.lt_succ_self _
  · have same : (perform accepted server (.mutate part change)).2.memory other =
        server.memory other := Function.update_of_ne different _ _
    unfold Recent
    rw [same]
    exact recent

variable {old : Program.Task (Command format) Command.Reply Error Job
    (∀ part, Hold (Value part))}
  (new : Program.Task (Command format) Command.Reply Error Job (∀ part, Hold (Value part)))

omit [DecidableEq Part] in
theorem covered_set {next : Server format} {part : Part}
    (covered : Written server part ∨ ∃ task ∈ tasks, Owes server part (task.state part))
    (found : tasks[position]? = some old) (memory : next.memory part = server.memory part)
    (store : next.store part = server.store part) (state : new.state part = old.state part) :
    Written next part ∨ ∃ task ∈ tasks.set position new, Owes next part (task.state part) := by
  have owes (hold : Hold (Value part)) (before : Owes server part hold) : Owes next part hold := by
    cases hold with
    | clean => exact before
    | pending => exact before
    | holding copy => exact before.trans memory.symm
  rcases covered with written | ⟨task, member, before⟩
  · left
    unfold Written
    rw [memory, store]
    exact written
  · right
    rcases Crew.mem_set_or_eq member found new with still | rfl
    · exact ⟨task, still, owes _ before⟩
    · refine ⟨new, Crew.mem_set_self found new, ?_⟩
      rw [state]
      exact owes _ before

variable {new}

theorem Tracked.mutate {part : Part} {change : Value part → Value part}
    (tracked : Tracked server tasks) (found : tasks[position]? = some old)
    (orderly : Orderly server accepted (.mutate part change))
    (state : new.state = after old.state (.mutate part change : Command format) ()) :
    Tracked (perform accepted server (.mutate part change)).2 (tasks.set position new) := by
  have pending : new.state part = .pending := by
    rw [state]
    exact Function.update_self _ _ _
  have others {other : Part} (different : other ≠ part) : new.state other = old.state other := by
    rw [state]
    exact Function.update_of_ne different _ _
  have memory {other : Part} (different : other ≠ part) :
      (perform accepted server (.mutate part change)).2.memory other = server.memory other :=
    Function.update_of_ne different _ _
  refine ⟨?_, ?_, ?_, ?_⟩
  · intro task member other copy held
    rcases List.mem_or_eq_of_mem_set member with there | rfl
    · exact (tracked.held task there other copy held).mutate change
    · rcases eq_or_ne other part with rfl | different
      · exact nomatch pending.symm.trans held
      · rw [others different] at held
        exact (tracked.held old (List.mem_of_getElem? found) other copy held).mutate change
  · intro other copy stored
    obtain ⟨taken, recent, same⟩ := tracked.stored other copy stored
    exact ⟨taken, recent.mutate change, same⟩
  · intro other
    rcases eq_or_ne other part with rfl | different
    · refine .inr ⟨new, Crew.mem_set_self found new, ?_⟩
      rw [pending]
      exact trivial
    · exact covered_set new (tracked.covered other) found (memory different) rfl (others different)
  · intro other
    rcases eq_or_ne other part with rfl | different
    · have next : (perform accepted server (.mutate other change)).2.memory other =
          ⟨change (server.memory other).value, (server.memory other).version + 1⟩ :=
        Function.update_self _ _ _
      rw [next]
      exact orderly
    · rw [memory different]
      exact tracked.faithful other

theorem Tracked.snapshot {part : Part} (tracked : Tracked server tasks)
    (found : tasks[position]? = some old)
    (state : new.state = after old.state (.snapshot part : Command format) (server.memory part)) :
    Tracked server (tasks.set position new) := by
  have holding : new.state part = .holding (server.memory part) := by
    rw [state]
    exact Function.update_self _ _ _
  have others {other : Part} (different : other ≠ part) : new.state other = old.state other := by
    rw [state]
    exact Function.update_of_ne different _ _
  refine ⟨?_, tracked.stored, ?_, tracked.faithful⟩
  · intro task member other copy held
    rcases List.mem_or_eq_of_mem_set member with there | rfl
    · exact tracked.held task there other copy held
    · rcases eq_or_ne other part with rfl | different
      · exact .inr (Hold.holding.inj (held.symm.trans holding))
      · rw [others different] at held
        exact tracked.held old (List.mem_of_getElem? found) other copy held
  · intro other
    rcases eq_or_ne other part with rfl | different
    · refine .inr ⟨new, Crew.mem_set_self found new, ?_⟩
      rw [holding]
      exact rfl
    · exact covered_set new (tracked.covered other) found rfl rfl (others different)

theorem Tracked.set {part : Part} {copy : Versioned (format.Stored part)}
    (tracked : Tracked server tasks) (found : tasks[position]? = some old)
    (allows : (protocol Error format).allowed old.state (.set part copy))
    (orderly : Orderly server accepted (.set part copy))
    (state : new.state = after old.state (.set part copy : Command format) ()) :
    Tracked (perform accepted server (.set part copy)).2 (tasks.set position new) := by
  obtain ⟨taken, holding, rfl⟩ := allows
  obtain ⟨rfl, newest⟩ := orderly
  have recent := tracked.held old (List.mem_of_getElem? found) part taken holding
  have clean : new.state part = .clean := by
    rw [state]
    exact Function.update_self _ _ _
  have others {other : Part} (different : other ≠ part) : new.state other = old.state other := by
    rw [state]
    exact Function.update_of_ne different _ _
  have written : (perform true server (.set part (taken.stored format))).2.store part =
      some (taken.stored format) := Function.update_self _ _ _
  have kept {other : Part} (different : other ≠ part) :
      (perform true server (.set part (taken.stored format))).2.store other =
        server.store other := Function.update_of_ne different _ _
  refine ⟨?_, ?_, ?_, tracked.faithful⟩
  · intro task member other copy held
    rcases List.mem_or_eq_of_mem_set member with there | rfl
    · exact tracked.held task there other copy held
    · rcases eq_or_ne other part with rfl | different
      · exact nomatch clean.symm.trans held
      · rw [others different] at held
        exact tracked.held old (List.mem_of_getElem? found) other copy held
  · intro other copy stored
    rcases eq_or_ne other part with rfl | different
    · exact ⟨taken, recent, Option.some.inj (stored.symm.trans written)⟩
    · rw [kept different] at stored
      exact tracked.stored other copy stored
  · intro other
    rcases eq_or_ne other part with rfl | different
    · by_cases present : taken = server.memory other
      · refine .inl (.inl ?_)
        rw [written, present]
        rfl
      · -- an older copy replaces none that is newer, so that another task owes the part
        have older : taken.version < (server.memory other).version :=
          recent.resolve_right present
        rcases tracked.covered other with (stored | ⟨_, unchanged⟩) | ⟨task, member, owes⟩
        · exact absurd (newest _ stored) (Nat.not_le.mpr older)
        · rw [unchanged] at older
          exact absurd older (Nat.not_lt_zero _)
        · rcases Crew.mem_set_or_eq member found new with still | rfl
          · exact .inr ⟨task, still, owes⟩
          · rw [holding] at owes
            exact absurd owes present
    · exact covered_set new (tracked.covered other) found rfl (kept different) (others different)

end Step

/-! ## Runs -/

section Runs

variable [DecidableEq Part] (orders : Crew.Orders (Command format) Command.Reply Error Job
  (∀ part, Hold (Value part)))

/-- The next command of a task is in order. -/
def InOrder (crew : Crew (Command format) Command.Reply Error (Server format) Job
    (∀ part, Hold (Value part))) : Crew.Event Bool Job → Prop
  | .advance position accepted =>
      match crew.tasks[position]? with
      | some ⟨_, .perform command _, _⟩ => Orderly crew.shared accepted command
      | _ => True
  | _ => True

variable {orders}

/-- One step keeps track of what is stored. -/
theorem tracked_step (speaks : orders.protocol = protocol Error format)
    (begins : ∀ job part, orders.begins job part = .clean)
    (handled : ∀ job, (protocol Error format).Follows Ends (orders.begins job)
      (orders.handler job))
    (crew : Crew (Command format) Command.Reply Error (Server format) Job
      (∀ part, Hold (Value part))) (event : Crew.Event Bool Job)
    (sound : Crew.Sound orders Ends Tracked crew) (inOrder : InOrder crew event) :
    Crew.Sound orders Ends Tracked (Crew.step exec orders crew event) := by
  apply Crew.Sound.step ?_ ?_ ?_ ?_ ?_ sound inOrder
  · rw [speaks]
    exact handled
  · exact fun holds next rest ends => nomatch ends.2
  · intro crew job _ _ tracked
    refine ⟨?_, tracked.stored, ?_, tracked.faithful⟩
    · intro task member part copy held
      rcases List.mem_append.mp member with old | new
      · exact tracked.held task old part copy held
      · rw [List.mem_singleton.mp new] at held
        exact nomatch (begins job part).symm.trans held
    · intro part
      exact (tracked.covered part).imp id fun ⟨task, member, owes⟩ =>
        ⟨task, List.mem_append_left _ member, owes⟩
  · intro crew position job command continuation holds accepted found allows ordered tracked
    rw [speaks] at allows ⊢
    refine ⟨trivial, ?_⟩
    have orderly : Orderly crew.shared accepted command := by
      simpa only [InOrder, found] using ordered
    cases command with
    | mutate part change => exact tracked.mutate found orderly rfl
    | snapshot part => exact tracked.snapshot found rfl
    | set part copy => exact tracked.set found allows orderly rfl
  · exact fun crew position job next rest holds found ends => nomatch ends.2

/-- When all tasks have finished, what a server finds when it starts again is what is in memory, as
long as every command was in order. -/
theorem restored (speaks : orders.protocol = protocol Error format)
    (begins : ∀ job part, orders.begins job part = .clean)
    (handled : ∀ job, (protocol Error format).Follows Ends (orders.begins job)
      (orders.handler job))
    (faithful : ∀ part, format.deserialize part (format.serialize part (format.initial part)) =
      format.initial part) (events : List (Crew.Event Bool Job))
    (inOrder : StateMachine.Guarded (Crew.step exec orders) InOrder
      (Crew.idle (Server.fresh format)) events) :
    let crew := StateMachine.finish (Crew.step exec orders) (Crew.idle (Server.fresh format)) events
    (∀ task ∈ crew.tasks, task.ended = true) →
      ∀ part, crew.shared.restore part = (crew.shared.memory part).value := by
  intro crew finished part
  have fresh : Crew.Sound orders Ends Tracked (Crew.idle (Server.fresh format)) := by
    refine .idle ⟨?_, ?_, ?_, faithful⟩
    · exact fun _ member => by cases member
    · exact fun _ _ stored => by cases stored
    · exact fun _ => .inl (.inr ⟨rfl, rfl⟩)
  have sound : Crew.Sound orders Ends Tracked crew :=
    (StateMachine.Guarded.always (tracked_step speaks begins handled) fresh inOrder).finish
  have nothing (task) (member : task ∈ crew.tasks) : ¬Owes crew.shared part (task.state part) := by
    have follows := sound.follows task member
    have ended := finished task member
    intro owes
    unfold Program.Task.ended at ended
    split at ended
    next done =>
      rw [done] at follows
      cases follows with
      | done described =>
        rw [described.1 part] at owes
        exact owes
    next failed =>
      rw [failed] at follows
      cases follows with
      | fail described => exact described
    next => cases ended
  rcases sound.holds.covered part with (stored | ⟨absent, unchanged⟩) | ⟨task, member, owes⟩
  · have read : crew.shared.restore part = format.deserialize part
        (format.serialize part (crew.shared.memory part).value) := by
      rw [Server.restore, stored]
      rfl
    exact read.trans (sound.holds.faithful part)
  · rw [Server.restore, absent, unchanged]
  · exact absurd owes (nothing task member)

end Runs
end Snapshots
