import Mnemo.Lib.Crew

/-!
# Crews with an account

Beside a crew stands an account of what its tasks have done: of the commands that were performed,
of the states of the tasks that performed them and of what they have found.  Nothing that the crew
does looks at the account.
-/

namespace Program
namespace Crew

variable {Command : Type} {Reply : Command → Type} {Error Shared Job Local Account Input : Type}

section Chronicle

variable (exec : (command : Command) → Input → Shared → Except Error (Reply command) × Shared)
  (orders : Orders Command Reply Error Job Local)
  (watch : Shared → Account → Local → Command → Input → Account)

/-- What is put down of a step. -/
def noted (crew : Crew Command Reply Error Shared Job Local) (account : Account) :
    Event Input Job → Account
  | .advance position input =>
      match crew.tasks[position]? with
      | some ⟨_, .perform command _, state⟩ => watch crew.shared account state command input
      | _ => account
  | _ => account

/-- One step of a crew, and what is put down of it. -/
def chronicle (before : Crew Command Reply Error Shared Job Local × Account)
    (event : Event Input Job) : Crew Command Reply Error Shared Job Local × Account :=
  (step exec orders before.1 event, noted watch before.1 before.2 event)

variable {exec orders watch}

end Chronicle

/-- The invariant holds with the account, and every task follows the protocol from its state on. -/
structure SoundWith (orders : Orders Command Reply Error Job Local)
    (post : Local → Except Error (List Job) → Prop)
    (invariant : Shared → List (Task Command Reply Error Job Local) → Account → Prop)
    (crew : Crew Command Reply Error Shared Job Local × Account) : Prop where
  holds : invariant crew.1.shared crew.1.tasks crew.2
  follows : ∀ task ∈ crew.1.tasks, orders.protocol.Follows post task.state task.program

section Rule

variable
  {exec : (command : Command) → Input → Shared → Except Error (Reply command) × Shared}
  {orders : Orders Command Reply Error Job Local}
  {watch : Shared → Account → Local → Command → Input → Account}
  {post : Local → Except Error (List Job) → Prop}
  {invariant : Shared → List (Task Command Reply Error Job Local) → Account → Prop}
  {guard : Crew Command Reply Error Shared Job Local × Account → Event Input Job → Prop}

/-- The guard that admits one step only. -/
private def Exactly (crew : Crew Command Reply Error Shared Job Local) (event : Event Input Job)
    (other : Crew Command Reply Error Shared Job Local) (now : Event Input Job) : Prop :=
  other = crew ∧ now = event

/-- The rule of crews with an account, for one step. -/
theorem SoundWith.step
    (handled : ∀ job, orders.protocol.Follows post (orders.begins job) (orders.handler job))
    (left : ∀ state next rest, post state (.ok (next :: rest)) →
      post (orders.handsOn state) (.ok rest))
    (begun : ∀ (crew : Crew Command Reply Error Shared Job Local) account job,
      orders.outside job = true → invariant crew.shared crew.tasks account →
        invariant crew.shared (crew.tasks ++ [orders.task job]) account)
    (kept : ∀ (crew : Crew Command Reply Error Shared Job Local) account position job command
        continuation state input,
      crew.tasks[position]? = some ⟨job, .perform command continuation, state⟩ →
      orders.protocol.allowed state command → guard (crew, account) (.advance position input) →
      invariant crew.shared crew.tasks account →
      let reply := (exec command input crew.shared).1
      orders.protocol.expected state command reply ∧
        invariant (exec command input crew.shared).2 (crew.tasks.set position
          ⟨job, continuation reply, orders.protocol.next state command reply⟩)
          (watch crew.shared account state command input))
    (handedOn : ∀ (crew : Crew Command Reply Error Shared Job Local) account position job next rest
        state,
      crew.tasks[position]? = some ⟨job, .done (next :: rest), state⟩ →
      post state (.ok (next :: rest)) → invariant crew.shared crew.tasks account →
      invariant crew.shared (crew.tasks.set position ⟨job, .done rest, orders.handsOn state⟩ ++
        [orders.task next]) account)
    {crew : Crew Command Reply Error Shared Job Local × Account}
    (sound : SoundWith orders post invariant crew) {event : Event Input Job}
    (admissible : guard crew event) :
    SoundWith orders post invariant (chronicle exec orders watch crew event) := by
  obtain ⟨crew, account⟩ := crew
  obtain ⟨holds, follows⟩ := sound
  -- the programs are seen to without the invariant, for this one step
  have programs : Sound orders post (fun _ _ => True) (Crew.step exec orders crew event) := by
    have exactly : Exactly crew event crew event := ⟨rfl, rfl⟩
    apply Sound.step handled left ?_ ?_ ?_ ?_ exactly
    · exact fun _ _ _ _ _ => trivial
    · rintro other position job command continuation state input found allows ⟨rfl, rfl⟩ _
      exact ⟨(kept other account position job command continuation state input found allows
        admissible holds).1, trivial⟩
    · exact fun _ _ _ _ _ _ _ _ _ => trivial
    · exact ⟨trivial, follows⟩
  refine ⟨?_, programs.follows⟩
  cases event with
  | begin job =>
    unfold chronicle Crew.step noted
    dsimp only
    split
    · rename_i outside
      exact begun crew account job outside holds
    · exact holds
  | advance position input =>
    unfold chronicle Crew.step noted
    dsimp only
    rcases found : crew.tasks[position]? with
      _ | ⟨job, _ | _ | ⟨command, continuation⟩, state⟩
    · exact holds
    · exact holds
    · exact holds
    · have mine := follows _ (List.mem_of_getElem? found)
      cases mine with
      | perform allows _ =>
        exact (kept crew account position job command continuation state input found allows
          admissible holds).2
  | handOn position =>
    unfold chronicle Crew.step noted
    dsimp only
    split
    · rename_i job next rest state found
      have mine := follows _ (List.mem_of_getElem? found)
      cases mine with
      | done described =>
        exact handedOn crew account position job next rest state found described holds
    · exact holds

theorem SoundWith.idle {shared : Shared} {account : Account} (holds : invariant shared [] account) :
    SoundWith orders post invariant (Crew.idle shared, account) :=
  ⟨holds, fun _ member => nomatch member⟩

end Rule
end Crew
end Program
