import Mnemo.Webhook.Delivery

/-!
# The circuit breaker of a webhook

The failures in a row that the breaker counts are compared with the notes on the attempts.  An
attempt that is refused is recorded as a failure like one that was sent.
-/

namespace Mnemo
namespace Webhook

open Program (Crew Protocol Task)
open StateMachine (Always Guarded)

/-! ## Notes -/

/-- How many attempts in a row were sent and have failed, since the last success and since the
circuit opened. -/
def streak : List Note → Nat
  | [] => 0
  | .sent :: notes => streak notes
  | .failed :: notes => streak notes + 1
  | _ => 0

/-- When the circuit opened last because an attempt that was sent has failed. -/
def lastOpened : List Note → Option DateTime
  | [] => none
  | .opened now :: .failed :: _ => some now
  | _ :: notes => lastOpened notes

/-- Whenever the circuit opened, enough attempts in a row had been sent and had failed. -/
def OpensLate (threshold : Nat) : List Note → Prop
  | [] => True
  | .opened _ :: notes => threshold ≤ streak notes ∧ OpensLate threshold notes
  | _ :: notes => OpensLate threshold notes

section Breaker

variable (config : WebhookDeliveryConfig)

/-- What the breaker has to do: it opens after enough failures of attempts that were sent, and only
such failures are counted. -/
def BreakerRight (notes : List Note) : Prop :=
  OpensLate (max config.circuitBreakerThreshold 1) notes ∧ .unsent ∉ notes

/-- The time for which a failure of an attempt that was sent has opened the circuit has passed. -/
def CooldownPassed (state : WebhookState) (webhookId : Uuid) (now : DateTime) : Prop :=
  ∀ opened, lastOpened (state.notes webhookId) = some opened →
    opened + WebhookRuntimeState.cooldown config ≤ now

/-- The breaker knows no more failures than there were, and opens for no longer than it has to. -/
structure Tracked (notes : List Note) (row : WebhookRuntimeState) : Prop where
  counted : row.consecutiveFailures ≤ streak notes
  timed : ∀ openUntil, row.circuitOpenUntil = some openUntil → ∃ opened,
    lastOpened notes = some opened ∧ openUntil = opened + WebhookRuntimeState.cooldown config

/-- The breakers of all webhooks are right. -/
def Sane (state : WebhookState) : Prop :=
  ∀ webhookId, BreakerRight config (state.notes webhookId) ∧
    ∀ row, state.runtime webhookId = some row → Tracked config (state.notes webhookId) row

variable {config} {notes : List Note} {row : WebhookRuntimeState} {state : WebhookState}

theorem Tracked.fresh (now : DateTime) : Tracked config notes (.fresh now) :=
  ⟨Nat.zero_le _, nofun⟩

theorem Sane.runtimeOf (sane : Sane config state) (webhookId : Uuid) (now : DateTime) :
    Tracked config (state.notes webhookId) (state.runtimeOf webhookId now) := by
  unfold WebhookState.runtimeOf
  cases found : state.runtime webhookId with
  | none => exact .fresh now
  | some row => exact (sane webhookId).2 row found

theorem Tracked.admission (tracked : Tracked config notes row) (now : DateTime) :
    Tracked config notes (row.admission config now).2 := by
  have renews (other : WebhookRuntimeState) :
      (other.renewWindow now).circuitOpenUntil = other.circuitOpenUntil := by
    unfold WebhookRuntimeState.renewWindow
    split <;> rfl
  refine ⟨?_, fun openUntil opened => tracked.timed openUntil ?_⟩
  · rw [WebhookRuntimeState.consecutiveFailures_admission]
    exact tracked.counted
  · unfold WebhookRuntimeState.admission at opened
    cases circuit : row.circuitOpenUntil with
    | none =>
      rw [circuit] at opened
      dsimp only at opened
      split at opened
      · exact circuit.symm.trans ((renews row).symm.trans opened)
      · exact circuit.symm.trans ((renews row).symm.trans opened)
    | some until_then =>
      rw [circuit] at opened
      dsimp only at opened
      split at opened
      · exact circuit.symm.trans opened
      · split at opened
        · exact nomatch (renews row.closeElapsed).symm.trans opened
        · exact nomatch (renews row.closeElapsed).symm.trans opened

theorem Tracked.fail (tracked : Tracked config notes row) (now : DateTime) :
    let after := row.fail config now
    if after.consecutiveFailures = 0 then
      max config.circuitBreakerThreshold 1 ≤ streak (.failed :: notes) ∧
        Tracked config (.opened now :: .failed :: notes) after
    else Tracked config (.failed :: notes) after := by
  have counted := tracked.counted
  unfold WebhookRuntimeState.fail
  dsimp only
  by_cases enough : max config.circuitBreakerThreshold 1 ≤
      min (row.consecutiveFailures + 1) (2 ^ 32 - 1)
  · rw [if_pos enough]
    dsimp only
    rw [if_pos rfl]
    refine ⟨?_, ⟨Nat.zero_le _, fun openUntil same => ⟨now, rfl, (Option.some.inj same).symm⟩⟩⟩
    simp only [streak]
    omega
  · rw [if_neg enough]
    dsimp only
    rw [if_neg (by omega)]
    refine ⟨?_, fun openUntil same => tracked.timed openUntil same⟩
    simp only [streak]
    omega

end Breaker

/-! ## Commands -/

section Commands

variable {config : WebhookDeliveryConfig} {state : WebhookState}

theorem Sane.of_same {after : WebhookState} (sane : Sane config state)
    (notes : after.notes = state.notes) (runtime : after.runtime = state.runtime) :
    Sane config after := by
  unfold Sane
  rw [notes, runtime]
  exact sane

theorem same_pushAll (config : WebhookDeliveryConfig) (proposal userId : Uuid)
    (eventType : MemoryWebhookEventType) (requestId : Option String) (payload : Json)
    (createdAt : DateTime) (webhookIds : List Uuid) (state : WebhookState) :
    (state.pushAll config proposal userId eventType requestId payload createdAt
        webhookIds).2.notes = state.notes ∧
      (state.pushAll config proposal userId eventType requestId payload createdAt
        webhookIds).2.runtime = state.runtime := by
  induction webhookIds generalizing state with
  | nil => exact ⟨rfl, rfl⟩
  | cons webhookId webhookIds ih =>
    have rest := ih (state.push config proposal userId eventType requestId payload createdAt
      webhookId)
    exact rest

theorem Sane.update (sane : Sane config state) (webhookId : Uuid) {notes : List Note}
    {row : WebhookRuntimeState} (right : BreakerRight config notes)
    (tracked : Tracked config notes row) {after : WebhookState}
    (noted : after.notes = Function.update state.notes webhookId notes)
    (kept : after.runtime = Function.update state.runtime webhookId (some row)) :
    Sane config after := by
  intro other
  rw [noted, kept]
  rcases eq_or_ne other webhookId with rfl | different
  · rw [Function.update_self, Function.update_self]
    refine ⟨right, fun found same => ?_⟩
    rw [← Option.some.inj same]
    exact tracked
  · rw [Function.update_of_ne different, Function.update_of_ne different]
    exact sane other

theorem Sane.sent (sane : Sane config state) (webhookId : Uuid) :
    Sane config (state.note webhookId .sent) := by
  intro other
  rcases eq_or_ne other webhookId with rfl | different
  · have noted : (state.note other .sent).notes other = .sent :: state.notes other :=
      Function.update_self _ _ _
    rw [noted]
    refine ⟨⟨(sane other).1.1, ?_⟩, fun row found => ?_⟩
    · simpa using (sane other).1.2
    · have tracked := (sane other).2 row found
      exact ⟨tracked.counted, tracked.timed⟩
  · have noted : (state.note webhookId .sent).notes other = state.notes other :=
      Function.update_of_ne different _ _
    rw [noted]
    exact sane other

theorem Sane.recordSuccess (sane : Sane config state) (webhookId : Uuid) :
    Sane config ((match state.runtime webhookId with
      | some row => state.withRuntime webhookId (some row.succeed)
      | none => state).note webhookId .succeeded) := by
  have right : BreakerRight config (.succeeded :: state.notes webhookId) := by
    refine ⟨(sane webhookId).1.1, ?_⟩
    simpa using (sane webhookId).1.2
  cases found : state.runtime webhookId with
  | some row =>
    have tracked : Tracked config (.succeeded :: state.notes webhookId) row.succeed :=
      ⟨Nat.zero_le _, nofun⟩
    exact sane.update webhookId right tracked rfl rfl
  | none =>
    intro other
    rcases eq_or_ne other webhookId with rfl | different
    · have noted : (state.note other .succeeded).notes other =
          .succeeded :: state.notes other := Function.update_self _ _ _
      dsimp only
      rw [noted]
      exact ⟨right, fun row there => nomatch found.symm.trans there⟩
    · have noted : (state.note webhookId .succeeded).notes other = state.notes other :=
        Function.update_of_ne different _ _
      dsimp only
      rw [noted]
      exact sane other

theorem Sane.recordFailure (sane : Sane config state) (webhookId : Uuid) (now : DateTime) :
    Sane config (state.recordFailure config now webhookId true) := by
  have tracked := (sane.runtimeOf webhookId now).fail now
  have right := (sane webhookId).1
  have failed : BreakerRight config (.failed :: state.notes webhookId) :=
    ⟨right.1, by simpa using right.2⟩
  unfold WebhookState.recordFailure
  dsimp only at tracked ⊢
  split at tracked
  · rename_i opens
    rw [if_pos opens]
    have right : BreakerRight config (.opened now :: .failed :: state.notes webhookId) :=
      ⟨⟨tracked.1, failed.1⟩, by simpa using failed.2⟩
    refine sane.update webhookId right tracked.2 ?_ rfl
    simp [WebhookState.note, WebhookState.withRuntime]
  · rename_i counts
    rw [if_neg counts]
    exact sane.update webhookId failed tracked rfl rfl

theorem Sane.checked (sane : Sane config state) (webhookId : Uuid) (now : DateTime) :
    Sane config (state.withRuntime webhookId
      (some ((state.runtimeOf webhookId now).admission config now).2)) := by
  have tracked := (sane.runtimeOf webhookId now).admission now
  refine sane.update webhookId (sane webhookId).1 tracked ?_ rfl
  rw [Function.update_eq_self]
  rfl

theorem Sane.removeRuntime (sane : Sane config state) (webhookId : Uuid) :
    Sane config (state.withRuntime webhookId none) := by
  intro other
  refine ⟨(sane other).1, fun row found => ?_⟩
  change Function.update state.runtime webhookId none other = some row at found
  rcases eq_or_ne other webhookId with rfl | different
  · rw [Function.update_self] at found
    exact nomatch found
  · rw [Function.update_of_ne different] at found
    exact (sane other).2 row found

theorem Sane.exec (sane : Sane config state) (command : WebhookCommand) (input : WebhookInput)
    (sent : ∀ webhookId, command ≠ .recordFailure webhookId false) :
    Sane config (exec config command input state).2 := by
  cases command with
  | checkRateAndCircuit webhookId => exact sane.checked webhookId input.now
  | send webhook event => exact (sane.sent webhook.id).of_same rfl rfl
  | recordSuccess webhookId => exact sane.recordSuccess webhookId
  | recordFailure webhookId mine =>
    cases mine with
    | true => exact sane.recordFailure webhookId input.now
    | false => exact absurd rfl (sent webhookId)
  | removeRuntime webhookId => exact sane.removeRuntime webhookId
  | pushEvents webhookIds userId eventType requestId payload createdAt =>
    obtain ⟨notes, runtime⟩ := same_pushAll config input.id userId eventType requestId payload
      createdAt webhookIds state
    exact sane.of_same notes runtime
  | _ => exact sane.of_same rfl rfl

theorem Sane.closed (sane : Sane config state) {webhookId : Uuid} {now : DateTime}
    (passed : CooldownPassed config state webhookId now) :
    (state.runtimeOf webhookId now).isOpen now = false := by
  have tracked := sane.runtimeOf webhookId now
  unfold WebhookRuntimeState.isOpen
  cases circuit : (state.runtimeOf webhookId now).circuitOpenUntil with
  | none => rfl
  | some openUntil =>
    obtain ⟨opened, last, rfl⟩ := tracked.timed openUntil circuit
    exact decide_eq_false (not_lt.mpr (passed opened last))

end Commands

/-! ## Runs -/

section Runs

variable (setting : WebhookSetting)

/-- The tasks follow no protocol. -/
def unwatched : Protocol WebhookCommand WebhookCommand.Reply MnemoError Unit where
  start := ()
  allowed _ _ := True
  expected _ _ _ := True
  next _ _ _ := ()

/-- One step of the tasks of the webhooks. -/
abbrev deliveryStep : WebhookCrew Unit → WebhookEvent → WebhookCrew Unit :=
  Crew.step (exec setting.delivery) (webhookOrders setting unwatched (fun _ => ()) id)

/-- An attempt that was not sent is not recorded as a failure, and the window has room for every
attempt that asks for admission. -/
def RecordsSent (crew : WebhookCrew Unit) : WebhookEvent → Prop
  | .advance position input =>
      match crew.tasks[position]?.bind Task.upcoming with
      | some (.recordFailure _ sent) => sent = true
      | some (.checkRateAndCircuit webhookId) =>
          (crew.shared.runtimeOf webhookId input.now).hasRoom setting.delivery input.now = true
      | _ => True
  | _ => True

/-- An attempt that asks for admission after the cooldown is admitted. -/
def AdmitsAfterCooldown (crew : WebhookCrew Unit) : WebhookEvent → Prop
  | .advance position input => ∀ task webhookId, crew.tasks[position]? = some task →
      task.upcoming = some (.checkRateAndCircuit webhookId) →
      CooldownPassed setting.delivery crew.shared webhookId input.now →
      (exec setting.delivery (.checkRateAndCircuit webhookId) input crew.shared).1 = .ok (.ok ())
  | _ => True

/-- Nothing was noted, and nothing is kept of earlier deliveries. -/
def Unnoted (state : WebhookState) : Prop :=
  (∀ webhookId, state.notes webhookId = []) ∧ ∀ webhookId, state.runtime webhookId = none

/-- As long as no attempt that was not sent is recorded as a failure, circuits open only after
enough attempts in a row that were sent and have failed, nothing else is counted, and after the
cooldown attempts are admitted. -/
theorem breakerRight_of_recordsSent (state : WebhookState) (unnoted : Unnoted state)
    (events : List WebhookEvent)
    (guarded : Guarded (deliveryStep setting) (RecordsSent setting) (Crew.idle state) events) :
    Always (deliveryStep setting)
        (fun crew => ∀ webhookId, BreakerRight setting.delivery (crew.shared.notes webhookId))
        (Crew.idle state) events ∧
      Guarded (deliveryStep setting) (AdmitsAfterCooldown setting) (Crew.idle state) events := by
  have initially : Sane setting.delivery state := by
    intro webhookId
    rw [unnoted.1 webhookId, unnoted.2 webhookId]
    exact ⟨⟨trivial, by simp⟩, nofun⟩
  have kept (crew : WebhookCrew Unit) (position : Nat) (input : WebhookInput)
      (task : WebhookTask Unit) (command : WebhookCommand)
      (found : crew.tasks[position]? = some task) (upcoming : task.upcoming = some command)
      (admissible : RecordsSent setting crew (.advance position input))
      (sane : Sane setting.delivery crew.shared) : Sane setting.delivery (exec setting.delivery command input crew.shared).2 := by
    apply sane.exec
    rintro webhookId rfl
    simp [RecordsSent, found, upcoming] at admissible
  have always := Crew.always_shared kept initially guarded
  refine ⟨always.mono fun crew sane webhookId => (sane webhookId).1, ?_⟩
  apply Guarded.mono (Crew.shared_kept kept) ?_ initially guarded
  intro crew event sane admissible
  cases event with
  | begin job => exact trivial
  | handOn position => exact trivial
  | advance position input =>
      intro task webhookId found upcoming passed
      have room : (crew.shared.runtimeOf webhookId input.now).hasRoom setting.delivery input.now = true := by
        simpa [RecordsSent, found, upcoming] using admissible
      exact congrArg Except.ok ((WebhookRuntimeState.admission_ok_iff setting.delivery input.now _).mpr
        ⟨sane.closed passed, room⟩)

/-! ## A refused attempt -/

/-- An event is emitted and the first attempt fails; the second one is refused, since the circuit is
open, and the third one as well, after the time of the circuit. -/
def refusedRun : List WebhookEvent :=
  [.begin (.emit 7 .factAdded none .null), .advance 0 (failingAt 0), .advance 0 (failingAt 0),
    .advance 0 (failingAt 0), .advance 0 (failingAt 0), .handOn 0,
    .advance 1 (failingAt 0), .advance 1 (failingAt 0), .advance 1 (failingAt 0),
    .advance 1 (failingAt 0), .advance 1 (failingAt 0), .advance 1 (failingAt 0),
    .advance 1 (failingAt 0), .advance 1 (failingAt 500000000), .advance 1 (failingAt 500000000),
    .advance 1 (failingAt 500000000), .advance 1 (failingAt 1200000000)]

/-- One subscription to facts of a user. -/
def oneHook : WebhookState := quietState fun id => if id = 1 then some (factHook 1 7) else none

theorem unnoted_oneHook : Unnoted oneHook := ⟨fun _ => rfl, fun _ => rfl⟩

/-- The circuit opens after one failure, and the next attempt is made after the cooldown. -/
theorem breakerRight_of_recordsSent_patient :
    let events := refusedRun.take 13 ++ [.advance 1 (failingAt 1000000000)]
    Unnoted oneHook ∧
      Guarded (deliveryStep briskSetting) (RecordsSent briskSetting) (Crew.idle oneHook) events ∧
      (Always (deliveryStep briskSetting)
          (fun crew => ∀ webhookId, BreakerRight briskSetting.delivery (crew.shared.notes webhookId))
          (Crew.idle oneHook) events ∧
        Guarded (deliveryStep briskSetting) (AdmitsAfterCooldown briskSetting) (Crew.idle oneHook)
          events) := by
  have guarded : Guarded (deliveryStep briskSetting) (RecordsSent briskSetting) (Crew.idle oneHook)
      (refusedRun.take 13 ++ [.advance 1 (failingAt 1000000000)]) :=
    ⟨trivial, trivial, trivial, trivial, trivial, trivial, trivial, trivial, trivial, rfl, trivial,
      trivial, rfl, rfl, trivial⟩
  exact ⟨unnoted_oneHook, guarded,
    breakerRight_of_recordsSent briskSetting oneHook unnoted_oneHook _ guarded⟩

/-- A refused attempt is recorded as a failure, and opens the circuit anew. -/
theorem refused_attempt_counts :
    ¬ (Always (deliveryStep briskSetting)
        (fun crew => ∀ webhookId, BreakerRight briskSetting.delivery (crew.shared.notes webhookId))
        (Crew.idle oneHook) refusedRun ∨
      Guarded (deliveryStep briskSetting) (AdmitsAfterCooldown briskSetting) (Crew.idle oneHook)
        refusedRun) := by
  have noted : (StateMachine.finish (deliveryStep briskSetting) (Crew.idle oneHook)
      (refusedRun.take 16)).shared.notes 1 =
        [.opened 500000000, .unsent, .opened 0, .failed, .sent] := rfl
  rintro (always | guarded)
  · have right := StateMachine.always_iff_splits.mp always (refusedRun.take 16)
      (refusedRun.drop 16) (List.take_append_drop 16 refusedRun).symm 1
    rw [noted] at right
    exact absurd right.2 (by decide)
  · rw [← List.take_append_drop 16 refusedRun] at guarded
    have last := (StateMachine.guarded_append.mp guarded).2.1
    have passed : CooldownPassed briskSetting.delivery (StateMachine.finish (deliveryStep briskSetting)
        (Crew.idle oneHook) (refusedRun.take 16)).shared 1 1200000000 := by
      intro opened same
      rw [noted] at same
      obtain rfl := Option.some.inj same
      decide
    exact nomatch last _ 1 rfl rfl passed

end Runs
end Webhook
end Mnemo
