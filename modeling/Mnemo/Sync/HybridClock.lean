import Mathlib
import Mnemo.Lib.StateMachine
import Mnemo.Sync.ORSet

/-!
# The hybrid logical clock

A clock combines the wall time of its node with a counter.  Whatever the wall clocks show, the
stamps of a run increase along every chain of causes, as long as no counter overflows.
-/

namespace Mnemo
namespace Sync

/-- Timestamp of a hybrid logical clock. -/
structure HlcTimestamp where
  wallMs : Nat
  counter : Nat
  nodeId : NodeId
  deriving DecidableEq, Repr

namespace HlcTimestamp

/-- Wall time first, then counter, then node. -/
def cmp (stamp other : HlcTimestamp) : Ordering :=
  (compare stamp.wallMs other.wallMs).then
    ((compare stamp.counter other.counter).then (compare stamp.nodeId other.nodeId))

instance : LT HlcTimestamp := ⟨fun stamp other => stamp.cmp other = .lt⟩

instance (stamp other : HlcTimestamp) : Decidable (stamp < other) :=
  inferInstanceAs (Decidable (stamp.cmp other = .lt))

/-- Wall time and counter, compared in this order. -/
def reading (stamp : HlcTimestamp) : Nat ×ₗ Nat := toLex (stamp.wallMs, stamp.counter)

theorem lt_iff (stamp other : HlcTimestamp) :
    stamp < other ↔ stamp.reading < other.reading ∨
      stamp.reading = other.reading ∧ stamp.nodeId < other.nodeId := by
  change stamp.cmp other = .lt ↔ _
  simp only [cmp, reading, Ordering.then_eq_lt, compare_lt_iff_lt, compare_eq_iff_eq,
    Prod.Lex.toLex_lt_toLex, EmbeddingLike.apply_eq_iff_eq, Prod.mk.injEq]
  tauto

theorem lt_of_reading_lt {stamp other : HlcTimestamp} (less : stamp.reading < other.reading) :
    stamp < other :=
  (lt_iff stamp other).mpr (.inl less)

protected theorem lt_trans {first second third : HlcTimestamp} (one : first < second)
    (two : second < third) : first < third := by
  rw [lt_iff] at one two ⊢
  rcases one with one | ⟨one, nodes⟩
  · rcases two with two | ⟨two, _⟩
    · exact .inl (lt_trans one two)
    · exact .inl (two ▸ one)
  · rcases two with two | ⟨two, more⟩
    · exact .inl (one ▸ two)
    · exact .inr ⟨one.trans two, lt_trans nodes more⟩

protected theorem lt_irrefl (stamp : HlcTimestamp) : ¬ stamp < stamp := by
  rw [lt_iff]
  rintro (less | ⟨_, less⟩)
  · exact lt_irrefl _ less
  · exact lt_irrefl _ less

theorem ext_reading {stamp other : HlcTimestamp} (same : stamp.reading = other.reading)
    (node : stamp.nodeId = other.nodeId) : stamp = other := by
  obtain ⟨wall, counter⟩ := Prod.mk.inj (toLex.injective same)
  cases stamp
  cases other
  simp_all

protected theorem lt_trichotomy (stamp other : HlcTimestamp) :
    stamp < other ∨ stamp = other ∨ other < stamp := by
  rw [lt_iff, lt_iff]
  rcases lt_trichotomy stamp.reading other.reading with less | same | greater
  · exact .inl (.inl less)
  · rcases lt_trichotomy stamp.nodeId other.nodeId with less | node | greater
    · exact .inl (.inr ⟨same, less⟩)
    · exact .inr (.inl (ext_reading same node))
    · exact .inr (.inr (.inr ⟨same.symm, greater⟩))
  · exact .inr (.inr (.inl greater))

/-- Timestamps are totally ordered. -/
instance : LinearOrder HlcTimestamp where
  le stamp other := ¬ other < stamp
  lt stamp other := stamp < other
  le_refl stamp := stamp.lt_irrefl
  le_trans first second third one two less := by
    rcases HlcTimestamp.lt_trichotomy first second with before | rfl | after
    · exact two (HlcTimestamp.lt_trans less before)
    · exact two less
    · exact one after
  lt_iff_le_not_ge stamp other :=
    ⟨fun less => ⟨fun greater => HlcTimestamp.lt_irrefl _ (HlcTimestamp.lt_trans less greater),
      not_not_intro less⟩, fun both => not_not.mp both.2⟩
  le_antisymm stamp other one two := by
    rcases HlcTimestamp.lt_trichotomy stamp other with less | same | greater
    · exact absurd less two
    · exact same
    · exact absurd greater one
  le_total stamp other := by
    rcases HlcTimestamp.lt_trichotomy stamp other with less | rfl | greater
    · exact .inl fun more => HlcTimestamp.lt_irrefl _ (HlcTimestamp.lt_trans less more)
    · exact .inl (HlcTimestamp.lt_irrefl _)
    · exact .inr fun more => HlcTimestamp.lt_irrefl _ (HlcTimestamp.lt_trans greater more)
  toDecidableLE _ _ := inferInstanceAs (Decidable (¬ _))

end HlcTimestamp

/-- Counters have 32 bits. -/
def counterSize : Nat := 2 ^ 32

/-- Add one to a counter, which starts again from zero when it overflows. -/
def increment (counter : Nat) : Nat := (counter + 1) % counterSize

/-- State of the clock of a node. -/
structure HybridClock where
  nodeId : NodeId
  lastWallMs : Nat
  counter : Nat
  deriving DecidableEq, Repr

namespace HybridClock

def new (nodeId : NodeId) : HybridClock := { nodeId, lastWallMs := 0, counter := 0 }

/-- The stamp that a clock shows. -/
def stamp (clock : HybridClock) : HlcTimestamp :=
  { wallMs := clock.lastWallMs, counter := clock.counter, nodeId := clock.nodeId }

/-- Generate a stamp at a reading of the wall clock. -/
def now (clock : HybridClock) (wallMs : Nat) : HybridClock × HlcTimestamp :=
  let next :=
    if clock.lastWallMs < wallMs then { clock with lastWallMs := wallMs, counter := 0 }
    else { clock with counter := increment clock.counter }
  (next, next.stamp)

/-- Receive a remote stamp and generate one that comes after it. -/
def receive (clock : HybridClock) (remote : HlcTimestamp) (wallMs : Nat) :
    HybridClock × HlcTimestamp :=
  let next :=
    if clock.lastWallMs < wallMs ∧ remote.wallMs < wallMs then
      { clock with lastWallMs := wallMs, counter := 0 }
    else if clock.lastWallMs < remote.wallMs then
      { clock with lastWallMs := remote.wallMs, counter := increment remote.counter }
    else if remote.wallMs < clock.lastWallMs then
      { clock with counter := increment clock.counter }
    else { clock with counter := increment (max clock.counter remote.counter) }
  (next, next.stamp)

/-- `now` does not add one to a full counter. -/
def NowFits (clock : HybridClock) (wallMs : Nat) : Prop :=
  clock.lastWallMs < wallMs ∨ clock.counter + 1 < counterSize

/-- `receive` does not add one to a full counter. -/
def ReceiveFits (clock : HybridClock) (remote : HlcTimestamp) (wallMs : Nat) : Prop :=
  (clock.lastWallMs < wallMs ∧ remote.wallMs < wallMs) ∨
    (clock.lastWallMs ≤ remote.wallMs → remote.counter + 1 < counterSize) ∧
      (remote.wallMs ≤ clock.lastWallMs → clock.counter + 1 < counterSize)

instance (clock : HybridClock) (wallMs : Nat) : Decidable (clock.NowFits wallMs) :=
  inferInstanceAs (Decidable (_ ∨ _))

instance (clock : HybridClock) (remote : HlcTimestamp) (wallMs : Nat) :
    Decidable (clock.ReceiveFits remote wallMs) :=
  inferInstanceAs (Decidable (_ ∨ _))

theorem increment_of_fits {counter : Nat} (fits : counter + 1 < counterSize) :
    increment counter = counter + 1 := Nat.mod_eq_of_lt fits

theorem reading_lt_iff (stamp other : HlcTimestamp) :
    stamp.reading < other.reading ↔ stamp.wallMs < other.wallMs ∨
      stamp.wallMs = other.wallMs ∧ stamp.counter < other.counter :=
  Prod.Lex.toLex_lt_toLex

theorem now_spec {clock : HybridClock} {wallMs : Nat} (fits : clock.NowFits wallMs) :
    (clock.now wallMs).2 = (clock.now wallMs).1.stamp ∧
      (clock.now wallMs).1.nodeId = clock.nodeId ∧
      clock.stamp.reading < (clock.now wallMs).2.reading := by
  refine ⟨rfl, ?_, ?_⟩
  · unfold now
    split
    · rfl
    · rfl
  · rw [reading_lt_iff]
    unfold now
    split
    · rename_i ahead
      exact .inl ahead
    · rename_i behind
      have more := increment_of_fits (fits.resolve_left behind)
      right
      simp [stamp, more]

theorem receive_spec {clock : HybridClock} {remote : HlcTimestamp} {wallMs : Nat}
    (fits : clock.ReceiveFits remote wallMs) :
    (clock.receive remote wallMs).2 = (clock.receive remote wallMs).1.stamp ∧
      (clock.receive remote wallMs).1.nodeId = clock.nodeId ∧
      clock.stamp.reading < (clock.receive remote wallMs).2.reading ∧
      remote.reading < (clock.receive remote wallMs).2.reading := by
  rw [reading_lt_iff, reading_lt_iff]
  unfold receive
  split
  · rename_i ahead
    exact ⟨rfl, rfl, .inl ahead.1, .inl ahead.2⟩
  · rename_i notAhead
    obtain ⟨remoteFits, localFits⟩ := fits.resolve_left notAhead
    split
    · rename_i remoteAhead
      have more := increment_of_fits (remoteFits remoteAhead.le)
      refine ⟨rfl, rfl, .inl remoteAhead, .inr ⟨rfl, ?_⟩⟩
      change remote.counter < increment remote.counter
      omega
    · split
      · rename_i localAhead
        have more := increment_of_fits (localFits localAhead.le)
        refine ⟨rfl, rfl, .inr ⟨rfl, ?_⟩, .inl localAhead⟩
        change clock.counter < increment clock.counter
        omega
      · rename_i notRemote notLocal
        have same : clock.lastWallMs = remote.wallMs := by omega
        have most : max clock.counter remote.counter + 1 < counterSize := by
          have one := remoteFits same.le
          have two := localFits same.ge
          omega
        have more := increment_of_fits most
        refine ⟨rfl, rfl, .inr ⟨rfl, ?_⟩, .inr ⟨same.symm, ?_⟩⟩
        · change clock.counter < increment (max clock.counter remote.counter)
          omega
        · change remote.counter < increment (max clock.counter remote.counter)
          omega

end HybridClock

/-! ## Runs of many nodes -/

/-- A stamp that was issued, by which node, and the position of the stamp it was issued on. -/
structure Issue where
  node : NodeId
  stamp : HlcTimestamp
  received : Option Nat
  deriving DecidableEq, Repr

/-- The clocks of the nodes and the stamps which they have issued, oldest first. -/
structure ClockSystem where
  clocks : NodeId → HybridClock
  issues : List Issue

/-- A node asks for the time, or receives the stamp that was issued at a position of the run; its
wall clock may show anything. -/
inductive ClockEvent where
  | now (node : NodeId) (wallMs : Nat)
  | receive (node : NodeId) (position wallMs : Nat)

namespace ClockSystem

/-- Before anything was issued. -/
def fresh : ClockSystem := { clocks := HybridClock.new, issues := [] }

/-- Record what a node has issued. -/
def record (system : ClockSystem) (node : NodeId) (issued : HybridClock × HlcTimestamp)
    (received : Option Nat) : ClockSystem :=
  { clocks := Function.update system.clocks node issued.1
    issues := system.issues ++ [{ node, stamp := issued.2, received }] }

/-- One step of the system; a stamp that was not issued cannot be received. -/
def step (system : ClockSystem) : ClockEvent → ClockSystem
  | .now node wallMs => system.record node ((system.clocks node).now wallMs) none
  | .receive node position wallMs =>
      match system.issues[position]? with
      | some issue =>
          system.record node ((system.clocks node).receive issue.stamp wallMs) (some position)
      | none => system

/-- The step does not overflow a counter. -/
def Fits (system : ClockSystem) : ClockEvent → Prop
  | .now node wallMs => (system.clocks node).NowFits wallMs
  | .receive node position wallMs =>
      ∀ issue, system.issues[position]? = some issue →
        (system.clocks node).ReceiveFits issue.stamp wallMs

/-- The first issue is a cause of the second one: it comes before it on the same node, or it is
what was received. -/
def Causes (issues : List Issue) (cause effect : Nat) : Prop :=
  ∃ first second, issues[cause]? = some first ∧ issues[effect]? = some second ∧
    (cause < effect ∧ first.node = second.node ∨ second.received = some cause)

/-- One issue happens before another. -/
def HappensBefore (issues : List Issue) : Nat → Nat → Prop := Relation.TransGen (Causes issues)

/-- Stamps are received after they were issued, and stamps grow from causes to effects and up to
what the clocks show. -/
structure Ordered (system : ClockSystem) : Prop where
  ids : ∀ node, (system.clocks node).nodeId = node
  earlier : ∀ (effect cause : Nat) (issue : Issue), system.issues[effect]? = some issue →
    issue.received = some cause → cause < effect
  shown : ∀ issue ∈ system.issues, issue.stamp.nodeId = issue.node ∧
    issue.stamp.reading ≤ (system.clocks issue.node).stamp.reading
  causes : ∀ (cause effect : Nat) (first second : Issue), system.issues[cause]? = some first →
    system.issues[effect]? = some second → cause < effect →
      (first.node = second.node ∨ second.received = some cause) →
        first.stamp.reading < second.stamp.reading

theorem ordered_fresh : Ordered fresh := by
  refine ⟨fun _ => rfl, ?_, ?_, ?_⟩
  · intro effect cause issue found
    cases found
  · intro issue member
    cases member
  · intro cause effect first second found
    cases found

theorem clocks_record_self (system : ClockSystem) (node : NodeId)
    (issued : HybridClock × HlcTimestamp) (received : Option Nat) :
    (system.record node issued received).clocks node = issued.1 :=
  Function.update_self ..

theorem clocks_record_of_ne (system : ClockSystem) {node other : NodeId}
    (different : other ≠ node) (issued : HybridClock × HlcTimestamp) (received : Option Nat) :
    (system.record node issued received).clocks other = system.clocks other :=
  Function.update_of_ne different ..

theorem issues_record {system : ClockSystem} {node : NodeId}
    {issued : HybridClock × HlcTimestamp} {received : Option Nat} {position : Nat} {issue : Issue}
    (found : (system.record node issued received).issues[position]? = some issue) :
    system.issues[position]? = some issue ∧ position < system.issues.length ∨
      position = system.issues.length ∧ issue = { node, stamp := issued.2, received } := by
  have bounded : position < system.issues.length + 1 := by
    have within := (List.getElem?_eq_some_iff.mp found).1
    simpa [record] using within
  unfold record at found
  rcases Nat.lt_succ_iff_lt_or_eq.mp bounded with old | rfl
  · rw [List.getElem?_append_left old] at found
    exact .inl ⟨found, old⟩
  · rw [List.getElem?_append_right le_rfl, Nat.sub_self] at found
    exact .inr ⟨rfl, (Option.some.inj found).symm⟩

/-- A stamp that comes after what the clock of its node showed, and after the one it was issued on,
keeps the causes in order. -/
theorem Ordered.record {system : ClockSystem} (ordered : Ordered system) {node : NodeId}
    {next : HybridClock} {received : Option Nat} (sameNode : next.nodeId = node)
    (later : (system.clocks node).stamp.reading < next.stamp.reading)
    (after : ∀ position, received = some position → ∃ issue,
      system.issues[position]? = some issue ∧ issue.stamp.reading < next.stamp.reading) :
    Ordered (system.record node (next, next.stamp) received) := by
  refine ⟨fun other => ?_, fun effect cause issue found was => ?_, fun issue member => ?_,
    fun cause effect first second one two less why => ?_⟩
  · rcases eq_or_ne other node with rfl | different
    · rw [clocks_record_self, sameNode]
    · rw [clocks_record_of_ne _ different, ordered.ids]
  · rcases issues_record found with ⟨old, _⟩ | ⟨rfl, rfl⟩
    · exact ordered.earlier effect cause issue old was
    · obtain ⟨source, held, _⟩ := after cause was
      exact (List.getElem?_eq_some_iff.mp held).1
  · rcases List.mem_append.mp member with old | new
    · obtain ⟨own, behind⟩ := ordered.shown issue old
      refine ⟨own, ?_⟩
      rcases eq_or_ne issue.node node with same | different
      · rw [same] at behind
        rw [same, clocks_record_self]
        exact behind.trans later.le
      · rw [clocks_record_of_ne _ different]
        exact behind
    · obtain rfl := List.mem_singleton.mp new
      refine ⟨sameNode, ?_⟩
      rw [clocks_record_self]
  · rcases issues_record two with ⟨old, within⟩ | ⟨rfl, rfl⟩
    · rcases issues_record one with ⟨oldFirst, _⟩ | ⟨rfl, _⟩
      · exact ordered.causes cause effect first second oldFirst old less why
      · omega
    · rcases issues_record one with ⟨oldFirst, _⟩ | ⟨rfl, _⟩
      · rcases why with same | was
        · have behind := (ordered.shown first (List.mem_of_getElem? oldFirst)).2
          rw [same] at behind
          exact behind.trans_lt later
        · obtain ⟨source, held, less⟩ := after cause was
          obtain rfl : first = source := Option.some.inj (oldFirst.symm.trans held)
          exact less
      · omega

theorem Ordered.step {system : ClockSystem} (ordered : Ordered system) {event : ClockEvent}
    (fits : system.Fits event) : Ordered (system.step event) := by
  cases event with
  | now node wallMs =>
    obtain ⟨_, sameNode, later⟩ := HybridClock.now_spec fits
    exact ordered.record (sameNode.trans (ordered.ids node)) later
      fun _ impossible => nomatch impossible
  | receive node position wallMs =>
    unfold ClockSystem.step
    dsimp only
    split
    · rename_i issue held
      obtain ⟨_, sameNode, later, more⟩ := HybridClock.receive_spec (fits issue held)
      refine ordered.record (sameNode.trans (ordered.ids node)) later fun other same => ?_
      obtain rfl := Option.some.inj same
      exact ⟨issue, held, more⟩
    · exact ordered

theorem ordered_finish {events : List ClockEvent}
    (fits : StateMachine.Guarded step Fits fresh events) :
    Ordered (StateMachine.finish step fresh events) :=
  (fits.always (fun _ _ ordered fit => ordered.step fit) ordered_fresh).finish

theorem Ordered.lt_of_causes {system : ClockSystem} (ordered : Ordered system)
    {cause effect : Nat} (why : Causes system.issues cause effect) {first second : Issue}
    (one : system.issues[cause]? = some first) (two : system.issues[effect]? = some second) :
    first.stamp < second.stamp := by
  obtain ⟨former, latter, held, also, why⟩ := why
  obtain rfl : former = first := Option.some.inj (held.symm.trans one)
  obtain rfl : latter = second := Option.some.inj (also.symm.trans two)
  apply HlcTimestamp.lt_of_reading_lt
  rcases why with ⟨less, same⟩ | was
  · exact ordered.causes cause effect former latter one two less (.inl same)
  · exact ordered.causes cause effect former latter one two
      (ordered.earlier effect cause latter two was) (.inr was)

theorem Ordered.lt_of_happensBefore {system : ClockSystem} (ordered : Ordered system)
    {cause effect : Nat} (before : HappensBefore system.issues cause effect) {first second : Issue}
    (one : system.issues[cause]? = some first) (two : system.issues[effect]? = some second) :
    first.stamp < second.stamp := by
  induction before generalizing second with
  | single why => exact ordered.lt_of_causes why one two
  | tail _ why ih =>
    have direct := why
    obtain ⟨middle, _, held, _⟩ := direct
    exact HlcTimestamp.lt_trans (ih held) (ordered.lt_of_causes why held two)

theorem Ordered.stamp_ne {system : ClockSystem} (ordered : Ordered system)
    {position other : Nat} (less : position < other) {first second : Issue}
    (one : system.issues[position]? = some first) (two : system.issues[other]? = some second) :
    first.stamp ≠ second.stamp := by
  intro same
  have firstNode := (ordered.shown first (List.mem_of_getElem? one)).1
  have secondNode := (ordered.shown second (List.mem_of_getElem? two)).1
  have nodes : first.node = second.node := by rw [← firstNode, ← secondNode, same]
  have growing := ordered.causes position other first second one two less (.inl nodes)
  rw [same] at growing
  exact lt_irrefl _ growing

/-- Stamps increase on every node, from what is received to what is issued on it, and along every
chain of causes; no stamp is issued twice. -/
theorem stamps_respect_causality {events : List ClockEvent}
    (fits : StateMachine.Guarded step Fits fresh events) :
    ∀ (position other : Nat) (first second : Issue),
      (StateMachine.finish step fresh events).issues[position]? = some first →
      (StateMachine.finish step fresh events).issues[other]? = some second →
        (position < other → first.node = second.node → first.stamp < second.stamp) ∧
        (second.received = some position → first.stamp < second.stamp) ∧
        (HappensBefore (StateMachine.finish step fresh events).issues position other →
          first.stamp < second.stamp) ∧
        (position ≠ other → first.stamp ≠ second.stamp) := by
  intro position other first second one two
  have ordered := ordered_finish fits
  refine ⟨fun less same => ?_, fun was => ?_, fun before => ?_, fun different => ?_⟩
  · exact ordered.lt_of_causes ⟨first, second, one, two, .inl ⟨less, same⟩⟩ one two
  · exact ordered.lt_of_causes ⟨first, second, one, two, .inr was⟩ one two
  · exact ordered.lt_of_happensBefore before one two
  · rcases Nat.lt_or_gt_of_ne different with less | more
    · exact ordered.stamp_ne less one two
    · exact (ordered.stamp_ne more two one).symm

/-- A message to a node whose wall clock is behind. -/
def lateNodeRun : List ClockEvent := [.now "a" 10, .receive "b" 0 5, .now "b" 3]

theorem stamps_respect_causality_lateNodeRun :
    ∃ first second, (StateMachine.finish step fresh lateNodeRun).issues[0]? = some first ∧
      (StateMachine.finish step fresh lateNodeRun).issues[2]? = some second ∧
        first.stamp < second.stamp := by
  have fits : StateMachine.Guarded step Fits fresh lateNodeRun := by
    refine ⟨.inl (by decide), fun issue found => ?_, .inr (by decide), trivial⟩
    obtain rfl := Option.some.inj found
    exact .inr ⟨fun _ => by decide, fun _ => by decide⟩
  have message : Causes (StateMachine.finish step fresh lateNodeRun).issues 0 1 :=
    ⟨_, _, rfl, rfl, .inr rfl⟩
  have next : Causes (StateMachine.finish step fresh lateNodeRun).issues 1 2 :=
    ⟨_, _, rfl, rfl, .inl ⟨by decide, rfl⟩⟩
  have before : HappensBefore (StateMachine.finish step fresh lateNodeRun).issues 0 2 :=
    .tail (.single message) next
  exact ⟨_, _, rfl, rfl, (stamps_respect_causality fits 0 2 _ _ rfl rfl).2.2.1 before⟩

end ClockSystem
/-! ## One clock and any peer -/

/-- A stamp that can be deserialized from a peer. -/
structure PeerStamp extends HlcTimestamp where
  fits : counter < counterSize

/-- A clock is asked for the time, or it receives the stamp of a peer; the wall clock may show
anything. -/
inductive PeerEvent where
  | now (wallMs : Nat)
  | receive (remote : PeerStamp) (wallMs : Nat)

namespace HybridClock

/-- The clock after an event, and the stamp that is returned. -/
def respond (clock : HybridClock) : PeerEvent → HybridClock × HlcTimestamp
  | .now wallMs => clock.now wallMs
  | .receive remote wallMs => clock.receive remote.toHlcTimestamp wallMs

/-- The counter to which one is added, if any. -/
def addend (clock : HybridClock) : PeerEvent → Option Nat
  | .now wallMs => if clock.lastWallMs < wallMs then none else some clock.counter
  | .receive remote wallMs =>
      if clock.lastWallMs < wallMs ∧ remote.wallMs < wallMs then none
      else if clock.lastWallMs < remote.wallMs then some remote.counter
      else if remote.wallMs < clock.lastWallMs then some clock.counter
      else some (max clock.counter remote.counter)

/-- The addition does not overflow, and the stamp that is returned comes after the one that the
clock has shown and after the remote one. -/
structure Advances (clock : HybridClock) (event : PeerEvent) : Prop where
  exact : ∀ counter ∈ clock.addend event, counter + 1 < counterSize
  own : clock.stamp < (clock.respond event).2
  remote : ∀ remote wallMs, event = .receive remote wallMs →
    remote.toHlcTimestamp < (clock.respond event).2

/-- The counters that count are not full: the one of the clock, unless the wall clock or the remote
one is ahead of it, and the remote one, unless the wall clock or the clock is ahead of it. -/
def NotFull (clock : HybridClock) : PeerEvent → Prop
  | .now wallMs => clock.NowFits wallMs
  | .receive remote wallMs => clock.ReceiveFits remote.toHlcTimestamp wallMs

theorem notFull_of_exact {clock : HybridClock} {event : PeerEvent}
    (exact : ∀ counter ∈ clock.addend event, counter + 1 < counterSize) :
    clock.NotFull event := by
  cases event with
  | now wallMs =>
    by_cases ahead : clock.lastWallMs < wallMs
    · exact .inl ahead
    · exact .inr (exact clock.counter (if_neg ahead))
  | receive remote wallMs =>
    by_cases ahead : clock.lastWallMs < wallMs ∧ remote.wallMs < wallMs
    · exact .inl ahead
    · have fits : ∀ counter, (if clock.lastWallMs < remote.wallMs then some remote.counter
          else if remote.wallMs < clock.lastWallMs then some clock.counter
          else some (max clock.counter remote.counter)) = some counter →
            counter + 1 < counterSize := by
        intro counter same
        exact exact counter ((if_neg ahead).trans same)
      refine .inr ⟨fun behind => ?_, fun behind => ?_⟩
      · rcases behind.lt_or_eq with less | same
        · exact fits _ (if_pos less)
        · have most := fits _ ((if_neg same.not_lt).trans (if_neg same.not_gt))
          omega
      · rcases behind.lt_or_eq with less | same
        · exact fits _ ((if_neg less.le.not_gt).trans (if_pos less))
        · have most := fits _ ((if_neg same.not_gt).trans (if_neg same.not_lt))
          omega

theorem exact_of_notFull {clock : HybridClock} {event : PeerEvent} (fits : clock.NotFull event) :
    ∀ counter ∈ clock.addend event, counter + 1 < counterSize := by
  intro counter same
  cases event with
  | now wallMs =>
    simp only [addend, Option.mem_def, Option.ite_none_left_eq_some, Option.some.injEq] at same
    obtain ⟨behind, rfl⟩ := same
    exact fits.resolve_left behind
  | receive remote wallMs =>
    rw [addend] at same
    split at same
    · exact nomatch same
    · rename_i notAhead
      obtain ⟨remoteFits, localFits⟩ := fits.resolve_left notAhead
      split at same
      · rename_i less
        obtain rfl := Option.some.inj same
        exact remoteFits less.le
      · split at same
        · rename_i less
          obtain rfl := Option.some.inj same
          exact localFits less.le
        · rename_i notLess notMore
          obtain rfl := Option.some.inj same
          have one := remoteFits (not_lt.mp notMore)
          have two := localFits (not_lt.mp notLess)
          change max clock.counter remote.counter + 1 < counterSize
          omega

theorem advances_iff_notFull (clock : HybridClock) (event : PeerEvent) :
    clock.Advances event ↔ clock.NotFull event := by
  constructor
  · exact fun advances => notFull_of_exact advances.exact
  · intro fits
    have exact := exact_of_notFull fits
    cases event with
    | now wallMs =>
      obtain ⟨_, _, later⟩ := now_spec fits
      exact ⟨exact, HlcTimestamp.lt_of_reading_lt later, nofun⟩
    | receive remote wallMs =>
      obtain ⟨_, _, later, more⟩ := receive_spec fits
      refine ⟨exact, HlcTimestamp.lt_of_reading_lt later, fun other wall same => ?_⟩
      obtain ⟨rfl, -⟩ := PeerEvent.receive.inj same
      exact HlcTimestamp.lt_of_reading_lt more

/-- In every run of a clock, no counter overflows and every stamp comes after the one before it and
after the remote one, exactly if no full counter counts in any step. -/
theorem run_advances_iff (clock : HybridClock) (events : List PeerEvent) :
    StateMachine.Guarded (fun clock event => (clock.respond event).1) Advances clock events ↔
      StateMachine.Guarded (fun clock event => (clock.respond event).1) NotFull clock events := by
  induction events generalizing clock with
  | nil => exact Iff.rfl
  | cons event events ih => exact and_congr (advances_iff_notFull clock event) (ih _)

/-- A stamp with a full counter from a peer that is ahead is answered with an earlier one. -/
theorem full_counter_received :
    let remote : PeerStamp := ⟨⟨10, 2 ^ 32 - 1, "a"⟩, by decide⟩
    ¬(new "b").Advances (.receive remote 5) ∧
      ¬remote.toHlcTimestamp < ((new "b").respond (.receive remote 5)).2 := by
  have behind : ¬(⟨10, 2 ^ 32 - 1, "a"⟩ : HlcTimestamp) <
      ((new "b").receive ⟨10, 2 ^ 32 - 1, "a"⟩ 5).2 := by
    decide +kernel
  exact ⟨fun advances => behind (advances.remote _ 5 rfl), behind⟩

end HybridClock
end Sync
end Mnemo
