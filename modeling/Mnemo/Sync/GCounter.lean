import Mathlib
import Mnemo.Lib.AssocMap
import Mnemo.Lib.Gossip
import Mnemo.Sync.ORSet

/-!
# The grow-only counter

Each node increments its own slot, the count is the sum of all slots, and merging takes the larger
value of every slot.  However late and however often states are merged, the count of a replica grows
up to what was issued.
-/

namespace Mnemo
namespace Sync

/-- Counts have 64 bits. -/
def countSize : Nat := 2 ^ 64

/-- Grow-only counter. -/
structure GCounter where
  counts : AList fun _ : NodeId => Nat

namespace GCounter

def new : GCounter := { counts := ∅ }

/-- Increment by an arbitrary amount. -/
def incrementBy (counter : GCounter) (nodeId : NodeId) (amount : Nat) : GCounter :=
  { counts := counter.counts.insert nodeId
      ((AssocMap.valueD 0 counter.counts nodeId + amount) % countSize) }

/-- Increment by one. -/
def increment (counter : GCounter) (nodeId : NodeId) : GCounter := counter.incrementBy nodeId 1

/-- The sum of all slots. -/
def total (counter : GCounter) : Nat := (counter.counts.entries.map Sigma.snd).sum

/-- Total count across all nodes. -/
def value (counter : GCounter) : Nat := counter.total % countSize

/-- The count of a node. -/
def nodeValue (counter : GCounter) (nodeId : NodeId) : Nat :=
  AssocMap.valueD 0 counter.counts nodeId

/-- Merge with another counter, slot by slot. -/
def merge (counter other : GCounter) : GCounter :=
  { counts := AssocMap.mergeWith max 0 counter.counts other.counts }

@[simp]
theorem nodeValue_new (nodeId : NodeId) : new.nodeValue nodeId = 0 := by
  simp [new, nodeValue]

theorem nodeValue_incrementBy (counter : GCounter) (nodeId other : NodeId) (amount : Nat) :
    (counter.incrementBy nodeId amount).nodeValue other =
      if other = nodeId then (counter.nodeValue nodeId + amount) % countSize
      else counter.nodeValue other := by
  simp [incrementBy, nodeValue, AssocMap.valueD_insert]

@[simp]
theorem nodeValue_merge (counter other : GCounter) (nodeId : NodeId) :
    (counter.merge other).nodeValue nodeId =
      max (counter.nodeValue nodeId) (other.nodeValue nodeId) :=
  AssocMap.valueD_mergeWith _ _ Nat.max_zero _ _ _

/-- The nodes that have a slot. -/
def nodes (counter : GCounter) : Finset NodeId := counter.counts.keys.toFinset

theorem total_eq_sum (counter : GCounter) {nodes : Finset NodeId}
    (covers : counter.nodes ⊆ nodes) : counter.total = ∑ node ∈ nodes, counter.nodeValue node :=
  AssocMap.sum_values covers

theorem value_le_value {counter other : GCounter} (fits : counter.total < countSize)
    (otherFits : other.total < countSize)
    (slots : ∀ node, counter.nodeValue node ≤ other.nodeValue node) :
    counter.value ≤ other.value := by
  unfold value
  rw [Nat.mod_eq_of_lt fits, Nat.mod_eq_of_lt otherFits,
    counter.total_eq_sum Finset.subset_union_left, other.total_eq_sum Finset.subset_union_right]
  exact Finset.sum_le_sum fun node _ => slots node

end GCounter

/-! ## Runs -/

/-- The increments that were issued, with their nodes, oldest first. -/
abbrev Increments := List (NodeId × Nat)

namespace Increments

/-- The amounts that a node has issued. -/
def ofNode (increments : Increments) (node : NodeId) : List Nat :=
  (increments.filter fun increment => increment.1 = node).map Prod.snd

/-- The sum of all increments. -/
def issued (increments : Increments) : Nat := (increments.map Prod.snd).sum

@[simp]
theorem ofNode_append (increments more : Increments) (node : NodeId) :
    ofNode (increments ++ more) node = ofNode increments node ++ ofNode more node := by
  simp [ofNode]

theorem ofNode_singleton (node other : NodeId) (amount : Nat) :
    ofNode [(node, amount)] other = if other = node then [amount] else [] := by
  by_cases same : other = node
  · simp [ofNode, same]
  · simp [ofNode, same, Ne.symm same]

theorem sum_ofNode (increments : Increments) (nodes : Finset NodeId) :
    ∑ node ∈ nodes, (ofNode increments node).sum =
      issued (increments.filter fun increment => increment.1 ∈ nodes) := by
  induction increments with
  | nil => simp [ofNode, issued]
  | cons increment increments ih =>
    obtain ⟨issuer, amount⟩ := increment
    have split (node : NodeId) : (ofNode ((issuer, amount) :: increments) node).sum =
        (if node = issuer then amount else 0) + (ofNode increments node).sum := by
      have parts := ofNode_append [(issuer, amount)] increments node
      rw [List.singleton_append] at parts
      rw [parts, ofNode_singleton, List.sum_append]
      by_cases same : node = issuer <;> simp [same]
    simp only [split, Finset.sum_add_distrib, ih, Finset.sum_ite_eq']
    by_cases member : issuer ∈ nodes <;> simp [member, issued]

theorem sum_ofNode_le (increments : Increments) (nodes : Finset NodeId) :
    ∑ node ∈ nodes, (ofNode increments node).sum ≤ issued increments := by
  rw [sum_ofNode]
  apply List.Sublist.sum_le_sum
  · exact List.Sublist.map _ List.filter_sublist
  · simp

theorem sum_ofNode_eq {increments : Increments} {nodes : Finset NodeId}
    (covers : ∀ increment ∈ increments, increment.1 ∈ nodes) :
    ∑ node ∈ nodes, (ofNode increments node).sum = issued increments := by
  rw [sum_ofNode, List.filter_eq_self.mpr]
  simpa using covers

end Increments

/-- A replica, and how many increments of every node it has received. -/
structure CounterReplica where
  counter : GCounter
  seen : NodeId → Nat

/-- A node increments its own slot; merging takes over what the other side has received. -/
def counterRules : Gossip.Rules NodeId CounterReplica Increments Nat where
  apply increments node amount replica :=
    { counter := replica.counter.incrementBy node amount
      seen := Function.update replica.seen node (Increments.ofNode increments node).length.succ }
  note increments node amount := increments ++ [(node, amount)]
  merge replica received :=
    { counter := replica.counter.merge received.counter
      seen := fun node => max (replica.seen node) (received.seen node) }

/-- Replicas that gossip. -/
abbrev Counters := Gossip NodeId CounterReplica Increments

namespace Counters

/-- Nothing was issued. -/
def initial : Counters :=
  { replicas := fun _ => { counter := .new, seen := fun _ => 0 }, sent := [], ledger := [] }

/-- The slot of the node can take the amount. -/
def SlotFits (_ : Increments) (node : NodeId) (amount : Nat) (replica : CounterReplica) : Prop :=
  replica.counter.nodeValue node + amount < countSize

/-- No slot overflows, and neither does the sum of the slots of a replica. -/
def NoOverflow (counters : Counters) (event : Gossip.Event NodeId Nat) : Prop :=
  counters.Fits SlotFits event ∧
    ∀ node, ((counters.step counterRules event).replicas node).counter.total < countSize

/-- Each slot holds the increments that were received. -/
def HoldsReceived (increments : Increments) (replica : CounterReplica) : Prop :=
  ∀ node, replica.seen node ≤ (Increments.ofNode increments node).length ∧
    replica.counter.nodeValue node =
      ((Increments.ofNode increments node).take (replica.seen node)).sum

/-- A node has received its own increments. -/
def KnowsOwn (increments : Increments) (node : NodeId) (replica : CounterReplica) : Prop :=
  replica.seen node = (Increments.ofNode increments node).length

/-- A replica counts at most what was issued, and exactly that once it has received the latest
increments of all nodes. -/
structure CountsIssued (counters : Counters) : Prop where
  bounded : ∀ node, (counters.replicas node).counter.value ≤ Increments.issued counters.ledger
  exact : ∀ node, (∀ other, (counters.replicas node).seen other =
    (Increments.ofNode counters.ledger other).length) →
      (counters.replicas node).counter.value = Increments.issued counters.ledger

theorem ofNode_note (increments : Increments) (node other : NodeId) (amount : Nat) :
    Increments.ofNode (increments ++ [(node, amount)]) other =
      Increments.ofNode increments other ++ if other = node then [amount] else [] := by
  rw [Increments.ofNode_append, Increments.ofNode_singleton]

theorem sum_take_mono (amounts : List Nat) {fewer more : Nat} (le : fewer ≤ more) :
    (amounts.take fewer).sum ≤ (amounts.take more).sum := by
  apply List.Sublist.sum_le_sum
  · exact (List.take_sublist_take_left le)
  · simp

/-- Increments and merges keep what slots hold. -/
theorem keeps : Gossip.Keeps counterRules HoldsReceived KnowsOwn SlotFits where
  update increments node amount replica holds knows fits := by
    constructor
    · intro other
      obtain ⟨behind, sum⟩ := holds other
      unfold counterRules
      dsimp only
      rw [ofNode_note, GCounter.nodeValue_incrementBy]
      by_cases same : other = node
      · subst same
        rw [if_pos rfl, if_pos rfl, Function.update_self, Nat.mod_eq_of_lt fits, sum, knows]
        simp
      · rw [if_neg same, if_neg same, Function.update_of_ne same, List.append_nil]
        exact ⟨behind, sum⟩
    · unfold KnowsOwn counterRules
      dsimp only
      rw [ofNode_note, if_pos rfl, Function.update_self]
      simp
  note increments node amount replica holds := by
    intro other
    obtain ⟨behind, sum⟩ := holds other
    unfold counterRules
    dsimp only
    rw [Increments.ofNode_append, List.take_append_of_le_length behind, List.length_append]
    exact ⟨by omega, sum⟩
  others increments node other amount replica different knows := by
    unfold KnowsOwn counterRules
    dsimp only
    rw [ofNode_note, if_neg different, List.append_nil]
    exact knows
  merge increments node replica received holds held knows := by
    constructor
    · intro other
      obtain ⟨behind, sum⟩ := holds other
      obtain ⟨receivedBehind, receivedSum⟩ := held other
      unfold counterRules
      dsimp only
      rw [GCounter.nodeValue_merge, sum, receivedSum]
      refine ⟨max_le behind receivedBehind, ?_⟩
      rcases le_total (replica.seen other) (received.seen other) with le | le
      · rw [max_eq_right le, max_eq_right (sum_take_mono _ le)]
      · rw [max_eq_left le, max_eq_left (sum_take_mono _ le)]
    · unfold KnowsOwn counterRules at *
      dsimp only
      rw [knows]
      exact max_eq_left (held node).1

/-- Replicas agree with the increments, and no sum overflows. -/
structure Sound (counters : Counters) : Prop where
  agrees : Gossip.Agrees HoldsReceived KnowsOwn counters
  fits : ∀ node, (counters.replicas node).counter.total < countSize

theorem sound_initial : Sound initial := by
  refine ⟨⟨fun node other => ?_, (fun state impossible => nomatch impossible), fun node => rfl⟩,
    fun node => ?_⟩
  · exact ⟨Nat.zero_le _, GCounter.nodeValue_new other⟩
  · change 0 < countSize
    decide

theorem Sound.step {counters : Counters} (sound : Sound counters)
    {event : Gossip.Event NodeId Nat} (fits : NoOverflow counters event) :
    Sound (counters.step counterRules event) :=
  ⟨sound.agrees.step keeps fits.1, fits.2⟩

theorem nodeValue_step_le {counters : Counters} {event : Gossip.Event NodeId Nat}
    (fits : counters.Fits SlotFits event) (node other : NodeId) :
    (counters.replicas node).counter.nodeValue other ≤
      ((counters.step counterRules event).replicas node).counter.nodeValue other := by
  cases event with
  | update issuer amount =>
    unfold Gossip.step
    dsimp only
    by_cases same : node = issuer
    · subst same
      rw [Function.update_self]
      unfold counterRules
      dsimp only
      rw [GCounter.nodeValue_incrementBy, Nat.mod_eq_of_lt fits]
      split
      · rename_i own
        rw [own]
        exact Nat.le_add_right _ _
      · exact le_rfl
    · rw [Function.update_of_ne same]
  | send sender => exact le_rfl
  | merge receiver position =>
    unfold Gossip.step
    dsimp only
    split
    · dsimp only
      by_cases same : node = receiver
      · subst same
        rw [Function.update_self]
        unfold counterRules
        dsimp only
        rw [GCounter.nodeValue_merge]
        exact le_max_left _ _
      · rw [Function.update_of_ne same]
    · exact le_rfl

/-- The values of one state are at most those of another. -/
def Grows (counters later : Counters) : Prop :=
  ∀ node, (counters.replicas node).counter.value ≤ (later.replicas node).counter.value

theorem total_le_issued {counters : Counters}
    (agrees : Gossip.Agrees HoldsReceived KnowsOwn counters) (node : NodeId) :
    (counters.replicas node).counter.total ≤ Increments.issued counters.ledger := by
  have slot (other : NodeId) : (counters.replicas node).counter.nodeValue other ≤
      (Increments.ofNode counters.ledger other).sum := by
    obtain ⟨behind, sum⟩ := agrees.replicas node other
    have most := sum_take_mono (Increments.ofNode counters.ledger other) behind
    rw [List.take_length] at most
    exact sum.trans_le most
  calc (counters.replicas node).counter.total
      = ∑ other ∈ (counters.replicas node).counter.nodes,
          (counters.replicas node).counter.nodeValue other :=
        GCounter.total_eq_sum _ (Finset.Subset.refl _)
    _ ≤ ∑ other ∈ (counters.replicas node).counter.nodes,
          (Increments.ofNode counters.ledger other).sum :=
        Finset.sum_le_sum fun other _ => slot other
    _ ≤ Increments.issued counters.ledger := Increments.sum_ofNode_le _ _

theorem Sound.countsIssued {counters : Counters} (sound : Sound counters) :
    CountsIssued counters := by
  constructor
  · intro node
    rw [GCounter.value, Nat.mod_eq_of_lt (sound.fits node)]
    exact total_le_issued sound.agrees node
  · intro node latest
    let issuers : Finset NodeId := (counters.ledger.map Prod.fst).toFinset
    have covers : ∀ increment ∈ counters.ledger,
        increment.1 ∈ (counters.replicas node).counter.nodes ∪ issuers := by
      intro increment member
      apply Finset.mem_union_right
      exact List.mem_toFinset.mpr (List.mem_map_of_mem member)
    rw [GCounter.value, Nat.mod_eq_of_lt (sound.fits node),
      GCounter.total_eq_sum _ Finset.subset_union_left, ← Increments.sum_ofNode_eq covers]
    apply Finset.sum_congr rfl
    intro other _
    rw [(sound.agrees.replicas node other).2, latest other, List.take_length]

/-- However increments and merges follow each other, without overflow every replica counts part of
what was issued, all of it once it has received the latest increments of all nodes, and never less
than before. -/
theorem counters_count_issued {events : List (Gossip.Event NodeId Nat)}
    (fits : StateMachine.Guarded (Gossip.step counterRules) NoOverflow initial events) :
    StateMachine.Always (Gossip.step counterRules) CountsIssued initial events ∧
      ∀ first second third, events = first ++ second ++ third →
        Grows (StateMachine.finish (Gossip.step counterRules) initial first)
          (StateMachine.finish (Gossip.step counterRules) initial (first ++ second)) := by
  have preserved (counters : Counters) (event : Gossip.Event NodeId Nat)
      (sound : Sound counters) (fit : NoOverflow counters event) :
      Sound (counters.step counterRules event) := sound.step fit
  constructor
  · apply (fits.always preserved sound_initial).mono
    exact fun counters sound => sound.countsIssued
  · rintro first second third rfl
    obtain ⟨both, _⟩ := StateMachine.guarded_append.mp fits
    obtain ⟨one, two⟩ := StateMachine.guarded_append.mp both
    have between := (one.always preserved sound_initial).finish
    rw [StateMachine.finish_append]
    apply two.related _ _ preserved _ between
    · exact fun counters node => le_rfl
    · exact fun _ _ _ one two node => (one node).trans (two node)
    · intro counters event sound fit node
      exact GCounter.value_le_value (sound.fits node) (fit.2 node)
        (nodeValue_step_le fit.1 node)

theorem issued_append (increments more : Increments) :
    Increments.issued (increments ++ more) =
      Increments.issued increments + Increments.issued more := by
  simp [Increments.issued]

theorem issued_step_le (counters : Counters) (event : Gossip.Event NodeId Nat) :
    Increments.issued counters.ledger ≤
      Increments.issued (counters.step counterRules event).ledger := by
  cases event with
  | update node amount =>
    have more := issued_append counters.ledger [(node, amount)]
    exact more ▸ Nat.le_add_right _ _
  | send node => exact le_rfl
  | merge node position =>
    unfold Gossip.step
    dsimp only
    split <;> exact le_rfl

theorem issued_finish_le (counters : Counters) (events : List (Gossip.Event NodeId Nat)) :
    Increments.issued counters.ledger ≤
      Increments.issued (StateMachine.finish (Gossip.step counterRules) counters events).ledger := by
  induction events generalizing counters with
  | nil => exact le_rfl
  | cons event events ih =>
    rw [StateMachine.finish_cons]
    exact (issued_step_le counters event).trans (ih _)

theorem noOverflow_of_issued {counters : Counters}
    (agrees : Gossip.Agrees HoldsReceived KnowsOwn counters) {event : Gossip.Event NodeId Nat}
    (fits : Increments.issued (counters.step counterRules event).ledger < countSize) :
    NoOverflow counters event := by
  have slots : counters.Fits SlotFits event := by
    cases event with
    | update node amount =>
      have all := issued_append counters.ledger [(node, amount)]
      have held := Increments.sum_ofNode_le counters.ledger {node}
      rw [Finset.sum_singleton] at held
      have sum := (agrees.replicas node node).2
      rw [agrees.own node, List.take_length] at sum
      have amounts : Increments.issued [(node, amount)] = amount := by simp [Increments.issued]
      change Increments.issued (counters.ledger ++ [(node, amount)]) < countSize at fits
      change (counters.replicas node).counter.nodeValue node + amount < countSize
      omega
    | send node => trivial
    | merge node position => trivial
  exact ⟨slots, fun node => (total_le_issued (agrees.step keeps slots) node).trans_lt fits⟩

theorem guarded_of_issued {counters : Counters}
    (agrees : Gossip.Agrees HoldsReceived KnowsOwn counters)
    {events : List (Gossip.Event NodeId Nat)}
    (fits : Increments.issued
      (StateMachine.finish (Gossip.step counterRules) counters events).ledger < countSize) :
    StateMachine.Guarded (Gossip.step counterRules) NoOverflow counters events := by
  induction events generalizing counters with
  | nil => exact trivial
  | cons event events ih =>
    have now := noOverflow_of_issued agrees ((issued_finish_le _ events).trans_lt fits)
    exact ⟨now, ih (agrees.step keeps now.1) fits⟩

/-- Two nodes count, and one of them merges an old state of the other one twice. -/
def twoNodes : List (Gossip.Event NodeId Nat) :=
  [.update "a" 3, .send "a", .update "a" 4, .update "b" 5, .merge "b" 0, .merge "b" 0]

theorem counters_count_issued_twoNodes :
    StateMachine.Always (Gossip.step counterRules) CountsIssued initial twoNodes ∧
      ∀ first second third, twoNodes = first ++ second ++ third →
        Grows (StateMachine.finish (Gossip.step counterRules) initial first)
          (StateMachine.finish (Gossip.step counterRules) initial (first ++ second)) := by
  apply counters_count_issued
  apply guarded_of_issued sound_initial.agrees
  decide

end Counters
end Sync
end Mnemo
