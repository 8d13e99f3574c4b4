import Mathlib.Logic.Function.Basic
import Mnemo.Lib.StateMachine

/-!
# Replicas that gossip

Every node has a replica of its own, which it updates; it may send the state of its replica, and
merge any state that was ever sent, late, again or not at all.  A ledger beside the replicas notes
the updates.
-/

/-- The replicas of the nodes, the states that were sent, and the ledger. -/
structure Gossip (Node State Ledger : Type) where
  replicas : Node → State
  sent : List State
  ledger : Ledger

namespace Gossip

variable {Node State Ledger Update : Type} [DecidableEq Node]

/-- What a node does: it updates its replica, sends its state, or merges the state that was sent at a
position. -/
inductive Event (Node Update : Type) where
  | update (node : Node) (change : Update)
  | send (node : Node)
  | merge (node : Node) (position : Nat)

/-- How updates and merges change states, and how the ledger notes an update. -/
structure Rules (Node State Ledger Update : Type) where
  apply : Ledger → Node → Update → State → State
  note : Ledger → Node → Update → Ledger
  merge : State → State → State

variable (rules : Rules Node State Ledger Update)

/-- One step of the nodes; a position at which nothing was sent is ignored. -/
def step (gossip : Gossip Node State Ledger) : Event Node Update → Gossip Node State Ledger
  | .update node change =>
      { gossip with
        replicas := Function.update gossip.replicas node
          (rules.apply gossip.ledger node change (gossip.replicas node))
        ledger := rules.note gossip.ledger node change }
  | .send node => { gossip with sent := gossip.sent ++ [gossip.replicas node] }
  | .merge node position =>
      match gossip.sent[position]? with
      | some state =>
          { gossip with
            replicas := Function.update gossip.replicas node
              (rules.merge (gossip.replicas node) state) }
      | none => gossip

variable {rules}

/-- All states agree with the ledger, and every replica knows the updates of its own node. -/
structure Agrees (good : Ledger → State → Prop) (own : Ledger → Node → State → Prop)
    (gossip : Gossip Node State Ledger) : Prop where
  replicas : ∀ node, good gossip.ledger (gossip.replicas node)
  sent : ∀ state ∈ gossip.sent, good gossip.ledger state
  own : ∀ node, own gossip.ledger node (gossip.replicas node)

/-- What updates and merges have to keep of agreement with the ledger. -/
structure Keeps (rules : Rules Node State Ledger Update) (good : Ledger → State → Prop)
    (own : Ledger → Node → State → Prop)
    (fits : Ledger → Node → Update → State → Prop) : Prop where
  /-- An update keeps the replica that it changes. -/
  update : ∀ ledger node change state, good ledger state → own ledger node state →
    fits ledger node change state →
      good (rules.note ledger node change) (rules.apply ledger node change state) ∧
        own (rules.note ledger node change) node (rules.apply ledger node change state)
  /-- An update keeps the other states. -/
  note : ∀ ledger node change state, good ledger state → good (rules.note ledger node change) state
  /-- An update of one node leaves the others with what they know of their own. -/
  others : ∀ ledger node other change state, other ≠ node → own ledger other state →
    own (rules.note ledger node change) other state
  merge : ∀ ledger node state received, good ledger state → good ledger received →
    own ledger node state → good ledger (rules.merge state received) ∧
      own ledger node (rules.merge state received)

/-- An update fits the ledger and the replica that it changes. -/
def Fits (fits : Ledger → Node → Update → State → Prop) (gossip : Gossip Node State Ledger) :
    Event Node Update → Prop
  | .update node change => fits gossip.ledger node change (gossip.replicas node)
  | _ => True

variable {good : Ledger → State → Prop} {own : Ledger → Node → State → Prop}
  {fits : Ledger → Node → Update → State → Prop}

/-- One step keeps the agreement. -/
theorem Agrees.step (keeps : Keeps rules good own fits) {gossip : Gossip Node State Ledger}
    (agrees : Agrees good own gossip) {event : Event Node Update} (fit : gossip.Fits fits event) :
    Agrees good own (gossip.step rules event) := by
  obtain ⟨replicas, sent, owns⟩ := agrees
  cases event with
  | update node change =>
    obtain ⟨changed, owned⟩ :=
      keeps.update _ node change _ (replicas node) (owns node) fit
    refine ⟨?_, fun state member => keeps.note _ _ _ _ (sent state member), ?_⟩
    · apply (Function.forall_update_iff gossip.replicas fun _ => good _).mpr
      exact ⟨changed, fun other _ => keeps.note _ _ _ _ (replicas other)⟩
    · apply (Function.forall_update_iff gossip.replicas (own _)).mpr
      exact ⟨owned, fun other different => keeps.others _ _ _ _ _ different (owns other)⟩
  | send node =>
    refine ⟨replicas, fun state member => ?_, owns⟩
    rcases List.mem_append.mp member with old | new
    · exact sent state old
    · rw [List.mem_singleton.mp new]
      exact replicas node
  | merge node position =>
    unfold Gossip.step
    dsimp only
    split
    · rename_i state found
      obtain ⟨merged, owned⟩ := keeps.merge _ node _ state (replicas node)
        (sent state (List.mem_of_getElem? found)) (owns node)
      refine ⟨?_, sent, ?_⟩
      · apply (Function.forall_update_iff gossip.replicas fun _ => good _).mpr
        exact ⟨merged, fun other _ => replicas other⟩
      · apply (Function.forall_update_iff gossip.replicas (own _)).mpr
        exact ⟨owned, fun other _ => owns other⟩
    · exact ⟨replicas, sent, owns⟩

theorem always_agrees (keeps : Keeps rules good own fits) {gossip : Gossip Node State Ledger}
    (initially : Agrees good own gossip) {events : List (Event Node Update)}
    (fit : StateMachine.Guarded (step rules) (Fits fits) gossip events) :
    StateMachine.Always (step rules) (Agrees good own) gossip events :=
  fit.always (fun _ _ agrees fit => agrees.step keeps fit) initially

end Gossip
