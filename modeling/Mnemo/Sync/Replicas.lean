import Mathlib
import Mnemo.Lib.ObservedRemove
import Mnemo.Lib.StateMachine
import Mnemo.Sync.ORSet

/-!
# Replicas of an observed-remove set

Every node owns a replica and adds under its own node id only; replicas exchange their states by
merging.  Beside its set a replica carries the history of adds and removes that it depends on.
Merging keeps no record of removed tags, so a run obeys the observed-remove law exactly as long
as no merge meets an element all of whose tags were removed on one of the two sides.
-/

namespace Mnemo
namespace Sync

open ObservedRemove (History)

variable {Element : Type} [DecidableEq Element]

/-- The set of a node, with the adds and removes in its past. -/
structure Replica (Element : Type) where
  set : ORSet Element
  history : History Element AddTag

namespace Replica

def new : Replica Element := { set := .new, history := .empty }

def add (replica : Replica Element) (element : Element) (nodeId : NodeId) : Replica Element :=
  let (set, tag) := replica.set.add element nodeId
  { set, history := replica.history.add element tag }

def remove (replica : Replica Element) (element : Element) : Replica Element :=
  { set := (replica.set.remove element).1
    history := replica.history.remove element (replica.set.tags element) }

def merge (replica other : Replica Element) : Replica Element :=
  { set := replica.set.merge other.set
    history := replica.history.join other.history }

/-- The tags held for each element. -/
def held (replica : Replica Element) (element : Element) : Set AddTag :=
  replica.set.tags element

theorem held_new : (new : Replica Element).held = fun _ => ∅ := by
  funext element
  simp [held, new]

theorem held_add (replica : Replica Element) (element : Element) (nodeId : NodeId) :
    (replica.add element nodeId).held = fun other =>
      if other = element then insert (replica.set.add element nodeId).2 (replica.held other)
      else replica.held other := by
  funext other
  by_cases same : other = element <;> simp [held, add, same]

theorem held_remove (replica : Replica Element) (element : Element) :
    (replica.remove element).held = fun other =>
      if other = element then ∅ else replica.held other := by
  funext other
  by_cases same : other = element <;> simp [held, remove, same]

theorem held_merge (replica other : Replica Element) :
    (replica.merge other).held = fun element => replica.held element ∪ other.held element := by
  funext element
  simp [held, merge]

end Replica

/-- The replicas of all nodes. -/
abbrev Replicas (Element : Type) := NodeId → Replica Element

/-- What happens at a node: a local change, or the arrival of another node's state. -/
inductive Operation (Element : Type) where
  | add (node : NodeId) (element : Element)
  | remove (node : NodeId) (element : Element)
  | merge (node source : NodeId)
  deriving Repr

namespace Replicas

/-- Every node starts with an empty set. -/
def initial : Replicas Element := fun _ => .new

/-- Perform one operation; a node adds under its own id. -/
def step (replicas : Replicas Element) : Operation Element → Replicas Element
  | .add node element => Function.update replicas node ((replicas node).add element node)
  | .remove node element => Function.update replicas node ((replicas node).remove element)
  | .merge node source =>
      Function.update replicas node ((replicas node).merge (replicas source))

/-- Each replica contains an element exactly if one of its adds was not removed in the past. -/
def ObservedRemoveLaw (replicas : Replicas Element) : Prop :=
  ∀ node element,
    (replicas node).set.contains element = true ↔ (replicas node).history.Present element

/-- A merge is safe when each element which either side holds has a held tag that no remove in the
past of either side deleted.  Local operations always are. -/
def MergeSafe (replicas : Replicas Element) : Operation Element → Prop
  | .merge node source =>
      ObservedRemove.KeepsLive (replicas node).held (replicas source).held
        (replicas node).history (replicas source).history
  | _ => True

/-- Held tags follow the histories, and no tag runs ahead of the counter of its own node. -/
structure Consistent (replicas : Replicas Element) : Prop where
  tracks : ∀ node, ObservedRemove.Tracks (replicas node).held (replicas node).history
  added_le : ∀ node element tag, (element, tag) ∈ (replicas node).history.added →
    tag.seq ≤ (replicas tag.nodeId).set.counter tag.nodeId
  removed_added : ∀ node, (replicas node).history.removed ⊆ (replicas node).history.added

theorem law_iff_lawful (replicas : Replicas Element) :
    replicas.ObservedRemoveLaw ↔
      ∀ node, ObservedRemove.Lawful (replicas node).held (replicas node).history := by
  simp only [ObservedRemoveLaw, ObservedRemove.Lawful, ORSet.contains_iff]
  rfl

theorem consistent_initial : (initial : Replicas Element).Consistent where
  tracks node := by
    change ObservedRemove.Tracks Replica.new.held History.empty
    rw [Replica.held_new]
    exact .empty
  added_le node element tag added := absurd added (Set.notMem_empty _)
  removed_added node := by simp [initial, Replica.new, History.empty]

theorem law_initial : (initial : Replicas Element).ObservedRemoveLaw := by
  rw [law_iff_lawful]
  intro node
  change ObservedRemove.Lawful Replica.new.held History.empty
  rw [Replica.held_new]
  exact .empty

theorem Consistent.next_tag_not_removed {replicas : Replicas Element}
    (consistent : replicas.Consistent) (node owner : NodeId) (element : Element) :
    (element, ((replicas owner).set.add element owner).2) ∉
      (replicas node).history.removed := by
  intro removed
  have bounded := consistent.added_le node element _ (consistent.removed_added node removed)
  rw [ORSet.add_tag] at bounded
  exact Nat.not_succ_le_self _ bounded

private theorem consistent_update {replicas : Replicas Element}
    (consistent : replicas.Consistent) (node : NodeId) (replica : Replica Element)
    (tracks : ObservedRemove.Tracks replica.held replica.history)
    (counter_le : (replicas node).set.counter node ≤ replica.set.counter node)
    (added_le : ∀ element tag, (element, tag) ∈ replica.history.added →
      tag.seq ≤ (Function.update replicas node replica tag.nodeId).set.counter tag.nodeId)
    (removed_added : replica.history.removed ⊆ replica.history.added) :
    Consistent (Function.update replicas node replica) where
  tracks other := by
    by_cases same : other = node
    · subst other
      simpa using tracks
    · simpa [same] using consistent.tracks other
  added_le other element tag added := by
    by_cases same : other = node
    · subst other
      exact added_le element tag (by simpa using added)
    · have bounded := consistent.added_le other element tag (by simpa [same] using added)
      by_cases owner : tag.nodeId = node
      · rw [owner] at bounded ⊢
        simpa using bounded.trans counter_le
      · simpa [owner] using bounded
  removed_added other := by
    by_cases same : other = node
    · subst other
      simpa using removed_added
    · simpa [same] using consistent.removed_added other

/-- Every operation keeps the replicas consistent. -/
theorem consistent_step {replicas : Replicas Element} (consistent : replicas.Consistent)
    (operation : Operation Element) : (replicas.step operation).Consistent := by
  cases operation with
  | add node element =>
    refine consistent_update consistent node _ ?_ ?_ ?_ ?_
    · rw [Replica.held_add]
      exact (consistent.tracks node).add element _
    · simp [Replica.add]
    · intro other tag added
      rcases Set.mem_insert_iff.mp added with new | old
      · obtain ⟨rfl, tag_value⟩ := Prod.mk.inj new
        have tag_eq : tag = { nodeId := node, seq := (replicas node).set.counter node + 1 } :=
          tag_value
        rw [tag_eq]
        simp [Replica.add]
      · have bounded := consistent.added_le node other tag old
        by_cases owner : tag.nodeId = node
        · rw [owner] at bounded ⊢
          simpa [Replica.add] using bounded.trans (Nat.le_succ _)
        · simpa [owner] using bounded
    · exact (consistent.removed_added node).trans (Set.subset_insert _ _)
  | remove node element =>
    refine consistent_update consistent node _ ?_ ?_ ?_ ?_
    · rw [Replica.held_remove]
      exact (consistent.tracks node).remove element
    · simp [Replica.remove]
    · intro other tag added
      have bounded := consistent.added_le node other tag added
      by_cases owner : tag.nodeId = node
      · rw [owner] at bounded ⊢
        simpa [Replica.remove] using bounded
      · simpa [owner] using bounded
    · rintro ⟨other, tag⟩ (before | ⟨rfl, deleted⟩)
      · exact consistent.removed_added node before
      · exact (consistent.tracks node).held_added deleted
  | merge node source =>
    refine consistent_update consistent node _ ?_ ?_ ?_ ?_
    · rw [Replica.held_merge]
      exact (consistent.tracks node).join (consistent.tracks source)
    · simp [Replica.merge]
    · intro other tag added
      have bounded : tag.seq ≤ (replicas tag.nodeId).set.counter tag.nodeId := by
        rcases added with here | there
        · exact consistent.added_le node other tag here
        · exact consistent.added_le source other tag there
      by_cases owner : tag.nodeId = node
      · rw [owner] at bounded ⊢
        simpa [Replica.merge] using Or.inl bounded
      · simpa [owner] using bounded
    · exact Set.union_subset_union (consistent.removed_added node)
        (consistent.removed_added source)

private theorem lawful_update {replicas : Replicas Element} (law : replicas.ObservedRemoveLaw)
    (node : NodeId) (replica : Replica Element) :
    ObservedRemoveLaw (Function.update replicas node replica) ↔
      ObservedRemove.Lawful replica.held replica.history := by
  rw [law_iff_lawful] at law ⊢
  constructor
  · intro lawful
    simpa using lawful node
  · intro lawful other
    by_cases same : other = node
    · subst other
      simpa using lawful
    · simpa [same] using law other

theorem law_step_iff {replicas : Replicas Element} (consistent : replicas.Consistent)
    (law : replicas.ObservedRemoveLaw) (operation : Operation Element) :
    (replicas.step operation).ObservedRemoveLaw ↔ replicas.MergeSafe operation := by
  have lawful := (law_iff_lawful replicas).mp law
  cases operation with
  | add node element =>
    refine (lawful_update law node _).trans (iff_of_true ?_ trivial)
    rw [Replica.held_add]
    exact (lawful node).add (consistent.next_tag_not_removed node node element)
  | remove node element =>
    refine (lawful_update law node _).trans (iff_of_true ?_ trivial)
    rw [Replica.held_remove]
    exact (lawful node).remove (consistent.tracks node) element
  | merge node source =>
    refine (lawful_update law node _).trans ?_
    rw [Replica.held_merge]
    exact ObservedRemove.Lawful.join_iff (consistent.tracks node) (consistent.tracks source)

/-- A run obeys the observed-remove law in every state exactly if all of its merges are safe. -/
theorem law_always_iff_mergeSafe (operations : List (Operation Element)) :
    StateMachine.Always step ObservedRemoveLaw initial operations ↔
      StateMachine.Guarded step MergeSafe initial operations := by
  apply StateMachine.always_iff_guarded Consistent
  · intro _ operation consistent _
    exact consistent_step consistent operation
  · intro _ operation consistent law
    exact law_step_iff consistent law operation
  · exact consistent_initial
  · exact law_initial

/-- A removed element comes back when the remover merges a replica that still holds the tag. -/
theorem removed_element_returns :
    ¬ ∀ operations : List (Operation String),
      (StateMachine.finish step initial operations).ObservedRemoveLaw := by
  intro law
  obtain ⟨tag, added, not_removed⟩ :=
    (law [.add "a" "x", .merge "b" "a", .remove "a" "x", .merge "a" "b"] "a" "x").mp (by decide)
  have tag_eq : tag = { nodeId := "a", seq := 1 } := by
    simpa [StateMachine.finish, step, Replica.add, Replica.merge, Replica.remove, History.join,
      History.add, History.remove, initial, Replica.new, History.empty] using added
  refine not_removed (Or.inl (Or.inr ⟨rfl, ?_⟩))
  rw [tag_eq]
  decide

end Replicas
end Sync
end Mnemo
