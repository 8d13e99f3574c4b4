import Mathlib
import Mnemo.Lib.AssocMap

/-!
# The observed-remove set of the sync module

Elements map to the tags that added them; every node numbers its tags with its own counter.
Removing an element drops its entry, and merging unites the tags of both sides.
-/

namespace Mnemo
namespace Sync

/-- Identifier of a node in a multi-node deployment. -/
abbrev NodeId := String

/-- Unique tag of an add operation. -/
structure AddTag where
  nodeId : NodeId
  seq : Nat
  deriving DecidableEq, Repr

/-- Observed-remove set. -/
structure ORSet (Element : Type) where
  /-- Element to the set of tags that added it. -/
  elements : AList fun _ : Element => Finset AddTag
  /-- Sequence counter of each node. -/
  seqCounters : AList fun _ : NodeId => Nat

namespace ORSet

variable {Element : Type} [DecidableEq Element]

/-- The set of a new replica. -/
def new : ORSet Element := { elements := ∅, seqCounters := ∅ }

/-- Advance the counter of a node and return the tag it now stands for. -/
def nextTag (set : ORSet Element) (nodeId : NodeId) : ORSet Element × AddTag :=
  let seq := AssocMap.valueD 0 set.seqCounters nodeId + 1
  ({ set with seqCounters := set.seqCounters.insert nodeId seq }, { nodeId, seq })

/-- Add an element under a new tag of the node, and return the tag. -/
def add (set : ORSet Element) (element : Element) (nodeId : NodeId) : ORSet Element × AddTag :=
  let (tagged, tag) := set.nextTag nodeId
  let tags := AssocMap.valueD ∅ tagged.elements element
  ({ tagged with elements := tagged.elements.insert element (insert tag tags) }, tag)

/-- Remove an element by dropping all its observed tags; tells whether it had an entry. -/
def remove (set : ORSet Element) (element : Element) : ORSet Element × Bool :=
  ({ set with elements := set.elements.erase element }, (set.elements.lookup element).isSome)

/-- Whether an element has a tag. -/
def contains (set : ORSet Element) (element : Element) : Bool :=
  match set.elements.lookup element with
  | some tags => decide (tags ≠ ∅)
  | none => false

/-- The elements currently in the set. -/
def toList (set : ORSet Element) : List Element :=
  (set.elements.entries.filter fun entry => decide (entry.2 ≠ ∅)).map Sigma.fst

/-- Number of elements in the set. -/
def len (set : ORSet Element) : Nat :=
  (set.elements.entries.filter fun entry => decide (entry.2 ≠ ∅)).length

/-- Unite all pairs of element and tag, and take the larger counter of every node. -/
def merge (set other : ORSet Element) : ORSet Element :=
  { elements := AssocMap.mergeWith (· ∪ ·) ∅ set.elements other.elements
    seqCounters := AssocMap.mergeWith max 0 set.seqCounters other.seqCounters }

/-- The tags held for an element. -/
def tags (set : ORSet Element) (element : Element) : Finset AddTag :=
  AssocMap.valueD ∅ set.elements element

/-- The last sequence number seen of a node. -/
def counter (set : ORSet Element) (nodeId : NodeId) : Nat :=
  AssocMap.valueD 0 set.seqCounters nodeId

theorem contains_iff (set : ORSet Element) (element : Element) :
    set.contains element = true ↔ (set.tags element).Nonempty := by
  unfold contains tags AssocMap.valueD
  cases set.elements.lookup element with
  | none => simp
  | some tags => simp [Finset.nonempty_iff_ne_empty]

@[simp]
theorem tags_new (element : Element) : (new : ORSet Element).tags element = ∅ := by
  simp [new, tags]

omit [DecidableEq Element] in
@[simp]
theorem counter_new (nodeId : NodeId) : (new : ORSet Element).counter nodeId = 0 := by
  simp [new, counter]

@[simp]
theorem add_tag (set : ORSet Element) (element : Element) (nodeId : NodeId) :
    (set.add element nodeId).2 = { nodeId, seq := set.counter nodeId + 1 } := rfl

@[simp]
theorem tags_add (set : ORSet Element) (element other : Element) (nodeId : NodeId) :
    (set.add element nodeId).1.tags other =
      if other = element then insert (set.add element nodeId).2 (set.tags other)
      else set.tags other := by
  by_cases same : other = element
  · subst other
    simp [add, nextTag, tags, AssocMap.valueD_insert]
  · simp [add, nextTag, tags, AssocMap.valueD_insert, same]

@[simp]
theorem counter_add (set : ORSet Element) (element : Element) (nodeId other : NodeId) :
    (set.add element nodeId).1.counter other =
      if other = nodeId then set.counter nodeId + 1 else set.counter other := by
  simp [add, nextTag, counter, AssocMap.valueD_insert]

@[simp]
theorem tags_remove (set : ORSet Element) (element other : Element) :
    (set.remove element).1.tags other = if other = element then ∅ else set.tags other := by
  simp [remove, tags, AssocMap.valueD_erase]

@[simp]
theorem counter_remove (set : ORSet Element) (element : Element) (nodeId : NodeId) :
    (set.remove element).1.counter nodeId = set.counter nodeId := rfl

@[simp]
theorem tags_merge (set other : ORSet Element) (element : Element) :
    (set.merge other).tags element = set.tags element ∪ other.tags element :=
  AssocMap.valueD_mergeWith _ _ Finset.union_empty _ _ _

@[simp]
theorem counter_merge (set other : ORSet Element) (nodeId : NodeId) :
    (set.merge other).counter nodeId = max (set.counter nodeId) (other.counter nodeId) :=
  AssocMap.valueD_mergeWith _ _ Nat.max_zero _ _ _

end ORSet
end Sync
end Mnemo
