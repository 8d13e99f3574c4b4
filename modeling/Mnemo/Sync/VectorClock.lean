import Mathlib.Data.List.AList
import Mnemo.Lib.AssocMap
import Mnemo.Sync.ORSet

/-!
# The vector clock

A vector clock counts the events of every node, and a node without an entry counts as zero.  The
comparisons of two clocks read the counters, but whether two clocks are equal depends on their
entries.  The comparisons tell two clocks apart exactly when they differ in more than entries of
zero.
-/

namespace Mnemo
namespace Sync

/-- Vector clock for tracking causal relationships between nodes. -/
structure VectorClock where
  /-- Node to logical counter. -/
  entries : AList fun _ : NodeId => Nat

namespace VectorClock

def new : VectorClock := { entries := ∅ }

/-- Get the counter for a node, zero if unseen. -/
def get (clock : VectorClock) (nodeId : NodeId) : Nat := AssocMap.valueD 0 clock.entries nodeId

/-- Increment the counter for a node, which has 64 bits. -/
def increment (clock : VectorClock) (nodeId : NodeId) : VectorClock :=
  { entries := clock.entries.insert nodeId ((clock.get nodeId + 1) % 2 ^ 64) }

/-- Merge with another vector clock, counter by counter. -/
def merge (clock other : VectorClock) : VectorClock :=
  { entries := AssocMap.mergeWith max 0 clock.entries other.entries }

/-- Two clocks are equal when they have the same entries. -/
def sameEntries (clock other : VectorClock) : Bool :=
  decide (clock.entries.entries.Perm other.entries.entries)

/-- Check if this clock is causally before or equal to another. -/
def isBeforeOrEqual (clock other : VectorClock) : Bool :=
  clock.entries.entries.all fun entry => entry.2 ≤ other.get entry.1

/-- Check if this clock is strictly causally before another. -/
def isStrictlyBefore (clock other : VectorClock) : Bool :=
  clock.isBeforeOrEqual other && !clock.sameEntries other

/-- Check if two clocks are concurrent: neither is before the other. -/
def isConcurrentWith (clock other : VectorClock) : Bool :=
  !clock.isBeforeOrEqual other && !other.isBeforeOrEqual clock

/-! ## Counters and entries -/

variable {clock other : VectorClock}

@[simp]
theorem get_new (node : NodeId) : new.get node = 0 := by simp [new, get]

theorem get_increment (clock : VectorClock) (node other : NodeId) :
    (clock.increment node).get other =
      if other = node then (clock.get node + 1) % 2 ^ 64 else clock.get other := by
  simp [increment, get, AssocMap.valueD_insert]

@[simp]
theorem get_merge (clock other : VectorClock) (node : NodeId) :
    (clock.merge other).get node = max (clock.get node) (other.get node) :=
  AssocMap.valueD_mergeWith _ _ Nat.max_zero _ _ _

theorem isBeforeOrEqual_iff : clock.isBeforeOrEqual other = true ↔ clock.get ≤ other.get := by
  rw [isBeforeOrEqual, List.all_eq_true]
  constructor
  · intro bounded node
    cases found : clock.entries.lookup node with
    | none => simp [get, AssocMap.valueD, found]
    | some counter =>
      have member : (⟨node, counter⟩ : Sigma fun _ : NodeId => Nat) ∈ clock.entries.entries :=
        AList.mem_lookup_iff.mp found
      have below := of_decide_eq_true (bounded _ member)
      rwa [get, AssocMap.valueD, found]
  · rintro below ⟨node, counter⟩ member
    have found : clock.entries.lookup node = some counter := AList.mem_lookup_iff.mpr member
    have bound := below node
    rw [get, AssocMap.valueD, found] at bound
    exact decide_eq_true bound

theorem sameEntries_iff :
    clock.sameEntries other = true ↔
      ∀ node, clock.entries.lookup node = other.entries.lookup node := by
  rw [sameEntries, decide_eq_true_iff]
  constructor
  · intro perm node
    exact AList.perm_lookup perm
  · intro same
    refine List.lookup_ext clock.entries.nodupKeys other.entries.nodupKeys fun node counter => ?_
    exact iff_of_eq (congrArg (counter ∈ ·) (same node))

theorem sameEntries_iff_get :
    clock.sameEntries other = true ↔ clock.get = other.get ∧
      ∀ node, node ∈ clock.entries ↔ node ∈ other.entries := by
  rw [sameEntries_iff]
  constructor
  · intro same
    refine ⟨funext fun node => by rw [get, get, AssocMap.valueD, AssocMap.valueD, same],
      fun node => ?_⟩
    rw [← AList.lookup_isSome, ← AList.lookup_isSome, same]
  · rintro ⟨counters, nodes⟩ node
    have value := congrFun counters node
    have present := nodes node
    rw [← AList.lookup_isSome, ← AList.lookup_isSome] at present
    rw [get, get, AssocMap.valueD, AssocMap.valueD] at value
    cases left : clock.entries.lookup node <;> cases right : other.entries.lookup node <;>
      simp_all

/-! ## Causality -/

/-- How two clocks may relate. -/
inductive Causality
  | same
  | before
  | after
  | concurrent

/-- What the comparisons of two clocks say of how they relate; they denote the same history when
every node has the same counter in both. -/
def Relates (clock other : VectorClock) : Causality → Prop
  | .same => ∀ node, clock.get node = other.get node
  | .before => clock.isStrictlyBefore other = true
  | .after => other.isStrictlyBefore clock = true
  | .concurrent => clock.isConcurrentWith other = true

theorem isStrictlyBefore_iff :
    clock.isStrictlyBefore other = true ↔
      clock.get ≤ other.get ∧ ¬ (clock.get = other.get ∧
        ∀ node, node ∈ clock.entries ↔ node ∈ other.entries) := by
  rw [isStrictlyBefore, Bool.and_eq_true, isBeforeOrEqual_iff, ← sameEntries_iff_get,
    Bool.not_eq_true', Bool.not_eq_true]

theorem isConcurrentWith_iff :
    clock.isConcurrentWith other = true ↔ ¬ clock.get ≤ other.get ∧ ¬ other.get ≤ clock.get := by
  rw [isConcurrentWith, Bool.and_eq_true, Bool.not_eq_true', Bool.not_eq_true',
    ← Bool.not_eq_true, ← Bool.not_eq_true, isBeforeOrEqual_iff, isBeforeOrEqual_iff]

theorem existsUnique_relation {α : Type*} [PartialOrder α] (left right : α) :
    ∃! causality : Causality, match causality with
      | .same => left = right
      | .before => left < right
      | .after => right < left
      | .concurrent => ¬ left ≤ right ∧ ¬ right ≤ left := by
  by_cases forth : left ≤ right
  · by_cases back : right ≤ left
    · have same := le_antisymm forth back
      refine ⟨.same, same, fun causality holds => ?_⟩
      cases causality with
      | same => rfl
      | before => exact absurd same holds.ne
      | after => exact absurd same holds.ne'
      | concurrent => exact absurd forth holds.1
    · have less := lt_of_le_not_ge forth back
      refine ⟨.before, less, fun causality holds => ?_⟩
      cases causality with
      | same => exact absurd holds less.ne
      | before => rfl
      | after => exact absurd less holds.asymm
      | concurrent => exact absurd forth holds.1
  · by_cases back : right ≤ left
    · have less := lt_of_le_not_ge back forth
      refine ⟨.after, less, fun causality holds => ?_⟩
      cases causality with
      | same => exact absurd holds less.ne'
      | before => exact absurd less holds.asymm
      | after => rfl
      | concurrent => exact absurd back holds.2
    · refine ⟨.concurrent, ⟨forth, back⟩, fun causality holds => ?_⟩
      cases causality with
      | same => exact absurd holds.le forth
      | before => exact absurd holds.le forth
      | after => exact absurd holds.le back
      | concurrent => rfl

/-- Exactly one relation holds between two clocks unless they denote the same history with entries
for different nodes. -/
theorem existsUnique_relates_iff (clock other : VectorClock) :
    (∃! causality, Relates clock other causality) ↔
      ((∀ node, clock.get node = other.get node) →
        ∀ node, node ∈ clock.entries ↔ node ∈ other.entries) := by
  constructor
  · rintro ⟨causality, -, unique⟩ same
    by_contra differ
    have equal : clock.get = other.get := funext same
    have before : clock.isStrictlyBefore other = true :=
      isStrictlyBefore_iff.mpr ⟨equal.le, fun both => differ both.2⟩
    exact nomatch (unique .same same).trans (unique .before before).symm
  · intro settled
    have relates : ∀ causality, Relates clock other causality ↔ match causality with
        | .same => clock.get = other.get
        | .before => clock.get < other.get
        | .after => other.get < clock.get
        | .concurrent => ¬ clock.get ≤ other.get ∧ ¬ other.get ≤ clock.get := by
      have nodes : clock.get = other.get → ∀ node, node ∈ clock.entries ↔ node ∈ other.entries :=
        fun equal => settled (congrFun equal)
      intro causality
      cases causality with
      | same => exact funext_iff.symm
      | before =>
          refine isStrictlyBefore_iff.trans ⟨fun ⟨below, distinct⟩ => ?_, fun less => ?_⟩
          · exact lt_of_le_of_ne below fun equal => distinct ⟨equal, nodes equal⟩
          · exact ⟨less.le, fun both => less.ne both.1⟩
      | after =>
          refine isStrictlyBefore_iff.trans ⟨fun ⟨below, distinct⟩ => ?_, fun less => ?_⟩
          · exact lt_of_le_of_ne below fun equal =>
              distinct ⟨equal, fun node => (nodes equal.symm node).symm⟩
          · exact ⟨less.le, fun both => less.ne both.1⟩
      | concurrent => exact isConcurrentWith_iff
    simp only [relates]
    exact existsUnique_relation clock.get other.get

/-- A clock without entries and one that counts zero events of a node are strictly before each
other. -/
theorem zero_entry_before_both_ways :
    ¬ ∃! causality, Relates new { entries := (∅ : AList _).insert "a" 0 } causality := by
  rintro ⟨causality, -, unique⟩
  have before : Relates new { entries := (∅ : AList _).insert "a" 0 } .before :=
    show isStrictlyBefore _ _ = true by decide
  have after : Relates new { entries := (∅ : AList _).insert "a" 0 } .after :=
    show isStrictlyBefore _ _ = true by decide
  exact nomatch (unique .before before).trans (unique .after after).symm

/-! ## Clocks without entries of zero -/

/-- Every entry counts at least one event. -/
def Positive (clock : VectorClock) : Prop := ∀ node ∈ clock.entries, 0 < clock.get node

theorem Positive.increment {clock : VectorClock} (positive : clock.Positive) {node : NodeId}
    (fits : clock.get node + 1 < 2 ^ 64) : (clock.increment node).Positive := by
  intro other member
  rw [get_increment]
  split
  · rw [Nat.mod_eq_of_lt fits]
    exact Nat.succ_pos _
  · rename_i different
    exact positive other (((AList.mem_insert _).mp member).resolve_left different)

theorem Positive.merge {clock other : VectorClock} (positive : clock.Positive)
    (otherPositive : other.Positive) : (clock.merge other).Positive := by
  intro node member
  rw [get_merge, lt_max_iff]
  by_cases known : node ∈ other.entries
  · exact .inr (otherPositive node known)
  · refine .inl (positive node ?_)
    rw [← AList.lookup_isSome] at member known ⊢
    simp only [VectorClock.merge, AssocMap.lookup_mergeWith] at member
    cases found : other.entries.lookup node with
    | none => simpa [found] using member
    | some counter => simp [found] at known

theorem Positive.mem_iff {clock : VectorClock} (positive : clock.Positive) (node : NodeId) :
    node ∈ clock.entries ↔ 0 < clock.get node := by
  refine ⟨positive node, fun counted => ?_⟩
  by_contra absent
  simp [VectorClock.get, AssocMap.valueD, AList.lookup_eq_none.mpr absent] at counted

end VectorClock

end Sync
end Mnemo
