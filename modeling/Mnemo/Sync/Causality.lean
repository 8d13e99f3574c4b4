import Mnemo.Lib.Gossip
import Mnemo.Sync.VectorClock

/-!
# What vector clocks tell

Every node counts its own events and merges the clocks that it receives.  Beside the clock a replica
carries the events in its past; the clocks of two states compare as their pasts do.
-/

namespace Mnemo
namespace Sync

/-- A vector clock, and the events in the past of its node: their positions among all events. -/
structure ClockReplica where
  clock : VectorClock
  past : Set Nat

/-- A node counts an event of its own; merging takes over the past of the other side. -/
def clockRules : Gossip.Rules NodeId ClockReplica (List NodeId) Unit where
  apply events node _ replica :=
    { clock := replica.clock.increment node
      past := insert events.length replica.past }
  note events node _ := events ++ [node]
  merge replica received :=
    { clock := replica.clock.merge received.clock
      past := replica.past ∪ received.past }

/-- Replicas that gossip; the ledger lists the node of every event. -/
abbrev Clocks := Gossip NodeId ClockReplica (List NodeId)

namespace Clocks

/-- Nothing has happened. -/
def initial : Clocks :=
  { replicas := fun _ => { clock := .new, past := ∅ }, sent := [], ledger := [] }

/-- The counter of the node can take one more event. -/
def CountFits (_ : List NodeId) (node : NodeId) (_ : Unit) (replica : ClockReplica) : Prop :=
  replica.clock.get node + 1 < 2 ^ 64

/-- The past has as many events of every node as the clock counts, and these are its first ones. -/
structure CountsPast (events : List NodeId) (replica : ClockReplica) : Prop where
  past : ∀ position, position ∈ replica.past ↔ ∃ node, events[position]? = some node ∧
    (events.take position).count node < replica.clock.get node
  behind : ∀ node, replica.clock.get node ≤ events.count node
  positive : replica.clock.Positive

/-- A node has counted its own events. -/
def CountsOwn (events : List NodeId) (node : NodeId) (replica : ClockReplica) : Prop :=
  replica.clock.get node = events.count node

theorem count_take_lt {events : List NodeId} {position : Nat} {node : NodeId}
    (found : events[position]? = some node) :
    (events.take position).count node < events.count node := by
  obtain ⟨inside, here⟩ := List.getElem?_eq_some_iff.mp found
  have split := congrArg (List.count node) (List.take_append_drop position events)
  rw [List.count_append, List.drop_eq_getElem_cons inside, here, List.count_cons_self] at split
  omega

theorem exists_position {events : List NodeId} {node : NodeId} {earlier : Nat}
    (counted : earlier < events.count node) : ∃ position, events[position]? = some node ∧
      (events.take position).count node = earlier := by
  induction events generalizing earlier with
  | nil => simp at counted
  | cons event events ih =>
    by_cases same : event = node
    · subst same
      cases earlier with
      | zero => exact ⟨0, rfl, rfl⟩
      | succ earlier =>
        rw [List.count_cons_self] at counted
        obtain ⟨position, found, count⟩ := ih (Nat.lt_of_succ_lt_succ counted)
        exact ⟨position + 1, found, by simp [count]⟩
    · rw [List.count_cons_of_ne same] at counted
      obtain ⟨position, found, count⟩ := ih counted
      exact ⟨position + 1, found, by simp [count, List.count_cons_of_ne same]⟩

theorem getElem?_note {events : List NodeId} {node other : NodeId} {position : Nat} :
    (events ++ [node])[position]? = some other ↔
      events[position]? = some other ∨ position = events.length ∧ node = other := by
  rcases lt_trichotomy position events.length with inside | rfl | outside
  · simp [List.getElem?_append_left inside, inside.ne]
  · simp
  · have past := outside.le
    simp [List.getElem?_append_right past, List.getElem?_eq_none past, outside.ne',
      Nat.sub_ne_zero_of_lt outside]

theorem CountsPast.note {events : List NodeId} {replica : ClockReplica}
    (counts : CountsPast events replica) (node : NodeId) :
    CountsPast (events ++ [node]) replica := by
  refine ⟨fun position => ?_, fun other => ?_, counts.positive⟩
  · rw [counts.past]
    refine exists_congr fun other => ?_
    rw [getElem?_note]
    constructor
    · rintro ⟨found, fewer⟩
      have inside := (List.getElem?_eq_some_iff.mp found).1
      rw [List.take_append_of_le_length inside.le]
      exact ⟨.inl found, fewer⟩
    · rintro ⟨found | ⟨rfl, rfl⟩, fewer⟩
      · have inside := (List.getElem?_eq_some_iff.mp found).1
        rw [List.take_append_of_le_length inside.le] at fewer
        exact ⟨found, fewer⟩
      · rw [List.take_left] at fewer
        exact absurd (counts.behind node) (Nat.not_le.mpr fewer)
  · rw [List.count_append]
    exact (counts.behind other).trans (Nat.le_add_right _ _)

theorem CountsPast.event {events : List NodeId} {node : NodeId} {replica : ClockReplica}
    (counts : CountsPast events replica) (own : CountsOwn events node replica)
    (fits : replica.clock.get node + 1 < 2 ^ 64) :
    CountsPast (events ++ [node]) ⟨replica.clock.increment node, insert events.length replica.past⟩ ∧
      CountsOwn (events ++ [node]) node
        ⟨replica.clock.increment node, insert events.length replica.past⟩ := by
  have counter (other : NodeId) : (replica.clock.increment node).get other =
      replica.clock.get other + if other = node then 1 else 0 := by
    rw [VectorClock.get_increment]
    by_cases same : other = node
    · rw [if_pos same, if_pos same, Nat.mod_eq_of_lt fits, same]
    · rw [if_neg same, if_neg same, Nat.add_zero]
  have noted := counts.note node
  refine ⟨⟨fun position => ?_, fun other => ?_, counts.positive.increment fits⟩, ?_⟩
  · rw [Set.mem_insert_iff, noted.past]
    constructor
    · rintro (rfl | ⟨other, found, fewer⟩)
      · refine ⟨node, by simp, ?_⟩
        rw [List.take_left, ← own, counter, if_pos rfl]
        exact Nat.lt_succ_self _
      · refine ⟨other, found, fewer.trans_le ?_⟩
        rw [counter]
        exact Nat.le_add_right _ _
    · rintro ⟨other, found, fewer⟩
      rcases getElem?_note.mp found with earlier | ⟨last, _⟩
      · refine .inr ⟨other, found, ?_⟩
        by_cases same : other = node
        · subst same
          have inside := (List.getElem?_eq_some_iff.mp earlier).1
          rw [List.take_append_of_le_length inside.le, own]
          exact count_take_lt earlier
        · rwa [counter, if_neg same] at fewer
      · exact .inl last
  · have behind := counts.behind other
    rw [counter, List.count_append, List.count_singleton]
    by_cases same : other = node
    · simpa [same] using counts.behind node
    · simpa [same, Ne.symm same] using behind
  · rw [CountsOwn, counter, own]
    simp

theorem CountsPast.merge {events : List NodeId} {one two : ClockReplica}
    (counts : CountsPast events one) (also : CountsPast events two) :
    CountsPast events ⟨one.clock.merge two.clock, one.past ∪ two.past⟩ := by
  refine ⟨fun position => ?_, fun node => ?_, counts.positive.merge also.positive⟩
  · rw [Set.mem_union, counts.past, also.past, ← exists_or]
    refine exists_congr fun node => ?_
    rw [← and_or_left, ← lt_max_iff, VectorClock.get_merge]
  · rw [VectorClock.get_merge]
    exact max_le (counts.behind node) (also.behind node)

theorem keeps : Gossip.Keeps clockRules CountsPast CountsOwn CountFits where
  update _ _ _ _ counts own fits := counts.event own fits
  note _ node _ _ counts := counts.note node
  others events node other _ replica different own := by
    change replica.clock.get other = (events ++ [node]).count other
    rw [own]
    simp [different.symm]
  merge events node replica received counts also own := by
    refine ⟨counts.merge also, ?_⟩
    change (replica.clock.merge received.clock).get node = events.count node
    rw [VectorClock.get_merge, own]
    exact max_eq_left (also.behind node)

theorem CountsPast.get_le_iff {events : List NodeId} {one two : ClockReplica}
    (counts : CountsPast events one) (also : CountsPast events two) :
    one.clock.get ≤ two.clock.get ↔ one.past ⊆ two.past := by
  constructor
  · intro below position member
    obtain ⟨node, found, fewer⟩ := (counts.past position).mp member
    exact (also.past position).mpr ⟨node, found, fewer.trans_le (below node)⟩
  · intro within node
    change one.clock.get node ≤ two.clock.get node
    cases counter : one.clock.get node with
    | zero => exact Nat.zero_le _
    | succ earlier =>
      -- the last event of the node that the first clock counts is in both pasts
      have counted : earlier < events.count node := by
        have behind := counts.behind node
        omega
      obtain ⟨position, found, count⟩ := exists_position counted
      have member : position ∈ one.past :=
        (counts.past position).mpr ⟨node, found, by omega⟩
      obtain ⟨other, same, fewer⟩ := (also.past position).mp (within member)
      obtain rfl := Option.some.inj (found.symm.trans same)
      omega

/-- How two clocks compare is how the pasts of their states compare. -/
structure TellsPasts (one two : ClockReplica) : Prop where
  beforeOrEqual : one.clock.isBeforeOrEqual two.clock = true ↔ one.past ⊆ two.past
  strictlyBefore : one.clock.isStrictlyBefore two.clock = true ↔ one.past ⊂ two.past
  concurrent : one.clock.isConcurrentWith two.clock = true ↔
    ¬ one.past ⊆ two.past ∧ ¬ two.past ⊆ one.past

theorem CountsPast.tellsPasts {events : List NodeId} {one two : ClockReplica}
    (counts : CountsPast events one) (also : CountsPast events two) : TellsPasts one two := by
  have forth := counts.get_le_iff also
  have back := also.get_le_iff counts
  refine ⟨VectorClock.isBeforeOrEqual_iff.trans forth, ?_, ?_⟩
  · rw [VectorClock.isStrictlyBefore_iff, ssubset_iff_subset_not_subset, ← forth, ← back]
    refine and_congr_right fun below => not_congr ⟨fun same => same.1.ge, fun above => ?_⟩
    have equal := le_antisymm below above
    refine ⟨equal, fun node => ?_⟩
    rw [counts.positive.mem_iff, also.positive.mem_iff, equal]
  · rw [VectorClock.isConcurrentWith_iff, forth, back]

/-- The state of a replica, or one that was sent. -/
def Holds (clocks : Clocks) (state : ClockReplica) : Prop :=
  (∃ node, clocks.replicas node = state) ∨ state ∈ clocks.sent

/-- Two nodes have an event each, and one of them learns of the other one's. -/
def twoEvents : List (Gossip.Event NodeId Unit) :=
  [.update "a" (), .update "b" (), .send "a", .merge "b" 0]

end Clocks
end Sync
end Mnemo
