import Mathlib.Data.List.Sort
import Mathlib.Data.List.TakeWhile
import Mathlib.Data.Prod.Lex
import Mathlib.Order.Lattice

/-!
# Sorted sets

Members with integer scores, in ascending order of score and, among equal scores, of member.  A
member occurs once; adding it again moves it to its new score.
-/

/-- A sorted set, as the list of its entries in ascending order. -/
structure SortedSet (Member : Type) [LinearOrder Member] where
  entries : List (Int ×ₗ Member)
  sorted : entries.Pairwise (· ≤ ·)
  nodup : (entries.map fun entry => (ofLex entry).2).Nodup

namespace SortedSet

variable {Member : Type} [LinearOrder Member]

/-- The set without members. -/
def empty : SortedSet Member := ⟨[], List.Pairwise.nil, List.nodup_nil⟩

/-- Remove a member. -/
def erase (set : SortedSet Member) (member : Member) : SortedSet Member where
  entries := set.entries.filter fun entry => decide ((ofLex entry).2 ≠ member)
  sorted := set.sorted.sublist List.filter_sublist
  nodup := set.nodup.sublist (List.filter_sublist.map _)

theorem notMem_erase (set : SortedSet Member) (member : Member) :
    member ∉ (set.erase member).entries.map fun entry => (ofLex entry).2 := by
  simp [erase]

/-- Add a member, or move it to another score. -/
def insert (set : SortedSet Member) (member : Member) (score : Int) : SortedSet Member where
  entries := (set.erase member).entries.orderedInsert (· ≤ ·) (toLex (score, member))
  sorted := (set.erase member).sorted.orderedInsert _ _
  nodup := by
    have perm := (List.perm_orderedInsert (· ≤ ·) (toLex (score, member))
      (set.erase member).entries).map fun entry => (ofLex entry).2
    rw [perm.nodup_iff]
    exact List.nodup_cons.mpr ⟨notMem_erase set member, (set.erase member).nodup⟩

/-- The score of a member. -/
def score (set : SortedSet Member) (member : Member) : Option Int :=
  (set.entries.find? fun entry => decide ((ofLex entry).2 = member)).map fun entry =>
    (ofLex entry).1

/-- The members in ascending order. -/
def members (set : SortedSet Member) : List Member := set.entries.map fun entry => (ofLex entry).2

/-- How many members go when a member is removed. -/
def removed (set : SortedSet Member) (member : Member) : Nat :=
  if member ∈ set.members then 1 else 0

/-- The part of a list from one position to another, both included; negative positions count from
the end. -/
def slice {α : Type} (items : List α) (start stop : Int) : List α :=
  let length : Int := items.length
  let first := (if start < 0 then max 0 (length + start) else start).toNat
  let last := if stop < 0 then length + stop else stop
  (items.take (last + 1).toNat).drop first

/-- Members by ascending rank. -/
def range (set : SortedSet Member) (start stop : Int) : List Member :=
  slice set.members start stop

/-- The score of an entry. -/
def scoreOf (entry : Int ×ₗ Member) : Int := (ofLex entry).1

/-- The member of an entry. -/
def memberOf (entry : Int ×ₗ Member) : Member := (ofLex entry).2

/-- Members by descending rank. -/
def revRange (set : SortedSet Member) (start stop : Int) : List Member :=
  slice set.members.reverse start stop

/-- The highest members strictly below a score, at most `limit` of them. -/
def revRangeBelow (set : SortedSet Member) (bound : Int) (limit : Nat) : List Member :=
  ((set.entries.reverse.filter fun entry => decide ((ofLex entry).1 < bound)).take limit).map
    fun entry => (ofLex entry).2

/-- The lowest members strictly above a score, if one is given, at most `limit` of them. -/
def rangeAbove (set : SortedSet Member) (bound : Option Int) (limit : Nat) : List Member :=
  ((set.entries.filter fun entry => bound.all fun score => decide (score < scoreOf entry)).take
    limit).map memberOf

@[simp]
theorem members_empty : (empty : SortedSet Member).members = [] := rfl

theorem mem_members_insert (set : SortedSet Member) (member other : Member) (score : Int) :
    other ∈ (set.insert member score).members ↔ other = member ∨ other ∈ set.members := by
  have perm := (List.perm_orderedInsert (· ≤ ·) (toLex (score, member))
    (set.erase member).entries).map fun entry => (ofLex entry).2
  have step : other ∈ (set.insert member score).members ↔
      other = member ∨ other ∈ (set.erase member).members := by
    simpa [members, insert] using perm.mem_iff
  rw [step]
  rcases eq_or_ne other member with rfl | different
  · simp
  · simp [members, erase, different]

theorem mem_members_erase (set : SortedSet Member) (member other : Member) :
    other ∈ (set.erase member).members ↔ other ≠ member ∧ other ∈ set.members := by
  rcases eq_or_ne other member with rfl | different
  · exact iff_of_false (notMem_erase set other) fun both => both.1 rfl
  · simp [members, erase, different]

theorem descending (set : SortedSet Member) :
    set.entries.reverse.Pairwise fun first second => scoreOf second ≤ scoreOf first := by
  rw [List.pairwise_reverse]
  exact set.sorted.imp fun {first second} le => (Prod.Lex.le_iff'.mp le).1

theorem score_of_mem (set : SortedSet Member) {entry : Int ×ₗ Member}
    (listed : entry ∈ set.entries) : set.score (memberOf entry) = some (scoreOf entry) := by
  have unique : ∀ other ∈ set.entries, (ofLex other).2 = memberOf entry → other = entry :=
    fun other also same => List.inj_on_of_nodup_map set.nodup also listed same
  cases found : set.entries.find? fun other => decide ((ofLex other).2 = memberOf entry) with
  | none =>
    have missed := List.find?_eq_none.mp found entry listed
    simp [memberOf] at missed
  | some other =>
    have same : (ofLex other).2 = memberOf entry := by
      simpa using List.find?_some found
    rw [score, found, unique other (List.mem_of_find?_eq_some found) same]
    rfl

theorem sublist_slice {α : Type} (items : List α) (start stop : Int) :
    (slice items start stop).Sublist items :=
  (List.drop_sublist _ _).trans (List.take_sublist _ _)

theorem nodup_members (set : SortedSet Member) : set.members.Nodup := set.nodup

theorem nodup_revRange (set : SortedSet Member) (start stop : Int) :
    (set.revRange start stop).Nodup :=
  (List.nodup_reverse.mpr set.nodup_members).sublist (sublist_slice _ _ _)

theorem revRange_of_length_le (set : SortedSet Member) {limit : Nat}
    (small : set.members.length ≤ limit) :
    set.revRange 0 ((limit : Int) - 1) = set.members.reverse := by
  rcases Nat.eq_zero_or_pos limit with rfl | positive
  · have none : set.members = [] := List.length_eq_zero_iff.mp (Nat.le_zero.mp small)
    simp [revRange, slice, none]
  · have last : (limit : Int) - 1 + 1 = limit := by omega
    have not_negative : ¬ (limit : Int) - 1 < 0 := by omega
    simp only [revRange, slice, not_negative, last, if_false]
    simp [List.take_of_length_le, small]

theorem revRange_first (set : SortedSet Member) {limit : Nat} (positive : 0 < limit) :
    set.revRange 0 ((limit : Int) - 1) = (set.entries.reverse.take limit).map memberOf := by
  have last : ((limit : Int) - 1 + 1).toNat = limit := by omega
  have not_negative : ¬ (limit : Int) - 1 < 0 := by omega
  have reversed : set.members.reverse = set.entries.reverse.map memberOf := List.map_reverse.symm
  simp only [revRange, slice, not_negative, last, if_false, reversed]
  simp [List.map_take]

theorem range_all (set : SortedSet Member) : set.range 0 (-1) = set.members := by
  have last : ((set.members.length : Int) + -1 + 1).toNat = set.members.length := by omega
  simp [range, slice, last]

theorem revRange_zero (set : SortedSet Member) :
    set.revRange 0 0 = set.members.getLast?.toList := by
  rw [← List.head?_reverse]
  cases reversed : set.members.reverse with
  | nil => simp [revRange, slice, reversed]
  | cons highest others => simp [revRange, slice, reversed]

theorem entries_erase_of_notMem (set : SortedSet Member) {member : Member}
    (fresh : member ∉ set.members) : (set.erase member).entries = set.entries := by
  apply List.filter_eq_self.mpr
  intro entry listed
  apply decide_eq_true
  rintro rfl
  exact fresh (List.mem_map_of_mem listed)

/-- Adding a member changes nothing exactly if the member has the score already. -/
theorem insert_eq_self_iff {set : SortedSet Member} {member : Member} {score : Int} :
    set.insert member score = set ↔ set.score member = some score := by
  have perm : (set.insert member score).entries.Perm
      (toLex (score, member) :: (set.erase member).entries) :=
    List.perm_orderedInsert (· ≤ ·) _ _
  constructor
  · intro same
    rw [same] at perm
    exact set.score_of_mem (perm.mem_iff.mpr List.mem_cons_self)
  · intro scored
    rw [SortedSet.score, Option.map_eq_some_iff] at scored
    obtain ⟨entry, found, rfl⟩ := scored
    have named : (ofLex entry).2 = member := by
      simpa using List.find?_some found
    subst named
    have others : (set.entries.erase entry) = (set.erase (ofLex entry).2).entries := by
      have distinct : set.entries.Nodup := List.Nodup.of_map _ set.nodup
      rw [distinct.erase_eq_filter]
      refine List.filter_congr fun other also => ?_
      by_cases same : (ofLex other).2 = (ofLex entry).2
      · obtain rfl : other = entry :=
          List.inj_on_of_nodup_map set.nodup also (List.mem_of_find?_eq_some found) same
        simp
      · have different : other ≠ entry := fun equal => same (equal ▸ rfl)
        simp [same, different]
    have same : (set.insert (ofLex entry).2 (ofLex entry).1).entries = set.entries := by
      refine List.Perm.eq_of_pairwise (fun _ _ _ _ => le_antisymm) (SortedSet.sorted _) set.sorted ?_
      refine perm.trans ?_
      rw [← others]
      exact (List.perm_cons_erase (List.mem_of_find?_eq_some found)).symm
    show (⟨_, _, _⟩ : SortedSet Member) = set
    cases set
    congr

theorem members_insert_of_notMem (set : SortedSet Member) {member : Member}
    (fresh : member ∉ set.members) (score : Int) :
    ∃ low high, set.members = low ++ high ∧
      (set.insert member score).members = low ++ member :: high := by
  have same := set.entries_erase_of_notMem fresh
  refine ⟨(set.entries.takeWhile fun entry => ¬ toLex (score, member) ≤ entry).map
      fun entry => (ofLex entry).2,
    (set.entries.dropWhile fun entry => ¬ toLex (score, member) ≤ entry).map
      fun entry => (ofLex entry).2, ?_, ?_⟩
  · rw [← List.map_append, List.takeWhile_append_dropWhile]
    rfl
  · simp only [members, insert, same, List.orderedInsert_eq_take_drop, List.map_append,
      List.map_cons]
    rfl

theorem entries_insert_of_lt (set : SortedSet Member) {member : Member}
    (fresh : member ∉ set.members) {score : Int}
    (above : ∀ entry ∈ set.entries, entry < toLex (score, member)) :
    (set.insert member score).entries = set.entries ++ [toLex (score, member)] := by
  have same := set.entries_erase_of_notMem fresh
  have low : set.entries.takeWhile (fun entry => ¬ toLex (score, member) ≤ entry) =
      set.entries := by
    apply List.takeWhile_eq_self_iff.mpr
    intro entry listed
    simpa using above entry listed
  have high : set.entries.dropWhile (fun entry => ¬ toLex (score, member) ≤ entry) = [] := by
    apply List.dropWhile_eq_nil_iff.mpr
    intro entry listed
    simpa using above entry listed
  simp only [insert, same, List.orderedInsert_eq_take_drop]
  rw [low, high]

theorem mem_take_of_insert {α : Type} {front back : List α} {new other : α} {count : Nat}
    (different : other ≠ new) (found : other ∈ (front ++ new :: back).take count) :
    other ∈ (front ++ back).take count := by
  rw [List.take_append, List.mem_append] at found ⊢
  rcases found with early | late
  · exact .inl early
  · cases rest : count - front.length with
    | zero => simp [rest] at late
    | succ more =>
      rw [rest, List.take_succ_cons, List.mem_cons] at late
      have later := late.resolve_left different
      exact .inr (List.take_subset_take_left _ (Nat.le_succ more) later)

theorem mem_revRange_of_insert (set : SortedSet Member) {member other : Member}
    (fresh : member ∉ set.members) (different : other ≠ member) {score : Int} {last : Nat}
    (found : other ∈ (set.insert member score).revRange 0 last) :
    other ∈ set.revRange 0 last := by
  obtain ⟨low, high, before, after⟩ := set.members_insert_of_notMem fresh score
  have taken (items : List Member) : slice items 0 last = items.take (last + 1) := by
    have not_negative : ¬ (last : Int) < 0 := by omega
    simp only [slice, not_negative, if_false]
    simp
  rw [revRange, taken, after, List.reverse_append, List.reverse_cons, List.append_assoc] at found
  rw [revRange, taken, before, List.reverse_append]
  exact mem_take_of_insert different found

end SortedSet
