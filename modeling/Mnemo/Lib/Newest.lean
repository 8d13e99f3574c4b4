import Mathlib.Data.List.Basic
import Mathlib.Data.List.Perm.Lattice
import Mathlib.Data.List.Sort

/-!
# The newest items of a list

Items are listed by an index in descending order of age.  Filtering a window of the list and then
taking some items is compared with the newest ones among all that match.
-/

namespace Newest

variable {Item : Type} (age : Item → Int)

/-- At most `count` of the wanted items, all of them if they are fewer, and none that is left out
is newer. -/
structure IsNewest (wanted : Item → Prop) (count : Nat) (answer : List Item) : Prop where
  nodup : answer.Nodup
  matching : ∀ item ∈ answer, wanted item
  few : answer.length ≤ count
  full : answer.length < count → ∀ item, wanted item → item ∈ answer
  newest : ∀ item, wanted item → item ∉ answer → ∀ taken ∈ answer, age item ≤ age taken

/-- The newest items, newest first. -/
structure IsNewestFirst (wanted : Item → Prop) (count : Nat) (answer : List Item) : Prop
    extends IsNewest age wanted count answer where
  sorted : answer.Pairwise fun newer older => age older ≤ age newer

/-- Take the items that match in a window at the front of the list. -/
def windowed (items : List Item) (accepts : Item → Bool) (width count : Nat) : List Item :=
  ((items.take width).filter accepts).take count

/-- The window holds the first `count` items that match, or all of them. -/
def Reaches (items : List Item) (accepts : Item → Bool) (width count : Nat) : Prop :=
  min count (items.filter accepts).length ≤ ((items.take width).filter accepts).length

/-- None of the first `count` items that match is followed by a newer one. -/
def Ordered (items : List Item) (accepts : Item → Bool) (count : Nat) : Prop :=
  ∀ front item back, items.filter accepts = front ++ item :: back → front.length < count →
    ∀ later ∈ back, age later ≤ age item

variable {age} {items : List Item} {accepts : Item → Bool} {width count : Nat}

/-! ## Windows -/

theorem filter_eq_window_append (items : List Item) (accepts : Item → Bool) (width : Nat) :
    items.filter accepts =
      (items.take width).filter accepts ++ (items.drop width).filter accepts := by
  rw [← List.filter_append, List.take_append_drop]

theorem windowed_of_reaches (reaches : Reaches items accepts width count) :
    windowed items accepts width count = (items.filter accepts).take count := by
  have split := filter_eq_window_append items accepts width
  rw [Reaches, split, List.length_append] at reaches
  rw [windowed, split]
  rcases Nat.lt_or_ge ((items.take width).filter accepts).length count with less | enough
  · have none' : (items.drop width).filter accepts = [] := by
      rw [← List.length_eq_zero_iff]
      omega
    rw [none', List.append_nil]
  · rw [List.take_append_of_le_length enough]

theorem pairwise_of_splits {related : Item → Item → Prop} {list : List Item}
    (splits : ∀ front item back, list = front ++ item :: back → ∀ later ∈ back,
      related item later) : list.Pairwise related := by
  induction list with
  | nil => exact .nil
  | cons first rest ih =>
    refine .cons (splits [] first rest rfl) (ih fun front item back same => ?_)
    exact splits (first :: front) item back (congrArg (first :: ·) same)

theorem newestFirst_take (nodup : items.Nodup) (ordered : Ordered age items accepts count) :
    IsNewestFirst age (fun item => item ∈ items ∧ accepts item = true) count
      ((items.filter accepts).take count) := by
  have split := List.take_append_drop count (items.filter accepts)
  have within {front back : List Item} {item : Item}
      (same : (items.filter accepts).take count = front ++ item :: back) :
      front.length < count := by
    have size := congrArg List.length same
    rw [List.length_take, List.length_append, List.length_cons] at size
    omega
  refine ⟨⟨?_, ?_, ?_, ?_, ?_⟩, ?_⟩
  · exact (nodup.filter _).sublist (List.take_sublist _ _)
  · exact fun item member => List.mem_filter.mp (List.mem_of_mem_take member)
  · exact List.length_take_le _ _
  · intro fewer item wanted
    rw [List.length_take] at fewer
    rw [List.take_of_length_le (by omega)]
    exact List.mem_filter.mpr wanted
  · intro item wanted absent taken member
    obtain ⟨front, back, same⟩ := List.append_of_mem member
    have dropped : item ∈ (items.filter accepts).drop count := by
      have known := List.mem_filter.mpr wanted
      rw [← split] at known
      exact (List.mem_append.mp known).resolve_left absent
    refine ordered front taken (back ++ (items.filter accepts).drop count) ?_ (within same) item
      (List.mem_append_right _ dropped)
    rw [← List.cons_append, ← List.append_assoc, ← same, split]
  · refine pairwise_of_splits fun front item back same later member => ?_
    refine ordered front item (back ++ (items.filter accepts).drop count) ?_ (within same) later
      (List.mem_append_left _ member)
    rw [← List.cons_append, ← List.append_assoc, ← same, split]

/-- A window gives the newest items that match, newest first, exactly if it reaches far enough and
the index agrees with the age of the items. -/
theorem windowed_newestFirst_iff (nodup : items.Nodup) :
    IsNewestFirst age (fun item => item ∈ items ∧ accepts item = true) count
        (windowed items accepts width count) ↔
      Reaches items accepts width count ∧ Ordered age items accepts count := by
  constructor
  · intro newest
    have reaches : Reaches items accepts width count := by
      have split := filter_eq_window_append items accepts width
      rw [Reaches, split, List.length_append]
      rcases Nat.lt_or_ge ((items.take width).filter accepts).length count with less | enough
      · have none' : (items.drop width).filter accepts = [] := by
          rw [List.eq_nil_iff_forall_not_mem]
          intro item member
          have whole : windowed items accepts width count =
              (items.take width).filter accepts := List.take_of_length_le (Nat.le_of_lt less)
          have wanted := List.mem_filter.mp (split ▸ List.mem_append_right _ member)
          have taken := newest.full (whole ▸ less) item wanted
          rw [whole] at taken
          have apart := (List.nodup_append.mp (split ▸ nodup.filter accepts)).2.2
          exact apart item taken item member rfl
        rw [none', List.length_nil]
        omega
      · omega
    refine ⟨reaches, fun front item back same short later member => ?_⟩
    rw [windowed_of_reaches reaches] at newest
    have taken : (items.filter accepts).take count =
        front ++ item :: back.take (count - front.length - 1) := by
      rw [same, List.take_append, List.take_of_length_le (Nat.le_of_lt short)]
      obtain ⟨more, more_eq⟩ : ∃ more, count - front.length = more + 1 :=
        ⟨count - front.length - 1, by omega⟩
      rw [more_eq, List.take_succ_cons, Nat.add_sub_cancel]
    by_cases inside : later ∈ back.take (count - front.length - 1)
    · have sorted := newest.sorted
      rw [taken, List.pairwise_append] at sorted
      exact (List.pairwise_cons.mp sorted.2.1).1 later inside
    · have wanted : later ∈ items.filter accepts := by
        rw [same]
        exact List.mem_append_right _ (List.mem_cons_of_mem _ member)
      refine newest.newest later (List.mem_filter.mp wanted) ?_ item ?_
      · have apart := nodup.filter accepts
        rw [same, List.nodup_append] at apart
        rw [taken, List.mem_append, List.mem_cons, not_or, not_or]
        refine ⟨fun early => ?_, ?_, inside⟩
        · exact apart.2.2 later early later (List.mem_cons_of_mem _ member) rfl
        · rintro rfl
          exact (List.nodup_cons.mp apart.2.1).1 member
      · rw [taken]
        exact List.mem_append_right _ List.mem_cons_self
  · rintro ⟨reaches, ordered⟩
    rw [windowed_of_reaches reaches]
    exact newestFirst_take nodup ordered

/-! ## Merged answers -/

section Merge

variable {Key : Type} [LinearOrder Key] (name : Item → Key)

/-- Leave out the items named like the one before them. -/
def dedupAfter : Item → List Item → List Item
  | _, [] => []
  | last, item :: rest =>
      if name item = name last then dedupAfter last rest else item :: dedupAfter item rest

/-- Leave out repeated names in a row. -/
def dedupBy : List Item → List Item
  | [] => []
  | item :: rest => item :: dedupAfter name item rest

/-- Two answers together, sorted by name and without repetitions. -/
def merged (first second : List Item) : List Item :=
  dedupBy name ((first ++ second).insertionSort fun item other => name item ≤ name other)

variable {name}

theorem dedupAfter_subset (last : Item) (list : List Item) : dedupAfter name last list ⊆ list := by
  induction list generalizing last with
  | nil => exact List.Subset.refl _
  | cons item rest ih =>
    rw [dedupAfter]
    split
    · exact List.subset_cons_of_subset _ (ih last)
    · exact List.cons_subset_cons _ (ih item)

theorem dedupAfter_sorted {last : Item} {list : List Item}
    (sorted : (last :: list).Pairwise fun item other => name item ≤ name other) :
    (last :: dedupAfter name last list).Pairwise fun item other => name item < name other := by
  induction list generalizing last with
  | nil => exact List.pairwise_singleton _ _
  | cons item rest ih =>
    obtain ⟨above, others⟩ := List.pairwise_cons.mp sorted
    rw [dedupAfter]
    split
    next => exact ih (sorted.sublist ((List.sublist_cons_self item rest).cons_cons last))
    next different =>
      have less : name last < name item :=
        lt_of_le_of_ne (above item List.mem_cons_self) (Ne.symm different)
      refine .cons (fun other member => ?_) (ih others)
      rcases List.mem_cons.mp member with rfl | later
      · exact less
      · exact less.trans_le ((List.pairwise_cons.mp others).1 other (dedupAfter_subset _ _ later))

theorem exists_dedupAfter {last : Item} {list : List Item} :
    ∀ item ∈ last :: list, ∃ other ∈ last :: dedupAfter name last list, name other = name item := by
  induction list generalizing last with
  | nil => exact fun item member => ⟨item, member, rfl⟩
  | cons next rest ih =>
    intro item member
    rw [dedupAfter]
    split
    next same =>
      rcases List.mem_cons.mp member with rfl | later
      · exact ⟨item, List.mem_cons_self, rfl⟩
      · rcases List.mem_cons.mp later with rfl | later
        · exact ⟨last, List.mem_cons_self, same.symm⟩
        · exact ih item (List.mem_cons_of_mem _ later)
    next =>
      rcases List.mem_cons.mp member with rfl | later
      · exact ⟨item, List.mem_cons_self, rfl⟩
      · obtain ⟨other, known, same⟩ := @ih next item later
        exact ⟨other, List.mem_cons_of_mem _ known, same⟩

theorem merged_sorted (first second : List Item) :
    (merged name first second).Pairwise fun item other => name item < name other := by
  have sorted := List.pairwise_insertionSort
    (fun item other => name item ≤ name other) (first ++ second)
  rw [merged]
  cases arranged : (first ++ second).insertionSort fun item other => name item ≤ name other with
  | nil => exact .nil
  | cons item rest =>
    rw [arranged] at sorted
    exact dedupAfter_sorted sorted

theorem mem_merged {first second : List Item}
    (apart : ∀ item ∈ first ++ second, ∀ other ∈ first ++ second, name item = name other →
      item = other) {item : Item} :
    item ∈ merged name first second ↔ item ∈ first ∨ item ∈ second := by
  have members : ∀ item, item ∈ (first ++ second).insertionSort
      (fun item other => name item ≤ name other) ↔ item ∈ first ++ second :=
    fun item => List.mem_insertionSort _
  rw [← List.mem_append, ← members item, merged]
  cases arranged : (first ++ second).insertionSort fun item other => name item ≤ name other with
  | nil => rfl
  | cons head rest =>
    rw [arranged] at members
    have inside : head :: dedupAfter name head rest ⊆ head :: rest :=
      List.cons_subset_cons _ (dedupAfter_subset _ _)
    refine ⟨fun member => inside member, fun member => ?_⟩
    obtain ⟨other, known, same⟩ : ∃ other ∈ head :: dedupAfter name head rest,
        name other = name item := exists_dedupAfter item member
    have equal := apart other ((members other).mp (inside known)) item
      ((members item).mp member) same
    rwa [equal] at known

/-- What is taken of a sorted list are the items with few smaller ones. -/
theorem mem_take_of_sorted {list : List Item}
    (sorted : list.Pairwise fun item other => name item < name other) {item : Item}
    {count : Nat} :
    item ∈ list.take count ↔
      item ∈ list ∧ (list.filter fun other => name other < name item).length < count := by
  induction list generalizing count with
  | nil => simp
  | cons first rest ih =>
    obtain ⟨above, others⟩ := List.pairwise_cons.mp sorted
    cases count with
    | zero => simp
    | succ count =>
      rw [List.take_succ_cons, List.mem_cons, List.mem_cons, ih others]
      by_cases same : item = first
      · subst same
        have none' : (item :: rest).filter (fun other => name other < name item) = [] := by
          rw [List.filter_eq_nil_iff]
          intro other member
          rcases List.mem_cons.mp member with rfl | later
          · simp
          · simpa using (above other later).le
        simp [none']
      · by_cases member : item ∈ rest
        · rw [List.filter_cons_of_pos (by simpa using above item member), List.length_cons]
          simp [same, member]
        · simp [same, member]

variable [DecidableEq Item]

/-- An item that a window gives. -/
def IsCandidate (items : List Item) (accepts : Item → Bool) (width count : Nat) (item : Item) :
    Prop :=
  item ∈ items.take width ∧ accepts item = true ∧ (items.filter accepts).idxOf item < count

instance (item : Item) : Decidable (IsCandidate items accepts width count item) :=
  inferInstanceAs (Decidable (_ ∧ _ ∧ _))

theorem mem_windowed_iff {item : Item} :
    item ∈ windowed items accepts width count ↔ IsCandidate items accepts width count item := by
  have position (inside : item ∈ (items.take width).filter accepts) :
      ((items.take width).filter accepts).idxOf item = (items.filter accepts).idxOf item := by
    rw [filter_eq_window_append items accepts width, List.idxOf_append_of_mem inside]
  rw [windowed, IsCandidate, ← and_assoc, ← List.mem_filter]
  constructor
  · intro taken
    have inside := List.mem_of_mem_take taken
    rw [← position inside]
    exact ⟨inside, (List.mem_take_iff_idxOf_lt inside).mp taken⟩
  · rintro ⟨inside, early⟩
    rw [← position inside] at early
    exact (List.mem_take_iff_idxOf_lt inside).mpr early

/-- An item that one of two windows gives. -/
def IsOffered (items : List Item) (accepts also : Item → Bool) (width count : Nat) (item : Item) :
    Prop :=
  IsCandidate items accepts width count item ∨ IsCandidate items also width count item

instance (also : Item → Bool) (item : Item) :
    Decidable (IsOffered items accepts also width count item) :=
  inferInstanceAs (Decidable (_ ∨ _))

variable (name) in
/-- An item that is offered, and whose name is among the first of those offered. -/
def Chosen (items : List Item) (accepts also : Item → Bool) (width count : Nat) (item : Item) :
    Prop :=
  IsOffered items accepts also width count item ∧
    (items.filter fun other => IsOffered items accepts also width count other ∧
      name other < name item).length < count

/-- Two windows offer `count` items, or all that match. -/
def OffersEnough (items : List Item) (accepts also : Item → Bool) (width count : Nat) : Prop :=
  count ≤ (items.filter fun item => IsOffered items accepts also width count item).length ∨
    ∀ item ∈ items, accepts item = true ∨ also item = true →
      IsOffered items accepts also width count item

variable (age) (name) in
/-- No item that matches and is not chosen is newer than a chosen one. -/
def ChoosesNewest (items : List Item) (accepts also : Item → Bool) (width count : Nat) : Prop :=
  ∀ item ∈ items, accepts item = true ∨ also item = true →
    ¬ Chosen name items accepts also width count item →
      ∀ taken, Chosen name items accepts also width count taken → age item ≤ age taken

section Chosen

variable {also : Item → Bool}

theorem IsCandidate.mem {item : Item} (candidate : IsCandidate items accepts width count item) :
    item ∈ items := List.mem_of_mem_take candidate.1

theorem IsOffered.mem {item : Item} (offered : IsOffered items accepts also width count item) :
    item ∈ items := offered.elim IsCandidate.mem IsCandidate.mem

theorem mem_windowed_append_iff {item : Item} :
    item ∈ windowed items accepts width count ++ windowed items also width count ↔
      IsOffered items accepts also width count item := by
  rw [List.mem_append, mem_windowed_iff, mem_windowed_iff, IsOffered]

theorem merged_perm (nodup : items.Nodup)
    (apart : ∀ item ∈ items, ∀ other ∈ items, name item = name other → item = other) :
    (merged name (windowed items accepts width count) (windowed items also width count)).Perm
      (items.filter fun item => IsOffered items accepts also width count item) := by
  refine (List.perm_ext_iff_of_nodup ?_ (nodup.filter _)).mpr fun item => ?_
  · exact (merged_sorted _ _).imp fun less => by
      rintro rfl
      exact lt_irrefl _ less
  · rw [mem_merged fun item first other second =>
        apart item (mem_windowed_append_iff.mp first).mem other
          (mem_windowed_append_iff.mp second).mem,
      ← List.mem_append, mem_windowed_append_iff, List.mem_filter, decide_eq_true_eq]
    exact ⟨fun offered => ⟨offered.mem, offered⟩, And.right⟩

theorem mem_merged_take_iff (nodup : items.Nodup)
    (apart : ∀ item ∈ items, ∀ other ∈ items, name item = name other → item = other)
    {item : Item} :
    item ∈ (merged name (windowed items accepts width count)
        (windowed items also width count)).take count ↔
      Chosen name items accepts also width count item := by
  have perm := @merged_perm _ items accepts width count _ _ name _ also nodup apart
  have few : (items.filter fun other => decide (name other < name item) &&
        decide (IsOffered items accepts also width count other)) =
      items.filter fun other => decide (IsOffered items accepts also width count other ∧
        name other < name item) :=
    List.filter_congr fun other _ => by rw [Bool.and_comm, ← Bool.decide_and]
  rw [mem_take_of_sorted (merged_sorted _ _), perm.mem_iff, (perm.filter _).length_eq,
    List.filter_filter, Chosen, List.mem_filter, decide_eq_true_eq, few]
  exact and_congr_left fun _ => ⟨And.right, fun offered => ⟨offered.mem, offered⟩⟩

/-- Two windows whose answers are merged by name give the newest items that match either, exactly
if they offer enough and the names put no older item first. -/
theorem merged_newest_iff (nodup : items.Nodup)
    (apart : ∀ item ∈ items, ∀ other ∈ items, name item = name other → item = other) :
    IsNewest age (fun item => item ∈ items ∧ (accepts item = true ∨ also item = true)) count
        ((merged name (windowed items accepts width count)
          (windowed items also width count)).take count) ↔
      OffersEnough items accepts also width count ∧
        ChoosesNewest age name items accepts also width count := by
  have perm := @merged_perm _ items accepts width count _ _ name _ also nodup apart
  have chosen_iff := fun item =>
    @mem_merged_take_iff _ items accepts width count _ _ name _ also nodup apart item
  have distinct : (merged name (windowed items accepts width count)
      (windowed items also width count)).Nodup := perm.nodup_iff.mpr (nodup.filter _)
  constructor
  · intro newest
    refine ⟨?_, fun item known wanted absent taken chosen => ?_⟩
    · rcases Nat.lt_or_ge (items.filter fun item =>
        IsOffered items accepts also width count item).length count with fewer | enough
      · right
        intro item known wanted
        rw [← perm.length_eq] at fewer
        have whole := List.take_of_length_le (Nat.le_of_lt fewer)
        have member := newest.full (by rwa [whole]) item ⟨known, wanted⟩
        exact ((chosen_iff item).mp member).1
      · exact .inl enough
    · exact newest.newest item ⟨known, wanted⟩ (mt (chosen_iff item).mp absent) taken
        ((chosen_iff taken).mpr chosen)
  · rintro ⟨reaches, ordered⟩
    refine ⟨?_, ?_, List.length_take_le _ _, ?_, ?_⟩
    · exact distinct.sublist (List.take_sublist _ _)
    · intro item member
      obtain ⟨offered, -⟩ := (chosen_iff item).mp member
      exact ⟨offered.mem,
        offered.imp (fun candidate => candidate.2.1) fun candidate => candidate.2.1⟩
    · intro fewer item wanted
      rw [List.length_take, perm.length_eq] at fewer
      have offered := (reaches.resolve_left (by omega)) item wanted.1 wanted.2
      rw [List.take_of_length_le (by rw [perm.length_eq]; omega), perm.mem_iff]
      exact List.mem_filter.mpr ⟨wanted.1, decide_eq_true offered⟩
    · intro item wanted absent taken member
      exact ordered item wanted.1 wanted.2 (mt (chosen_iff item).mpr absent) taken
        ((chosen_iff taken).mp member)

end Chosen

end Merge

end Newest
