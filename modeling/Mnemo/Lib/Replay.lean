import Mathlib.Data.List.Sort
import Mathlib.Order.Basic

/-!
# Replaying a buffer that changes

A buffer is shown page by page, in the order of its keys.  Each page names its last item, and the
next one shows what comes after the item with this name in what is buffered by then; if there is no
such item, it starts again from the beginning.
-/

namespace Replay

variable {Item Name Key : Type} [DecidableEq Name] [LinearOrder Key] (name : Item → Name)
  (key : Item → Key) (wanted : Item → Bool)

/-- The items in the order of their keys. -/
def arranged (items : List Item) : List Item :=
  items.insertionSort fun item other => key item ≤ key other

/-- The items after the one with the name of the last item shown. -/
def after (last : Option Item) (items : List Item) : List Item :=
  match last with
  | none => items
  | some shown =>
      match items.findIdx? fun item => name item = name shown with
      | some position => items.drop (position + 1)
      | none => items

/-- The page after the last item shown. -/
def page (last : Option Item) (items : List Item) (limit : Nat) : List Item :=
  ((after name last (arranged key items)).filter wanted).take limit

/-- The pages for the buffers at the requests, up to the first page that is empty. -/
def pages : Option Item → List (List Item × Nat) → List (List Item)
  | _, [] => []
  | last, (items, limit) :: requests =>
      let shown := page name key wanted last items limit
      if shown.isEmpty then [[]] else shown :: pages shown.getLast? requests

/-- The pages have ascending keys, so that nothing is shown twice. -/
def Ascending (shown : List (List Item)) : Prop :=
  shown.flatten.Pairwise fun item other => key item < key other

/-- Once the last page is empty, what was wanted and buffered at each request is shown. -/
def Complete (requests : List (List Item × Nat)) (shown : List (List Item)) : Prop :=
  [] ∈ shown → ∀ sought, (∀ request ∈ requests.take shown.length,
    ∃ item ∈ request.1, wanted item = true ∧ key item = sought) →
      ∃ item ∈ shown.flatten, key item = sought

/-- At each request the last item shown is still buffered, or all that is wanted comes after it. -/
def Resumes : Option Item → List (List Item × Nat) → Prop
  | _, [] => True
  | last, (items, limit) :: requests =>
      (∀ shown ∈ last, (∃ item ∈ items, name item = name shown) ∨
        ∀ item ∈ items, wanted item = true → key shown < key item) ∧
      let shown := page name key wanted last items limit
      shown.isEmpty = false → Resumes shown.getLast? requests

/-- Names and keys tell the same items apart, in all buffers. -/
def Named (items others : List Item) : Prop :=
  ∀ item ∈ items, ∀ other ∈ others, name item = name other ↔ key item = key other

variable {name key wanted} {items : List Item} {last : Option Item} {limit : Nat}

/-! ## Pages -/

theorem mem_arranged {item : Item} : item ∈ arranged key items ↔ item ∈ items :=
  List.mem_insertionSort _

theorem arranged_ascending (distinct : (items.map key).Nodup) :
    (arranged key items).Pairwise fun item other => key item < key other := by
  have sorted := List.pairwise_insertionSort (fun item other => key item ≤ key other) items
  have different : ((arranged key items).map key).Nodup :=
    ((List.perm_insertionSort _ items).map key).nodup_iff.mpr distinct
  exact (sorted.and (List.pairwise_map.mp different)).imp fun both => lt_of_le_of_ne both.1 both.2

/-- After an item that is there comes what has greater keys. -/
theorem mem_after_of_mem {sorted : List Item} {shown : Item}
    (ascending : sorted.Pairwise fun item other => key item < key other)
    (named : ∀ item ∈ sorted, name item = name shown ↔ key item = key shown)
    (there : ∃ item ∈ sorted, name item = name shown) {item : Item} :
    item ∈ after name (some shown) sorted ↔ item ∈ sorted ∧ key shown < key item := by
  rw [after]
  cases found : sorted.findIdx? fun item => name item = name shown with
  | none =>
    obtain ⟨item, member, same⟩ := there
    have missed := List.findIdx?_eq_none_iff.mp found item member
    simp [same] at missed
  | some position =>
    obtain ⟨short, here, -⟩ := List.findIdx?_eq_some_iff_getElem.mp found
    have same : key sorted[position] = key shown :=
      (named _ (List.getElem_mem short)).mp (of_decide_eq_true here)
    have split : sorted = sorted.take position ++ sorted[position] :: sorted.drop (position + 1) := by
      rw [← List.drop_eq_getElem_cons short, List.take_append_drop]
    rw [split, List.pairwise_append, List.pairwise_cons] at ascending
    obtain ⟨-, ⟨above, -⟩, below⟩ := ascending
    dsimp only
    constructor
    · intro member
      exact ⟨List.mem_of_mem_drop member, same ▸ above item member⟩
    · rintro ⟨member, greater⟩
      rw [split, List.mem_append, List.mem_cons] at member
      rcases member with before | rfl | behind
      · have less := below item before _ List.mem_cons_self
        exact absurd (less.trans (same ▸ greater)) (lt_irrefl _)
      · exact absurd greater (same ▸ lt_irrefl _)
      · exact behind

theorem after_of_absent {sorted : List Item} {shown : Item}
    (absent : ∀ item ∈ sorted, name item ≠ name shown) :
    after name (some shown) sorted = sorted := by
  rw [after]
  have missed : sorted.findIdx? (fun item => name item = name shown) = none := by
    rw [List.findIdx?_eq_none_iff]
    intro item member
    exact decide_eq_false (absent item member)
  rw [missed]

theorem after_sublist (last : Option Item) (sorted : List Item) :
    (after name last sorted).Sublist sorted := by
  cases last with
  | none => exact List.Sublist.refl _
  | some shown =>
    rw [after]
    split
    · exact List.drop_sublist _ _
    · exact List.Sublist.refl _

theorem page_ascending (distinct : (items.map key).Nodup) :
    (page name key wanted last items limit).Pairwise fun item other => key item < key other :=
  (arranged_ascending distinct).sublist
    ((List.take_sublist _ _).trans (List.filter_sublist.trans (after_sublist last _)))

theorem mem_of_mem_page {item : Item} (shown : item ∈ page name key wanted last items limit) :
    item ∈ items ∧ wanted item = true := by
  obtain ⟨among, fits⟩ := List.mem_filter.mp (List.mem_of_mem_take shown)
  exact ⟨mem_arranged.mp ((after_sublist last _).subset among), fits⟩

/-! ## One request -/

section Request

variable (name) (key) in
/-- What a request meets: keys are distinct, and the last item shown is told apart by them. -/
structure Meets (last : Option Item) (items : List Item) : Prop where
  distinct : (items.map key).Nodup
  named : ∀ shown ∈ last, ∀ item ∈ items, name item = name shown ↔ key item = key shown

theorem mem_after_of_lt (meets : Meets name key last items) {item : Item} (member : item ∈ items)
    (later : ∀ shown ∈ last, key shown < key item) :
    item ∈ after name last (arranged key items) := by
  cases last with
  | none => exact mem_arranged.mpr member
  | some shown =>
    by_cases there : ∃ other ∈ arranged key items, name other = name shown
    · refine (mem_after_of_mem (arranged_ascending meets.distinct) (fun other among => ?_)
        there).mpr ⟨mem_arranged.mpr member, later shown rfl⟩
      exact meets.named shown rfl other (mem_arranged.mp among)
    · rw [after_of_absent fun other among same => there ⟨other, among, same⟩]
      exact mem_arranged.mpr member

/-- A request that shows something shows what is greater than before, exactly if it resumes. -/
theorem resumes_iff_lt (meets : Meets name key last items)
    (showing : page name key wanted last items limit ≠ []) :
    (∀ shown ∈ last, (∃ item ∈ items, name item = name shown) ∨
      ∀ item ∈ items, wanted item = true → key shown < key item) ↔
    ∀ shown ∈ last, ∀ item ∈ page name key wanted last items limit, key shown < key item := by
  refine forall₂_congr fun shown isLast => ?_
  obtain rfl : last = some shown := isLast
  have named : ∀ other ∈ arranged key items, name other = name shown ↔ key other = key shown :=
    fun other among => meets.named shown rfl other (mem_arranged.mp among)
  by_cases there : ∃ item ∈ items, name item = name shown
  · refine iff_of_true (.inl there) fun item visible => ?_
    obtain ⟨other, member, same⟩ := there
    have among := (List.mem_filter.mp (List.mem_of_mem_take visible)).1
    exact ((mem_after_of_mem (arranged_ascending meets.distinct) named
      ⟨other, mem_arranged.mpr member, same⟩).mp among).2
  · rw [or_iff_right there]
    have absent : ∀ other ∈ arranged key items, name other ≠ name shown :=
      fun other among same => there ⟨other, mem_arranged.mp among, same⟩
    constructor
    · intro behind item visible
      exact behind item (mem_of_mem_page visible).1 (mem_of_mem_page visible).2
    · intro greater item member fits
      rw [page, after_of_absent absent] at showing greater
      have candidate : item ∈ (arranged key items).filter wanted :=
        List.mem_filter.mpr ⟨mem_arranged.mpr member, fits⟩
      have ascending := (arranged_ascending meets.distinct).sublist
        (List.filter_sublist (p := wanted))
      cases listed : (arranged key items).filter wanted with
      | nil =>
        rw [listed] at candidate
        cases candidate
      | cons least others =>
        rw [listed] at showing greater candidate ascending
        have first : least ∈ (least :: others).take limit := by
          cases limit with
          | zero => exact absurd rfl showing
          | succ limit => exact List.mem_cons_self
        rcases List.mem_cons.mp candidate with rfl | behind
        · exact greater item first
        · exact (greater least first).trans ((List.pairwise_cons.mp ascending).1 item behind)

/-- What is wanted and greater than before is shown, or it is greater than all that is shown. -/
theorem shown_or_later (meets : Meets name key last items) (positive : 0 < limit) {item : Item}
    (member : item ∈ items) (fits : wanted item = true)
    (later : ∀ shown ∈ last, key shown < key item) :
    page name key wanted last items limit ≠ [] ∧
      (item ∈ page name key wanted last items limit ∨
        ∀ other ∈ page name key wanted last items limit, key other < key item) := by
  have candidate : item ∈ (after name last (arranged key items)).filter wanted :=
    List.mem_filter.mpr ⟨mem_after_of_lt meets member later, fits⟩
  have ascending := (arranged_ascending meets.distinct).sublist
    (List.filter_sublist.trans (after_sublist last _) :
      ((after name last (arranged key items)).filter wanted).Sublist _)
  constructor
  · intro nothing
    rcases List.take_eq_nil_iff.mp nothing with zero | empty
    · exact absurd zero positive.ne'
    · rw [empty] at candidate
      cases candidate
  · rw [← List.take_append_drop limit ((after name last (arranged key items)).filter wanted)]
      at candidate ascending
    rcases List.mem_append.mp candidate with visible | behind
    · exact .inl visible
    · exact .inr fun other visible =>
        (List.pairwise_append.mp ascending).2.2 other visible item behind

end Request

/-! ## All requests -/

section Requests

theorem pairwise_append_iff {front back : List Item} {final : Item}
    (ascending : front.Pairwise fun item other => key item < key other)
    (ends : front.getLast? = some final) :
    ((front ++ back).Pairwise fun item other => key item < key other) ↔
      (final :: back).Pairwise fun item other => key item < key other := by
  obtain ⟨init, rfl⟩ := List.getLast?_eq_some_iff.mp ends
  rw [List.append_assoc, List.singleton_append]
  refine ⟨fun whole => (List.pairwise_append.mp whole).2.1, fun behind => ?_⟩
  obtain ⟨first, -, before⟩ := List.pairwise_append.mp ascending
  refine List.pairwise_append.mpr ⟨first, behind, fun item early other late => ?_⟩
  have less := before item early final (List.mem_singleton_self final)
  rcases List.mem_cons.mp late with rfl | later
  · exact less
  · exact less.trans ((List.pairwise_cons.mp behind).1 other later)

variable (name) (key) in
/-- What all requests meet: keys tell apart what names tell apart, within and across buffers. -/
structure Sound (last : Option Item) (requests : List (List Item × Nat)) : Prop where
  positive : ∀ request ∈ requests, 0 < request.2
  distinct : ∀ request ∈ requests, (request.1.map key).Nodup
  named : ∀ request ∈ requests, ∀ shown ∈ last, ∀ item ∈ request.1,
    name item = name shown ↔ key item = key shown
  across : ∀ request ∈ requests, ∀ other ∈ requests, ∀ shown ∈ other.1, ∀ item ∈ request.1,
    name item = name shown ↔ key item = key shown

variable {requests : List (List Item × Nat)}

omit [DecidableEq Name] [LinearOrder Key] in
theorem Sound.meets (sound : Sound name key last ((items, limit) :: requests)) :
    Meets name key last items :=
  ⟨sound.distinct _ List.mem_cons_self, sound.named _ List.mem_cons_self⟩

omit [DecidableEq Name] [LinearOrder Key] in
theorem Sound.next (sound : Sound name key last ((items, limit) :: requests)) {final : Item}
    (buffered : final ∈ items) : Sound name key (some final) requests := by
  refine ⟨fun request member => sound.positive request (List.mem_cons_of_mem _ member),
    fun request member => sound.distinct request (List.mem_cons_of_mem _ member), ?_,
    fun request member other among => sound.across request (List.mem_cons_of_mem _ member) other
      (List.mem_cons_of_mem _ among)⟩
  rintro request member shown ⟨⟩ item inside
  exact sound.across request (List.mem_cons_of_mem _ member) _ List.mem_cons_self final buffered
    item inside

theorem exists_final (showing : page name key wanted last items limit ≠ []) :
    ∃ final, (page name key wanted last items limit).getLast? = some final ∧
      final ∈ page name key wanted last items limit ∧ final ∈ items := by
  refine ⟨_, List.getLast?_eq_getLast_of_ne_nil showing, List.getLast_mem showing, ?_⟩
  exact (mem_of_mem_page (List.getLast_mem showing)).1

/-- The pages are ascending, and behind the last item shown before, exactly if every request
resumes. -/
theorem ascending_iff_resumes (sound : Sound name key last requests) :
    ((last.toList ++ (pages name key wanted last requests).flatten).Pairwise
        fun item other => key item < key other) ↔
      Resumes name key wanted last requests := by
  induction requests generalizing last with
  | nil =>
    refine iff_of_true ?_ trivial
    cases last with
    | none => exact .nil
    | some shown => exact List.pairwise_singleton _ _
  | cons request requests ih =>
    obtain ⟨items, limit⟩ := request
    rw [pages, Resumes]
    by_cases showing : page name key wanted last items limit = []
    · rw [showing]
      refine iff_of_true ?_ ⟨fun shown isLast => ?_, fun visible => nomatch visible⟩
      · cases last with
        | none => exact .nil
        | some shown => exact List.pairwise_singleton _ _
      · rw [or_iff_not_imp_left]
        intro absent item member fits
        obtain rfl : last = some shown := isLast
        by_contra notLater
        have candidate : item ∈ (arranged key items).filter wanted :=
          List.mem_filter.mpr ⟨mem_arranged.mpr member, fits⟩
        rw [page, after_of_absent fun other among same =>
          absent ⟨other, mem_arranged.mp among, same⟩] at showing
        rcases List.take_eq_nil_iff.mp showing with zero | empty
        · exact absurd zero (sound.positive _ List.mem_cons_self).ne'
        · rw [empty] at candidate
          cases candidate
    · obtain ⟨final, ends, visible, buffered⟩ := exists_final showing
      have some_shown : (page name key wanted last items limit).isEmpty = false := by
        simpa using showing
      have ascending : (page name key wanted last items limit).Pairwise
          fun item other => key item < key other :=
        page_ascending sound.meets.distinct
      have rest := ih (sound.next buffered)
      rw [Option.toList_some, List.singleton_append] at rest
      simp only [some_shown, ends, forall_true_left, Bool.false_eq_true, if_false,
        List.flatten_cons]
      rw [resumes_iff_lt sound.meets showing, ← rest, ← pairwise_append_iff ascending ends]
      constructor
      · intro whole
        obtain ⟨-, later, before⟩ := List.pairwise_append.mp whole
        refine ⟨fun shown isLast item among => ?_, later⟩
        exact before shown (Option.mem_toList.mpr isLast) item (List.mem_append_left _ among)
      · rintro ⟨before, later⟩
        refine List.pairwise_append.mpr ⟨?_, later, fun shown isLast item among => ?_⟩
        · cases last with
          | none => exact .nil
          | some shown => exact List.pairwise_singleton _ _
        · have less := before shown (Option.mem_toList.mp isLast) final visible
          rcases List.mem_append.mp among with here | behind
          · exact before shown (Option.mem_toList.mp isLast) item here
          · exact less.trans ((List.pairwise_cons.mp
              ((pairwise_append_iff ascending ends).mp later)).1 item behind)

/-- What is wanted, greater than before and buffered at each request is shown. -/
theorem exists_shown (sound : Sound name key last requests) {sought : Key}
    (later : ∀ shown ∈ last, key shown < sought)
    (finished : [] ∈ pages name key wanted last requests)
    (stays : ∀ request ∈ requests.take (pages name key wanted last requests).length,
      ∃ item ∈ request.1, wanted item = true ∧ key item = sought) :
    ∃ item ∈ (pages name key wanted last requests).flatten, key item = sought := by
  induction requests generalizing last with
  | nil => cases finished
  | cons request requests ih =>
    obtain ⟨items, limit⟩ := request
    have first : ∃ item ∈ items, wanted item = true ∧ key item = sought := by
      refine stays (items, limit) ?_
      rw [pages]
      split
      · exact List.mem_cons_self
      · exact List.mem_cons_self
    obtain ⟨item, member, fits, rfl⟩ := first
    obtain ⟨showing, place⟩ := shown_or_later sound.meets
      (sound.positive _ List.mem_cons_self) member fits later
    obtain ⟨final, ends, visible, buffered⟩ := exists_final showing
    have some_shown : (page name key wanted last items limit).isEmpty = false := by
      simpa using showing
    rw [pages, some_shown, ends] at finished stays ⊢
    simp only [Bool.false_eq_true, if_false, List.length_cons, List.take_succ_cons,
      List.flatten_cons, List.mem_cons] at finished stays ⊢
    rcases place with here | behind
    · exact ⟨item, List.mem_append_left _ here, rfl⟩
    · have rest := finished.resolve_left fun empty => showing empty.symm
      obtain ⟨other, among, same⟩ := @ih (some final) (sound.next buffered)
        (fun shown isLast => by
          cases isLast
          exact behind final visible) rest fun request among => stays request (.inr among)
      exact ⟨other, List.mem_append_right _ among, same⟩

theorem ascending_and_complete_iff (sound : Sound name key none requests) :
    Ascending key (pages name key wanted none requests) ∧
        Complete key wanted requests (pages name key wanted none requests) ↔
      Resumes name key wanted none requests := by
  have ascends : Ascending key (pages name key wanted none requests) ↔
      Resumes name key wanted none requests := by
    rw [← ascending_iff_resumes sound]
    rfl
  rw [ascends]
  refine and_iff_left fun finished sought stays => ?_
  exact exists_shown sound (fun shown isLast => nomatch isLast) finished stays

end Requests

end Replay
