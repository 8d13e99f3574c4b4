import Mathlib

/-!
# Pages with a score as cursor

Entries in descending order of score are shown page by page: of the first ones, those that are
present; the next page begins below the score of the last one that was shown, and an empty page is
the last.  Everything present is shown exactly if no page cuts off an entry of the score at which it
ends, and no page is empty too early.
-/

namespace Pagination

variable {Entry Score : Type} [LinearOrder Score] (score : Entry → Score)
  (present : Entry → Bool) (limit : Nat)

/-- The entries below another one. -/
def below (last : Entry) (rest : List Entry) : List Entry :=
  rest.filter fun entry => score entry < score last

/-- The entries that a page shows. -/
def page (rest : List Entry) : List Entry := (rest.take limit).filter present

/-- What at most as many pages as the fuel show. -/
def pages : Nat → List Entry → List Entry
  | 0, _ => []
  | fuel + 1, rest =>
      match (page present limit rest).getLast? with
      | none => []
      | some last => page present limit rest ++ pages fuel (below score last rest)

/-- While something present is left, a page shows something, and nothing present behind the page has
the score at which it ends. -/
inductive Paged : List Entry → Prop
  | nothing {rest : List Entry} (absent : ∀ entry ∈ rest, present entry = false) : Paged rest
  | page {rest : List Entry} {last : Entry}
      (shown : (page present limit rest).getLast? = some last)
      (apart : ∀ entry ∈ rest.drop limit, present entry = true → score entry < score last)
      (later : Paged (below score last rest)) : Paged rest

variable {score present limit} {rest : List Entry} {last : Entry}

theorem mem_of_shown (shown : (page present limit rest).getLast? = some last) :
    last ∈ rest ∧ present last = true := by
  have member := List.mem_of_getLast? shown
  simp only [page, List.mem_filter] at member
  exact ⟨List.mem_of_mem_take member.1, member.2⟩

theorem length_below_lt (member : last ∈ rest) : (below score last rest).length < rest.length := by
  apply List.length_filter_lt_length_iff_exists.mpr
  exact ⟨last, member, by simp⟩

theorem sorted_below (sorted : rest.Pairwise fun first second => score second ≤ score first)
    (last : Entry) :
    (below score last rest).Pairwise fun first second => score second ≤ score first :=
  sorted.sublist List.filter_sublist

theorem score_le_of_mem_page (sorted : rest.Pairwise fun first second => score second ≤ score first)
    (shown : (page present limit rest).getLast? = some last) {entry : Entry}
    (member : entry ∈ page present limit rest) : score last ≤ score entry := by
  have ordered : (page present limit rest).Pairwise
      fun first second => score second ≤ score first :=
    sorted.sublist (List.filter_sublist.trans (List.take_sublist _ _))
  obtain ⟨front, split⟩ := List.getLast?_eq_some_iff.mp shown
  rw [split] at member ordered
  rcases List.mem_append.mp member with before | same
  · exact (List.pairwise_append.mp ordered).2.2 entry before last (List.mem_singleton_self last)
  · rw [List.mem_singleton.mp same]

theorem filter_below (sorted : rest.Pairwise fun first second => score second ≤ score first)
    (shown : (page present limit rest).getLast? = some last) :
    (below score last rest).filter present =
      ((rest.drop limit).filter present).filter fun entry => score entry < score last := by
  have none : ((rest.take limit).filter fun entry =>
      present entry && decide (score entry < score last)) = [] := by
    apply List.filter_eq_nil_iff.mpr
    intro entry member both
    simp only [Bool.and_eq_true, decide_eq_true_eq] at both
    have onPage : entry ∈ page present limit rest := List.mem_filter.mpr ⟨member, both.1⟩
    exact absurd both.2 (not_lt_of_ge (score_le_of_mem_page sorted shown onPage))
  have split : rest = rest.take limit ++ rest.drop limit := (List.take_append_drop _ _).symm
  calc (below score last rest).filter present
      = rest.filter fun entry => present entry && decide (score entry < score last) := by
        rw [below, List.filter_filter]
    _ = (rest.drop limit).filter fun entry =>
          present entry && decide (score entry < score last) := by
        conv_lhs => rw [split, List.filter_append, none, List.nil_append]
    _ = _ := by
        rw [List.filter_filter]
        simp [Bool.and_comm]

theorem filter_eq_page_append : rest.filter present =
    page present limit rest ++ (rest.drop limit).filter present := by
  rw [page, ← List.filter_append, List.take_append_drop]

theorem pages_sublist (sorted : rest.Pairwise fun first second => score second ≤ score first)
    (fuel : Nat) : (pages score present limit fuel rest).Sublist (rest.filter present) := by
  induction fuel generalizing rest with
  | zero => exact List.nil_sublist _
  | succ fuel ih =>
    rw [pages]
    cases shown : (page present limit rest).getLast? with
    | none => exact List.nil_sublist _
    | some last =>
      have later := ih (sorted_below sorted last)
      rw [filter_below sorted shown] at later
      rw [filter_eq_page_append]
      exact (later.trans List.filter_sublist).append_left _

theorem pages_of_enough {fuel more : Nat} (enough : rest.length < fuel)
    (enoughMore : rest.length < more) :
    pages score present limit fuel rest = pages score present limit more rest := by
  induction fuel generalizing rest more with
  | zero => omega
  | succ fuel ih =>
    cases more with
    | zero => omega
    | succ more =>
      rw [pages, pages]
      cases shown : (page present limit rest).getLast? with
      | none => rfl
      | some last =>
        have shorter : (below score last rest).length < rest.length :=
          length_below_lt (mem_of_shown shown).1
        simp only [ih (by omega : (below score last rest).length < fuel)
          (by omega : (below score last rest).length < more)]

/-- Everything present is shown exactly if it can be paged through. -/
theorem pages_eq_iff (sorted : rest.Pairwise fun first second => score second ≤ score first)
    {fuel : Nat} (enough : rest.length < fuel) :
    pages score present limit fuel rest = rest.filter present ↔
      Paged score present limit rest := by
  induction fuel generalizing rest with
  | zero => omega
  | succ fuel ih =>
    rw [pages]
    cases shown : (page present limit rest).getLast? with
    | none =>
      constructor
      · intro nothing
        apply Paged.nothing
        intro entry member
        have dropped := List.filter_eq_nil_iff.mp nothing.symm entry member
        simpa using dropped
      · intro paged
        cases paged with
        | nothing absent =>
          symm
          apply List.filter_eq_nil_iff.mpr
          intro entry member
          simp [absent entry member]
        | page also => cases shown.symm.trans also
    | some last =>
      have within := (mem_of_shown shown).1
      have shorter : (below score last rest).length < rest.length := length_below_lt within
      have further := ih (sorted_below sorted last) (by omega)
      have shows : pages score present limit fuel (below score last rest) =
            (rest.drop limit).filter present ↔
          (∀ entry ∈ rest.drop limit, present entry = true → score entry < score last) ∧
            pages score present limit fuel (below score last rest) =
              (below score last rest).filter present := by
        have part : (pages score present limit fuel (below score last rest)).Sublist
            ((below score last rest).filter present) :=
          pages_sublist (sorted_below sorted last) fuel
        rw [filter_below sorted shown] at part ⊢
        constructor
        · intro all
          rw [all] at part
          have same := List.Sublist.antisymm List.filter_sublist part
          have apart := List.filter_eq_self.mp same
          refine ⟨fun entry member isPresent => ?_, all.trans same.symm⟩
          simpa using apart entry (List.mem_filter.mpr ⟨member, isPresent⟩)
        · rintro ⟨apart, all⟩
          rw [all, List.filter_eq_self]
          intro entry member
          obtain ⟨behind, isPresent⟩ := List.mem_filter.mp member
          simpa using apart entry behind isPresent
      have whole : rest.filter present =
          page present limit rest ++ (rest.drop limit).filter present := filter_eq_page_append
      rw [whole, List.append_cancel_left_eq, shows, further]
      constructor
      · rintro ⟨apart, later⟩
        exact .page shown apart later
      · intro paged
        cases paged with
        | nothing absent =>
          have isPresent := (mem_of_shown shown).2
          rw [absent last within] at isPresent
          cases isPresent
        | page also apart later =>
          obtain rfl := Option.some.inj (shown.symm.trans also)
          exact ⟨apart, later⟩

end Pagination
