import Mathlib

/-!
# Pages with a cursor of their own

Entries in ascending order of score are shown page by page.  A full page hands out a cursor, which
is computed from its last entry but need not be its score, and the next page shows what is above
the cursor; a page that is not full is the last.
-/

namespace Cursor

variable {Entry Score : Type} [LinearOrder Score] (score cursor : Entry → Score)
  (limit : Nat)

/-- The entries above a cursor, or all of them. -/
def above (entries : List Entry) (bound : Option Score) : List Entry :=
  entries.filter fun entry => bound.all fun cursor => decide (cursor < score entry)

/-- What at most as many pages as the fuel show, if one of them is the last. -/
def follow (entries : List Entry) : Nat → Option Score → Option (List Entry)
  | 0, _ => none
  | fuel + 1, bound =>
      let shown := (above score entries bound).take limit
      if shown.length = limit then
        match shown.getLast? with
        | none => some shown
        | some last => (follow entries fuel (some (cursor last))).map (shown ++ ·)
      else some shown

/-- The cursor of every full page stands between its last entry and the next one. -/
inductive Stepwise : List Entry → Prop
  | last {rest : List Entry} (short : rest.length < limit) : Stepwise rest
  | page {rest : List Entry} {last : Entry} (full : limit ≤ rest.length)
      (shown : (rest.take limit).getLast? = some last) (reached : score last ≤ cursor last)
      (apart : ∀ entry ∈ rest.drop limit, cursor last < score entry)
      (later : Stepwise (rest.drop limit)) : Stepwise rest

variable {score cursor limit} {entries front rest : List Entry} {bound : Option Score}

/-- The entries above a bound are those behind it. -/
theorem above_append (before : ∀ entry ∈ front, ∀ cursor, bound = some cursor →
      score entry ≤ cursor)
    (none_before : bound = none → front = [])
    (behind : ∀ entry ∈ rest, ∀ cursor, bound = some cursor → cursor < score entry) :
    above score (front ++ rest) bound = rest := by
  unfold above
  cases bound with
  | none =>
    rw [none_before rfl]
    simp
  | some cursor =>
    rw [List.filter_append]
    have nothing : front.filter (fun entry => (some cursor).all
        fun cursor => decide (cursor < score entry)) = [] := by
      apply List.filter_eq_nil_iff.mpr
      intro entry member
      simpa using before entry member cursor rfl
    have everything : rest.filter (fun entry => (some cursor).all
        fun cursor => decide (cursor < score entry)) = rest := by
      apply List.filter_eq_self.mpr
      intro entry member
      simpa using behind entry member cursor rfl
    rw [nothing, everything, List.nil_append]

theorem score_le_last (sorted : rest.Pairwise fun first second => score first ≤ score second)
    {last : Entry} (shown : (rest.take limit).getLast? = some last) :
    ∀ entry ∈ rest.take limit, score entry ≤ score last := by
  intro entry member
  have ordered : (rest.take limit).Pairwise fun first second => score first ≤ score second :=
    sorted.sublist (List.take_sublist _ _)
  obtain ⟨others, split⟩ := List.getLast?_eq_some_iff.mp shown
  rw [split] at member ordered
  rcases List.mem_append.mp member with before | same
  · exact (List.pairwise_append.mp ordered).2.2 entry before last (List.mem_singleton_self last)
  · rw [List.mem_singleton.mp same]

/-- Stepwise pages show everything, in its order. -/
theorem follow_of_stepwise (front : List Entry)
    (sorted : (front ++ rest).Pairwise fun first second => score first ≤ score second)
    (stepwise : Stepwise score cursor limit rest) (positive : 0 < limit)
    (here : above score (front ++ rest) bound = rest) {fuel : Nat} (enough : rest.length < fuel) :
    follow score cursor limit (front ++ rest) fuel bound = some rest := by
  induction stepwise generalizing front bound fuel with
  | @last rest short =>
    obtain ⟨fuel, rfl⟩ := Nat.exists_eq_add_of_lt (Nat.zero_lt_of_lt enough)
    unfold follow
    have whole : rest.take limit = rest := List.take_of_length_le (Nat.le_of_lt short)
    simp only [here, whole]
    rw [if_neg (by omega)]
  | @page rest last full shown reached apart later ih =>
    obtain ⟨fuel, rfl⟩ := Nat.exists_eq_add_of_lt (Nat.zero_lt_of_lt enough)
    have split : front ++ rest = (front ++ rest.take limit) ++ rest.drop limit := by
      rw [List.append_assoc, List.take_append_drop]
    have ordered := List.pairwise_append.mp sorted
    have next : above score ((front ++ rest.take limit) ++ rest.drop limit)
        (some (cursor last)) = rest.drop limit := by
      apply above_append
      · intro entry member bound same
        obtain rfl := Option.some.inj same
        have onPage : last ∈ rest := List.mem_of_mem_take (List.mem_of_getLast? shown)
        rcases List.mem_append.mp member with before | page
        · exact (ordered.2.2 entry before last onPage).trans reached
        · exact (score_le_last ordered.2.1 shown entry page).trans reached
      · exact nofun
      · intro entry member bound same
        obtain rfl := Option.some.inj same
        exact apart entry member
    rw [split] at sorted here ⊢
    have further : follow score cursor limit (front ++ rest.take limit ++ rest.drop limit) fuel
        (some (cursor last)) = some (rest.drop limit) := by
      apply ih _ sorted next
      rw [List.length_drop]
      omega
    have length : (rest.take limit).length = limit := by
      rw [List.length_take]
      omega
    rw [show 0 + fuel + 1 = fuel + 1 by omega]
    unfold follow
    simp only [here, shown]
    rw [if_pos length, further]
    simp

/-- What is above the cursor of a page stands behind the page, when the cursor is not below the
score of its entry. -/
theorem above_cursor (sorted : entries.Pairwise fun first second => score first ≤ score second)
    {last : Entry} (shown : ((above score entries bound).take limit).getLast? = some last)
    (timely : score last ≤ cursor last) :
    above score entries (some (cursor last)) =
      ((above score entries bound).drop limit).filter fun entry =>
        decide (cursor last < score entry) := by
  have ordered : (above score entries bound).Pairwise
      fun first second => score first ≤ score second := sorted.sublist List.filter_sublist
  have member : last ∈ above score entries bound :=
    List.mem_of_mem_take (List.mem_of_getLast? shown)
  have passed := (List.mem_filter.mp member).2
  have nothing : ((above score entries bound).take limit).filter (fun entry =>
      decide (cursor last < score entry)) = [] := by
    apply List.filter_eq_nil_iff.mpr
    intro entry onPage
    have low := (score_le_last ordered shown entry onPage).trans timely
    simpa using low
  have within : above score entries (some (cursor last)) =
      (above score entries bound).filter fun entry => decide (cursor last < score entry) := by
    unfold above
    rw [List.filter_filter]
    apply List.filter_congr
    intro entry _
    cases bound with
    | none => simp
    | some bound =>
      have low : bound < score last := by simpa using passed
      by_cases high : cursor last < score entry
      · simp [high, low.trans_le (timely.trans high.le)]
      · simp [high]
  rw [within]
  conv_lhs => rw [← List.take_append_drop limit (above score entries bound), List.filter_append,
    nothing, List.nil_append]

/-- When no cursor is below the score of its entry, following the cursors shows each entry above the
bound at most once, in its order. -/
theorem sublist_of_follow (timely : ∀ entry ∈ entries, score entry ≤ cursor entry)
    (sorted : entries.Pairwise fun first second => score first ≤ score second) {fuel : Nat}
    {shown : List Entry} (followed : follow score cursor limit entries fuel bound = some shown) :
    shown.Sublist (above score entries bound) := by
  induction fuel generalizing bound shown with
  | zero => exact nomatch followed
  | succ fuel ih =>
    unfold follow at followed
    dsimp only at followed
    split at followed
    · split at followed
      · obtain rfl := Option.some.inj followed
        exact List.take_sublist _ _
      · rename_i last page
        obtain ⟨others, later, rfl⟩ := Option.map_eq_some_iff.mp followed
        have member : last ∈ entries :=
          List.mem_of_mem_filter (List.mem_of_mem_take (List.mem_of_getLast? page))
        have onward := ih later
        rw [above_cursor sorted page (timely last member)] at onward
        have whole := (List.Sublist.refl ((above score entries bound).take limit)).append
          (onward.trans List.filter_sublist)
        rwa [List.take_append_drop] at whole
    · obtain rfl := Option.some.inj followed
      exact List.take_sublist _ _

/-- When no cursor is below the score of its entry, pages that show everything are stepwise. -/
theorem stepwise_of_follow (timely : ∀ entry ∈ entries, score entry ≤ cursor entry)
    (sorted : entries.Pairwise fun first second => score first ≤ score second)
    (positive : 0 < limit) {fuel : Nat}
    (followed : follow score cursor limit entries fuel bound = some (above score entries bound)) :
    Stepwise score cursor limit (above score entries bound) := by
  induction fuel generalizing bound with
  | zero => exact nomatch followed
  | succ fuel ih =>
    unfold follow at followed
    dsimp only at followed
    split at followed
    · rename_i length
      have full : limit ≤ (above score entries bound).length := by
        rw [List.length_take] at length
        omega
      split at followed
      · rename_i nothing
        rw [List.getLast?_eq_none_iff] at nothing
        rw [nothing] at length
        exact absurd length (Nat.ne_of_lt positive)
      · rename_i last page
        obtain ⟨others, later, whole⟩ := Option.map_eq_some_iff.mp followed
        have member : last ∈ entries :=
          List.mem_of_mem_filter (List.mem_of_mem_take (List.mem_of_getLast? page))
        have behind := above_cursor sorted page (timely last member)
        have rest : others = (above score entries bound).drop limit := by
          have split : (above score entries bound).take limit ++ others =
              (above score entries bound).take limit ++ (above score entries bound).drop limit := by
            rw [whole, List.take_append_drop]
          exact List.append_cancel_left split
        have part := sublist_of_follow timely sorted later
        rw [behind, rest] at part
        have same := List.Sublist.antisymm List.filter_sublist part
        rw [same] at behind
        have apart := List.filter_eq_self.mp same
        refine .page full page (timely last member) (fun entry there => ?_) ?_
        · simpa using apart entry there
        · rw [← behind]
          apply ih
          rw [later, rest, behind]
    · rename_i length
      have short : (above score entries bound).length < limit := by
        rw [List.length_take] at length
        omega
      exact .last short

end Cursor
