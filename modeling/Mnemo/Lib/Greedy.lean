import Mathlib.Data.List.MinMax
import Mathlib.Data.List.Perm.Basic

/-!
# Greedy selection

Items are selected one after the other, each with the highest score among those that remain; the
score may depend on the items selected so far.
-/

namespace Greedy

variable {Item Value : Type*} [DecidableEq Item] [LinearOrder Value]

/-- The candidates other than a given one. -/
def remaining (candidates : List Item) (best : Item) : List Item := candidates.filter (· ≠ best)

theorem length_remaining_lt {candidates : List Item} {best : Item} (member : best ∈ candidates) :
    (remaining candidates best).length < candidates.length :=
  List.length_filter_lt_length_iff_exists.mpr ⟨best, member, by simp⟩

/-- Select among the candidates, the first of the best at a time, behind the given items. -/
def select (score : List Item → Item → Value) (selected candidates : List Item) :
    List (Item × Value) :=
  match chosen : candidates.argmax (score selected) with
  | none => []
  | some best =>
      (best, score selected best) ::
        select score (selected ++ [best]) (remaining candidates best)
termination_by candidates.length
decreasing_by exact length_remaining_lt (List.argmax_mem chosen)

variable {score : List Item → Item → Value} {selected candidates : List Item}

@[simp]
theorem select_nil : select score selected [] = [] := by
  rw [select]
  rfl

theorem select_of_argmax {best : Item} (chosen : candidates.argmax (score selected) = some best) :
    select score selected candidates = (best, score selected best) ::
      select score (selected ++ [best]) (remaining candidates best) := by
  rw [select]
  split
  next absent => exact nomatch absent.symm.trans chosen
  next other found =>
    obtain rfl := Option.some.inj (found.symm.trans chosen)
    rfl

theorem perm_cons_remaining {best : Item} (nodup : candidates.Nodup) (member : best ∈ candidates) :
    (best :: remaining candidates best).Perm candidates := by
  have erased : remaining candidates best = candidates.erase best := by
    rw [remaining, nodup.erase_eq_filter]
    exact List.filter_congr fun item _ => by simp [bne, BEq.beq]
  rw [erased]
  exact (List.perm_cons_erase member).symm

theorem select_perm (nodup : candidates.Nodup) :
    ((select score selected candidates).map Prod.fst).Perm candidates := by
  induction count : candidates.length using Nat.strong_induction_on
    generalizing selected candidates with
  | _ count ih =>
    subst count
    cases chosen : candidates.argmax (score selected) with
    | none =>
      obtain rfl := List.argmax_eq_none.mp chosen
      rw [select_nil, List.map_nil]
    | some best =>
      have member := List.argmax_mem chosen
      rw [select_of_argmax chosen, List.map_cons]
      have rest : ((select score (selected ++ [best])
          (remaining candidates best)).map Prod.fst).Perm (remaining candidates best) :=
        ih _ (length_remaining_lt member) (nodup.filter _) rfl
      exact (rest.cons best).trans (perm_cons_remaining nodup member)

/-- Whatever is selected has the highest score among the candidates that were not selected before
it. -/
theorem select_maximal {front back : List (Item × Value)} {best : Item} {value : Value}
    (result : select score selected candidates = front ++ (best, value) :: back) :
    best ∈ candidates ∧ value = score (selected ++ front.map Prod.fst) best ∧
      ∀ other ∈ candidates, other ∉ front.map Prod.fst →
        score (selected ++ front.map Prod.fst) other ≤
          score (selected ++ front.map Prod.fst) best := by
  induction front generalizing selected candidates with
  | nil =>
    cases chosen : candidates.argmax (score selected) with
    | none =>
      obtain rfl := List.argmax_eq_none.mp chosen
      rw [select_nil] at result
      exact nomatch result
    | some first =>
      rw [select_of_argmax chosen, List.nil_append] at result
      obtain ⟨same, -⟩ := List.cons.inj result
      obtain ⟨rfl, rfl⟩ := Prod.mk.inj same
      rw [List.map_nil, List.append_nil]
      exact ⟨List.argmax_mem chosen, rfl, fun other member _ =>
        List.le_of_mem_argmax member chosen⟩
  | cons entry front ih =>
    cases chosen : candidates.argmax (score selected) with
    | none =>
      obtain rfl := List.argmax_eq_none.mp chosen
      rw [select_nil] at result
      exact nomatch result
    | some first =>
      rw [select_of_argmax chosen, List.cons_append] at result
      obtain ⟨rfl, rest⟩ := List.cons.inj result
      have items : selected ++ [first] ++ front.map Prod.fst =
          selected ++ ((first, score selected first) :: front).map Prod.fst := by
        rw [List.append_assoc, List.map_cons, List.singleton_append]
      obtain ⟨member, same, highest⟩ := ih rest
      rw [items] at same highest
      refine ⟨List.mem_of_mem_filter member, same, fun other known fresh => ?_⟩
      rw [List.map_cons, List.mem_cons, not_or] at fresh
      exact highest other (List.mem_filter.mpr ⟨known, by simpa using fresh.1⟩) fresh.2

end Greedy
