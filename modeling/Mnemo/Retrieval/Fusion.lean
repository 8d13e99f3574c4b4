import Mathlib
import Mnemo.Retrieval.Merge

/-!
# Reciprocal rank fusion

Every source adds to the score of an item what its rank there is worth, and the items are sorted by
their scores.  Sources that agree on two items are heeded: the one that all of them rank first comes
first.
-/

namespace Mnemo
namespace Retrieval

open AssocMap

/-- By how much the first ranks are brought together. -/
def rrfK : ℚ := 60

/-- What a rank in one source is worth. -/
def rrfContrib (rank : Nat) : ℚ := 1 / (rrfK + rank + 1)

/-- Add what the rank of a hit is worth. -/
def addRank (scores : Relevance) (ranked : ScoredHit × Nat) : Relevance :=
  scores.insert ranked.1.id (valueD 0 scores ranked.1.id + rrfContrib ranked.2)

/-- The scores of the items of all sources. -/
def rrfScores (sources : List (List ScoredHit)) : Relevance :=
  sources.foldl (fun scores hits => hits.zipIdx.foldl addRank scores) ∅

/-- Merge ranked lists into one, the highest score first. -/
def rrfMerge (enumeration : Enumeration) (sources : List (List ScoredHit)) : List (Uuid × ℚ) :=
  let scores := rrfScores sources
  let listed := (enumeration.order scores.keys).map fun id => (id, valueD 0 scores id)
  listed.mergeSort fun one two => two.2 ≤ one.2

/-! ## Scores -/

/-- What one source adds to the score of an item, when its first hit has the given rank. -/
def rankScore (id : Uuid) : Nat → List ScoredHit → ℚ
  | _, [] => 0
  | rank, hit :: hits =>
      (if id = hit.id then rrfContrib rank else 0) + rankScore id (rank + 1) hits

theorem rrfContrib_pos (rank : Nat) : 0 < rrfContrib rank := by
  unfold rrfContrib rrfK
  positivity

theorem rrfContrib_succ_lt (rank : Nat) : rrfContrib (rank + 1) < rrfContrib rank := by
  unfold rrfContrib rrfK
  push_cast
  gcongr
  linarith

theorem foldl_addRank (hits : List ScoredHit) (rank : Nat) (scores : Relevance) (id : Uuid) :
    (id ∈ (hits.zipIdx rank).foldl addRank scores ↔ id ∈ hits.map ScoredHit.id ∨ id ∈ scores) ∧
      valueD 0 ((hits.zipIdx rank).foldl addRank scores) id =
        valueD 0 scores id + rankScore id rank hits := by
  induction hits generalizing rank scores with
  | nil => simp [rankScore]
  | cons hit hits ih =>
    obtain ⟨members, value⟩ := ih (rank + 1) (addRank scores (hit, rank))
    rw [List.zipIdx_cons, List.foldl_cons, members, value, addRank, AList.mem_insert,
      valueD_insert, rankScore, List.map_cons, List.mem_cons]
    refine ⟨by tauto, ?_⟩
    by_cases same : id = hit.id
    · simp [same, add_assoc]
    · simp [same]

theorem rrfScores_spec (sources : List (List ScoredHit)) (id : Uuid) :
    (id ∈ rrfScores sources ↔ id ∈ candidateIds sources) ∧
      valueD 0 (rrfScores sources) id = (sources.map (rankScore id 0)).sum := by
  suffices general : ∀ scores : Relevance,
      (id ∈ sources.foldl (fun scores hits => hits.zipIdx.foldl addRank scores) scores ↔
        id ∈ candidateIds sources ∨ id ∈ scores) ∧
      valueD 0 (sources.foldl (fun scores hits => hits.zipIdx.foldl addRank scores) scores) id =
        valueD 0 scores id + (sources.map (rankScore id 0)).sum by
    obtain ⟨members, value⟩ := general ∅
    rw [valueD_empty, zero_add] at value
    exact ⟨members.trans (or_iff_left (AList.notMem_empty id)), value⟩
  induction sources with
  | nil => simp [candidateIds]
  | cons hits sources ih =>
    intro scores
    obtain ⟨members, value⟩ := ih (hits.zipIdx.foldl addRank scores)
    obtain ⟨added, worth⟩ := foldl_addRank hits 0 scores id
    rw [List.foldl_cons, members, value, added, worth, List.map_cons, List.sum_cons, add_assoc]
    refine ⟨?_, rfl⟩
    simp only [candidateIds, List.mem_dedup, List.flatten_cons, List.map_append, List.mem_append]
    tauto

theorem rankScore_nonneg (id : Uuid) (rank : Nat) (hits : List ScoredHit) :
    0 ≤ rankScore id rank hits := by
  induction hits generalizing rank with
  | nil => exact le_rfl
  | cons hit hits ih =>
    rw [rankScore]
    split
    · exact add_nonneg (rrfContrib_pos rank).le (ih _)
    · exact add_nonneg le_rfl (ih _)

theorem rankScore_of_notMem {id : Uuid} {hits : List ScoredHit} (rank : Nat)
    (absent : id ∉ hits.map ScoredHit.id) : rankScore id rank hits = 0 := by
  induction hits generalizing rank with
  | nil => rfl
  | cons hit hits ih =>
    rw [List.map_cons, List.mem_cons, not_or] at absent
    rw [rankScore, if_neg absent.1, ih _ absent.2, add_zero]

theorem rankScore_le {id : Uuid} {hits : List ScoredHit} (rank : Nat)
    (nodup : (hits.map ScoredHit.id).Nodup) : rankScore id rank hits ≤ rrfContrib rank := by
  induction hits generalizing rank with
  | nil => exact (rrfContrib_pos rank).le
  | cons hit hits ih =>
    obtain ⟨absent, rest⟩ := List.nodup_cons.mp nodup
    rw [rankScore]
    by_cases same : id = hit.id
    · subst same
      rw [if_pos rfl, rankScore_of_notMem _ absent, add_zero]
    · rw [if_neg same, zero_add]
      exact (ih _ rest).trans (rrfContrib_succ_lt rank).le

theorem rankScore_lt {first second : Uuid} {hits : List ScoredHit} (rank : Nat)
    (nodup : (hits.map ScoredHit.id).Nodup)
    (before : [first, second].Sublist (hits.map ScoredHit.id)) :
    rankScore second rank hits < rankScore first rank hits := by
  induction hits generalizing rank with
  | nil => cases before
  | cons hit hits ih =>
    obtain ⟨absent, rest⟩ := List.nodup_cons.mp nodup
    rw [List.map_cons] at before
    cases before with
    | cons _ later =>
      -- the first hit is neither of the two
      have other (id : Uuid) (listed : id ∈ [first, second]) : id ≠ hit.id := by
        rintro rfl
        exact absent (later.subset listed)
      rw [rankScore, rankScore, if_neg (other first (by simp)),
        if_neg (other second (by simp)), zero_add, zero_add]
      exact ih _ rest later
    | cons_cons _ later =>
      have other : second ≠ hit.id := by
        rintro rfl
        exact absent (later.subset (List.mem_singleton_self _))
      rw [rankScore, rankScore, if_neg other, if_pos rfl, zero_add]
      calc rankScore second (rank + 1) hits
          ≤ rrfContrib (rank + 1) := rankScore_le _ rest
        _ < rrfContrib rank := rrfContrib_succ_lt rank
        _ ≤ rrfContrib rank + rankScore hit.id (rank + 1) hits :=
            le_add_of_nonneg_right (rankScore_nonneg _ _ _)

/-! ## The merged list -/

/-- Every source that lists the second item lists the first one before it, and one source does. -/
def Agreed (sources : List (List ScoredHit)) (first second : Uuid) : Prop :=
  second ∈ candidateIds sources ∧ ∀ hits ∈ sources, second ∈ hits.map ScoredHit.id →
    [first, second].Sublist (hits.map ScoredHit.id)

/-- What fusion gives: every item once, with its score, the highest score first, and items on which
the sources agree in the agreed order. -/
structure Fused (sources : List (List ScoredHit)) (ranked : List (Uuid × ℚ)) : Prop where
  perm : (ranked.map Prod.fst).Perm (candidateIds sources)
  score : ∀ entry ∈ ranked, entry.2 = (sources.map (rankScore entry.1 0)).sum
  sorted : ranked.Pairwise fun one two => two.2 ≤ one.2
  agreed : (∀ hits ∈ sources, (hits.map ScoredHit.id).Nodup) → ∀ first second,
    Agreed sources first second → [first, second].Sublist (ranked.map Prod.fst)

theorem sum_rankScore_lt {sources : List (List ScoredHit)} {first second : Uuid}
    (nodup : ∀ hits ∈ sources, (hits.map ScoredHit.id).Nodup)
    (agreed : Agreed sources first second) :
    (sources.map (rankScore second 0)).sum < (sources.map (rankScore first 0)).sum := by
  obtain ⟨listed, before⟩ := agreed
  apply List.sum_lt_sum
  · intro hits member
    by_cases here : second ∈ hits.map ScoredHit.id
    · exact (rankScore_lt 0 (nodup hits member) (before hits member here)).le
    · rw [rankScore_of_notMem 0 here]
      exact rankScore_nonneg _ _ _
  · rw [candidateIds, List.mem_dedup, List.map_flatten, List.mem_flatten] at listed
    obtain ⟨ids, member, here⟩ := listed
    obtain ⟨hits, source, rfl⟩ := List.mem_map.mp member
    exact ⟨hits, source, rankScore_lt 0 (nodup hits source) (before hits source here)⟩

theorem sublist_of_lt {ranked : List (Uuid × ℚ)}
    (sorted : ranked.Pairwise fun one two => two.2 ≤ one.2) {one two : Uuid × ℚ}
    (first : one ∈ ranked) (second : two ∈ ranked) (higher : two.2 < one.2) :
    [one.1, two.1].Sublist (ranked.map Prod.fst) := by
  induction sorted with
  | nil => cases first
  | @cons entry ranked above _ ih =>
    rcases List.mem_cons.mp second with rfl | later
    · rcases List.mem_cons.mp first with rfl | below
      · exact absurd higher (lt_irrefl _)
      · exact absurd higher (not_lt.mpr (above one below))
    · rcases List.mem_cons.mp first with rfl | also
      · exact (List.singleton_sublist.mpr (List.mem_map_of_mem later)).cons_cons _
      · exact (ih also later).cons _

/-- Reciprocal rank fusion sorts the distinct items of the sources by their scores, and heeds what
the sources agree on. -/
theorem rrfMerge_fused (enumeration : Enumeration) (sources : List (List ScoredHit)) :
    Fused sources (rrfMerge enumeration sources) := by
  let listed := (enumeration.order (rrfScores sources).keys).map fun id =>
    (id, valueD 0 (rrfScores sources) id)
  have sort : (rrfMerge enumeration sources).Perm listed := List.mergeSort_perm _ _
  have ids : listed.map Prod.fst = enumeration.order (rrfScores sources).keys := by
    simp [listed, Function.comp_def]
  have perm : ((rrfMerge enumeration sources).map Prod.fst).Perm (candidateIds sources) := by
    refine (sort.map _).trans (ids ▸ (enumeration.perm _).trans ?_)
    refine (List.perm_ext_iff_of_nodup (AList.keys_nodup _) (List.nodup_dedup _)).mpr fun id => ?_
    rw [← AList.mem_keys, (rrfScores_spec sources id).1, candidateIds]
  have score : ∀ entry ∈ rrfMerge enumeration sources,
      entry.2 = (sources.map (rankScore entry.1 0)).sum := by
    intro entry member
    obtain ⟨id, _, rfl⟩ := List.mem_map.mp (sort.mem_iff.mp member)
    exact (rrfScores_spec sources id).2
  have sorted : (rrfMerge enumeration sources).Pairwise fun one two => two.2 ≤ one.2 := by
    have ordered := @List.pairwise_mergeSort _ (fun one two => decide (two.2 ≤ one.2))
      (fun _ _ _ above below => decide_eq_true
        ((of_decide_eq_true below).trans (of_decide_eq_true above)))
      (fun one two => by simpa using le_total two.2 one.2) listed
    exact ordered.imp of_decide_eq_true
  refine ⟨perm, score, sorted, fun nodup first second agreed => ?_⟩
  have higher := sum_rankScore_lt nodup agreed
  obtain ⟨hits, source, here⟩ : ∃ hits ∈ sources, second ∈ hits.map ScoredHit.id := by
    simpa [candidateIds] using agreed.1
  have known : first ∈ candidateIds sources := by
    have there := (agreed.2 hits source here).subset List.mem_cons_self
    rw [candidateIds, List.mem_dedup, List.map_flatten, List.mem_flatten]
    exact ⟨_, List.mem_map_of_mem source, there⟩
  obtain ⟨one, first_member, rfl⟩ := List.mem_map.mp (perm.mem_iff.mpr known)
  obtain ⟨two, second_member, rfl⟩ := List.mem_map.mp (perm.mem_iff.mpr agreed.1)
  apply sublist_of_lt sorted first_member second_member
  rwa [score one first_member, score two second_member]

end Retrieval
end Mnemo
