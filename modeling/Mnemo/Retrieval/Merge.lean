import Mathlib.Algebra.Order.Field.Rat
import Mathlib.Data.Finset.Max
import Mathlib.Order.Bounds.Basic
import Mnemo.Core.Basic
import Mnemo.Lib.AssocMap
import Mnemo.Lib.Greedy

/-!
# Merging ranked hits

Maximal marginal relevance orders the hits of several searches: at each position stands the one
that is most relevant and least similar to those before it.
-/

namespace Mnemo
namespace Retrieval

open AssocMap

/-- An item that a search found. -/
structure ScoredHit where
  id : Uuid
  score : ℚ

/-- The relevance of items. -/
abbrev Relevance : Type := AList fun _ : Uuid => ℚ

/-- Keep the best score of an item, starting from 0. -/
def noteHit (relevance : Relevance) (hit : ScoredHit) : Relevance :=
  let entry := valueD 0 relevance hit.id
  relevance.insert hit.id (if entry < hit.score then hit.score else entry)

/-- The best relevance score of every item in the sources. -/
def relevanceOf (sources : List (List ScoredHit)) : Relevance :=
  sources.foldl (fun relevance hits => hits.foldl noteHit relevance) ∅

/-- The greatest relevance, unless there are no items. -/
def maxRelevance (relevance : Relevance) : Option ℚ := (relevance.entries.map Sigma.snd).max?

/-- Relevance scores relative to the greatest one. -/
def normRelevance (relevance : Relevance) (id : Uuid) : ℚ :=
  match maxRelevance relevance with
  | none => 0
  | some maxRel =>
      if 0 < maxRel then valueD 0 relevance id / maxRel else valueD 0 relevance id

/-- The greatest similarity to an item that is selected, between 0 and 1. -/
def maxSimilarity (similarity : Uuid → Uuid → ℚ) (selected : List Uuid) (candidate : Uuid) : ℚ :=
  match (selected.map (similarity candidate)).max? with
  | none => 0
  | some highest => max 0 (min highest 1)

/-- The score of a candidate behind the items that are selected. -/
def mmrScore (relevance : Uuid → ℚ) (similarity : Uuid → Uuid → ℚ) (lambda : ℚ)
    (selected : List Uuid) (candidate : Uuid) : ℚ :=
  lambda * relevance candidate - (1 - lambda) * maxSimilarity similarity selected candidate

/-- The order in which a hash map lists its keys. -/
structure Enumeration where
  order : List Uuid → List Uuid
  perm : ∀ keys, (order keys).Perm keys

/-- Select items by maximal marginal relevance, for a given similarity and weight. -/
def mmrMergeWith (enumeration : Enumeration) (similarity : Uuid → Uuid → ℚ) (lambda : ℚ)
    (sources : List (List ScoredHit)) : List (Uuid × ℚ) :=
  let relevance := relevanceOf sources
  let candidates := enumeration.order relevance.keys
  Greedy.select (mmrScore (normRelevance relevance) similarity lambda) [] candidates

/-- The weight of relevance against diversity. -/
def mmrLambda : ℚ := 7 / 10

/-- Items of similar relevance are assumed to be similar to each other. -/
def estimatedSimilarity (relevance : Uuid → ℚ) (candidate selected : Uuid) : ℚ :=
  1 - |relevance candidate - relevance selected|

/-- Maximal marginal relevance. -/
def mmrMerge (enumeration : Enumeration) (sources : List (List ScoredHit)) : List (Uuid × ℚ) :=
  mmrMergeWith enumeration (estimatedSimilarity (normRelevance (relevanceOf sources))) mmrLambda
    sources

/-! ## Relevance -/

/-- The distinct items of the sources. -/
def candidateIds (sources : List (List ScoredHit)) : List Uuid :=
  (sources.flatten.map ScoredHit.id).dedup

theorem relevanceOf_eq (sources : List (List ScoredHit)) :
    relevanceOf sources = sources.flatten.foldl noteHit ∅ := by
  rw [relevanceOf, List.foldl_flatten]

theorem mem_noteHit {relevance : Relevance} {hit : ScoredHit} {id : Uuid} :
    id ∈ noteHit relevance hit ↔ id = hit.id ∨ id ∈ relevance := AList.mem_insert _

theorem mem_foldl_noteHit {hits : List ScoredHit} {relevance : Relevance} {id : Uuid} :
    id ∈ hits.foldl noteHit relevance ↔ id ∈ hits.map ScoredHit.id ∨ id ∈ relevance := by
  induction hits generalizing relevance with
  | nil => simp
  | cons hit hits ih =>
    rw [List.foldl_cons, ih, mem_noteHit, List.map_cons, List.mem_cons]
    tauto

theorem keys_perm_candidateIds (sources : List (List ScoredHit)) :
    (relevanceOf sources).keys.Perm (candidateIds sources) := by
  refine (List.perm_ext_iff_of_nodup (relevanceOf sources).keys_nodup (List.nodup_dedup _)).mpr ?_
  intro id
  rw [← AList.mem_keys, relevanceOf_eq, mem_foldl_noteHit, List.mem_dedup,
    or_iff_left (AList.notMem_empty id)]

theorem normRelevance_le_iff {relevance : Relevance} {id other : Uuid} (known : id ∈ relevance) :
    normRelevance relevance other ≤ normRelevance relevance id ↔
      valueD 0 relevance other ≤ valueD 0 relevance id := by
  rw [normRelevance, normRelevance]
  cases highest : maxRelevance relevance with
  | none =>
    rw [maxRelevance, List.max?_eq_none_iff, List.map_eq_nil_iff] at highest
    have absent : relevance = ∅ := AList.ext highest
    rw [absent] at known
    exact absurd known (AList.notMem_empty id)
  | some maxRel =>
    dsimp only
    split
    next positive => exact div_le_div_iff_of_pos_right positive
    next => rfl

/-! ## Selection -/

/-- What a ranking by maximal marginal relevance is: every item once, the most relevant one first,
and at each position an item of the highest score among those that remain. -/
structure Ranking (relevance normalised : Uuid → ℚ) (similarity : Uuid → Uuid → ℚ)
    (lambda : ℚ) (ids : List Uuid) (ranked : List (Uuid × ℚ)) : Prop where
  perm : (ranked.map Prod.fst).Perm ids
  first : 0 < lambda → ∀ first value rest, ranked = (first, value) :: rest →
    ∀ other ∈ ids, relevance other ≤ relevance first
  maximal : ∀ front id value back, ranked = front ++ (id, value) :: back →
    value = mmrScore normalised similarity lambda (front.map Prod.fst) id ∧
    ∀ other ∈ ids, other ∉ front.map Prod.fst →
      mmrScore normalised similarity lambda (front.map Prod.fst) other ≤
        mmrScore normalised similarity lambda (front.map Prod.fst) id

theorem mmrScore_nil (relevance : Uuid → ℚ) (similarity : Uuid → Uuid → ℚ) (lambda : ℚ)
    (candidate : Uuid) :
    mmrScore relevance similarity lambda [] candidate = lambda * relevance candidate := by
  rw [mmrScore, maxSimilarity]
  simp

/-- Merging by maximal marginal relevance ranks the distinct items of the sources. -/
theorem mmrMergeWith_ranking (enumeration : Enumeration) (similarity : Uuid → Uuid → ℚ)
    (lambda : ℚ) (sources : List (List ScoredHit)) :
    Ranking (valueD 0 (relevanceOf sources)) (normRelevance (relevanceOf sources)) similarity
      lambda (candidateIds sources) (mmrMergeWith enumeration similarity lambda sources) := by
  have keys := enumeration.perm (relevanceOf sources).keys
  have nodup := keys.nodup_iff.mpr (relevanceOf sources).keys_nodup
  have members : ∀ id, id ∈ enumeration.order (relevanceOf sources).keys ↔
      id ∈ candidateIds sources := fun id =>
    keys.mem_iff.trans (keys_perm_candidateIds sources).mem_iff
  have maximal : ∀ front id value back,
      mmrMergeWith enumeration similarity lambda sources = front ++ (id, value) :: back →
      value = mmrScore (normRelevance (relevanceOf sources)) similarity lambda
        (front.map Prod.fst) id ∧
      ∀ other ∈ candidateIds sources, other ∉ front.map Prod.fst →
        mmrScore (normRelevance (relevanceOf sources)) similarity lambda
          (front.map Prod.fst) other ≤
        mmrScore (normRelevance (relevanceOf sources)) similarity lambda
          (front.map Prod.fst) id := by
    intro front id value back result
    obtain ⟨-, same, highest⟩ := Greedy.select_maximal result
    exact ⟨same, fun other known => highest other ((members other).mpr known)⟩
  refine ⟨?_, ?_, maximal⟩
  · exact (Greedy.select_perm nodup).trans (keys.trans (keys_perm_candidateIds sources))
  · intro positive first value rest result other known
    have headed : mmrMergeWith enumeration similarity lambda sources =
        [] ++ (first, value) :: rest := result
    obtain ⟨member, -, -⟩ := Greedy.select_maximal headed
    obtain ⟨-, highest⟩ := maximal [] first value rest headed
    have least := highest other known (List.not_mem_nil)
    rw [List.map_nil, mmrScore_nil, mmrScore_nil, mul_le_mul_iff_right₀ positive] at least
    exact (normRelevance_le_iff (AList.mem_keys.mpr (keys.mem_iff.mp member))).mp least

/-! ## The limits of the ranking -/

/-- A hash map that lists its keys in the order they were added. -/
def Enumeration.insertion : Enumeration := ⟨List.reverse, fun keys => keys.reverse_perm⟩

/-- Two hits, the less relevant one first. -/
def twoHits : List (List ScoredHit) := [[⟨1, 1 / 2⟩, ⟨2, 1⟩]]

/-- Three hits. -/
def threeHits : List (List ScoredHit) := [[⟨0, 1⟩, ⟨1, 9 / 10⟩, ⟨2, 8 / 10⟩]]

/-- A similarity beyond 1. -/
def strongSimilarity (candidate _selected : Uuid) : ℚ := if candidate = 1 then 3 else 1

/-- Without weight the most relevant item need not come first, and a similarity beyond 1 counts
only as 1. -/
theorem mmr_without_weight :
    ((mmrMergeWith .insertion (fun _ _ => 0) 0 twoHits).head?.map Prod.fst = some 1 ∧
      valueD 0 (relevanceOf twoHits) 1 < valueD 0 (relevanceOf twoHits) 2) ∧
    (((mmrMergeWith .insertion strongSimilarity mmrLambda threeHits).map Prod.fst).take 2 =
        [0, 1] ∧
      mmrLambda * normRelevance (relevanceOf threeHits) 1 - (1 - mmrLambda) * strongSimilarity 1 0 <
        mmrLambda * normRelevance (relevanceOf threeHits) 2 -
          (1 - mmrLambda) * strongSimilarity 2 0) := by
  refine ⟨⟨?_, by decide +kernel⟩, ?_, by decide +kernel⟩
  · rw [mmrMergeWith, @Greedy.select_of_argmax _ _ _ _ _ _ _ 1 (by decide +kernel)]
    rfl
  · rw [mmrMergeWith, @Greedy.select_of_argmax _ _ _ _ _ _ _ 0 (by decide +kernel),
      @Greedy.select_of_argmax _ _ _ _ _ _ _ 1 (by decide +kernel)]
    rfl

end Retrieval
end Mnemo
