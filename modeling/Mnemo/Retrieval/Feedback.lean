import Mathlib.Algebra.BigOperators.Fin
import Mathlib.Algebra.Order.Field.Rat
import Mathlib.Data.List.FinRange
import Mathlib.Logic.Equiv.Fin.Basic
import Mathlib.Tactic.Ring
import Mnemo.Core.Basic

/-!
# Feedback to the ranking network

Candidates are scored by a graph attention network over the candidates and their edges, and feedback on
them changes the output layer.  The errors are those of the sorted candidates, while the features are
those of the candidates in their own order.
-/

namespace Mnemo
namespace Gnn

def numHeads : Nat := 4

def headDim : Nat := 8

/-- A candidate with its features and the score that it came with. -/
structure CandidateNode (K : Type) where
  id : Uuid
  fusionScore : K
  features : List K

/-- An edge between two candidates, by their positions. -/
structure SubgraphEdge (K : Type) where
  sourceIdx : Nat
  targetIdx : Nat
  weight : K

/-- Some candidates and the edges between them. -/
structure LocalSubgraph (K : Type) (n : Nat) where
  nodes : Fin n → CandidateNode K
  edges : List (SubgraphEdge K)

/-- The weights of the network; the matrix of a head is kept in rows. -/
structure GatWeights (K : Type) where
  wHeads : Fin numHeads → Nat → K
  aHeads : Fin numHeads → Nat → K
  outputProj : Fin numHeads → Fin headDim → K
  outputBias : K
  inputDim : Nat
  updateCount : Nat

/-- A candidate with its new scores. -/
structure RerankedCandidate (K : Type) where
  id : Uuid
  fusionScore : K
  gnnScore : K
  finalScore : K

section Network

variable {K : Type} [Field K] [LinearOrder K] {n : Nat} (exp : K → K) (weights : GatWeights K)
  (subgraph : LocalSubgraph K n)

def sigmoid (x : K) : K := 1 / (1 + exp (-x))

def leakyRelu (x : K) : K := if 0 ≤ x then x else 1 / 5 * x

def elu (x : K) : K := if x < 0 then exp x - 1 else x

/-- Project features through the matrix of a head. -/
def projectFeatures (features : List K) (head : Fin numHeads) (d : Fin headDim) : K :=
  ((List.range (min weights.inputDim features.length)).map fun j =>
    features.getD j 0 * weights.wHeads head (j * headDim + d.val)).sum

/-- The attention between two projections. -/
def attentionScore (source target : Fin headDim → K) (head : Fin numHeads) : K :=
  leakyRelu (∑ d : Fin headDim, (weights.aHeads head d.val * source d +
    weights.aHeads head (headDim + d.val) * target d))

/-- A candidate itself, and the candidates with edges to it. -/
def neighbors (i : Fin n) : List (CandidateNode K × K) :=
  (subgraph.nodes i, 1) :: subgraph.edges.filterMap fun edge =>
    if inside : edge.sourceIdx < n then
      if edge.targetIdx = i.val then some (subgraph.nodes ⟨edge.sourceIdx, inside⟩, edge.weight)
      else none
    else none

/-- The largest of some scores. -/
def maxScore : List K → K
  | [] => 0
  | score :: scores => scores.foldl max score

/-- What a head makes of a candidate: its neighbours, weighted by the attention to them. -/
def aggregate (head : Fin numHeads) (near : List (CandidateNode K × K)) (node : CandidateNode K)
    (d : Fin headDim) : K :=
  let attnScores := near.map fun other => attentionScore weights
    (projectFeatures weights node.features head) (projectFeatures weights other.1.features head)
      head * other.2
  let expScores := attnScores.map fun score => exp (score - maxScore attnScores)
  elu exp ((near.zip expScores).map fun other => other.2 / (expScores.sum + 1 / 10000000000) *
    projectFeatures weights other.1.1.features head d).sum

/-- The scores of a candidate. -/
def candidate (alpha : K) (i : Fin n) : RerankedCandidate K :=
  let node := subgraph.nodes i
  let rawScore := (∑ head, ∑ d,
    aggregate exp weights head (neighbors subgraph i) node d * weights.outputProj head d) +
      weights.outputBias
  let gnnScore := sigmoid exp rawScore
  { id := node.id
    fusionScore := node.fusionScore
    gnnScore
    finalScore := alpha * node.fusionScore + (1 - alpha) * gnnScore }

/-- The candidates with their scores, the best first. -/
def forward (alpha : K) : List (RerankedCandidate K) :=
  (List.ofFn (candidate exp weights subgraph alpha)).mergeSort fun first second =>
    second.finalScore ≤ first.finalScore

/-- The features of all candidates, in their order. -/
def computeHeadFeatures : List (Fin numHeads → Fin headDim → K) :=
  List.ofFn fun i => projectFeatures weights (subgraph.nodes i).features

/-- Change the output layer by the error of a candidate and some features. -/
def applyError (positiveIds : List Uuid) (weights : GatWeights K)
    (pair : RerankedCandidate K × (Fin numHeads → Fin headDim → K)) : GatWeights K :=
  let target := if pair.1.id ∈ positiveIds then 1 else 0
  let predicted := pair.1.gnnScore
  let gradScale := (target - predicted) * predicted * (1 - predicted) * (1 / 100)
  { weights with
    outputProj := fun head d => weights.outputProj head d + gradScale * pair.2 head d
    outputBias := weights.outputBias + gradScale }

/-- Learn which candidates were used. -/
def updateFromFeedback (positiveIds : List Uuid) : GatWeights K :=
  if n = 0 ∨ positiveIds = [] then weights
  else
    let results := forward exp weights subgraph 0
    let headFeatures := computeHeadFeatures weights subgraph
    let updated := (results.zip headFeatures).foldl (applyError positiveIds) weights
    { updated with updateCount := updated.updateCount + 1 }

/-! ## Errors and features -/

/-- Where errors are applied, each is the error of the candidate whose features are taken. -/
def OwnErrors (positiveIds : List Uuid) : Prop :=
  positiveIds ≠ [] → forward exp weights subgraph 0 =
    List.ofFn (candidate exp weights subgraph 0)

/-- The candidates are given in descending order of their scores. -/
def Descending : Prop := ∀ i j : Fin n, i < j →
  (candidate exp weights subgraph 0 j).gnnScore ≤ (candidate exp weights subgraph 0 i).gnnScore

/-- The same candidates in another order. -/
def LocalSubgraph.reorder (order : Equiv.Perm (Fin n)) : LocalSubgraph K n :=
  let place (idx : Nat) : Nat := if inside : idx < n then order.symm ⟨idx, inside⟩ else idx
  { nodes := subgraph.nodes ∘ order
    edges := subgraph.edges.map fun edge =>
      { edge with sourceIdx := place edge.sourceIdx, targetIdx := place edge.targetIdx } }

variable {exp weights subgraph} {positiveIds : List Uuid}

theorem finalScore_candidate (i : Fin n) : (candidate exp weights subgraph 0 i).finalScore =
    (candidate exp weights subgraph 0 i).gnnScore := by
  rw [candidate]
  ring

theorem forward_eq_iff : forward exp weights subgraph 0 =
    List.ofFn (candidate exp weights subgraph 0) ↔ Descending exp weights subgraph := by
  have ordered : (List.ofFn (candidate exp weights subgraph 0)).Pairwise
      (fun first second => decide (second.finalScore ≤ first.finalScore) = true) ↔
        Descending exp weights subgraph := by
    rw [List.pairwise_ofFn]
    simp only [finalScore_candidate, decide_eq_true_eq, Descending]
  rw [forward, ← ordered]
  constructor
  · intro same
    rw [← same]
    refine List.pairwise_mergeSort (fun first second third => ?_) (fun first second => ?_) _
    · simp only [decide_eq_true_eq]
      exact fun one other => le_trans other one
    · simp only [Bool.or_eq_true, decide_eq_true_eq]
      exact le_total _ _
  · exact List.mergeSort_of_pairwise

/-! ## Another order -/

omit [LinearOrder K] in
theorem neighbors_reorder (order : Equiv.Perm (Fin n)) (i : Fin n) :
    neighbors (subgraph.reorder order) i = neighbors subgraph (order i) := by
  rw [neighbors, neighbors]
  congr 1
  rw [LocalSubgraph.reorder, List.filterMap_map]
  congr 1
  funext edge
  have target : (if inside : edge.targetIdx < n then (order.symm ⟨edge.targetIdx, inside⟩).val
      else edge.targetIdx) = i.val ↔ edge.targetIdx = (order i).val := by
    split
    · rename_i inside
      rw [Fin.val_inj, Equiv.symm_apply_eq, Fin.ext_iff]
    · have first := i.isLt
      have second := (order i).isLt
      omega
  by_cases inside : edge.sourceIdx < n
  · simp [inside, target]
  · simp [inside]

theorem candidate_reorder (order : Equiv.Perm (Fin n)) (i : Fin n) :
    candidate exp weights (subgraph.reorder order) 0 i =
      candidate exp weights subgraph 0 (order i) := by
  rw [candidate, candidate, neighbors_reorder]
  rfl

omit [LinearOrder K] in
theorem applyError_comm (weights : GatWeights K)
    (first second : RerankedCandidate K × (Fin numHeads → Fin headDim → K)) :
    applyError positiveIds (applyError positiveIds weights first) second =
      applyError positiveIds (applyError positiveIds weights second) first := by
  simp only [applyError, add_right_comm]

/-- The scores of a candidate beside its own features. -/
def ownPair (exp : K → K) (weights : GatWeights K) (subgraph : LocalSubgraph K n) (i : Fin n) :
    RerankedCandidate K × (Fin numHeads → Fin headDim → K) :=
  (candidate exp weights subgraph 0 i, projectFeatures weights (subgraph.nodes i).features)

theorem zip_of_descending (descending : Descending exp weights subgraph) :
    (forward exp weights subgraph 0).zip (computeHeadFeatures weights subgraph) =
      List.ofFn (ownPair exp weights subgraph) := by
  rw [forward_eq_iff.mpr descending, computeHeadFeatures]
  apply List.ext_getElem
  · simp
  · intro i first second
    simp [ownPair]

theorem ownPair_reorder (order : Equiv.Perm (Fin n)) :
    ownPair exp weights (subgraph.reorder order) = ownPair exp weights subgraph ∘ order := by
  funext i
  rw [ownPair, candidate_reorder]
  rfl

theorem updateFromFeedback_reorder (descending : Descending exp weights subgraph)
    {order : Equiv.Perm (Fin n)} (again : Descending exp weights (subgraph.reorder order)) :
    updateFromFeedback exp weights (subgraph.reorder order) positiveIds =
      updateFromFeedback exp weights subgraph positiveIds := by
  have perm := Equiv.Perm.ofFn_comp_perm order (ownPair exp weights subgraph)
  have same := perm.foldl_eq' (fun first _ second _ weights =>
    @applyError_comm K _ positiveIds weights first second) weights
  rw [updateFromFeedback, updateFromFeedback]
  dsimp only
  rw [zip_of_descending descending, zip_of_descending again, ownPair_reorder, same]

end Network

end Gnn
end Mnemo
