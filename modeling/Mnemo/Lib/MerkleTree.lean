import Mathlib.Data.List.Basic
import Mathlib.Tactic.TypeStar

/-!
# Merkle trees in layers

A layer is paired up into the next one, an odd element with itself, until one element is left.  A
path lists the siblings from an element of the first layer up to the root.
-/

namespace MerkleTree

variable {Hash : Type*}

/-- The side on which a sibling stands. -/
inductive Side where
  | left
  | right
  deriving DecidableEq, Repr

section Definitions

variable (node : Hash → Hash → Hash) (absent : Hash)

/-- The layer above a layer. -/
def nextLayer : List Hash → List Hash
  | [] => []
  | [single] => [node single single]
  | first :: second :: rest => node first second :: nextLayer rest

theorem length_nextLayer (layer : List Hash) :
    (nextLayer node layer).length = (layer.length + 1) / 2 := by
  induction layer using nextLayer.induct with
  | case1 => simp [nextLayer]
  | case2 single => simp [nextLayer]
  | case3 first second rest ih =>
    simp only [nextLayer, List.length_cons, ih]
    omega

/-- The layers from one up to the root. -/
def layers (layer : List Hash) : List (List Hash) :=
  if 1 < layer.length then layer :: layers (nextLayer node layer) else [layer]
termination_by layer.length
decreasing_by
  rw [length_nextLayer]
  omega

/-- The hash at the top. -/
def root (layer : List Hash) : Hash :=
  (((layers node layer).getLast?.bind List.head?)).getD absent

/-- The position next to one. -/
def siblingIndex (index : Nat) : Nat := if index % 2 = 0 then index + 1 else index - 1

/-- The side on which the neighbour of a position stands. -/
def siblingSide (index : Nat) : Side := if index % 2 = 0 then .right else .left

/-- The neighbour of an element, which is the element itself at the end of an odd layer. -/
def sibling (layer : List Hash) (index : Nat) : Hash :=
  if siblingIndex index < layer.length then layer.getD (siblingIndex index) absent
  else layer.getD index absent

/-- The siblings on the way up from a position. -/
def path : List (List Hash) → Nat → List (Hash × Side)
  | [], _ => []
  | layer :: above, index =>
      (sibling absent layer index, siblingSide index) :: path above (index / 2)

/-- Combine a hash with its sibling. -/
def combine (current sibling : Hash) : Side → Hash
  | .right => node current sibling
  | .left => node sibling current

/-- The hash at which a path leads from another one. -/
def climb (current : Hash) : List (Hash × Side) → Hash
  | [] => current
  | (sibling, side) :: rest => climb (combine node current sibling side) rest

end Definitions

variable {node : Hash → Hash → Hash} {absent : Hash}

theorem layers_of_small {layer : List Hash} (small : layer.length ≤ 1) :
    layers node layer = [layer] := by
  rw [layers, if_neg (by omega)]

theorem layers_of_large {layer : List Hash} (large : 1 < layer.length) :
    layers node layer = layer :: layers node (nextLayer node layer) := by
  rw [layers, if_pos large]

theorem layers_ne_nil (layer : List Hash) : layers node layer ≠ [] := by
  rw [layers]
  split
  · exact List.cons_ne_nil _ _
  · exact List.cons_ne_nil _ _

@[simp]
theorem root_nil : root node absent [] = absent := by
  unfold root
  rw [layers_of_small (by simp)]
  rfl

theorem root_of_large {layer : List Hash} (large : 1 < layer.length) :
    root node absent layer = root node absent (nextLayer node layer) := by
  unfold root
  rw [layers_of_large large, List.getLast?_cons_of_ne_nil (layers_ne_nil _)]

@[simp]
theorem root_singleton (hash : Hash) : root node absent [hash] = hash := by
  unfold root
  rw [layers_of_small (by simp)]
  rfl

/-! ## Completeness -/

/-- The element above a position combines the element there with its sibling. -/
theorem getElem?_nextLayer {layer : List Hash} {index : Nat} {hash : Hash}
    (found : layer[index]? = some hash) :
    (nextLayer node layer)[index / 2]? =
      some (combine node hash (sibling absent layer index) (siblingSide index)) := by
  induction layer using nextLayer.induct generalizing index with
  | case1 => cases found
  | case2 single =>
    cases index with
    | zero =>
      obtain rfl := Option.some.inj found
      rfl
    | succ index => cases found
  | case3 first second rest ih =>
    match index with
    | 0 =>
      obtain rfl := Option.some.inj found
      rfl
    | 1 =>
      obtain rfl := Option.some.inj found
      rfl
    | index + 2 =>
      have half : (index + 2) / 2 = index / 2 + 1 := by omega
      have parity : (index + 2) % 2 = index % 2 := by omega
      have side : siblingSide (index + 2) = siblingSide index := by
        unfold siblingSide
        rw [parity]
      have shifted : sibling absent (first :: second :: rest) (index + 2) =
          sibling absent rest index := by
        have position : siblingIndex (index + 2) = siblingIndex index + 2 := by
          unfold siblingIndex
          split <;> split <;> omega
        unfold sibling
        rw [position]
        simp only [List.length_cons, List.getD_cons_succ]
        split <;> split <;> first | rfl | omega
      rw [half, side, shifted]
      exact ih found

theorem climb_path {layer : List Hash} {index : Nat} {hash : Hash}
    (found : layer[index]? = some hash) :
    climb node hash (path absent (layers node layer).dropLast index) = root node absent layer := by
  induction layer using layers.induct node generalizing index hash with
  | case1 layer large ih =>
    rw [root_of_large large, layers_of_large large,
      List.dropLast_cons_of_ne_nil (layers_ne_nil _)]
    exact ih (getElem?_nextLayer found)
  | case2 layer small =>
    rw [layers_of_small (by omega)]
    match layer with
    | [] => cases found
    | [single] =>
      cases index with
      | zero =>
        obtain rfl : single = hash := Option.some.inj found
        exact (root_singleton single).symm
      | succ index => cases found
    | first :: second :: rest => simp at small

/-! ## Soundness -/

theorem mem_nextLayer {layer : List Hash} {hash : Hash} (member : hash ∈ nextLayer node layer) :
    ∃ first ∈ layer, ∃ second ∈ layer, hash = node first second := by
  induction layer using nextLayer.induct with
  | case1 => cases member
  | case2 single =>
    obtain rfl := List.mem_singleton.mp member
    exact ⟨single, List.mem_cons_self, single, List.mem_cons_self, rfl⟩
  | case3 first second rest ih =>
    rcases List.mem_cons.mp member with rfl | later
    · exact ⟨first, List.mem_cons_self, second, List.mem_cons_of_mem _ List.mem_cons_self, rfl⟩
    · obtain ⟨one, oneMember, two, twoMember, same⟩ := ih later
      exact ⟨one, List.mem_cons_of_mem _ (List.mem_cons_of_mem _ oneMember), two,
        List.mem_cons_of_mem _ (List.mem_cons_of_mem _ twoMember), same⟩

theorem climb_concat (current : Hash) (front : List (Hash × Side)) (step : Hash × Side) :
    climb node current (front ++ [step]) =
      combine node (climb node current front) step.1 step.2 := by
  induction front generalizing current with
  | nil => rfl
  | cons first front ih => exact ih _

section Soundness

variable (injective : ∀ one two three four, node one two = node three four →
  one = three ∧ two = four)
include injective

theorem mem_of_combine {layer : List Hash} {current sibling : Hash} {side : Side}
    (above : combine node current sibling side ∈ nextLayer node layer) : current ∈ layer := by
  obtain ⟨first, firstMember, second, secondMember, same⟩ := mem_nextLayer above
  cases side with
  | right => exact (injective _ _ _ _ same).1 ▸ firstMember
  | left => exact (injective _ _ _ _ same).2 ▸ secondMember

/-- A climb from something that is no combination passes through every layer under the root. -/
theorem passes_layer {layer : List Hash} {start : Hash} (nonempty : layer ≠ [])
    (notNode : ∀ first second, start ≠ node first second) {siblings : List (Hash × Side)}
    (ends : climb node start siblings = root node absent layer) :
    ∃ front back, siblings = front ++ back ∧ climb node start front ∈ layer := by
  induction layer using layers.induct node with
  | case1 layer large ih =>
    rw [root_of_large large] at ends
    have more : nextLayer node layer ≠ [] := by
      apply List.ne_nil_of_length_pos
      rw [length_nextLayer]
      omega
    obtain ⟨front, back, rfl, passes⟩ := ih more ends
    rcases List.eq_nil_or_concat' front with rfl | ⟨lower, step, rfl⟩
    · obtain ⟨first, _, second, _, same⟩ := mem_nextLayer passes
      exact absurd same (notNode first second)
    · rw [climb_concat] at passes
      exact ⟨lower, step :: back, by simp, mem_of_combine injective passes⟩
  | case2 layer small =>
    match layer with
    | [] => exact absurd rfl nonempty
    | [single] =>
      rw [root_singleton] at ends
      exact ⟨siblings, [], by simp, by simp [ends]⟩
    | first :: second :: rest => simp at small

theorem mem_of_climb {layer : List Hash} {start : Hash} (nonempty : layer ≠ [])
    (notNode : ∀ first second, start ≠ node first second)
    (leaves : ∀ leaf ∈ layer, ∀ first second, leaf ≠ node first second)
    {siblings : List (Hash × Side)} (ends : climb node start siblings = root node absent layer) :
    start ∈ layer := by
  obtain ⟨front, _, _, passes⟩ := passes_layer injective nonempty notNode ends
  rcases List.eq_nil_or_concat' front with rfl | ⟨lower, step, rfl⟩
  · exact passes
  · rw [climb_concat] at passes
    rcases step with ⟨sibling, side⟩
    cases side with
    | right => exact absurd rfl (leaves _ passes _ _)
    | left => exact absurd rfl (leaves _ passes _ _)

end Soundness
end MerkleTree
