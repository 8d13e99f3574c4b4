import Mathlib.Combinatorics.SimpleGraph.Metric
import Mathlib.Data.List.Nodup
import Mathlib.Data.List.Pairwise

/-!
# Breadth-first search

A search takes vertices from a queue, first in, first out, and appends the neighbours that were not
met before.  The order in which it takes them is described without a queue: layer after layer, where
a layer consists of the new neighbours of the layer before.
-/

namespace BreadthFirst

variable {Vertex : Type} [DecidableEq Vertex]

/-! ## New vertices -/

/-- The vertices of a list that were not met before, each once. -/
def fresh (met : List Vertex) : List Vertex → List Vertex
  | [] => []
  | vertex :: vertices =>
      if vertex ∈ met then fresh met vertices
      else vertex :: fresh (met ++ [vertex]) vertices

@[simp]
theorem fresh_nil (met : List Vertex) : fresh met [] = [] := rfl

theorem fresh_cons_of_mem {met : List Vertex} {vertex : Vertex} (old : vertex ∈ met)
    (vertices : List Vertex) : fresh met (vertex :: vertices) = fresh met vertices :=
  if_pos old

theorem fresh_cons_of_notMem {met : List Vertex} {vertex : Vertex} (new : vertex ∉ met)
    (vertices : List Vertex) :
    fresh met (vertex :: vertices) = vertex :: fresh (met ++ [vertex]) vertices :=
  if_neg new

theorem mem_fresh {met vertices : List Vertex} {vertex : Vertex} :
    vertex ∈ fresh met vertices ↔ vertex ∈ vertices ∧ vertex ∉ met := by
  induction vertices generalizing met with
  | nil => simp
  | cons head vertices ih =>
    by_cases old : head ∈ met
    · rw [fresh_cons_of_mem old, ih, List.mem_cons]
      constructor
      · rintro ⟨among, new⟩
        exact ⟨.inr among, new⟩
      · rintro ⟨rfl | among, new⟩
        · exact absurd old new
        · exact ⟨among, new⟩
    · rw [fresh_cons_of_notMem old, List.mem_cons, List.mem_cons, ih]
      simp only [List.mem_append, List.mem_singleton, not_or]
      constructor
      · rintro (rfl | ⟨among, new, _⟩)
        · exact ⟨.inl rfl, old⟩
        · exact ⟨.inr among, new⟩
      · rintro ⟨rfl | among, new⟩
        · exact .inl rfl
        · rcases eq_or_ne vertex head with rfl | different
          · exact .inl rfl
          · exact .inr ⟨among, new, different⟩

theorem nodup_fresh (met vertices : List Vertex) : (fresh met vertices).Nodup := by
  induction vertices generalizing met with
  | nil => exact List.nodup_nil
  | cons head vertices ih =>
    by_cases old : head ∈ met
    · rw [fresh_cons_of_mem old]
      exact ih met
    · rw [fresh_cons_of_notMem old]
      refine List.nodup_cons.mpr ⟨fun again => ?_, ih _⟩
      exact (mem_fresh.mp again).2 (by simp)

theorem fresh_append (met front back : List Vertex) :
    fresh met (front ++ back) = fresh met front ++ fresh (met ++ fresh met front) back := by
  induction front generalizing met with
  | nil => simp
  | cons head front ih =>
    by_cases old : head ∈ met
    · rw [List.cons_append, fresh_cons_of_mem old, fresh_cons_of_mem old, ih]
    · rw [List.cons_append, fresh_cons_of_notMem old, fresh_cons_of_notMem old, ih]
      simp

theorem nodup_append_fresh {met : List Vertex} (distinct : met.Nodup) (vertices : List Vertex) :
    (met ++ fresh met vertices).Nodup := by
  apply List.Nodup.append distinct (nodup_fresh met vertices)
  intro vertex old new
  exact (mem_fresh.mp new).2 old

variable (next : Vertex → List Vertex) (start : Vertex)

/-! ## Walks -/

/-- A walk along neighbours, with the number of its steps. -/
inductive Walk : Nat → Vertex → Prop
  | nil : Walk 0 start
  | snoc {steps : Nat} {vertex neighbour : Vertex} (walk : Walk steps vertex)
      (adjacent : neighbour ∈ next vertex) : Walk (steps + 1) neighbour

/-! ## Layers -/

/-- The vertices that are met up to a layer, and those of the layer. -/
def layers : Nat → List Vertex × List Vertex
  | 0 => ([start], [start])
  | depth + 1 =>
      let (met, layer) := layers depth
      let new := fresh met (layer.flatMap next)
      (met ++ new, new)

/-- The vertices that are met up to a depth, in the order in which they are met. -/
def upTo (depth : Nat) : List Vertex := (layers next start depth).1

/-- The vertices that are met at a depth. -/
def layer (depth : Nat) : List Vertex := (layers next start depth).2

/-- The vertices that are met up to a depth, each with its own depth. -/
def order : Nat → List (Vertex × Nat)
  | 0 => [(start, 0)]
  | depth + 1 => order depth ++ (layer next start (depth + 1)).map fun vertex => (vertex, depth + 1)

section Layers

variable {next start}

@[simp]
theorem upTo_zero : upTo next start 0 = [start] := rfl

@[simp]
theorem layer_zero : layer next start 0 = [start] := rfl

theorem layer_succ (depth : Nat) : layer next start (depth + 1) =
    fresh (upTo next start depth) ((layer next start depth).flatMap next) := rfl

theorem upTo_succ (depth : Nat) : upTo next start (depth + 1) =
    upTo next start depth ++ layer next start (depth + 1) := rfl

theorem order_succ (depth : Nat) : order next start (depth + 1) = order next start depth ++
    (layer next start (depth + 1)).map fun vertex => (vertex, depth + 1) := rfl

theorem map_order (depth : Nat) :
    (order next start depth).map Prod.fst = upTo next start depth := by
  induction depth with
  | zero => rfl
  | succ depth ih =>
    rw [order_succ, List.map_append, ih, upTo_succ, List.map_map]
    simp [Function.comp_def]

theorem nodup_upTo (depth : Nat) : (upTo next start depth).Nodup := by
  induction depth with
  | zero => exact List.nodup_singleton start
  | succ depth ih =>
    rw [upTo_succ, layer_succ]
    exact nodup_append_fresh ih _

theorem layer_subset_upTo (depth : Nat) : layer next start depth ⊆ upTo next start depth := by
  cases depth with
  | zero => exact List.Subset.refl _
  | succ depth =>
    rw [upTo_succ]
    exact List.subset_append_right _ _

theorem upTo_mono {less more : Nat} (le : less ≤ more) :
    upTo next start less ⊆ upTo next start more := by
  induction le with
  | refl => exact List.Subset.refl _
  | step _ ih =>
    rw [upTo_succ]
    exact fun vertex member => List.mem_append_left _ (ih member)

theorem mem_upTo {depth : Nat} {vertex : Vertex} (member : vertex ∈ upTo next start depth) :
    ∃ own ≤ depth, vertex ∈ layer next start own := by
  induction depth with
  | zero => exact ⟨0, Nat.le_refl 0, member⟩
  | succ depth ih =>
    rw [upTo_succ] at member
    rcases List.mem_append.mp member with early | late
    · obtain ⟨own, le, among⟩ := ih early
      exact ⟨own, Nat.le_succ_of_le le, among⟩
    · exact ⟨depth + 1, Nat.le_refl _, late⟩

theorem mem_order {depth own : Nat} {vertex : Vertex} :
    (vertex, own) ∈ order next start depth ↔ own ≤ depth ∧ vertex ∈ layer next start own := by
  induction depth with
  | zero =>
    simp only [order, List.mem_singleton, Prod.mk.injEq]
    constructor
    · rintro ⟨rfl, rfl⟩
      exact ⟨Nat.le_refl 0, List.mem_singleton_self _⟩
    · rintro ⟨le, among⟩
      obtain rfl : own = 0 := by omega
      exact ⟨List.mem_singleton.mp among, rfl⟩
  | succ depth ih =>
    rw [order_succ, List.mem_append, ih, List.mem_map]
    constructor
    · rintro (⟨le, among⟩ | ⟨other, among, same⟩)
      · exact ⟨Nat.le_succ_of_le le, among⟩
      · obtain ⟨rfl, rfl⟩ := Prod.mk.inj same
        exact ⟨Nat.le_refl _, among⟩
    · rintro ⟨le, among⟩
      rcases Nat.lt_or_ge depth own with deeper | early
      · obtain rfl : own = depth + 1 := by omega
        exact .inr ⟨vertex, among, rfl⟩
      · exact .inl ⟨early, among⟩

theorem walk_of_mem_layer {depth : Nat} {vertex : Vertex}
    (member : vertex ∈ layer next start depth) : Walk next start depth vertex := by
  induction depth generalizing vertex with
  | zero =>
    obtain rfl : vertex = start := List.mem_singleton.mp member
    exact .nil
  | succ depth ih =>
    rw [layer_succ] at member
    obtain ⟨before, among, adjacent⟩ := List.mem_flatMap.mp (mem_fresh.mp member).1
    exact .snoc (ih among) adjacent

theorem mem_upTo_of_walk {steps : Nat} {vertex : Vertex} (walk : Walk next start steps vertex) :
    vertex ∈ upTo next start steps := by
  induction walk with
  | nil => exact List.mem_singleton_self start
  | @snoc steps vertex neighbour walk adjacent ih =>
    by_cases met : neighbour ∈ upTo next start steps
    · exact upTo_mono (Nat.le_succ steps) met
    · obtain ⟨own, le, among⟩ := mem_upTo ih
      have deep : own = steps := by
        by_contra shallow
        apply met
        have early : neighbour ∈ upTo next start (own + 1) := by
          by_cases known : neighbour ∈ upTo next start own
          · exact upTo_mono (Nat.le_succ own) known
          · rw [upTo_succ, layer_succ]
            apply List.mem_append_right
            exact mem_fresh.mpr ⟨List.mem_flatMap.mpr ⟨vertex, among, adjacent⟩, known⟩
        exact upTo_mono (by omega) early
      subst deep
      rw [upTo_succ, layer_succ]
      apply List.mem_append_right
      exact mem_fresh.mpr ⟨List.mem_flatMap.mpr ⟨vertex, among, adjacent⟩, met⟩

theorem mem_layer_iff {depth : Nat} {vertex : Vertex} : vertex ∈ layer next start depth ↔
    Walk next start depth vertex ∧ ∀ steps, Walk next start steps vertex → depth ≤ steps := by
  constructor
  · intro member
    refine ⟨walk_of_mem_layer member, fun steps walk => ?_⟩
    by_contra longer
    obtain ⟨less, rfl⟩ : ∃ less, depth = less + 1 := ⟨depth - 1, by omega⟩
    rw [layer_succ] at member
    exact (mem_fresh.mp member).2 (upTo_mono (by omega) (mem_upTo_of_walk walk))
  · rintro ⟨walk, shortest⟩
    obtain ⟨own, le, among⟩ := mem_upTo (mem_upTo_of_walk walk)
    have deep := shortest own (walk_of_mem_layer among)
    obtain rfl : own = depth := by omega
    exact among

theorem pairwise_order (depth : Nat) :
    (order next start depth).Pairwise fun first second => first.2 ≤ second.2 := by
  induction depth with
  | zero => exact List.pairwise_singleton _ _
  | succ depth ih =>
    rw [order_succ]
    refine List.pairwise_append.mpr ⟨ih, ?_, ?_⟩
    · apply List.pairwise_map.mpr
      exact List.pairwise_of_forall_mem_list fun _ _ _ _ => Nat.le_refl _
    · rintro ⟨vertex, own⟩ early second late
      obtain ⟨other, _, rfl⟩ := List.mem_map.mp late
      exact Nat.le_succ_of_le (mem_order.mp early).1

end Layers

/-! ## Distance in a graph -/

section Distance

variable {next start} {graph : SimpleGraph Vertex} {good : Vertex → Prop}

omit [DecidableEq Vertex] in
theorem Walk.append {first last : Vertex}
    (adjacent : ∀ vertex neighbour, graph.Adj vertex neighbour → neighbour ∈ next vertex)
    (path : graph.Walk first last) {steps : Nat} (walk : Walk next start steps first) :
    Walk next start (steps + path.length) last := by
  induction path generalizing steps with
  | nil => simpa using walk
  | cons step path ih =>
    have further := ih (walk.snoc (adjacent _ _ step))
    rw [SimpleGraph.Walk.length_cons, Nat.add_comm path.length 1, ← Nat.add_assoc]
    exact further

omit [DecidableEq Vertex] in
theorem Walk.exists_walk (blocked : ∀ vertex, ¬ good vertex → next vertex = [])
    (adjacent : ∀ vertex neighbour, good vertex → good neighbour → vertex ≠ neighbour →
      neighbour ∈ next vertex → graph.Adj vertex neighbour)
    {steps : Nat} {vertex : Vertex} (walk : Walk next start steps vertex) (here : good vertex) :
    ∃ path : graph.Walk start vertex, path.length ≤ steps := by
  induction walk with
  | nil => exact ⟨.nil, Nat.le_refl 0⟩
  | @snoc steps vertex neighbour walk step ih =>
    have open_vertex : good vertex := by
      by_contra closed
      rw [blocked vertex closed] at step
      simp at step
    obtain ⟨path, short⟩ := ih open_vertex
    rcases eq_or_ne vertex neighbour with rfl | different
    · exact ⟨path, Nat.le_succ_of_le short⟩
    · refine ⟨path.concat (adjacent _ _ open_vertex here different step), ?_⟩
      rw [SimpleGraph.Walk.length_concat]
      omega

variable (good) in
/-- The depth of a good vertex is its distance in the graph. -/
theorem mem_layer_iff_edist (blocked : ∀ vertex, ¬ good vertex → next vertex = [])
    (adjacent : ∀ vertex neighbour, good vertex → good neighbour → vertex ≠ neighbour →
      neighbour ∈ next vertex → graph.Adj vertex neighbour)
    (edges : ∀ vertex neighbour, graph.Adj vertex neighbour → neighbour ∈ next vertex)
    {depth : Nat} {vertex : Vertex} (here : good vertex) :
    vertex ∈ layer next start depth ↔ graph.edist start vertex = depth := by
  rw [mem_layer_iff]
  constructor
  · rintro ⟨walk, shortest⟩
    obtain ⟨path, short⟩ := walk.exists_walk blocked adjacent here
    have near : graph.edist start vertex ≤ depth :=
      (SimpleGraph.edist_le path).trans (by exact_mod_cast short)
    obtain ⟨best, same⟩ := SimpleGraph.exists_walk_of_edist_ne_top
      (ne_top_of_le_ne_top (ENat.natCast_ne_top depth) near)
    have far : depth ≤ best.length := by
      have longer := shortest _ (Walk.append edges best .nil)
      rwa [Nat.zero_add] at longer
    apply le_antisymm near
    rw [← same]
    exact_mod_cast far
  · intro distance
    obtain ⟨path, rfl⟩ := SimpleGraph.exists_walk_of_edist_eq_coe distance
    constructor
    · have walk : Walk next start (0 + path.length) vertex := Walk.append edges path .nil
      rwa [Nat.zero_add] at walk
    · intro steps walk
      obtain ⟨other, short⟩ := walk.exists_walk blocked adjacent here
      have near := (SimpleGraph.edist_le other).trans
        (show (other.length : ℕ∞) ≤ steps by exact_mod_cast short)
      rw [distance] at near
      exact_mod_cast near

end Distance

/-! ## Queues -/

/-- The neighbours of a vertex that is taken; none at the greatest depth. -/
def expand (limit : Nat) (taken : Vertex × Nat) : List Vertex :=
  if taken.2 < limit then next taken.1 else []

/-- The neighbours that are appended when a vertex is taken. -/
def appended (limit : Nat) (met : List Vertex) (taken : Vertex × Nat) : List Vertex :=
  fresh met (expand next limit taken)

/-- The order in which the vertices of a queue and those that are appended are taken. -/
inductive Drains (limit : Nat) :
    List Vertex → List (Vertex × Nat) → List (Vertex × Nat) → Prop
  | nil {met : List Vertex} : Drains limit met [] []
  | cons {met : List Vertex} {taken : Vertex × Nat} {queue rest : List (Vertex × Nat)}
      (later : Drains limit (met ++ appended next limit met taken)
        (queue ++ (appended next limit met taken).map fun vertex => (vertex, taken.2 + 1)) rest) :
      Drains limit met (taken :: queue) (taken :: rest)

/-- The part of the next layer that the vertices taken so far have appended. -/
def begun (limit depth : Nat) (done : List Vertex) : List Vertex :=
  if depth < limit then fresh (upTo next start depth) (done.flatMap next) else []

/-- The layers after one, each vertex with its depth. -/
def later (depth : Nat) : Nat → List (Vertex × Nat)
  | 0 => []
  | more + 1 =>
      (layer next start (depth + 1)).map (fun vertex => (vertex, depth + 1)) ++
        later (depth + 1) more

section Queues

variable {next start} {limit : Nat}

theorem order_append_later (depth more : Nat) :
    order next start depth ++ later next start depth more = order next start (depth + more) := by
  induction more generalizing depth with
  | zero => simp [later]
  | succ more ih =>
    rw [later, ← List.append_assoc, ← order_succ, ih (depth + 1)]
    congr 1
    omega

theorem begun_nil (depth : Nat) : begun next start limit depth [] = [] := by
  simp [begun]

theorem begun_layer {depth : Nat} (less : depth < limit) :
    begun next start limit depth (layer next start depth) = layer next start (depth + 1) := by
  rw [begun, if_pos less, layer_succ]

theorem begun_concat (depth : Nat) (done : List Vertex) (vertex : Vertex) :
    begun next start limit depth (done ++ [vertex]) = begun next start limit depth done ++
      appended next limit (upTo next start depth ++ begun next start limit depth done)
        (vertex, depth) := by
  by_cases less : depth < limit
  · simp only [begun, appended, expand, if_pos less]
    rw [List.flatMap_append, fresh_append]
    simp
  · simp [begun, appended, expand, less]

/-- A layer is taken while the next one is appended, and so on with the layers after it. -/
theorem drains_later (depth more : Nat) (within : depth + more = limit) (done todo : List Vertex)
    (parts : layer next start depth = done ++ todo) :
    Drains next limit (upTo next start depth ++ begun next start limit depth done)
      (todo.map (fun vertex => (vertex, depth)) ++
        (begun next start limit depth done).map fun vertex => (vertex, depth + 1))
      (todo.map (fun vertex => (vertex, depth)) ++ later next start depth more) := by
  induction more generalizing depth done todo with
  | zero =>
    have last : ¬ depth < limit := by omega
    induction todo generalizing done with
    | nil =>
      simp only [begun, if_neg last, later]
      exact .nil
    | cons vertex todo ih =>
      have rest := ih (done ++ [vertex]) (by rw [parts, List.append_assoc]; rfl)
      rw [begun_concat] at rest
      apply Drains.cons
      simpa using rest
  | succ more next_layer =>
    induction todo generalizing done with
    | nil =>
      have rest := next_layer (depth + 1) (by omega) [] (layer next start (depth + 1)) rfl
      rw [begun_nil, List.append_nil, List.map_nil, List.append_nil, upTo_succ] at rest
      rw [List.append_nil] at parts
      rw [← parts, begun_layer (by omega)]
      exact rest
    | cons vertex todo ih =>
      have rest := ih (done ++ [vertex]) (by rw [parts, List.append_assoc]; rfl)
      rw [begun_concat] at rest
      apply Drains.cons
      simpa using rest

theorem drains_order (limit : Nat) :
    Drains next limit [start] [(start, 0)] (order next start limit) := by
  have whole := @drains_later _ _ next start limit 0 limit (by omega) [] [start] rfl
  rw [begun_nil] at whole
  have same : order next start 0 ++ later next start 0 limit = order next start limit := by
    rw [order_append_later, Nat.zero_add]
  rw [← same]
  exact whole

end Queues

/-! ## Where a vertex is met -/

/-- The first vertex in the order that leads to another one. -/
def parentOf (limit : Nat) (vertex : Vertex) : Option Vertex :=
  ((order next start limit).find? fun taken =>
    decide (vertex ∈ expand next limit taken)).map Prod.fst

/-- The way by which a vertex of a depth is first met. -/
def trail (limit : Nat) : Nat → Vertex → List Vertex
  | 0, vertex => [vertex]
  | depth + 1, vertex =>
      match parentOf next start limit vertex with
      | some parent => trail limit depth parent ++ [vertex]
      | none => [vertex]

section Trails

variable {next start} {limit : Nat}

omit [DecidableEq Vertex] in
theorem mem_expand {taken : Vertex × Nat} {vertex : Vertex} :
    vertex ∈ expand next limit taken ↔ taken.2 < limit ∧ vertex ∈ next taken.1 := by
  unfold expand
  split
  · rename_i less
    simp [less]
  · rename_i last
    simp [last]

theorem mem_upTo_of_mem_expand {taken : Vertex × Nat} {vertex : Vertex}
    (listed : taken ∈ order next start limit) (member : vertex ∈ expand next limit taken) :
    vertex ∈ upTo next start (taken.2 + 1) := by
  obtain ⟨_, met⟩ := mem_order.mp listed
  exact mem_upTo_of_walk ((walk_of_mem_layer met).snoc (mem_expand.mp member).2)

/-- A vertex is first met from the layer before its own. -/
theorem exists_parentOf {depth : Nat} {vertex : Vertex} (within : depth + 1 ≤ limit)
    (member : vertex ∈ layer next start (depth + 1)) :
    ∃ parent, parentOf next start limit vertex = some parent ∧
      parent ∈ layer next start depth ∧ vertex ∈ next parent := by
  have new := member
  rw [layer_succ] at new
  obtain ⟨before, among, adjacent⟩ := List.mem_flatMap.mp (mem_fresh.mp new).1
  have listed : (before, depth) ∈ order next start limit :=
    mem_order.mpr ⟨by omega, among⟩
  have leads : vertex ∈ expand next limit (before, depth) :=
    mem_expand.mpr ⟨within, adjacent⟩
  cases first : (order next start limit).find? fun taken =>
      decide (vertex ∈ expand next limit taken) with
  | none => exact absurd (by simpa using leads) (List.find?_eq_none.mp first _ listed)
  | some parent =>
    obtain ⟨takes, early, late, parts, misses⟩ := List.find?_eq_some_iff_append.mp first
    have step : vertex ∈ expand next limit parent := by
      simpa using takes
    have taken : parent ∈ order next start limit := List.mem_of_find?_eq_some first
    have deep : depth ≤ parent.2 := by
      have far := (mem_layer_iff.mp member).2 (parent.2 + 1)
        ((walk_of_mem_layer (mem_order.mp taken).2).snoc (mem_expand.mp step).2)
      omega
    have shallow : parent.2 ≤ depth := by
      have ordered : (order next start limit).Pairwise fun first second =>
          first.2 ≤ second.2 := pairwise_order limit
      rw [parts] at listed ordered
      rcases List.mem_append.mp listed with missed | found
      · exact absurd leads (by simpa using misses _ missed)
      · rcases List.mem_cons.mp found with same | later
        · rw [← same]
        · exact List.rel_of_pairwise_cons (List.pairwise_append.mp ordered).2.1 later
    obtain rfl : parent.2 = depth := by omega
    exact ⟨parent.1, by rw [parentOf, first]; rfl, (mem_order.mp taken).2,
      (mem_expand.mp step).2⟩

theorem length_trail {depth : Nat} {vertex : Vertex} (within : depth ≤ limit)
    (member : vertex ∈ layer next start depth) :
    (trail next start limit depth vertex).length = depth + 1 := by
  induction depth generalizing vertex with
  | zero => rfl
  | succ depth ih =>
    obtain ⟨parent, first, met, _⟩ := exists_parentOf within member
    rw [trail, first]
    simp [ih (by omega) met]

theorem layer_unique {depth other : Nat} {vertex : Vertex}
    (member : vertex ∈ layer next start depth) (also : vertex ∈ layer next start other) :
    depth = other :=
  Nat.le_antisymm ((mem_layer_iff.mp member).2 other (walk_of_mem_layer also))
    ((mem_layer_iff.mp also).2 depth (walk_of_mem_layer member))

theorem trail_subset_upTo {depth : Nat} {vertex : Vertex} (within : depth ≤ limit)
    (member : vertex ∈ layer next start depth) :
    trail next start limit depth vertex ⊆ upTo next start depth := by
  induction depth generalizing vertex with
  | zero => exact List.cons_subset.mpr ⟨member, List.nil_subset _⟩
  | succ depth ih =>
    obtain ⟨parent, first, met, _⟩ := exists_parentOf within member
    rw [trail, first]
    apply List.append_subset.mpr
    constructor
    · rw [upTo_succ]
      exact List.Subset.trans (ih (by omega) met) (List.subset_append_left _ _)
    · exact List.cons_subset.mpr ⟨layer_subset_upTo _ member, List.nil_subset _⟩

theorem nodup_trail {depth : Nat} {vertex : Vertex} (within : depth ≤ limit)
    (member : vertex ∈ layer next start depth) :
    (trail next start limit depth vertex).Nodup := by
  induction depth generalizing vertex with
  | zero => exact List.nodup_singleton vertex
  | succ depth ih =>
    obtain ⟨parent, first, met, _⟩ := exists_parentOf within member
    rw [trail, first]
    apply List.Nodup.append (ih (by omega) met) (List.nodup_singleton vertex)
    intro other early same
    obtain rfl := List.mem_singleton.mp same
    rw [layer_succ] at member
    exact (mem_fresh.mp member).2 (trail_subset_upTo (by omega) met early)

end Trails
end BreadthFirst
