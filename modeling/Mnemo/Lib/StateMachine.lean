import Mathlib.Tactic.TypeStar
import Mathlib.Data.List.Basic

/-!
# Runs of a deterministic state machine

A machine is a step function from a state and a label to the next state; whatever the environment
decides is part of the label.  A property that has to hold in every state of a run is reduced to
one statement about a single step, guarded by a condition on the state in which the step starts.
-/

namespace StateMachine

variable {State Label : Type*} (step : State → Label → State)

/-- The state in which a list of labels, performed in order, ends. -/
def finish (state : State) (labels : List Label) : State :=
  labels.foldl step state

/-- The property holds in every state which the run passes through, its first one included. -/
def Always (property : State → Prop) : State → List Label → Prop
  | state, [] => property state
  | state, label :: labels => property state ∧ Always property (step state label) labels

/-- Every label of the run meets the guard in the state in which it is performed. -/
def Guarded (guard : State → Label → Prop) : State → List Label → Prop
  | _, [] => True
  | state, label :: labels => guard state label ∧ Guarded guard (step state label) labels

instance Guarded.decidable (guard : State → Label → Prop)
    [∀ state label, Decidable (guard state label)] :
    ∀ state labels, Decidable (Guarded step guard state labels)
  | _, [] => .isTrue trivial
  | state, label :: labels =>
      have := Guarded.decidable guard (step state label) labels
      inferInstanceAs (Decidable (guard state label ∧ _))

variable {step}

@[simp]
theorem finish_nil (state : State) : finish step state [] = state := rfl

@[simp]
theorem finish_cons (state : State) (label : Label) (labels : List Label) :
    finish step state (label :: labels) = finish step (step state label) labels := rfl

@[simp]
theorem finish_append (state : State) (first second : List Label) :
    finish step state (first ++ second) = finish step (finish step state first) second :=
  List.foldl_append

theorem finish_induction {invariant : State → Prop}
    (preserved : ∀ state label, invariant state → invariant (step state label))
    {state : State} (initially : invariant state) (labels : List Label) :
    invariant (finish step state labels) := by
  induction labels generalizing state with
  | nil => exact initially
  | cons label labels ih => exact ih (preserved state label initially)

theorem Guarded.always {invariant : State → Prop} {guard : State → Label → Prop}
    (preserved : ∀ state label, invariant state → guard state label →
      invariant (step state label))
    {state : State} (initially : invariant state) {labels : List Label}
    (guarded : Guarded step guard state labels) :
    Always step invariant state labels := by
  induction labels generalizing state with
  | nil => exact initially
  | cons label labels ih =>
    exact ⟨initially, ih (preserved state label initially guarded.1) guarded.2⟩

theorem guarded_append {guard : State → Label → Prop} {state : State}
    {first second : List Label} :
    Guarded step guard state (first ++ second) ↔
      Guarded step guard state first ∧ Guarded step guard (finish step state first) second := by
  induction first generalizing state with
  | nil => exact ⟨fun later => ⟨trivial, later⟩, fun both => both.2⟩
  | cons label first ih =>
    constructor
    · rintro ⟨now, later⟩
      obtain ⟨one, two⟩ := ih.mp later
      exact ⟨⟨now, one⟩, two⟩
    · rintro ⟨⟨now, one⟩, two⟩
      exact ⟨now, ih.mpr ⟨one, two⟩⟩

theorem Guarded.related {invariant : State → Prop} {guard : State → Label → Prop}
    {related : State → State → Prop} (reflexive : ∀ state, related state state)
    (transitive : ∀ first second third, related first second → related second third →
      related first third)
    (preserved : ∀ state label, invariant state → guard state label →
      invariant (step state label))
    (steps : ∀ state label, invariant state → guard state label →
      related state (step state label))
    {state : State} (initially : invariant state) {labels : List Label}
    (guarded : Guarded step guard state labels) : related state (finish step state labels) := by
  induction labels generalizing state with
  | nil => exact reflexive state
  | cons label labels ih =>
    apply transitive _ _ _ (steps state label initially guarded.1)
    exact ih (preserved state label initially guarded.1) guarded.2

theorem Guarded.and {first second : State → Label → Prop} {state : State} {labels : List Label}
    (one : Guarded step first state labels) (two : Guarded step second state labels) :
    Guarded step (fun state label => first state label ∧ second state label) state labels := by
  induction labels generalizing state with
  | nil => exact trivial
  | cons label labels ih => exact ⟨⟨one.1, two.1⟩, ih one.2 two.2⟩

theorem Guarded.mono {invariant : State → Prop} {weak strong : State → Label → Prop}
    (preserved : ∀ state label, invariant state → strong state label →
      invariant (step state label))
    (weaken : ∀ state label, invariant state → strong state label → weak state label)
    {state : State} (initially : invariant state) {labels : List Label}
    (guarded : Guarded step strong state labels) : Guarded step weak state labels := by
  induction labels generalizing state with
  | nil => exact trivial
  | cons label labels ih =>
    exact ⟨weaken state label initially guarded.1,
      ih (preserved state label initially guarded.1) guarded.2⟩

theorem Guarded.congr {invariant : State → Prop} {one two : State → Label → Prop}
    (preserved : ∀ state label, invariant state → invariant (step state label))
    (same : ∀ state label, invariant state → (one state label ↔ two state label))
    {state : State} (initially : invariant state) (labels : List Label) :
    Guarded step one state labels ↔ Guarded step two state labels :=
  ⟨Guarded.mono (fun state label holds _ => preserved state label holds)
      (fun state label holds => (same state label holds).mp) initially,
    Guarded.mono (fun state label holds _ => preserved state label holds)
      (fun state label holds => (same state label holds).mpr) initially⟩

theorem Always.mono {weak strong : State → Prop}
    (weaken : ∀ state, strong state → weak state) {state : State} {labels : List Label}
    (always : Always step strong state labels) :
    Always step weak state labels := by
  induction labels generalizing state with
  | nil => exact weaken state always
  | cons label labels ih => exact ⟨weaken state always.1, ih always.2⟩

theorem Always.head {property : State → Prop} {state : State} {labels : List Label}
    (always : Always step property state labels) : property state := by
  cases labels with
  | nil => exact always
  | cons label labels => exact always.1

theorem Always.finish {property : State → Prop} {state : State} {labels : List Label}
    (always : Always step property state labels) :
    property (finish step state labels) := by
  induction labels generalizing state with
  | nil => exact always
  | cons label labels ih => exact ih always.2

/-- Splitting a run: a property holds always exactly if it holds after every prefix. -/
theorem always_iff_splits {property : State → Prop} {state : State} {labels : List Label} :
    Always step property state labels ↔
      ∀ first second, labels = first ++ second → property (StateMachine.finish step state first) := by
  induction labels generalizing state with
  | nil =>
    constructor
    · rintro always first second split
      obtain ⟨rfl, rfl⟩ := List.append_eq_nil_iff.mp split.symm
      exact always
    · intro always
      exact always [] [] rfl
  | cons label labels ih =>
    constructor
    · rintro ⟨now, later⟩ first second split
      cases first with
      | nil => exact now
      | cons head first =>
        obtain ⟨rfl, rest⟩ := List.cons.inj split
        exact ih.mp later first second rest
    · intro always
      refine ⟨always [] _ rfl, ih.mpr ?_⟩
      intro first second split
      exact always (label :: first) second (by rw [split]; rfl)

theorem always_iff_guarded_among (admitted : Label → Prop) (auxiliary : State → Prop)
    {property : State → Prop} {guard : State → Label → Prop}
    (kept : ∀ state label, admitted label → auxiliary state → property state →
      auxiliary (step state label))
    (decided : ∀ state label, admitted label → auxiliary state → property state →
      (property (step state label) ↔ guard state label))
    {state : State} (auxiliary_initially : auxiliary state) (property_initially : property state)
    (labels : List Label) (all : ∀ label ∈ labels, admitted label) :
    Always step property state labels ↔ Guarded step guard state labels := by
  induction labels generalizing state with
  | nil => exact ⟨fun _ => trivial, fun _ => property_initially⟩
  | cons label labels ih =>
    have head := all label List.mem_cons_self
    have decision := decided state label head auxiliary_initially property_initially
    have next := kept state label head auxiliary_initially property_initially
    have rest : ∀ later ∈ labels, admitted later := fun later member =>
      all later (List.mem_cons_of_mem label member)
    constructor
    · rintro ⟨_, later⟩
      exact ⟨decision.mp later.head, (ih next later.head rest).mp later⟩
    · rintro ⟨now, later⟩
      exact ⟨property_initially, (ih next (decision.mpr now) rest).mpr later⟩

theorem always_iff_guarded (auxiliary : State → Prop) {property : State → Prop}
    {guard : State → Label → Prop}
    (kept : ∀ state label, auxiliary state → property state → auxiliary (step state label))
    (decided : ∀ state label, auxiliary state → property state →
      (property (step state label) ↔ guard state label))
    {state : State} (auxiliary_initially : auxiliary state) (property_initially : property state)
    (labels : List Label) :
    Always step property state labels ↔ Guarded step guard state labels :=
  always_iff_guarded_among (fun _ => True) auxiliary (fun state label _ => kept state label)
    (fun state label _ => decided state label) auxiliary_initially property_initially labels
    fun _ _ => trivial

/-! ## Two machines side by side -/

section SideBySide

variable {State' Label' : Type*}

/-- Each label belongs to one of two machines, and leaves the other one alone. -/
def sideBySide (first : State → Label → State) (second : State' → Label' → State') :
    State × State' → Label ⊕ Label' → State × State'
  | (one, two), .inl label => (first one label, two)
  | (one, two), .inr label => (one, second two label)

/-- Each machine has its own guard. -/
def eachGuard (first : State → Label → Prop) (second : State' → Label' → Prop) :
    State × State' → Label ⊕ Label' → Prop
  | (one, _), .inl label => first one label
  | (_, two), .inr label => second two label

theorem sideBySide_preserves {first : State → Label → State} {second : State' → Label' → State'}
    {invariant : State → Prop} {invariant' : State' → Prop}
    (one : ∀ state label, invariant state → invariant (first state label))
    (two : ∀ state label, invariant' state → invariant' (second state label))
    (state : State × State') (label : Label ⊕ Label')
    (holds : invariant state.1 ∧ invariant' state.2) :
    invariant (sideBySide first second state label).1 ∧
      invariant' (sideBySide first second state label).2 := by
  cases label with
  | inl label => exact ⟨one _ label holds.1, holds.2⟩
  | inr label => exact ⟨holds.1, two _ label holds.2⟩

end SideBySide

end StateMachine
