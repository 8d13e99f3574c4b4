import Mathlib.Order.Lattice
import Mathlib.Order.Basic
import Mathlib.Tactic.Common

/-!
# Half-open spans of time

A span covers the instants from its start on, up to its end when it has one.
-/

/-- A span of time, which may still be open. -/
structure Span (Time : Type) where
  start : Time
  stop : Option Time
  deriving DecidableEq

namespace Span

variable {Time : Type} [LinearOrder Time]

/-- The instants of a span. -/
def Covers (span : Span Time) (instant : Time) : Prop :=
  span.start ≤ instant ∧ ∀ stop, span.stop = some stop → instant < stop

/-- No instant belongs to both spans. -/
def Apart (first second : Span Time) : Prop :=
  ∀ instant, ¬ (first.Covers instant ∧ second.Covers instant)

/-- The span ends before a later one starts, or before it starts itself. -/
def EndsBy (span : Span Time) (instant : Time) : Prop :=
  ∃ stop, span.stop = some stop ∧ stop ≤ max span.start instant

theorem Apart.symm {first second : Span Time} (apart : first.Apart second) :
    second.Apart first :=
  fun instant both => apart instant both.symm

theorem Covers.of_closed {start instant : Time} {stop : Option Time}
    (covers : (⟨start, stop⟩ : Span Time).Covers instant) :
    (⟨start, none⟩ : Span Time).Covers instant :=
  ⟨covers.1, fun _ impossible => by cases impossible⟩

theorem Apart.close {start : Time} {other : Span Time}
    (apart : (⟨start, none⟩ : Span Time).Apart other) (stop : Option Time) :
    (⟨start, stop⟩ : Span Time).Apart other :=
  fun instant both => apart instant ⟨both.1.of_closed, both.2⟩

theorem apart_open_iff (span : Span Time) (instant : Time) :
    span.Apart ⟨instant, none⟩ ↔ span.EndsBy instant := by
  constructor
  · intro apart
    have outside : ¬ span.Covers (max span.start instant) := fun covers =>
      apart _ ⟨covers, le_max_right _ _, fun _ impossible => by cases impossible⟩
    cases ends : span.stop with
    | none =>
      refine absurd ⟨le_max_left _ _, fun stop same => ?_⟩ outside
      rw [ends] at same
      cases same
    | some stop =>
      refine ⟨stop, ends, not_lt.mp fun before => outside ⟨le_max_left _ _, ?_⟩⟩
      intro other same
      obtain rfl := Option.some.inj (ends.symm.trans same)
      exact before
  · rintro ⟨stop, ends, early⟩ at_ ⟨⟨started, within⟩, opened, _⟩
    have before : at_ < stop := within stop ends
    have after : max span.start instant ≤ at_ := max_le started opened
    exact absurd (early.trans after) (not_le.mpr before)

end Span
