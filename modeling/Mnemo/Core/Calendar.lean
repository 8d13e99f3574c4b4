import Mnemo.Core.Basic

/-!
# The calendar

Instants are kept as dates of a calendar that has a first and a last one.  Arithmetic on instants
that leaves the calendar has no result.
-/

namespace Mnemo

/-- The instants which can be represented; the epoch is one of them. -/
structure Calendar where
  first : DateTime
  last : DateTime
  first_le : first ≤ 0
  le_last : 0 ≤ last

namespace Calendar

variable (calendar : Calendar)

/-- The calendar has the instant. -/
def Has (instant : DateTime) : Prop := calendar.first ≤ instant ∧ instant ≤ calendar.last

instance (instant : DateTime) : Decidable (calendar.Has instant) :=
  inferInstanceAs (Decidable (_ ∧ _))

/-- An instant, if the calendar has it. -/
def represent (instant : DateTime) : Option DateTime :=
  if calendar.Has instant then some instant else none

/-- The instant so many seconds after the epoch. -/
def fromTimestamp (seconds : Int) : Option DateTime := calendar.represent (seconds * 1000000000)

variable {calendar}

theorem epoch_le : (0 : DateTime) ≤ 0 := le_refl 0

@[simp]
theorem represent_eq_some {instant found : DateTime} :
    calendar.represent instant = some found ↔ calendar.Has instant ∧ instant = found := by
  simp [represent]

@[simp]
theorem represent_eq_none {instant : DateTime} :
    calendar.represent instant = none ↔ ¬ calendar.Has instant := by
  simp [represent]

end Calendar
end Mnemo
