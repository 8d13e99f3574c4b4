import Mathlib
import Mnemo.Core.Text

/-!
# Token budgets

A section of a context is filled line by line while the tokens charged for it stay within a limit.
The sections are joined with line breaks, which nobody charges for.
-/

namespace Mnemo
namespace Context

/-- Approximate token counting, with about four bytes to a token; the cast to 32 bits saturates. -/
def estimateTokens (text : String) : Nat := min ((Text.byteLength text + 3) / 4) (2 ^ 32 - 1)

/-- Add two counts of 32 bits; an overflow panics. -/
def checkedAdd (count more : Nat) : Option Nat :=
  if count + more < 2 ^ 32 then some (count + more) else none

/-- A section under construction, with the tokens charged so far. -/
structure Section where
  text : String
  runningTokens : Nat
  itemsAdded : Nat
  deriving DecidableEq, Repr

/-- Append a line. -/
def Section.add (section' : Section) (line : String) (total : Nat) : Section :=
  { text := section'.text ++ line
    runningTokens := total
    itemsAdded := section'.itemsAdded + 1 }

/-- Append lines up to the first one that exceeds the limit. -/
def addLines (limit : Nat) : Section → List String → Option Section
  | section', [] => some section'
  | section', line :: lines =>
      (checkedAdd section'.runningTokens (estimateTokens line)).bind fun total =>
        if limit < total then some section' else addLines limit (section'.add line total) lines

/-- The sections so far, with the tokens charged for them. -/
structure Assembly where
  parts : List String
  runningTokens : Nat
  deriving DecidableEq, Repr

/-- Nothing assembled yet. -/
def Assembly.empty : Assembly := ⟨[], 0⟩

/-- Join the parts with line breaks. -/
def joinParts (parts : List String) : String := String.intercalate "\n" parts

/-! ## Sums that do not overflow -/

theorem checkedAdd_eq_some_iff {count more total : Nat} :
    checkedAdd count more = some total ↔ count + more < 2 ^ 32 ∧ count + more = total := by
  rw [checkedAdd]
  split
  next fits => rw [Option.some.injEq, and_iff_right fits]
  next overflows => exact iff_of_false nofun fun fits => overflows fits.1

theorem checkedAdd_of_lt {count more : Nat} (fits : count + more < 2 ^ 32) :
    checkedAdd count more = some (count + more) := if_pos fits

theorem byteLength_le_of_add_lt {text : String} {count : Nat} (positive : 0 < count)
    (fits : count + estimateTokens text < 2 ^ 32) :
    Text.byteLength text ≤ 4 * estimateTokens text := by
  rw [estimateTokens] at fits ⊢
  omega

theorem estimateTokens_le {text : String} {count : Nat} (within : Text.byteLength text ≤ 4 * count) :
    estimateTokens text ≤ count := by
  rw [estimateTokens]
  omega

/-! ## Filling a section -/

/-- What filling a section does to its bytes and to its charge. -/
structure Section.Extends (start finish : Section) (limit : Nat) : Prop where
  charged : start.runningTokens ≤ finish.runningTokens
  within : finish.runningTokens ≤ limit
  bytes : Text.byteLength finish.text + 4 * start.runningTokens ≤
    Text.byteLength start.text + 4 * finish.runningTokens
  added : start.itemsAdded ≤ finish.itemsAdded
  idle : finish.itemsAdded = start.itemsAdded → finish.runningTokens = start.runningTokens

theorem Section.Extends.refl {start : Section} {limit : Nat} (within : start.runningTokens ≤ limit) :
    start.Extends start limit :=
  ⟨Nat.le_refl _, within, Nat.le_refl _, Nat.le_refl _, fun _ => rfl⟩

theorem Section.Extends.of_add {start finish : Section} {limit total : Nat} {line : String}
    (rest : (start.add line total).Extends finish limit) (positive : 0 < start.runningTokens)
    (sum : checkedAdd start.runningTokens (estimateTokens line) = some total) :
    start.Extends finish limit := by
  obtain ⟨fits, rfl⟩ := checkedAdd_eq_some_iff.mp sum
  have bytes := byteLength_le_of_add_lt positive fits
  obtain ⟨charged, within, size, added, -⟩ := rest
  simp only [Section.add, Text.byteLength, String.utf8ByteSize_append] at charged size added bytes
  refine ⟨by omega, within, ?_, by omega, fun same => by omega⟩
  simp only [Text.byteLength]
  omega

theorem addLines_extends {limit : Nat} {start finish : Section} {lines : List String}
    (positive : 0 < start.runningTokens) (within : start.runningTokens ≤ limit)
    (filled : addLines limit start lines = some finish) : start.Extends finish limit := by
  induction lines generalizing start with
  | nil =>
    obtain rfl := Option.some.inj filled
    exact .refl within
  | cons line lines ih =>
    rw [addLines, Option.bind_eq_some_iff] at filled
    obtain ⟨total, sum, filled⟩ := filled
    split at filled
    next =>
      obtain rfl := Option.some.inj filled
      exact .refl within
    next fits =>
      have grows := (checkedAdd_eq_some_iff.mp sum).2
      have more : 0 < (start.add line total).runningTokens := by
        change 0 < total
        omega
      exact (ih more (Nat.not_lt.mp fits) filled).of_add positive sum

theorem addLines_isSome {limit : Nat} {start : Section} {lines : List String}
    (within : start.runningTokens ≤ limit)
    (small : ∀ line ∈ lines, limit + estimateTokens line < 2 ^ 32) :
    (addLines limit start lines).isSome = true := by
  induction lines generalizing start with
  | nil => rfl
  | cons line lines ih =>
    obtain ⟨first, others⟩ := List.forall_mem_cons.mp small
    have fits : start.runningTokens + estimateTokens line < 2 ^ 32 := by omega
    rw [addLines, checkedAdd_of_lt fits, Option.bind_some]
    split
    · rfl
    · next below => exact ih (Nat.not_lt.mp below) others

/-! ## Joining the parts -/

theorem byteLength_joinParts_append (parts : List String) (part : String) :
    Text.byteLength (joinParts (parts ++ [part])) =
      Text.byteLength (joinParts parts) + (if parts = [] then 0 else 1) +
        Text.byteLength part := by
  induction parts with
  | nil => simp [joinParts, Text.byteLength]
  | cons first parts ih =>
    have separator : "\n".utf8ByteSize = 1 := by decide
    cases parts with
    | nil =>
      simp [joinParts, Text.byteLength, String.utf8ByteSize_append, separator]
    | cons second parts =>
      simp only [joinParts, Text.byteLength, List.cons_append,
        String.intercalate_cons_cons, String.utf8ByteSize_append, separator] at ih ⊢
      rw [ih]
      simp only [reduceCtorEq, if_false]
      omega

/-- An assembly whose joined text is charged for. -/
structure Assembly.Charged (assembly : Assembly) (limit : Nat) : Prop where
  bytes : Text.byteLength (joinParts assembly.parts) ≤ 4 * assembly.runningTokens
  within : assembly.runningTokens ≤ limit

theorem Assembly.charged_empty (limit : Nat) : Assembly.empty.Charged limit :=
  ⟨Nat.zero_le _, Nat.zero_le _⟩

theorem Assembly.Charged.estimateTokens_le {assembly : Assembly} {limit : Nat}
    (charged : assembly.Charged limit) : estimateTokens (joinParts assembly.parts) ≤ limit :=
  Nat.le_trans (Context.estimateTokens_le charged.bytes) charged.within

end Context
end Mnemo
