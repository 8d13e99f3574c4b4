import Mathlib.Data.List.Defs
import Mathlib.Order.Basic

/-!
# Slices at byte offsets

A text encoded in UTF-8 can be cut only where a character ends.  Offsets are counted in bytes, so a
cut in the middle of a character has no result.
-/

namespace ByteSlice

/-- The number of bytes of some characters. -/
def bytes : List Char → Nat
  | [] => 0
  | character :: rest => character.utf8Size + bytes rest

/-- The characters before a byte offset, if the offset is where a character ends. -/
def takeBytes : Nat → List Char → Option (List Char)
  | 0, _ => some []
  | _ + 1, [] => none
  | offset + 1, character :: rest =>
      if character.utf8Size ≤ offset + 1 then
        (takeBytes (offset + 1 - character.utf8Size) rest).map (character :: ·)
      else none

/-- The offset of the first character with a property. -/
def findByte (property : Char → Bool) : List Char → Option Nat
  | [] => none
  | character :: rest =>
      if property character then some 0
      else (findByte property rest).map (character.utf8Size + ·)

/-- An offset at which a character ends, or the text begins. -/
def IsBoundary (text : List Char) (offset : Nat) : Prop :=
  ∃ front back, text = front ++ back ∧ bytes front = offset

@[simp]
theorem bytes_nil : bytes [] = 0 := rfl

@[simp]
theorem bytes_cons (character : Char) (rest : List Char) :
    bytes (character :: rest) = character.utf8Size + bytes rest := rfl

@[simp]
theorem bytes_append (front back : List Char) : bytes (front ++ back) = bytes front + bytes back := by
  induction front with
  | nil => simp
  | cons character front ih => simp [ih, Nat.add_assoc]

theorem utf8ByteSize_ofList (characters : List Char) :
    (String.ofList characters).utf8ByteSize = bytes characters := by
  induction characters with
  | nil => rfl
  | cons character rest ih =>
    rw [String.ofList_cons, String.utf8ByteSize_append, String.utf8ByteSize_singleton, ih,
      bytes_cons]

theorem utf8ByteSize_eq (text : String) : text.utf8ByteSize = bytes text.toList := by
  rw [← utf8ByteSize_ofList, String.ofList_toList]

theorem takeBytes_append (front back : List Char) :
    takeBytes (bytes front) (front ++ back) = some front := by
  induction front with
  | nil =>
    rw [bytes_nil, takeBytes]
  | cons character front ih =>
    obtain ⟨offset, size⟩ : ∃ offset, bytes (character :: front) = offset + 1 :=
      Nat.exists_eq_add_one_of_ne_zero (by have := character.utf8Size_pos; simp; omega)
    have rest : offset + 1 - character.utf8Size = bytes front := by
      rw [← size, bytes_cons, Nat.add_sub_cancel_left]
    have fits : character.utf8Size ≤ offset + 1 := by
      rw [← size, bytes_cons]
      exact Nat.le_add_right _ _
    rw [size, List.cons_append, takeBytes, if_pos fits, rest, ih]
    rfl

/-- What is taken is the front of that many bytes. -/
theorem takeBytes_eq_some_iff {offset : Nat} {text front : List Char} :
    takeBytes offset text = some front ↔ ∃ back, text = front ++ back ∧ bytes front = offset := by
  constructor
  · intro taken
    induction text generalizing offset front with
    | nil =>
      cases offset with
      | zero =>
        obtain rfl := Option.some.inj taken
        exact ⟨[], rfl, rfl⟩
      | succ offset => exact nomatch taken
    | cons character rest ih =>
      cases offset with
      | zero =>
        obtain rfl := Option.some.inj taken
        exact ⟨character :: rest, rfl, rfl⟩
      | succ offset =>
        rw [takeBytes] at taken
        split at taken
        next fits =>
          obtain ⟨others, found, rfl⟩ := Option.map_eq_some_iff.mp taken
          obtain ⟨back, rfl, size⟩ := ih found
          refine ⟨back, rfl, ?_⟩
          rw [bytes_cons]
          omega
        next => exact nomatch taken
  · rintro ⟨back, rfl, rfl⟩
    exact takeBytes_append front back

theorem takeBytes_isSome_iff {offset : Nat} {text : List Char} :
    (takeBytes offset text).isSome = true ↔ IsBoundary text offset := by
  simp only [Option.isSome_iff_exists, takeBytes_eq_some_iff, IsBoundary]

instance (text : List Char) (offset : Nat) : Decidable (IsBoundary text offset) :=
  decidable_of_iff _ takeBytes_isSome_iff

theorem isBoundary_bytes (text : List Char) : IsBoundary text (bytes text) :=
  ⟨text, [], (List.append_nil text).symm, rfl⟩

theorem findByte_eq_some {property : Char → Bool} {text : List Char} {offset : Nat}
    (found : findByte property text = some offset) :
    ∃ front character back, text = front ++ character :: back ∧ property character = true ∧
      bytes front = offset := by
  induction text generalizing offset with
  | nil => exact nomatch found
  | cons character rest ih =>
    rw [findByte] at found
    split at found
    next holds => exact ⟨[], character, rest, rfl, holds, Option.some.inj found⟩
    next =>
      obtain ⟨later, inRest, rfl⟩ := Option.map_eq_some_iff.mp found
      obtain ⟨front, hit, back, rfl, holds, size⟩ := ih inRest
      exact ⟨character :: front, hit, back, rfl, holds, by rw [bytes_cons, size]⟩

theorem isBoundary_findByte_succ {property : Char → Bool} {text : List Char} {offset : Nat}
    (single : ∀ character, property character = true → character.utf8Size = 1)
    (found : findByte property text = some offset) : IsBoundary text (offset + 1) := by
  obtain ⟨front, character, back, rfl, holds, rfl⟩ := findByte_eq_some found
  refine ⟨front ++ [character], back, by simp, ?_⟩
  rw [bytes_append, bytes_cons, single character holds, bytes_nil]

end ByteSlice
