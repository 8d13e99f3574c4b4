import Mathlib.Data.List.Infix
import Mnemo.Lib.ByteSlice

/-!
# Searches in a text, and slices between what they find

Offsets are counted in bytes.  What a search finds is where a character begins, so that a slice
between two finds fails only when they are in the wrong order.
-/

namespace ByteSlice

/-- The characters between two byte offsets, if they are in order and where characters end. -/
def sliceBytes (start stop : Nat) (text : List Char) : Option (List Char) :=
  if start ≤ stop then
    (takeBytes stop text).bind fun front =>
      (takeBytes start text).map fun skipped => front.drop skipped.length
  else none

/-- The offset of the last occurrence of a part. -/
def rfind (part : List Char) : List Char → Option Nat
  | [] => if part = [] then some 0 else none
  | character :: rest =>
      match rfind part rest with
      | some offset => some (character.utf8Size + offset)
      | none => if part.isPrefixOf (character :: rest) then some 0 else none

variable {text part front middle back : List Char} {offset : Nat} {property : Char → Bool}

theorem sliceBytes_append (front middle back : List Char) :
    sliceBytes (bytes front) (bytes front + bytes middle) (front ++ middle ++ back) =
      some middle := by
  have whole : takeBytes (bytes front + bytes middle) (front ++ middle ++ back) =
      some (front ++ middle) := by
    rw [← bytes_append]
    exact takeBytes_append (front ++ middle) back
  have skipped : takeBytes (bytes front) (front ++ middle ++ back) = some front := by
    rw [List.append_assoc]
    exact takeBytes_append front (middle ++ back)
  rw [sliceBytes, if_pos (Nat.le_add_right _ _), whole, Option.bind_some, skipped, Option.map_some,
    List.drop_left]

theorem sliceBytes_eq_none_iff {start stop : Nat} (first : IsBoundary text start)
    (second : IsBoundary text stop) : sliceBytes start stop text = none ↔ stop < start := by
  obtain ⟨skipped, skips⟩ := Option.isSome_iff_exists.mp (takeBytes_isSome_iff.mpr first)
  obtain ⟨taken, takes⟩ := Option.isSome_iff_exists.mp (takeBytes_isSome_iff.mpr second)
  rw [sliceBytes]
  split
  · rw [takes, Option.bind_some, skips, Option.map_some]
    simp
    omega
  · exact iff_of_true rfl (by omega)

/-! ## The first character with a property -/

theorem findByte_append (none : ∀ character ∈ front, property character = false)
    {character : Char} (hit : property character = true) (back : List Char) :
    findByte property (front ++ character :: back) = some (bytes front) := by
  induction front with
  | nil => simp [findByte, hit]
  | cons first front ih =>
    obtain ⟨now, later⟩ := List.forall_mem_cons.mp none
    rw [List.cons_append, findByte, if_neg (by simp [now]), ih later]
    rfl

theorem findByte_eq_none_iff :
    findByte property text = none ↔ ∀ character ∈ text, property character = false := by
  induction text with
  | nil => simp [findByte]
  | cons first text ih =>
    rw [findByte]
    by_cases hit : property first = true
    · simp [hit]
    · rw [if_neg hit, Option.map_eq_none_iff, ih]
      simp [hit]

theorem isBoundary_findByte (found : findByte property text = some offset) :
    IsBoundary text offset := by
  obtain ⟨front, character, back, rfl, -, size⟩ := findByte_eq_some found
  exact ⟨front, character :: back, rfl, size⟩

/-! ## The last occurrence of a part -/

theorem rfind_eq_some (found : rfind part text = some offset) :
    ∃ front back, text = front ++ part ++ back ∧ bytes front = offset := by
  induction text generalizing offset with
  | nil =>
    rw [rfind] at found
    split at found
    · rename_i empty
      exact ⟨[], [], by simp [empty], Option.some.inj found⟩
    · exact nomatch found
  | cons character rest ih =>
    rw [rfind] at found
    cases later : rfind part rest with
    | some inner =>
      rw [later] at found
      obtain ⟨front, back, rfl, size⟩ := ih later
      refine ⟨character :: front, back, rfl, ?_⟩
      rw [bytes_cons, size]
      exact Option.some.inj found
    | none =>
      rw [later] at found
      dsimp only at found
      split at found
      · rename_i begins
        obtain ⟨back, whole⟩ := List.isPrefixOf_iff_prefix.mp begins
        exact ⟨[], back, by simpa using whole.symm, Option.some.inj found⟩
      · exact nomatch found

/-- No occurrence is behind the one that is found. -/
theorem le_rfind (front part back : List Char) :
    ∃ offset, rfind part (front ++ part ++ back) = some offset ∧ bytes front ≤ offset := by
  induction front with
  | nil =>
    rw [List.nil_append]
    cases whole : part ++ back with
    | nil =>
      have empty : part = [] := (List.append_eq_nil_iff.mp whole).1
      exact ⟨0, by simp [rfind, empty], Nat.le_refl 0⟩
    | cons character rest =>
      rw [rfind]
      cases rfind part rest with
      | some offset => exact ⟨_, rfl, Nat.zero_le _⟩
      | none =>
        have begins : part.isPrefixOf (character :: rest) = true :=
          List.isPrefixOf_iff_prefix.mpr ⟨back, whole⟩
        exact ⟨0, by simp [begins], Nat.le_refl 0⟩
  | cons character front ih =>
    obtain ⟨offset, found, least⟩ := ih
    refine ⟨character.utf8Size + offset, ?_, ?_⟩
    · rw [List.cons_append, List.cons_append, rfind, found]
    · rw [bytes_cons]
      omega

theorem le_rfind_iff (found : rfind part (front ++ back) = some offset) :
    bytes front ≤ offset ↔ part <:+: back := by
  constructor
  · intro least
    obtain ⟨before, after, whole, rfl⟩ := rfind_eq_some found
    rw [List.append_assoc] at whole
    rcases List.append_eq_append_iff.mp whole with ⟨middle, rfl, rfl⟩ | ⟨middle, rfl, same⟩
    · exact ⟨middle, after, List.append_assoc _ _ _⟩
    · cases middle with
      | nil => exact ⟨[], after, by simpa using same⟩
      | cons character middle =>
        have := character.utf8Size_pos
        rw [bytes_append, bytes_cons] at least
        omega
  · rintro ⟨before, after, rfl⟩
    obtain ⟨later, again, least⟩ := le_rfind (front ++ before) part after
    have same : front ++ (before ++ part ++ after) = front ++ before ++ part ++ after := by
      simp only [List.append_assoc]
    rw [same, again] at found
    rw [bytes_append, Option.some.inj found] at least
    omega

theorem isBoundary_rfind (found : rfind part text = some offset) : IsBoundary text offset := by
  obtain ⟨front, back, rfl, size⟩ := rfind_eq_some found
  exact ⟨front, part ++ back, List.append_assoc _ _ _, size⟩

theorem rfind_append (front part : List Char) :
    rfind part (front ++ part) = some (bytes front) := by
  obtain ⟨offset, found, least⟩ := le_rfind front part []
  rw [List.append_nil] at found
  obtain ⟨before, after, whole, rfl⟩ := rfind_eq_some found
  have size := congrArg bytes whole
  simp only [bytes_append] at size
  rw [found, Nat.le_antisymm least (by omega)]

end ByteSlice
