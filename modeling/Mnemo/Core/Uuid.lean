import Mnemo.Core.Basic

/-!
# Reading a printed UUID back

The printed form of a number with at most 128 bits determines the number.
-/

namespace Mnemo
namespace Uuid

/-- The identifiers of 128 bits. -/
def bound : Nat := 16 ^ 32

/-- The value of a hexadecimal digit. -/
def digitValue (digit : Char) : Nat :=
  (List.range 16).findIdx fun value => value.digitChar == digit

/-- The number that hexadecimal digits denote. -/
def digitsValue (digits : List Char) : Nat :=
  digits.foldl (fun number digit => 16 * number + digitValue digit) 0

/-- The number whose printed form a text is; hyphens are skipped. -/
def ofText (text : String) : Nat := digitsValue (text.toList.filter fun digit => digit != '-')

theorem digitValue_of_lt {value : Nat} (digit : value < 16) :
    digitValue value.digitChar = value := by
  have all : ∀ value ∈ List.range 16, digitValue (Nat.digitChar value) = value := by decide
  exact all value (List.mem_range.mpr digit)

theorem digitsValue_concat (digits : List Char) (digit : Char) :
    digitsValue (digits ++ [digit]) = 16 * digitsValue digits + digitValue digit := by
  unfold digitsValue
  rw [List.foldl_append]
  rfl

theorem digitsValue_toDigits (number : Nat) : digitsValue (Nat.toDigits 16 number) = number := by
  induction number using Nat.strongRecOn with
  | ind number ih =>
    rw [Nat.toDigits_eq_if (by decide)]
    split
    · rename_i small
      have alone := digitsValue_concat [] number.digitChar
      rw [List.nil_append, digitValue_of_lt small] at alone
      rw [alone]
      simp [digitsValue]
    · rename_i large
      rw [digitsValue_concat, ih (number / 16) (by omega),
        digitValue_of_lt (Nat.mod_lt number (by decide)), Nat.div_add_mod]

theorem digitsValue_padded (zeros : Nat) (digits : List Char) :
    digitsValue (List.replicate zeros '0' ++ digits) = digitsValue digits := by
  have zero : digitsValue (List.replicate zeros '0') = 0 := by
    induction zeros with
    | zero => rfl
    | succ zeros ih =>
      rw [List.replicate_succ', digitsValue_concat, ih]
      decide
  unfold digitsValue at zero ⊢
  rw [List.foldl_append, zero]

theorem hyphen_notMem_toDigits (number : Nat) : '-' ∉ Nat.toDigits 16 number := by
  have digits : ∀ value < 16, Nat.digitChar value ≠ '-' := by decide
  induction number using Nat.strongRecOn with
  | ind number ih =>
    rw [Nat.toDigits_eq_if (by decide)]
    split
    · rename_i small
      rw [List.mem_singleton]
      exact (digits number small).symm
    · rename_i large
      rw [List.mem_append, List.mem_singleton, not_or]
      exact ⟨ih (number / 16) (by omega), (digits _ (Nat.mod_lt number (by decide))).symm⟩

theorem parts_eq {α : Type} (items : List α) (length : items.length = 32) :
    (items.drop 0).take 8 ++ ((items.drop 8).take 4 ++ ((items.drop 12).take 4 ++
      ((items.drop 16).take 4 ++ (items.drop 20).take 12))) = items := by
  have last : (items.drop 20).take 12 = items.drop 20 :=
    List.take_of_length_le (by simp [length])
  have fourth := List.take_append_drop 4 (items.drop 16)
  have third := List.take_append_drop 4 (items.drop 12)
  have second := List.take_append_drop 4 (items.drop 8)
  rw [List.drop_drop] at fourth third second
  rw [last, fourth, third, second, List.drop_zero, List.take_append_drop]

theorem ofText_toText {id : Uuid} (small : id < bound) : ofText id.toText = id := by
  set padded := List.replicate (32 - (Nat.toDigits 16 id).length) '0' ++ Nat.toDigits 16 id
    with padded_eq
  have length : padded.length = 32 := by
    have digits := (Nat.length_toDigits_le_iff (by decide) (by decide)).mpr small
    simp only [padded_eq, List.length_append, List.length_replicate]
    omega
  have plain : ∀ digit ∈ padded, (digit != '-') = true := by
    intro digit member
    rw [padded_eq, List.mem_append] at member
    rw [bne_iff_ne]
    rintro rfl
    rcases member with zero | digit
    · exact absurd (List.eq_of_mem_replicate zero) (by decide)
    · exact hyphen_notMem_toDigits id digit
  have part (start count : Nat) :
      ((padded.drop start).take count).filter (fun digit => digit != '-') =
        (padded.drop start).take count :=
    List.filter_eq_self.mpr fun digit member =>
      plain digit (List.mem_of_mem_drop (List.mem_of_mem_take member))
  have digits : (toText id).toList.filter (fun digit => digit != '-') = padded := by
    simp only [toText, ← padded_eq]
    simp only [String.intercalate_cons_cons, String.intercalate_singleton, String.toList_append,
      String.toList_ofList, List.filter_append, part]
    simpa using parts_eq padded length
  rw [ofText, digits, padded_eq, digitsValue_padded, digitsValue_toDigits]

theorem toText_inj {first second : Uuid} (one : first < bound) (two : second < bound) :
    first.toText = second.toText ↔ first = second := by
  refine ⟨fun same => ?_, fun same => congrArg toText same⟩
  rw [← ofText_toText one, ← ofText_toText two, same]

end Uuid
end Mnemo
