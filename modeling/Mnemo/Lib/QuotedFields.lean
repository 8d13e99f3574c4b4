import Mathlib.Data.List.Basic

/-!
# Objects with text fields

An object whose fields are texts, written in a fixed order between quotation marks, and read back.
-/

namespace QuotedFields

/-- A text with its quotation marks and backslashes escaped. -/
def escape : List Char → List Char
  | [] => []
  | character :: rest =>
      if character = '"' ∨ character = '\\' then '\\' :: character :: escape rest
      else character :: escape rest

/-- The text up to its closing quotation mark, and what follows. -/
def unescape : List Char → Option (List Char × List Char)
  | [] => none
  | '"' :: rest => some ([], rest)
  | '\\' :: character :: rest =>
      (unescape rest).map fun (text, rest) => (character :: text, rest)
  | character :: rest => (unescape rest).map fun (text, rest) => (character :: text, rest)

/-- Fields, each after a comma. -/
def write : List (List Char × List Char) → List Char
  | [] => []
  | (name, value) :: fields =>
      ',' :: '"' :: (name ++ '"' :: ':' :: '"' :: (escape value ++ '"' :: write fields))

/-- What follows a given text. -/
def expect (given text : List Char) : Option (List Char) :=
  if text.take given.length = given then some (text.drop given.length) else none

/-- The values of fields with given names, and what follows. -/
def read : List (List Char) → List Char → Option (List (List Char) × List Char)
  | [], text => some ([], text)
  | name :: names, text => do
      let text ← expect (',' :: '"' :: (name ++ ['"', ':', '"'])) text
      let (value, text) ← unescape text
      let (values, text) ← read names text
      pure (value :: values, text)

@[simp]
theorem expect_append (given text : List Char) : expect given (given ++ text) = some text := by
  simp [expect]

theorem unescape_escape (text rest : List Char) :
    unescape (escape text ++ '"' :: rest) = some (text, rest) := by
  induction text with
  | nil => rfl
  | cons character text ih =>
    rw [escape]
    split
    · rw [List.cons_append, List.cons_append, unescape, ih]
      rfl
    · rename_i plain
      obtain ⟨noQuote, noBackslash⟩ := not_or.mp plain
      rw [List.cons_append, unescape, ih]
      · rfl
      · exact noQuote
      · exact fun _ _ same _ => noBackslash same

theorem read_write (fields : List (List Char × List Char)) (rest : List Char) :
    read (fields.map Prod.fst) (write fields ++ rest) = some (fields.map Prod.snd, rest) := by
  induction fields with
  | nil => rfl
  | cons field fields ih =>
    obtain ⟨name, value⟩ := field
    have start : write ((name, value) :: fields) ++ rest =
        (',' :: '"' :: (name ++ ['"', ':', '"'])) ++
          (escape value ++ '"' :: (write fields ++ rest)) := by
      simp [write]
    simp only [List.map_cons, read, start, expect_append, Option.bind_eq_bind, Option.bind_some,
      unescape_escape, ih]
    rfl

end QuotedFields
