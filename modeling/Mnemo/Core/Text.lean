import Mathlib.Data.List.Defs

/-!
# Text operations

The operations on strings which the system takes from its standard library.
-/

namespace Mnemo
namespace Text

/-- The characters with the Unicode property `White_Space`. -/
def isWhitespace (character : Char) : Bool :=
  let code := character.toNat
  (9 ≤ code && code ≤ 13) || code == 0x20 || code == 0x85 || code == 0xA0 || code == 0x1680 ||
    (0x2000 ≤ code && code ≤ 0x200A) || code == 0x2028 || code == 0x2029 || code == 0x202F ||
    code == 0x205F || code == 0x3000

/-- Remove leading and trailing white space. -/
def trim (text : String) : String :=
  String.ofList (((text.toList.dropWhile isWhitespace).reverse.dropWhile isWhitespace).reverse)

/-- Whether a text begins with a given one. -/
def startsWith (text start : String) : Bool := start.toList.isPrefixOf text.toList

/-- What follows a given beginning of a text. -/
def stripStart (text start : String) : Option String :=
  (start.toList.isPrefixOf? text.toList).map String.ofList

/-- Whether a text occurs inside another. -/
def occursIn (part text : String) : Bool :=
  text.toList.tails.any fun rest => part.toList.isPrefixOf rest

/-- Lower-case the ASCII letters of a text. -/
def toAsciiLowercase (text : String) : String := String.ofList (text.toList.map Char.toLower)

/-- Whether a character is an ASCII letter or digit. -/
def isAsciiAlphanumeric (character : Char) : Bool :=
  ('a' ≤ character && character ≤ 'z') || ('A' ≤ character && character ≤ 'Z') ||
    ('0' ≤ character && character ≤ '9')

/-- The length of a text in bytes of its UTF-8 encoding. -/
def byteLength (text : String) : Nat := text.utf8ByteSize

/-! ## Texts that are joined with a separator -/

theorem append_separator_inj {α : Type} {separator : α} {front other back rest : List α}
    (notFront : separator ∉ front) (notOther : separator ∉ other) :
    front ++ separator :: back = other ++ separator :: rest ↔ front = other ∧ back = rest := by
  refine ⟨fun same => ?_, fun ⟨fronts, backs⟩ => by rw [fronts, backs]⟩
  induction front generalizing other with
  | nil =>
    cases other with
    | nil => exact ⟨rfl, (List.cons.inj same).2⟩
    | cons head tail =>
      rw [(List.cons.inj same).1] at notOther
      exact absurd List.mem_cons_self notOther
  | cons first front ih =>
    cases other with
    | nil =>
      rw [← (List.cons.inj same).1] at notFront
      exact absurd List.mem_cons_self notFront
    | cons head tail =>
      obtain ⟨rfl, tails⟩ := List.cons.inj same
      obtain ⟨rfl, backs⟩ := ih (List.not_mem_of_not_mem_cons notFront)
        (List.not_mem_of_not_mem_cons notOther) tails
      exact ⟨rfl, backs⟩

theorem separator_append_inj {α : Type} {separator : α} {front other back rest : List α}
    (notBack : separator ∉ back) (notRest : separator ∉ rest) :
    front ++ separator :: back = other ++ separator :: rest ↔ front = other ∧ back = rest := by
  refine ⟨fun same => ?_, fun ⟨fronts, backs⟩ => by rw [fronts, backs]⟩
  have reversed : back.reverse ++ separator :: front.reverse =
      rest.reverse ++ separator :: other.reverse := by
    simpa using congrArg List.reverse same
  obtain ⟨backs, fronts⟩ := (append_separator_inj (by simpa using notBack)
    (by simpa using notRest)).mp reversed
  exact ⟨List.reverse_inj.mp fronts, List.reverse_inj.mp backs⟩

end Text
end Mnemo
