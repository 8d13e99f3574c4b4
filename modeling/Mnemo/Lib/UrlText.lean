import Mnemo.Lib.Url

/-!
# The text of addresses

An address is written as segments behind slashes and parameters behind marks.  Dropping its blank
ends and line breaks takes characters from the segments and parameters, and leaves the marks.
-/

open PercentEncoding

namespace Url

/-! ## Joined texts -/

/-- Write segments, each behind a slash. -/
def joinPath (segments : List (List Char)) : List Char := segments.flatMap ('/' :: ·)

/-- Write parameters, the first behind a mark and the others behind ampersands. -/
def joinParameters : Char → List (List Char × List Char) → List Char
  | _, [] => []
  | mark, (name, value) :: rest =>
      mark :: (name ++ '=' :: (value ++ joinParameters '&' rest))

@[simp]
theorem joinPath_nil : joinPath [] = [] := rfl

@[simp]
theorem joinPath_cons (segment : List Char) (segments : List (List Char)) :
    joinPath (segment :: segments) = '/' :: (segment ++ joinPath segments) := rfl

theorem joinPath_append (front back : List (List Char)) :
    joinPath (front ++ back) = joinPath front ++ joinPath back := List.flatMap_append

/-- The characters that separate the path from what follows it. -/
def endsPath (character : Char) : Bool := character == '?' || character == '#'

/-- A character that means nothing else in any part of an address. -/
def isQuiet (character : Char) : Bool :=
  !(isBlank character || isSlash character || endsPath character || character == '&' ||
    character == '+')

theorem isQuiet_iff (character : Char) :
    isQuiet character = true ↔ isBlank character = false ∧ isSlash character = false ∧
      endsPath character = false ∧ character ≠ '&' ∧ character ≠ '+' := by
  simp [isQuiet, and_assoc]

theorem isBreak_of_not_isBlank {character : Char} (visible : isBlank character = false) :
    isBreak character = false := by
  rw [Bool.eq_false_iff] at visible ⊢
  intro breaks
  apply visible
  simp only [isBreak, Bool.or_eq_true, beq_iff_eq] at breaks
  rcases breaks with (rfl | rfl) | rfl <;> decide

/-! ## What is left of a text -/

/-- What is left of a text when some characters are dropped, none of them quiet. -/
def Remains (part text : List Char) : Prop :=
  part.Sublist text ∧ ((∀ character ∈ text, isQuiet character = true) → part = text)

namespace Remains

theorem refl (text : List Char) : Remains text text := ⟨List.Sublist.refl text, fun _ => rfl⟩

theorem trans {part middle text : List Char} (first : Remains part middle)
    (second : Remains middle text) : Remains part text := by
  refine ⟨first.1.trans second.1, fun quiet => ?_⟩
  obtain rfl := second.2 quiet
  exact first.2 quiet

theorem filter (text : List Char) : Remains (text.filter (!isBreak ·)) text := by
  refine ⟨List.filter_sublist, fun quiet => List.filter_eq_self.mpr fun character member => ?_⟩
  rw [isBreak_of_not_isBlank ((isQuiet_iff character).mp (quiet character member)).1]
  rfl

theorem takeWhile {keep : Char → Bool} (keeps : ∀ character, isQuiet character = true →
    keep character = true) (text : List Char) : Remains (text.takeWhile keep) text :=
  ⟨List.takeWhile_sublist keep, fun quiet => List.takeWhile_eq_self_iff.mpr
    fun character member => keeps character (quiet character member)⟩

theorem tidyEnd (text : List Char) : Remains (tidyEnd text) text := by
  refine (filter _).trans ⟨(List.rdropWhile_prefix isBlank text).sublist, fun quiet => ?_⟩
  rw [List.rdropWhile_eq_self_iff]
  intro nonempty
  rw [((isQuiet_iff _).mp (quiet _ (List.getLast_mem nonempty))).1]
  exact Bool.false_ne_true

end Remains

theorem eq_of_forall₂_sublist {first second : List (List Char)}
    (forth : List.Forall₂ List.Sublist first second)
    (back : List.Forall₂ List.Sublist second first) : first = second := by
  induction forth with
  | nil => rfl
  | cons part rest ih =>
    cases back with
    | cons whole others => rw [part.antisymm whole, ih others]

/-! ## Blank ends and line breaks -/

theorem rdropWhile_append_cons {keep : Char → Bool} {mark : Char} (stops : keep mark = false)
    (front back : List Char) :
    (front ++ mark :: back).rdropWhile keep = front ++ mark :: back.rdropWhile keep := by
  have turned : (front ++ mark :: back).reverse = back.reverse ++ mark :: front.reverse := by simp
  rw [List.rdropWhile, turned, List.dropWhile_append]
  split
  next empty =>
    rw [List.rdropWhile, List.isEmpty_iff.mp empty]
    simp [stops]
  next => simp [List.rdropWhile]

theorem tidyEnd_append_cons {mark : Char} (visible : isBlank mark = false)
    (front back : List Char) :
    tidyEnd (front ++ mark :: back) = front.filter (!isBreak ·) ++ mark :: tidyEnd back := by
  rw [tidyEnd, rdropWhile_append_cons visible, List.filter_append, List.filter_cons,
    isBreak_of_not_isBlank visible]
  rfl

/-- What tidying leaves of the segments of a path at the end of an address. -/
def tidySegments : List (List Char) → List (List Char)
  | [] => []
  | [last] => [tidyEnd last]
  | segment :: next :: rest => segment.filter (!isBreak ·) :: tidySegments (next :: rest)

theorem tidyEnd_joinPath (segments : List (List Char)) :
    tidyEnd (joinPath segments) = joinPath (tidySegments segments) := by
  fun_induction tidySegments segments with
  | case1 => rfl
  | case2 last =>
    rw [joinPath_cons, joinPath_nil, List.append_nil, joinPath_cons, joinPath_nil,
      List.append_nil]
    exact tidyEnd_append_cons (by decide) [] last
  | case3 segment next rest ih =>
    have front := tidyEnd_append_cons (show isBlank '/' = false by decide) []
      (segment ++ joinPath (next :: rest))
    have inside := tidyEnd_append_cons (show isBlank '/' = false by decide) segment
      (next ++ joinPath rest)
    have last := tidyEnd_append_cons (show isBlank '/' = false by decide) []
      (next ++ joinPath rest)
    rw [List.filter_nil, List.nil_append, List.nil_append] at front last
    rw [joinPath_cons, front, joinPath_cons, inside, ← last, ← joinPath_cons next, ih,
      joinPath_cons]

theorem remains_tidySegments (segments : List (List Char)) :
    List.Forall₂ Remains (tidySegments segments) segments := by
  fun_induction tidySegments segments with
  | case1 => exact .nil
  | case2 last => exact .cons (.tidyEnd last) .nil
  | case3 segment next rest ih => exact .cons (.filter segment) ih

theorem filter_joinPath (segments : List (List Char)) :
    (joinPath segments).filter (!isBreak ·) =
      joinPath (segments.map fun segment => segment.filter (!isBreak ·)) := by
  induction segments with
  | nil => rfl
  | cons segment segments ih =>
    rw [joinPath_cons, List.filter_cons_of_pos (by decide), List.filter_append, ih]
    rfl

theorem remains_filter (segments : List (List Char)) :
    List.Forall₂ Remains (segments.map fun segment => segment.filter (!isBreak ·)) segments := by
  induction segments with
  | nil => exact .nil
  | cons segment segments ih => exact .cons (.filter segment) ih

/-- What is left of the parameters of an address. -/
def RemainParameters : List (List Char × List Char) → List (List Char × List Char) → Prop :=
  List.Forall₂ fun part parameter => Remains part.1 parameter.1 ∧ Remains part.2 parameter.2

theorem tidyEnd_joinParameters {mark : Char} (visible : isBlank mark = false)
    (parameters : List (List Char × List Char)) :
    ∃ left, tidyEnd (joinParameters mark parameters) = joinParameters mark left ∧
      RemainParameters left parameters := by
  induction parameters generalizing mark with
  | nil => exact ⟨[], rfl, .nil⟩
  | cons parameter rest ih =>
    obtain ⟨name, value⟩ := parameter
    have front := tidyEnd_append_cons visible []
      (name ++ '=' :: (value ++ joinParameters '&' rest))
    rw [List.filter_nil, List.nil_append, List.nil_append,
      tidyEnd_append_cons (show isBlank '=' = false by decide)] at front
    cases rest with
    | nil =>
      rw [joinParameters, List.append_nil] at front
      exact ⟨[(name.filter (!isBreak ·), tidyEnd value)],
        by rw [joinParameters, joinParameters, List.append_nil, front, joinParameters,
          joinParameters, List.append_nil],
        .cons ⟨.filter name, .tidyEnd value⟩ .nil⟩
    | cons next rest =>
      obtain ⟨left, tidied, remain⟩ := ih (show isBlank '&' = false by decide)
      obtain ⟨other, more⟩ := next
      have back := tidyEnd_append_cons (show isBlank '&' = false by decide) []
        (other ++ '=' :: (more ++ joinParameters '&' rest))
      rw [List.filter_nil, List.nil_append, List.nil_append] at back
      rw [joinParameters, tidyEnd_append_cons (show isBlank '&' = false by decide), ← back]
        at front
      refine ⟨(name.filter (!isBreak ·), value.filter (!isBreak ·)) :: left, ?_,
        .cons ⟨.filter name, .filter value⟩ remain⟩
      rw [joinParameters, joinParameters, front, joinParameters, ← tidied, joinParameters]

theorem exists_tidyEnd (segments : List (List Char))
    (parameters : List (List Char × List Char)) :
    ∃ left others, tidyEnd (joinPath segments ++ joinParameters '?' parameters) =
        joinPath left ++ joinParameters '?' others ∧
      List.Forall₂ Remains left segments ∧ RemainParameters others parameters := by
  cases parameters with
  | nil =>
    refine ⟨tidySegments segments, [], ?_, remains_tidySegments segments, .nil⟩
    rw [joinParameters, List.append_nil, List.append_nil, tidyEnd_joinPath]
  | cons parameter rest =>
    obtain ⟨others, tidied, remain⟩ :=
      tidyEnd_joinParameters (show isBlank '?' = false by decide) (parameter :: rest)
    obtain ⟨name, value⟩ := parameter
    refine ⟨segments.map fun segment => segment.filter (!isBreak ·), others, ?_,
      remains_filter segments, remain⟩
    have back := tidyEnd_append_cons (show isBlank '?' = false by decide) []
      (name ++ '=' :: (value ++ joinParameters '&' rest))
    rw [List.filter_nil, List.nil_append, List.nil_append] at back
    rw [← tidied, joinParameters, tidyEnd_append_cons (by decide), filter_joinPath, back]

theorem tidyEnd_eq_self_iff {text : List Char} :
    tidyEnd text = text ↔ (∀ character ∈ text, isBreak character = false) ∧
      ∀ last ∈ text.getLast?, isBlank last = false := by
  constructor
  · intro same
    have trimmed : text.rdropWhile isBlank = text := by
      have longer := (List.filter_sublist (p := (!isBreak ·)) (l := text.rdropWhile isBlank))
      exact (List.rdropWhile_prefix isBlank text).sublist.antisymm (by
        rw [tidyEnd] at same
        rwa [same] at longer)
    rw [tidyEnd, trimmed] at same
    refine ⟨fun character member => by simpa using List.filter_eq_self.mp same character member,
      fun last found => ?_⟩
    obtain ⟨nonempty, rfl⟩ := List.mem_getLast?_eq_getLast found
    exact Bool.eq_false_iff.mpr (List.rdropWhile_eq_self_iff.mp trimmed nonempty)
  · rintro ⟨breaks, blank⟩
    rw [tidyEnd, List.rdropWhile_eq_self_iff.mpr]
    · exact List.filter_eq_self.mpr fun character member => by simp [breaks character member]
    · intro nonempty
      rw [blank _ (List.getLast?_eq_getLast_of_ne_nil nonempty)]
      exact Bool.false_ne_true

end Url
