import Mathlib.Data.List.DropRight

/-!
# Lines of a text

A text is cut at its line breaks; blank characters at the ends of a line, and lines of nothing else,
do not count.
-/

namespace Lines

/-- The pieces between line breaks, the first of which begins with some characters. -/
def piecesFrom (begun : List Char) : List Char → List (List Char)
  | [] => [begun]
  | character :: rest =>
      if character = '\n' then begun :: piecesFrom [] rest
      else piecesFrom (begun ++ [character]) rest

/-- The pieces between line breaks. -/
def pieces (text : List Char) : List (List Char) := piecesFrom [] text

/-- A line without the carriage return at its end. -/
def stripReturn (line : List Char) : List Char :=
  if line.getLast? = some '\r' then line.dropLast else line

/-- The lines of a text; what is behind the last line break is one if it is not empty. -/
def lines (text : List Char) : List (List Char) :=
  (pieces text).dropLast.map stripReturn ++
    (pieces text).getLast?.toList.filter fun line => !line.isEmpty

variable (blank : Char → Bool)

/-- A text without blank characters at its ends. -/
def trim (text : List Char) : List Char := (text.dropWhile blank).rdropWhile blank

/-- Lines that are trimmed, without those which are empty then. -/
def trimAll (lines : List (List Char)) : List (List Char) :=
  (lines.map (trim blank)).filter fun line => !line.isEmpty

/-- The trimmed lines of a text which are not empty. -/
def nonBlank (text : List Char) : List (List Char) := trimAll blank (pieces text)

/-- The words between blank characters, the first of which begins with some characters. -/
def wordsFrom (begun : List Char) : List Char → List (List Char)
  | [] => if begun.isEmpty then [] else [begun]
  | character :: rest =>
      if blank character then
        if begun.isEmpty then wordsFrom [] rest else begun :: wordsFrom [] rest
      else wordsFrom (begun ++ [character]) rest

/-- The words of a text. -/
def words (text : List Char) : List (List Char) := wordsFrom blank [] text

variable {blank} {begun text front back : List Char} {character : Char}

/-! ## Trimming -/

@[simp]
theorem trim_nil : trim blank [] = [] := rfl

theorem trim_cons (isBlank : blank character = true) (text : List Char) :
    trim blank (character :: text) = trim blank text := by
  rw [trim, List.dropWhile_cons_of_pos isBlank, trim]

theorem trim_concat (isBlank : blank character = true) (text : List Char) :
    trim blank (text ++ [character]) = trim blank text := by
  rw [trim, trim, List.dropWhile_append]
  split
  · rename_i all
    rw [List.isEmpty_iff.mp all, List.dropWhile_cons_of_pos isBlank, List.dropWhile_nil]
  · exact List.rdropWhile_concat_pos _ _ _ isBlank

theorem trim_within (text : List Char) : trim blank text <:+: text :=
  (List.rdropWhile_prefix _ _).isInfix.trans (List.dropWhile_suffix _).isInfix

theorem trim_eq_nil_iff : trim blank text = [] ↔ ∀ character ∈ text, blank character = true := by
  rw [trim, List.rdropWhile_eq_nil_iff]
  constructor
  · intro all character member
    by_contra notBlank
    rw [← List.takeWhile_append_dropWhile (p := blank) (l := text)] at member
    rcases List.mem_append.mp member with front | back
    · exact notBlank (List.mem_takeWhile_imp front)
    · exact notBlank (all character back)
  · exact fun all character member =>
      all character ((List.dropWhile_suffix blank).subset member)

theorem trim_parts (blank : Char → Bool) (text : List Char) :
    ∃ front back, text = front ++ trim blank text ++ back ∧
      (∀ character ∈ front, blank character = true) ∧
        ∀ character ∈ back, blank character = true := by
  refine ⟨text.takeWhile blank, (text.dropWhile blank).rtakeWhile blank, ?_,
    fun character member => List.mem_takeWhile_imp member,
    fun character member => List.mem_rtakeWhile_imp member⟩
  rw [trim, List.append_assoc, List.rdropWhile_append_rtakeWhile, List.takeWhile_append_dropWhile]

theorem trim_append_left (blanks : ∀ character ∈ front, blank character = true)
    (text : List Char) : trim blank (front ++ text) = trim blank text := by
  induction front with
  | nil => rfl
  | cons character front ih =>
    obtain ⟨now, later⟩ := List.forall_mem_cons.mp blanks
    rw [List.cons_append, trim_cons now, ih later]

theorem trim_append_right (blanks : ∀ character ∈ back, blank character = true)
    (text : List Char) : trim blank (text ++ back) = trim blank text := by
  induction back using List.reverseRecOn with
  | nil => rw [List.append_nil]
  | append_singleton back character ih =>
    obtain ⟨later, now⟩ := List.forall_mem_append.mp blanks
    rw [← List.append_assoc, trim_concat (now character List.mem_cons_self), ih later]

theorem trim_of_ends {first last : Char} (head : text.head? = some first)
    (notFirst : blank first = false) (ends : text.getLast? = some last)
    (notLast : blank last = false) : trim blank text = text := by
  obtain ⟨rest, rfl⟩ : ∃ rest, text = first :: rest := by
    cases text with
    | nil => exact nomatch head
    | cons character rest => exact ⟨rest, by rw [Option.some.inj head]⟩
  obtain ⟨most, whole⟩ := List.getLast?_eq_some_iff.mp ends
  rw [trim, List.dropWhile_cons_of_neg (by simp [notFirst]), whole,
    List.rdropWhile_concat_neg _ _ _ (by simp [notLast])]

theorem trim_trim (text : List Char) : trim blank (trim blank text) = trim blank text := by
  cases kept : trim blank text with
  | nil => rfl
  | cons first rest =>
    have early : first :: rest <+: text.dropWhile blank := kept ▸ List.rdropWhile_prefix _ _
    have notBlank : blank first = false := by
      obtain ⟨more, whole⟩ := early
      have head := List.head?_dropWhile_not blank text
      rw [← whole] at head
      simpa using head
    have again : (first :: rest).rdropWhile blank = first :: rest := by
      rw [← kept, trim, List.rdropWhile_idempotent]
    rw [trim, List.dropWhile_cons_of_neg (by simp [notBlank]), again]

/-! ## Lines -/

theorem trimAll_append (first second : List (List Char)) :
    trimAll blank (first ++ second) = trimAll blank first ++ trimAll blank second := by
  simp [trimAll]

theorem trimAll_cons (line : List Char) (lines : List (List Char)) :
    trimAll blank (line :: lines) = trimAll blank [line] ++ trimAll blank lines :=
  trimAll_append [line] lines

theorem trimAll_congr {line other : List Char} (same : trim blank line = trim blank other) :
    trimAll blank [line] = trimAll blank [other] := by
  simp [trimAll, same]

theorem piecesFrom_newline (begun front back : List Char) :
    piecesFrom begun (front ++ '\n' :: back) = piecesFrom begun front ++ piecesFrom [] back := by
  induction front generalizing begun with
  | nil => simp [piecesFrom]
  | cons character front ih =>
    by_cases isBreak : character = '\n'
    · simp [piecesFrom, isBreak, ih]
    · simp [piecesFrom, isBreak, ih]

theorem piecesFrom_line (begun : List Char) (single : '\n' ∉ text) :
    piecesFrom begun text = [begun ++ text] := by
  induction text generalizing begun with
  | nil => simp [piecesFrom]
  | cons character text ih =>
    obtain ⟨notBreak, rest⟩ := List.ne_and_not_mem_of_not_mem_cons single
    simp [piecesFrom, notBreak.symm, ih _ rest]

theorem nonBlank_newline (front back : List Char) :
    nonBlank blank (front ++ '\n' :: back) = nonBlank blank front ++ nonBlank blank back := by
  rw [nonBlank, pieces, piecesFrom_newline, trimAll_append]
  rfl

theorem trimAll_piecesFrom_cons (isBlank : blank character = true) (begun text : List Char) :
    trimAll blank (piecesFrom (character :: begun) text) =
      trimAll blank (piecesFrom begun text) := by
  induction text generalizing begun with
  | nil => exact trimAll_congr (trim_cons isBlank begun)
  | cons next text ih =>
    by_cases isBreak : next = '\n'
    · rw [piecesFrom, if_pos isBreak, piecesFrom, if_pos isBreak, trimAll_cons,
        trimAll_congr (trim_cons isBlank begun), ← trimAll_cons]
    · rw [piecesFrom, if_neg isBreak, piecesFrom, if_neg isBreak, List.cons_append, ih]

theorem trimAll_piecesFrom_concat (isBlank : blank character = true) (begun text : List Char) :
    trimAll blank (piecesFrom begun (text ++ [character])) =
      trimAll blank (piecesFrom begun text) := by
  induction text generalizing begun with
  | nil =>
    by_cases isBreak : character = '\n'
    · have cut : piecesFrom begun ([] ++ [character]) = [begun, []] := by
        simp [piecesFrom, isBreak]
      rw [cut, trimAll_cons]
      exact List.append_nil _
    · simp only [List.nil_append, piecesFrom, isBreak, if_false]
      exact trimAll_congr (trim_concat isBlank begun)
  | cons next text ih =>
    by_cases isBreak : next = '\n'
    · rw [List.cons_append, piecesFrom, if_pos isBreak, piecesFrom, if_pos isBreak, trimAll_cons,
        ih, ← trimAll_cons]
    · rw [List.cons_append, piecesFrom, if_neg isBreak, piecesFrom, if_neg isBreak, ih]

theorem nonBlank_cons (isBlank : blank character = true) (text : List Char) :
    nonBlank blank (character :: text) = nonBlank blank text := by
  by_cases isBreak : character = '\n'
  · rw [nonBlank, pieces, piecesFrom, if_pos isBreak, trimAll_cons]
    simp [trimAll, nonBlank, pieces]
  · rw [nonBlank, pieces, piecesFrom, if_neg isBreak]
    exact trimAll_piecesFrom_cons isBlank [] text

theorem nonBlank_concat (isBlank : blank character = true) (text : List Char) :
    nonBlank blank (text ++ [character]) = nonBlank blank text :=
  trimAll_piecesFrom_concat isBlank [] text

@[simp]
theorem nonBlank_trim (text : List Char) :
    nonBlank blank (trim blank text) = nonBlank blank text := by
  have front (text : List Char) :
      nonBlank blank (text.dropWhile blank) = nonBlank blank text := by
    induction text with
    | nil => rfl
    | cons character text ih =>
      by_cases isBlank : blank character = true
      · rw [List.dropWhile_cons_of_pos isBlank, ih, nonBlank_cons isBlank]
      · rw [List.dropWhile_cons_of_neg isBlank]
  have back (text : List Char) :
      nonBlank blank (text.rdropWhile blank) = nonBlank blank text := by
    induction text using List.reverseRecOn with
    | nil => rfl
    | append_singleton text character ih =>
      by_cases isBlank : blank character = true
      · rw [List.rdropWhile_concat_pos _ _ _ isBlank, ih, nonBlank_concat isBlank]
      · rw [List.rdropWhile_concat_neg _ _ _ isBlank]
  rw [trim, back, front]

theorem nonBlank_line (single : '\n' ∉ text) : nonBlank blank text = trimAll blank [text] := by
  rw [nonBlank, pieces, piecesFrom_line [] single, List.nil_append]

theorem trimAll_eq_nil_iff {lines : List (List Char)} :
    trimAll blank lines = [] ↔ ∀ line ∈ lines, trim blank line = [] := by
  simp [trimAll]

theorem nonBlank_eq_nil_iff (newline : blank '\n' = true) :
    nonBlank blank text = [] ↔ trim blank text = [] := by
  have general (begun text : List Char) : trimAll blank (piecesFrom begun text) = [] ↔
      ∀ character ∈ begun ++ text, blank character = true := by
    induction text generalizing begun with
    | nil => simp [piecesFrom, trimAll_eq_nil_iff, trim_eq_nil_iff]
    | cons next text ih =>
      by_cases isBreak : next = '\n'
      · rw [piecesFrom, if_pos isBreak, trimAll_cons, List.append_eq_nil_iff, ih,
          trimAll_eq_nil_iff]
        simp [trim_eq_nil_iff, isBreak, newline, or_imp, forall_and]
      · rw [piecesFrom, if_neg isBreak, ih, List.append_assoc, List.singleton_append]
  rw [nonBlank, pieces, general, trim_eq_nil_iff, List.nil_append]

theorem newline_notMem_piecesFrom {begun : List Char} (single : '\n' ∉ begun) (text : List Char) :
    ∀ line ∈ piecesFrom begun text, '\n' ∉ line := by
  induction text generalizing begun with
  | nil => simpa [piecesFrom] using single
  | cons character text ih =>
    by_cases isBreak : character = '\n'
    · rw [piecesFrom, if_pos isBreak]
      intro line member
      rcases List.mem_cons.mp member with rfl | later
      · exact single
      · exact ih List.not_mem_nil line later
    · rw [piecesFrom, if_neg isBreak]
      exact ih (by simpa [single] using Ne.symm isBreak)

theorem stripReturn_front (line : List Char) : stripReturn line <+: line := by
  rw [stripReturn]
  split
  · exact List.dropLast_prefix line
  · exact List.prefix_rfl

theorem newline_notMem_lines (text : List Char) : ∀ line ∈ lines text, '\n' ∉ line := by
  have single := newline_notMem_piecesFrom (List.not_mem_nil : '\n' ∉ []) text
  intro line member isBreak
  rcases List.mem_append.mp member with early | last
  · obtain ⟨piece, among, rfl⟩ := List.mem_map.mp early
    exact single piece ((List.dropLast_sublist _).subset among)
      ((stripReturn_front piece).subset isBreak)
  · have among := (List.mem_filter.mp last).1
    rw [Option.mem_toList] at among
    exact single line (List.mem_of_getLast? among) isBreak

theorem trim_stripReturn (isBlank : blank '\r' = true) (line : List Char) :
    trim blank (stripReturn line) = trim blank line := by
  rw [stripReturn]
  split
  · rename_i last
    obtain ⟨front, rfl⟩ := List.getLast?_eq_some_iff.mp last
    rw [List.dropLast_concat, trim_concat isBlank]
  · rfl

theorem piecesFrom_ne_nil (begun text : List Char) : piecesFrom begun text ≠ [] := by
  induction text generalizing begun with
  | nil => simp [piecesFrom]
  | cons character text ih =>
    rw [piecesFrom]
    split
    · exact List.cons_ne_nil _ _
    · exact ih _

theorem trimAll_lines (isBlank : blank '\r' = true) (text : List Char) :
    trimAll blank (lines text) = nonBlank blank text := by
  have strip (all : List (List Char)) :
      trimAll blank (all.map stripReturn) = trimAll blank all := by
    rw [trimAll, trimAll, List.map_map]
    congr 1
    exact List.map_congr_left fun line _ => trim_stripReturn isBlank line
  obtain ⟨front, last, whole⟩ : ∃ front last, piecesFrom [] text = front ++ [last] :=
    ⟨_, _, (List.dropLast_append_getLast (piecesFrom_ne_nil [] text)).symm⟩
  rw [lines, nonBlank, pieces, whole, List.dropLast_concat, trimAll_append, strip, trimAll_append,
    List.getLast?_concat]
  cases last with
  | nil => rfl
  | cons character rest => rfl

end Lines
