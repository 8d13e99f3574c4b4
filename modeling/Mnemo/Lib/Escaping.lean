import Mathlib.Data.List.Basic

/-!
# Texts with escaped symbols

Some symbols of a text have a meaning in the language in which it is embedded.  A mark before such a
symbol takes its meaning away.
-/

namespace Escaping

variable {α : Type} (mark : α)

/-- Put the mark before every special symbol. -/
def escape (special : α → Bool) : List α → List α
  | [] => []
  | symbol :: rest =>
      if special symbol then mark :: symbol :: escape special rest
      else symbol :: escape special rest

/-- A text is written down with a mark before every operator, and perhaps before other symbols. -/
inductive Written (operator : α → Bool) : List α → List α → Prop
  | nil : Written operator [] []
  | plain {symbol : α} {text written : List α} (none : operator symbol = false)
      (rest : Written operator text written) :
      Written operator (symbol :: text) (symbol :: written)
  | marked {symbol : α} {text written : List α} (rest : Written operator text written) :
      Written operator (symbol :: text) (mark :: symbol :: written)

variable {mark} {special operator : α → Bool} {text : List α}

theorem escape_eq_nil_iff : escape mark special text = [] ↔ text = [] := by
  cases text with
  | nil => simp [escape]
  | cons symbol text =>
    rw [escape]
    split
    · simp
    · simp

theorem length_escape (text : List α) :
    (escape mark special text).length = text.length + text.countP special := by
  induction text with
  | nil => rfl
  | cons symbol text ih =>
    rw [escape]
    split
    · rename_i isSpecial
      simp [ih, isSpecial]
      omega
    · rename_i plain
      simp [ih, plain]
      omega

/-! ## Operators that are marked -/

theorem Written.length_le {written : List α} (whole : Written mark operator text written) :
    text.length + text.countP operator ≤ written.length := by
  induction whole with
  | nil => exact Nat.le_refl _
  | plain none _ ih =>
    simp [none]
    omega
  | @marked symbol text written _ ih =>
    have one : (symbol :: text).countP operator ≤ text.countP operator + 1 := by
      rw [List.countP_cons]
      split
      · exact Nat.le_refl _
      · exact Nat.le_succ _
    simp only [List.length_cons]
    omega

theorem special_of_countP_le (known : ∀ symbol, special symbol = true → operator symbol = true)
    (fewer : text.countP operator ≤ text.countP special) :
    ∀ symbol ∈ text, operator symbol = true → special symbol = true := by
  induction text with
  | nil => exact List.forall_mem_nil _
  | cons symbol text ih =>
    have least : text.countP special ≤ text.countP operator :=
      List.countP_mono_left fun other _ => known other
    rw [List.countP_cons, List.countP_cons] at fewer
    refine List.forall_mem_cons.mpr ⟨fun isOperator => ?_, ih ?_⟩
    · by_contra plain
      rw [if_pos isOperator, if_neg plain] at fewer
      omega
    · by_cases isSpecial : special symbol = true
      · rw [if_pos isSpecial, if_pos (known symbol isSpecial)] at fewer
        omega
      · rw [if_neg isSpecial] at fewer
        omega

theorem written_escape_iff (known : ∀ symbol, special symbol = true → operator symbol = true) :
    Written mark operator text (escape mark special text) ↔
      ∀ symbol ∈ text, operator symbol = true → special symbol = true := by
  constructor
  · intro whole
    have size := whole.length_le
    rw [length_escape] at size
    exact special_of_countP_le known (by omega)
  · intro all
    induction text with
    | nil => exact .nil
    | cons symbol text ih =>
      obtain ⟨now, later⟩ := List.forall_mem_cons.mp all
      rw [escape]
      split
      · exact .marked (ih later)
      · rename_i plain
        exact .plain (by simpa using fun isOperator => plain (now isOperator)) (ih later)

/-! ## Reading an escaped text back -/

section Reading

variable [DecidableEq α] (mark)

/-- Take the marks away; the flag says that one has just been read. -/
def unescapeFrom : Bool → List α → List α
  | false, [] => []
  | true, [] => [mark]
  | true, symbol :: rest => symbol :: unescapeFrom false rest
  | false, symbol :: rest =>
      if symbol = mark then unescapeFrom true rest else symbol :: unescapeFrom false rest

/-- Take the marks away. -/
def unescape (text : List α) : List α := unescapeFrom mark false text

/-- Split at the separators before which there is no mark. -/
def splitFrom (separator : α) : Bool → List α → List α → List (List α)
  | _, begun, [] => [begun]
  | true, begun, symbol :: rest => splitFrom separator false (begun ++ [symbol]) rest
  | false, begun, symbol :: rest =>
      if symbol = mark then splitFrom separator true (begun ++ [symbol]) rest
      else if symbol = separator then begun :: splitFrom separator false [] rest
      else splitFrom separator false (begun ++ [symbol]) rest

/-- Split at the separators before which there is no mark. -/
def split (separator : α) (text : List α) : List (List α) :=
  splitFrom mark separator false [] text

/-- Cut at the first separator before which there is no mark. -/
def cutFrom (separator : α) : Bool → List α → List α → Option (List α × List α)
  | _, _, [] => none
  | true, begun, symbol :: rest => cutFrom separator false (begun ++ [symbol]) rest
  | false, begun, symbol :: rest =>
      if symbol = mark then cutFrom separator true (begun ++ [symbol]) rest
      else if symbol = separator then some (begun, rest)
      else cutFrom separator false (begun ++ [symbol]) rest

/-- Cut at the first separator before which there is no mark. -/
def cut (separator : α) (text : List α) : Option (List α × List α) :=
  cutFrom mark separator false [] text

variable {mark} {separator : α}

theorem unescape_escape (marks : ∀ symbol ∈ text, symbol = mark → special symbol = true) :
    unescape mark (escape mark special text) = text := by
  rw [unescape]
  induction text with
  | nil => rfl
  | cons symbol text ih =>
    obtain ⟨now, later⟩ := List.forall_mem_cons.mp marks
    by_cases isSpecial : special symbol = true
    · rw [escape, if_pos isSpecial, unescapeFrom, if_pos rfl, unescapeFrom, ih later]
    · have notMark : symbol ≠ mark := fun same => isSpecial (now same)
      rw [escape, if_neg isSpecial, unescapeFrom, if_neg notMark, ih later]

theorem splitFrom_escape (safe : ∀ symbol ∈ text, symbol = mark ∨ symbol = separator →
    special symbol = true) (begun rest : List α) :
    splitFrom mark separator false begun (escape mark special text ++ rest) =
      splitFrom mark separator false (begun ++ escape mark special text) rest := by
  induction text generalizing begun with
  | nil => simp [escape]
  | cons symbol text ih =>
    obtain ⟨now, later⟩ := List.forall_mem_cons.mp safe
    by_cases isSpecial : special symbol = true
    · rw [escape, if_pos isSpecial, List.cons_append, splitFrom, if_pos rfl, List.cons_append,
        splitFrom, ih later]
      simp
    · have notMark : symbol ≠ mark := fun same => isSpecial (now (.inl same))
      have notSeparator : symbol ≠ separator := fun same => isSpecial (now (.inr same))
      rw [escape, if_neg isSpecial, List.cons_append, splitFrom, if_neg notMark,
        if_neg notSeparator, ih later]
      simp

theorem cutFrom_escape (safe : ∀ symbol ∈ text, symbol = mark ∨ symbol = separator →
    special symbol = true) (begun rest : List α) :
    cutFrom mark separator false begun (escape mark special text ++ rest) =
      cutFrom mark separator false (begun ++ escape mark special text) rest := by
  induction text generalizing begun with
  | nil => simp [escape]
  | cons symbol text ih =>
    obtain ⟨now, later⟩ := List.forall_mem_cons.mp safe
    by_cases isSpecial : special symbol = true
    · rw [escape, if_pos isSpecial, List.cons_append, cutFrom, if_pos rfl, List.cons_append,
        cutFrom, ih later]
      simp
    · have notMark : symbol ≠ mark := fun same => isSpecial (now (.inl same))
      have notSeparator : symbol ≠ separator := fun same => isSpecial (now (.inr same))
      rw [escape, if_neg isSpecial, List.cons_append, cutFrom, if_neg notMark,
        if_neg notSeparator, ih later]
      simp

theorem cut_escape (safe : ∀ symbol ∈ text, symbol = mark ∨ symbol = separator →
    special symbol = true) (notMark : separator ≠ mark) (rest : List α) :
    cut mark separator (escape mark special text ++ separator :: rest) =
      some (escape mark special text, rest) := by
  rw [cut, cutFrom_escape safe, cutFrom, if_neg notMark, if_pos rfl, List.nil_append]

/-- Escaped texts that were joined are split again. -/
theorem split_join (notMark : separator ≠ mark) (texts : List (List α)) (some : texts ≠ [])
    (safe : ∀ text ∈ texts, ∀ symbol ∈ text, symbol = mark ∨ symbol = separator →
      special symbol = true) :
    split mark separator (List.intercalate [separator] (texts.map (escape mark special))) =
      texts.map (escape mark special) := by
  rw [split]
  induction texts with
  | nil => exact absurd rfl some
  | cons text texts ih =>
    obtain ⟨now, later⟩ := List.forall_mem_cons.mp safe
    cases texts with
    | nil =>
      have alone := splitFrom_escape now [] []
      rw [List.append_nil, List.nil_append, splitFrom] at alone
      simpa [List.intercalate] using alone
    | cons next texts =>
      have joined : List.intercalate [separator]
          ((text :: next :: texts).map (escape mark special)) =
          escape mark special text ++ separator ::
            List.intercalate [separator] ((next :: texts).map (escape mark special)) := by
        simp [List.intercalate]
      rw [joined, splitFrom_escape now, splitFrom, if_neg notMark, if_pos rfl,
        ih (List.cons_ne_nil _ _) later]
      rfl

end Reading

end Escaping
