import Mathlib
import Mnemo.Document.Chunking
import Mnemo.Lib.StateMachine

/-!
# Chunks which lose no text

The lines of the chunks are the lines of the pages, and a chunk has the page of its first line.
Chunking by page has this property.  Structural chunking has it in the runs in which no short text
stands before a heading and no page begins with a chunk already opened on an earlier one.
-/

namespace Mnemo
namespace Document

open ByteSlice Lines StateMachine Text

/-- The trimmed lines of a text which are not blank. -/
def textLines (text : List Char) : List (List Char) := trimAll isWhitespace (lines text)

/-- The lines of all pages, each with the number of its page. -/
def numberedLines (pages : List (List Char)) : List (UInt32 × List Char) :=
  (numberedPages pages).flatMap fun page => (textLines page.1).map (page.2, ·)

/-- Some numbered lines are the lines of a chunk, which begins on the page of the first one. -/
def DocumentChunk.Holds (chunk : DocumentChunk) (part : List (UInt32 × List Char)) : Prop :=
  textLines chunk.text = part.map Prod.snd ∧ part.head?.map Prod.fst = some chunk.page

/-- The chunks hold the text of the pages in order. -/
structure Lossless (pages : List (List Char)) (chunks : List DocumentChunk) : Prop where
  lines : chunks.flatMap (fun chunk => textLines chunk.text) = pages.flatMap textLines
  indices : chunks.map DocumentChunk.index = (List.range chunks.length).map UInt32.ofNat
  /-- The lines of the pages fall into parts, one for each chunk. -/
  starts : ∃ parts : List (List (UInt32 × List Char)),
    parts.flatten = numberedLines pages ∧ List.Forall₂ DocumentChunk.Holds chunks parts

/-! ## Lines of a text that is trimmed or grows -/

theorem textLines_eq (text : List Char) : textLines text = nonBlank isWhitespace text :=
  trimAll_lines (by decide) text

@[simp]
theorem textLines_nil : textLines [] = [] := rfl

theorem textLines_trim (text : List Char) :
    textLines (trim isWhitespace text) = textLines text := by
  rw [textLines_eq, nonBlank_trim, textLines_eq]

theorem textLines_eq_nil_iff (text : List Char) :
    textLines text = [] ↔ trim isWhitespace text = [] := by
  rw [textLines_eq, nonBlank_eq_nil_iff (by decide)]

theorem textLines_newline (text : List Char) : textLines (text ++ ['\n']) = textLines text := by
  rw [textLines_eq, nonBlank_concat (by decide), textLines_eq]

theorem numberedLines_snd (pages : List (List Char)) :
    (numberedLines pages).map Prod.snd = pages.flatMap textLines := by
  have general (start : Nat) : (((pages.zipIdx start).map fun page =>
      (page.1, UInt32.ofNat (page.2 + 1))).flatMap fun page =>
        (textLines page.1).map (page.2, ·)).map Prod.snd = pages.flatMap textLines := by
    induction pages generalizing start with
    | nil => rfl
    | cons page pages ih =>
      simp only [List.zipIdx_cons, List.map_cons, List.flatMap_cons, List.map_append]
      rw [ih]
      simp [Function.comp_def]
  exact general 0

/-! ## Shapes: what counts of a chunk -/

/-- The page of a chunk and its lines. -/
abbrev Shape := UInt32 × List (List Char)

/-- The page of a chunk and its lines. -/
def DocumentChunk.shape (chunk : DocumentChunk) : Shape := (chunk.page, textLines chunk.text)

/-- The numbered lines fall into parts of these shapes. -/
def Covers : List Shape → List (UInt32 × List Char) → Prop
  | [], seen => seen = []
  | shape :: shapes, seen => ∃ front back, seen = front ++ back ∧
      front.map Prod.snd = shape.2 ∧ front.head?.map Prod.fst = some shape.1 ∧
      Covers shapes back

theorem covers_iff (chunks : List DocumentChunk) (seen : List (UInt32 × List Char)) :
    Covers (chunks.map DocumentChunk.shape) seen ↔
      ∃ parts : List (List (UInt32 × List Char)),
        parts.flatten = seen ∧ List.Forall₂ DocumentChunk.Holds chunks parts := by
  induction chunks generalizing seen with
  | nil =>
    constructor
    · intro covers
      exact ⟨[], covers.symm, .nil⟩
    · rintro ⟨parts, rfl, holds⟩
      rw [List.forall₂_nil_left_iff.mp holds]
      rfl
  | cons chunk chunks ih =>
    constructor
    · rintro ⟨front, back, rfl, lines, page, covers⟩
      obtain ⟨parts, rfl, holds⟩ := (ih back).mp covers
      exact ⟨front :: parts, rfl, .cons ⟨lines.symm, page⟩ holds⟩
    · rintro ⟨parts, rfl, holds⟩
      obtain ⟨front, rest, ⟨lines, page⟩, others, rfl⟩ := List.forall₂_cons_left_iff.mp holds
      exact ⟨front, rest.flatten, rfl, lines.symm, page, (ih _).mpr ⟨rest, rfl, others⟩⟩

theorem covers_append (first second : List Shape) (seen : List (UInt32 × List Char)) :
    Covers (first ++ second) seen ↔
      ∃ front back, seen = front ++ back ∧ Covers first front ∧ Covers second back := by
  induction first generalizing seen with
  | nil =>
    constructor
    · exact fun covers => ⟨[], seen, rfl, rfl, covers⟩
    · rintro ⟨front, back, rfl, rfl, covers⟩
      exact covers
  | cons shape first ih =>
    constructor
    · rintro ⟨front, _, rfl, lines, page, covers⟩
      obtain ⟨middle, back, rfl, one, two⟩ := (ih _).mp covers
      exact ⟨front ++ middle, back, (List.append_assoc _ _ _).symm,
        ⟨front, middle, rfl, lines, page, one⟩, two⟩
    · rintro ⟨_, back, rfl, ⟨front, middle, rfl, lines, page, one⟩, two⟩
      exact ⟨front, middle ++ back, List.append_assoc _ _ _, lines, page,
        (ih _).mpr ⟨middle, back, rfl, one, two⟩⟩

theorem covers_single (shape : Shape) (seen : List (UInt32 × List Char)) :
    Covers [shape] seen ↔
      seen.map Prod.snd = shape.2 ∧ seen.head?.map Prod.fst = some shape.1 := by
  constructor
  · rintro ⟨front, _, rfl, lines, page, rfl⟩
    rw [List.append_nil]
    exact ⟨lines, page⟩
  · rintro ⟨lines, page⟩
    exact ⟨seen, [], (List.append_nil _).symm, lines, page, rfl⟩

/-- The number of lines. -/
def lineCount (shapes : List Shape) : Nat := (shapes.map fun shape => shape.2.length).sum

@[simp]
theorem lineCount_append (first second : List Shape) :
    lineCount (first ++ second) = lineCount first + lineCount second := by
  simp [lineCount]

@[simp]
theorem lineCount_single (shape : Shape) : lineCount [shape] = shape.2.length := by
  simp [lineCount]

theorem Covers.length {shapes : List Shape} {seen : List (UInt32 × List Char)}
    (covers : Covers shapes seen) : seen.length = lineCount shapes := by
  induction shapes generalizing seen with
  | nil =>
    obtain rfl : seen = [] := covers
    rfl
  | cons shape shapes ih =>
    obtain ⟨front, back, rfl, lines, -, others⟩ := covers
    have size : front.length = shape.2.length := by rw [← lines, List.length_map]
    simp [lineCount, size, ih others]

theorem covers_concat_new (shapes : List Shape) (seen : List (UInt32 × List Char))
    (page number : UInt32) (line : List Char) :
    Covers (shapes ++ [(page, [line])]) (seen ++ [(number, line)]) ↔
      Covers shapes seen ∧ page = number := by
  rw [covers_append]
  constructor
  · rintro ⟨front, back, whole, covers, last⟩
    obtain ⟨lines, starts⟩ := (covers_single _ _).mp last
    obtain ⟨⟨other, text⟩, rfl⟩ : ∃ entry, back = [entry] :=
      List.length_eq_one_iff.mp (by simpa using congrArg List.length lines)
    obtain ⟨rfl, same⟩ := List.append_inj' whole rfl
    obtain ⟨rfl, -⟩ := Prod.mk.inj (List.singleton_inj.mp same)
    exact ⟨covers, (Option.some.inj starts).symm⟩
  · rintro ⟨covers, rfl⟩
    exact ⟨seen, [(page, line)], rfl, covers, (covers_single _ _).mpr ⟨rfl, rfl⟩⟩

theorem covers_concat_last (shapes : List Shape) (seen : List (UInt32 × List Char))
    (page number : UInt32) {lines : List (List Char)} (begun : lines ≠ []) (line : List Char) :
    Covers (shapes ++ [(page, lines ++ [line])]) (seen ++ [(number, line)]) ↔
      Covers (shapes ++ [(page, lines)]) seen := by
  rw [covers_append, covers_append]
  constructor
  · rintro ⟨front, back, whole, covers, last⟩
    obtain ⟨texts, starts⟩ := (covers_single _ _).mp last
    have notEmpty : back ≠ [] := by
      rintro rfl
      exact absurd starts (by simp)
    obtain ⟨middle, entry, rfl⟩ : ∃ middle entry, back = middle ++ [entry] :=
      ⟨_, _, (List.dropLast_append_getLast notEmpty).symm⟩
    rw [← List.append_assoc] at whole
    obtain ⟨rfl, -⟩ := List.append_inj' whole rfl
    rw [List.map_append] at texts
    obtain ⟨texts, -⟩ := List.append_inj' texts rfl
    refine ⟨front, middle, rfl, covers, (covers_single _ _).mpr ⟨texts, ?_⟩⟩
    cases middle with
    | nil => exact absurd texts.symm begun
    | cons first middle => exact starts
  · rintro ⟨front, back, rfl, covers, last⟩
    obtain ⟨texts, starts⟩ := (covers_single _ _).mp last
    refine ⟨front, back ++ [(number, line)], List.append_assoc _ _ _, covers,
      (covers_single _ _).mpr ⟨by rw [List.map_append, texts]; rfl, ?_⟩⟩
    cases back with
    | nil => exact absurd texts.symm begun
    | cons first back => exact starts

/-! ## Chunks that are pushed -/

/-- The chunks are numbered by their positions. -/
def Numbered (chunks : List DocumentChunk) : Prop :=
  chunks.map DocumentChunk.index = (List.range chunks.length).map UInt32.ofNat

section Pushes

variable {chunks : List DocumentChunk} {text : List Char} {page : UInt32}
  {heading : Option (List Char)} {kind : ChunkType} {offset count : Nat}

theorem Numbered.pushChunk (numbered : Numbered chunks) :
    Numbered (pushChunk chunks text page heading kind offset count) := by
  rw [Numbered] at numbered ⊢
  simp [Document.pushChunk, List.range_succ, numbered]

theorem shapes_pushChunk :
    (pushChunk chunks text page heading kind offset count).map DocumentChunk.shape =
      chunks.map DocumentChunk.shape ++ [(page, textLines text)] := by
  simp [Document.pushChunk, DocumentChunk.shape]

end Pushes

theorem lossless_iff (pages : List (List Char)) {chunks : List DocumentChunk}
    (numbered : Numbered chunks) :
    Lossless pages chunks ↔ Covers (chunks.map DocumentChunk.shape) (numberedLines pages) := by
  rw [covers_iff]
  constructor
  · exact Lossless.starts
  · rintro ⟨parts, whole, holds⟩
    refine ⟨?_, numbered, parts, whole, holds⟩
    rw [← numberedLines_snd, ← whole]
    clear whole numbered
    induction holds with
    | nil => rfl
    | cons first _ ih => simp [first.1, ih]

/-! ## One chunk per page -/

theorem numbered_pageStep {state : List DocumentChunk × Nat} (page : List Char × UInt32)
    (numbered : Numbered state.1) : Numbered (pageStep state page).1 := by
  rw [pageStep]
  split
  · exact numbered
  · exact numbered.pushChunk

theorem covers_pageStep {state : List DocumentChunk × Nat} {seen : List (UInt32 × List Char)}
    (page : List Char × UInt32) (covers : Covers (state.1.map DocumentChunk.shape) seen) :
    Covers ((pageStep state page).1.map DocumentChunk.shape)
      (seen ++ (textLines page.1).map (page.2, ·)) := by
  rw [pageStep]
  split
  · rename_i blank
    have none : textLines page.1 = [] :=
      (textLines_eq_nil_iff page.1).mpr (List.isEmpty_iff.mp blank)
    simpa [none] using covers
  · rename_i notBlank
    have notEmpty : textLines page.1 ≠ [] := fun none =>
      notBlank (List.isEmpty_iff.mpr ((textLines_eq_nil_iff page.1).mp none))
    rw [shapes_pushChunk, textLines_trim, covers_append]
    refine ⟨seen, _, rfl, covers, (covers_single _ _).mpr ⟨by simp [Function.comp_def], ?_⟩⟩
    obtain ⟨line, lines, some⟩ := List.exists_cons_of_ne_nil notEmpty
    simp [some]

theorem lossless_chunkByPage (pages : List (List Char)) : Lossless pages (chunkByPage pages) := by
  have run (some : List (List Char × UInt32)) (state : List DocumentChunk × Nat)
      (seen : List (UInt32 × List Char)) (numbered : Numbered state.1)
      (covers : Covers (state.1.map DocumentChunk.shape) seen) :
      Numbered (some.foldl pageStep state).1 ∧
        Covers ((some.foldl pageStep state).1.map DocumentChunk.shape)
          (seen ++ some.flatMap fun page => (textLines page.1).map (page.2, ·)) := by
    induction some generalizing state seen with
    | nil => exact ⟨numbered, by simpa using covers⟩
    | cons page some ih =>
      rw [List.flatMap_cons, ← List.append_assoc]
      exact ih _ _ (numbered_pageStep page numbered) (covers_pageStep page covers)
  obtain ⟨numbered, covers⟩ := run (numberedPages pages) ([], 0) [] rfl rfl
  exact (lossless_iff pages numbered).mpr covers

/-! ## One turn of the structural chunking -/

/-- The line which a turn of the loops reads, unless it is blank. -/
def Event.seen : Event → List (UInt32 × List Char)
  | .line page raw =>
      let line := trim isWhitespace raw
      if line.isEmpty then [] else [(page, line)]
  | .pageEnd => []

/-- The shape of the current chunk, unless it is blank. -/
def ChunkState.pending (state : ChunkState) : List Shape :=
  if textLines state.currentChunk = [] then []
  else [(state.chunkStartPage, textLines state.currentChunk)]

/-- The shapes of the chunks and of the current one. -/
def ChunkState.shapes (state : ChunkState) : List Shape :=
  state.chunks.map DocumentChunk.shape ++ state.pending

/-- The text before a heading is kept, and a chunk begins on the page which is its own. -/
def Keeps (tables : CharTables) (state : ChunkState) : Event → Prop
  | .line page raw =>
      let line := trim isWhitespace raw
      let current := trim isWhitespace state.currentChunk
      line ≠ [] →
        if isLikelyHeading tables line then current = [] ∨ 50 < bytes current
        else current = [] → state.chunkStartPage = page
  | .pageEnd => True

/-- What holds in every state of the loops. -/
structure ChunkState.Tidy (state : ChunkState) (seen : List (UInt32 × List Char)) : Prop where
  numbered : Numbered state.chunks
  ended : state.currentChunk = [] ∨ ∃ front, state.currentChunk = front ++ ['\n']
  fewer : lineCount state.shapes ≤ seen.length

/-- The line of a turn has no line break. -/
def Event.Single : Event → Prop
  | .line _ raw => '\n' ∉ raw
  | .pageEnd => True

theorem textLines_pushLine {state : ChunkState} {line : List Char}
    (ended : state.currentChunk = [] ∨ ∃ front, state.currentChunk = front ++ ['\n'])
    (single : '\n' ∉ line) (trimmed : trim isWhitespace line = line) (notEmpty : line ≠ []) :
    textLines (state.pushLine line).currentChunk = textLines state.currentChunk ++ [line] := by
  have own : textLines line = [line] := by
    rw [textLines_eq, nonBlank_line single, trimAll, List.map_singleton, trimmed]
    simp [notEmpty]
  rw [ChunkState.pushLine, textLines_newline]
  rcases ended with empty | ⟨front, whole⟩
  · rw [empty, List.nil_append, own, textLines_nil, List.nil_append]
  · rw [whole, textLines_newline, List.append_assoc, List.singleton_append, textLines_eq,
      nonBlank_newline, ← textLines_eq, ← textLines_eq, own]

theorem shapes_flushed (state : ChunkState) :
    state.flushed.map DocumentChunk.shape = state.chunks.map DocumentChunk.shape ++
      [(state.chunkStartPage, textLines state.currentChunk)] := by
  rw [ChunkState.flushed, shapes_pushChunk, textLines_trim]

theorem pending_of_lines {state : ChunkState} (lines : textLines state.currentChunk ≠ []) :
    state.pending = [(state.chunkStartPage, textLines state.currentChunk)] :=
  if_neg lines

theorem shapes_close (state : ChunkState) :
    state.close.map DocumentChunk.shape = state.shapes := by
  rw [ChunkState.close, ChunkState.shapes]
  split
  · rename_i some
    have lines : textLines state.currentChunk ≠ [] := fun none => by
      simp [(textLines_eq_nil_iff _).mp none] at some
    rw [shapes_flushed, pending_of_lines lines]
  · rename_i none
    have blank : textLines state.currentChunk = [] :=
      (textLines_eq_nil_iff _).mpr (by simpa using none)
    rw [ChunkState.pending, if_pos blank, List.append_nil]

theorem numbered_flushed {state : ChunkState} (numbered : Numbered state.chunks) :
    Numbered state.flushed := numbered.pushChunk

theorem shapes_flushLarge (state : ChunkState) (targetSize : Nat) (page : UInt32)
    (line : List Char) : (state.flushLarge targetSize page line).shapes = state.shapes := by
  rw [ChunkState.flushLarge]
  split
  · rw [ChunkState.shapes, ChunkState.pending, if_pos textLines_nil, List.append_nil]
    exact shapes_close state
  · rfl

theorem shapes_pushLine {state : ChunkState} {line : List Char}
    (ended : state.currentChunk = [] ∨ ∃ front, state.currentChunk = front ++ ['\n'])
    (single : '\n' ∉ line) (trimmed : trim isWhitespace line = line) (notEmpty : line ≠ []) :
    (state.pushLine line).shapes = state.chunks.map DocumentChunk.shape ++
      [(state.chunkStartPage, textLines state.currentChunk ++ [line])] := by
  have pushed := textLines_pushLine ended single trimmed notEmpty
  rw [ChunkState.shapes, pending_of_lines (by simp [pushed]), pushed]
  rfl

theorem covers_pushLine {state : ChunkState} {line : List Char}
    {seen : List (UInt32 × List Char)} (page : UInt32)
    (ended : state.currentChunk = [] ∨ ∃ front, state.currentChunk = front ++ ['\n'])
    (single : '\n' ∉ line) (trimmed : trim isWhitespace line = line) (notEmpty : line ≠ []) :
    Covers (state.pushLine line).shapes (seen ++ [(page, line)]) ↔
      Covers state.shapes seen ∧
        (trim isWhitespace state.currentChunk = [] → state.chunkStartPage = page) := by
  rw [shapes_pushLine ended single trimmed notEmpty, ChunkState.shapes, ChunkState.pending,
    ← textLines_eq_nil_iff]
  split
  · rename_i none
    rw [none, List.nil_append, List.append_nil, covers_concat_new]
    simp
  · rename_i lines
    rw [covers_concat_last _ _ _ _ lines]
    simp [lines]

theorem covers_beginSection {state : ChunkState} {seen : List (UInt32 × List Char)}
    (page : UInt32) (line : List Char) (fewer : lineCount state.shapes ≤ seen.length) :
    Covers (state.beginSection page line).shapes seen ↔ Covers state.shapes seen ∧
      (trim isWhitespace state.currentChunk = [] ∨
        50 < bytes (trim isWhitespace state.currentChunk)) := by
  have blank : (state.beginSection page line).shapes =
      (state.beginSection page line).chunks.map DocumentChunk.shape := by
    rw [ChunkState.shapes, ChunkState.pending]
    exact List.append_nil _
  rw [blank, ChunkState.beginSection]
  by_cases substantial : 50 < bytes (trim isWhitespace state.currentChunk)
  · have lines : textLines state.currentChunk ≠ [] := fun none => by
      rw [(textLines_eq_nil_iff _).mp none] at substantial
      exact absurd substantial (by decide)
    simp [substantial, shapes_flushed, ChunkState.shapes, pending_of_lines lines]
  · by_cases none : trim isWhitespace state.currentChunk = []
    · simp [none, ChunkState.shapes, ChunkState.pending, (textLines_eq_nil_iff _).mpr none]
    · have lines : textLines state.currentChunk ≠ [] := fun all =>
        none ((textLines_eq_nil_iff _).mp all)
      have dropped : ¬ Covers (state.chunks.map DocumentChunk.shape) seen := fun covers => by
        have size := covers.length
        have more := List.length_pos_iff.mpr lines
        rw [ChunkState.shapes, pending_of_lines lines, lineCount_append, lineCount_single] at fewer
        dsimp only at fewer
        omega
      simp [substantial, none, dropped]

theorem shapes_beginSection_blank (state : ChunkState) (page : UInt32) (line : List Char) :
    (state.beginSection page line).shapes =
      (state.beginSection page line).chunks.map DocumentChunk.shape := by
  rw [ChunkState.shapes, ChunkState.pending]
  exact List.append_nil _

namespace ChunkState
namespace Tidy

variable {state : ChunkState} {seen : List (UInt32 × List Char)}

theorem beginSection (tidy : state.Tidy seen) (page : UInt32) (line : List Char) :
    (state.beginSection page line).Tidy seen := by
  refine ⟨?_, .inl rfl, le_trans ?_ tidy.fewer⟩
  · rw [ChunkState.beginSection]
    dsimp only
    split
    · exact numbered_flushed tidy.numbered
    · exact tidy.numbered
  · rw [shapes_beginSection_blank, ChunkState.beginSection]
    dsimp only
    split
    · rename_i substantial
      have lines : textLines state.currentChunk ≠ [] := fun none => by
        rw [(textLines_eq_nil_iff _).mp none] at substantial
        exact absurd substantial (by decide)
      rw [shapes_flushed, ChunkState.shapes, pending_of_lines lines]
    · rw [ChunkState.shapes, lineCount_append]
      exact Nat.le_add_right _ _

theorem pushLine (tidy : state.Tidy seen) {line : List Char} (page : UInt32)
    (single : '\n' ∉ line) (trimmed : trim isWhitespace line = line) (notEmpty : line ≠ []) :
    (state.pushLine line).Tidy (seen ++ [(page, line)]) := by
  refine ⟨tidy.numbered, .inr ⟨state.currentChunk ++ line, rfl⟩, ?_⟩
  have before := tidy.fewer
  have pending : lineCount state.pending = (textLines state.currentChunk).length := by
    rw [ChunkState.pending]
    split
    · rename_i none
      rw [none]
      rfl
    · exact lineCount_single _
  rw [shapes_pushLine tidy.ended single trimmed notEmpty]
  rw [ChunkState.shapes, lineCount_append, pending] at before
  simp
  omega

theorem flushLarge (tidy : state.Tidy seen) (targetSize : Nat) (page : UInt32)
    (line : List Char) : (state.flushLarge targetSize page line).Tidy seen := by
  refine ⟨?_, ?_, ?_⟩
  · rw [ChunkState.flushLarge]
    split
    · dsimp only
      split
      · exact numbered_flushed tidy.numbered
      · exact tidy.numbered
    · exact tidy.numbered
  · rw [ChunkState.flushLarge]
    split
    · exact .inl rfl
    · exact tidy.ended
  · rw [shapes_flushLarge]
    exact tidy.fewer

theorem moved (tidy : state.Tidy seen) (offset : Nat) :
    ({ state with charOffset := offset } : ChunkState).Tidy seen :=
  ⟨tidy.numbered, tidy.ended, tidy.fewer⟩

theorem blank (tidy : state.Tidy seen) :
    ({ state with currentChunk := state.currentChunk ++ ['\n'] } : ChunkState).Tidy seen := by
  refine ⟨tidy.numbered, .inr ⟨_, rfl⟩, ?_⟩
  rw [ChunkState.shapes, ChunkState.pending, textLines_newline]
  exact tidy.fewer

theorem step (tidy : state.Tidy seen) (tables : CharTables) (targetSize : Nat) {event : Event}
    (single : event.Single) :
    (chunkStep tables targetSize state event).Tidy (seen ++ event.seen) := by
  cases event with
  | pageEnd =>
    rw [Event.seen, List.append_nil]
    exact tidy.moved _
  | line page raw =>
    rw [chunkStep, Event.seen]
    dsimp only
    split
    · rw [List.append_nil]
      exact tidy.blank
    · rename_i notBlank
      have notEmpty : trim isWhitespace raw ≠ [] := fun none =>
        notBlank (List.isEmpty_iff.mpr none)
      have within : '\n' ∉ trim isWhitespace raw := fun isBreak =>
        single ((trim_within raw).subset isBreak)
      have begun : (if isLikelyHeading tables (trim isWhitespace raw) = true then
          state.beginSection page (trim isWhitespace raw) else state).Tidy seen := by
        split
        · exact tidy.beginSection page _
        · exact tidy
      have pushed := (begun.pushLine page within (trim_trim raw) notEmpty).flushLarge
        targetSize page (trim isWhitespace raw)
      exact pushed.moved _

end Tidy
end ChunkState

theorem covers_chunkStep (tables : CharTables) (targetSize : Nat) {state : ChunkState}
    {seen : List (UInt32 × List Char)} (tidy : state.Tidy seen) {event : Event}
    (single : event.Single) :
    Covers (chunkStep tables targetSize state event).shapes (seen ++ event.seen) ↔
      Covers state.shapes seen ∧ Keeps tables state event := by
  cases event with
  | pageEnd =>
    rw [Event.seen, List.append_nil]
    exact (and_iff_left trivial).symm
  | line page raw =>
    rw [chunkStep, Event.seen, Keeps]
    dsimp only
    split
    · rename_i blank
      have none : trim isWhitespace raw = [] := List.isEmpty_iff.mp blank
      rw [List.append_nil, ChunkState.shapes, ChunkState.pending, textLines_newline]
      simp only [none, ne_eq, not_true_eq_false, false_imp_iff, and_true]
      exact Iff.rfl
    · rename_i notBlank
      have notEmpty : trim isWhitespace raw ≠ [] := fun none =>
        notBlank (List.isEmpty_iff.mpr none)
      have within : '\n' ∉ trim isWhitespace raw := fun isBreak =>
        single ((trim_within raw).subset isBreak)
      have same (next : ChunkState) (count : Nat) :
          ({ next with charOffset := count } : ChunkState).shapes = next.shapes := rfl
      rw [same, shapes_flushLarge]
      simp only [ne_eq, notEmpty, not_false_eq_true, true_imp_iff]
      split
      · have begun := tidy.beginSection page (trim isWhitespace raw)
        rw [covers_pushLine page begun.ended within (trim_trim raw) notEmpty,
          covers_beginSection page _ tidy.fewer]
        exact and_iff_left fun _ => rfl
      · exact covers_pushLine page tidy.ended within (trim_trim raw) notEmpty

theorem covers_run (tables : CharTables) (targetSize : Nat) {state : ChunkState}
    {seen : List (UInt32 × List Char)} (tidy : state.Tidy seen) {run : List Event}
    (single : ∀ event ∈ run, event.Single) :
    Covers (finish (chunkStep tables targetSize) state run).shapes
        (seen ++ run.flatMap Event.seen) ↔
      Covers state.shapes seen ∧
        Guarded (chunkStep tables targetSize) (Keeps tables) state run := by
  induction run generalizing state seen with
  | nil => simp [Guarded]
  | cons event run ih =>
    obtain ⟨now, later⟩ := List.forall_mem_cons.mp single
    rw [List.flatMap_cons, ← List.append_assoc, finish_cons,
      ih (tidy.step tables targetSize now) later, covers_chunkStep tables targetSize tidy now,
      and_assoc]
    rfl

theorem tidy_run (tables : CharTables) (targetSize : Nat) {state : ChunkState}
    {seen : List (UInt32 × List Char)} (tidy : state.Tidy seen) {run : List Event}
    (single : ∀ event ∈ run, event.Single) :
    (finish (chunkStep tables targetSize) state run).Tidy (seen ++ run.flatMap Event.seen) := by
  induction run generalizing state seen with
  | nil => simpa using tidy
  | cons event run ih =>
    obtain ⟨now, later⟩ := List.forall_mem_cons.mp single
    rw [List.flatMap_cons, ← List.append_assoc]
    exact ih (tidy.step tables targetSize now) later

/-! ## The turns of all pages -/

theorem single_events (pages : List (List Char)) : ∀ event ∈ events pages, event.Single := by
  intro event member
  obtain ⟨page, -, among⟩ := List.mem_flatMap.mp member
  rcases List.mem_append.mp among with line | last
  · obtain ⟨raw, inside, rfl⟩ := List.mem_map.mp line
    exact newline_notMem_lines page.1 raw inside
  · rw [List.mem_singleton.mp last]
    trivial

theorem seen_events (pages : List (List Char)) :
    (events pages).flatMap Event.seen = numberedLines pages := by
  have one (page : UInt32) (raws : List (List Char)) :
      (raws.map (Event.line page)).flatMap Event.seen =
        (trimAll isWhitespace raws).map (page, ·) := by
    induction raws with
    | nil => rfl
    | cons raw raws ih =>
      rw [List.map_cons, List.flatMap_cons, ih, trimAll_cons, List.map_append, Event.seen]
      congr 1
      by_cases blank : trim isWhitespace raw = []
      · simp [trimAll, blank]
      · simp [trimAll, blank]
  rw [events, numberedLines, List.flatMap_assoc]
  congr 1
  funext page
  rw [List.flatMap_append, one]
  exact List.append_nil _

theorem tidy_start : ChunkState.start.Tidy [] := ⟨rfl, .inl rfl, le_rfl⟩

/-- Both ways of chunking lose no text exactly when every turn of the structural one keeps what is
before a heading and opens chunks on their own page. -/
theorem chunking_lossless_iff (tables : CharTables) (targetSize : Nat)
    (pages : List (List Char)) :
    (Lossless pages (chunkStructural tables pages targetSize) ∧
        Lossless pages (chunkByPage pages)) ↔
      Guarded (chunkStep tables targetSize) (Keeps tables) .start (events pages) := by
  have tidy := tidy_run tables targetSize tidy_start (single_events pages)
  have numbered : Numbered (chunkStructural tables pages targetSize) := by
    rw [chunkStructural, ChunkState.close]
    split
    · exact numbered_flushed tidy.numbered
    · exact tidy.numbered
  have covers := covers_run tables targetSize tidy_start (single_events pages)
  rw [seen_events, List.nil_append, ← shapes_close] at covers
  rw [and_iff_left (lossless_chunkByPage pages), lossless_iff pages numbered]
  exact covers.trans (and_iff_right rfl)

/-- A short text before a heading is lost. -/
theorem chunking_lossless_hello :
    ¬ (Lossless ["hello world\nINTRODUCTION".toList]
        (chunkStructural asciiTables ["hello world\nINTRODUCTION".toList] 1000) ∧
      Lossless ["hello world\nINTRODUCTION".toList]
        (chunkByPage ["hello world\nINTRODUCTION".toList])) := by
  rintro ⟨⟨lines, -, -⟩, -⟩
  exact absurd lines (by decide +kernel)

end Document
end Mnemo
