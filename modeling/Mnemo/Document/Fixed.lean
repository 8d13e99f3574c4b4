import Mathlib.Logic.Relation
import Mnemo.Document.Chunking

/-!
# Chunks of a fixed size

A loop cuts the text into chunks of a size, each of which begins some characters before the end of
the one before it.  The size and the overlap are those of the configuration, which nobody checks.
A chunk that is not the last is shorter than the text, so that no sum of the loop overflows.
-/

namespace Mnemo
namespace Document

open ByteSlice Text

/-! ## The loop -/

/-- A sentence or paragraph ends with the character. -/
def isSentenceEnd (character : Char) : Bool :=
  character == '.' || character == '!' || character == '?' || character == '\n'

/-- The last position with a property among some positions from the lowest one. -/
def lastFrom (property : Nat → Bool) (low : Nat) : Nat → Option Nat
  | 0 => none
  | count + 1 =>
      if property (low + count) then some (low + count) else lastFrom property low count

/-- The end of a window, set back behind the last position in it which has a property. -/
def windowEnd (property : Nat → Bool) (low high : Nat) : Nat :=
  match lastFrom property low (high - low) with
  | some position => position + 1
  | none => high

/-- The end of the chunk that begins at some position: behind the last sentence end in the last
fifth of its size. -/
def actualEnd (text : List Char) (chunkSize start : Nat) : Nat :=
  let stop := min (start + chunkSize) text.length
  if stop < text.length then
    windowEnd (fun position => text[position]?.any isSentenceEnd) (stop - chunkSize / 5) stop
  else stop

/-- A slice of the characters; it panics if its bounds are not in order or not in the text. -/
def sliceChars (text : List Char) (start stop : Nat) : Option (List Char) :=
  if start ≤ stop ∧ stop ≤ text.length then some ((text.drop start).take (stop - start)) else none

/-- Estimate the page number: one more than the form feeds in the bytes before an offset.  It panics
if the offset is inside of a character. -/
def estimatePage (charOffset : Nat) (text : List Char) : Option UInt32 :=
  (takeBytes (min charOffset (bytes text)) text).map fun front =>
    UInt32.ofNat (front.count '\x0c' + 1)

/-- Where the next chunk begins. -/
def nextStart (text : List Char) (chunkSize overlap start : Nat) : Nat :=
  let stop := actualEnd text chunkSize start
  if stop ≥ text.length then text.length else stop - overlap

/-- One turn of the loop on the chunks so far, unless it panics. -/
def fixedStep (text : List Char) (chunkSize start : Nat) (chunks : List DocumentChunk) :
    Option (List DocumentChunk) :=
  match sliceChars text start (actualEnd text chunkSize start) with
  | none => none
  | some slice =>
      let chunkText := Lines.trim isWhitespace slice
      if chunkText.isEmpty then some chunks
      else
        (estimatePage start text).map fun page =>
          pushChunk chunks chunkText page none .paragraph start (bytes chunkText)

/-- What becomes of a loop in some number of turns. -/
inductive LoopResult where
  | returned (chunks : List DocumentChunk)
  | panicked
  | unfinished
  deriving DecidableEq

/-- The loop, for at most some number of turns. -/
def fixedLoop (text : List Char) (chunkSize overlap : Nat) :
    Nat → Nat → List DocumentChunk → LoopResult
  | 0, _, _ => .unfinished
  | fuel + 1, start, chunks =>
      if start < text.length then
        match fixedStep text chunkSize start chunks with
        | none => .panicked
        | some next =>
            fixedLoop text chunkSize overlap fuel (nextStart text chunkSize overlap start) next
      else .returned chunks

/-- Chunk by a fixed size, with an overlap. -/
def chunkFixed (fuel : Nat) (text : List Char) (chunkSize overlap : Nat) : LoopResult :=
  if text.length = 0 then .returned [] else fixedLoop text chunkSize overlap fuel 0 []

/-! ## What is promised of the chunks -/

/-- The character at a position is one of the chunk's, whose text begins behind white space at the
chunk's offset. -/
def DocumentChunk.Shows (chunk : DocumentChunk) (text : List Char) (position : Nat) : Prop :=
  ∃ front back, text = front ++ chunk.text ++ back ∧ chunk.charOffset ≤ front.length ∧
    (∀ character ∈ front.drop chunk.charOffset, isWhitespace character = true) ∧
    front.length ≤ position ∧ position < front.length + chunk.text.length

/-- The page at an offset: one more than the form feeds before it. -/
def pageAt (text : List Char) (offset : Nat) : UInt32 :=
  UInt32.ofNat ((text.take offset).count '\x0c' + 1)

/-- The chunks are small, cover the text, begin one behind the other and know their pages. -/
structure CutInOrder (text : List Char) (chunkSize : Nat) (chunks : List DocumentChunk) :
    Prop where
  sizes : ∀ chunk ∈ chunks, chunk.text.length ≤ chunkSize
  covered : ∀ position character, text[position]? = some character →
    isWhitespace character = false → ∃ chunk ∈ chunks, chunk.Shows text position
  increasing : chunks.Pairwise fun first second => first.charOffset < second.charOffset
  pages : ∀ chunk ∈ chunks, chunk.page = pageAt text chunk.charOffset

/-- The starts which the loop comes to. -/
def Reached (text : List Char) (chunkSize overlap : Nat) : Nat → Nat → Prop :=
  Relation.ReflTransGen fun start next =>
    start < text.length ∧ next = nextStart text chunkSize overlap start

/-- The chunk at a start ends the text, or its end is more than the overlap behind the start. -/
def Advances (text : List Char) (chunkSize overlap start : Nat) : Prop :=
  text.length ≤ actualEnd text chunkSize start ∨ start + overlap < actualEnd text chunkSize start

/-- Counted in bytes, the start is where a character ends, with as many form feeds before it as when
it is counted in characters. -/
def OffsetFits (text : List Char) (start : Nat) : Prop :=
  ∃ front, takeBytes start text = some front ∧
    UInt32.ofNat (front.count '\x0c' + 1) = pageAt text start

/-- The characters from a start to the end of its chunk are white space. -/
def BlankFrom (text : List Char) (chunkSize start : Nat) : Prop :=
  ∀ position character, start ≤ position → position < actualEnd text chunkSize start →
    text[position]? = some character → isWhitespace character = true

/-! ## The end of a window -/

theorem lastFrom_spec (property : Nat → Bool) (low count : Nat) :
    match lastFrom property low count with
    | some position => low ≤ position ∧ position < low + count ∧ property position = true ∧
        ∀ later, position < later → later < low + count → property later = false
    | none => ∀ position, low ≤ position → position < low + count → property position = false := by
  induction count with
  | zero =>
    intro position least most
    omega
  | succ count ih =>
    rw [lastFrom]
    by_cases holds : property (low + count) = true
    · rw [if_pos holds]
      refine ⟨by omega, by omega, holds, fun later behind before => ?_⟩
      omega
    · rw [if_neg holds]
      have fails : property (low + count) = false := by simpa using holds
      have last (position : Nat) (before : position < low + (count + 1)) :
          position < low + count ∨ position = low + count := by omega
      cases found : lastFrom property low count with
      | some position =>
        rw [found] at ih
        obtain ⟨least, most, here, later⟩ := ih
        refine ⟨least, by omega, here, fun other behind before => ?_⟩
        rcases last other before with early | rfl
        · exact later other behind early
        · exact fails
      | none =>
        rw [found] at ih
        intro position least before
        rcases last position before with early | rfl
        · exact ih position least early
        · exact fails

theorem windowEnd_spec (property : Nat → Bool) {low high : Nat} (inOrder : low ≤ high) :
    (low < windowEnd property low high ∧ windowEnd property low high ≤ high ∧
        property (windowEnd property low high - 1) = true ∧
        ∀ later, windowEnd property low high ≤ later → later < high → property later = false) ∨
      (windowEnd property low high = high ∧
        ∀ position, low ≤ position → position < high → property position = false) := by
  have spec := lastFrom_spec property low (high - low)
  have whole : low + (high - low) = high := by omega
  rw [whole] at spec
  rw [windowEnd]
  cases found : lastFrom property low (high - low) with
  | some position =>
    rw [found] at spec
    obtain ⟨least, most, here, later⟩ := spec
    exact .inl ⟨by simp; omega, by simp; omega, by simpa using here,
      fun other behind before => later other (Nat.lt_of_succ_le behind) before⟩
  | none =>
    rw [found] at spec
    exact .inr ⟨rfl, spec⟩

theorem windowEnd_bounds (property : Nat → Bool) {low high : Nat} (inOrder : low ≤ high) :
    low ≤ windowEnd property low high ∧ windowEnd property low high ≤ high := by
  rcases windowEnd_spec property inOrder with ⟨least, most, -⟩ | ⟨same, -⟩
  · omega
  · omega

theorem windowEnd_mono (property : Nat → Bool) {low high least most : Nat} (inOrder : low ≤ high)
    (also : least ≤ most) (lows : low ≤ least) (highs : high ≤ most) :
    windowEnd property low high ≤ windowEnd property least most := by
  by_contra before
  have bounds := windowEnd_bounds property inOrder
  rcases windowEnd_spec property also with ⟨behind, -, here, later⟩ | ⟨same, -⟩
  · rcases windowEnd_spec property inOrder with ⟨_, _, last, -⟩ | ⟨same, none⟩
    · rw [later _ (by omega) (by omega)] at last
      exact Bool.noConfusion last
    · rw [none _ (by omega) (by omega)] at here
      exact Bool.noConfusion here
  · omega

/-! ## The end of a chunk -/

section Ends

variable {text : List Char} {chunkSize overlap start other : Nat}

theorem actualEnd_le_length : actualEnd text chunkSize start ≤ text.length := by
  rw [actualEnd]
  split
  · rename_i inside
    exact (windowEnd_bounds _ (Nat.sub_le _ _)).2.trans inside.le
  · exact min_le_right _ _

theorem actualEnd_le_size : actualEnd text chunkSize start ≤ start + chunkSize := by
  rw [actualEnd]
  split
  · exact (windowEnd_bounds _ (Nat.sub_le _ _)).2.trans (min_le_left _ _)
  · exact min_le_left _ _

theorem start_le_actualEnd (inside : start ≤ text.length) :
    start ≤ actualEnd text chunkSize start := by
  rw [actualEnd]
  split
  · rename_i before
    have low := (windowEnd_bounds (fun position => text[position]?.any isSentenceEnd)
      (Nat.sub_le (min (start + chunkSize) text.length) (chunkSize / 5))).1
    omega
  · omega

theorem actualEnd_mono (later : start ≤ other) :
    actualEnd text chunkSize start ≤ actualEnd text chunkSize other := by
  by_cases last : other + chunkSize < text.length
  · have first : start + chunkSize < text.length := by omega
    rw [actualEnd, actualEnd]
    simp only [min_eq_left last.le, min_eq_left first.le, if_pos last, if_pos first]
    exact windowEnd_mono _ (Nat.sub_le _ _) (Nat.sub_le _ _) (by omega) (by omega)
  · have whole : actualEnd text chunkSize other = text.length := by
      rw [actualEnd]
      rw [if_neg (by omega)]
      omega
    rw [whole]
    exact actualEnd_le_length

theorem advances_iff (inside : start < text.length) :
    Advances text chunkSize overlap start ↔ start < nextStart text chunkSize overlap start := by
  rw [Advances, nextStart]
  split
  · exact iff_of_true (.inl ‹_›) inside
  · omega

theorem nextStart_le_actualEnd :
    nextStart text chunkSize overlap start ≤ actualEnd text chunkSize start := by
  rw [nextStart]
  split
  · assumption
  · exact Nat.sub_le _ _

theorem nextStart_le_length : nextStart text chunkSize overlap start ≤ text.length :=
  nextStart_le_actualEnd.trans actualEnd_le_length

theorem stuck_next (inside : start < text.length)
    (stuck : ¬ Advances text chunkSize overlap start) :
    nextStart text chunkSize overlap start < text.length ∧
      ¬ Advances text chunkSize overlap (nextStart text chunkSize overlap start) := by
  have back : nextStart text chunkSize overlap start ≤ start :=
    Nat.le_of_not_lt fun advanced => stuck ((advances_iff inside).mpr advanced)
  have earlier : actualEnd text chunkSize (nextStart text chunkSize overlap start) ≤
      actualEnd text chunkSize start := actualEnd_mono back
  refine ⟨by omega, ?_⟩
  rw [Advances] at stuck ⊢
  have same : nextStart text chunkSize overlap start =
      actualEnd text chunkSize start - overlap := by
    rw [nextStart]
    rw [if_neg (by omega)]
  omega

end Ends

/-! ## One turn -/

section Turn

variable {text : List Char} {chunkSize overlap start : Nat} {chunks next : List DocumentChunk}

theorem sliceChars_eq (inside : start < text.length) :
    sliceChars text start (actualEnd text chunkSize start) =
      some ((text.drop start).take (actualEnd text chunkSize start - start)) :=
  if_pos ⟨start_le_actualEnd inside.le, actualEnd_le_length⟩

theorem blankFrom_iff : BlankFrom text chunkSize start ↔
    Lines.trim isWhitespace
      ((text.drop start).take (actualEnd text chunkSize start - start)) = [] := by
  rw [Lines.trim_eq_nil_iff, BlankFrom]
  constructor
  · intro blank character member
    obtain ⟨position, found⟩ := List.mem_iff_getElem?.mp member
    have within : position < actualEnd text chunkSize start - start := by
      by_contra outside
      rw [List.getElem?_eq_none (by simp; omega)] at found
      exact nomatch found
    rw [List.getElem?_take_of_lt within, List.getElem?_drop] at found
    exact blank (start + position) character (by omega) (by omega) found
  · intro blank position character least most found
    apply blank character
    apply List.mem_iff_getElem?.mpr
    refine ⟨position - start, ?_⟩
    rw [List.getElem?_take_of_lt (by omega), List.getElem?_drop, Nat.add_sub_cancel' least]
    exact found

theorem length_le_bytes (front : List Char) : front.length ≤ bytes front := by
  induction front with
  | nil => exact Nat.le_refl _
  | cons character front ih =>
    have := character.utf8Size_pos
    simp
    omega

theorem estimatePage_eq (inside : start ≤ text.length) :
    estimatePage start text =
      (takeBytes start text).map fun front => UInt32.ofNat (front.count '\x0c' + 1) := by
  rw [estimatePage, min_eq_left (inside.trans (length_le_bytes text))]

theorem offsetFits_iff (inside : start ≤ text.length) :
    OffsetFits text start ↔ estimatePage start text = some (pageAt text start) := by
  rw [estimatePage_eq inside, OffsetFits, Option.map_eq_some_iff]

theorem fixedStep_blank (inside : start < text.length) (blank : BlankFrom text chunkSize start) :
    fixedStep text chunkSize start chunks = some chunks := by
  rw [fixedStep, sliceChars_eq inside]
  simp [blankFrom_iff.mp blank]

/-- The chunk of a start on a page. -/
def fixedChunk (text : List Char) (chunkSize start count : Nat) (page : UInt32) :
    DocumentChunk :=
  let chunkText := Lines.trim isWhitespace
    ((text.drop start).take (actualEnd text chunkSize start - start))
  { index := UInt32.ofNat count
    text := chunkText
    page := page
    section_ := none
    chunkType := .paragraph
    charOffset := start
    charCount := bytes chunkText }

theorem fixedStep_text (inside : start < text.length)
    (notBlank : ¬ BlankFrom text chunkSize start) :
    fixedStep text chunkSize start chunks = (estimatePage start text).map fun page =>
      chunks ++ [fixedChunk text chunkSize start chunks.length page] := by
  rw [fixedStep, sliceChars_eq inside]
  dsimp only
  rw [if_neg]
  · rfl
  · rwa [List.isEmpty_iff, ← blankFrom_iff]

end Turn

/-! ## The chunks up to a start -/

/-- The chunks so far are cut in order and cover the text before the next start. -/
structure CutUpto (text : List Char) (chunkSize start : Nat) (chunks : List DocumentChunk) :
    Prop where
  sizes : ∀ chunk ∈ chunks, chunk.text.length ≤ chunkSize
  covered : ∀ position character, position < start → text[position]? = some character →
    isWhitespace character = false → ∃ chunk ∈ chunks, chunk.Shows text position
  increasing : chunks.Pairwise fun first second => first.charOffset < second.charOffset
  before : ∀ chunk ∈ chunks, chunk.charOffset < start
  pages : ∀ chunk ∈ chunks, chunk.page = pageAt text chunk.charOffset

section Growth

variable {text : List Char} {chunkSize overlap start : Nat} {chunks : List DocumentChunk}

/-- The text of a chunk that is cut shows every character which is not white space. -/
theorem fixedChunk_shows (inside : start < text.length) {position count : Nat} {page : UInt32}
    {character : Char} (least : start ≤ position)
    (most : position < actualEnd text chunkSize start) (found : text[position]? = some character)
    (visible : isWhitespace character = false) :
    (fixedChunk text chunkSize start count page).Shows text position := by
  obtain ⟨lead, trail, whole, leads, trails⟩ := Lines.trim_parts isWhitespace
    ((text.drop start).take (actualEnd text chunkSize start - start))
  have size := congrArg List.length whole
  have fits := @actualEnd_le_length text chunkSize start
  have inSlice : ((text.drop start).take (actualEnd text chunkSize start - start))[
      position - start]? = some character := by
    rw [List.getElem?_take_of_lt (by omega), List.getElem?_drop, Nat.add_sub_cancel' least]
    exact found
  have cut : text = text.take start ++
      ((text.drop start).take (actualEnd text chunkSize start - start) ++
        text.drop (actualEnd text chunkSize start)) := by
    have rest : (text.drop start).drop (actualEnd text chunkSize start - start) =
        text.drop (actualEnd text chunkSize start) := by
      rw [List.drop_drop]
      congr 1
      omega
    rw [← rest, List.take_append_drop, List.take_append_drop]
  have startSize : (text.take start).length = start := by
    rw [List.length_take]
    omega
  refine ⟨text.take start ++ lead, trail ++ text.drop (actualEnd text chunkSize start), ?_,
    ?_, ?_, ?_, ?_⟩
  · calc text = text.take start ++ ((lead ++ (fixedChunk text chunkSize start count page).text ++
            trail) ++ text.drop (actualEnd text chunkSize start)) := by
          rw [fixedChunk, ← whole]
          exact cut
      _ = _ := by simp only [List.append_assoc]
  · rw [List.length_append, startSize]
    exact Nat.le_add_right _ _
  · have dropped : (text.take start ++ lead).drop
        (fixedChunk text chunkSize start count page).charOffset = lead :=
      List.drop_left' startSize
    rw [dropped]
    exact leads
  · rw [List.length_append, startSize]
    by_contra early
    rw [whole, List.append_assoc, List.getElem?_append_left (by omega)] at inSlice
    rw [leads character (List.mem_of_getElem? inSlice)] at visible
    exact Bool.noConfusion visible
  · rw [List.length_append, startSize]
    by_contra late
    have behind : (lead ++ Lines.trim isWhitespace ((text.drop start).take
        (actualEnd text chunkSize start - start))).length ≤ position - start := by
      rw [List.length_append]
      rw [fixedChunk] at late
      dsimp only at late
      omega
    rw [whole, List.getElem?_append_right behind] at inSlice
    rw [trails character (List.mem_of_getElem? inSlice)] at visible
    exact Bool.noConfusion visible

/-- A turn that advances and knows its page keeps the chunks in order. -/
theorem CutUpto.step (upto : CutUpto text chunkSize start chunks) (inside : start < text.length)
    (advances : Advances text chunkSize overlap start)
    (fits : BlankFrom text chunkSize start ∨ OffsetFits text start) :
    ∃ next, fixedStep text chunkSize start chunks = some next ∧
      CutUpto text chunkSize (nextStart text chunkSize overlap start) next := by
  have later := (advances_iff inside).mp advances
  have within := @nextStart_le_actualEnd text chunkSize overlap start
  by_cases blank : BlankFrom text chunkSize start
  · refine ⟨chunks, fixedStep_blank inside blank, upto.sizes, ?_, upto.increasing, ?_,
      upto.pages⟩
    · intro position character before found visible
      by_cases early : position < start
      · exact upto.covered position character early found visible
      · rw [blank position character (by omega) (by omega) found] at visible
        exact Bool.noConfusion visible
    · exact fun chunk member => (upto.before chunk member).trans later
  · have known := (offsetFits_iff inside.le).mp (fits.resolve_left blank)
    refine ⟨chunks ++ [fixedChunk text chunkSize start chunks.length (pageAt text start)], ?_,
      ?_, ?_, ?_, ?_, ?_⟩
    · rw [fixedStep_text inside blank, known]
      rfl
    · intro chunk member
      rcases List.mem_append.mp member with old | new
      · exact upto.sizes chunk old
      · rw [List.mem_singleton.mp new]
        have short := (@Lines.trim_within isWhitespace ((text.drop start).take
          (actualEnd text chunkSize start - start))).length_le
        have most := @actualEnd_le_size text chunkSize start
        rw [List.length_take] at short
        exact short.trans (by omega)
    · intro position character before found visible
      by_cases early : position < start
      · obtain ⟨chunk, member, shows⟩ := upto.covered position character early found visible
        exact ⟨chunk, List.mem_append_left _ member, shows⟩
      · exact ⟨_, List.mem_append_right _ (List.mem_singleton.mpr rfl),
          fixedChunk_shows inside (by omega) (by omega) found visible⟩
    · refine List.pairwise_append.mpr ⟨upto.increasing, List.pairwise_singleton _ _, ?_⟩
      intro first old second new
      rw [List.mem_singleton.mp new]
      exact upto.before first old
    · intro chunk member
      rcases List.mem_append.mp member with old | new
      · exact (upto.before chunk old).trans later
      · rw [List.mem_singleton.mp new]
        exact later
    · intro chunk member
      rcases List.mem_append.mp member with old | new
      · exact upto.pages chunk old
      · rw [List.mem_singleton.mp new]
        rfl

end Growth

/-! ## The loop as a whole -/

section Loop

variable {text : List Char} {chunkSize overlap fuel start : Nat}
  {chunks out : List DocumentChunk}

theorem fixedLoop_done (done : text.length ≤ start) :
    fixedLoop text chunkSize overlap (fuel + 1) start chunks = .returned chunks := by
  rw [fixedLoop, if_neg (by omega)]

theorem fixedLoop_next (inside : start < text.length) {next : List DocumentChunk}
    (stepped : fixedStep text chunkSize start chunks = some next) :
    fixedLoop text chunkSize overlap (fuel + 1) start chunks =
      fixedLoop text chunkSize overlap fuel (nextStart text chunkSize overlap start) next := by
  rw [fixedLoop, if_pos inside, stepped]

theorem fixedLoop_returned (inside : start < text.length)
    (returned : fixedLoop text chunkSize overlap fuel start chunks = .returned out) :
    ∃ less next, fuel = less + 1 ∧ fixedStep text chunkSize start chunks = some next ∧
      fixedLoop text chunkSize overlap less (nextStart text chunkSize overlap start) next =
        .returned out := by
  cases fuel with
  | zero => exact nomatch returned
  | succ less =>
    rw [fixedLoop, if_pos inside] at returned
    cases stepped : fixedStep text chunkSize start chunks with
    | none =>
      rw [stepped] at returned
      exact nomatch returned
    | some next =>
      rw [stepped] at returned
      exact ⟨less, next, rfl, rfl, returned⟩

theorem fixedLoop_stuck (inside : start < text.length)
    (stuck : ¬ Advances text chunkSize overlap start) (chunks : List DocumentChunk) :
    fixedLoop text chunkSize overlap fuel start chunks ≠ .returned out := by
  induction fuel generalizing start chunks with
  | zero => exact fun returned => nomatch returned
  | succ fuel ih =>
    intro returned
    obtain ⟨less, next, same, -, rest⟩ := fixedLoop_returned inside returned
    obtain ⟨within, again⟩ := stuck_next inside stuck
    rw [← Nat.succ.inj same] at rest
    exact ih within again next rest

theorem subset_of_fixedStep {next : List DocumentChunk} (inside : start < text.length)
    (stepped : fixedStep text chunkSize start chunks = some next) : chunks ⊆ next := by
  by_cases blank : BlankFrom text chunkSize start
  · rw [fixedStep_blank inside blank] at stepped
    rw [Option.some.inj stepped]
    exact List.Subset.refl _
  · rw [fixedStep_text inside blank] at stepped
    obtain ⟨page, -, rfl⟩ := Option.map_eq_some_iff.mp stepped
    exact List.subset_append_left _ _

theorem subset_of_returned
    (returned : fixedLoop text chunkSize overlap fuel start chunks = .returned out) :
    chunks ⊆ out := by
  induction fuel generalizing start chunks with
  | zero => exact nomatch returned
  | succ fuel ih =>
    by_cases inside : start < text.length
    · obtain ⟨less, next, same, stepped, rest⟩ := fixedLoop_returned inside returned
      rw [← Nat.succ.inj same] at rest
      exact List.Subset.trans (subset_of_fixedStep inside stepped) (ih rest)
    · rw [fixedLoop_done (by omega)] at returned
      rw [LoopResult.returned.inj returned]
      exact List.Subset.refl _

/-- At every start which the loop comes to it advances and knows its page. -/
def Sound (text : List Char) (chunkSize overlap start : Nat) : Prop :=
  Advances text chunkSize overlap start ∧
    (BlankFrom text chunkSize start ∨ OffsetFits text start)

theorem fixedLoop_of_sound (upto : CutUpto text chunkSize start chunks)
    (within : start ≤ text.length)
    (sound : ∀ later, Reached text chunkSize overlap start later → later < text.length →
      Sound text chunkSize overlap later) :
    ∃ fuel out, fixedLoop text chunkSize overlap fuel start chunks = .returned out ∧
      CutInOrder text chunkSize out := by
  obtain ⟨left, rest⟩ : ∃ left, text.length - start = left := ⟨_, rfl⟩
  induction left using Nat.strong_induction_on generalizing start chunks with
  | h left ih =>
    by_cases inside : start < text.length
    · obtain ⟨advances, fits⟩ := sound start .refl inside
      obtain ⟨next, stepped, grown⟩ := upto.step inside advances fits
      have later := (advances_iff inside).mp advances
      obtain ⟨fuel, out, returned, inOrder⟩ := ih _ (by omega) grown nextStart_le_length
        (fun other reached => sound other (.head ⟨inside, rfl⟩ reached)) rfl
      exact ⟨fuel + 1, out, by rw [fixedLoop_next inside stepped, returned], inOrder⟩
    · refine ⟨1, chunks, fixedLoop_done (by omega), upto.sizes, ?_, upto.increasing, upto.pages⟩
      intro position character found
      have before : position < text.length := (List.getElem?_eq_some_iff.mp found).1
      exact upto.covered position character (by omega) found

theorem sound_of_fixedLoop
    (returned : fixedLoop text chunkSize overlap fuel start chunks = .returned out)
    (inOrder : CutInOrder text chunkSize out) {later : Nat}
    (reached : Reached text chunkSize overlap start later) (inside : later < text.length) :
    Sound text chunkSize overlap later := by
  induction reached using Relation.ReflTransGen.head_induction_on generalizing fuel chunks with
  | refl =>
    refine ⟨by_contra fun stuck => fixedLoop_stuck inside stuck chunks returned, ?_⟩
    refine or_iff_not_imp_left.mpr fun notBlank => (offsetFits_iff inside.le).mpr ?_
    obtain ⟨less, next, -, stepped, rest⟩ := fixedLoop_returned inside returned
    rw [fixedStep_text inside notBlank] at stepped
    obtain ⟨page, known, rfl⟩ := Option.map_eq_some_iff.mp stepped
    have member := subset_of_returned rest
      (List.mem_append_right _ (List.mem_singleton.mpr rfl))
    rw [known]
    exact congrArg some (inOrder.pages _ member)
  | head turn _ ih =>
    obtain ⟨before, rfl⟩ := turn
    obtain ⟨less, next, -, -, rest⟩ := fixedLoop_returned before returned
    exact ih rest

end Loop

/-- Fixed-size chunking ends with chunks that are cut in order. -/
def FixedChunksInOrder (text : List Char) (chunkSize overlap : Nat) : Prop :=
  ∃ fuel chunks, chunkFixed fuel text chunkSize overlap = .returned chunks ∧
    CutInOrder text chunkSize chunks

/-- Fixed-size chunking does what is promised exactly when it advances at every start which it comes
to, and every start before visible text, counted in bytes, is as good as counted in characters. -/
theorem fixedChunksInOrder_iff (text : List Char) (chunkSize overlap : Nat) :
    FixedChunksInOrder text chunkSize overlap ↔
      ∀ start, Reached text chunkSize overlap 0 start → start < text.length →
        Advances text chunkSize overlap start ∧
          (BlankFrom text chunkSize start ∨ OffsetFits text start) := by
  constructor
  · rintro ⟨fuel, chunks, returned, inOrder⟩ start reached inside
    rw [chunkFixed, if_neg (by omega)] at returned
    exact sound_of_fixedLoop returned inOrder reached inside
  · intro sound
    have upto : CutUpto text chunkSize 0 [] :=
      ⟨List.forall_mem_nil _, fun position _ before => absurd before (Nat.not_lt_zero position),
        .nil, List.forall_mem_nil _, List.forall_mem_nil _⟩
    obtain ⟨fuel, chunks, returned, inOrder⟩ := fixedLoop_of_sound upto (Nat.zero_le _) sound
    refine ⟨fuel, chunks, ?_, inOrder⟩
    rw [chunkFixed]
    split
    · rename_i empty
      cases fuel with
      | zero => exact nomatch returned
      | succ fuel =>
          rw [fixedLoop_done (by omega)] at returned
          exact returned
    · exact returned

/-- With an overlap as large as the chunks the loop never ends. -/
theorem fixedChunksInOrder_hello : ¬ FixedChunksInOrder "hello world".toList 4 4 := by
  rintro ⟨fuel, chunks, returned, -⟩
  rw [chunkFixed, if_neg (by decide)] at returned
  have stuck : ¬ Advances "hello world".toList 4 4 0 := by
    rw [Advances]
    decide
  exact fixedLoop_stuck (by decide) stuck [] returned

end Document
end Mnemo
