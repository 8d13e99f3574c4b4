import Mnemo.Core.Text
import Mnemo.Lib.ByteSlice
import Mnemo.Lib.Lines

/-!
# Chunks of a parsed document

Texts are lists of characters; their lengths, as the system takes them, are counted in bytes.
-/

namespace Mnemo
namespace Document

open ByteSlice Text

/-- The kinds of document chunks. -/
inductive ChunkType where
  | title
  | heading
  | paragraph
  | table
  | list
  | code
  | footnote
  | caption
  | mixed
  deriving DecidableEq

/-- A part of a document's text. -/
structure DocumentChunk where
  /-- Position among the chunks. -/
  index : UInt32
  text : List Char
  /-- Page on which the chunk begins, counted from one. -/
  page : UInt32
  section_ : Option (List Char)
  chunkType : ChunkType
  charOffset : Nat
  charCount : Nat
  deriving DecidableEq

/-- The Unicode tables of characters on which the chunking depends. -/
structure CharTables where
  isAlphabetic : Char → Bool
  isUppercase : Char → Bool
  toLowercase : List Char → List Char

/-- The tables on texts of ASCII characters. -/
def asciiTables : CharTables :=
  { isAlphabetic := Char.isAlpha
    isUppercase := Char.isUpper
    toLowercase := List.map Char.toLower }

/-- Append a chunk, numbered by its position. -/
def pushChunk (chunks : List DocumentChunk) (text : List Char) (page : UInt32)
    (section_ : Option (List Char)) (chunkType : ChunkType) (charOffset charCount : Nat) :
    List DocumentChunk :=
  chunks ++ [{ index := UInt32.ofNat chunks.length
               text := text
               page := page
               section_ := section_
               chunkType := chunkType
               charOffset := charOffset
               charCount := charCount }]

/-- Each page with its number, counted from one. -/
def numberedPages (pages : List (List Char)) : List (List Char × UInt32) :=
  pages.zipIdx.map fun page => (page.1, UInt32.ofNat (page.2 + 1))

/-! ## One chunk per page -/

/-- The chunk of a page, unless the page is blank, and the offset behind the page. -/
def pageStep (state : List DocumentChunk × Nat) (page : List Char × UInt32) :
    List DocumentChunk × Nat :=
  let text := Lines.trim isWhitespace page.1
  if text.isEmpty then (state.1, state.2 + (bytes page.1 + 1))
  else
    (pushChunk state.1 text page.2 none .mixed state.2 (bytes text),
      state.2 + (bytes page.1 + 1))

/-- Chunk by page. -/
def chunkByPage (pages : List (List Char)) : List DocumentChunk :=
  ((numberedPages pages).foldl pageStep ([], 0)).1

/-! ## Chunks by structure -/

/-- Whether a text occurs in another. -/
def contains (text part : List Char) : Bool := text.tails.any part.isPrefixOf

/-- Whether a line is likely a heading. -/
def isLikelyHeading (tables : CharTables) (raw : List Char) : Bool :=
  let line := Lines.trim isWhitespace raw
  if bytes line < 3 || bytes line > 100 then false
  else if line.head?.any Char.isDigit &&
      (contains line ['.'] || contains (tables.toLowercase line) "chapter".toList) then true
  else if (line.filter tables.isAlphabetic).all tables.isUppercase then
    decide (bytes line > 3) && decide (bytes line < 60)
  else
    let words := Lines.words isWhitespace line
    let capitalized := (words.filter fun word => decide (bytes word > 1)).countP fun word =>
      word.head?.any tables.isUppercase
    decide (words.length ≤ 6) &&
      (decide (capitalized ≥ words.length - 1) && decide (words.length ≥ 2))

/-- What the loop over the lines carries. -/
structure ChunkState where
  chunks : List DocumentChunk
  currentChunk : List Char
  currentSection : Option (List Char)
  chunkStartPage : UInt32
  charOffset : Nat
  chunkStartOffset : Nat

/-- The state before the first line. -/
def ChunkState.start : ChunkState :=
  { chunks := []
    currentChunk := []
    currentSection := none
    chunkStartPage := 1
    charOffset := 0
    chunkStartOffset := 0 }

/-- The chunks with the current one, trimmed. -/
def ChunkState.flushed (state : ChunkState) : List DocumentChunk :=
  let text := Lines.trim isWhitespace state.currentChunk
  pushChunk state.chunks text state.chunkStartPage state.currentSection .paragraph
    state.chunkStartOffset (bytes text)

/-- A heading begins a section; the current chunk is kept if it is substantial. -/
def ChunkState.beginSection (state : ChunkState) (page : UInt32) (line : List Char) :
    ChunkState :=
  { state with
    chunks :=
      if bytes (Lines.trim isWhitespace state.currentChunk) > 50 then state.flushed
      else state.chunks
    currentSection := some line
    currentChunk := []
    chunkStartPage := page
    chunkStartOffset := state.charOffset }

/-- A line is appended to the current chunk. -/
def ChunkState.pushLine (state : ChunkState) (line : List Char) : ChunkState :=
  { state with currentChunk := state.currentChunk ++ line ++ ['\n'] }

/-- A chunk which got too large is flushed. -/
def ChunkState.flushLarge (state : ChunkState) (targetSize : Nat) (page : UInt32)
    (line : List Char) : ChunkState :=
  if bytes state.currentChunk > targetSize then
    { state with
      chunks :=
        if !(Lines.trim isWhitespace state.currentChunk).isEmpty then state.flushed
        else state.chunks
      currentChunk := []
      chunkStartPage := page
      chunkStartOffset := state.charOffset + bytes line }
  else state

/-- What the loops over the pages and their lines come to. -/
inductive Event where
  | line (page : UInt32) (raw : List Char)
  | pageEnd
  deriving DecidableEq

/-- One turn of the loops. -/
def chunkStep (tables : CharTables) (targetSize : Nat) (state : ChunkState) :
    Event → ChunkState
  | .pageEnd => { state with charOffset := state.charOffset + 1 }
  | .line page raw =>
      let line := Lines.trim isWhitespace raw
      if line.isEmpty then { state with currentChunk := state.currentChunk ++ ['\n'] }
      else
        let begun :=
          if isLikelyHeading tables line then state.beginSection page line else state
        let pushed := (begun.pushLine line).flushLarge targetSize page line
        { pushed with charOffset := pushed.charOffset + (bytes line + 1) }

/-- The turns of the loops over the lines of all pages. -/
def events (pages : List (List Char)) : List Event :=
  (numberedPages pages).flatMap fun page =>
    (Lines.lines page.1).map (Event.line page.2) ++ [.pageEnd]

/-- What remains after the last page is flushed unless it is blank. -/
def ChunkState.close (state : ChunkState) : List DocumentChunk :=
  if !(Lines.trim isWhitespace state.currentChunk).isEmpty then state.flushed
  else state.chunks

/-- Chunk by detected structure. -/
def chunkStructural (tables : CharTables) (pages : List (List Char)) (targetSize : Nat) :
    List DocumentChunk :=
  ((events pages).foldl (chunkStep tables targetSize) .start).close

end Document
end Mnemo
