import Mnemo.Core.Basic
import Mnemo.Extraction.Salvage
import Mnemo.Lib.ByteSearch

/-!
# Parsing what a language model returns

The returned text is trimmed, taken out of a code fence if there is one, and read as JSON.  The
parsers slice the text at byte offsets which they have searched; a slice whose ends are in the wrong
order, or inside of a character, panics.
-/

namespace Mnemo
namespace Extraction

open ByteSlice Text

/-! ## The parsers -/

/-- Three backquotes. -/
def fence : List Char := ['\x60', '\x60', '\x60']

/-- The text inside of a code fence, or all of it; it may panic. -/
def stripCodeFences (raw : List Char) : Option (List Char) :=
  let cleaned := Lines.trim isWhitespace raw
  if fence.isPrefixOf cleaned then
    let start := ((findByte (· == '\n') cleaned).map (· + 1)).getD 0
    let stop := (rfind fence cleaned).getD (bytes cleaned)
    sliceBytes start stop cleaned
  else some cleaned

/-- The error about a text which is no extraction, with its first bytes; it may panic. -/
def extractionError (raw : List Char) (error : String) : Option MnemoError :=
  (takeBytes (min (bytes raw) 200) raw).map fun excerpt =>
    .extractionFailed
      ("Failed to parse extraction JSON: " ++ error ++ ". Raw: " ++ String.ofList excerpt)

/-- Parse an extraction of the OpenAI-compatible provider; what is truncated is salvaged. -/
def parseExtraction (readers : JsonReaders) (tables : TokenTables) (content raw : List Char) :
    Option (Except MnemoError ExtractionResponse) :=
  (stripCodeFences raw).bind fun cleaned =>
    match readers.extraction cleaned with
    | .ok parsed => some (.ok parsed)
    | .error error =>
        let salvaged := salvageExtraction readers tables content cleaned
        if !salvaged.entities.isEmpty || !salvaged.relationships.isEmpty then some (.ok salvaged)
        else (extractionError raw error).map .error

/-- Parse an extraction of the Anthropic provider. -/
def parseExtractionAnthropic (readers : JsonReaders) (raw : List Char) :
    Option (Except MnemoError ExtractionResponse) :=
  (stripCodeFences raw).bind fun cleaned =>
    match readers.extraction cleaned with
    | .ok parsed => some (.ok parsed)
    | .error error => (extractionError raw error).map .error

/-- A narrative as the model reports it. -/
structure NarrativeGenerationOutput (Chapter : Type) where
  narrativeText : List Char
  chapters : List Chapter

/-- What follows a given beginning of a text. -/
def stripStart (start text : List Char) : Option (List Char) :=
  if start.isPrefixOf text then some (text.drop start.length) else none

/-- What stands before a given end of a text. -/
def stripEnd (stop text : List Char) : Option (List Char) :=
  if stop.isSuffixOf text then some (text.take (text.length - stop.length)) else none

/-- The trimmed text of a code fence with an opening and a closing mark. -/
def fencedBlock (trimmed : List Char) : Option (List Char) :=
  if (fence ++ "json".toList).isPrefixOf trimmed then
    ((stripStart (fence ++ "json".toList) trimmed).bind (stripEnd fence)).map
      (Lines.trim isWhitespace)
  else if fence.isPrefixOf trimmed then
    ((stripStart fence trimmed).bind (stripEnd fence)).map (Lines.trim isWhitespace)
  else none

/-- The text from the first opening brace to the last closing one; it may panic. -/
def braced (raw : List Char) : Option (Option (List Char)) :=
  match findByte (· == '\x7b') raw, rfind ['\x7d'] raw with
  | some start, some stop => (sliceBytes start (stop + 1) raw).map some
  | _, _ => some none

/-- Parse a narrative: the whole text, a fenced block or what stands between braces as JSON, or else
the text itself. -/
def parseNarrativeOutput {Chapter : Type}
    (fromStr : List Char → Option (NarrativeGenerationOutput Chapter)) (raw : List Char) :
    Option (Except String (NarrativeGenerationOutput Chapter)) :=
  let trimmed := Lines.trim isWhitespace raw
  match fromStr raw with
  | some output => some (.ok output)
  | none =>
      match (fencedBlock trimmed).bind fromStr with
      | some output => some (.ok output)
      | none =>
          (braced raw).map fun candidate =>
            match candidate.bind fromStr with
            | some output => .ok output
            | none =>
                if trimmed.isEmpty then .error "empty or unparseable narrative output"
                else .ok { narrativeText := trimmed, chapters := [] }

/-! ## What is promised of the parsers -/

/-- The white space of JSON. -/
def jsonBlank (character : Char) : Bool :=
  character == ' ' || character == '\t' || character == '\n' || character == '\r'

/-- A reader of JSON documents: white space around a document does not matter, and a document is an
object or an array. -/
structure ReadsDocuments {α : Type} (read : List Char → Option α) : Prop where
  blanks : ∀ front text back value, (∀ character ∈ front, jsonBlank character = true) →
    (∀ character ∈ back, jsonBlank character = true) →
    (read (front ++ text ++ back) = some value ↔ read text = some value)
  delimited : ∀ text value, read text = some value → ∃ front core back,
    text = front ++ core ++ back ∧ (∀ character ∈ front, jsonBlank character = true) ∧
      (∀ character ∈ back, jsonBlank character = true) ∧
      (core.head? = some '\x7b' ∨ core.head? = some '[') ∧
      (core.getLast? = some '\x7d' ∨ core.getLast? = some ']')

/-- A document is returned bare, or between the marks of a code fence on their own lines. -/
def Presents (raw document : List Char) : Prop :=
  raw = document ∨
    ∃ language, (language = [] ∨ language = "json".toList) ∧
      raw = fence ++ language ++ '\n' :: document ++ '\n' :: fence

/-- The reader of extractions without its error texts. -/
def JsonReaders.readExtraction (readers : JsonReaders) (text : List Char) :
    Option ExtractionResponse := (readers.extraction text).toOption

/-- No parser panics, and each returns the document with which it is presented. -/
structure ParsingSound {Chapter : Type} (readers : JsonReaders) (tables : TokenTables)
    (fromStr : List Char → Option (NarrativeGenerationOutput Chapter))
    (content raw : List Char) : Prop where
  openai : parseExtraction readers tables content raw ≠ none
  anthropic : parseExtractionAnthropic readers raw ≠ none
  narrative : parseNarrativeOutput fromStr raw ≠ none
  extractions : ∀ document value, Presents raw document →
    readers.readExtraction document = some value →
      parseExtraction readers tables content raw = some (.ok value) ∧
        parseExtractionAnthropic readers raw = some (.ok value)
  narratives : ∀ document value, Presents raw document → fromStr document = some value →
    parseNarrativeOutput fromStr raw = some (.ok value)

/-- A code fence with a first line is closed behind it. -/
def FenceClosed (raw : List Char) : Prop :=
  let cleaned := Lines.trim isWhitespace raw
  fence <+: cleaned → '\n' ∈ cleaned → fence <:+: cleaned.dropWhile (· ≠ '\n')

/-- The first 200 bytes of the text end where a character ends. -/
def ExcerptFits (raw : List Char) : Prop := IsBoundary raw (min (bytes raw) 200)

/-- The first opening brace is not behind the last closing one and something else. -/
def BracesInOrder (raw : List Char) : Prop :=
  ∀ start stop, findByte (· == '\x7b') raw = some start → rfind ['\x7d'] raw = some stop →
    start ≤ stop + 1

/-- The texts on which the parsers keep their promise. -/
structure Parsable {Chapter : Type} (readers : JsonReaders)
    (fromStr : List Char → Option (NarrativeGenerationOutput Chapter)) (raw : List Char) :
    Prop where
  fence : FenceClosed raw
  excerpt : ∀ cleaned, stripCodeFences raw = some cleaned →
    readers.readExtraction cleaned = none → ExcerptFits raw
  braces : fromStr raw = none →
    (fencedBlock (Lines.trim isWhitespace raw)).bind fromStr = none → BracesInOrder raw

/-! ## When a slice panics -/

section Panics

variable {raw cleaned : List Char}

/-- Taking a text out of its fence panics exactly when the fence is not closed. -/
theorem stripCodeFences_eq_none_iff (raw : List Char) :
    stripCodeFences raw = none ↔ ¬ FenceClosed raw := by
  rw [stripCodeFences, FenceClosed]
  generalize Lines.trim isWhitespace raw = cleaned
  dsimp only
  by_cases begins : fence <+: cleaned
  · rw [if_pos (List.isPrefixOf_iff_prefix.mpr begins)]
    obtain ⟨stop, last⟩ : ∃ stop, rfind fence cleaned = some stop := by
      obtain ⟨rest, rfl⟩ := begins
      obtain ⟨stop, last, -⟩ := le_rfind [] fence rest
      exact ⟨stop, last⟩
    have stops := isBoundary_rfind last
    by_cases breaks : '\n' ∈ cleaned
    · obtain ⟨first, rest, rfl, early⟩ : ∃ first rest, cleaned = first ++ '\n' :: rest ∧
          ∀ character ∈ first, (character == '\n') = false := by
        obtain ⟨first, rest, whole, early⟩ := List.eq_append_cons_of_mem breaks
        exact ⟨first, rest, whole, fun character member => by
          rw [beq_eq_false_iff_ne]
          rintro rfl
          exact early member⟩
      have found : findByte (· == '\n') (first ++ '\n' :: rest) = some (bytes first) :=
        findByte_append early (by decide) rest
      have starts : IsBoundary (first ++ '\n' :: rest) (bytes first + 1) :=
        ⟨first ++ ['\n'], rest, by simp, by rw [bytes_append]; rfl⟩
      have behind : (first ++ '\n' :: rest).dropWhile (fun x => decide (x ≠ '\n')) =
          '\n' :: rest := by
        rw [List.dropWhile_append_of_pos]
        · simp
        · intro character member
          simpa using early character member
      have later : bytes first + 1 ≤ stop ↔ fence <:+: rest := by
        have split : first ++ '\n' :: rest = (first ++ ['\n']) ++ rest := by simp
        rw [split] at last
        rw [← le_rfind_iff last, bytes_append]
        rfl
      rw [found, last, Option.map_some, Option.getD_some, Option.getD_some,
        sliceBytes_eq_none_iff starts stops, behind, List.infix_cons_iff]
      have notBreak : ¬ fence <+: '\n' :: rest := by
        rintro ⟨back, same⟩
        exact absurd (List.cons.inj same).1 (by decide)
      rw [← later]
      simp [begins, notBreak]
    · have absent : findByte (· == '\n') cleaned = none :=
        findByte_eq_none_iff.mpr fun character member => by
          rw [beq_eq_false_iff_ne]
          rintro rfl
          exact breaks member
      have starts : IsBoundary cleaned 0 := ⟨[], cleaned, rfl, rfl⟩
      rw [absent, last, Option.map_none, Option.getD_none, Option.getD_some,
        sliceBytes_eq_none_iff starts stops]
      simp [breaks]
  · have other : ¬ fence.isPrefixOf cleaned = true := fun same =>
      begins (List.isPrefixOf_iff_prefix.mp same)
    rw [if_neg other]
    simp [begins]

theorem extractionError_eq_none_iff (raw : List Char) (error : String) :
    extractionError raw error = none ↔ ¬ ExcerptFits raw := by
  rw [extractionError, Option.map_eq_none_iff, ExcerptFits, ← takeBytes_isSome_iff]
  simp

theorem parseExtractionAnthropic_eq_none_iff (readers : JsonReaders) (raw : List Char) :
    parseExtractionAnthropic readers raw = none ↔ ¬ (FenceClosed raw ∧
      ∀ cleaned, stripCodeFences raw = some cleaned → readers.readExtraction cleaned = none →
        ExcerptFits raw) := by
  rw [parseExtractionAnthropic]
  cases stripped : stripCodeFences raw with
  | none =>
    have unclosed := (stripCodeFences_eq_none_iff raw).mp stripped
    simp [unclosed]
  | some cleaned =>
    have closed : FenceClosed raw := by
      by_contra unclosed
      rw [(stripCodeFences_eq_none_iff raw).mpr unclosed] at stripped
      exact nomatch stripped
    rw [Option.bind_some]
    cases found : readers.extraction cleaned with
    | ok parsed => simp [closed, JsonReaders.readExtraction, found, Except.toOption]
    | error error =>
      simp [closed, JsonReaders.readExtraction, found, Except.toOption,
        extractionError_eq_none_iff]

theorem parseExtraction_ne_none {readers : JsonReaders} {tables : TokenTables}
    {content : List Char} (parsed : parseExtractionAnthropic readers raw ≠ none) :
    parseExtraction readers tables content raw ≠ none := by
  rw [parseExtractionAnthropic] at parsed
  rw [parseExtraction]
  cases stripped : stripCodeFences raw with
  | none =>
    rw [stripped] at parsed
    exact absurd rfl parsed
  | some cleaned =>
    rw [stripped, Option.bind_some] at parsed
    rw [Option.bind_some]
    cases found : readers.extraction cleaned with
    | ok value => exact Option.some_ne_none _
    | error error =>
      rw [found] at parsed
      dsimp only at parsed ⊢
      split
      · exact Option.some_ne_none _
      · exact parsed

theorem braced_eq_none_iff (raw : List Char) : braced raw = none ↔ ¬ BracesInOrder raw := by
  rw [braced, BracesInOrder]
  cases opened : findByte (· == '\x7b') raw with
  | none => simp
  | some start =>
    cases closed : rfind ['\x7d'] raw with
    | none => simp
    | some stop =>
      have starts := isBoundary_findByte opened
      have stops : IsBoundary raw (stop + 1) := by
        obtain ⟨front, back, rfl, rfl⟩ := rfind_eq_some closed
        exact ⟨front ++ ['\x7d'], back, rfl, by rw [bytes_append]; rfl⟩
      dsimp only
      rw [Option.map_eq_none_iff, sliceBytes_eq_none_iff starts stops]
      simp

theorem parseNarrativeOutput_eq_none_iff {Chapter : Type}
    (fromStr : List Char → Option (NarrativeGenerationOutput Chapter)) (raw : List Char) :
    parseNarrativeOutput fromStr raw = none ↔ fromStr raw = none ∧
      (fencedBlock (Lines.trim isWhitespace raw)).bind fromStr = none ∧ ¬ BracesInOrder raw := by
  rw [parseNarrativeOutput]
  cases whole : fromStr raw with
  | some output => simp
  | none =>
    cases block : (fencedBlock (Lines.trim isWhitespace raw)).bind fromStr with
    | some output => simp
    | none => simp [braced_eq_none_iff]

end Panics

/-! ## Documents that are presented -/

theorem isWhitespace_of_jsonBlank (character : Char) (blank : jsonBlank character = true) :
    isWhitespace character = true := by
  simp only [jsonBlank, Bool.or_eq_true, beq_iff_eq] at blank
  rcases blank with ((rfl | rfl) | rfl) | rfl
  · decide
  · decide
  · decide
  · decide

section Presented

variable {α : Type} {read : List Char → Option α} {document : List Char} {value : α}

theorem ReadsDocuments.trimmed (reads : ReadsDocuments read)
    (found : read document = some value) :
    read (Lines.trim isWhitespace document) = some value ∧
      ((Lines.trim isWhitespace document).head? = some '\x7b' ∨
        (Lines.trim isWhitespace document).head? = some '[') := by
  obtain ⟨front, core, back, rfl, fronts, backs, first, last⟩ := reads.delimited _ _ found
  obtain ⟨opening, head, notOpening⟩ : ∃ opening, core.head? = some opening ∧
      isWhitespace opening = false := by
    rcases first with same | same
    · exact ⟨_, same, by decide⟩
    · exact ⟨_, same, by decide⟩
  obtain ⟨ending, ends, notEnding⟩ : ∃ ending, core.getLast? = some ending ∧
      isWhitespace ending = false := by
    rcases last with same | same
    · exact ⟨_, same, by decide⟩
    · exact ⟨_, same, by decide⟩
  have alone : Lines.trim isWhitespace (front ++ core ++ back) = core := by
    rw [Lines.trim_append_right fun character member =>
        isWhitespace_of_jsonBlank character (backs character member),
      Lines.trim_append_left fun character member =>
        isWhitespace_of_jsonBlank character (fronts character member),
      Lines.trim_of_ends head notOpening ends notEnding]
  rw [alone]
  exact ⟨(reads.blanks front core back value fronts backs).mp found, first⟩

theorem ReadsDocuments.fenced (reads : ReadsDocuments read) (rest : List Char) :
    read (fence ++ rest) = none := by
  cases found : read (fence ++ rest) with
  | none => rfl
  | some value =>
    obtain ⟨front, core, back, whole, fronts, -, first, -⟩ := reads.delimited _ _ found
    cases front with
    | nil =>
      cases core with
      | nil =>
        rcases first with same | same
        · exact nomatch same
        · exact nomatch same
      | cons character core =>
        obtain ⟨rfl, -⟩ := List.cons.inj whole
        rcases first with same | same
        · exact absurd (Option.some.inj same) (by decide)
        · exact absurd (Option.some.inj same) (by decide)
    | cons character front =>
      obtain ⟨rfl, -⟩ := List.cons.inj whole
      exact absurd (fronts _ List.mem_cons_self) (by decide)

theorem trim_fenced (middle : List Char) :
    Lines.trim isWhitespace (fence ++ middle ++ fence) = fence ++ middle ++ fence := by
  have ends : (fence ++ middle ++ fence).getLast? = some '\x60' := by
    rw [List.getLast?_append]
    rfl
  exact Lines.trim_of_ends rfl (by decide) ends (by decide)

theorem stripCodeFences_fenced {language : List Char} (single : '\n' ∉ language)
    (document : List Char) :
    stripCodeFences (fence ++ language ++ '\n' :: document ++ '\n' :: fence) =
      some (document ++ ['\n']) := by
  have shape : fence ++ language ++ '\n' :: document ++ '\n' :: fence =
      fence ++ (language ++ '\n' :: document ++ ['\n']) ++ fence := by simp
  have cut : fence ++ language ++ '\n' :: document ++ '\n' :: fence =
      (fence ++ language ++ ['\n']) ++ (document ++ ['\n']) ++ fence := by simp
  have begins : fence.isPrefixOf (fence ++ language ++ '\n' :: document ++ '\n' :: fence) = true :=
    List.isPrefixOf_iff_prefix.mpr ⟨language ++ '\n' :: document ++ '\n' :: fence, by simp⟩
  have start : findByte (· == '\n') (fence ++ language ++ '\n' :: document ++ '\n' :: fence) =
      some (bytes (fence ++ language)) := by
    have early : ∀ character ∈ fence ++ language, (character == '\n') = false := by
      intro character member
      rw [beq_eq_false_iff_ne]
      rintro rfl
      rcases List.mem_append.mp member with mark | word
      · exact absurd mark (by decide)
      · exact single word
    have found := findByte_append early (beq_self_eq_true '\n') (document ++ '\n' :: fence)
    rwa [← List.cons_append, ← List.append_assoc] at found
  have stop : rfind fence (fence ++ language ++ '\n' :: document ++ '\n' :: fence) =
      some (bytes (fence ++ language ++ ['\n']) + bytes (document ++ ['\n'])) := by
    rw [cut, rfind_append, bytes_append]
  have size : bytes (fence ++ language) + 1 = bytes (fence ++ language ++ ['\n']) := by
    rw [bytes_append _ ['\n']]
    rfl
  rw [stripCodeFences, shape, trim_fenced, ← shape]
  dsimp only
  rw [if_pos begins, start, stop, Option.map_some, Option.getD_some, Option.getD_some, size, cut]
  exact sliceBytes_append _ _ fence

theorem ReadsDocuments.stripped {raw : List Char} (reads : ReadsDocuments read)
    (presents : Presents raw document) (found : read document = some value) :
    ∃ cleaned, stripCodeFences raw = some cleaned ∧ read cleaned = some value := by
  rcases presents with rfl | ⟨language, languages, rfl⟩
  · obtain ⟨again, first⟩ := reads.trimmed found
    refine ⟨Lines.trim isWhitespace raw, ?_, again⟩
    rw [stripCodeFences]
    dsimp only
    rw [if_neg]
    intro begins
    obtain ⟨rest, whole⟩ := List.isPrefixOf_iff_prefix.mp begins
    rw [← whole] at first
    rcases first with same | same
    · exact absurd (Option.some.inj same) (by decide)
    · exact absurd (Option.some.inj same) (by decide)
  · have single : '\n' ∉ language := by
      rcases languages with rfl | rfl
      · exact List.not_mem_nil
      · decide
    refine ⟨_, stripCodeFences_fenced single document, ?_⟩
    have padded := reads.blanks [] document ['\n'] value (List.forall_mem_nil _)
      (fun character member => by rw [List.mem_singleton.mp member]; decide)
    exact padded.mpr found

theorem stripStart_append (start rest : List Char) :
    stripStart start (start ++ rest) = some rest := by
  rw [stripStart, if_pos (List.isPrefixOf_iff_prefix.mpr (List.prefix_append _ _)),
    List.drop_left]

theorem stripEnd_append (rest stop : List Char) : stripEnd stop (rest ++ stop) = some rest := by
  rw [stripEnd, if_pos (List.isSuffixOf_iff_suffix.mpr (List.suffix_append _ _)),
    List.length_append, Nat.add_sub_cancel, List.take_left]

theorem fencedBlock_fenced {language : List Char}
    (languages : language = [] ∨ language = "json".toList) (document : List Char) :
    fencedBlock (fence ++ language ++ '\n' :: document ++ '\n' :: fence) =
      some (Lines.trim isWhitespace document) := by
  have shape (front : List Char) : front ++ '\n' :: document ++ '\n' :: fence =
      front ++ (('\n' :: document ++ ['\n']) ++ fence) := by simp
  have trims : Lines.trim isWhitespace ('\n' :: document ++ ['\n']) =
      Lines.trim isWhitespace document := by
    rw [List.cons_append, Lines.trim_cons (by decide), Lines.trim_concat (by decide)]
  rw [shape, fencedBlock]
  rcases languages with rfl | rfl
  · rw [List.append_nil, if_neg, if_pos, stripStart_append, Option.bind_some, stripEnd_append,
      Option.map_some, trims]
    · exact List.isPrefixOf_iff_prefix.mpr (List.prefix_append _ _)
    · simp [fence]
  · rw [if_pos, stripStart_append, Option.bind_some, stripEnd_append, Option.map_some, trims]
    exact List.isPrefixOf_iff_prefix.mpr (List.prefix_append _ _)

end Presented

/-! ## The parsers as a whole -/

section Whole

variable {Chapter : Type} {readers : JsonReaders} {tables : TokenTables}
  {fromStr : List Char → Option (NarrativeGenerationOutput Chapter)} {content raw : List Char}

theorem ok_of_readExtraction {text : List Char} {value : ExtractionResponse}
    (found : readers.readExtraction text = some value) : readers.extraction text = .ok value := by
  rw [JsonReaders.readExtraction] at found
  cases read : readers.extraction text with
  | ok other =>
    rw [read] at found
    rw [Option.some.inj found]
  | error error =>
    rw [read] at found
    exact nomatch found

theorem extraction_of_presents (reads : ReadsDocuments readers.readExtraction)
    {document : List Char} {value : ExtractionResponse} (presents : Presents raw document)
    (found : readers.readExtraction document = some value) :
    parseExtraction readers tables content raw = some (.ok value) ∧
      parseExtractionAnthropic readers raw = some (.ok value) := by
  obtain ⟨cleaned, stripped, again⟩ := reads.stripped presents found
  have read := ok_of_readExtraction again
  constructor
  · rw [parseExtraction, stripped, Option.bind_some, read]
  · rw [parseExtractionAnthropic, stripped, Option.bind_some, read]

theorem narrative_of_presents (reads : ReadsDocuments fromStr) {document : List Char}
    {value : NarrativeGenerationOutput Chapter} (presents : Presents raw document)
    (found : fromStr document = some value) :
    parseNarrativeOutput fromStr raw = some (.ok value) := by
  rw [parseNarrativeOutput]
  rcases presents with rfl | ⟨language, languages, rfl⟩
  · rw [found]
  · have trims := trim_fenced (language ++ '\n' :: document ++ ['\n'])
    have shape : fence ++ (language ++ '\n' :: document ++ ['\n']) ++ fence =
        fence ++ language ++ '\n' :: document ++ '\n' :: fence := by simp
    have whole := reads.fenced (language ++ '\n' :: document ++ ['\n'] ++ fence)
    rw [← List.append_assoc, shape] at whole
    rw [shape] at trims
    rw [trims, whole, fencedBlock_fenced languages, Option.bind_some, (reads.trimmed found).1]

/-- The parsers keep their promise on a text exactly when a fence in it is closed, its first bytes
can be quoted where it is no document, and its braces are in order where it is no narrative. -/
theorem parsingSound_iff (readers : JsonReaders) (tables : TokenTables)
    (fromStr : List Char → Option (NarrativeGenerationOutput Chapter))
    (extractions : ReadsDocuments readers.readExtraction) (narratives : ReadsDocuments fromStr)
    (content raw : List Char) :
    ParsingSound readers tables fromStr content raw ↔ Parsable readers fromStr raw := by
  constructor
  · intro sound
    obtain ⟨closed, excerpt⟩ : FenceClosed raw ∧ _ := by
      by_contra panics
      exact sound.anthropic ((parseExtractionAnthropic_eq_none_iff readers raw).mpr panics)
    refine ⟨closed, excerpt, fun whole block => ?_⟩
    by_contra disorder
    exact sound.narrative
      ((parseNarrativeOutput_eq_none_iff fromStr raw).mpr ⟨whole, block, disorder⟩)
  · intro parsable
    have anthropic : parseExtractionAnthropic readers raw ≠ none := fun panics =>
      (parseExtractionAnthropic_eq_none_iff readers raw).mp panics
        ⟨parsable.fence, parsable.excerpt⟩
    have narrative : parseNarrativeOutput fromStr raw ≠ none := fun panics => by
      obtain ⟨whole, block, disorder⟩ :=
        (parseNarrativeOutput_eq_none_iff fromStr raw).mp panics
      exact disorder (parsable.braces whole block)
    exact ⟨parseExtraction_ne_none anthropic, anthropic, narrative,
      fun _ _ presents found => extraction_of_presents extractions presents found,
      fun _ _ presents found => narrative_of_presents narratives presents found⟩

end Whole

/-! ## Readers of a single document -/

/-- A reader which knows a single document. -/
def readOnly {α : Type} (core : List Char) (value : α) (text : List Char) : Option α :=
  if Lines.trim jsonBlank text = core then some value else none

theorem readsDocuments_readOnly {α : Type} {core : List Char} (value : α)
    (head : core.head? = some '\x7b') (ends : core.getLast? = some '\x7d') :
    ReadsDocuments (readOnly core value) := by
  constructor
  · intro front text back other fronts backs
    rw [readOnly, readOnly, Lines.trim_append_right backs, Lines.trim_append_left fronts]
  · intro text other found
    rw [readOnly] at found
    split at found
    · rename_i same
      obtain ⟨front, back, whole, fronts, backs⟩ := Lines.trim_parts jsonBlank text
      rw [same] at whole
      exact ⟨front, core, back, whole, fronts, backs, .inl head, .inl ends⟩
    · exact nomatch found

/-- Readers which know the empty extraction. -/
def emptyReaders : JsonReaders :=
  { extraction := fun text =>
      match readOnly "\x7b\x7d".toList { entities := [], relationships := [] } text with
      | some value => .ok value
      | none => .error "expected value"
    value := fun _ => none
    entityOfValue := fun _ => none
    relationshipOfValue := fun _ => none
    entityOfText := fun _ => none
    relationshipOfText := fun _ => none }

theorem readsDocuments_emptyReaders : ReadsDocuments emptyReaders.readExtraction := by
  have same : emptyReaders.readExtraction =
      readOnly "\x7b\x7d".toList { entities := [], relationships := [] } := by
    funext text
    rw [JsonReaders.readExtraction, emptyReaders]
    dsimp only
    cases readOnly "\x7b\x7d".toList ({ entities := [], relationships := [] } :
      ExtractionResponse) text with
    | none => rfl
    | some value => rfl
  rw [same]
  exact readsDocuments_readOnly _ (by decide) (by decide)

/-- A reader which knows one narrative. -/
def shortNarrative : List Char → Option (NarrativeGenerationOutput Unit) :=
  readOnly "\x7b\"narrative_text\":\"A\"\x7d".toList { narrativeText := ['A'], chapters := [] }

/-- The tables on texts of ASCII characters. -/
def asciiTokens : TokenTables :=
  { toLowercase := List.map Char.toLower
    isAlphanumeric := Char.isAlphanum }

/-- The empty extraction in a fence is parsed. -/
theorem parsingSound_fenced : ParsingSound emptyReaders asciiTokens shortNarrative []
    (fence ++ "\n\x7b\x7d\n".toList ++ fence) := by
  refine (parsingSound_iff emptyReaders asciiTokens shortNarrative readsDocuments_emptyReaders
    (readsDocuments_readOnly _ (by decide) (by decide)) [] _).mpr
      ⟨fun _ _ => by decide, fun _ _ _ => ?_, fun _ _ start stop first last => ?_⟩
  · exact isBoundary_bytes _
  · have opened : findByte (· == '\x7b') (fence ++ "\n\x7b\x7d\n".toList ++ fence) = some 4 := by
      decide +kernel
    have closed : rfind ['\x7d'] (fence ++ "\n\x7b\x7d\n".toList ++ fence) = some 5 := by
      decide +kernel
    rw [opened] at first
    rw [closed] at last
    rw [← Option.some.inj first, ← Option.some.inj last]
    decide

/-- A fence that is not closed makes the parsers panic. -/
theorem parsingSound_unclosed : ¬ ParsingSound emptyReaders asciiTokens shortNarrative []
    (fence ++ "json\n\x7b\x7d".toList) := by
  intro sound
  have unclosed : ¬ FenceClosed (fence ++ "json\n\x7b\x7d".toList) := fun closed =>
    absurd (closed (by decide) (by decide)) (by decide)
  apply sound.anthropic
  rw [parseExtractionAnthropic, (stripCodeFences_eq_none_iff _).mpr unclosed]
  rfl

end Extraction
end Mnemo
