import Mathlib.Data.Set.Basic
import Mnemo.Core.Text
import Mnemo.Core.Uuid
import Mnemo.Lib.Escaping
import Mnemo.Lib.Lines

/-!
# Queries for full-text search

The keywords of a user's query, escaped and joined, are put behind a filter on the user.  The query
text is read by the part of the search engine's grammar which it uses: a filter on a tag, and terms
between unescaped bars.  The engine's dialects differ in whether a bar binds tighter than the blank
that joins the filter with the terms.
-/

namespace Mnemo
namespace Retrieval

open Escaping Text

/-! ## Building a query -/

/-- Common English stop words that the engine would match on every document. -/
def stopWords : List String := [
  "a", "an", "the", "and", "or", "but", "in", "on", "at", "to", "for", "of", "with", "by",
  "from", "is", "are", "was", "were", "be", "been", "being", "have", "has", "had", "do", "does",
  "did", "will", "would", "could", "should", "may", "might", "shall", "can", "need", "dare",
  "ought", "used", "it", "its", "this", "that", "these", "those", "i", "me", "my", "we", "our",
  "you", "your", "he", "him", "his", "she", "her", "they", "them", "their", "what", "which",
  "who", "whom", "where", "when", "why", "how", "all", "each", "every", "both", "few", "more",
  "most", "other", "some", "such", "no", "not", "only", "same", "so", "than", "too", "very",
  "just", "any", "about", "up", "out", "if", "because", "as", "while", "although", "since",
  "though", "into", "through", "during", "before", "after", "above", "below", "between", "then",
  "once", "here", "there", "s", "t", "don", "didn", "doesn", "isn", "wasn", "aren", "weren",
  "won", "hasn", "hadn", "does", "did", "do"]

/-- The Unicode tables which tell letters and their lower case. -/
structure WordTables where
  toLowercase : List Char → List Char
  isAlphabetic : Char → Bool

/-- The tables on texts of ASCII characters. -/
def asciiWords : WordTables :=
  { toLowercase := List.map Char.toLower
    isAlphabetic := Char.isAlpha }

/-- Strip the stop words from a query; one which has nothing else is left as it is. -/
def extractKeywords (tables : WordTables) (query : List Char) : List Char :=
  let words := (Lines.words isWhitespace query).filter fun word =>
    let clean := (tables.toLowercase word).filter tables.isAlphabetic
    !clean.isEmpty && !stopWords.contains (String.ofList clean)
  if words.isEmpty then Lines.trim isWhitespace query else List.intercalate [' '] words

/-- The keywords of a query. -/
def keywords (tables : WordTables) (query : List Char) : List (List Char) :=
  (Lines.words isWhitespace (extractKeywords tables query)).filter fun word => !word.isEmpty

/-- The special characters which are escaped in individual tokens. -/
def special (character : Char) : Bool :=
  ['@', '!', '\x7b', '\x7d', '(', ')', '-', '=', '>', '[', ']', ':', ';', '~'].contains character

/-- Escape the keywords and join them, so that any single keyword hit returns the document. -/
def escapeRedisearchQuery (tables : WordTables) (query : List Char) : List Char :=
  List.intercalate ['|'] ((keywords tables query).map (escape '\\' special))

/-- The user's identifier with its hyphens escaped. -/
def escapedUserId (userId : Uuid) : List Char :=
  escape '\\' (fun character => character == '-') userId.toText.toList

/-- What stands before the user's identifier. -/
def filterStart : List Char := "@user_id:\x7b".toList

/-- The user filter and the text search. -/
def searchQuery (tables : WordTables) (userId : Uuid) (query : List Char) : List Char :=
  filterStart ++ (escapedUserId userId ++ '\x7d' :: ' ' :: escapeRedisearchQuery tables query)

/-! ## The engine's grammar -/

/-- The characters that are operators in a query. -/
def operator (character : Char) : Bool :=
  ['@', '!', '\x7b', '\x7d', '(', ')', '-', '=', '>', '<', '[', ']', ':', ';', '~', '|', '*', '%',
    '"', '\x27', '\\', '$', ',', '.'].contains character

/-- A query as the engine understands it. -/
inductive Query where
  | user (tag : List Char)
  | term (word : List Char)
  | both (first second : Query)
  | either (first second : Query)
  deriving DecidableEq

/-- The documents that a query matches, given their owners and their words. -/
def Query.denote {Document : Type} (owner : Document → List Char)
    (has : List Char → Document → Prop) : Query → Set Document
  | .user tag => {document | owner document = tag}
  | .term word => {document | has word document}
  | .both first second => first.denote owner has ∩ second.denote owner has
  | .either first second => first.denote owner has ∪ second.denote owner has

/-- How a bar binds, compared with a blank. -/
inductive Precedence where
  | tighter
  | looser
  deriving DecidableEq

/-- Some queries, one after the other, in a union. -/
def union (first : Query) (rest : List (List Char)) : Query :=
  rest.foldl (fun query word => .either query (.term word)) first

/-- The filter, a blank and the terms between the bars. -/
def combine (precedence : Precedence) (tag : List Char) : List (List Char) → Query
  | [] => .user tag
  | word :: rest =>
      match precedence with
      | .tighter => .both (.user tag) (union (.term word) rest)
      | .looser => union (.both (.user tag) (.term word)) rest

/-- What follows a given beginning. -/
def expect (given text : List Char) : Option (List Char) :=
  if text.take given.length = given then some (text.drop given.length) else none

/-- The tag of the filter and the clauses between the unescaped bars, as they stand in the text. -/
def readQuery (text : List Char) : Option (List Char × List (List Char)) := do
  let afterStart ← expect filterStart text
  let (tag, afterTag) ← cut '\\' '\x7d' afterStart
  let rest ← expect [' '] afterTag
  pure (tag, if rest.isEmpty then [] else split '\\' '|' rest)

/-- The query which a text means. -/
def parseQuery (precedence : Precedence) (text : List Char) : Option Query :=
  (readQuery text).map fun (tag, clauses) =>
    combine precedence (unescape '\\' tag) (clauses.map (unescape '\\'))

/-- What is promised of a query text. -/
structure QueryFaithful (tables : WordTables) (userId : Uuid) (query : List Char) : Prop where
  /-- Every operator in a keyword is escaped. -/
  escaped : ∀ keyword ∈ keywords tables query,
    Written '\\' operator keyword (escape '\\' special keyword)
  /-- The clauses between the bars are the keywords. -/
  clauses : ∃ tag clauses, readQuery (searchQuery tables userId query) = some (tag, clauses) ∧
    clauses.map (unescape '\\') = keywords tables query
  /-- The query means the documents of the user with one of the keywords, in every dialect. -/
  meaning : ∀ precedence, ∃ parsed,
    parseQuery precedence (searchQuery tables userId query) = some parsed ∧
      ∀ (Document : Type) (owner : Document → List Char) (has : List Char → Document → Prop),
        parsed.denote owner has = {document | owner document = userId.toText.toList ∧
          ∃ keyword ∈ keywords tables query, has keyword document}

/-! ## Reading a query back -/

theorem special_operator (character : Char) (isSpecial : special character = true) :
    operator character = true := by
  rw [operator, List.contains_iff_mem]
  rw [special, List.contains_iff_mem] at isSpecial
  simp only [List.mem_cons, List.not_mem_nil, or_false] at isSpecial ⊢
  tauto

theorem expect_append (given text : List Char) : expect given (given ++ text) = some text := by
  simp [expect]

theorem notMem_toDigits {character : Char}
    (other : ∀ value < 16, Nat.digitChar value ≠ character) (number : Nat) :
    character ∉ Nat.toDigits 16 number := by
  induction number using Nat.strongRecOn with
  | ind number ih =>
    rw [Nat.toDigits_eq_if (by decide)]
    split
    · rename_i small
      rw [List.mem_singleton]
      exact (other number small).symm
    · rename_i large
      rw [List.mem_append, List.mem_singleton, not_or]
      exact ⟨ih (number / 16) (by omega), (other _ (Nat.mod_lt number (by decide))).symm⟩

theorem notMem_toText {character : Char} (notHyphen : character ≠ '-')
    (other : ∀ value < 16, Nat.digitChar value ≠ character) (userId : Uuid) :
    character ∉ userId.toText.toList := by
  have zero : character ≠ '0' := (other 0 (by decide)).symm
  have part (start count : Nat) : character ∉ (((List.replicate (32 - (Nat.toDigits 16
      userId).length) '0' ++ Nat.toDigits 16 userId).drop start).take count) := by
    intro member
    rcases List.mem_append.mp (List.mem_of_mem_drop (List.mem_of_mem_take member)) with pad | digit
    · exact zero (List.eq_of_mem_replicate pad)
    · exact notMem_toDigits other userId digit
  rw [Uuid.toText]
  simp only [String.intercalate_cons_cons, String.intercalate_singleton, String.toList_append,
    String.toList_ofList, List.mem_append, part, false_or, or_false]
  simpa using notHyphen

theorem cut_userId (userId : Uuid) (rest : List Char) :
    cut '\\' '\x7d' (escapedUserId userId ++ '\x7d' :: rest) =
      some (escapedUserId userId, rest) := by
  apply cut_escape _ (by decide)
  rintro character member (rfl | rfl)
  · exact absurd member (notMem_toText (by decide) (by decide) userId)
  · exact absurd member (notMem_toText (by decide) (by decide) userId)

theorem unescape_userId (userId : Uuid) :
    unescape '\\' (escapedUserId userId) = userId.toText.toList := by
  apply unescape_escape
  rintro character member rfl
  exact absurd member (notMem_toText (by decide) (by decide) userId)

section Reading

variable {tables : WordTables} {userId : Uuid} {query : List Char}

theorem readQuery_searchQuery (known : ∀ keyword ∈ keywords tables query,
    ∀ character ∈ keyword, operator character = true → special character = true) :
    readQuery (searchQuery tables userId query) =
      some (escapedUserId userId, (keywords tables query).map (escape '\\' special)) := by
  have tail : (if (escapeRedisearchQuery tables query).isEmpty then []
      else split '\\' '|' (escapeRedisearchQuery tables query)) =
        (keywords tables query).map (escape '\\' special) := by
    rw [escapeRedisearchQuery]
    cases all : keywords tables query with
    | nil => rfl
    | cons keyword rest =>
      have member : keyword ∈ keywords tables query := all ▸ List.mem_cons_self
      have notEmpty : keyword ≠ [] := by
        simpa using (List.mem_filter.mp member).2
      rw [← all, if_neg]
      · apply split_join (by decide) _ (by simp [all])
        rintro keyword among character inside (rfl | rfl)
        · exact known keyword among _ inside (by decide)
        · exact known keyword among _ inside (by decide)
      · intro empty
        rw [all] at empty
        cases rest with
        | nil =>
          have none : escape '\\' special keyword = [] := by
            simpa [List.intercalate] using empty
          exact notEmpty (escape_eq_nil_iff.mp none)
        | cons next rest => simp [List.intercalate] at empty
  rw [readQuery, searchQuery, expect_append]
  simp only [Option.bind_eq_bind, Option.bind_some, cut_userId]
  rw [← tail]
  rfl

theorem unescape_keywords (known : ∀ keyword ∈ keywords tables query,
    ∀ character ∈ keyword, operator character = true → special character = true) :
    ((keywords tables query).map (escape '\\' special)).map (unescape '\\') =
      keywords tables query := by
  have back : ∀ keyword ∈ keywords tables query,
      (unescape '\\' ∘ escape '\\' special) keyword = keyword := by
    intro keyword member
    apply unescape_escape
    rintro character inside rfl
    exact known keyword member _ inside (by decide)
  rw [List.map_map, List.map_congr_left back, List.map_id']

end Reading

/-! ## What a query means -/

section Meaning

variable {Document : Type} {owner : Document → List Char} {has : List Char → Document → Prop}

theorem denote_union (first : Query) (rest : List (List Char)) (document : Document) :
    document ∈ (union first rest).denote owner has ↔
      document ∈ first.denote owner has ∨ ∃ word ∈ rest, has word document := by
  induction rest generalizing first with
  | nil => simp [union]
  | cons word rest ih =>
    have step : union first (word :: rest) = union (.either first (.term word)) rest := rfl
    rw [step, ih]
    simp [Query.denote, or_assoc]

theorem denote_tighter (tag word : List Char) (rest : List (List Char)) (document : Document) :
    document ∈ (combine .tighter tag (word :: rest)).denote owner has ↔
      owner document = tag ∧ ∃ keyword ∈ word :: rest, has keyword document := by
  simp [combine, Query.denote, denote_union]

theorem denote_looser (tag word : List Char) (rest : List (List Char)) (document : Document) :
    document ∈ (combine .looser tag (word :: rest)).denote owner has ↔
      (owner document = tag ∧ has word document) ∨ ∃ keyword ∈ rest, has keyword document := by
  simp [combine, Query.denote, denote_union]

end Meaning

theorem single_of_denote {tag : List Char} {words : List (List Char)}
    (meaning : ∀ precedence (Document : Type) (owner : Document → List Char)
      (has : List Char → Document → Prop), (combine precedence tag words).denote owner has =
        {document | owner document = tag ∧ ∃ keyword ∈ words, has keyword document}) :
    ∃ word, words = [word] := by
  match words, meaning with
  | [], meaning =>
    have same := meaning .tighter Unit (fun _ => tag) (fun _ _ => True)
    have inside : () ∈ (combine .tighter tag []).denote (fun _ => tag) (fun _ _ => True) := rfl
    rw [same] at inside
    obtain ⟨-, keyword, member, -⟩ := inside
    exact absurd member List.not_mem_nil
  | [word], _ => exact ⟨word, rfl⟩
  | word :: next :: rest, meaning =>
    have same := meaning .looser Unit (fun _ => ' ' :: tag) (fun _ _ => True)
    have inside : () ∈ (combine .looser tag (word :: next :: rest)).denote
        (fun _ => ' ' :: tag) (fun _ _ => True) :=
      (denote_looser tag word (next :: rest) ()).mpr
        (.inr ⟨next, List.mem_cons_self, trivial⟩)
    rw [same] at inside
    exact absurd (congrArg List.length inside.1) (by simp)

theorem parseQuery_searchQuery {tables : WordTables} {userId : Uuid} {query : List Char}
    (known : ∀ keyword ∈ keywords tables query,
      ∀ character ∈ keyword, operator character = true → special character = true)
    (precedence : Precedence) : parseQuery precedence (searchQuery tables userId query) =
      some (combine precedence userId.toText.toList (keywords tables query)) := by
  rw [parseQuery, readQuery_searchQuery known, Option.map_some]
  simp only [unescape_userId, unescape_keywords known]

theorem QueryFaithful.single {tables : WordTables} {userId : Uuid} {query : List Char}
    (faithful : QueryFaithful tables userId query) :
    ∃ keyword, keywords tables query = [keyword] := by
  have known (keyword : List Char) (member : keyword ∈ keywords tables query) :=
    (written_escape_iff special_operator).mp (faithful.escaped keyword member)
  apply @single_of_denote userId.toText.toList
  intro precedence
  obtain ⟨parsed, found, denotes⟩ := faithful.meaning precedence
  rw [parseQuery_searchQuery known] at found
  rw [Option.some.inj found]
  exact denotes

/-- A query text keeps its promise exactly when it has a single keyword and every operator in that
is one of the special characters. -/
theorem queryFaithful_iff (tables : WordTables) (userId : Uuid) (query : List Char) :
    QueryFaithful tables userId query ↔ ∃ keyword, keywords tables query = [keyword] ∧
      ∀ character ∈ keyword, operator character = true → special character = true := by
  constructor
  · intro faithful
    obtain ⟨keyword, single⟩ := faithful.single
    refine ⟨keyword, single, (written_escape_iff special_operator).mp (faithful.escaped _ ?_)⟩
    rw [single]
    exact List.mem_cons_self
  · rintro ⟨keyword, single, operators⟩
    have known : ∀ other ∈ keywords tables query,
        ∀ character ∈ other, operator character = true → special character = true := by
      rw [single]
      exact List.forall_mem_singleton.mpr operators
    refine ⟨fun other member => (written_escape_iff special_operator).mpr (known other member),
      ⟨_, _, readQuery_searchQuery known, unescape_keywords known⟩, fun precedence =>
        ⟨_, parseQuery_searchQuery known precedence, fun Document owner has => ?_⟩⟩
    rw [single]
    ext document
    cases precedence with
    | tighter => exact denote_tighter _ keyword [] document
    | looser =>
        rw [denote_looser]
        simp

/-- Two keywords let documents of other users in, where a bar binds looser than a blank. -/
theorem queryFaithful_aliceWork : ¬ QueryFaithful asciiWords 0 "alice work".toList := by
  intro faithful
  obtain ⟨keyword, single⟩ := faithful.single
  have two : (keywords asciiWords "alice work".toList).length = 2 := by decide +kernel
  rw [single, List.length_singleton] at two
  exact absurd two (by decide)

end Retrieval
end Mnemo
