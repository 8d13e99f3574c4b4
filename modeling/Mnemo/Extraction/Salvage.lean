import Mathlib.Data.Rat.Defs
import Mnemo.Core.Json
import Mnemo.Lib.ByteSlice
import Mnemo.Lib.Lines

/-!
# Salvaging a truncated extraction

What a language model found in a text comes as JSON, perhaps cut off.  Two ways are tried to read
it: the open strings and brackets are closed, or the complete objects of the two arrays are
collected one by one.
-/

namespace Mnemo
namespace Extraction

open ByteSlice Text

/-- An entity as the model reports it. -/
structure RawEntity where
  name : List Char
  entityType : List Char
  summary : Option (List Char)
  classification : Option (List Char)
  deriving DecidableEq

/-- A relationship as the model reports it. -/
structure RawRelationship where
  source : List Char
  target : List Char
  label : List Char
  fact : List Char
  confidence : ℚ
  classification : Option (List Char)
  deriving DecidableEq

/-- What the model found. -/
structure ExtractionResponse where
  entities : List RawEntity
  relationships : List RawRelationship
  deriving DecidableEq

/-- An entity whose fields may be missing. -/
structure RawEntityLoose where
  name : Option (List Char)
  entityType : Option (List Char)
  summary : Option (List Char)
  classification : Option (List Char)

/-- A relationship whose fields may be missing. -/
structure RawRelationshipLoose where
  source : Option (List Char)
  target : Option (List Char)
  label : Option (List Char)
  fact : Option (List Char)
  confidence : ℚ
  classification : Option (List Char)

/-- The readers of JSON which the system takes from its serialization library. -/
structure JsonReaders where
  extraction : List Char → Except String ExtractionResponse
  value : List Char → Option Json
  entityOfValue : Json → Option RawEntityLoose
  relationshipOfValue : Json → Option RawRelationshipLoose
  entityOfText : List Char → Option RawEntityLoose
  relationshipOfText : List Char → Option RawRelationshipLoose

/-- The Unicode tables which tell letters, digits and lower case. -/
structure TokenTables where
  toLowercase : List Char → List Char
  isAlphanumeric : Char → Bool

/-- Whether a text occurs in another. -/
def contains (text part : List Char) : Bool := text.tails.any part.isPrefixOf

/-- Whether a candidate, or a longer token of it, appears in the content, whatever the case. -/
def appearsInContent (tables : TokenTables) (content candidate : List Char) : Bool :=
  let content := tables.toLowercase content
  let candidate := tables.toLowercase candidate
  if candidate.isEmpty then false
  else if contains content candidate then true
  else
    ((candidate.splitOnP fun character => !tables.isAlphanumeric character).filter fun token =>
      decide (bytes token ≥ 4)).any (contains content)

/-! ## Closing what is open -/

/-- What is open behind a part of a JSON text. -/
structure OpenState where
  inString : Bool
  escape : Bool
  /-- The open brackets, the innermost first. -/
  stack : List Char
  deriving DecidableEq

/-- Nothing is open at the beginning. -/
def OpenState.start : OpenState := { inString := false, escape := false, stack := [] }

/-- What a character opens or closes. -/
def openStep (state : OpenState) (character : Char) : OpenState :=
  if state.escape then { state with escape := false }
  else if character = '\\' ∧ state.inString = true then { state with escape := true }
  else if character = '"' then { state with inString := !state.inString }
  else if state.inString then state
  else if character = '\x7b' ∨ character = '[' then
    { state with stack := character :: state.stack }
  else if character = '\x7d' ∧ state.stack.head? = some '\x7b' then
    { state with stack := state.stack.tail }
  else if character = ']' ∧ state.stack.head? = some '[' then
    { state with stack := state.stack.tail }
  else state

/-- The bracket that closes one. -/
def closing (bracket : Char) : Char := if bracket = '\x7b' then '\x7d' else ']'

/-- Close the string and the brackets which are open at the end. -/
def completeJsonPrefix (raw : List Char) : List Char :=
  let state := raw.foldl openStep .start
  raw ++ (if state.inString then ['"'] else []) ++ state.stack.map closing

/-! ## Collecting complete objects -/

/-- The text from the first occurrence of a part on. -/
def fromFirst (part : List Char) : List Char → Option (List Char)
  | [] => if part = [] then some [] else none
  | character :: rest =>
      if part.isPrefixOf (character :: rest) then some (character :: rest)
      else fromFirst part rest

/-- Collect the objects up to the end of the array; the text of the one that has begun is carried
along. -/
def scanObjects : Bool → Bool → Nat → Option (List Char) → List Char → List (List Char)
  | _, _, _, _, [] => []
  | inString, escape, depth, begun, character :: rest =>
      let grown := begun.map (· ++ [character])
      if escape then scanObjects inString false depth grown rest
      else if character = '\\' ∧ inString = true then scanObjects inString true depth grown rest
      else if character = '"' then scanObjects (!inString) false depth grown rest
      else if character = '\x7b' ∧ inString = false then
        scanObjects inString false (depth + 1) (if depth = 0 then some [character] else grown) rest
      else if character = '\x7d' ∧ inString = false then
        if depth = 0 then scanObjects inString false depth grown rest
        else if depth = 1 then grown.toList ++ scanObjects inString false 0 none rest
        else scanObjects inString false (depth - 1) grown rest
      else if character = ']' ∧ inString = false ∧ depth = 0 then []
      else scanObjects inString false depth grown rest

/-- The complete objects of the array that follows the first occurrence of a key. -/
def collectArrayObjects (raw key : List Char) : List (List Char) :=
  match fromFirst ('"' :: (key ++ ['"'])) raw with
  | none => []
  | some rest =>
      match rest.dropWhile (· ≠ '[') with
      | [] => []
      | _ :: items => scanObjects false false 0 none items

/-! ## Salvaging -/

/-- An entity with a name that appears in the content and a type. -/
def salvageEntity (tables : TokenTables) (content : List Char) (entity : RawEntityLoose) :
    Option RawEntity := do
  let name := Lines.trim isWhitespace (← entity.name)
  let entityType := Lines.trim isWhitespace (← entity.entityType)
  if name.isEmpty || entityType.isEmpty || !appearsInContent tables content name then none
  else
    some
      { name := name
        entityType := entityType
        summary := entity.summary
        classification := entity.classification }

/-- A relationship with a label and a fact between names that appear in the content. -/
def salvageRelationship (tables : TokenTables) (content : List Char)
    (rel : RawRelationshipLoose) : Option RawRelationship := do
  let source := Lines.trim isWhitespace (← rel.source)
  let target := Lines.trim isWhitespace (← rel.target)
  let label := Lines.trim isWhitespace (← rel.label)
  let fact := Lines.trim isWhitespace (← rel.fact)
  if source.isEmpty || target.isEmpty || label.isEmpty || fact.isEmpty ||
      !appearsInContent tables content source || !appearsInContent tables content target then none
  else
    some
      { source := source
        target := target
        label := label
        fact := fact
        confidence := rel.confidence
        classification := rel.classification }

/-- The items of an array in a field of an object. -/
def arrayItems (value : Json) (key : String) : List Json :=
  match value with
  | .object fields =>
      match fields.lookup key with
      | some (.array items) => items
      | _ => []
  | _ => []

/-- Salvage what can be read of a response. -/
def salvageExtraction (readers : JsonReaders) (tables : TokenTables)
    (content cleaned : List Char) : ExtractionResponse :=
  let collected : ExtractionResponse :=
    { entities := ((collectArrayObjects cleaned "entities".toList).filterMap
        readers.entityOfText).filterMap (salvageEntity tables content)
      relationships := ((collectArrayObjects cleaned "relationships".toList).filterMap
        readers.relationshipOfText).filterMap (salvageRelationship tables content) }
  match readers.value (completeJsonPrefix cleaned) with
  | none => collected
  | some value =>
      let entities := ((arrayItems value "entities").filterMap
        readers.entityOfValue).filterMap (salvageEntity tables content)
      let relationships := ((arrayItems value "relationships").filterMap
        readers.relationshipOfValue).filterMap (salvageRelationship tables content)
      if !entities.isEmpty || !relationships.isEmpty then
        { entities := entities, relationships := relationships }
      else collected

end Extraction
end Mnemo
