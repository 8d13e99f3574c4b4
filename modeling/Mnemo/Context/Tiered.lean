import Mathlib.Algebra.Order.Floor.Ring
import Mathlib.Data.List.Sort
import Mathlib.Data.Rat.Floor
import Mnemo.Context.Assembly
import Mnemo.Lib.ByteSlice

/-!
# Assembling a context in tiers

The most relevant facts are written verbatim, the next ones compressed and the others as references,
each tier within its share of the budget and what the tiers before it left over.
-/

namespace Mnemo
namespace Context

/-! ## Text -/

/-- A slice from the beginning of a text up to a byte offset; `none` is a panic. -/
def sliceTo (text : String) (offset : Nat) : Option String :=
  (ByteSlice.takeBytes offset text.toList).map String.ofList

/-- Whether a character ends a sentence. -/
def endsSentence (character : Char) : Bool :=
  character == '.' || character == '!' || character == '?'

/-- Multiply two counts of 32 bits; an overflow panics. -/
def checkedMul (count factor : Nat) : Option Nat :=
  if count * factor < 2 ^ 32 then some (count * factor) else none

/-- Extract the first sentence, up to `maxTokens` worth of text. -/
def firstSentence (text : String) (maxTokens : Nat) : Option String := do
  let stop := ((ByteSlice.findByte endsSentence text.toList).map (· + 1)).getD
    (Text.byteLength text)
  let sentence ← sliceTo text stop
  let maxChars ← checkedMul maxTokens 4
  if maxChars < Text.byteLength sentence then
    let start ← sliceTo sentence (min maxChars (Text.byteLength sentence))
    return start ++ "…"
  else return sentence

/-! ## Configuration -/

/-- Configuration for tiered token budgeting. -/
structure TierConfig where
  tier1Ratio : ℚ
  tier2Ratio : ℚ
  tier3Ratio : ℚ

/-- The cast of a floating-point number to 32 bits: it truncates and saturates. -/
def castU32 (value : ℚ) : Nat := min ⌊value⌋.toNat (2 ^ 32 - 1)

/-- A service that summarizes a text in a number of tokens; it may remember its earlier calls. -/
structure Summarizer where
  State : Type
  state : State
  summarize : State → String → Nat → String × State

/-- The answer to a call, and the service behind it. -/
def Summarizer.call (summarizer : Summarizer) (text : String) (target : Nat) :
    String × Summarizer :=
  let (answer, state) := summarizer.summarize summarizer.state text target
  (answer, { summarizer with state })

section Tiers

-- Every operation on floating-point numbers rounds its result.
variable (round : ℚ → ℚ)

/-- The share of a budget. -/
def tierBudget (maxTokens : Nat) (ratio : ℚ) : Nat := castU32 (round (round maxTokens * ratio))

/-- Compress the text of a fact, by a call or to its first sentence. -/
def compress (summarizer : Option Summarizer) (text : String) (available : Nat) :
    Option (String × Option Summarizer) :=
  match summarizer with
  | some service =>
      -- Ask for about 30 % of the tokens.
      let target := castU32 ⌈round (round (estimateTokens text) * round (3 / 10))⌉
      let (answer, service) := service.call text (min (max target 10) available)
      some (answer, some service)
  | none => (firstSentence text available).map fun sentence => (sentence, none)

/-- Append the compressed lines of facts while they fit. -/
def addCompressed (limit : Nat) : Option Summarizer → Section → List FactSummary → Option Section
  | _, section', [] => some section'
  | summarizer, section', fact :: facts =>
      let available := limit - section'.runningTokens
      if available = 0 then some section'
      else
        (compress round summarizer fact.fact available).bind fun (compressed, summarizer) =>
          let line := "- " ++ compressed ++ "\n"
          (checkedAdd section'.runningTokens (estimateTokens line)).bind fun total =>
            if limit < total then some section'
            else addCompressed limit summarizer (section'.add line total) facts

/-! ## Tiers -/

/-- What a tier writes, and the tokens charged from then on. -/
abbrev Tier : Type := Option String × Nat

/-- A tier that writes its section. -/
def Tier.written (section' : Section) : Tier := (some section'.text, section'.runningTokens)

/-- The most relevant facts, verbatim. -/
def verbatimTier (tier1Budget running : Nat) (tier1 : List FactSummary) : Option Tier :=
  if tier1.isEmpty then some (none, running)
  else
    let header := "Key facts:\n"
    (checkedAdd running (estimateTokens header)).bind fun total =>
      if tier1Budget < total then some (none, running)
      else
        (addLines tier1Budget ⟨header, total, 0⟩
          (tier1.map fun fact => "- " ++ fact.fact ++ "\n")).map .written

/-- The facts of the second tier, compressed. -/
def compressedTier (limit running : Nat) (summarizer : Option Summarizer)
    (tier2 : List FactSummary) : Option Tier :=
  if tier2.isEmpty || !decide (running < limit) then some (none, running)
  else
    let remaining := limit - running
    let header := "Additional context:\n"
    if estimateTokens header < remaining then
      (checkedAdd running (estimateTokens header)).bind fun total =>
        (addCompressed round limit summarizer ⟨header, total, 0⟩ tier2).map .written
    else some (none, running)

/-- The line that refers to a fact. -/
def referenceLine (calendar : Calendar) (fact : FactSummary) : String :=
  "- " ++ fact.sourceEntity ++ " " ++ fact.label ++ " " ++ fact.targetEntity ++ " (" ++
    calendar.month fact.validAt ++ ")\n"

/-- The other facts, as one-line references. -/
def referenceTier (calendar : Calendar) (maxTokens running : Nat) (tier3 : List FactSummary) :
    Option Tier :=
  if tier3.isEmpty || !decide (running < maxTokens) then some (none, running)
  else
    let header := "Also relevant:\n"
    (checkedAdd running (estimateTokens header)).bind fun total =>
      if total < maxTokens then
        (addLines maxTokens ⟨header, total, 0⟩ (tier3.map (referenceLine calendar))).map .written
      else some (none, running)

/-- The entities, in the budget that remains. -/
def entityTier (maxTokens running : Nat) (entities : List EntitySummary) : Option Tier :=
  let entityBudget := maxTokens - running
  if entities.isEmpty || !decide (0 < entityBudget) then some (none, running)
  else
    let header := "Known entities:\n"
    (checkedAdd running (estimateTokens header)).bind fun total =>
      if maxTokens < total then some (none, running)
      else
        (addLines maxTokens ⟨header, total, 0⟩ (entities.map EntitySummary.line)).map .written

/-- The sections of a context in tiers. -/
structure TieredSections where
  verbatim : Option String
  compressed : Option String
  references : Option String
  entities : Option String

/-- The sections that are written, in their order. -/
def TieredSections.parts (sections : TieredSections) : List String :=
  [sections.verbatim, sections.compressed, sections.references, sections.entities].reduceOption

/-- The sections for facts that are sorted by relevance. -/
def tieredSections (calendar : Calendar) (maxTokens : Nat) (config : TierConfig)
    (summarizer : Option Summarizer) (facts : List FactSummary) (entities : List EntitySummary) :
    Option TieredSections := do
  let tier1Budget := tierBudget round maxTokens config.tier1Ratio
  let tier2Budget := tierBudget round maxTokens config.tier2Ratio
  let limit ← checkedAdd tier1Budget tier2Budget
  let maxRel := (facts.head?.map (·.relevance)).getD 1
  let tier1Threshold := round (maxRel * round (1 - config.tier1Ratio))
  let tier2Threshold := round (maxRel * config.tier3Ratio)
  let tier1 := facts.filter fun fact => tier1Threshold ≤ fact.relevance
  let rest := facts.filter fun fact => ¬ tier1Threshold ≤ fact.relevance
  let tier2 := rest.filter fun fact => tier2Threshold ≤ fact.relevance
  let tier3 := rest.filter fun fact => ¬ tier2Threshold ≤ fact.relevance
  let (verbatim, running) ← verbatimTier tier1Budget 0 tier1
  let (compressed, running) ← compressedTier round limit running summarizer tier2
  let (references, running) ← referenceTier calendar maxTokens running tier3
  let (entities, _) ← entityTier maxTokens running entities
  return { verbatim, compressed, references, entities }

/-- Assemble the context string with three-tier token budgeting; `none` is a panic. -/
def ContextBlock.assembleTiered (calendar : Calendar) (block : ContextBlock) (maxTokens : Nat)
    (config : TierConfig) (summarizer : Option Summarizer) : Option ContextBlock := do
  let facts := block.facts.insertionSort fun fact other => other.relevance ≤ fact.relevance
  let sections ← tieredSections round calendar maxTokens config summarizer facts block.entities
  let context := joinParts sections.parts
  return { block with context, tokenCount := estimateTokens context }

end Tiers

end Context
end Mnemo
