import Mathlib
import Mnemo.Context.Tiered

/-!
# The budgets of the tiers

A tier is charged for the text it writes, but the charges for two of the headers leave nothing for
the line break before their sections.
-/

namespace Mnemo
namespace Context

/-! ## Sizes of sections -/

/-- The tokens of a section. -/
def tokens (text : Option String) : Nat := (text.map estimateTokens).getD 0

/-- The bytes of a section and of the line break that sets it apart. -/
def size (text : Option String) : Nat := (text.map (Text.byteLength · + 1)).getD 0

@[simp]
theorem tokens_none : tokens none = 0 := rfl

@[simp]
theorem tokens_some (text : String) : tokens (some text) = estimateTokens text := rfl

@[simp]
theorem size_none : size none = 0 := rfl

@[simp]
theorem size_some (text : String) : size (some text) = Text.byteLength text + 1 := rfl

theorem byteLength_joinParts (parts : List String) :
    Text.byteLength (joinParts parts) = (parts.map (Text.byteLength · + 1)).sum - 1 := by
  induction parts using List.reverseRecOn with
  | nil => rfl
  | append_singleton parts part ih =>
    rw [byteLength_joinParts_append, ih, List.map_append, List.sum_append, List.map_singleton,
      List.sum_singleton]
    cases parts with
    | nil => simp
    | cons first parts =>
      rw [if_neg (List.cons_ne_nil first parts), List.map_cons, List.sum_cons]
      omega

theorem byteLength_parts (sections : TieredSections) :
    Text.byteLength (joinParts sections.parts) =
      size sections.verbatim + size sections.compressed + size sections.references +
        size sections.entities - 1 := by
  obtain ⟨verbatim, compressed, references, entities⟩ := sections
  rw [byteLength_joinParts]
  cases verbatim <;> cases compressed <;> cases references <;> cases entities <;>
    simp [TieredSections.parts, List.reduceOption] <;> omega

/-! ## What a tier is charged -/

/-- A tier is charged for its text, up to some bytes of the line break before it. -/
structure Tier.Charged (tier : Tier) (before limit uncovered : Nat) : Prop where
  charged : before ≤ tier.2
  within : tier.2 ≤ limit
  bytes : size tier.1 + 4 * before ≤ 4 * tier.2 + uncovered

theorem Tier.Charged.tokens_add_le {tier : Tier} {before limit uncovered : Nat}
    (charged : tier.Charged before limit uncovered) (covered : uncovered ≤ 1) :
    tokens tier.1 + before ≤ tier.2 := by
  obtain ⟨more, -, bytes⟩ := charged
  obtain ⟨text, after⟩ := tier
  cases text with
  | none => simpa using more
  | some text =>
    have estimate : estimateTokens text ≤ after - before :=
      estimateTokens_le (by rw [size_some] at bytes; dsimp only at bytes more; omega)
    dsimp only [tokens_some] at estimate more ⊢
    omega

theorem Tier.Charged.of_none {running limit uncovered : Nat} (within : running ≤ limit) :
    Tier.Charged (none, running) running limit uncovered :=
  ⟨Nat.le_refl _, within, by rw [size_none]; omega⟩

theorem Tier.Charged.of_written {header : String} {before limit uncovered : Nat} {section' : Section}
    (grown : Section.Extends ⟨header, before + estimateTokens header, 0⟩ section' limit)
    (covered : Text.byteLength header + 1 ≤ 4 * estimateTokens header + uncovered) :
    (Tier.written section').Charged before limit uncovered := by
  obtain ⟨charged, within, bytes, -, -⟩ := grown
  refine ⟨?_, within, ?_⟩
  · exact Nat.le_trans (Nat.le_add_right _ _) charged
  · rw [Tier.written, size_some]
    dsimp only at bytes ⊢
    omega

theorem Tier.Charged.of_addLines {header : String} {before total limit uncovered : Nat}
    {lines : List String} {tier : Tier}
    (sum : checkedAdd before (estimateTokens header) = some total) (fits : total ≤ limit)
    (positive : 0 < estimateTokens header)
    (covered : Text.byteLength header + 1 ≤ 4 * estimateTokens header + uncovered)
    (written : (addLines limit ⟨header, total, 0⟩ lines).map Tier.written = some tier) :
    tier.Charged before limit uncovered := by
  obtain ⟨-, rfl⟩ := checkedAdd_eq_some_iff.mp sum
  obtain ⟨section', filled, rfl⟩ := Option.map_eq_some_iff.mp written
  exact .of_written (addLines_extends (by dsimp only; omega) fits filled) covered

theorem verbatimTier_charged {tier1Budget running : Nat} {tier1 : List FactSummary} {tier : Tier}
    (within : running ≤ tier1Budget) (written : verbatimTier tier1Budget running tier1 = some tier) :
    tier.Charged running tier1Budget 0 := by
  rw [verbatimTier] at written
  split at written
  next =>
    obtain rfl := Option.some.inj written
    exact .of_none within
  next =>
    obtain ⟨total, sum, written⟩ := Option.bind_eq_some_iff.mp written
    split at written
    next =>
      obtain rfl := Option.some.inj written
      exact .of_none within
    next fits =>
      exact .of_addLines sum (Nat.not_lt.mp fits) (by decide) (by decide) written

section Tiers

variable {round : ℚ → ℚ} {calendar : Calendar}

theorem addCompressed_extends {limit : Nat} {summarizer : Option Summarizer}
    {start finish : Section} {facts : List FactSummary} (positive : 0 < start.runningTokens)
    (within : start.runningTokens ≤ limit)
    (filled : addCompressed round limit summarizer start facts = some finish) :
    start.Extends finish limit := by
  induction facts generalizing summarizer start with
  | nil =>
    rw [addCompressed] at filled
    obtain rfl := Option.some.inj filled
    exact .refl within
  | cons fact facts ih =>
    rw [addCompressed] at filled
    split at filled
    next =>
      obtain rfl := Option.some.inj filled
      exact .refl within
    next =>
      obtain ⟨⟨compressed, next⟩, -, filled⟩ := Option.bind_eq_some_iff.mp filled
      obtain ⟨total, sum, filled⟩ := Option.bind_eq_some_iff.mp filled
      split at filled
      next =>
        obtain rfl := Option.some.inj filled
        exact .refl within
      next fits =>
        have grows := (checkedAdd_eq_some_iff.mp sum).2
        have more : 0 < (start.add ("- " ++ compressed ++ "\n") total).runningTokens := by
          change 0 < total
          omega
        exact (ih more (Nat.not_lt.mp fits) filled).of_add positive sum

theorem compressedTier_charged {limit running : Nat} {summarizer : Option Summarizer}
    {tier2 : List FactSummary} {tier : Tier} (within : running ≤ limit)
    (written : compressedTier round limit running summarizer tier2 = some tier) :
    tier.Charged running limit 1 := by
  rw [compressedTier] at written
  split at written
  next =>
    obtain rfl := Option.some.inj written
    exact .of_none within
  next =>
    dsimp only at written
    split at written
    next opens =>
      obtain ⟨total, sum, written⟩ := Option.bind_eq_some_iff.mp written
      obtain ⟨-, rfl⟩ := checkedAdd_eq_some_iff.mp sum
      obtain ⟨section', filled, rfl⟩ := Option.map_eq_some_iff.mp written
      have positive : 0 < estimateTokens "Additional context:\n" := by decide
      exact .of_written (addCompressed_extends (by dsimp only; omega)
        (by dsimp only; omega) filled) (by decide)
    next =>
      obtain rfl := Option.some.inj written
      exact .of_none within

theorem referenceTier_charged {maxTokens running : Nat} {tier3 : List FactSummary} {tier : Tier}
    (within : running ≤ maxTokens)
    (written : referenceTier calendar maxTokens running tier3 = some tier) :
    tier.Charged running maxTokens 0 := by
  rw [referenceTier] at written
  split at written
  next =>
    obtain rfl := Option.some.inj written
    exact .of_none within
  next =>
    obtain ⟨total, sum, written⟩ := Option.bind_eq_some_iff.mp written
    split at written
    next fits =>
      exact .of_addLines sum (Nat.le_of_lt fits) (by decide) (by decide) written
    next =>
      obtain rfl := Option.some.inj written
      exact .of_none within

theorem entityTier_charged {maxTokens running : Nat} {entities : List EntitySummary} {tier : Tier}
    (within : running ≤ maxTokens)
    (written : entityTier maxTokens running entities = some tier) :
    tier.Charged running maxTokens 1 := by
  rw [entityTier] at written
  dsimp only at written
  split at written
  next =>
    obtain rfl := Option.some.inj written
    exact .of_none within
  next =>
    obtain ⟨total, sum, written⟩ := Option.bind_eq_some_iff.mp written
    split at written
    next =>
      obtain rfl := Option.some.inj written
      exact .of_none within
    next fits =>
      exact .of_addLines sum (Nat.not_lt.mp fits) (by decide) (by decide) written

/-! ## All tiers -/

theorem exists_charges {maxTokens : Nat} {config : TierConfig} {summarizer : Option Summarizer}
    {facts : List FactSummary} {entities : List EntitySummary} {sections : TieredSections}
    (shares : tierBudget round maxTokens config.tier1Ratio +
      tierBudget round maxTokens config.tier2Ratio ≤ maxTokens)
    (written : tieredSections round calendar maxTokens config summarizer facts entities =
      some sections) :
    ∃ first second third fourth,
      Tier.Charged (sections.verbatim, first) 0 (tierBudget round maxTokens config.tier1Ratio) 0 ∧
      Tier.Charged (sections.compressed, second) first
        (tierBudget round maxTokens config.tier1Ratio +
          tierBudget round maxTokens config.tier2Ratio) 1 ∧
      Tier.Charged (sections.references, third) second maxTokens 0 ∧
      Tier.Charged (sections.entities, fourth) third maxTokens 1 := by
  obtain ⟨limit, sum, written⟩ := Option.bind_eq_some_iff.mp written
  obtain ⟨-, rfl⟩ := checkedAdd_eq_some_iff.mp sum
  obtain ⟨⟨verbatim, first⟩, firstWritten, written⟩ := Option.bind_eq_some_iff.mp written
  obtain ⟨⟨compressed, second⟩, secondWritten, written⟩ := Option.bind_eq_some_iff.mp written
  obtain ⟨⟨references, third⟩, thirdWritten, written⟩ := Option.bind_eq_some_iff.mp written
  obtain ⟨⟨entities', fourth⟩, fourthWritten, written⟩ := Option.bind_eq_some_iff.mp written
  obtain rfl := Option.some.inj written
  have firstCharged := verbatimTier_charged (Nat.zero_le _) firstWritten
  have secondCharged := compressedTier_charged
    (Nat.le_trans firstCharged.within (Nat.le_add_right _ _)) secondWritten
  have thirdCharged := referenceTier_charged
    (Nat.le_trans secondCharged.within shares) thirdWritten
  exact ⟨first, second, third, fourth, firstCharged, secondCharged, thirdCharged,
    entityTier_charged thirdCharged.within fourthWritten⟩

end Tiers

/-- Facts that are sorted by descending relevance. -/
abbrev sortedFacts (block : ContextBlock) : List FactSummary :=
  block.facts.insertionSort fun fact other => other.relevance ≤ fact.relevance

/-- Every tier fits its budget together with what the tiers before it left over; so does the whole
text unless both sections stand in it whose headers leave nothing for a line break. -/
def WithinBudgets (round : ℚ → ℚ) (calendar : Calendar) (block : ContextBlock) (maxTokens : Nat)
    (config : TierConfig) (summarizer : Option Summarizer) (result : ContextBlock) : Prop :=
  ∃ sections ∈ tieredSections round calendar maxTokens config summarizer (sortedFacts block)
      block.entities,
    result.context = joinParts sections.parts ∧
    result.tokenCount = estimateTokens result.context ∧
    tokens sections.verbatim ≤ tierBudget round maxTokens config.tier1Ratio ∧
    tokens sections.verbatim + tokens sections.compressed ≤
      tierBudget round maxTokens config.tier1Ratio +
        tierBudget round maxTokens config.tier2Ratio ∧
    tokens sections.verbatim + tokens sections.compressed + tokens sections.references ≤
      maxTokens ∧
    (sections.compressed = none ∨ sections.entities = none → result.tokenCount ≤ maxTokens)

/-- The tiered assembly keeps within the budgets of the tiers. -/
theorem assembleTiered_within (round : ℚ → ℚ) (calendar : Calendar) (block : ContextBlock)
    (maxTokens : Nat) (config : TierConfig) (summarizer : Option Summarizer)
    (shares : tierBudget round maxTokens config.tier1Ratio +
      tierBudget round maxTokens config.tier2Ratio ≤ maxTokens) :
    ∀ result ∈ block.assembleTiered round calendar maxTokens config summarizer,
      WithinBudgets round calendar block maxTokens config summarizer result := by
  intro result assembled
  obtain ⟨sections, written, assembled⟩ := Option.bind_eq_some_iff.mp assembled
  obtain rfl := Option.some.inj assembled
  obtain ⟨first, second, third, fourth, verbatim, compressed, references, entities⟩ :=
    exists_charges shares written
  have verbatimTokens := verbatim.tokens_add_le (Nat.zero_le 1)
  have compressedTokens := compressed.tokens_add_le (Nat.le_refl 1)
  have referenceTokens := references.tokens_add_le (Nat.zero_le 1)
  have firstWithin := verbatim.within
  have secondWithin := compressed.within
  have thirdWithin := references.within
  refine ⟨sections, written, rfl, rfl, ?_, ?_, ?_, fun absent => ?_⟩
  · exact Nat.le_trans verbatimTokens firstWithin
  · dsimp only at verbatimTokens compressedTokens secondWithin
    omega
  · dsimp only at verbatimTokens compressedTokens referenceTokens thirdWithin
    omega
  · refine estimateTokens_le ?_
    rw [byteLength_parts]
    obtain ⟨-, -, verbatimBytes⟩ := verbatim
    obtain ⟨compressedMore, -, compressedBytes⟩ := compressed
    obtain ⟨-, -, referenceBytes⟩ := references
    obtain ⟨entitiesMore, entitiesWithin, entityBytes⟩ := entities
    rcases absent with absent | absent <;>
      rw [absent, size_none] at * <;>
      dsimp only at * <;>
      omega

/-! ## A context that exceeds its budget -/

/-- Two facts and an entity whose lines fill their tokens to the last byte. -/
def travelBlock : ContextBlock :=
  { context := ""
    tokenCount := 0
    entities := [⟨"Oslo", "places", none⟩]
    facts := [⟨"Ada", "Oslo", "visits", "Aalto", 0, none, 1⟩,
      ⟨"Ada", "Paris", "visits", "Paris", 0, none, 3 / 10⟩]
    episodes := [] }

/-- The calendar on one day. -/
def travelCalendar : Calendar := ⟨fun _ => "2024-05-01", fun _ => "May 2024"⟩

/-- The default shares of the tiers. -/
def TierConfig.default : TierConfig := ⟨3 / 5, 1 / 4, 3 / 20⟩

theorem assembleTiered_within_travel :
    (tierBudget id 20 TierConfig.default.tier1Ratio +
      tierBudget id 20 TierConfig.default.tier2Ratio ≤ 20) ∧
    ∀ result ∈ travelBlock.assembleTiered id travelCalendar 20 .default none,
      WithinBudgets id travelCalendar travelBlock 20 .default none result :=
  ⟨by decide +kernel, assembleTiered_within id travelCalendar travelBlock 20 .default none
    (by decide +kernel)⟩

/-- Twenty tokens may be spent, five of them on the second tier; its section takes seven, and the
whole text takes twenty-one. -/
theorem travel_exceeds_budgets :
    (tierBudget id 20 TierConfig.default.tier1Ratio +
      tierBudget id 20 TierConfig.default.tier2Ratio ≤ 20) ∧
    tierBudget id 20 TierConfig.default.tier2Ratio = 5 ∧
    ((tieredSections id travelCalendar 20 .default none (sortedFacts travelBlock)
      travelBlock.entities).map fun sections => tokens sections.compressed) = some 7 ∧
    ((travelBlock.assembleTiered id travelCalendar 20 .default none).map
      ContextBlock.tokenCount) = some 21 := by
  decide +kernel

end Context
end Mnemo
