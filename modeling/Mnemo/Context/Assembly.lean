import Mathlib
import Mnemo.Context.Budget

/-!
# Assembling a context

The entities, facts and episodes that were retrieved are written into one text, in sections that
are filled while the token budget lasts.
-/

namespace Mnemo
namespace Context

/-- The dates of the calendar, written as a day (2024-05-01) or as a month (May 2024). -/
structure Calendar where
  day : Int → String
  month : Int → String

/-- An entity in a context. -/
structure EntitySummary where
  name : String
  entityType : String
  summary : Option String

/-- A fact in a context. -/
structure FactSummary where
  sourceEntity : String
  targetEntity : String
  label : String
  fact : String
  validAt : Int
  invalidAt : Option Int
  relevance : ℚ

/-- An episode in a context. -/
structure EpisodeSummary where
  role : Option String
  preview : String
  createdAt : Int

/-- A context, with the text for the prompt and its size. -/
structure ContextBlock where
  context : String
  tokenCount : Nat
  entities : List EntitySummary
  facts : List FactSummary
  episodes : List EpisodeSummary

/-! ## Lines -/

/-- The line for an entity. -/
def EntitySummary.line (entity : EntitySummary) : String :=
  match entity.summary with
  | some summary => "- " ++ entity.name ++ " (" ++ entity.entityType ++ "): " ++ summary ++ "\n"
  | none => "- " ++ entity.name ++ " (" ++ entity.entityType ++ ")\n"

/-- The line for a fact. -/
def FactSummary.line (fact : FactSummary) : String :=
  let validity := if fact.invalidAt.isSome then " [superseded]" else ""
  "- " ++ fact.fact ++ validity ++ "\n"

/-- The line for an episode. -/
def EpisodeSummary.line (calendar : Calendar) (episode : EpisodeSummary) : String :=
  let role := episode.role.getD "unknown"
  "- [" ++ calendar.day episode.createdAt ++ "] " ++ role ++ ": " ++ episode.preview ++ "\n"

/-- All lines of a context. -/
def ContextBlock.lines (calendar : Calendar) (block : ContextBlock) : List String :=
  block.entities.map EntitySummary.line ++ block.facts.map FactSummary.line ++
    block.episodes.map (EpisodeSummary.line calendar)

/-! ## Assembly -/

/-- Add a section, unless not even one of its lines fits. -/
def assembleSection (maxTokens : Nat) (header : String) (lines : List String)
    (assembly : Assembly) : Option Assembly :=
  if lines.isEmpty then some assembly
  else
    (checkedAdd assembly.runningTokens (estimateTokens header)).bind fun total =>
      if maxTokens < total then some assembly
      else
        (addLines maxTokens ⟨header, total, 0⟩ lines).map fun section' =>
          if 0 < section'.itemsAdded then
            ⟨assembly.parts ++ [section'.text], section'.runningTokens⟩
          else { assembly with runningTokens := section'.runningTokens - estimateTokens header }

/-- Build the context string; `none` is a panic. -/
def ContextBlock.assemble (calendar : Calendar) (block : ContextBlock) (maxTokens : Nat) :
    Option ContextBlock := do
  let assembly ← assembleSection maxTokens "Known entities:\n"
    (block.entities.map EntitySummary.line) .empty
  let assembly ← assembleSection maxTokens "Current facts:\n"
    (block.facts.map FactSummary.line) assembly
  -- The source keeps the charge for a last header without lines; nothing reads it any more.
  let assembly ← assembleSection maxTokens "Relevant conversation history:\n"
    (block.episodes.map (EpisodeSummary.line calendar)) assembly
  let context := joinParts assembly.parts
  return { block with context, tokenCount := estimateTokens context }

/-! ## The budget -/

/-- A header whose charge covers the line break before its section. -/
def HasSlack (header : String) : Prop :=
  Text.byteLength header + 1 ≤ 4 * estimateTokens header

instance (header : String) : Decidable (HasSlack header) := inferInstanceAs (Decidable (_ ≤ _))

theorem Assembly.Charged.append {assembly : Assembly} {limit : Nat} {section' : Section}
    {header : String} {items : Nat} (charged : assembly.Charged limit)
    (extends' : Section.Extends
      ⟨header, assembly.runningTokens + estimateTokens header, items⟩ section' limit)
    (covered : Text.byteLength header + (if assembly.parts = [] then 0 else 1) ≤
      4 * estimateTokens header) :
    Assembly.Charged ⟨assembly.parts ++ [section'.text], section'.runningTokens⟩ limit := by
  refine ⟨?_, extends'.within⟩
  have bytes := extends'.bytes
  have before := charged.bytes
  rw [byteLength_joinParts_append]
  dsimp only at bytes ⊢
  omega

theorem covered_of_slack {header : String} {parts : List String} (slack : HasSlack header) :
    Text.byteLength header + (if parts = [] then 0 else 1) ≤ 4 * estimateTokens header := by
  rw [HasSlack] at slack
  split <;> omega

theorem assembleSection_charged {maxTokens : Nat} {header : String} {lines : List String}
    {assembly result : Assembly} (charged : assembly.Charged maxTokens)
    (positive : 0 < estimateTokens header)
    (covered : Text.byteLength header + (if assembly.parts = [] then 0 else 1) ≤
      4 * estimateTokens header)
    (assembled : assembleSection maxTokens header lines assembly = some result) :
    result.Charged maxTokens := by
  rw [assembleSection] at assembled
  split at assembled
  next =>
    obtain rfl := Option.some.inj assembled
    exact charged
  next =>
    obtain ⟨total, sum, assembled⟩ := Option.bind_eq_some_iff.mp assembled
    obtain ⟨-, rfl⟩ := checkedAdd_eq_some_iff.mp sum
    split at assembled
    next =>
      obtain rfl := Option.some.inj assembled
      exact charged
    next fits =>
      obtain ⟨section', filled, rfl⟩ := Option.map_eq_some_iff.mp assembled
      have grown := addLines_extends (by dsimp only; omega) (Nat.not_lt.mp fits) filled
      split
      next => exact charged.append grown covered
      next empty =>
        have same := grown.idle (Nat.eq_zero_of_not_pos empty)
        dsimp only at same
        refine ⟨?_, ?_⟩
        · have bytes := charged.bytes
          dsimp only
          omega
        · have within := charged.within
          dsimp only
          omega

theorem assembleSection_isSome {maxTokens : Nat} {header : String} {lines : List String}
    {assembly : Assembly} (charged : assembly.Charged maxTokens)
    (small : maxTokens + estimateTokens header < 2 ^ 32)
    (smallLines : ∀ line ∈ lines, maxTokens + estimateTokens line < 2 ^ 32) :
    (assembleSection maxTokens header lines assembly).isSome = true := by
  have within := charged.within
  rw [assembleSection, checkedAdd_of_lt (by omega), Option.bind_some]
  split
  · rfl
  · split
    · rfl
    · next fits =>
        rw [Option.isSome_map]
        exact addLines_isSome (Nat.not_lt.mp fits) smallLines

/-- The assembled context is within the budget, and the assembly returns when no count can
overflow. -/
theorem assemble_within (calendar : Calendar) (block : ContextBlock) (maxTokens : Nat) :
    (∀ result ∈ block.assemble calendar maxTokens,
      result.tokenCount = estimateTokens result.context ∧ result.tokenCount ≤ maxTokens) ∧
    (maxTokens + 8 < 2 ^ 32 ∧
        (∀ line ∈ block.lines calendar, maxTokens + estimateTokens line < 2 ^ 32) →
      (block.assemble calendar maxTokens).isSome = true) := by
  have entities {result : Assembly} (assembled : assembleSection maxTokens "Known entities:\n"
      (block.entities.map EntitySummary.line) .empty = some result) : result.Charged maxTokens :=
    assembleSection_charged (Assembly.charged_empty _) (by decide) (by decide) assembled
  have facts {assembly result : Assembly} (charged : assembly.Charged maxTokens)
      (assembled : assembleSection maxTokens "Current facts:\n"
        (block.facts.map FactSummary.line) assembly = some result) : result.Charged maxTokens :=
    assembleSection_charged charged (by decide) (covered_of_slack (by decide)) assembled
  constructor
  · intro result assembled
    obtain ⟨first, firstSome, assembled⟩ := Option.bind_eq_some_iff.mp assembled
    obtain ⟨second, secondSome, assembled⟩ := Option.bind_eq_some_iff.mp assembled
    obtain ⟨third, thirdSome, assembled⟩ := Option.bind_eq_some_iff.mp assembled
    obtain rfl := Option.some.inj assembled
    have charged : third.Charged maxTokens :=
      assembleSection_charged (facts (entities firstSome) secondSome) (by decide)
        (covered_of_slack (by decide)) thirdSome
    exact ⟨rfl, charged.estimateTokens_le⟩
  · rintro ⟨small, smallLines⟩
    rw [ContextBlock.lines, List.forall_mem_append, List.forall_mem_append] at smallLines
    obtain ⟨⟨smallEntities, smallFacts⟩, smallEpisodes⟩ := smallLines
    have header (text : String) (short : estimateTokens text ≤ 8) :
        maxTokens + estimateTokens text < 2 ^ 32 := by omega
    obtain ⟨first, firstSome⟩ := Option.isSome_iff_exists.mp
      (assembleSection_isSome (Assembly.charged_empty maxTokens)
        (header "Known entities:\n" (by decide)) smallEntities)
    obtain ⟨second, secondSome⟩ := Option.isSome_iff_exists.mp
      (assembleSection_isSome (entities firstSome)
        (header "Current facts:\n" (by decide)) smallFacts)
    obtain ⟨third, thirdSome⟩ := Option.isSome_iff_exists.mp
      (assembleSection_isSome (facts (entities firstSome) secondSome)
        (header "Relevant conversation history:\n" (by decide)) smallEpisodes)
    rw [ContextBlock.assemble, firstSome, Option.bind_eq_bind, Option.bind_some, secondSome,
      Option.bind_some, thirdSome]
    rfl

end Context
end Mnemo
