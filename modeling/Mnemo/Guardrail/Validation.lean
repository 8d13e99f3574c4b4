import Mnemo.Guardrail.Model

/-!
# Validating the patterns of a condition

A rule is accepted when every pattern in its condition compiles.  It is validated under the
standard limits and evaluated under tighter ones, so an accepted pattern may never match.
-/

namespace Mnemo
namespace Guardrail
namespace GuardrailCondition

mutual

/-- The patterns in a condition, from left to right. -/
def patterns : GuardrailCondition → List String
  | contentMatchesRegex pattern => [pattern]
  | and conditions => patternsOfAll conditions
  | or conditions => patternsOfAll conditions
  | not condition => patterns condition
  | _ => []

/-- The patterns in a list of conditions. -/
def patternsOfAll : List GuardrailCondition → List String
  | [] => []
  | condition :: conditions => patterns condition ++ patternsOfAll conditions

end

section Validation

variable (engine : RegexEngine) (describe : String → String)

mutual

/-- Validate that every pattern in a condition compiles; `describe` gives the text of the
compiler's error. -/
def validateConditionRegexes : GuardrailCondition → Except String Unit
  | contentMatchesRegex pattern =>
      match engine.build .standard pattern with
      | some _ => .ok ()
      | none => .error ("Invalid regex pattern '" ++ pattern ++ "': " ++ describe pattern)
  | and conditions => validateAll conditions
  | or conditions => validateAll conditions
  | not condition => validateConditionRegexes condition
  | _ => .ok ()

/-- Validate one condition after the other. -/
def validateAll : List GuardrailCondition → Except String Unit
  | [] => .ok ()
  | condition :: conditions =>
      match validateConditionRegexes condition with
      | .ok () => validateAll conditions
      | .error message => .error message

end

/-! ## What is accepted -/

/-- A pattern that is built under the given limits. -/
def Builds (limits : RegexLimits) (pattern : String) : Prop :=
  (engine.build limits pattern).isSome = true

variable {engine describe}

theorem builds_iff {limits : RegexLimits} {pattern : String} :
    Builds engine limits pattern ↔
      ∃ regex, engine.compile pattern = some regex ∧ engine.size regex ≤ limits.sizeLimit := by
  simp [Builds, RegexEngine.build, Option.any_eq_true]

theorem validate_pattern_iff {pattern : String} :
    validateConditionRegexes engine describe (contentMatchesRegex pattern) = .ok () ↔
      Builds engine .standard pattern := by
  rw [validateConditionRegexes, Builds]
  cases engine.build .standard pattern <;> simp

theorem validateAll_cons_iff {condition : GuardrailCondition}
    {conditions : List GuardrailCondition} :
    validateAll engine describe (condition :: conditions) = .ok () ↔
      validateConditionRegexes engine describe condition = .ok () ∧
        validateAll engine describe conditions = .ok () := by
  rw [validateAll]
  cases validateConditionRegexes engine describe condition <;> simp

mutual

theorem validateConditionRegexes_iff : ∀ condition : GuardrailCondition,
    validateConditionRegexes engine describe condition = .ok () ↔
      ∀ pattern ∈ condition.patterns, Builds engine .standard pattern
  | contentMatchesRegex pattern => by
      rw [validate_pattern_iff, patterns, List.forall_mem_singleton]
  | and conditions => by
      rw [validateConditionRegexes, patterns]
      exact validateAll_iff conditions
  | or conditions => by
      rw [validateConditionRegexes, patterns]
      exact validateAll_iff conditions
  | not condition => by
      rw [validateConditionRegexes, patterns]
      exact validateConditionRegexes_iff condition
  | classificationAbove _ | entityTypeIn _ | edgeLabelIn _ | callerRoleBelow _
  | factAgeAboveDays _ | confidenceBelow _ => by
      simp [validateConditionRegexes, patterns]

theorem validateAll_iff : ∀ conditions : List GuardrailCondition,
    validateAll engine describe conditions = .ok () ↔
      ∀ pattern ∈ patternsOfAll conditions, Builds engine .standard pattern
  | [] => by simp [validateAll, patternsOfAll]
  | condition :: conditions => by
      rw [validateAll_cons_iff, patternsOfAll, List.forall_mem_append,
        validateConditionRegexes_iff condition, validateAll_iff conditions]

end

/-! ## What is evaluated -/

/-- A pattern is malformed, or its program exceeds the standard limit. -/
def Unbuildable (engine : RegexEngine) (pattern : String) : Prop :=
  ∀ regex, engine.compile pattern = some regex →
    RegexLimits.standard.sizeLimit < engine.size regex

theorem not_builds_standard_iff {pattern : String} :
    ¬ Builds engine .standard pattern ↔ Unbuildable engine pattern := by
  simp [builds_iff, Unbuildable]

theorem builds_of_within {pattern : String} (accepted : Builds engine .standard pattern)
    (within : ∀ regex, engine.compile pattern = some regex → engine.size regex ≤ regexSizeLimit) :
    Builds engine .evaluation pattern := by
  obtain ⟨regex, compiled, -⟩ := builds_iff.mp accepted
  exact builds_iff.mpr ⟨regex, compiled, within regex compiled⟩

/-- Acceptance carries over to evaluation exactly when some pattern is refused for being malformed
or far too large, or else no program exceeds the limit of evaluation. -/
theorem accepted_builds_iff (engine : RegexEngine) (describe : String → String)
    (condition : GuardrailCondition) :
    (validateConditionRegexes engine describe condition = .ok () →
      ∀ pattern ∈ condition.patterns, Builds engine .evaluation pattern) ↔
    (∃ pattern ∈ condition.patterns, Unbuildable engine pattern) ∨
      ∀ pattern ∈ condition.patterns, ∀ regex, engine.compile pattern = some regex →
        engine.size regex ≤ regexSizeLimit := by
  rw [validateConditionRegexes_iff]
  constructor
  · intro carries
    by_cases accepted : ∀ pattern ∈ condition.patterns, Builds engine .standard pattern
    · right
      intro pattern member regex compiled
      obtain ⟨same, found, within⟩ := builds_iff.mp (carries accepted pattern member)
      rwa [Option.some.inj (compiled.symm.trans found)]
    · left
      push Not at accepted
      obtain ⟨pattern, member, refused⟩ := accepted
      exact ⟨pattern, member, not_builds_standard_iff.mp refused⟩
  · rintro (⟨pattern, member, refused⟩ | within) accepted
    · exact absurd (accepted pattern member) (not_builds_standard_iff.mpr refused)
    · intro pattern member
      exact builds_of_within (accepted pattern member) (within pattern member)

end Validation

/-- A compiler for one pattern, ten characters of a word in a row, whose program takes 460 kB. -/
def wordEngine : RegexEngine :=
  { Regex := Unit
    compile := fun pattern => if pattern = "\\w\x7b10\x7d" then some () else none
    size := fun _ => 460000
    isMatch := fun _ content => 10 ≤ content.length }

/-- The pattern is accepted and yet never matches: a rule that blocks on it lets everything
through. -/
theorem accepted_pattern_never_matches :
    ¬ ∀ (engine : RegexEngine) (describe : String → String) (condition : GuardrailCondition),
      validateConditionRegexes engine describe condition = .ok () →
        ∀ pattern ∈ condition.patterns, Builds engine .evaluation pattern := by
  intro carries
  have built := carries wordEngine (fun _ => "") (contentMatchesRegex "\\w\x7b10\x7d") (by rfl)
    "\\w\x7b10\x7d" (by simp [patterns])
  revert built
  simp [builds_iff, wordEngine, RegexLimits.evaluation, regexSizeLimit]

end GuardrailCondition
end Guardrail
end Mnemo
