import Mathlib.Data.Rat.Init
import Mnemo.Auth.ApiKey
import Mnemo.Core.Text

/-!
# Guardrail rules

A rule has a condition, a tree of predicates on the operation at hand, and an action.  The rules
are evaluated in the order of their priority, and the first one that blocks ends the evaluation.
-/

namespace Mnemo
namespace Guardrail

open Auth (ApiKeyRole)

/-- When a guardrail rule fires. -/
inductive GuardrailTrigger where
  | onIngest
  | onFactCreation
  | onRetrieval
  | onEntityCreation
  | onAny
  deriving DecidableEq, Repr

/-- Whether a trigger fires for an operation. -/
def GuardrailTrigger.matches (trigger operation : GuardrailTrigger) : Bool :=
  decide (trigger = .onAny) || decide (trigger = operation)

/-- What a guardrail rule checks. -/
inductive GuardrailCondition where
  | classificationAbove (classification : Classification)
  | entityTypeIn (entityTypes : List String)
  | edgeLabelIn (labels : List String)
  | contentMatchesRegex (pattern : String)
  | callerRoleBelow (role : ApiKeyRole)
  | factAgeAboveDays (days : Nat)
  | confidenceBelow (confidence : ℚ)
  | and (conditions : List GuardrailCondition)
  | or (conditions : List GuardrailCondition)
  | not (condition : GuardrailCondition)

/-- What happens when the condition matches. -/
inductive GuardrailAction where
  | block (reason : String)
  | redact
  | reclassify (classification : Classification)
  | auditOnly (severity : String)
  | warn (message : String)
  deriving DecidableEq, Repr

/-- Whether a rule applies to all, to a user or to an agent. -/
inductive GuardrailScope where
  | global
  | user (userId : Uuid)
  | agent (agentId : String)
  deriving DecidableEq, Repr

/-- A declarative constraint. -/
structure GuardrailRule where
  id : Uuid
  name : String
  trigger : GuardrailTrigger
  condition : GuardrailCondition
  action : GuardrailAction
  enabled : Bool
  scope : GuardrailScope

/-- The data of the operation for checking conditions. -/
structure EvalContext where
  classification : Option Classification
  entityType : Option String
  edgeLabel : Option String
  content : Option String
  callerRole : Option ApiKeyRole
  factAgeDays : Option Nat
  confidence : Option ℚ
  userId : Option Uuid
  agentId : Option String

/-- Result of evaluating a single rule. -/
structure GuardrailEvalResult where
  ruleId : Uuid
  ruleName : String
  matched : Bool
  action : GuardrailAction
  deriving DecidableEq, Repr

/-- Aggregate result of evaluating all applicable rules. -/
structure GuardrailVerdict where
  blocked : Bool
  /-- The reason of the first action that blocks. -/
  blockReason : Option String
  redact : Bool
  /-- The highest classification to upgrade to. -/
  reclassifyTo : Option Classification
  warnings : List String
  /-- The names of rules to log, with their severities. -/
  auditEntries : List (String × String)
  details : List GuardrailEvalResult
  deriving DecidableEq, Repr

/-- The verdict before any rule. -/
def GuardrailVerdict.default : GuardrailVerdict :=
  { blocked := false
    blockReason := none
    redact := false
    reclassifyTo := none
    warnings := []
    auditEntries := []
    details := [] }

/-! ## Regular expressions -/

/-- The library for regular expressions: a compiler whose programs have a size in bytes. -/
structure RegexEngine where
  Regex : Type
  /-- The program for a pattern, unless the pattern is malformed. -/
  compile : String → Option Regex
  size : Regex → Nat
  isMatch : Regex → String → Bool

/-- The limits that are set on a compilation. -/
structure RegexLimits where
  /-- The greatest size of a program. -/
  sizeLimit : Nat
  /-- The capacity of the cache for matching; it does not make a compilation fail. -/
  dfaSizeLimit : Nat

/-- Build a regular expression; a program above the size limit is refused. -/
def RegexEngine.build (engine : RegexEngine) (limits : RegexLimits) (pattern : String) :
    Option engine.Regex :=
  (engine.compile pattern).filter fun regex => engine.size regex ≤ limits.sizeLimit

/-- The limits when none are set. -/
def RegexLimits.standard : RegexLimits :=
  { sizeLimit := 10 * 2 ^ 20
    dfaSizeLimit := 2 * 2 ^ 20 }

/-- The greatest length of a content that is matched. -/
def maxContentLen : Nat := 100 * 1024

/-- The greatest size of a program during evaluation. -/
def regexSizeLimit : Nat := 256 * 1024

/-- The limits during evaluation. -/
def RegexLimits.evaluation : RegexLimits :=
  { sizeLimit := regexSizeLimit
    dfaSizeLimit := regexSizeLimit }

/-! ## Conditions -/

/-- Whether two texts are equal up to the case of ASCII letters. -/
def eqIgnoreAsciiCase (text other : String) : Bool :=
  Text.toAsciiLowercase text == Text.toAsciiLowercase other

namespace GuardrailCondition

variable (engine : RegexEngine) (ctx : EvalContext)

mutual

/-- Evaluate a condition tree against the context. -/
def evaluate : GuardrailCondition → Bool
  | classificationAbove classification =>
      (ctx.classification.map fun value => decide (classification < value)).getD false
  | entityTypeIn entityTypes =>
      ctx.entityType.any fun entityType => entityTypes.any (eqIgnoreAsciiCase · entityType)
  | edgeLabelIn labels =>
      ctx.edgeLabel.any fun edgeLabel => labels.any (eqIgnoreAsciiCase · edgeLabel)
  | contentMatchesRegex pattern =>
      ctx.content.any fun content =>
        if maxContentLen < Text.byteLength content then false
        else ((engine.build .evaluation pattern).map (engine.isMatch · content)).getD false
  | callerRoleBelow role =>
      (ctx.callerRole.map fun callerRole => decide (callerRole.toNat < role.toNat)).getD false
  | factAgeAboveDays days => (ctx.factAgeDays.map fun age => decide (days < age)).getD false
  | confidenceBelow confidence =>
      (ctx.confidence.map fun value => decide (value < confidence)).getD false
  | and conditions => evaluateAll conditions
  | or conditions => evaluateAny conditions
  | not condition => !evaluate condition

/-- Whether all sub-conditions match. -/
def evaluateAll : List GuardrailCondition → Bool
  | [] => true
  | condition :: conditions => evaluate condition && evaluateAll conditions

/-- Whether any sub-condition matches. -/
def evaluateAny : List GuardrailCondition → Bool
  | [] => false
  | condition :: conditions => evaluate condition || evaluateAny conditions

end

@[simp]
theorem evaluate_and (conditions : List GuardrailCondition) :
    (and conditions).evaluate engine ctx = conditions.all (·.evaluate engine ctx) := by
  rw [evaluate]
  induction conditions with
  | nil => rfl
  | cons condition conditions ih => rw [evaluateAll, ih, List.all_cons]

@[simp]
theorem evaluate_or (conditions : List GuardrailCondition) :
    (or conditions).evaluate engine ctx = conditions.any (·.evaluate engine ctx) := by
  rw [evaluate]
  induction conditions with
  | nil => rfl
  | cons condition conditions ih => rw [evaluateAny, ih, List.any_cons]

@[simp]
theorem evaluate_not (condition : GuardrailCondition) :
    (not condition).evaluate engine ctx = !condition.evaluate engine ctx := by
  rw [evaluate]

end GuardrailCondition

/-! ## Rules -/

/-- Whether the scope of a rule covers the operation. -/
def GuardrailScope.covers (scope : GuardrailScope) (ctx : EvalContext) : Bool :=
  match scope with
  | .global => true
  | .user ruleUser => decide (ctx.userId = some ruleUser)
  | .agent ruleAgent => decide (ctx.agentId = some ruleAgent)

/-- Check whether a rule applies to the given operation and scope. -/
def GuardrailRule.appliesTo (rule : GuardrailRule) (trigger : GuardrailTrigger)
    (ctx : EvalContext) : Bool :=
  if !rule.enabled then false
  else if !rule.trigger.matches trigger then false
  else rule.scope.covers ctx

/-- Keep the highest reclassification. -/
def GuardrailVerdict.raise (verdict : GuardrailVerdict) (classification : Classification) :
    GuardrailVerdict :=
  match verdict.reclassifyTo with
  | none => { verdict with reclassifyTo := some classification }
  | some existing =>
      if existing < classification then { verdict with reclassifyTo := some classification }
      else verdict

/-- Evaluate the remaining rules, with the verdict so far. -/
def evaluateFrom (engine : RegexEngine) (trigger : GuardrailTrigger) (ctx : EvalContext) :
    GuardrailVerdict → List GuardrailRule → GuardrailVerdict
  | verdict, [] => verdict
  | verdict, rule :: rules =>
      if !rule.appliesTo trigger ctx then evaluateFrom engine trigger ctx verdict rules
      else
        let matched := rule.condition.evaluate engine ctx
        let verdict :=
          { verdict with details := verdict.details ++ [⟨rule.id, rule.name, matched, rule.action⟩] }
        if !matched then evaluateFrom engine trigger ctx verdict rules
        else
          match rule.action with
          | .block reason => { verdict with blocked := true, blockReason := some reason }
          | .redact => evaluateFrom engine trigger ctx { verdict with redact := true } rules
          | .reclassify classification =>
              evaluateFrom engine trigger ctx (verdict.raise classification) rules
          | .auditOnly severity =>
              evaluateFrom engine trigger ctx
                { verdict with auditEntries := verdict.auditEntries ++ [(rule.name, severity)] }
                rules
          | .warn message =>
              evaluateFrom engine trigger ctx
                { verdict with warnings := verdict.warnings ++ [message] } rules

/-- Evaluate a set of rules, sorted by priority, against a context for an operation. -/
def evaluateRules (engine : RegexEngine) (rules : List GuardrailRule) (trigger : GuardrailTrigger)
    (ctx : EvalContext) : GuardrailVerdict :=
  evaluateFrom engine trigger ctx .default rules

end Guardrail
end Mnemo
